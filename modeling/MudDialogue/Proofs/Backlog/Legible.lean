import MudDialogue.Proofs.Backlog.InOrder
import MudDialogue.Proofs.Backlog.Reads
import MudDialogue.Proofs.Terminal.CleanText
import MudDialogue.Telnet

/-!
# Prompts are looked for in clean text

What a server sends goes through two filters before prompts are looked for in it. Whatever it sends,
the backlog behind them holds the end of a clean text. The depth and the prompts that are recognised
may take the first bytes away, so the first character can be cut; nothing else is out of place.

## Main definitions

* `Backlog.Inflow` — a telnet stream and the backlog of the output in it.

## Main results

* `Backlog.Reachable.exists_clean` — a backlog holds the end of a clean text.
* `Backlog.Inflow.content_legible` — so does one behind a telnet stream.
-/

namespace MudDialogue.Backlog

open Terminal Text

/-- **A backlog holds the end of a clean text.** -/
theorem Reachable.exists_clean {b : Backlog} (h : b.Reachable) :
    ∃ text, IsClean text ∧ b.content <:+ text := by
  induction h with
  | empty depth => exact ⟨[], isClean_nil, List.suffix_refl []⟩
  | @extend b h read ih =>
    obtain ⟨text, hclean, gone, rfl⟩ := ih
    refine ⟨gone ++ b.content ++ (clean b.mode read).2,
      hclean.append (isClean_clean h.sound.2 read), (newest_suffix _ _).trans ⟨gone, ?_⟩⟩
    exact (List.append_assoc _ _ _).symm
  | @search b rest h τ set found hfound ih =>
    obtain ⟨text, hclean, hsuffix⟩ := ih
    obtain ⟨⟨_, stop⟩, -, hrest⟩ := Option.map_eq_some_iff.mp hfound
    obtain ⟨-, rfl⟩ := Prod.mk.inj hrest
    exact ⟨text, hclean, (List.drop_suffix stop b.content).trans hsuffix⟩
  | clear h ih => exact ⟨[], isClean_nil, List.suffix_refl []⟩

theorem Reachable.act {b : Backlog} (h : b.Reachable) (a : Act) : (b.act a).Reachable := by
  cases a with
  | extend read => exact .extend h read
  | search set =>
    cases hsearch : b.search set with
    | none => exact (act_of_search_none hsearch).symm ▸ h
    | some found => exact (act_of_search_some hsearch).symm ▸ .search h hsearch
  | clear => exact .clear h

/-- A telnet stream and the backlog of the output in it. -/
structure Inflow where
  /-- Where the stream stands between telnet commands. -/
  telnet : Telnet.Mode
  /-- The output that is left of it. -/
  backlog : Backlog

namespace Inflow

/-- A stream at its start. -/
def start (depth : Nat) : Inflow := ⟨.data, .empty depth⟩

/-- The stream goes on with an act. A read is one of the stream: the telnet commands are taken out of
it before it goes to the backlog. -/
def next (i : Inflow) : Act → Inflow
  | .extend raw =>
    let (telnet, parted) := Telnet.partRead i.telnet raw
    ⟨telnet, i.backlog.extend parted.text⟩
  | .search set => { i with backlog := i.backlog.act (.search set) }
  | .clear => { i with backlog := i.backlog.act .clear }

theorem reachable_next {i : Inflow} (h : i.backlog.Reachable) (a : Act) :
    (i.next a).backlog.Reachable := by
  cases a with
  | extend raw => exact .extend h _
  | search set => exact h.act (.search set)
  | clear => exact h.act .clear

theorem depth_next (i : Inflow) (a : Act) : (i.next a).backlog.depth = i.backlog.depth := by
  cases a with
  | extend raw => rfl
  | search set => exact depth_act _ _
  | clear => rfl

theorem reachable_foldl {i : Inflow} (h : i.backlog.Reachable) (acts : List Act) :
    (acts.foldl next i).backlog.Reachable ∧
      (acts.foldl next i).backlog.depth = i.backlog.depth := by
  induction acts generalizing i with
  | nil => exact ⟨h, rfl⟩
  | cons a acts ih =>
    obtain ⟨hreachable, hdepth⟩ := ih (reachable_next h a)
    exact ⟨hreachable, hdepth.trans (i.depth_next a)⟩

/-- **Only clean text is searched for prompts.** Whatever a server sends, and whenever prompts are
looked for and the backlog is cleared, the backlog holds the end of an encoded text, in which no
control character remains but TAB, LF and CR; none of its bytes is one that no encoding has; and it
holds no more of them than its depth. -/
theorem content_legible (depth : Nat) (acts : List Act) :
    let content := (acts.foldl next (start depth)).backlog.content
    (∃ text : String, (∀ c ∈ text.toList, IsLegible c) ∧ content <:+ Utf8.bytes text) ∧
      (∀ b ∈ content, (b < 0x20 → b = 0x09 ∨ b = 0x0A ∨ b = 0x0D) ∧
        b ≠ 0xC0 ∧ b ≠ 0xC1 ∧ b < 0xF5) ∧
      content.length ≤ depth := by
  obtain ⟨hreachable, hdepth⟩ := reachable_foldl (i := start depth) (.empty depth) acts
  obtain ⟨bytes, hclean, hsuffix⟩ := hreachable.exists_clean
  have hlength := hreachable.sound.1
  rw [hdepth] at hlength
  refine ⟨?_, fun b hb => hclean.byte (hsuffix.subset hb), hlength⟩
  obtain ⟨text, htext, rfl⟩ := hclean
  exact ⟨text, htext, hsuffix⟩

end Inflow

end MudDialogue.Backlog
