import MudDialogue.Backlog
import MudDialogue.Proofs.Pattern.Ranges

/-!
# Prompts are recognised in order

A backlog goes through the text that is added to it from the front to the back. What it holds is
always the end of this text. Reads, searches and the depth only move the place where the rest begins,
and never backwards; so what was recognised once, or passed over, or dropped, is not recognised
again, and what is recognised later stands further back in the text. Only when the backlog is cleared
does all this begin anew.

## Main definitions

* `Backlog.Act` — what can be done to a backlog.
* `Backlog.Story` — a backlog with the text that was added and what was recognised in it.
* `Backlog.Story.offset` — the place in the text where the backlog begins.
* `Backlog.Story.Spans` — where in the text everything stood that was recognised.

## Main results

* `Backlog.Story.Sound.offset_extend`, `Backlog.Story.Sound.exists_span` — how far a read and a
  search move the place.
* `Backlog.Story.exists_spans` — what was recognised stood in different places, in order.
* `Backlog.Story.goes_through_text` — a whole story.
-/

namespace MudDialogue.Backlog

open Pattern Text

theorem length_newest (depth : Nat) (bytes : List UInt8) :
    (newest depth bytes).length = min depth bytes.length := by
  rw [newest, List.length_drop]
  omega

/-- What can be done to a backlog. -/
inductive Act : Type 1 where
  /-- The bytes of a read are added. -/
  | extend (read : List UInt8)
  /-- A prompt is looked for. -/
  | search {τ : Type} (set : Prompts τ)
  /-- Everything is dropped. -/
  | clear

/-- What an act leaves of a backlog. A search that recognises nothing leaves it as it is. -/
def act (b : Backlog) : Act → Backlog
  | .extend read => b.extend read
  | .search set => ((b.search set).map Prod.snd).getD b
  | .clear => b.clear

section Search

variable {b rest : Backlog} {τ : Type} {set : Prompts τ} {found : Match τ}

theorem act_of_search_none (h : b.search set = none) : b.act (.search set) = b := by
  simp only [act, h, Option.map_none, Option.getD_none]

theorem act_of_search_some (h : b.search set = some (found, rest)) :
    b.act (.search set) = rest := by
  simp only [act, h, Option.map_some, Option.getD_some]

end Search

@[simp] theorem depth_act (b : Backlog) (a : Act) : (b.act a).depth = b.depth := by
  cases a with
  | extend read => rfl
  | search set =>
    cases hsearch : b.search set with
    | none => rw [act_of_search_none hsearch]
    | some found =>
      obtain ⟨_, -, hrest⟩ := Option.map_eq_some_iff.mp hsearch
      rw [act_of_search_some hsearch, ← (Prod.mk.inj hrest).2, depth_consume]
  | clear => rfl

/-- What has happened to a backlog since it was last cleared. -/
structure Story where
  /-- The backlog as it is now. -/
  backlog : Backlog
  /-- All the text that was added. -/
  text : List UInt8
  /-- What was recognised, in order. -/
  told : List String

namespace Story

/-- A new backlog. -/
def first (depth : Nat) : Story := ⟨empty depth, [], []⟩

/-- The story goes on with an act. -/
def next (s : Story) (a : Act) : Story where
  backlog := s.backlog.act a
  text := match a with
    | .extend read => s.text ++ (Terminal.clean s.backlog.mode read).2
    | .search _ => s.text
    | .clear => []
  told := match a with
    | .extend _ => s.told
    | .search set => s.told ++ ((s.backlog.search set).map (·.1.matched)).toList
    | .clear => []

/-- The story of a backlog of some depth from its beginning. -/
def of (depth : Nat) (acts : List Act) : Story := acts.foldl next (first depth)

/-- How much of the text the backlog does not hold any more. -/
def offset (s : Story) : Nat := s.text.length - s.backlog.content.length

/-- The backlog holds the end of the text, and not more than the depth. -/
structure Sound (depth : Nat) (s : Story) : Prop where
  depth_eq : s.backlog.depth = depth
  suffix : s.backlog.content <:+ s.text
  length_le : s.backlog.content.length ≤ depth

variable {depth : Nat} {s : Story}

theorem sound_first (depth : Nat) : (first depth).Sound depth :=
  ⟨rfl, List.suffix_refl [], Nat.zero_le depth⟩

namespace Sound

theorem content_eq (h : s.Sound depth) : s.backlog.content = s.text.drop s.offset :=
  List.suffix_iff_eq_drop.mp h.suffix

theorem offset_add_length (h : s.Sound depth) :
    s.offset + s.backlog.content.length = s.text.length :=
  Nat.sub_add_cancel h.suffix.length_le

/-! ### One act -/

theorem extend (h : s.Sound depth) (read : List UInt8) : (s.next (.extend read)).Sound depth where
  depth_eq := h.depth_eq
  suffix := by
    obtain ⟨gone, hgone⟩ := h.suffix
    refine (newest_suffix _ _).trans ⟨gone, ?_⟩
    rw [← List.append_assoc, hgone]
    rfl
  length_le := h.depth_eq ▸ length_content_extend_le s.backlog read

/-- **A read moves the place as far as the depth asks for it**, and no further. -/
theorem offset_extend (h : s.Sound depth) (read : List UInt8) :
    (s.next (.extend read)).offset =
      max s.offset ((s.next (.extend read)).text.length - depth) := by
  have hbefore := h.offset_add_length
  have hafter := (h.extend read).offset_add_length
  have hlength : (s.next (.extend read)).text.length =
      s.text.length + (Terminal.clean s.backlog.mode read).2.length := List.length_append
  have hcontent : (s.next (.extend read)).backlog.content.length =
      min depth (s.backlog.content.length + (Terminal.clean s.backlog.mode read).2.length) := by
    have hnewest : (s.next (.extend read)).backlog.content =
        newest depth (s.backlog.content ++ (Terminal.clean s.backlog.mode read).2) :=
      h.depth_eq ▸ rfl
    rw [hnewest, length_newest, List.length_append]
  omega

section Search

variable {τ : Type} {set : Prompts τ} {found : Match τ} {rest : Backlog}

theorem next_of_search_none (hnone : s.backlog.search set = none) : s.next (.search set) = s := by
  simp only [next, act_of_search_none hnone, hnone, Option.map_none, Option.toList_none,
    List.append_nil]

theorem next_of_search_some (hsome : s.backlog.search set = some (found, rest)) :
    s.next (.search set) = ⟨rest, s.text, s.told ++ [found.matched]⟩ := by
  simp only [next, act_of_search_some hsome, hsome, Option.map_some, Option.toList_some]

/-- **A search moves the place to the end of what it recognises**, which stood behind the place
before. -/
theorem exists_span (h : s.Sound depth) (hsome : s.backlog.search set = some (found, rest)) :
    (s.next (.search set)).Sound depth ∧
      ∃ start, s.offset ≤ start ∧ start ≤ (s.next (.search set)).offset ∧
        found.matched = Utf8.text ((s.text.take (s.next (.search set)).offset).drop start) := by
  rw [next_of_search_some hsome]
  obtain ⟨⟨found, stop⟩, hfind, hrest⟩ := Option.map_eq_some_iff.mp hsome
  obtain ⟨rfl, rfl⟩ := Prod.mk.inj hrest
  obtain ⟨start, hle, hstop, hmatched⟩ := Prompts.exists_range_of_find hfind
  have hbefore := h.offset_add_length
  have hoffset : Story.offset ⟨s.backlog.consume stop, s.text, s.told ++ [found.matched]⟩ =
      s.offset + stop := by
    change s.text.length - (s.backlog.content.drop stop).length = _
    rw [List.length_drop]
    omega
  refine ⟨⟨h.depth_eq, (List.drop_suffix _ _).trans h.suffix, ?_⟩, s.offset + start,
    Nat.le_add_right _ _, ?_, ?_⟩
  · exact Nat.le_trans (List.drop_sublist stop s.backlog.content).length_le h.length_le
  · rw [hoffset]
    exact Nat.add_le_add_left hle _
  · rw [hoffset, hmatched, h.content_eq, List.take_drop, List.drop_drop]

end Search

theorem next (h : s.Sound depth) (a : Act) : (s.next a).Sound depth := by
  cases a with
  | extend read => exact h.extend read
  | search set =>
    cases hsearch : s.backlog.search set with
    | none => exact (next_of_search_none hsearch).symm ▸ h
    | some found => exact (h.exists_span hsearch).1
  | clear => exact ⟨h.depth_eq, List.suffix_refl [], Nat.zero_le depth⟩

/-- A cleared backlog is a new one. -/
theorem next_clear (h : s.Sound depth) : s.next .clear = first depth := by
  rw [← h.depth_eq]
  rfl

/-- The place never moves backwards, and text is only added behind the text. -/
theorem mono (h : s.Sound depth) {a : Act} (ha : a ≠ .clear) :
    s.offset ≤ (s.next a).offset ∧ s.text <+: (s.next a).text := by
  cases a with
  | extend read =>
    rw [h.offset_extend]
    exact ⟨Nat.le_max_left _ _, List.prefix_append _ _⟩
  | search set =>
    refine ⟨?_, List.prefix_refl _⟩
    cases hsearch : s.backlog.search set with
    | none => exact Nat.le_of_eq (congrArg offset (next_of_search_none hsearch).symm)
    | some found =>
      obtain ⟨-, start, hle, hstart, -⟩ := h.exists_span hsearch
      exact Nat.le_trans hle hstart
  | clear => exact absurd rfl ha

end Sound

/-! ### What was recognised -/

/-- What was recognised stood in these ranges of the text: one behind the other, and all of them
before the place where the backlog begins. -/
structure Spans (s : Story) (spans : List (Nat × Nat)) : Prop where
  inOrder : spans.Pairwise fun a b => a.2 ≤ b.1
  le : ∀ p ∈ spans, p.1 ≤ p.2
  gone : ∀ p ∈ spans, p.2 ≤ s.offset
  told : s.told = spans.map fun p => Utf8.text ((s.text.take p.2).drop p.1)

variable {spans : List (Nat × Nat)}

/-- Ranges stay what they are when text is added behind and the backlog begins later. -/
theorem Spans.mono {t : Story} (h : s.Spans spans) (hs : s.Sound depth)
    (hoffset : s.offset ≤ t.offset) (htext : s.text <+: t.text) (htold : t.told = s.told) :
    t.Spans spans where
  inOrder := h.inOrder
  le := h.le
  gone := fun p hp => Nat.le_trans (h.gone p hp) hoffset
  told := by
    rw [htold, h.told]
    refine List.map_congr_left fun p hp => ?_
    obtain ⟨more, hmore⟩ := htext
    have hwithin : p.2 ≤ s.text.length := by
      have hle := h.gone p hp
      have hbefore := hs.offset_add_length
      omega
    rw [← hmore, List.take_append_of_le_length hwithin]

theorem Spans.exists_next (h : s.Spans spans) (hs : s.Sound depth) (a : Act) :
    ∃ spans, (s.next a).Spans spans := by
  cases a with
  | extend read =>
    obtain ⟨hoffset, htext⟩ := hs.mono (a := .extend read) Act.noConfusion
    exact ⟨spans, h.mono hs hoffset htext rfl⟩
  | search set =>
    cases hsearch : s.backlog.search set with
    | none => exact ⟨spans, (Sound.next_of_search_none hsearch).symm ▸ h⟩
    | some found =>
      obtain ⟨found, rest⟩ := found
      obtain ⟨-, start, hle, hstart, hmatched⟩ := hs.exists_span hsearch
      have htold : (s.next (.search set)).told = s.told ++ [found.matched] :=
        congrArg Story.told (Sound.next_of_search_some hsearch)
      refine ⟨spans ++ [(start, (s.next (.search set)).offset)], ⟨?_, ?_, ?_, ?_⟩⟩
      · refine List.pairwise_append.mpr ⟨h.inOrder, List.pairwise_singleton _ _, ?_⟩
        intro p hp q hq
        rw [List.mem_singleton.mp hq]
        exact Nat.le_trans (h.gone p hp) hle
      · exact List.forall_mem_append.mpr ⟨h.le, List.forall_mem_singleton.mpr hstart⟩
      · refine List.forall_mem_append.mpr ⟨fun p hp => ?_, List.forall_mem_singleton.mpr ?_⟩
        · exact Nat.le_trans (h.gone p hp) (Nat.le_trans hle hstart)
        · exact Nat.le_refl _
      · rw [htold, h.told, hmatched, List.map_append]
        rfl
  | clear => exact ⟨[], ⟨.nil, nofun, nofun, rfl⟩⟩

/-! ### Whole stories -/

theorem of_append (depth : Nat) (acts more : List Act) :
    of depth (acts ++ more) = more.foldl next (of depth acts) :=
  List.foldl_append

theorem sound_foldl (h : s.Sound depth) (acts : List Act) : (acts.foldl next s).Sound depth := by
  induction acts generalizing s with
  | nil => exact h
  | cons a acts ih => exact ih (h.next a)

theorem sound_of (depth : Nat) (acts : List Act) : (of depth acts).Sound depth :=
  sound_foldl (sound_first depth) acts

/-- Until it is cleared, a backlog only moves on in the text. -/
theorem mono_foldl (h : s.Sound depth) {acts : List Act} (hacts : Act.clear ∉ acts) :
    s.offset ≤ (acts.foldl next s).offset ∧ s.text <+: (acts.foldl next s).text := by
  induction acts generalizing s with
  | nil => exact ⟨Nat.le_refl _, List.prefix_refl _⟩
  | cons a acts ih =>
    obtain ⟨hfirst, hrest⟩ := not_or.mp (mt List.mem_cons.mpr hacts)
    obtain ⟨hoffset, htext⟩ := h.mono (Ne.symm hfirst)
    obtain ⟨hoffset', htext'⟩ := ih (h.next a) hrest
    exact ⟨Nat.le_trans hoffset hoffset', htext.trans htext'⟩

/-- **What was recognised stood in different places, in order.** -/
theorem exists_spans (depth : Nat) (acts : List Act) : ∃ spans, (of depth acts).Spans spans := by
  have hrun {s : Story} {spans : List (Nat × Nat)} (hs : s.Sound depth) (h : s.Spans spans) :
      ∃ spans, (acts.foldl next s).Spans spans := by
    induction acts generalizing s spans with
    | nil => exact ⟨spans, h⟩
    | cons a acts ih =>
      obtain ⟨spans, hnext⟩ := h.exists_next hs a
      exact ih (hs.next a) hnext
  exact hrun (sound_first depth) ⟨.nil, nofun, nofun, rfl⟩

/-- **A backlog goes through its text.** Whatever is done to it, it holds the end of the text that
was added since it was last cleared, and not more of it than its depth. Each read moves the place
where it begins only as far as the depth asks for, a search moves it to the end of what is
recognised, which stood at the place before or behind it, and nothing but clearing moves it
backwards. So everything that was recognised stood in a place of its own, in the order of the
text. -/
theorem goes_through_text (depth : Nat) (acts : List Act) :
    let s := of depth acts
    (s.backlog.content = s.text.drop s.offset ∧ s.backlog.content.length ≤ depth) ∧
      (∃ spans, s.Spans spans) ∧
      (∀ more, Act.clear ∉ more → s.offset ≤ (of depth (acts ++ more)).offset ∧
        s.text <+: (of depth (acts ++ more)).text) ∧
      (∀ read, (s.next (.extend read)).text = s.text ++ (Terminal.clean s.backlog.mode read).2 ∧
        (s.next (.extend read)).offset =
          max s.offset ((s.next (.extend read)).text.length - depth)) ∧
      (∀ {τ : Type} (set : Prompts τ), let t := s.next (.search set)
        match s.backlog.search set with
        | none => t = s
        | some (found, rest) => t.backlog = rest ∧ t.text = s.text ∧
          t.told = s.told ++ [found.matched] ∧
          ∃ start, s.offset ≤ start ∧ start ≤ t.offset ∧
            found.matched = Utf8.text ((s.text.take t.offset).drop start)) ∧
      s.next .clear = first depth := by
  intro s
  have hs : s.Sound depth := sound_of depth acts
  refine ⟨⟨hs.content_eq, hs.length_le⟩, exists_spans depth acts, fun more hmore => ?_,
    fun read => ⟨rfl, hs.offset_extend read⟩, fun set => ?_, hs.next_clear⟩
  · rw [of_append]
    exact mono_foldl hs hmore
  · dsimp only
    cases hsearch : s.backlog.search set with
    | none => exact Sound.next_of_search_none hsearch
    | some found =>
      have hspan := (hs.exists_span hsearch).2
      rw [Sound.next_of_search_some hsearch] at hspan ⊢
      exact ⟨rfl, rfl, rfl, hspan⟩

end Story

end MudDialogue.Backlog
