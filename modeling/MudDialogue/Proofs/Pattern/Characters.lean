import Mathlib.Data.Set.List
import MudDialogue.Proofs.Pattern.FoundWords
import MudDialogue.Proofs.Text.Encoding

/-!
# Texts that a pattern spells

A pattern that looks at nothing takes up the same texts whatever stands behind them. They can be
listed part by part: the texts of a sequence are those of its parts, one after the other, those of a
repetition are lists of rounds, and a class of characters has the characters themselves. With each
text goes the list of the groups on its way.

## Main definitions

* `Regex.Spells` — the texts of a pattern, listed by an index.

## Main results

* `Regex.Spells.cat`, `Regex.Spells.optional`, `Regex.Spells.star` — the texts of what is put
  together.
-/

namespace MudDialogue.Pattern.Regex

open Text Text.Utf8

/-- The texts of a pattern, whatever stands behind them: for each index the names of the groups on
the way and the characters that are taken up. -/
def Spells {ι : Type} (r : Regex) (names : ι → List String) (text : ι → List Char) : Prop :=
  ∀ groups word rest, r.Takes groups word rest ↔ ∃ i, groups = names i ∧ word = encode (text i)

variable {ι κ : Type} {r s : Regex} {names : ι → List String}
  {text : ι → List Char} {names' : κ → List String} {text' : κ → List Char}

namespace Spells

/-- The same texts may be listed by another index. -/
theorem of_surjective (h : r.Spells names text) {f : ι → κ} (hf : f.Surjective)
    (hnames : ∀ i, names i = names' (f i)) (htext : ∀ i, text i = text' (f i)) :
    r.Spells names' text' := by
  intro groups word rest
  rw [h, hf.exists]
  simp only [hnames, htext]

/-- The texts of two parts, one after the other. -/
theorem cat (hr : r.Spells names text) (hs : s.Spells names' text') : (cat r s).Spells
    (fun i : ι × κ => names i.1 ++ names' i.2) (fun i => text i.1 ++ text' i.2) := by
  intro groups word rest
  rw [takes_cat_iff]
  constructor
  · rintro ⟨first, more, u, v, rfl, rfl, hu, hv⟩
    obtain ⟨i, rfl, rfl⟩ := (hr _ _ _).mp hu
    obtain ⟨k, rfl, rfl⟩ := (hs _ _ _).mp hv
    exact ⟨(i, k), rfl, (encode_append _ _).symm⟩
  · rintro ⟨⟨i, k⟩, rfl, rfl⟩
    exact ⟨_, _, _, _, rfl, encode_append _ _, (hr _ _ _).mpr ⟨i, rfl, rfl⟩,
      (hs _ _ _).mpr ⟨k, rfl, rfl⟩⟩

theorem group (h : r.Spells names text) (name : String) :
    (group name r).Spells (fun i => name :: names i) text := by
  intro groups word rest
  rw [takes_group_iff]
  constructor
  · rintro ⟨inner, rfl, hword⟩
    obtain ⟨i, rfl, rfl⟩ := (h _ _ _).mp hword
    exact ⟨i, rfl, rfl⟩
  · rintro ⟨i, rfl, rfl⟩
    exact ⟨_, rfl, (h _ _ _).mpr ⟨i, rfl, rfl⟩⟩

/-- A text of the part or nothing. -/
theorem optional (h : r.Spells names text) : (optional true r).Spells
    (fun i? : Option ι => i?.elim [] names) (fun i? => i?.elim [] text) := by
  intro groups word rest
  rw [Regex.optional, if_pos rfl, takes_alt_iff, takes_empty_iff, h, Option.exists, or_comm]
  rfl

/-- The texts of the rounds, one after the other. -/
theorem star (h : r.Spells names text) (htext : ∀ i, text i ≠ []) (greedy : Bool) :
    (star greedy r).Spells
    (fun rounds : List ι => rounds.flatMap names) (fun rounds => rounds.flatMap text) := by
  intro groups word rest
  constructor
  · intro hword
    generalize hstar : Regex.star greedy r = s at hword
    induction hword with
    | done => exact ⟨[], rfl, rfl⟩
    | round hround hu hv ihround ihv =>
      obtain ⟨rfl, rfl⟩ := Regex.star.inj hstar
      obtain ⟨i, rfl, rfl⟩ := (h _ _ _).mp hround
      obtain ⟨rounds, rfl, rfl⟩ := ihv rfl
      exact ⟨i :: rounds, rfl, (encode_append _ _).symm⟩
    | _ => cases hstar
  · rintro ⟨rounds, rfl, rfl⟩
    induction rounds with
    | nil => exact .done
    | cons i rounds ih =>
      have hround : r.Takes (names i) (encode (text i)) (encode (rounds.flatMap text) ++ rest) :=
        (h _ _ _).mpr ⟨i, rfl, rfl⟩
      dsimp only
      rw [List.flatMap_cons, List.flatMap_cons, encode_append]
      refine .round hround ?_ ih
      rw [encode, Ne, List.flatMap_eq_nil_iff]
      intro hnil
      obtain ⟨c, cs, hcs⟩ := List.exists_cons_of_ne_nil (htext i)
      exact String.utf8EncodeChar_ne_nil (hnil c (hcs ▸ List.mem_cons_self))

end Spells

theorem groupNames_foldl (bs : List UInt8) :
    ((bs.map fun b => atom (.byte (.single b.toNat))).foldl cat r).groupNames = r.groupNames := by
  induction bs generalizing r with
  | nil => rfl
  | cons b bs ih =>
    rw [List.map_cons, List.foldl_cons, ih]
    exact List.append_nil r.groupNames

/-- A text spells itself. -/
theorem spells_literal (s : String) :
    (literal s).Spells (fun _ : Unit => []) (fun _ => s.toList) := by
  have hgroups : (literal s).groupNames = [] := by
    unfold literal Regex.bytes
    cases Utf8.bytes s with
    | nil => rfl
    | cons b bs => exact groupNames_foldl bs
  intro groups word rest
  rw [takes_iff_of_groupNames hgroups, accepts_literal_iff]
  exact ⟨fun h => ⟨(), h⟩, fun ⟨_, h⟩ => h⟩

/-- A character spells itself. -/
theorem spells_char (c : Char) : (char c).Spells (fun _ : Unit => []) (fun _ => [c]) := by
  have hliteral : char c = literal (String.ofList [c]) := by
    rw [char, literal, bytes_eq_encode, String.toList_ofList, encode, List.flatMap_singleton]
  have h := spells_literal (String.ofList [c])
  rwa [String.toList_ofList, ← hliteral] at h

/-- A class of characters spells each of them. -/
theorem spells_scalar (accepts : CodeSet) : (atom (.scalar accepts)).Spells
    (fun _ : {c : Char // accepts.contains c.toNat} => []) (fun c => [c.1]) := by
  intro groups word rest
  rw [takes_iff_of_groupNames rfl, exists_and_left]
  refine and_congr_right fun _ => ⟨fun h => ?_, ?_⟩
  · cases h with
    | atom h =>
      cases word with
      | nil => cases h
      | cons b bytes =>
        cases hfront : front b bytes with
        | invalid w => simp [Atom.width?, hfront] at h
        | cut => simp [Atom.width?, hfront] at h
        | scalar c w =>
          simp only [Atom.width?, hfront] at h
          split_ifs at h with hc
          obtain rfl : w = (b :: bytes).length := Option.some.inj h
          refine ⟨⟨c, hc⟩, ?_⟩
          rw [encode, List.flatMap_singleton, ← take_of_front hfront, List.take_length]
  · rintro ⟨⟨c, hc⟩, rfl⟩
    obtain ⟨b, bytes, hencoding⟩ :=
      List.exists_cons_of_ne_nil (String.utf8EncodeChar_ne_nil (c := c))
    have hfront := front_of_encoding hencoding []
    rw [List.append_nil] at hfront
    rw [encode, List.flatMap_singleton, hencoding]
    refine .atom ?_
    simp only [Atom.width?, hfront]
    rw [if_pos hc, List.length_cons]

/-- A repetition of a class spells each text of its characters. -/
theorem spells_scalars (greedy : Bool) (accepts : CodeSet) :
    (star greedy (atom (.scalar accepts))).Spells
      (fun _ : {cs : List Char // ∀ c ∈ cs, accepts.contains c.toNat} => []) (fun cs => cs.1) := by
  have hrounds := (spells_scalar accepts).star (fun _ => List.cons_ne_nil _ _) greedy
  have hmem (rounds : List {c : Char // accepts.contains c.toNat}) :
      ∀ c ∈ rounds.map Subtype.val, accepts.contains c.toNat := by
    intro c hc
    obtain ⟨d, -, rfl⟩ := List.mem_map.mp hc
    exact d.2
  refine hrounds.of_surjective (f := fun rounds => ⟨rounds.map Subtype.val, hmem rounds⟩) ?_
    (fun rounds => ?_) fun rounds => ?_
  · rintro ⟨cs, hcs⟩
    lift cs to List {c : Char // accepts.contains c.toNat} using hcs
    exact ⟨cs, rfl⟩
  · exact List.flatMap_eq_nil_iff.mpr fun _ _ => rfl
  · exact List.map_eq_flatMap.symm

end MudDialogue.Pattern.Regex
