import MudDialogue.Proofs.Pattern.Characters
import MudDialogue.Proofs.World.Grammar

/-!
# The pattern and the grammar of a list of exits

The pattern for a list of exits is put together from classes of characters, labels and optional
exits. What it takes up is found part by part: each part spells the texts that the grammar has for
it, and the exits of the eight directions are an induction over the directions. At the end of a line
the pattern has more ways than the grammar, since a word for no exits and blanks may stand behind a
marker or belong to its label; both ways take up the same text.

## Main definitions

* `ExitLine.Compass` — exits in some of the given directions, with their labels.

## Main results

* `ExitLine.spells_exits` — the exits that the pattern takes up.
* `ExitLine.takes_pattern_iff` — the pattern takes up the lines that list exits.
-/

namespace MudDialogue.ExitLine

open Pattern Pattern.Regex Text Text.Utf8

/-! ### The parts of the pattern -/

theorem contains_label (c : Char) :
    (CodeSet.compl CodeSet.lastScalar (.ofChars ['[', '\r', '\n'])).contains c.toNat ↔
      c ≠ '[' ∧ c ≠ '\r' ∧ c ≠ '\n' := by
  have hranges : CodeSet.compl CodeSet.lastScalar (.ofChars ['[', '\r', '\n']) =
      [(0, 0x09), (0x0B, 0x0C), (0x0E, 0x5A), (0x5C, 0x10FFFF)] := by decide
  have hopen : '['.toNat = 0x5B := rfl
  have hreturn : '\r'.toNat = 0x0D := rfl
  have hnewline : '\n'.toNat = 0x0A := rfl
  have hlast : c.toNat < 0x110000 := by
    rcases c.valid with h | h
    · exact Nat.lt_trans h (by decide)
    · exact h.2
  rw [hranges, Ne, Ne, Ne, ← Char.toNat_inj, ← Char.toNat_inj, ← Char.toNat_inj, hopen, hreturn,
    hnewline]
  simp only [CodeSet.contains, Bool.and_eq_true, Bool.or_eq_true, decide_eq_true_eq,
    Bool.false_eq_true, or_false]
  omega

theorem spells_blanks : blanks.Spells (fun _ : Blanks => []) Blanks.chars :=
  have hset (c : Char) :
      (CodeSet.ofChars [' ', '\t']).contains c.toNat ↔ c = ' ' ∨ c = '\t' := by
    simp [CodeSet.contains_ofChars]
  (spells_scalars _ _).of_surjective
    (f := fun cs => ⟨cs.1, fun c hc => (hset c).mp (cs.2 c hc)⟩)
    (fun b => ⟨⟨b.chars, fun c hc => (hset c).mpr (b.blank c hc)⟩, rfl⟩)
    (fun _ => rfl) fun _ => rfl

theorem spells_label : label.Spells (fun _ : Label => []) Label.chars :=
  (spells_scalars _ _).of_surjective
    (f := fun cs => ⟨cs.1, fun c hc => (contains_label c).mp (cs.2 c hc)⟩)
    (fun l => ⟨⟨l.chars, fun c hc => (contains_label c).mpr (l.plain c hc)⟩, rfl⟩)
    (fun _ => rfl) fun _ => rfl

variable {ι : Type} {r : Regex} {names : ι → List String} {text : ι → List Char}

/-- Brackets and a label around a part. -/
theorem spells_marker (h : r.Spells names text) :
    (concat [.char '[', r, .char ']', label]).Spells (fun i : ι × Label => names i.1)
      (fun i => '[' :: (text i.1 ++ ']' :: i.2.chars)) :=
  ((((spells_char '[').cat h).cat (spells_char ']')).cat spells_label).of_surjective
    (f := fun i => (i.1.1.2, i.2)) (fun i => ⟨((((), i.1), ()), i.2), rfl⟩)
    (fun i => by simp) fun i => by simp

theorem spells_exit (d : Direction) : (exit d).Spells
    (fun label? : Option Label => label?.elim [] fun _ => [d.groupName])
    (fun label? => label?.elim [] (item (marker d))) :=
  (spells_marker ((spells_literal d.code).group d.groupName)).optional.of_surjective
    (f := Option.map Prod.snd)
    (by
      rintro (_ | l)
      · exact ⟨none, rfl⟩
      · exact ⟨some ((), l), rfl⟩)
    (by rintro (_ | _) <;> rfl) (by rintro (_ | _) <;> rfl)

/-- Exits in some of these directions, in this order, with their labels. -/
def Compass (ds : List Direction) : Type :=
  {items : List (Direction × Label) // (items.map Prod.fst).Sublist ds}

/-- An exit in the first direction, if there is one, is listed first. -/
def Compass.listed {d : Direction} {ds : List Direction} (label? : Option Label)
    (compass : Compass ds) : Compass (d :: ds) :=
  match label? with
  | none => ⟨compass.1, compass.2.cons d⟩
  | some l => ⟨(d, l) :: compass.1, compass.2.cons_cons d⟩

/-- Exits are listed in order behind what comes first. -/
theorem spells_exits (hr : r.Spells names text) (ds : List Direction) :
    ((ds.map exit).foldl cat r).Spells
      (fun i : ι × Compass ds => names i.1 ++ (i.2.1.map Prod.fst).map Direction.groupName)
      (fun i => text i.1 ++ listing marker i.2.1) := by
  induction ds generalizing ι r with
  | nil =>
    refine hr.of_surjective (f := fun i => (i, ⟨[], List.nil_sublist _⟩)) ?_
      (fun i => (List.append_nil _).symm) fun i => (List.append_nil _).symm
    rintro ⟨i, items, hitems⟩
    obtain rfl := List.map_eq_nil_iff.mp (List.sublist_nil.mp hitems)
    exact ⟨i, rfl⟩
  | cons d ds ih =>
    refine (ih (hr.cat (spells_exit d))).of_surjective
      (f := fun i => (i.1.1, i.2.listed i.1.2)) ?_ ?_ ?_
    · rintro ⟨i, items, hitems⟩
      rcases List.sublist_cons_iff.mp hitems with h | ⟨others, h, hothers⟩
      · exact ⟨((i, none), ⟨items, h⟩), rfl⟩
      · obtain ⟨⟨_, l⟩, items, rfl, rfl, rfl⟩ := List.map_eq_cons_iff.mp h
        exact ⟨((i, some l), ⟨items, hothers⟩), rfl⟩
    · rintro ⟨⟨i, _ | l⟩, compass⟩ <;> simp [Compass.listed]
    · rintro ⟨⟨i, _ | l⟩, compass⟩ <;> simp [Compass.listed, listing]

theorem spells_ladders :
    ladders.Spells (fun _ : List (Ladder × Label) => []) (listing Ladder.marker) := by
  have hladder : (atom (.scalar (.ofChars ['U', 'D']))).Spells (fun _ : Ladder => [])
      (fun ladder => ladder.marker.chars) := by
    refine (spells_scalar _).of_surjective (f := fun c => if c.1 = 'U' then .up else .down)
      ?_ (fun _ => rfl) fun c => ?_
    · rintro (_ | _)
      · exact ⟨⟨'U', rfl⟩, rfl⟩
      · exact ⟨⟨'D', rfl⟩, rfl⟩
    · have hletter : c.1 = 'U' ∨ c.1 = 'D' := by
        simpa using (CodeSet.contains_ofChars _ _).mp c.2
      rcases hletter with h | h <;> rw [h] <;> rfl
  refine ((spells_marker hladder).star (fun _ => List.cons_ne_nil _ _) true).of_surjective
    (f := id) Function.surjective_id (fun _ => ?_) fun _ => rfl
  exact List.flatMap_eq_nil_iff.mpr fun _ _ => rfl

/-! ### The whole pattern -/

/-- **The pattern takes up the lines that list exits**, on a way through the groups of their
directions. -/
theorem takes_pattern_iff {groups : List String} {word rest : List UInt8} :
    pattern.Takes groups word rest ↔ ∃ directions chars, Lists directions chars ∧
      groups = directions.map Direction.groupName ∧ word = encode chars := by
  have h := ((((((spells_exits ((spells_literal "Exits:").cat spells_blanks) Direction.all).cat
    spells_ladders).cat (spells_literal "None").optional).cat spells_blanks).cat
    (spells_char '\r').optional).cat (spells_char '\n')) groups word rest
  refine Iff.trans h ⟨?_, ?_⟩
  · rintro ⟨⟨⟨⟨⟨⟨⟨⟨-, blanks⟩, compass⟩, ladders⟩, word?⟩, more⟩, carriage?⟩, -⟩, rfl, rfl⟩
    have hword : word?.elim [] (fun _ => "None".toList) = [] ∨
        word?.elim [] (fun _ => "None".toList) = "None".toList := by
      cases word?
      · exact .inl rfl
      · exact .inr rfl
    have hending : carriage?.elim [] (fun _ => ['\r']) ++ ['\n'] = ending carriage?.isSome := by
      cases carriage? <;> rfl
    refine ⟨_, _, .of_parts blanks compass.2 ladders hword more carriage?.isSome, ?_, ?_⟩
    · cases word? <;> cases carriage? <;> simp
    · rw [← hending]
      simp [head]
  · rintro ⟨directions, chars, hlists, rfl, rfl⟩
    have hending (carriage : Bool) : ∃ carriage? : Option Unit,
        ending carriage = carriage?.elim [] (fun _ => ['\r']) ++ ['\n'] := by
      cases carriage
      · exact ⟨none, rfl⟩
      · exact ⟨some (), rfl⟩
    cases hlists with
    | markers blanks compass ladders carriage hcompass =>
      obtain ⟨carriage?, hcarriage⟩ := hending carriage
      refine ⟨⟨⟨⟨⟨⟨⟨⟨(), blanks⟩, ⟨compass, hcompass⟩⟩, ladders⟩, none⟩, ⟨[], nofun⟩⟩, carriage?⟩, ()⟩,
        ?_, ?_⟩
      · cases carriage? <;> simp
      · rw [hcarriage]
        simp [head]
    | nothing blanks more word hword carriage =>
      obtain ⟨carriage?, hcarriage⟩ := hending carriage
      obtain ⟨word?, rfl⟩ : ∃ word? : Option Unit,
          word = word?.elim [] (fun _ => "None".toList) := by
        rcases hword with rfl | rfl
        · exact ⟨none, rfl⟩
        · exact ⟨some (), rfl⟩
      refine ⟨⟨⟨⟨⟨⟨⟨⟨(), blanks⟩, ⟨[], List.nil_sublist _⟩⟩, []⟩, word?⟩, more⟩, carriage?⟩, ()⟩,
        ?_, ?_⟩
      · cases carriage? <;> cases word? <;> simp
      · rw [hcarriage]
        simp [head, listing]

end MudDialogue.ExitLine
