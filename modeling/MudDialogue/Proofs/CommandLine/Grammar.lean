import Mathlib.Data.List.Forall2
import MudDialogue.Proofs.CommandLine.Numbers
import MudDialogue.Proofs.Text.Encoding

/-!
# The grammar of a command line

A command line is taken just if each of its arguments, from left to right, asks for no help, is no
unknown option, and fits into the next place that is left, and no place that needs an argument stays
empty. The first argument that does not decides between the two ways in which the program ends at
once: with its description, as a success, or with the line of its usage.

A port may be zeros with a minus sign. Such an argument can only stand behind the double dash, since
it is an unknown option in front of it.

## Main definitions

* `Meets` — how an argument is refused, behind the arguments in front of it.
* `IsClean`, `FirstMeets` — no argument is refused, and how the first one that is refused is.
* `Command.Obeys` — the outcome of a command line is the one that the grammar tells.
* `WanderArguments.Gives`, `ProvisionArguments.Gives` — what the positional arguments give.

## Main results

* `Slot.scan_eq_error_iff` — the first argument that is refused decides.
* `parse_grammar` — both programs obey their grammars.
-/

namespace MudDialogue.CommandLine

open Text

/-! ### Arguments one by one -/

/-- The argument behind which everything is positional. -/
def separator : List UInt8 := Utf8.bytes "--"

/-- The argument begins with a dash, and more than that. -/
def IsDashed (arg : List UInt8) : Prop := Utf8.bytes "-" <+: arg ∧ arg ≠ Utf8.bytes "-"

/-- The argument asks for help. -/
def AsksForHelp (arg : List UInt8) : Prop := arg = Utf8.bytes "--help" ∨ Utf8.bytes "-h" <+: arg

/-- Of arguments none of which is refused, the positional ones: all but the first double dash. -/
def positionals (args : List (List UInt8)) : List (List UInt8) := args.erase separator

/-- The argument is a text that the place of that number takes. -/
def Fits (places : List (String → Prop)) (k : Nat) (arg : List UInt8) : Prop :=
  ∃ text takes, arg = Utf8.bytes text ∧ places[k]? = some takes ∧ takes text

/-- How an argument is refused behind the arguments `before`, none of which is. -/
inductive Meets (places : List (String → Prop)) (before : List (List UInt8)) (arg : List UInt8) :
    Refusal → Prop where
  /-- It asks for help. -/
  | help (hbefore : separator ∉ before) (h : AsksForHelp arg) : Meets places before arg .help
  /-- It is another option. -/
  | option (hbefore : separator ∉ before) (hdashed : IsDashed arg) (hseparator : arg ≠ separator)
      (hhelp : ¬ AsksForHelp arg) : Meets places before arg .problem
  /-- It is positional and does not fit into the next place. -/
  | misfit (hpositional : separator ∈ before ∨ ¬ IsDashed arg)
      (h : ¬ Fits places (positionals before).length arg) : Meets places before arg .problem

/-- No argument is refused. -/
def IsClean (places : List (String → Prop)) (args : List (List UInt8)) : Prop :=
  ∀ before arg rest r, args = before ++ arg :: rest → ¬ Meets places before arg r

/-- The first argument that is refused is so in that way. -/
def FirstMeets (places : List (String → Prop)) (args : List (List UInt8)) (r : Refusal) : Prop :=
  ∃ before arg rest, args = before ++ arg :: rest ∧ IsClean places before ∧
    Meets places before arg r

variable {arg : List UInt8} {args before : List (List UInt8)} {places : List (String → Prop)}
  {r : Refusal} {k : Nat}

instance : DecidablePred IsDashed := fun _ => inferInstanceAs (Decidable (_ ∧ _))

instance : DecidablePred AsksForHelp := fun _ => inferInstanceAs (Decidable (_ ∨ _))

theorem isDashed_iff : IsDashed arg ↔ ∃ b bytes, arg = 0x2D :: b :: bytes := by
  have hdash : Utf8.bytes "-" = [0x2D] := by decide
  rw [IsDashed, hdash]
  constructor
  · rintro ⟨⟨_ | ⟨b, bytes⟩, rfl⟩, hne⟩
    · exact absurd rfl hne
    · exact ⟨b, bytes, rfl⟩
  · rintro ⟨b, bytes, rfl⟩
    exact ⟨⟨b :: bytes, rfl⟩, by simp⟩

theorem asksForHelp_iff :
    AsksForHelp arg ↔ arg = Utf8.bytes "--help" ∨ ∃ bytes, arg = 0x2D :: 0x68 :: bytes := by
  have hflag : Utf8.bytes "-h" = [0x2D, 0x68] := by decide
  rw [AsksForHelp, hflag]
  exact or_congr_right (exists_congr fun _ => eq_comm)

theorem shape_eq_separator_iff : shape arg = .separator ↔ arg = separator := by
  unfold shape
  rw [← separator]
  split_ifs with hseparator hhelp
  · exact iff_of_true rfl hseparator
  · exact iff_of_false nofun hseparator
  · refine iff_of_false ?_ hseparator
    split <;> nofun

theorem shape_eq_help_iff : shape arg = .help ↔ AsksForHelp arg := by
  unfold shape
  split_ifs with hseparator hhelp
  · subst hseparator
    exact iff_of_false nofun (by decide)
  · exact iff_of_true rfl (.inl hhelp)
  · rw [asksForHelp_iff, or_iff_right hhelp]
    split
    next bytes => exact iff_of_true rfl ⟨bytes, rfl⟩
    next hletter =>
      exact iff_of_false nofun fun ⟨_, h⟩ => hletter (List.cons.inj (List.cons.inj h).2).1
    next hdash => exact iff_of_false nofun fun ⟨bytes, h⟩ => hdash _ _ h

theorem shape_eq_positional_iff : shape arg = .positional ↔ ¬ IsDashed arg := by
  unfold shape
  split_ifs with hseparator hhelp
  · subst hseparator
    exact iff_of_false nofun (by decide)
  · subst hhelp
    exact iff_of_false nofun (by decide)
  · rw [isDashed_iff]
    split
    next bytes => exact iff_of_false nofun fun h => h ⟨_, _, rfl⟩
    next b bytes _ => exact iff_of_false nofun fun h => h ⟨_, _, rfl⟩
    next hdash => exact iff_of_true rfl fun ⟨_, _, h⟩ => hdash _ _ h

theorem shape_eq_option_iff :
    shape arg = .option ↔ IsDashed arg ∧ arg ≠ separator ∧ ¬ AsksForHelp arg := by
  rw [← not_not (a := IsDashed arg), ← shape_eq_positional_iff, ne_eq, ← shape_eq_separator_iff,
    ← shape_eq_help_iff]
  cases shape arg <;> decide

theorem ne_separator_of_shape (h : shape arg = .positional) : arg ≠ separator := by
  rintro rfl
  cases (shape_eq_separator_iff.mpr rfl).symm.trans h

/-! ### Refusals -/

theorem fits_iff_drop : Fits places k arg ↔ Fits (places.drop k) 0 arg := by
  simp only [Fits, List.getElem?_drop, Nat.add_zero]

theorem meets_of_mem (h : separator ∈ before) :
    Meets places before arg r ↔ r = .problem ∧ ¬ Fits places (positionals before).length arg := by
  constructor
  · rintro (⟨hbefore, -⟩ | ⟨hbefore, -, -, -⟩ | ⟨-, hfits⟩)
    · exact absurd h hbefore
    · exact absurd h hbefore
    · exact ⟨rfl, hfits⟩
  · rintro ⟨rfl, hfits⟩
    exact .misfit (.inl h) hfits

/-- In front of the double dash the shape of an argument decides how it is met. -/
theorem meets_of_not_mem (h : separator ∉ before) : Meets places before arg r ↔
    (r = .help ∧ shape arg = .help) ∨ (r = .problem ∧ shape arg = .option) ∨
      (r = .problem ∧ shape arg = .positional ∧
        ¬ Fits places (positionals before).length arg) := by
  rw [shape_eq_help_iff, shape_eq_option_iff, shape_eq_positional_iff]
  constructor
  · rintro (⟨-, hhelp⟩ | ⟨-, hdashed, hseparator, hhelp⟩ | ⟨hpositional, hfits⟩)
    · exact .inl ⟨rfl, hhelp⟩
    · exact .inr (.inl ⟨rfl, hdashed, hseparator, hhelp⟩)
    · exact .inr (.inr ⟨rfl, hpositional.resolve_left h, hfits⟩)
  · rintro (⟨rfl, hhelp⟩ | ⟨rfl, hdashed, hseparator, hhelp⟩ | ⟨rfl, hpositional, hfits⟩)
    · exact .help h hhelp
    · exact .option h hdashed hseparator hhelp
    · exact .misfit (.inr hpositional) hfits

/-- What an argument is met as does not change if more arguments follow. -/
theorem FirstMeets.append (h : FirstMeets places args r) (more : List (List UInt8)) :
    FirstMeets places (args ++ more) r := by
  obtain ⟨before, arg, rest, rfl, hclean, hmeets⟩ := h
  exact ⟨before, arg, rest ++ more, by rw [List.append_assoc, List.cons_append], hclean, hmeets⟩

theorem FirstMeets.not_isClean (h : FirstMeets places args r) : ¬ IsClean places args := by
  obtain ⟨before, arg, rest, hargs, -, hmeets⟩ := h
  exact fun hclean => hclean before arg rest r hargs hmeets

namespace Slot

variable {α : Type} {slots left : List (Slot α)} {a b : α} {xs ys : List (List UInt8)}
  {literal : Bool}

/-- The slots can be filled with what the places take, whatever has been filled in before. -/
def Agree (slots : List (Slot α)) (places : List (String → Prop)) : Prop :=
  List.Forall₂ (fun slot takes => ∀ text a, (slot.fill text a).isSome ↔ takes text) slots places

theorem place_eq_ok_iff : place slots a arg = .ok (left, b) ↔
    ∃ slot text, slots = slot :: left ∧ arg = Utf8.bytes text ∧ slot.fill text a = some b := by
  constructor
  · intro h
    unfold place at h
    split at h
    next slot slots text htext =>
      split at h
      next hfill =>
        obtain ⟨rfl, rfl⟩ := Prod.mk.inj (Except.ok.inj h)
        exact ⟨slot, text, rfl, Utf8.text?_eq_some_iff.mp htext, hfill⟩
      next => cases h
    next => cases h
  · rintro ⟨slot, text, rfl, rfl, hfill⟩
    simp only [place, Utf8.text?_eq_some_iff.mpr rfl, hfill]

theorem eq_problem_of_place (h : place slots a arg = .error r) : r = .problem := by
  unfold place at h
  split at h
  · split at h <;> cases h
    rfl
  · cases h
    rfl

/-- An argument that fits is one with which the next slot is filled. -/
theorem fits_iff_place (hagree : Agree slots places) (a : α) :
    Fits places 0 arg ↔ ∃ left b, place slots a arg = .ok (left, b) := by
  simp only [place_eq_ok_iff]
  cases hagree with
  | nil =>
    constructor
    · rintro ⟨text, takes, -, htakes, -⟩
      cases htakes
    · rintro ⟨left, b, slot, text, hslots, -⟩
      cases hslots
  | @cons slot takes slots places htakes =>
    constructor
    · rintro ⟨text, takes', rfl, htakes', h⟩
      obtain rfl := Option.some.inj htakes'
      obtain ⟨b, hb⟩ := Option.isSome_iff_exists.mp ((htakes text a).mpr h)
      exact ⟨slots, b, slot, text, rfl, rfl, hb⟩
    · rintro ⟨left, b, slot', text, hslots, rfl, hb⟩
      obtain ⟨rfl, -⟩ := List.cons.inj hslots
      exact ⟨text, takes, rfl, rfl, (htakes text a).mp (Option.isSome_of_mem hb)⟩

theorem place_eq_error_iff (hagree : Agree slots places) :
    place slots a arg = .error r ↔ r = .problem ∧ ¬ Fits places 0 arg := by
  rw [fits_iff_place hagree a]
  constructor
  · intro h
    exact ⟨eq_problem_of_place h, fun ⟨_, _, hok⟩ => by cases h.symm.trans hok⟩
  · rintro ⟨rfl, hmisfit⟩
    cases h : place slots a arg with
    | error r => rw [eq_problem_of_place h]
    | ok p => exact absurd ⟨p.1, p.2, h⟩ hmisfit

theorem exists_of_bind_place {β : Type} {more : List (Slot α) × α → Except Refusal β} {result : β}
    (h : place slots a arg >>= more = .ok result) :
    ∃ p, place slots a arg = .ok p ∧ more p = .ok result := by
  cases hplace : place slots a arg with
  | error r => rw [hplace] at h; cases h
  | ok p => rw [hplace] at h; exact ⟨p, rfl, h⟩

/-! #### One argument after the other -/

theorem scan_literal_cons : scan true slots a (arg :: args) =
    place slots a arg >>= fun p => scan true p.1 p.2 args := rfl

theorem scan_cons (h : shape arg = .positional) : scan false slots a (arg :: args) =
    place slots a arg >>= fun p => scan false p.1 p.2 args := by
  rw [scan, h]
  rfl

theorem scan_cons_separator (h : shape arg = .separator) :
    scan false slots a (arg :: args) = scan true slots a args := by
  rw [scan, h]
  rfl

theorem scan_cons_help (h : shape arg = .help) :
    scan false slots a (arg :: args) = .error .help := by
  rw [scan, h]
  rfl

theorem scan_cons_option (h : shape arg = .option) :
    scan false slots a (arg :: args) = .error .problem := by
  rw [scan, h]
  rfl

/-- Arguments are looked at behind those in front of them, and it counts whether a double dash is
among these. -/
theorem scan_append (xs ys : List (List UInt8)) : scan literal slots a (xs ++ ys) =
    scan literal slots a xs >>= fun p => scan (literal || separator ∈ xs) p.1 p.2 ys := by
  induction xs generalizing literal slots a with
  | nil => simp [scan, bind, Except.bind]
  | cons x xs ih =>
    rw [List.cons_append]
    cases literal with
    | true => simp only [scan_literal_cons, ih, bind_assoc, Bool.true_or]
    | false =>
      cases hshape : shape x with
      | separator =>
        obtain rfl := shape_eq_separator_iff.mp hshape
        simp only [scan_cons_separator hshape, ih, List.mem_cons_self, Bool.true_or, decide_true,
          Bool.or_true]
      | help => rw [scan_cons_help hshape, scan_cons_help hshape]; rfl
      | option => rw [scan_cons_option hshape, scan_cons_option hshape]; rfl
      | positional =>
        have hx : separator ≠ x := (ne_separator_of_shape hshape).symm
        simp only [scan_cons hshape, ih, bind_assoc, List.mem_cons, hx, false_or]

/-- Texts fill the slots from the first one on. -/
inductive Filled : List (Slot α) → α → List String → α → Prop where
  /-- No text is left. -/
  | done (slots : List (Slot α)) (a : α) : Filled slots a [] a
  /-- A text fills the first slot, and more texts fill those behind it. -/
  | next {slot : Slot α} {slots : List (Slot α)} {a b c : α} {text : String} {texts : List String}
      (hfill : slot.fill text a = some b) (h : Filled slots b texts c) :
      Filled (slot :: slots) a (text :: texts) c

/-- Positional arguments are texts, and they fill one slot each. -/
theorem filled_of_scan (h : scan true slots a args = .ok (left, b)) :
    ∃ texts, args = texts.map Utf8.bytes ∧ left = slots.drop args.length ∧
      Filled slots a texts b := by
  induction args generalizing slots a with
  | nil =>
    obtain ⟨rfl, rfl⟩ := Prod.mk.inj (Except.ok.inj h)
    exact ⟨[], rfl, rfl, .done slots a⟩
  | cons arg args ih =>
    obtain ⟨p, hplace, hrest⟩ := exists_of_bind_place h
    obtain ⟨slot, text, rfl, rfl, hfill⟩ := place_eq_ok_iff.mp hplace
    obtain ⟨texts, rfl, hleft, hfilled⟩ := ih hrest
    exact ⟨text :: texts, rfl, hleft, .next hfill hfilled⟩

/-- Arguments of which none is refused are looked at as the positional ones among them are. -/
theorem scan_positionals (h : scan false slots a args = .ok (left, b)) :
    scan true slots a (positionals args) = .ok (left, b) := by
  induction args generalizing slots a with
  | nil => exact h
  | cons arg args ih =>
    cases hshape : shape arg with
    | separator =>
      obtain rfl := shape_eq_separator_iff.mp hshape
      rwa [positionals, List.erase_cons_head, ← scan_cons_separator hshape]
    | help => rw [scan_cons_help hshape] at h; cases h
    | option => rw [scan_cons_option hshape] at h; cases h
    | positional =>
      have hpositionals : positionals (arg :: args) = arg :: positionals args :=
        List.erase_cons_tail (by simpa using ne_separator_of_shape hshape)
      rw [scan_cons hshape] at h
      obtain ⟨p, hplace, hrest⟩ := exists_of_bind_place h
      rw [hpositionals, scan_literal_cons, hplace]
      exact ih hrest

theorem scan_literal_singleton : scan true slots a [arg] = place slots a arg := by
  rw [scan_literal_cons]
  exact bind_pure _

theorem scan_singleton (h : shape arg = .positional) :
    scan false slots a [arg] = place slots a arg := by
  rw [scan_cons h]
  exact bind_pure _

/-- Behind arguments none of which is refused, the next one is refused just as it is met. -/
theorem scan_concat_eq_error_iff (hagree : Agree slots places)
    (h : scan false slots a before = .ok (left, b)) :
    scan false slots a (before ++ [arg]) = .error r ↔ Meets places before arg r := by
  obtain ⟨-, -, hleft, -⟩ := filled_of_scan (scan_positionals h)
  have hplace : place left b arg = .error r ↔
      r = .problem ∧ ¬ Fits places (positionals before).length arg := by
    rw [fits_iff_drop, hleft]
    exact place_eq_error_iff (List.forall₂_drop _ hagree)
  have hnext : scan false slots a (before ++ [arg]) =
      scan (decide (separator ∈ before)) left b [arg] := by
    rw [scan_append, h]
    rfl
  rw [hnext]
  by_cases hmem : separator ∈ before
  · rw [decide_eq_true hmem, scan_literal_singleton, hplace, meets_of_mem hmem]
  · rw [decide_eq_false hmem, meets_of_not_mem hmem]
    cases hshape : shape arg with
    | separator => rw [scan_cons_separator hshape]; simp [scan]
    | help => rw [scan_cons_help hshape]; simp [eq_comm]
    | option => rw [scan_cons_option hshape]; simp [eq_comm]
    | positional => rw [scan_singleton hshape, hplace]; simp

/-- What is refused is so whatever follows. -/
theorem scan_append_of_error (h : scan literal slots a before = .error r)
    (rest : List (List UInt8)) : scan literal slots a (before ++ rest) = .error r := by
  rw [scan_append, h]
  rfl

theorem scan_of_meets (hagree : Agree slots places)
    (hbefore : scan false slots a before = .ok (left, b)) (hmeets : Meets places before arg r)
    (rest : List (List UInt8)) : scan false slots a (before ++ arg :: rest) = .error r := by
  rw [List.append_cons]
  exact scan_append_of_error ((scan_concat_eq_error_iff hagree hbefore).mpr hmeets) rest

theorem isClean_of_scan (hagree : Agree slots places)
    (h : scan false slots a args = .ok (left, b)) : IsClean places args := by
  rintro before arg rest r rfl hmeets
  cases hbefore : scan false slots a before with
  | error r' => cases (scan_append_of_error hbefore _).symm.trans h
  | ok p => cases (scan_of_meets hagree hbefore hmeets rest).symm.trans h

theorem firstMeets_of_scan (hagree : Agree slots places)
    (h : scan false slots a args = .error r) : FirstMeets places args r := by
  -- from the right, since what an argument is met as depends on those in front of it
  induction args using List.reverseRecOn generalizing r with
  | nil => cases h
  | append_singleton args arg ih =>
    cases hargs : scan false slots a args with
    | error r' =>
      obtain rfl : r' = r := Except.error.inj ((scan_append_of_error hargs _).symm.trans h)
      exact (ih hargs).append [arg]
    | ok p =>
      exact ⟨args, arg, [], rfl, isClean_of_scan hagree hargs,
        (scan_concat_eq_error_iff hagree hargs).mp h⟩

/-- Arguments of which none is refused are looked at to the end. -/
theorem scan_isOk_iff (hagree : Agree slots places) :
    (∃ left b, scan false slots a args = .ok (left, b)) ↔ IsClean places args := by
  constructor
  · rintro ⟨left, b, h⟩
    exact isClean_of_scan hagree h
  · intro hclean
    cases h : scan false slots a args with
    | error r => exact absurd hclean (firstMeets_of_scan hagree h).not_isClean
    | ok p => exact ⟨p.1, p.2, rfl⟩

/-- **The first argument that is refused decides**, by the way in which it is. -/
theorem scan_eq_error_iff (hagree : Agree slots places) :
    scan false slots a args = .error r ↔ FirstMeets places args r := by
  constructor
  · exact firstMeets_of_scan hagree
  · rintro ⟨before, arg, rest, rfl, hclean, hmeets⟩
    obtain ⟨left, b, hbefore⟩ := (scan_isOk_iff (a := a) hagree).mpr hclean
    exact scan_of_meets hagree hbefore hmeets rest

end Slot

/-! ### Command lines -/

namespace Command

variable {α : Type} {c : Command α} {argv : List (List UInt8)} {required : Nat}
  {Gives : List String → α → Prop}

/-- The name by which a program is called, as it can be shown. -/
def calledAs (c : Command α) (argv : List (List UInt8)) : String :=
  (((argv.head?.bind fileName?).bind Utf8.text?).map fun name =>
    Utf8.text (unstyled (Utf8.bytes name))).getD c.name

/-- The program ends over its arguments, with that status and that output. -/
def Stops (c : Command α) (argv : List (List UInt8)) (status : UInt8) (output : String) : Prop :=
  ∃ rejection, c.parse argv = .error rejection ∧ rejection.code.status = status ∧
    rejection.output = output

/-- The outcome of a command line is the one that the grammar of a program tells: what the places
for its arguments take, how many arguments have to be given, and what is read from them. -/
structure Obeys (c : Command α) (places : List (String → Prop)) (required : Nat)
    (Gives : List String → α → Prop) (argv : List (List UInt8)) : Prop where
  /-- The arguments are taken if none is refused and none is missing. -/
  taken : (∃ a, c.parse argv = .ok a) ↔
    IsClean places argv.tail ∧ required ≤ (positionals argv.tail).length
  /-- What is taken is what the positional arguments give, which are texts. -/
  given : ∀ a, c.parse argv = .ok a →
    ∃ texts, positionals argv.tail = texts.map Utf8.bytes ∧ Gives texts a
  /-- The program describes itself if a request for help is the first to be refused. -/
  helped : c.Stops argv 0 (c.help (c.calledAs argv)) ↔ FirstMeets places argv.tail .help
  /-- The program shows its usage if something else is, or if an argument is missing. -/
  refused : c.Stops argv 1 (c.usage c.name) ↔ FirstMeets places argv.tail .problem ∨
    (IsClean places argv.tail ∧ (positionals argv.tail).length < required)

theorem parse_eq_ok_iff {a : α} : c.parse argv = .ok a ↔ c.read argv.tail = .ok a := by
  unfold parse
  rcases c.read argv.tail with (_ | _) | a' <;> simp

theorem stops_help_iff :
    c.Stops argv 0 (c.help (c.calledAs argv)) ↔ c.read argv.tail = .error .help := by
  unfold Stops parse
  rcases c.read argv.tail with (_ | _) | a' <;> simp [ExitCode.status, calledAs]

theorem stops_usage_iff :
    c.Stops argv 1 (c.usage c.name) ↔ c.read argv.tail = .error .problem := by
  unfold Stops parse
  rcases c.read argv.tail with (_ | _) | a' <;> simp [ExitCode.status]

/-- The slots of a program follow a grammar: they can be filled with what the places take, those
behind the arguments that have to be given have defaults, and texts with which they are filled give
what they should. -/
structure Follows (c : Command α) (places : List (String → Prop)) (required : Nat)
    (Gives : List String → α → Prop) : Prop where
  agree : Slot.Agree c.slots places
  defaults : ∀ k, (c.slots.drop k).all (·.default?.isSome) ↔ required ≤ k
  gives : ∀ texts a, required ≤ texts.length → Slot.Filled c.slots c.defaults texts a →
    Gives texts a

theorem all_drop {slots : List (Slot α)} {p : Slot α → Bool} (h : slots.all p) (k : Nat) :
    (slots.drop k).all p :=
  List.all_eq_true.mpr fun slot hslot => List.all_eq_true.mp h slot (List.mem_of_mem_drop hslot)

theorem read_of_firstMeets (hc : c.Follows places required Gives) (h : FirstMeets places args r) :
    c.read args = .error r := by
  rw [read, (Slot.scan_eq_error_iff hc.agree).mpr h]
  rfl

theorem read_of_isClean (hc : c.Follows places required Gives) (h : IsClean places args) :
    ∃ texts a, positionals args = texts.map Utf8.bytes ∧
      Slot.Filled c.slots c.defaults texts a ∧
      c.read args = if required ≤ (positionals args).length then .ok a else .error .problem := by
  obtain ⟨left, a, hscan⟩ := (Slot.scan_isOk_iff (a := c.defaults) hc.agree).mpr h
  obtain ⟨texts, htexts, hleft, hfilled⟩ := Slot.filled_of_scan (Slot.scan_positionals hscan)
  refine ⟨texts, a, htexts, hfilled, ?_⟩
  simp only [← hc.defaults, ← hleft, read, hscan]
  rfl

/-- Either no argument is refused, or a first one is. -/
theorem isClean_or_firstMeets (hc : c.Follows places required Gives) (args : List (List UInt8)) :
    IsClean places args ∨ ∃ r, FirstMeets places args r := by
  cases hscan : Slot.scan false c.slots c.defaults args with
  | error r => exact .inr ⟨r, Slot.firstMeets_of_scan hc.agree hscan⟩
  | ok p => exact .inl (Slot.isClean_of_scan hc.agree hscan)

/-- A program that follows a grammar obeys it on every command line. -/
theorem Follows.obeys (hc : c.Follows places required Gives) (argv : List (List UInt8)) :
    c.Obeys places required Gives argv := by
  rcases isClean_or_firstMeets hc argv.tail with hclean | ⟨r, hfirst⟩
  · obtain ⟨texts, a, htexts, hfilled, hread⟩ := read_of_isClean hc hclean
    have hnone (r : Refusal) : ¬ FirstMeets places argv.tail r := fun h => h.not_isClean hclean
    -- only at the end it is seen whether an argument is missing
    by_cases hgiven : required ≤ (positionals argv.tail).length
    · rw [if_pos hgiven] at hread
      constructor
      · simp [parse_eq_ok_iff, hread, hclean, hgiven]
      · intro a' ha'
        obtain rfl : a = a' := Except.ok.inj (hread.symm.trans (parse_eq_ok_iff.mp ha'))
        exact ⟨texts, htexts, hc.gives texts a (by rwa [htexts, List.length_map] at hgiven) hfilled⟩
      · simp [stops_help_iff, hread, hnone]
      · simp [stops_usage_iff, hread, hnone, hgiven]
    · rw [if_neg hgiven] at hread
      constructor
      · simp [parse_eq_ok_iff, hread, hgiven]
      · simp [parse_eq_ok_iff, hread]
      · simp [stops_help_iff, hread, hnone]
      · simp [stops_usage_iff, hread, hnone, hclean, Nat.lt_of_not_le hgiven]
  · have hdirty := hfirst.not_isClean
    have hread := read_of_firstMeets hc hfirst
    have hway (r' : Refusal) : FirstMeets places argv.tail r' ↔ r = r' :=
      ⟨fun h => Except.error.inj (hread.symm.trans (read_of_firstMeets hc h)), fun h => h ▸ hfirst⟩
    constructor
    · simp [parse_eq_ok_iff, hread, hdirty]
    · simp [parse_eq_ok_iff, hread]
    · simp [stops_help_iff, hread, hway]
    · simp [stops_usage_iff, hread, hway, hdirty]

end Command

/-! ### The two programs -/

namespace WanderArguments

/-- What the places of the program that wanders about take. -/
def grammar : List (String → Prop) :=
  [fun _ => True, fun text => ∃ n, IsPort text n, fun _ => True, fun _ => True]

/-- What texts give to the program that wanders about. -/
structure Gives (texts : List String) (a : WanderArguments) : Prop where
  host : a.host = texts.getD 0 "localhost"
  port : IsPort (texts.getD 1 "8945") a.port.toNat
  username : a.username = texts.getD 2 "chris"
  password : a.password = texts.getD 3 "asdf"

theorem follows : command.Follows grammar 0 Gives where
  agree := by
    simp [command, grammar, Slot.Agree, isSome_port?]
  defaults k := iff_of_true (Command.all_drop (by decide) k) (Nat.zero_le k)
  gives texts a _ h := by
    unfold command at h
    rcases h with _ | ⟨hhost, h⟩
    · exact ⟨rfl, isPort_default, rfl, rfl⟩
    obtain rfl := Option.some.inj hhost
    rcases h with _ | ⟨hport, h⟩
    · exact ⟨rfl, isPort_default, rfl, rfl⟩
    obtain ⟨port, hread, rfl⟩ := Option.map_eq_some_iff.mp hport
    have hport := port?_eq_some_iff.mp hread
    rcases h with _ | ⟨husername, h⟩
    · exact ⟨rfl, hport, rfl, rfl⟩
    obtain rfl := Option.some.inj husername
    rcases h with _ | ⟨hpassword, _ | _⟩
    · exact ⟨rfl, hport, rfl, rfl⟩
    obtain rfl := Option.some.inj hpassword
    exact ⟨rfl, hport, rfl, rfl⟩

end WanderArguments

namespace ProvisionArguments

/-- What the places of the program that creates accounts take. -/
def grammar : List (String → Prop) :=
  [fun text => ∃ n, IsCount text n, fun _ => True, fun text => ∃ n, IsPort text n]

/-- What texts give to the program that creates accounts. -/
structure Gives (texts : List String) (a : ProvisionArguments) : Prop where
  count : ∃ text, texts[0]? = some text ∧ IsCount text a.count
  host : a.host = texts.getD 1 "localhost"
  port : IsPort (texts.getD 2 "8945") a.port.toNat

theorem follows : command.Follows grammar 1 Gives where
  agree := by
    simp [command, grammar, Slot.Agree, isSome_port?, isSome_count]
  defaults
    | 0 => by decide
    | k + 1 => iff_of_true (Command.all_drop (by decide : command.slots.tail.all _) k)
        (Nat.le_add_left 1 k)
  gives texts a hgiven h := by
    unfold command at h
    rcases h with _ | ⟨hcount, h⟩
    · cases hgiven
    obtain ⟨count, hread, rfl⟩ := Option.map_eq_some_iff.mp hcount
    have hcount := count_eq_some_iff.mp hread
    rcases h with _ | ⟨hhost, h⟩
    · exact ⟨⟨_, rfl, hcount⟩, rfl, isPort_default⟩
    obtain rfl := Option.some.inj hhost
    rcases h with _ | ⟨hport, _ | _⟩
    · exact ⟨⟨_, rfl, hcount⟩, rfl, isPort_default⟩
    obtain ⟨port, hread, rfl⟩ := Option.map_eq_some_iff.mp hport
    exact ⟨⟨_, rfl, hcount⟩, rfl, port?_eq_some_iff.mp hread⟩

end ProvisionArguments

/-- **Both programs obey their grammars.** -/
theorem parse_grammar (argv : List (List UInt8)) :
    WanderArguments.command.Obeys WanderArguments.grammar 0 WanderArguments.Gives argv ∧
      ProvisionArguments.command.Obeys ProvisionArguments.grammar 1 ProvisionArguments.Gives argv :=
  ⟨WanderArguments.follows.obeys argv, ProvisionArguments.follows.obeys argv⟩

/-- A port need not be a number in decimal digits with at most a plus sign in front: behind the
double dash zero is read with a minus sign. -/
theorem parse_minus_zero :
    WanderArguments.command.parse (["mudbot-wander", "--", "localhost", "-0"].map Utf8.bytes) =
        .ok { port := 0 } ∧
      ¬ IsClean [fun _ => True, fun text => ∃ n, IsDecimal text n ∧ n ≤ 65535, fun _ => True,
        fun _ => True] (["--", "localhost", "-0"].map Utf8.bytes) := by
  refine ⟨by decide, fun hclean => hclean (["--", "localhost"].map Utf8.bytes) (Utf8.bytes "-0") []
    .problem rfl (.misfit (.inl (by decide)) ?_)⟩
  rintro ⟨text, takes, htext, htakes, hfits⟩
  obtain rfl : "-0" = text := Option.some.inj
    ((Utf8.text?_eq_some_iff.mpr rfl).symm.trans (Utf8.text?_eq_some_iff.mpr htext))
  obtain rfl := Option.some.inj htakes
  obtain ⟨n, hdecimal, -⟩ := hfits
  exact absurd ((isDecimal_iff_of_cons (by decide) rfl).mp hdecimal).1 (by decide)

end MudDialogue.CommandLine
