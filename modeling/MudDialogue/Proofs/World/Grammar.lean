import MudDialogue.World.ExitLine

/-!
# The grammar of a list of exits

A list of exits is a line with a head, markers in brackets with their labels, and an end. Which
markers a line has can be read off its brackets, whatever the labels say: a label has no bracket that
opens. So a line lists the same exits in whatever way it is taken apart.

## Main definitions

* `ExitLine.Row` — a line of markers, whatever they say.
* `ExitLine.InOrder` — the markers of exits, in the order of the server.
* `ExitLine.Lists` — a line that lists the exits in these directions.

## Main results

* `ExitLine.Lists.inOrder_of_row` — which rows list exits.
* `ExitLine.Lists.exits_eq` — a line lists the same exits in whatever way it is taken apart.
-/

namespace MudDialogue.ExitLine

/-! ### Rows of markers -/

/-- Spaces and tabs. -/
structure Blanks where
  /-- The characters. -/
  chars : List Char
  blank : ∀ c ∈ chars, c = ' ' ∨ c = '\t'

/-- What stands behind a marker. -/
structure Label where
  /-- The characters. -/
  chars : List Char
  plain : ∀ c ∈ chars, c ≠ '[' ∧ c ≠ '\r' ∧ c ≠ '\n'

/-- What stands in the brackets of a marker. -/
structure Code where
  /-- The characters. -/
  chars : List Char
  plain : ∀ c ∈ chars, c ≠ '[' ∧ c ≠ ']' ∧ c ≠ '\r' ∧ c ≠ '\n'
deriving DecidableEq

/-- What each line begins with. -/
def head : List Char := "Exits:".toList

/-- The end of a line, with or without CR. -/
def ending (carriage : Bool) : List Char := if carriage then ['\r', '\n'] else ['\n']

/-- A marker and its label. -/
def item (code : Code) (label : Label) : List Char := '[' :: (code.chars ++ ']' :: label.chars)

/-- Markers with their labels, given by what the markers stand for. -/
def listing {α : Type} (code : α → Code) (items : List (α × Label)) : List Char :=
  items.flatMap fun p => item (code p.1) p.2

/-- A line of markers, whatever they say. -/
structure Row where
  /-- What stands in front of the markers. -/
  blanks : Blanks
  /-- The markers and their labels. -/
  items : List (Code × Label)
  /-- The line ends with CR and LF. -/
  carriage : Bool

namespace Row

/-- What stands in the brackets of the markers. -/
def codes (row : Row) : List Code := row.items.map Prod.fst

/-- What stands behind the head of the line. -/
def body (row : Row) : List Char :=
  row.blanks.chars ++ listing id row.items ++ ending row.carriage

/-- The whole line. -/
def chars (row : Row) : List Char := head ++ row.body

end Row

/-! ### Lines that list exits -/

/-- A way up or down. -/
inductive Ladder where
  | up
  | down
deriving DecidableEq, Repr

/-- The marker of a way up or down. -/
def Ladder.marker : Ladder → Code
  | up => ⟨['U'], by simp⟩
  | down => ⟨['D'], by simp⟩

/-- The marker of a direction. -/
def marker (d : Direction) : Code := ⟨d.code.toList, by cases d <;> simp [Direction.code]⟩

/-- The markers of exits: compass directions in the order of the server, each of them once at most,
and then ways up and down. -/
def InOrder (codes : List Code) (directions : List Direction) : Prop :=
  directions.Sublist Direction.all ∧
    ∃ ladders : List Ladder, codes = directions.map marker ++ ladders.map Ladder.marker

/-- A list of exits with markers: any exits, with any labels and any ways up and down. -/
def render (exits : Exits) (labels : Direction → Label) (ladders : List (Ladder × Label))
    (blanks : Blanks) (carriage : Bool) : List Char :=
  head ++ (blanks.chars ++ (listing marker (exits.toList.map fun d => (d, labels d)) ++
    listing Ladder.marker ladders) ++ ending carriage)

/-- A line that lists the exits in these directions. -/
inductive Lists : List Direction → List Char → Prop where
  /-- The exits have markers with labels. -/
  | markers (blanks : Blanks) (compass : List (Direction × Label)) (ladders : List (Ladder × Label))
      (carriage : Bool) (h : (compass.map Prod.fst).Sublist Direction.all) :
      Lists (compass.map Prod.fst) (head ++ (blanks.chars ++
        (listing marker compass ++ listing Ladder.marker ladders) ++ ending carriage))
  /-- There are no exits, and the line may say so. -/
  | nothing (blanks more : Blanks) (word : List Char) (hword : word = [] ∨ word = "None".toList)
      (carriage : Bool) :
      Lists [] (head ++ (blanks.chars ++ word ++ more.chars ++ ending carriage))

/-! ### The markers of a line -/

variable {α : Type} {code : α → Code} {blanks : Blanks} {label : Label} {row : Row}
  {directions others : List Direction} {chars : List Char}

theorem listing_eq_map (code : α → Code) (items : List (α × Label)) :
    listing code items = listing id (items.map (Prod.map code id)) := by
  rw [listing, listing, List.flatMap_map]
  rfl

theorem listing_append (items more : List (α × Label)) :
    listing code (items ++ more) = listing code items ++ listing code more :=
  List.flatMap_append

theorem Blanks.bracket_notMem (blanks : Blanks) : '[' ∉ blanks.chars := fun h => by
  rcases blanks.blank _ h with h | h <;> cases h

theorem bracket_notMem_ending (carriage : Bool) : '[' ∉ ending carriage := by
  cases carriage <;> decide

/-- Lists are cut alike at the first place where a separator stands. -/
theorem append_cons_inj {β : Type} {sep : β} {u u' v v' : List β} (hu : sep ∉ u) (hu' : sep ∉ u')
    (h : u ++ sep :: v = u' ++ sep :: v') : u = u' ∧ v = v' := by
  induction u generalizing u' with
  | nil =>
    cases u' with
    | nil => exact ⟨rfl, (List.cons.inj h).2⟩
    | cons b u' => exact absurd (List.cons.inj h).1 (List.ne_of_not_mem_cons hu')
  | cons b u ih =>
    cases u' with
    | nil => exact absurd (List.cons.inj h).1.symm (List.ne_of_not_mem_cons hu)
    | cons b' u' =>
      obtain ⟨rfl, hrest⟩ := List.cons.inj h
      obtain ⟨rfl, rfl⟩ :=
        ih (List.not_mem_of_not_mem_cons hu) (List.not_mem_of_not_mem_cons hu') hrest
      exact ⟨rfl, rfl⟩

/-- **The markers of a line can be read off its brackets.** -/
theorem codes_eq {lead lead' tail tail' : List Char} {items items' : List (Code × Label)}
    (hlead : '[' ∉ lead) (hlead' : '[' ∉ lead') (htail : '[' ∉ tail) (htail' : '[' ∉ tail')
    (h : lead ++ listing id items ++ tail = lead' ++ listing id items' ++ tail') :
    items.map Prod.fst = items'.map Prod.fst := by
  induction items generalizing lead lead' items' with
  | nil =>
    cases items' with
    | nil => rfl
    | cons p items' =>
      have hmem : '[' ∈ lead' ++ listing id (p :: items') ++ tail' := by
        simp [listing, item]
      rw [← h] at hmem
      simp [listing, hlead, htail] at hmem
  | cons p items ih =>
    cases items' with
    | nil =>
      have hmem : '[' ∈ lead ++ listing id (p :: items) ++ tail := by
        simp [listing, item]
      rw [h] at hmem
      simp [listing, hlead', htail'] at hmem
    | cons p' items' =>
      obtain ⟨code, label⟩ := p
      obtain ⟨code', label'⟩ := p'
      have hparts : lead ++ '[' :: (code.chars ++ ']' :: (label.chars ++ listing id items ++ tail)) =
          lead' ++ '[' :: (code'.chars ++ ']' :: (label'.chars ++ listing id items' ++ tail')) := by
        simpa [listing, item] using h
      obtain ⟨-, hparts⟩ := append_cons_inj hlead hlead' hparts
      have hclose (code : Code) : ']' ∉ code.chars := fun h => (code.plain _ h).2.1 rfl
      have hopen (label : Label) : '[' ∉ label.chars := fun h => (label.plain _ h).1 rfl
      obtain ⟨hcode, hrest⟩ := append_cons_inj (hclose code) (hclose code') hparts
      obtain rfl : code = code' := by
        cases code
        cases code'
        cases hcode
        rfl
      rw [List.map_cons, List.map_cons, ih (hopen label) (hopen label') hrest]

/-- A line that lists exits has a lead, markers in order, and an end. -/
theorem Lists.exists_listing (h : Lists directions chars) : ∃ lead items tail, '[' ∉ lead ∧
    '[' ∉ tail ∧ chars = head ++ (lead ++ listing id items ++ tail) ∧
      InOrder (items.map Prod.fst) directions := by
  cases h with
  | markers blanks compass ladders carriage h =>
    refine ⟨blanks.chars, compass.map (Prod.map marker id) ++ ladders.map (Prod.map Ladder.marker id),
      ending carriage, blanks.bracket_notMem, bracket_notMem_ending carriage, ?_, h,
      ladders.map Prod.fst, ?_⟩
    · rw [listing_append, ← listing_eq_map, ← listing_eq_map]
    · rw [List.map_append, List.map_map, List.map_map, List.map_map, List.map_map]
      rfl
  | nothing blanks more word hword carriage =>
    refine ⟨blanks.chars ++ word ++ more.chars, [], ending carriage, ?_,
      bracket_notMem_ending carriage, ?_, List.nil_sublist _, [], rfl⟩
    · have hnone : '[' ∉ word := by
        rcases hword with rfl | rfl <;> decide
      simp [hnone, blanks.bracket_notMem, more.bracket_notMem]
    · simp [listing]

theorem marker_inj {d e : Direction} : marker d = marker e ↔ d = e := by
  cases d <;> cases e <;> decide

theorem marker_ne_ladder (d : Direction) (ladder : Ladder) : marker d ≠ ladder.marker := by
  cases d <;> cases ladder <;> decide

/-- A label takes up plain text behind it. -/
theorem exists_swallow {α : Type} (code : α → Code) {items : List (α × Label)} (hne : items ≠ [])
    (more : Label) : ∃ items' : List (α × Label), items'.map Prod.fst = items.map Prod.fst ∧
      listing code items' = listing code items ++ more.chars := by
  obtain rfl | ⟨items, ⟨a, l⟩, rfl⟩ := List.eq_nil_or_concat items
  · exact absurd rfl hne
  · have hplain : ∀ c ∈ l.chars ++ more.chars, c ≠ '[' ∧ c ≠ '\r' ∧ c ≠ '\n' :=
      List.forall_mem_append.mpr ⟨l.plain, more.plain⟩
    refine ⟨items ++ [(a, ⟨l.chars ++ more.chars, hplain⟩)], ?_, ?_⟩
    · simp
    · simp [listing, item]

/-- Behind a marker a word for no exits and blanks are the end of its label. -/
theorem Lists.of_parts (blanks : Blanks) {compass : List (Direction × Label)}
    (h : (compass.map Prod.fst).Sublist Direction.all) (ladders : List (Ladder × Label))
    {word : List Char} (hword : word = [] ∨ word = "None".toList) (more : Blanks)
    (carriage : Bool) : Lists (compass.map Prod.fst) (head ++ (blanks.chars ++
      (listing marker compass ++ listing Ladder.marker ladders) ++ word ++ more.chars ++
        ending carriage)) := by
  have hword' : ∀ c ∈ word, c ≠ '[' ∧ c ≠ '\r' ∧ c ≠ '\n' := by
    rcases hword with rfl | rfl <;> simp
  have hmore : ∀ c ∈ more.chars, c ≠ '[' ∧ c ≠ '\r' ∧ c ≠ '\n' := by
    intro c hc
    rcases more.blank c hc with rfl | rfl <;> decide
  have hplain := List.forall_mem_append.mpr ⟨hword', hmore⟩
  by_cases hladders : ladders = []
  · by_cases hcompass : compass = []
    · subst hladders hcompass
      simpa [listing] using Lists.nothing blanks more word hword carriage
    · obtain ⟨compass', hfst, hlisting⟩ := exists_swallow marker hcompass ⟨_, hplain⟩
      have hlists := Lists.markers blanks compass' [] carriage (hfst ▸ h)
      rw [hfst, hlisting] at hlists
      subst hladders
      simpa [listing] using hlists
  · obtain ⟨ladders', -, hlisting⟩ := exists_swallow Ladder.marker hladders ⟨_, hplain⟩
    have hlists := Lists.markers blanks compass ladders' carriage h
    rw [hlisting] at hlists
    simpa using hlists

/-- The markers of a line in order tell its directions. -/
theorem InOrder.mem_iff {codes : List Code} (h : InOrder codes directions) (d : Direction) :
    d ∈ directions ↔ marker d ∈ codes := by
  obtain ⟨-, ladders, rfl⟩ := h
  simp [marker_inj, Ne.symm (marker_ne_ladder d _)]

/-- **Which rows list exits**: those with their markers in order. -/
theorem Lists.inOrder_of_row (h : Lists directions row.chars) : InOrder row.codes directions := by
  obtain ⟨lead, items, tail, hlead, htail, hchars, horder⟩ := h.exists_listing
  have hcodes : row.codes = items.map Prod.fst :=
    codes_eq row.blanks.bracket_notMem hlead (bracket_notMem_ending row.carriage) htail
      (List.append_cancel_left hchars)
  rwa [hcodes]

/-- Markers that stand for something are given by what they stand for. -/
theorem exists_items {items : List (Code × Label)} {codes : List α}
    (h : items.map Prod.fst = codes.map code) : ∃ items' : List (α × Label),
      items'.map Prod.fst = codes ∧ listing code items' = listing id items := by
  induction codes generalizing items with
  | nil =>
    obtain rfl := List.map_eq_nil_iff.mp h
    exact ⟨[], rfl, rfl⟩
  | cons a codes ih =>
    obtain ⟨⟨_, label⟩, items, rfl, rfl, hrest⟩ := List.map_eq_cons_iff.mp h
    obtain ⟨items', rfl, hlisting⟩ := ih hrest
    refine ⟨(a, label) :: items', rfl, ?_⟩
    rw [listing, List.flatMap_cons, ← listing, hlisting]
    rfl

theorem Lists.of_inOrder (h : InOrder row.codes directions) : Lists directions row.chars := by
  obtain ⟨horder, ladders, hcodes⟩ := h
  obtain ⟨first, last, hitems, hfirst, hlast⟩ := List.map_eq_append_iff.mp hcodes
  obtain ⟨compass, rfl, hcompass⟩ := exists_items hfirst
  obtain ⟨ladders, rfl, hladders⟩ := exists_items hlast
  have hlists := Lists.markers row.blanks compass ladders row.carriage horder
  rwa [hcompass, hladders, ← listing_append, ← hitems] at hlists

/-- Any exits can be listed. -/
theorem lists_render (exits : Exits) (labels : Direction → Label) (ladders : List (Ladder × Label))
    (blanks : Blanks) (carriage : Bool) :
    Lists exits.toList (render exits labels ladders blanks carriage) := by
  have hfst : (exits.toList.map fun d => (d, labels d)).map Prod.fst = exits.toList := by
    rw [List.map_map]
    exact List.map_id _
  have horder : exits.toList.Sublist Direction.all := List.filter_sublist
  rw [← hfst] at horder
  have hlists := Lists.markers blanks _ ladders carriage horder
  rwa [hfst] at hlists

/-- **A line lists the same exits in whatever way it is taken apart.** -/
theorem Lists.exits_eq (h : Lists directions chars) (h' : Lists others chars) :
    Exits.ofList directions = Exits.ofList others := by
  obtain ⟨lead, items, tail, hlead, htail, hchars, horder⟩ := h.exists_listing
  obtain ⟨lead', items', tail', hlead', htail', hchars', horder'⟩ := h'.exists_listing
  have hcodes : items.map Prod.fst = items'.map Prod.fst :=
    codes_eq hlead hlead' htail htail' (List.append_cancel_left (hchars ▸ hchars'))
  ext d
  rw [Bool.eq_iff_iff, Exits.contains_ofList, Exits.contains_ofList, List.contains_iff_mem,
    List.contains_iff_mem, horder.mem_iff, horder'.mem_iff, hcodes]

/-! ### The end of a line -/

theorem Blanks.newline_notMem (blanks : Blanks) : '\n' ∉ blanks.chars := fun h => by
  rcases blanks.blank _ h with h | h <;> cases h

theorem newline_notMem_listing (code : α → Code) (items : List (α × Label)) :
    '\n' ∉ listing code items := by
  simp only [listing, List.mem_flatMap, not_exists, not_and]
  rintro ⟨a, label⟩ - h
  simp only [item, List.mem_cons, List.mem_append] at h
  rcases h with h | h | h | h
  · cases h
  · exact ((code a).plain _ h).2.2.2 rfl
  · cases h
  · exact (label.plain _ h).2.2 rfl

/-- The only LF is at the end. -/
def IsLine (chars : List Char) : Prop := ∃ line, chars = line ++ ['\n'] ∧ '\n' ∉ line

theorem isLine_of_body {body : List Char} (carriage : Bool) (h : '\n' ∉ body) :
    IsLine (head ++ (body ++ ending carriage)) := by
  have hhead : '\n' ∉ head := by decide
  cases carriage with
  | false => exact ⟨head ++ body, by simp [ending], by simp [h, hhead]⟩
  | true => exact ⟨head ++ body ++ ['\r'], by simp [ending], by simp [h, hhead]⟩

theorem Lists.isLine (h : Lists directions chars) : IsLine chars := by
  cases h with
  | markers blanks compass ladders carriage h =>
    refine isLine_of_body carriage ?_
    simp [blanks.newline_notMem, newline_notMem_listing]
  | nothing blanks more word hword carriage =>
    have hnone : '\n' ∉ word := by
      rcases hword with rfl | rfl <;> decide
    refine isLine_of_body carriage ?_
    simp [blanks.newline_notMem, more.newline_notMem, hnone]

theorem Row.isLine (row : Row) : IsLine row.chars := by
  refine isLine_of_body row.carriage ?_
  simp [row.blanks.newline_notMem, newline_notMem_listing]

end MudDialogue.ExitLine
