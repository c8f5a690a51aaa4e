import MudDialogue.Proofs.World.Pattern

/-!
# Lists of exits in a text

A list of exits is found in a text just if one begins somewhere in it, and the leftmost one counts,
whatever stands around it. What is read off it are the markers of that line. So a list of any exits,
with any labels, is read back as these exits, and a line whose markers are not in order is none.

## Main definitions

* `ExitLine.Begins` — a text begins with a line that lists exits.

## Main results

* `ExitLine.exists_find` — what is found of the first list of exits.
* `ExitLine.find_pattern` — which lists of exits are found in a text, and what is read off them.
-/

namespace MudDialogue.ExitLine

open Pattern Pattern.Regex Text Text.Utf8

/-- A text begins with a line that lists exits. -/
def Begins (text : List UInt8) : Prop :=
  ∃ directions chars, Lists directions chars ∧ encode chars <+: text

variable {directions : List Direction} {chars : List Char} {text u v : List UInt8}

/-! ### Where a list of exits begins -/

theorem isPlain_pattern : pattern.isPlain := by decide

theorem accepts_pattern_iff {word rest : List UInt8} : pattern.Accepts word rest ↔
    ∃ directions chars, Lists directions chars ∧ word = encode chars := by
  constructor
  · intro h
    obtain ⟨groups, h⟩ := h.exists_takes
    obtain ⟨directions, chars, hlists, -, hword⟩ := takes_pattern_iff.mp h
    exact ⟨directions, chars, hlists, hword⟩
  · rintro ⟨directions, chars, hlists, hword⟩
    exact (takes_pattern_iff.mpr ⟨directions, chars, hlists, rfl, hword⟩).accepts

theorem begins_iff : Begins text ↔ ∃ word rest, pattern.Accepts word rest ∧ word ++ rest = text := by
  constructor
  · rintro ⟨directions, chars, hlists, rest, rfl⟩
    exact ⟨_, rest, accepts_pattern_iff.mpr ⟨directions, chars, hlists, rfl⟩, rfl⟩
  · rintro ⟨word, rest, hword, rfl⟩
    obtain ⟨directions, chars, hlists, rfl⟩ := accepts_pattern_iff.mp hword
    exact ⟨directions, chars, hlists, List.prefix_append _ _⟩

/-- A line goes up to its first LF. -/
theorem IsLine.exists_body (h : IsLine chars) :
    ∃ body, encode chars = body ++ [0x0A] ∧ 0x0A ∉ body := by
  obtain ⟨line, rfl, hline⟩ := h
  exact ⟨encode line, encode_append _ _, mt newline_mem_of_encode hline⟩

/-- Lines that begin at the same place are the same. -/
theorem IsLine.encode_inj {others : List Char} (h : IsLine chars) (h' : IsLine others)
    (heq : encode chars ++ u = encode others ++ v) : chars = others ∧ u = v := by
  obtain ⟨body, hbody, hline⟩ := h.exists_body
  obtain ⟨body', hbody', hline'⟩ := h'.exists_body
  have hparts : body ++ 0x0A :: u = body' ++ 0x0A :: v := by
    rwa [hbody, hbody', List.append_assoc, List.append_assoc] at heq
  obtain ⟨rfl, hrest⟩ := append_cons_inj hline hline' hparts
  exact ⟨Utf8.encode_inj (hbody.trans hbody'.symm), hrest⟩

/-- **Where a row of markers begins a list of exits**: where the markers are in order. -/
theorem begins_row_iff {row : Row} :
    Begins (encode row.chars ++ v) ↔ ∃ directions, InOrder row.codes directions := by
  constructor
  · rintro ⟨directions, chars, hlists, rest, hrest⟩
    obtain ⟨rfl, -⟩ := hlists.isLine.encode_inj row.isLine hrest
    exact ⟨directions, hlists.inOrder_of_row⟩
  · rintro ⟨directions, horder⟩
    exact ⟨directions, row.chars, .of_inOrder horder, List.prefix_append _ _⟩

/-! ### Where the head of a line stands -/

theorem head_of_begins (h : Begins text) : encode head <+: text := by
  obtain ⟨directions, chars, hlists, hchars⟩ := h
  obtain ⟨lead, items, tail, -, -, rfl, -⟩ := hlists.exists_listing
  rw [encode_append] at hchars
  exact (List.prefix_append _ _).trans hchars

/-- The first letter of the head stands in it only once. -/
theorem getElem_head_ne {n : Nat} (hn : 0 < n) : (encode head)[n]? ≠ (encode head)[0]? := by
  have hparts : ∀ n < 6, 0 < n → (encode head)[n]? ≠ (encode head)[0]? := by decide
  by_cases hless : n < 6
  · exact hparts n hless hn
  · rw [List.getElem?_eq_none (Nat.le_of_not_lt hless)]
    decide

/-- No head begins before another one and ends in it. -/
theorem head_not_before {z : List UInt8} (hz : z ≠ []) (hhead : ¬ encode head <:+: z) :
    ¬ encode head <+: z ++ (encode head ++ v) := by
  intro hstart
  have hpos : 0 < z.length := List.length_pos_iff.mpr hz
  by_cases hlength : (encode head).length ≤ z.length
  · exact hhead (List.prefix_of_prefix_length_le hstart (List.prefix_append z _) hlength).isInfix
  · obtain ⟨rest, hrest⟩ := hstart
    have hsame : (encode head ++ rest)[z.length]? = (z ++ (encode head ++ v))[z.length]? := by
      rw [hrest]
    rw [List.getElem?_append_left (Nat.lt_of_not_le hlength),
      List.getElem?_append_right (Nat.le_refl _), Nat.sub_self,
      List.getElem?_append_left (by decide)] at hsame
    exact getElem_head_ne hpos hsame

/-- No head begins in another one and ends behind it. -/
theorem head_not_behind {y z : List UInt8} (hparts : encode head = y ++ z) (hy : y ≠ [])
    (hz : z ≠ []) : ¬ encode head <+: z ++ v := by
  rintro ⟨rest, hrest⟩
  have hfirst : (encode head ++ rest)[0]? = (z ++ v)[0]? := by rw [hrest]
  rw [List.getElem?_append_left (by decide),
    List.getElem?_append_left (List.length_pos_iff.mpr hz)] at hfirst
  have hlater : (encode head)[y.length]? = z[0]? := by
    rw [hparts, List.getElem?_append_right (Nat.le_refl _), Nat.sub_self]
  exact getElem_head_ne (List.length_pos_iff.mpr hy) (hlater.trans hfirst.symm)

/-! ### What is found -/

/-- **What is found of the first list of exits**: the whole line, with the exits that it lists. -/
theorem exists_find {τ : Type} (tag : τ) (hlists : Lists directions chars)
    (hfirst : ∀ z, z <:+ u → z ≠ [] → ¬ Begins (z ++ (encode chars ++ v))) :
    ∃ found, (⟨[(tag, pattern)]⟩ : Prompts τ).find (u ++ (encode chars ++ v)) =
        some (found, (u ++ encode chars).length) ∧
      found.tag = tag ∧ found.matched = String.ofList chars ∧
      read found = .ofList directions := by
  have hearlier : ∀ z, z <:+ u → z ≠ [] → ∀ word rest, pattern.Accepts word rest →
      word ++ rest ≠ z ++ (encode chars ++ v) := fun z hz hne word rest hword hrest =>
    hfirst z hz hne (begins_iff.mpr ⟨word, rest, hword, hrest⟩)
  obtain ⟨o, groups, taken, hsearch, htakes, htaken, hmarks⟩ :=
    exists_searchFrom_of_first isPlain_pattern hearlier
      (accepts_pattern_iff.mpr ⟨directions, chars, hlists, rfl⟩) rfl []
  obtain ⟨listed, taken, hlisted, rfl, rfl⟩ := takes_pattern_iff.mp htakes
  -- the match takes up this line, perhaps on another way
  obtain ⟨rfl, hrest⟩ := hlisted.isLine.encode_inj hlists.isLine htaken
  have hlength : (u ++ (encode taken ++ v)).length - v.length = (u ++ encode taken).length := by
    rw [← List.append_assoc, List.length_append, Nat.add_sub_cancel]
  have hbytes : stretch (encode taken ++ v) v = encode taken := by
    rw [stretch, List.length_append, Nat.add_sub_cancel, List.take_left]
  have hhas (d : Direction) :
      (Found.toMatch ⟨encode taken ++ v, o⟩ tag pattern.groupNames.eraseDups).has d.groupName ↔
        d ∈ listed := by
    have hgroups : listed.map Direction.groupName ⊆ pattern.groupNames.eraseDups :=
      fun name hname => List.mem_eraseDups.mpr (htakes.subset hname)
    rw [Found.has_toMatch_iff hmarks hgroups, List.mem_map]
    simp only [Direction.groupName_inj, exists_eq_right]
  refine ⟨Found.toMatch ⟨encode taken ++ v, o⟩ tag pattern.groupNames.eraseDups, ?_, rfl, ?_, ?_⟩
  · have hfind : pattern.search (u ++ (encode taken ++ v)) = some ⟨encode taken ++ v, o⟩ := hsearch
    rw [Prompts.find_eq, List.findSome?_cons]
    simp only [hfind, Option.map_some, hrest, hlength]
  · rw [Found.toMatch, Found.bytes, hrest, hbytes, Utf8.text, scalars_encode]
  · rw [← hlisted.exits_eq hlists, read]
    ext d
    rw [Bool.eq_iff_iff, Exits.contains_ofList, Exits.contains_ofList, List.contains_iff_mem,
      List.contains_iff_mem, List.mem_filter, hhas, and_iff_right (Direction.mem_all d)]

variable {τ : Type}

theorem isSome_find_iff (tag : τ) (text : List UInt8) :
    ((⟨[(tag, pattern)]⟩ : Prompts τ).find text).isSome ↔
      ∃ after, after <:+ text ∧ Begins after := by
  have hset : Prompts.IsPlain (⟨[(tag, pattern)]⟩ : Prompts τ) :=
    List.forall_mem_singleton.mpr isPlain_pattern
  rw [Prompts.isSome_find_iff hset]
  simp only [begins_iff]
  constructor
  · rintro ⟨word, rest, ⟨p, hp, -, hword⟩, hsuffix⟩
    obtain rfl := List.mem_singleton.mp hp
    exact ⟨word ++ rest, hsuffix, word, rest, hword, rfl⟩
  · rintro ⟨_, hsuffix, word, rest, hword, rfl⟩
    exact ⟨word, rest, ⟨_, List.mem_singleton.mpr rfl, isPlain_pattern, hword⟩, hsuffix⟩

/-- Behind text without a head, a list of exits is the first one. -/
theorem exists_find_of_head (tag : τ) (hlists : Lists directions chars)
    (hu : ¬ encode head <:+: u) : ∃ found,
      (⟨[(tag, pattern)]⟩ : Prompts τ).find (u ++ (encode chars ++ v)) =
        some (found, (u ++ encode chars).length) ∧ read found = .ofList directions := by
  obtain ⟨lead, items, tail, -, -, hchars, -⟩ := hlists.exists_listing
  obtain ⟨found, hfind, -, -, hread⟩ := exists_find (u := u) (v := v) tag hlists
    fun z hz hne hbegins => by
      have hhead := head_of_begins hbegins
      rw [hchars, encode_append, List.append_assoc] at hhead
      exact head_not_before hne (fun h => hu (h.trans hz.isInfix)) hhead
  exact ⟨found, hfind, hread⟩

/-- Where no other head stands, a row is found just if its markers are in order. -/
theorem find_row_eq_none (tag : τ) {row : Row} (hu : ¬ encode head <:+: u)
    (hbody : ¬ encode head <:+: encode row.body ++ v)
    (horder : ∀ directions, ¬ InOrder row.codes directions) :
    (⟨[(tag, pattern)]⟩ : Prompts τ).find (u ++ (encode row.chars ++ v)) = none := by
  have hrow : encode row.chars ++ v = encode head ++ (encode row.body ++ v) := by
    rw [Row.chars, encode_append, List.append_assoc]
  have hhere : ¬ Begins (encode row.chars ++ v) := fun h => by
    obtain ⟨directions, h⟩ := begins_row_iff.mp h
    exact horder directions h
  rw [← Option.not_isSome_iff_eq_none, isSome_find_iff]
  rintro ⟨after, ⟨t, ht⟩, hbegins⟩
  have hhead := head_of_begins hbegins
  rcases List.append_eq_append_iff.mp ht with ⟨z, hz, rfl⟩ | ⟨y, rfl, hy⟩
  · by_cases hne : z = []
    · subst hne
      exact hhere hbegins
    · rw [hrow] at hhead
      exact head_not_before hne (fun h => hu (h.trans ⟨t, [], by rw [hz, List.append_nil]⟩)) hhead
  · rw [hrow] at hy
    rcases List.append_eq_append_iff.mp hy with ⟨w, rfl, hw⟩ | ⟨w, hparts, rfl⟩
    · refine hbody (hhead.isInfix.trans ?_)
      rw [hw]
      exact (List.suffix_append w after).isInfix
    · by_cases hy : y = []
      · subst hy
        rw [List.nil_append] at hparts
        rw [← hparts, ← hrow] at hbegins
        exact hhere hbegins
      · by_cases hw : w = []
        · subst hw
          exact hbody hhead.isInfix
        · exact head_not_behind hparts hy hw hhead

/-- **Which lists of exits are found in a text, and what is read off them.** One is found just if
one begins somewhere. The leftmost one counts: it is found up to its LF, and the exits read off it
are those that it lists. Any exits can be listed with any labels, and behind text without a head
they are read back. A row of markers begins a list of exits just if its markers are in order; where
no other head stands, nothing is found of another row. -/
theorem find_pattern (tag : τ) :
    let set : Prompts τ := ⟨[(tag, pattern)]⟩
    (∀ text, (set.find text).isSome ↔ ∃ after, after <:+ text ∧ Begins after) ∧
    (∀ directions line u v, Lists directions line →
      (∀ after, after <:+ u ++ (encode line ++ v) → Begins after →
        after.length ≤ (encode line ++ v).length) →
      ∃ found body, set.find (u ++ (encode line ++ v)) = some (found, (u ++ encode line).length) ∧
        found.tag = tag ∧ found.matched = String.ofList line ∧ read found = .ofList directions ∧
        encode line = body ++ [0x0A] ∧ 0x0A ∉ body) ∧
    (∀ exits labels ladders blanks carriage,
      Lists exits.toList (render exits labels ladders blanks carriage)) ∧
    (∀ (exits : Exits) line u v, Lists exits.toList line → ¬ encode head <:+: u →
      ∃ found, set.find (u ++ (encode line ++ v)) = some (found, (u ++ encode line).length) ∧
        read found = exits) ∧
    (∀ (row : Row) v,
      Begins (encode row.chars ++ v) ↔ ∃ directions, InOrder row.codes directions) ∧
    (∀ (row : Row) u v, ¬ encode head <:+: u → ¬ encode head <:+: encode row.body ++ v →
      (∀ directions, ¬ InOrder row.codes directions) →
      set.find (u ++ (encode row.chars ++ v)) = none) := by
  intro set
  refine ⟨isSome_find_iff tag, fun directions line u v hlists hleftmost => ?_, lists_render,
    fun exits line u v hlists hu => ?_, fun row v => begins_row_iff, fun row u v hu hbody horder =>
      find_row_eq_none tag hu hbody horder⟩
  · have hfirst : ∀ z, z <:+ u → z ≠ [] → ¬ Begins (z ++ (encode line ++ v)) := by
      rintro z ⟨w, rfl⟩ hne hbegins
      have hle := hleftmost _ ⟨w, (List.append_assoc w z _).symm⟩ hbegins
      have hpos : 0 < z.length := List.length_pos_iff.mpr hne
      rw [List.length_append] at hle
      omega
    obtain ⟨found, hfind, htag, hmatched, hread⟩ := exists_find tag hlists hfirst
    obtain ⟨body, hbody, hline⟩ := hlists.isLine.exists_body
    exact ⟨found, body, hfind, htag, hmatched, hread, hbody, hline⟩
  · obtain ⟨found, hfind, hread⟩ := exists_find_of_head (v := v) tag hlists hu
    have hexits : Exits.ofList exits.toList = exits := by
      ext d
      rw [Bool.eq_iff_iff, Exits.contains_ofList, List.contains_iff_mem, Exits.mem_toList]
    exact ⟨found, hfind, hread.trans hexits⟩

/-- The words for no exits may end a label. -/
example : ((⟨[((), pattern)]⟩ : Prompts Unit).find (Utf8.bytes "Exits: [N]orth [SW]é None\r\n>")).map
    (fun p => (read p.1).toList) = some [.north, .southWest] := by decide +kernel

end MudDialogue.ExitLine
