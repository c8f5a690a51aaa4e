import MudDialogue.Telnet
import Mathlib.Logic.ExistsUnique
import Mathlib.Tactic.SplitIfs

/-!
# The grammar of telnet streams

A telnet stream is a sequence of tokens: bytes of text, the doubled byte 255, negotiations, single
byte commands and subnegotiation blocks. This file gives the tokens without the automaton and shows
that the automaton decodes exactly them. Every string of bytes is tokens followed by the beginning
of one more token, in only one way; the automaton passes on the text of the tokens and their
refusals, and is between commands when nothing of a token is left over.

## Main definitions

* `Telnet.Token`, `Telnet.Piece` — the tokens of a stream, and what the body of a block consists of.
* `Telnet.Parses` — a string of bytes is tokens and the beginning of one more.
* `Telnet.Underway` — the bytes of a token that bring the automaton into a mode.

## Main results

* `Telnet.token_cancel` — two streams that are the same begin with the same token.
* `Telnet.step_underway`, `Telnet.run_underway` — what the automaton does with a byte and a stream.
* `Telnet.existsUnique_parses_and_part` — the automaton decodes the grammar, and so does the reader
  that leaves it out where it can.
-/

namespace MudDialogue.Telnet

/-- What the body of a subnegotiation block consists of. -/
inductive Piece where
  /-- A byte that starts no command. -/
  | plain (b : UInt8) (h : b ≠ interpret)
  /-- Byte 255 with a byte after it that does not close the block. -/
  | pair (b : UInt8) (h : b ≠ blockEnd)

/-- The bytes of a piece. -/
def Piece.bytes : Piece → List UInt8
  | plain b _ => [b]
  | pair b _ => [interpret, b]

/-- What a telnet stream consists of. -/
inductive Token where
  /-- A byte of text. -/
  | text (b : UInt8) (h : b ≠ interpret)
  /-- Byte 255, written twice, which stands for itself. -/
  | escape
  /-- A verb with any option. -/
  | negotiation (verb : Verb) (option : UInt8)
  /-- A command of a single byte, below those of the verbs and of the start of a block. -/
  | command (code : UInt8) (h : code < blockStart)
  /-- A subnegotiation block. -/
  | block (body : List Piece)

namespace Token

/-- The bytes of a token. -/
def bytes : Token → List UInt8
  | text b _ => [b]
  | escape => [interpret, interpret]
  | negotiation verb option => [interpret, verb.byte, option]
  | command code _ => [interpret, code]
  | block body => interpret :: blockStart :: (body.flatMap Piece.bytes ++ [interpret, blockEnd])

/-- What a token says to the application. -/
def data : Token → List UInt8
  | text b _ => [b]
  | escape => [interpret]
  | negotiation _ _ | command _ _ | block _ => []

/-- What is written back for a token: 255 252 and the option for 255 253, and 255 254 and the option
for 255 251. -/
def replies : Token → List UInt8
  | negotiation .demand option => [255, 252, option]
  | negotiation .offer option => [255, 254, option]
  | negotiation .decline _ | negotiation .forbid _ => []
  | text _ _ | escape | command _ _ | block _ => []

/-- What a token brings out of the automaton. -/
def emissions : Token → List Emission
  | text b _ => [.text b]
  | escape => [.text interpret]
  | negotiation verb option => (verb.refusal?.map (Emission.refusal · option)).toList
  | command _ _ | block _ => []

@[simp] theorem filterMap_emissions (t : Token) :
    t.emissions.filterMap Emission.text? = t.data := by
  cases t with
  | negotiation verb option => cases verb <;> rfl
  | _ => rfl

@[simp] theorem flatMap_emissions (t : Token) : t.emissions.flatMap Emission.wire = t.replies := by
  cases t with
  | negotiation verb option => cases verb <;> rfl
  | _ => rfl

end Token

/-- The beginning of a token without its end; it may be empty. -/
def IsIncomplete (tail : List UInt8) : Prop :=
  ∃ (t : Token) (more : List UInt8), more ≠ [] ∧ t.bytes = tail ++ more

/-- A string of bytes is some tokens and then the beginning of one more. -/
def Parses (s : List UInt8) (tokens : List Token) (tail : List UInt8) : Prop :=
  s = tokens.flatMap Token.bytes ++ tail ∧ IsIncomplete tail

/-! ### A stream is cut into tokens in only one way -/

theorem Piece.cancel {p q : Piece} {x y : List UInt8} (h : p.bytes ++ x = q.bytes ++ y) :
    p = q ∧ x = y := by
  cases p with
  | plain b hb =>
    cases q with
    | plain c hc =>
      obtain ⟨rfl, rfl⟩ := List.cons.inj h
      exact ⟨rfl, rfl⟩
    | pair c hc => exact absurd (List.cons.inj h).1 hb
  | pair b hb =>
    cases q with
    | plain c hc => exact absurd (List.cons.inj h).1.symm hc
    | pair c hc =>
      obtain ⟨rfl, rfl⟩ := List.cons.inj (List.cons.inj h).2
      exact ⟨rfl, rfl⟩

/-- A piece does not begin like the end of a block. -/
theorem Piece.bytes_append_ne (p : Piece) (x y : List UInt8) :
    p.bytes ++ x ≠ interpret :: blockEnd :: y := by
  intro h
  cases p with
  | plain b hb => exact hb (List.cons.inj h).1
  | pair b hb => exact hb (List.cons.inj (List.cons.inj h).2).1

/-- Two bodies that are the same up to the ends of their blocks consist of the same pieces. -/
theorem pieces_cancel {ps qs : List Piece} {x y : List UInt8}
    (h : ps.flatMap Piece.bytes ++ interpret :: blockEnd :: x =
      qs.flatMap Piece.bytes ++ interpret :: blockEnd :: y) : ps = qs ∧ x = y := by
  induction ps generalizing qs with
  | nil =>
    cases qs with
    | nil => simpa using h
    | cons q qs =>
      rw [List.flatMap_cons, List.append_assoc] at h
      exact absurd h.symm (q.bytes_append_ne _ _)
  | cons p ps ih =>
    rw [List.flatMap_cons, List.append_assoc] at h
    cases qs with
    | nil => exact absurd h (p.bytes_append_ne _ _)
    | cons q qs =>
      rw [List.flatMap_cons, List.append_assoc] at h
      obtain ⟨rfl, hrest⟩ := Piece.cancel h
      obtain ⟨rfl, rfl⟩ := ih hrest
      exact ⟨rfl, rfl⟩

theorem Verb.byte_injective : Function.Injective Verb.byte := by
  intro v w h
  simpa using congrArg Verb.ofByte? h

/-- The kinds of tokens. -/
inductive Kind where
  | text | escape | negotiation | command | block

/-- The kind of a token. -/
def Token.kind : Token → Kind
  | text _ _ => .text
  | escape => .escape
  | negotiation _ _ => .negotiation
  | command _ _ => .command
  | block _ => .block

/-- The kind of the first token of a stream, told from its first two bytes. -/
def kindOf : List UInt8 → Kind
  | [] | [_] => .text
  | b :: c :: _ =>
    if b ≠ interpret then .text
    else if c = interpret then .escape
    else if c = blockStart then .block
    else if c < blockStart then .command
    else .negotiation

theorem kindOf_bytes_append (t : Token) (x : List UInt8) : kindOf (t.bytes ++ x) = t.kind := by
  cases t with
  | text b hb => cases x <;> simp [Token.bytes, Token.kind, kindOf, hb]
  | escape => rfl
  | negotiation v option => cases v <;> rfl
  | command c hc =>
    have h₁ : c ≠ interpret := by rintro rfl; exact absurd hc (by decide)
    have h₂ : c ≠ blockStart := by rintro rfl; exact absurd hc (by decide)
    simp [Token.bytes, Token.kind, kindOf, hc, h₁, h₂]
  | block body => rfl

/-- **Two streams that are the same begin with the same token.** -/
theorem token_cancel {t u : Token} {x y : List UInt8} (h : t.bytes ++ x = u.bytes ++ y) :
    t = u ∧ x = y := by
  have hkind : t.kind = u.kind := by
    rw [← kindOf_bytes_append t x, h, kindOf_bytes_append]
  -- the kinds agree, so only the cases with the same constructor twice are left
  cases t <;> cases u <;> cases hkind
  case text.text => simpa [Token.bytes] using h
  case escape.escape => simpa [Token.bytes] using h
  case negotiation.negotiation =>
    simp only [Token.bytes, List.cons_append, List.nil_append, List.cons.injEq, true_and] at h
    obtain ⟨hv, rfl, rfl⟩ := h
    exact ⟨by rw [Verb.byte_injective hv], rfl⟩
  case command.command => simpa [Token.bytes] using h
  case block.block =>
    simp only [Token.bytes, List.cons_append, List.nil_append, List.append_assoc, List.cons.injEq,
      true_and] at h
    obtain ⟨rfl, rfl⟩ := pieces_cancel h
    exact ⟨rfl, rfl⟩

/-- Two streams that are the same consist of the same tokens, and the same is left over. -/
theorem Parses.unique {s tail rest : List UInt8} {ts us : List Token} (ht : Parses s ts tail)
    (hu : Parses s us rest) : ts = us ∧ tail = rest := by
  obtain ⟨rfl, htail⟩ := ht
  obtain ⟨h, hrest⟩ := hu
  -- a token never stands where an incomplete one is left over
  have hno (tail y : List UInt8) (hi : IsIncomplete tail) (u : Token) : tail ≠ u.bytes ++ y := by
    rintro rfl
    obtain ⟨t, more, hmore, ht⟩ := hi
    have := (token_cancel (t := t) (u := u) (x := []) (y := y ++ more) (by simpa using ht)).2
    exact hmore (List.append_eq_nil_iff.mp this.symm).2
  induction ts generalizing us with
  | nil =>
    cases us with
    | nil => exact ⟨rfl, by simpa using h⟩
    | cons u us => exact absurd (by simpa using h) (hno tail _ htail u)
  | cons t ts ih =>
    cases us with
    | nil => exact absurd (by simpa using h.symm) (hno rest _ hrest t)
    | cons u us =>
      simp only [List.flatMap_cons, List.append_assoc] at h
      obtain ⟨rfl, hmore⟩ := token_cancel h
      obtain ⟨rfl, rfl⟩ := ih hmore
      exact ⟨rfl, rfl⟩

/-! ### What the automaton does -/

/-- The bytes of a token that bring the automaton from between commands into a mode. -/
inductive Underway : Mode → List UInt8 → Prop where
  | data : Underway .data []
  | command : Underway .command [interpret]
  | negotiation (v : Verb) : Underway (.negotiation v) [interpret, v.byte]
  | block (body : List Piece) :
      Underway .block (interpret :: blockStart :: body.flatMap Piece.bytes)
  | blockCommand (body : List Piece) :
      Underway .blockCommand (interpret :: blockStart :: (body.flatMap Piece.bytes ++ [interpret]))

theorem Underway.isIncomplete {m : Mode} {w : List UInt8} (h : Underway m w) : IsIncomplete w := by
  cases h with
  | data => exact ⟨.escape, [interpret, interpret], by simp, rfl⟩
  | command => exact ⟨.escape, [interpret], by simp, rfl⟩
  | negotiation v => exact ⟨.negotiation v 0, [0], by simp, rfl⟩
  | block body => exact ⟨.block body, [interpret, blockEnd], by simp, rfl⟩
  | blockCommand body => exact ⟨.block body, [blockEnd], by simp, by simp [Token.bytes]⟩

theorem Underway.eq_data_iff {m : Mode} {w : List UInt8} (h : Underway m w) :
    m = .data ↔ w = [] := by
  cases h <;> simp

theorem eq_byte_of_ofByte? {b : UInt8} {v : Verb} (h : Verb.ofByte? b = some v) : b = v.byte := by
  unfold Verb.ofByte? at h
  split_ifs at h with h₁ h₂ h₃ h₄ <;> cases h <;> assumption

theorem lt_of_ofByte?_eq_none {b : UInt8} (h : Verb.ofByte? b = none) (hi : b ≠ interpret)
    (hs : b ≠ blockStart) : b < blockStart := by
  unfold Verb.ofByte? at h
  split_ifs at h with h₁ h₂ h₃ h₄
  grind

/-- **One byte of a token.** It either goes on with the token that is underway or completes it. -/
theorem step_underway {m : Mode} {w : List UInt8} (h : Underway m w) (b : UInt8) :
    (Underway (step m b).1 (w ++ [b]) ∧ (step m b).2 = []) ∨
      ∃ t : Token, t.bytes = w ++ [b] ∧ step m b = (.data, t.emissions) := by
  cases h with
  | data =>
    by_cases hb : b = interpret
    · subst hb
      exact .inl ⟨.command, rfl⟩
    · exact .inr ⟨.text b hb, rfl, by simp [step, hb, Token.emissions]⟩
  | command =>
    by_cases hi : b = interpret
    · subst hi
      exact .inr ⟨.escape, rfl, rfl⟩
    by_cases hs : b = blockStart
    · subst hs
      exact .inl ⟨.block [], rfl⟩
    cases hv : Verb.ofByte? b with
    | some v =>
      obtain rfl := eq_byte_of_ofByte? hv
      refine .inl ⟨?_, ?_⟩
      · simpa [step, hi, hs] using Underway.negotiation v
      · simp [step, hi, hs]
    | none =>
      refine .inr ⟨.command b (lt_of_ofByte?_eq_none hv hi hs), rfl, ?_⟩
      simp [step, hi, hs, hv, Token.emissions]
  | negotiation v => exact .inr ⟨.negotiation v b, rfl, rfl⟩
  | block body =>
    by_cases hb : b = interpret
    · subst hb
      exact .inl ⟨.blockCommand body, rfl⟩
    · have := Underway.block (body ++ [.plain b hb])
      exact .inl ⟨by simpa [step, hb, Piece.bytes] using this, rfl⟩
  | blockCommand body =>
    by_cases hb : b = blockEnd
    · subst hb
      exact .inr ⟨.block body, by simp [Token.bytes], rfl⟩
    · have := Underway.block (body ++ [.pair b hb])
      exact .inl ⟨by simpa [step, hb, Piece.bytes] using this, rfl⟩

/-- **A whole stream.** What it brings out are the emissions of its tokens. -/
theorem run_underway {m : Mode} {w : List UInt8} (h : Underway m w) (s : List UInt8) :
    ∃ (ts : List Token) (tail : List UInt8), w ++ s = ts.flatMap Token.bytes ++ tail ∧
      Underway (Transducer.run step m s).1 tail ∧
      (Transducer.run step m s).2 = ts.flatMap Token.emissions := by
  induction s generalizing m w with
  | nil => exact ⟨[], w, by simp, h, rfl⟩
  | cons b s ih =>
    rcases step_underway h b with ⟨hon, hnone⟩ | ⟨t, ht, hstep⟩
    · obtain ⟨ts, tail, hs, htail, hout⟩ := ih hon
      refine ⟨ts, tail, by simpa using hs, htail, ?_⟩
      rw [Transducer.run_cons, hnone, hout, List.nil_append]
    · obtain ⟨ts, tail, hs, htail, hout⟩ := ih Underway.data
      refine ⟨t :: ts, tail, ?_, by simpa [Transducer.run_cons, hstep] using htail, ?_⟩
      · rw [List.flatMap_cons, ht, List.append_assoc, ← hs]
        simp
      · simp [Transducer.run_cons, hstep, hout]

theorem ofEmissions_flatMap (ts : List Token) :
    Parted.ofEmissions (ts.flatMap Token.emissions) =
      ⟨ts.flatMap Token.data, ts.flatMap Token.replies⟩ := by
  simp [Parted.ofEmissions, List.filterMap_flatMap, List.flatMap_assoc]

/-- **The automaton decodes the grammar.** Every string of bytes is, in exactly one way, tokens
followed by the beginning of one more. What is passed on of it are the text and the replies of the
tokens, and the stream is between commands again if nothing is left over. It is the same for a
session, which leaves the automaton out where it can. -/
theorem existsUnique_parses_and_part (s : List UInt8) :
    (∃! p : List Token × List UInt8, Parses s p.1 p.2) ∧
      ∀ tokens tail, Parses s tokens tail → ∀ parting ∈ [part, partRead],
        (parting .data s).2 = ⟨tokens.flatMap Token.data, tokens.flatMap Token.replies⟩ ∧
          ((parting .data s).1 = .data ↔ tail = []) := by
  obtain ⟨ts, tail, hs, hunder, hout⟩ := run_underway .data s
  have hparses : Parses s ts tail := ⟨hs, hunder.isIncomplete⟩
  refine ⟨⟨(ts, tail), hparses, ?_⟩, ?_⟩
  · rintro ⟨us, rest⟩ hu
    obtain ⟨rfl, rfl⟩ := hparses.unique hu
    rfl
  · intro us rest hu parting hparting
    obtain ⟨rfl, rfl⟩ := hparses.unique hu
    have hpart : parting .data s = part .data s := by
      simp only [List.mem_cons, List.not_mem_nil, or_false] at hparting
      obtain rfl | rfl := hparting
      · rfl
      · exact partRead_eq .data s
    rw [hpart]
    refine ⟨?_, hunder.eq_data_iff⟩
    change Parted.ofEmissions _ = _
    rw [hout, ofEmissions_flatMap]

/-- Text, a doubled byte 255, an offer of the option 255, a command, a block with byte 255 doubled
inside, and a demand that is cut off. -/
theorem part_of_every_kind :
    let s : List UInt8 := [104, 255, 255, 255, 251, 255, 255, 241, 255, 240, 255, 250, 24, 255, 255,
      255, 240, 255, 253]
    ∀ parting ∈ [part, partRead],
      (parting .data s).2 = ⟨[104, 255], [255, 254, 255]⟩ ∧ (parting .data s).1 ≠ .data := by
  intro s parting hparting
  have htail : IsIncomplete [255, 253] := ⟨.negotiation .demand 1, [1], by simp, rfl⟩
  have h := (existsUnique_parses_and_part s).2
    [.text 104 (by decide), .escape, .negotiation .offer 255, .command 241 (by decide),
      .command 240 (by decide), .block [.plain 24 (by decide), .pair 255 (by decide)]]
    [255, 253] ⟨rfl, htail⟩ parting hparting
  exact ⟨h.1, fun hdata => absurd (h.2.mp hdata) (by simp)⟩

end MudDialogue.Telnet
