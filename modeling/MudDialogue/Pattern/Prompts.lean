import MudDialogue.Pattern.Search

/-!
# Sets of prompts

A program waits for one of several prompts. Each is a regular expression with a tag that says which
prompt it is, and the set is in order of priority: the first pattern that matches anywhere in the
text wins, wherever the others match.
-/

namespace MudDialogue.Pattern

open Text

/-- A prompt that was recognised. -/
structure Match (τ : Type) where
  /-- Which prompt it is. -/
  tag : τ
  /-- The text that the pattern matched. -/
  matched : String
  /-- The named groups that took part in the match, with what they matched. -/
  captures : List (String × String)
deriving DecidableEq, Repr

namespace Match

variable {τ : Type}

/-- What a named group matched, if it took part. -/
def capture? (m : Match τ) (name : String) : Option String := m.captures.lookup name

/-- A named group took part in the match. -/
def has (m : Match τ) (name : String) : Bool := (m.capture? name).isSome

end Match

/-- Bytes from one place to a later one, each given by the bytes after it. -/
def stretch (start rest : List UInt8) : List UInt8 := start.take (start.length - rest.length)

namespace Outcome

/-- Where a group was entered for the last time. -/
def lastEntered? (o : Outcome) (name : String) : Option (List UInt8) :=
  o.marks.foldl (fun found m => match m with
    | .enter n rest => if n = name then some rest else found
    | .leave _ _ => found) none

/-- Where a group was left for the last time. -/
def lastLeft? (o : Outcome) (name : String) : Option (List UInt8) :=
  o.marks.foldl (fun found m => match m with
    | .leave n rest => if n = name then some rest else found
    | .enter _ _ => found) none

/-- What a group matched the last time it took part. -/
def capture? (o : Outcome) (name : String) : Option (List UInt8) :=
  match o.lastEntered? name, o.lastLeft? name with
  | some start, some rest => some (stretch start rest)
  | _, _ => none

end Outcome

namespace Found

/-- The bytes that were matched. -/
def bytes (f : Found) : List UInt8 := stretch f.start f.outcome.rest

/-- The match as a prompt with the given tag and groups. -/
def toMatch {τ : Type} (f : Found) (tag : τ) (names : List String) : Match τ where
  tag
  matched := Utf8.text f.bytes
  captures := names.filterMap fun name =>
    (f.outcome.capture? name).map fun bytes => (name, Utf8.text bytes)

end Found

/-- Prompts in order of priority. -/
structure Prompts (τ : Type) where
  /-- The tag and the pattern of each prompt. -/
  patterns : List (τ × Regex)

namespace Prompts

variable {τ : Type}

/-- The first prompt of the set that the text holds, and how many bytes of the text go up to the end
of it. -/
def find (set : Prompts τ) (haystack : List UInt8) : Option (Match τ × Nat) :=
  set.patterns.findSome? fun (tag, r) =>
    ((Machine.ofRegex r).search haystack).map fun f =>
      (f.toMatch tag r.groupNames.eraseDups, haystack.length - f.outcome.rest.length)

/-- What is found of a prompt is the leftmost match of its pattern. -/
theorem find_eq (set : Prompts τ) (haystack : List UInt8) :
    set.find haystack = set.patterns.findSome? fun (tag, r) =>
      (r.search haystack).map fun f =>
        (f.toMatch tag r.groupNames.eraseDups, haystack.length - f.outcome.rest.length) := by
  simp only [find, Machine.search_ofRegex]

end Prompts

end MudDialogue.Pattern
