import MudDialogue.Pattern.Prompts
import MudDialogue.World.Exits

/-!
# The line that lists the exits of a room

A room is described by text that ends in a line such as

    Exits: [N]orth [NE]North East [S]outh [U]p

Each exit is a marker in brackets with a label behind it. The markers always come in the same order,
so a pattern with one optional group for each compass direction reads the whole line. Ways up and
down are passed over, and a room without exits says `None`.
-/

namespace MudDialogue.ExitLine

open Pattern Text

/-- Any number of spaces and tabs. -/
def blanks : Regex := .star true (.atom (.scalar (.ofChars [' ', '\t'])))

/-- The rest of an exit behind its marker: anything up to the next marker or the end of the line. -/
def label : Regex :=
  .star true (.atom (.scalar (.compl CodeSet.lastScalar (.ofChars ['[', '\r', '\n']))))

/-- The exit in one direction, if it is listed. -/
def exit (d : Direction) : Regex :=
  .optional true
    (.concat [.char '[', .group d.groupName (.literal d.code), .char ']', label])

/-- Any number of ways up and down. -/
def ladders : Regex :=
  .star true (.concat [.char '[', .atom (.scalar (.ofChars ['U', 'D'])), .char ']', label])

/-- A complete line. It has to end in LF, so that a line of which only a part has arrived is not
taken for all of it. -/
def pattern : Regex :=
  .concat ([.literal "Exits:", blanks] ++ Direction.all.map exit ++
    [ladders, .optional true (.literal "None"), blanks, .optional true (.char '\r'), .char '\n'])

/-- The exits that a match of `pattern` lists. -/
def read {τ : Type} (m : Match τ) : Exits :=
  .ofList (Direction.all.filter fun d => m.has d.groupName)

end MudDialogue.ExitLine
