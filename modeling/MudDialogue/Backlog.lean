import MudDialogue.Pattern.Prompts
import MudDialogue.Terminal
import MudDialogue.Text.Quoted

/-!
# The backlog of received output

What the server has said and no prompt has been recognised in yet. The backlog cleans what is added
to it, keeps no more than its depth, dropping the oldest bytes first, and gives up everything
through the end of a prompt once the prompt is recognised.
-/

namespace MudDialogue

open Text

/-- Cleaned output that is not consumed yet. -/
structure Backlog where
  /-- The most bytes that are kept. -/
  depth : Nat
  /-- The bytes kept, oldest first. -/
  content : List UInt8
  /-- Where the output stands, so that a control sequence or a character may be cut by a read. -/
  mode : Terminal.Mode
deriving DecidableEq, Repr

namespace Backlog

/-- How much is kept when nothing else is asked for. -/
def defaultDepth : Nat := 4096

/-- A backlog with nothing in it. -/
def empty (depth : Nat) : Backlog := ⟨depth, [], .start⟩

/-- The last `depth` bytes. -/
def newest (depth : Nat) (bytes : List UInt8) : List UInt8 := bytes.drop (bytes.length - depth)

/-- Adds the bytes of one read. -/
def extend (b : Backlog) (read : List UInt8) : Backlog :=
  let (mode, cleaned) := Terminal.clean b.mode read
  { b with mode, content := newest b.depth (b.content ++ cleaned) }

/-- Gives up the first `n` bytes. -/
def consume (b : Backlog) (n : Nat) : Backlog := { b with content := b.content.drop n }

/-- Looks for a prompt. Everything through the end of the prompt is given up with it. -/
def search {τ : Type} (b : Backlog) (set : Pattern.Prompts τ) :
    Option (Pattern.Match τ × Backlog) :=
  (set.find b.content).map fun (found, stop) => (found, b.consume stop)

/-- Drops everything, a control sequence or a character that is not complete included. -/
def clear (b : Backlog) : Backlog := empty b.depth

/-- The content as text. -/
def text (b : Backlog) : String := Utf8.text b.content

/-- The backlog in words, for a log. -/
def describe (b : Backlog) : String :=
  "PatternBuffer \x7b buffer: " ++ Quoted.quote b.text ++ ", search_depth: " ++ toString b.depth ++
    ", .. \x7d"

@[simp] theorem content_empty (depth : Nat) : (empty depth).content = [] := rfl

@[simp] theorem depth_extend (b : Backlog) (read : List UInt8) : (b.extend read).depth = b.depth :=
  rfl

@[simp] theorem depth_consume (b : Backlog) (n : Nat) : (b.consume n).depth = b.depth := rfl

theorem length_newest_le (depth : Nat) (bytes : List UInt8) :
    (newest depth bytes).length ≤ depth := by
  simp only [newest, List.length_drop]; omega

theorem newest_suffix (depth : Nat) (bytes : List UInt8) : newest depth bytes <:+ bytes :=
  List.drop_suffix _ _

theorem length_content_extend_le (b : Backlog) (read : List UInt8) :
    (b.extend read).content.length ≤ b.depth :=
  length_newest_le _ _

end Backlog

end MudDialogue
