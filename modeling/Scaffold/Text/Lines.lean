import Scaffold.Text.Blank

/-!
# Lines of a text

A line ends at a line feed.  Generated files are measured in lines and indented line by line.
-/

namespace Scaffold.Text

/-- The lines of a text: one more than its line feeds. -/
def splitLines : List Char → List (List Char)
  | [] => [[]]
  | c :: rest =>
      match splitLines rest with
      | [] => [[c]]
      | line :: lines => if c == '\n' then [] :: line :: lines else (c :: line) :: lines

/-- Join lines by line feeds. -/
def joinLines (lines : List String) : String :=
  "\n".intercalate lines

/-- The lines of a text as texts. -/
def lines (text : String) : List String :=
  (splitLines text.toList).map String.ofList

/-- The number of lines of a text, where a line feed at the end starts no further line. -/
def countLines (text : String) : Nat :=
  let characters := text.toList
  match characters.getLast? with
  | none => 0
  | some last => characters.count '\n' + (if last == '\n' then 0 else 1)

/-- Indent one line; a line of blanks stays as it is. -/
def indentLine (width : Nat) (line : String) : String :=
  if line.toList.all isBlank then line else String.ofList (List.replicate width ' ') ++ line

/-- Indent every line that is not blank. -/
def indentLines (width : Nat) (lines : List String) : List String :=
  lines.map (indentLine width)

theorem splitLines_ne_nil (text : List Char) : splitLines text ≠ [] := by
  cases text with
  | nil => simp [splitLines]
  | cons c rest =>
      rw [splitLines]
      split
      · simp
      · split <;> simp

end Scaffold.Text
