import EscapeRoom.Text.Blank
import EscapeRoom.Text.Utf8

/-!
# Lines

A line ends with a line feed.  Typed input comes as octets and in pieces, so its lines are cut from
the octets before they are read as text, and a carriage return before the line feed is no part of
the line.

* `lines`, `unlines` — the lines of a text, and the text of lines.
* `typedLines` — the ended lines of some octets, and what follows the last of them.
* `typedText?` — a typed line as text.
-/

namespace EscapeRoom.Text

/-- The lines of a text: the pieces that line feeds end, the last of them left out when empty. -/
def lines (cs : List Char) : List (List Char) :=
  let pieces := splitOn (· == '\n') cs
  if pieces.getLast? == some [] then pieces.dropLast else pieces

/-- The lines hold no other characters than the text. -/
theorem mem_of_mem_lines {cs line : List Char} (hline : line ∈ lines cs) {c : Char}
    (hc : c ∈ line) : c ∈ cs := by
  have hpiece : line ∈ splitOn (· == '\n') cs := by
    dsimp only [lines] at hline
    split at hline
    · exact List.dropLast_subset _ hline
    · exact hline
  exact mem_of_mem_splitOn hpiece hc

/-- A text of lines that each end in a line feed. -/
def unlines (lines : List String) : String := String.join (lines.map (· ++ "\n"))

theorem toList_unlines (lines : List String) :
    (unlines lines).toList = lines.flatMap fun line => line.toList ++ ['\n'] := by
  rw [unlines, String.toList_join, List.flatMap_map]
  simp only [String.toList_append]
  rfl

/-- The octets before each line feed, and those after the last one. -/
def typedLines : List UInt8 → List (List UInt8) × List UInt8
  | [] => ([], [])
  | b :: rest =>
      let (ended, open_) := typedLines rest
      if b = 0x0A then ([] :: ended, open_)
      else
        match ended with
        | [] => ([], b :: open_)
        | line :: lines => ((b :: line) :: lines, open_)

/-- The octets of an ended line without a carriage return at its end. -/
def withoutReturn (line : List UInt8) : List UInt8 :=
  if line.getLast? = some 0x0D then line.dropLast else line

/-- A typed line as text, if it is well-formed. -/
def typedText? (line : List UInt8) : Option String := (Utf8.decode? line).map String.ofList

end EscapeRoom.Text
