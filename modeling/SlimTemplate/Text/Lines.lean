import SlimTemplate.Text.Blank

/-!
# Physical lines

A line ends at a line feed; one carriage return directly before the line feed belongs to the line
ending. A carriage return anywhere else is an ordinary character, also at the very end of the
text. A text that ends with a line feed has no empty line after it.

## Main definitions

* `Text.lines`: the physical lines of a text.
* `Text.visibleLines`: the lines that are not blank, trimmed.
* `Text.unlines`: lines joined by line feeds.
-/

namespace SlimTemplate.Text

/-- A line that a line feed ended, without the carriage return that belongs to the ending. -/
def dropFinalReturn : Text → Text
  | [] => []
  | ['\r'] => []
  | c :: line => c :: dropFinalReturn line

/-- The lines among the parts between line feeds: every part but the last was ended by a line
feed, and an empty last part is no line. -/
def endedLines : List Text → List Text
  | [] => []
  | [last] => if last.isEmpty then [] else [last]
  | line :: more => dropFinalReturn line :: endedLines more

/-- The physical lines of a text. -/
def lines (text : Text) : List Text :=
  endedLines (splitOn '\n' text)

/-- The lines that are not blank, each trimmed. -/
def visibleLines (text : Text) : List Text :=
  ((lines text).map trim).filter fun line => !line.isEmpty

/-- Lines joined by line feeds, without one at the end. -/
def unlines (ls : List Text) : Text :=
  joinWith ['\n'] ls

end SlimTemplate.Text
