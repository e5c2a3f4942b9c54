import WordMachine.Assembly.Encoding
import WordMachine.Text.Layout

/-! The listing: source lines beside their addresses and words. -/
namespace WordMachine.Assembly.Listing

open WordMachine.Text

def heading : List String :=
  [" ADDR  " ++ filled 14 "WORDS" ++ "  SOURCE", String.ofList (List.replicate 60 '-')]

def placedRow (placed : Placed) : String :=
  "$" ++ Hexadecimal.padded 4 placed.address ++ "  " ++
    filled 14 (String.intercalate " " (placed.words.map fun word =>
      Hexadecimal.padded 4 word.value)) ++
    "  " ++ String.ofList (trim placed.line.text)

/-- The row of a line that has none, unless the line is blank. -/
def plainRow? (line : Line) : Option String :=
  let text := trim line.text
  if text.isEmpty then none else some (spaces 23 ++ String.ofList text)

/-- The rows of lines, of which the placed ones are a part in the same order. -/
def rows : List Line → List Placed → List String
  | [], _ => []
  | line :: lines, [] => (plainRow? line).toList ++ rows lines []
  | line :: lines, placed :: rest =>
    -- Line numbers are unique, so that they tell whether the next placed line is this one.
    if placed.line.number = line.number then placedRow placed :: rows lines rest
    else (plainRow? line).toList ++ rows lines (placed :: rest)

def text (lines : List Line) (placed : List Placed) : String :=
  String.intercalate "\n" (heading ++ rows lines placed)

end WordMachine.Assembly.Listing
