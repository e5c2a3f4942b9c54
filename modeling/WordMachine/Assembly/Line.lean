import WordMachine.Assembly.Error
import WordMachine.Text.Layout
import WordMachine.Text.UpperCase
import WordMachine.Text.WordCharacter

/-!
# Source lines

A line holds a label, a statement, both or neither, and a comment from the first semicolon on. Its
words decide what it says; how much white space parts them does not.
-/
namespace WordMachine.Assembly

open WordMachine.Text

/-- A mnemonic, in upper case, and the operands as written, without white space. -/
structure Statement where
  mnemonic : List Char
  operands : List (List Char)
  deriving DecidableEq

/-- A line of source text with its number, counted from one. -/
structure Line where
  number : Nat
  text : List Char
  label? : Option (List Char)
  statement? : Option Statement
  deriving DecidableEq

def isLabelName (name : List Char) : Bool := !name.isEmpty && name.all isWordCharacter

/-- The statement that words spell, if there are any. Operands are parted by commas, and white
space inside them does not count. -/
def Statement.ofWords : List (List Char) → Except Cause (Option Statement)
  | [] => .ok none
  | [mnemonic] => .ok (some ⟨upper mnemonic, []⟩)
  | mnemonic :: rest =>
    let text := [' '].intercalate rest
    -- White space inside an operand is dropped, not taken for its end.
    let operands := (text.splitOn ',').map dropBlanks
    if operands.any (·.isEmpty) then .error (.emptyOperand text)
    else .ok (some ⟨upper mnemonic, operands⟩)

/-- The label and the statement that the words of a line spell. A word that begins with a colon
declares a label when it is the first. -/
def parseWords : List (List Char) → Except Cause (Option (List Char) × Option Statement)
  -- The name must touch its colon: a colon by itself is an invalid declaration.
  | (':' :: name) :: rest =>
    if isLabelName name then (Statement.ofWords rest).map (some name, ·)
    else .error (.invalidLabel (':' :: name))
  | words => (Statement.ofWords words).map (none, ·)

def withoutComment (text : List Char) : List Char := text.takeWhile (· != ';')

def Line.parse (number : Nat) (text : List Char) : Except Error Line :=
  match parseWords (words (withoutComment text)) with
  | .ok (label?, statement?) => .ok ⟨number, text, label?, statement?⟩
  | .error cause => .error ⟨cause, number, text⟩

/-- Lines read, the first of which has a given number; the first error counts. -/
def parseLines (number : Nat) : List (List Char) → Except Error (List Line)
  | [] => .ok []
  | text :: rest => do
    let line ← Line.parse number text
    let lines ← parseLines (number + 1) rest
    return line :: lines

def parse (source : List Char) : Except Error (List Line) := parseLines 1 (lines source)

end WordMachine.Assembly
