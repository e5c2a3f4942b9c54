import WordMachine.Assembly.Line
import WordMachine.Assembly.Operand

/-!
# Encoding

A first pass over the lines gives every label its address, for which the spelling of the operands
is enough; a second one encodes the statements with all labels known. Each pass keeps what it had
when an error stopped it.
-/
namespace WordMachine.Assembly

open WordMachine.Text

/-! ### Labels -/

namespace Statement

def size (statement : Statement) : Nat :=
  1 + statement.operands.foldr (fun token words => (Operand.ofToken token).size + words) 0

end Statement

def Line.size (line : Line) : Nat :=
  match line.statement? with
  | some statement => statement.size
  | none => 0

/-- What forbids a label next to those declared before it. -/
def labelFault? (labels : Labels) (name : List Char) : Option Cause :=
  -- Label names keep their letter case, but keywords are known in any.
  if (labels.lookup name).isSome then some (.duplicateLabel name)
  else if (Mode.ofKeyword? (upper name)).isSome then some (.keywordLabel name)
  else if (Hexadecimal.readMarked? name).isSome then some (.numberLabel name)
  else none

/-- The labels after a line that begins at an address. -/
def Line.declare (labels : Labels) (address : Nat) (line : Line) : Except Error Labels :=
  match line.label? with
  | none => .ok labels
  | some name =>
    match labelFault? labels name with
    | some cause => .error ⟨cause, line.number, line.text⟩
    | none => .ok (labels ++ [(name, address)])

/-- What the first pass has found: the labels, the words counted, and the error that stopped it. -/
structure LabelScan where
  labels : Labels
  size : Nat
  error? : Option Error

/-- The first pass over lines that follow others. -/
def scanFrom (labels : Labels) (size : Nat) : List Line → LabelScan
  | [] => ⟨labels, size, none⟩
  | line :: rest =>
    match line.declare labels size with
    | .error error => ⟨labels, size, some error⟩
    | .ok labels => scanFrom labels (size + line.size) rest

def scan (lines : List Line) : LabelScan := scanFrom [] 0 lines

/-! ### Words -/

/-- The operand of a token and its next words. -/
def encodeOperand (labels : Labels) (token : List Char) : Except Cause (Mode × List Word) :=
  let operand := Operand.ofToken token
  match operand.words? labels with
  | some words => .ok (operand.mode, words)
  | none => .error (.unknownOperand token)

/-- The words of a statement: its instruction, then the next words of its operands. -/
def Statement.encode (labels : Labels) (statement : Statement) : Except Cause (List Word) :=
  match Operation.ofMnemonic? statement.mnemonic with
  | none => .error (.unknownMnemonic statement.mnemonic)
  | some .jsr =>
    match statement.operands with
    | [target] => do
      let (mode, next) ← encodeOperand labels target
      return (Instruction.mk Operation.jsr.opcode Operation.jsrSelector mode.code).toWord :: next
    | operands => .error (.operandCount .jsr operands.length)
  | some operation =>
    match statement.operands with
    -- The number of operands is checked before what they say, and the first before the second.
    | [first, second] => do
      let (a, nextA) ← encodeOperand labels first
      let (b, nextB) ← encodeOperand labels second
      return (Instruction.mk operation.opcode a.code b.code).toWord :: (nextA ++ nextB)
    | operands => .error (.operandCount operation operands.length)

/-- A line with a statement, the address of its first word, and its words. -/
structure Placed where
  line : Line
  address : Nat
  words : List Word
  deriving DecidableEq

/-- What the second pass has encoded, and the error that stopped it. -/
structure Emission where
  placed : List Placed
  error? : Option Error

/-- The second pass over lines of which the first begins at an address. -/
def emitFrom (labels : Labels) (address : Nat) : List Line → Emission
  | [] => ⟨[], none⟩
  | line :: rest =>
    match line.statement? with
    | none => emitFrom labels address rest
    | some statement =>
      match statement.encode labels with
      -- The lines before this one keep their words.
      | .error cause => ⟨[], some ⟨cause, line.number, line.text⟩⟩
      | .ok words =>
        let emission := emitFrom labels (address + words.length) rest
        ⟨⟨line, address, words⟩ :: emission.placed, emission.error?⟩

def emit (labels : Labels) (lines : List Line) : Emission := emitFrom labels 0 lines

def wordsOf (placed : List Placed) : List Word := placed.flatMap (·.words)

end WordMachine.Assembly
