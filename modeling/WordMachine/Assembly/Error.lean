import WordMachine.Instruction
import WordMachine.Text.Layout
import WordMachine.Text.Digits

/-! What can be wrong with a source text. -/
namespace WordMachine.Assembly

/-- Why a line cannot be assembled. -/
inductive Cause
  /-- The word that declares a label holds a character that no label may have. -/
  | invalidLabel (declaration : List Char)
  /-- Of the operands written in a text, one is missing. -/
  | emptyOperand (operands : List Char)
  | duplicateLabel (name : List Char)
  /-- The label would be read as a register or a keyword. -/
  | keywordLabel (name : List Char)
  | numberLabel (name : List Char)
  | unknownMnemonic (mnemonic : List Char)
  | operandCount (operation : Operation) (given : Nat)
  /-- The operand is no keyword, no number and no declared label, with brackets or without. -/
  | unknownOperand (token : List Char)
  /-- The second pass emitted another number of words than the first one counted. -/
  | miscounted (emitted counted : Nat)
  deriving DecidableEq

/-- The first error of a source text, with the line that it is on; an error of no line has the
number zero. -/
structure Error where
  cause : Cause
  line : Nat
  text : List Char
  deriving DecidableEq

/-- What is wrong, without the place. -/
def Cause.description : Cause → String
  | .invalidLabel _ => "Invalid label"
  | .emptyOperand _ => "Empty operand"
  | .duplicateLabel _ => "Duplicate label"
  | .keywordLabel _ => "Label shadows a register or keyword"
  | .numberLabel _ => "Label shadows a hex literal"
  | .unknownMnemonic _ => "Unknown mnemonic"
  | .operandCount operation given =>
    operation.mnemonic ++ " expects " ++ Decimal.written operation.operandCount ++
      (if 1 < operation.operandCount then " operands" else " operand") ++ ", got " ++
      Decimal.written given
  | .unknownOperand _ => "Operand not implemented"
  | .miscounted emitted counted =>
    "Internal error: pass 2 emitted " ++ Decimal.written emitted ++ " words, pass 1 counted " ++
      Decimal.written counted

namespace Error

/-- The part of the line that is at fault, if there is one. -/
def token (error : Error) : List Char :=
  match error.cause with
  | .invalidLabel token | .emptyOperand token | .duplicateLabel token | .keywordLabel token
  | .numberLabel token | .unknownMnemonic token | .unknownOperand token => token
  | .operandCount _ _ => Text.trim error.text
  | .miscounted _ _ => []

/-- The wording of an error: the line and the token are named where there are any. -/
def message (error : Error) : String :=
  let token := if error.token.isEmpty then "" else ": '" ++ String.ofList error.token ++ "'"
  let described := error.cause.description ++ token
  if error.line = 0 then described
  else "Line " ++ Decimal.written error.line ++ ": " ++ described

end Error

end WordMachine.Assembly
