import WordMachine.Mode
import WordMachine.Text.UpperCase

/-!
# Operands in source

What an operand token means: a keyword, or a value that stands in the next word as it is, as an
address, or as an address to which a register is added.
-/
namespace WordMachine.Assembly

open WordMachine.Text

/-- The declared labels with their addresses, in the order of their declaration. -/
abbrev Labels := List (List Char × Nat)

inductive Value
  | number (n : Nat)
  | label (name : List Char)
  deriving DecidableEq

namespace Value

/-- The value that a text stands for; a text that is no number names a label. -/
def ofText (text : List Char) : Value :=
  match Hexadecimal.readMarked? text with
  | some n => .number n
  | none => .label text

/-- The word of a value, if its label is declared. -/
def word? (labels : Labels) : Value → Option Word
  | .number n => some (BitVec.ofNat 16 n)
  | .label name => (labels.lookup name).map (BitVec.ofNat 16)

end Value

inductive Operand
  | keyword (mode : Mode)
  | immediate (value : Value)
  | address (value : Value)
  | indexed (value : Value) (r : Register)
  deriving DecidableEq

namespace Operand

/-- The register that a text names, in any letter case. -/
def register? (text : List Char) : Option Register := Register.ofName? (upper text)

def inBrackets? : List Char → Option (List Char)
  | '[' :: rest => if rest.getLast? = some ']' then some rest.dropLast else none
  | _ => none

/-- The operand with a given text between brackets. At the first plus sign a register may be added
on either side; what stands on the other is the value. -/
def ofBracketed (inner : List Char) : Operand :=
  let left := inner.takeWhile (· != '+')
  match inner.dropWhile (· != '+') with
  | [] => .address (Value.ofText inner)
  | _ :: right =>
    -- When both sides name registers the right one counts, and the left is taken for a label.
    match register? right, register? left with
    | some r, _ => .indexed (Value.ofText left) r
    | none, some r => .indexed (Value.ofText right) r
    | none, none => .address (Value.ofText inner)

/-- The operand that a token stands for. Keywords come first. -/
def ofToken (token : List Char) : Operand :=
  match Mode.ofKeyword? (upper token) with
  -- A general register in brackets is a keyword too.
  | some mode => .keyword mode
  | none =>
    match inBrackets? token with
    | some inner => ofBracketed inner
    | none => .immediate (Value.ofText token)

def mode : Operand → Mode
  | .keyword mode => mode
  | .immediate _ => .nextWord
  | .address _ => .atNextWord
  | .indexed _ r => .indexed r

/-- The value that goes into the operand's next word. -/
def value? : Operand → Option Value
  | .keyword _ => none
  | .immediate value | .address value | .indexed value _ => some value

/-- How many words an operand takes, which its spelling alone decides. -/
def size : Operand → Nat
  | .keyword _ => 0
  | _ => 1

/-- The next words of an operand, if its label is declared. -/
def words? (labels : Labels) (operand : Operand) : Option (List Word) :=
  match operand.value? with
  | none => some []
  | some value => (value.word? labels).map fun word => [word]

theorem length_of_words? (labels : Labels) (operand : Operand) (words : List Word)
    (resolved : operand.words? labels = some words) : words.length = operand.size := by
  cases operand <;>
    simp only [words?, value?, Option.map_eq_some_iff, Option.some.injEq] at resolved
  case keyword => subst resolved; rfl
  all_goals obtain ⟨word, -, rfl⟩ := resolved; rfl

end Operand

end WordMachine.Assembly
