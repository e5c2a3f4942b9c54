import WordMachine.Instruction
import WordMachine.Text.Layout

/-!
# Disassembly

A word stream taken apart into instructions, data and sentinels, and the line written for each.
The stream may hold numbers of any size and sign; what is decoded of one is its low sixteen bits.
-/
namespace WordMachine

namespace Disassembly

open WordMachine.Text

inductive Entry
  | halt (address : Word)
  /-- A number that begins no defined instruction, or (`truncated`) one that runs past the end. -/
  | data (address : Word) (value : Int) (truncated : Bool)
  /-- An instruction with the numbers that follow its word. -/
  | instruction (address : Word) (operation : Operation) (first : Int) (following : List Int)

/-- The words that follow an instruction, given to its operands: a first operand that takes one
gets the first, and the second operand the next. An operand that takes none gets zero. -/
def operandWords (instruction : Instruction) (following : List Int) : Int × Int :=
  let takesFirst := !instruction.extended && (Mode.ofCode instruction.a).nextWords == 1
  if takesFirst then (following.getD 0 0, following.getD 1 0) else (0, following.getD 0 0)

/-- The operands of an instruction as the source format writes them. -/
def operandsText (instruction : Instruction) (following : List Int) : String :=
  let (first, second) := operandWords instruction following
  let b := (Mode.ofCode instruction.b).text second
  if instruction.extended then b else (Mode.ofCode instruction.a).text first ++ ", " ++ b

/-- The parts of a stream whose first number lies at an address. -/
def entries (address : Word) : List Int → List Entry
  | [] => []
  | value :: rest =>
    if value = Cell.sentinelValue then .halt address :: entries (address + 1) rest
    else
      let instruction := Instruction.ofWord (Word.ofInt value)
      let tail := instruction.length - 1
      let following := rest.take tail
      match Operation.ofInstruction? instruction with
      -- Words that begin no instruction are data, and what follows them is taken apart anew.
      | none => .data address value false :: entries (address + 1) rest
      | some operation =>
        if following.length < tail then .data address value true :: entries (address + 1) rest
        else
          .instruction address operation value following ::
            entries (address + BitVec.ofNat 16 (1 + tail)) (rest.drop tail)
  -- An entry covers at least its own word.
  termination_by stream => stream.length
  decreasing_by all_goals (simp only [List.length_cons, List.length_drop]; omega)

/-- The width of the column that holds the words of a line. -/
def wordColumn : Nat := 14

/-- The line of an entry: its address, its words and its text. -/
def Entry.line : Entry → String
  | .halt address =>
    "$" ++ Hexadecimal.padded 4 address.value ++ "  " ++ filled wordColumn "----" ++ "  HALT"
  | .data address value truncated =>
    let word := Hexadecimal.padded 4 value
    "$" ++ Hexadecimal.padded 4 address.value ++ "  " ++ word ++ spaces 10 ++ "  DAT 0x" ++
      word ++ if truncated then "  ; truncated" else ""
  | .instruction address operation first following =>
    let words := String.intercalate " " ((first :: following).map (Hexadecimal.padded 4))
    "$" ++ Hexadecimal.padded 4 address.value ++ "  " ++ filled wordColumn words ++ "  " ++
      operation.mnemonic ++ " " ++
      operandsText (Instruction.ofWord (Word.ofInt first)) following

/-- The text of an operand code and of the word that follows it, for codes of any size and sign.
Codes below zero count registers from the last one back, of which there are eight; codes above the
last one go on counting constants. -/
def operandText? (code : Int) (next : Int) : Option String :=
  -- Eight codes below zero name registers; there is nothing before them.
  if code < -8 then none
  else if code < 0 then some (String.singleton (Register.around code).letter)
  else if code < 0x40 then some ((Mode.ofCode (BitVec.ofInt 6 code)).text next)
  else some ("0x" ++ Hexadecimal.padded 2 (code - 0x20))

/-- How many words an operand code of any size and sign takes. -/
def operandLength (code : Int) : Nat :=
  if 0 ≤ code ∧ code < 0x40 then (Mode.ofCode (BitVec.ofInt 6 code)).nextWords else 0

end Disassembly

/-- The lines of a word stream whose first number lies at an address. -/
def disassemble (words : List Int) (base : Int) : List String :=
  (Disassembly.entries (Word.ofInt base) words).map Disassembly.Entry.line

end WordMachine
