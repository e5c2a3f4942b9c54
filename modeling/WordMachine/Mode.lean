import WordMachine.Register

/-!
# Addressing modes

What the six bits of an operand code say: which register, cell or constant the operand is, and
whether it takes the word that follows the instruction.
-/
namespace WordMachine

inductive Mode
  | register (r : Register)
  /-- The cell whose address is in a register. -/
  | atRegister (r : Register)
  /-- The cell at the next word plus a register. -/
  | indexed (r : Register)
  /-- The top of the stack, taken off. -/
  | pop
  /-- The top of the stack. -/
  | peek
  /-- A new top of the stack. -/
  | push
  | stackPointer
  | programCounter
  | overflow
  /-- The cell at the next word. -/
  | atNextWord
  | nextWord
  | literal (n : Fin 32)
  deriving DecidableEq

namespace Mode

def code : Mode → BitVec 6
  | .register r => BitVec.ofNat 6 r.index
  | .atRegister r => BitVec.ofNat 6 (0x08 + r.index)
  | .indexed r => BitVec.ofNat 6 (0x10 + r.index)
  | .pop => 0x18
  | .peek => 0x19
  | .push => 0x1A
  | .stackPointer => 0x1B
  | .programCounter => 0x1C
  | .overflow => 0x1D
  | .atNextWord => 0x1E
  | .nextWord => 0x1F
  | .literal n => BitVec.ofNat 6 (0x20 + n)

/-- The small constant that an integer of any size and sign stands for, counting around. -/
def constantAround (n : Int) : Fin 32 := Fin.ofNat 32 (n % 32).toNat

def ofCode (code : BitVec 6) : Mode :=
  let n := code.toNat
  if n < 0x08 then .register (Register.around n)
  else if n < 0x10 then .atRegister (Register.around (n - 0x08))
  else if n < 0x18 then .indexed (Register.around (n - 0x10))
  else if n < 0x20 then
    match n with
    | 0x18 => .pop
    | 0x19 => .peek
    | 0x1A => .push
    | 0x1B => .stackPointer
    | 0x1C => .programCounter
    | 0x1D => .overflow
    | 0x1E => .atNextWord
    | _ => .nextWord
  else .literal (constantAround (n - 0x20))

/-- How many words after the instruction a mode takes. -/
def nextWords : Mode → Nat
  | .indexed _ | .atNextWord | .nextWord => 1
  | _ => 0

/-- How the source format names a mode that takes no word of its own and is no constant. -/
def keyword? : Mode → Option (List Char)
  | .register r => some [r.letter]
  | .atRegister r => some ['[', r.letter, ']']
  | .pop => some ['P', 'O', 'P']
  | .peek => some ['P', 'E', 'E', 'K']
  | .push => some ['P', 'U', 'S', 'H']
  | .stackPointer => some ['S', 'P']
  | .programCounter => some ['P', 'C']
  | .overflow => some ['O']
  | _ => none

def named : List Mode :=
  Register.all.toList.map .register ++ Register.all.toList.map .atRegister ++
    [.pop, .peek, .push, .stackPointer, .programCounter, .overflow]

/-- The mode that a keyword names, in upper case. -/
def ofKeyword? (text : List Char) : Option Mode := named.find? (·.keyword? == some text)

/-- How a mode is written when its next word, if it takes one, is known. -/
def text (next : Int) (mode : Mode) : String :=
  match mode with
  | .indexed r =>
    "[0x" ++ Hexadecimal.padded 4 next ++ "+" ++ String.singleton r.letter ++ "]"
  | .atNextWord => "[0x" ++ Hexadecimal.padded 4 next ++ "]"
  | .nextWord => "0x" ++ Hexadecimal.padded 4 next
  | .literal n => "0x" ++ Hexadecimal.padded 2 n.val
  | mode => String.ofList (mode.keyword?.getD [])

theorem ofCode_code (mode : Mode) : ofCode mode.code = mode := by
  cases mode with
  | register r => cases r <;> rfl
  | atRegister r => cases r <;> rfl
  | indexed r => cases r <;> rfl
  | literal n => revert n; decide
  | _ => rfl

theorem code_ofCode (code : BitVec 6) : (ofCode code).code = code := by
  revert code
  decide

theorem keyword?_of_ofKeyword? (text : List Char) (mode : Mode)
    (found : ofKeyword? text = some mode) : mode.keyword? = some text := by
  simpa using List.find?_some found

theorem ofKeyword?_of_keyword? (text : List Char) (mode : Mode)
    (keyword : mode.keyword? = some text) : ofKeyword? text = some mode := by
  cases mode with
  | register r => cases r <;> (cases keyword; decide)
  | atRegister r => cases r <;> (cases keyword; decide)
  | indexed r => simp [keyword?] at keyword
  | atNextWord | nextWord | literal _ => simp [keyword?] at keyword
  | _ => cases keyword; decide

end Mode

end WordMachine
