import WordMachine.Word
import WordMachine.Text.Hexadecimal

/-!
# Registers

Eight general registers, the program counter, the stack pointer, the overflow register, and the
flag that makes the machine skip the next instruction.
-/
namespace WordMachine

inductive Register
  | a | b | c | x | y | z | i | j
  deriving DecidableEq

namespace Register

/-- The general registers, in the order of their codes. -/
def all : Vector Register 8 := #v[.a, .b, .c, .x, .y, .z, .i, .j]

def index : Register → Fin 8
  | .a => 0 | .b => 1 | .c => 2 | .x => 3 | .y => 4 | .z => 5 | .i => 6 | .j => 7

def ofIndex (n : Fin 8) : Register := all[n]

def letter : Register → Char
  | .a => 'A' | .b => 'B' | .c => 'C' | .x => 'X' | .y => 'Y' | .z => 'Z' | .i => 'I' | .j => 'J'

/-- The register that a text names, in upper case. -/
def ofName? (name : List Char) : Option Register :=
  all.toList.find? fun register => name == [register.letter]

/-- The register that an integer of any size and sign stands for, counting around. -/
def around (n : Int) : Register := ofIndex (Fin.ofNat 8 (n % 8).toNat)

theorem ofIndex_index (register : Register) : ofIndex register.index = register := by
  cases register <;> rfl

theorem index_ofIndex (n : Fin 8) : (ofIndex n).index = n := by
  revert n
  decide

theorem ofName?_eq_some_iff (name : List Char) (register : Register) :
    ofName? name = some register ↔ name = [register.letter] := by
  constructor
  · intro found
    simpa using List.find?_some found
  · rintro rfl
    cases register <;> rfl

end Register

structure Registers where
  general : Vector Word 8
  pc : Word
  sp : Word
  overflow : Word
  skip : Bool
  deriving DecidableEq

/-- A register that can be named: a general one or one of the three others. -/
inductive RegisterName
  | general (register : Register)
  | pc
  | sp
  | overflow
  deriving DecidableEq

/-- The register with a given name, in upper case. -/
def RegisterName.ofName? (name : List Char) : Option RegisterName :=
  if name = ['P', 'C'] then some .pc
  else if name = ['S', 'P'] then some .sp
  else if name = ['O', 'V'] then some .overflow
  else (Register.ofName? name).map .general

namespace Registers

/-- The registers at power-on, with a given stack pointer. -/
def initial (sp : Word) : Registers := ⟨Vector.replicate 8 0, 0, sp, 0, false⟩

def read (registers : Registers) (register : Register) : Word :=
  registers.general[register.index]

def write (registers : Registers) (register : Register) (value : Word) : Registers :=
  { registers with general := registers.general.set register.index value register.index.isLt }

def get (registers : Registers) : RegisterName → Word
  | .general register => registers.read register
  | .pc => registers.pc
  | .sp => registers.sp
  | .overflow => registers.overflow

def set (registers : Registers) (name : RegisterName) (value : Word) : Registers :=
  match name with
  | .general register => registers.write register value
  | .pc => { registers with pc := value }
  | .sp => { registers with sp := value }
  | .overflow => { registers with overflow := value }

def display (registers : Registers) : String :=
  let named (name : String) (word : Word) := name ++ "=" ++ Hexadecimal.padded 4 word.value
  String.intercalate " " <|
    [named "PC" registers.pc, named "SP" registers.sp, named "OV" registers.overflow,
      "SKIP=" ++ if registers.skip then "1" else "0"] ++
    Register.all.toList.map fun register =>
      named (String.singleton register.letter) (registers.read register)

theorem read_write (registers : Registers) (first second : Register) (value : Word) :
    (registers.write first value).read second =
      if first = second then value else registers.read second := by
  by_cases same : first = second
  · subst same
    simp [read, write]
  · have apart : (first.index : Nat) ≠ second.index := by
      intro equal
      apply same
      rw [← Register.ofIndex_index first, ← Register.ofIndex_index second, Fin.ext equal]
    simp [read, write, same, apart]

end Registers

end WordMachine
