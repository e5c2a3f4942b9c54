import WordMachine.Memory
import WordMachine.Mode

/-!
# Locations

Where an operand is. A location names one storage cell of the machine or a constant; a reference
names a storage class and an index of any size and sign, as someone outside the machine gives it.
-/
namespace WordMachine

/-- The classes of storage that an operand can be in. -/
inductive Storage
  | register | memory | stackPointer | programCounter | overflow | literal | immediate
  deriving DecidableEq

def Storage.name : Storage → String
  | .register => "register"
  | .memory => "memory"
  | .stackPointer => "SP"
  | .programCounter => "PC"
  | .overflow => "OV"
  | .literal => "literal"
  | .immediate => "immediate"

/-- Constants cannot be written. -/
def Storage.writable : Storage → Bool
  | .literal | .immediate => false
  | _ => true

structure Reference where
  storage : Storage
  index : Int
  deriving DecidableEq

/-- Where an operand is. -/
inductive Location
  | register (r : Register)
  | memory (address : Word)
  | stackPointer
  | programCounter
  | overflow
  /-- One of the small constants that operand codes hold. -/
  | literal (n : Fin 32)
  /-- A constant that follows the instruction. -/
  | immediate (value : Word)
  deriving DecidableEq

def Location.reference : Location → Reference
  | .register r => ⟨.register, r.index⟩
  | .memory address => ⟨.memory, address.value⟩
  | .stackPointer => ⟨.stackPointer, 0⟩
  | .programCounter => ⟨.programCounter, 0⟩
  | .overflow => ⟨.overflow, 0⟩
  | .literal n => ⟨.literal, n.val⟩
  | .immediate value => ⟨.immediate, value.value⟩

def Location.writable (location : Location) : Bool := location.reference.storage.writable

/-- The location that a reference stands for. Registers and memory wrap around; the small constants
are counted from the first up or from the last down, and have no others. -/
def Reference.location? (reference : Reference) : Option Location :=
  match reference.storage with
  | .register => some (.register (Register.around reference.index))
  | .memory => some (.memory (Word.ofInt reference.index))
  | .stackPointer => some .stackPointer
  | .programCounter => some .programCounter
  | .overflow => some .overflow
  | .literal =>
    if -32 ≤ reference.index ∧ reference.index < 32 then
      some (.literal (Mode.constantAround reference.index))
    else none
  | .immediate => some (.immediate (Word.ofInt reference.index))

theorem Location.location?_reference (location : Location) :
    location.reference.location? = some location := by
  cases location with
  | register r => cases r <;> rfl
  | literal n => revert n; decide
  | memory address => simp [reference, Reference.location?, Word.ofInt_value]
  | immediate value => simp [reference, Reference.location?, Word.ofInt_value]
  | _ => rfl

end WordMachine
