import WordMachine.Word
import WordMachine.Text.Digits
import WordMachine.Text.Hexadecimal

/-!
# Memory

65536 cells, addressed by words, so that addresses wrap. Loading copies numbers into consecutive
cells and stops at the first one that no cell can hold.
-/
namespace WordMachine

structure Memory where
  cells : Vector Cell 65536

inductive LoadError
  /-- There are more numbers than cells. -/
  | tooLarge (count : Nat)
  /-- The number at a position of the list is neither a word nor the sentinel. -/
  | outOfRange (position : Nat) (value : Int)
  deriving DecidableEq

def LoadError.message : LoadError → String
  | .tooLarge count => "Program too large: " ++ Decimal.written count ++ " words"
  | .outOfRange position value =>
    "Word " ++ Decimal.written position ++ " out of range: " ++ Hexadecimal.marked 1 value

namespace Memory

def size : Nat := 65536

def blank : Memory := ⟨Vector.replicate 65536 (.word 0)⟩

def fetch (memory : Memory) (address : Word) : Cell :=
  have bound : address.toNat < 65536 := address.isLt
  memory.cells[address.toNat]

def read (memory : Memory) (address : Word) : Word := (memory.fetch address).data

def put (memory : Memory) (address : Word) (cell : Cell) : Memory :=
  ⟨memory.cells.set address.toNat cell address.isLt⟩

def write (memory : Memory) (address value : Word) : Memory := memory.put address (.word value)

def placeSentinel (memory : Memory) (address : Word) : Memory := memory.put address .sentinel

theorem fetch_put (memory : Memory) (first second : Word) (cell : Cell) :
    (memory.put first cell).fetch second =
      if first = second then cell else memory.fetch second := by
  simp only [fetch, put, Vector.getElem_set, BitVec.toNat_inj]

/-- What a load leaves: the memory, the address after the last cell that was filled, and the
number that stopped it, if one did. -/
structure Load where
  memory : Memory
  next : Word
  error? : Option LoadError

/-- Copies numbers into consecutive cells from an address on; `position` is the place of the first
of them in the list that is being loaded. -/
def loadFrom (memory : Memory) (address : Word) (position : Nat) : List Int → Load
  | [] => ⟨memory, address, none⟩
  | value :: rest =>
    match Cell.ofRaw? value with
    | some cell => loadFrom (memory.put address cell) (address + 1) (position + 1) rest
    -- The cells filled so far stay filled.
    | none => ⟨memory, address, some (.outOfRange position value)⟩

/-- Copies numbers into consecutive cells from an address on. -/
def load (memory : Memory) (address : Word) (values : List Int) : Load :=
  memory.loadFrom address 0 values

/-- One row of a dump: an address and the words from there on. -/
def dumpRow (memory : Memory) (address : Word) (count : Nat) : String :=
  Hexadecimal.padded 4 address.value ++ "  " ++
    String.intercalate " " ((List.range count).map fun k =>
      Hexadecimal.padded 4 (memory.read (address + BitVec.ofNat 16 k)).value)

/-- A dump of consecutive words, eight to a row. -/
def dump (memory : Memory) (start : Word) (length : Nat) : String :=
  String.intercalate "\n" ((List.range ((length + 7) / 8)).map fun row =>
    memory.dumpRow (start + BitVec.ofNat 16 (8 * row)) (min 8 (length - 8 * row)))

/-- The numbers that stand for consecutive cells. -/
def raws (memory : Memory) (start : Word) (length : Nat) : List Int :=
  (List.range length).map fun k => (memory.fetch (start + BitVec.ofNat 16 k)).raw

/-- The addresses below a number at which two memories differ, in order, with what the second one
holds there, and then what is known of the later addresses. -/
def changesBelow (before after : Memory) :
    (n : Nat) → n ≤ 65536 → List (Nat × Int) → List (Nat × Int)
  | 0, _, later => later
  | n + 1, bound, later =>
    let cell := after.cells[n]
    -- The highest address comes first, so that each change is put in front of the later ones.
    changesBelow before after n (Nat.le_of_succ_le bound)
      (if cell = before.cells[n] then later else (n, cell.raw) :: later)

/-- The addresses at which two memories differ, in order, with what the second one holds there. -/
def changes (before after : Memory) : List (Nat × Int) :=
  changesBelow before after 65536 (Nat.le_refl _) []

end Memory

end WordMachine
