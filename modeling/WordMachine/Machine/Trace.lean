import WordMachine.Core

/-!
# Traces

A table of the registers, one row a step, with the fields of the instruction about to run. A row is
as wide as the header and has its bars in the same places.
-/
namespace WordMachine.Trace

/-- A name in the middle of low lines; the odd one goes to the right. -/
def heading (width : Nat) (name : String) : String :=
  let spare := width - name.length
  String.ofList (List.replicate (spare / 2) '_') ++ name ++
    String.ofList (List.replicate (spare - spare / 2) '_')

/-- A line with bars around and between two groups of columns. -/
def line (registers fields : List String) : String :=
  "|" ++ String.intercalate "|" registers ++ "|||" ++ String.intercalate "|" fields ++ "|"

def header : String :=
  line ((["PC", "SP", "OV", "SKIP"] ++
      Register.all.toList.map fun register => String.singleton register.letter).map (heading 6))
    (["OP", "A", "B"].map (heading 4))

/-- A number between two spaces. -/
def column (width : Nat) (value : Int) : String := " " ++ Hexadecimal.padded width value ++ " "

/-- The row of a core. The sentinel has no fields to show. -/
def row (core : Core) : String :=
  let registers := core.registers
  let values := [registers.pc.value, registers.sp.value, registers.overflow.value,
    if registers.skip then 1 else 0] ++ registers.general.toList.map Word.value
  let fields := match core.memory.fetch registers.pc with
    | .sentinel => List.replicate 3 " -- "
    | .word word =>
      let instruction := Instruction.ofWord word
      [column 2 instruction.opcode.toNat, column 2 instruction.a.toNat,
        column 2 instruction.b.toNat]
  line (values.map (column 4)) fields

end WordMachine.Trace
