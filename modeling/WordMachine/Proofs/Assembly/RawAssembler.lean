import WordMachine.Proofs.Assembly.Passes

/-! The assembler over numbers of any size: the fields of an instruction are shifted into their
places, and a literal or an address is cut to sixteen bits only on its way behind an instruction.
The numbers that it makes of a source are the words of the program. -/
namespace WordMachine.Raw

open WordMachine.Assembly

/-- The sixteen low bits of a number. -/
def mask (n : Nat) : Nat := n &&& 0xFFFF

def operationCode : Operation → Nat
  | .binary .set => 0x1
  | .binary .add => 0x2
  | .binary .sub => 0x3
  | .binary .mul => 0x4
  | .binary .div => 0x5
  | .binary .mod => 0x6
  | .binary .shl => 0x7
  | .binary .shr => 0x8
  | .binary .and => 0x9
  | .binary .bor => 0xA
  | .binary .xor => 0xB
  | .conditional .equal => 0xC
  | .conditional .notEqual => 0xD
  | .conditional .greater => 0xE
  | .conditional .common => 0xF
  | .jsr => 0x0

def modeCode : Mode → Nat
  | .register r => 0x00 + r.index
  | .atRegister r => 0x08 + r.index
  | .indexed r => 0x10 + r.index
  | .pop => 0x18
  | .peek => 0x19
  | .push => 0x1A
  | .stackPointer => 0x1B
  | .programCounter => 0x1C
  | .overflow => 0x1D
  | .atNextWord => 0x1E
  | .nextWord => 0x1F
  | .literal n => 0x20 + n

/-- The number that stands for a value behind an instruction, if its label is declared. -/
def number? (labels : Labels) : Value → Option Nat
  | .number n => some (mask n)
  | .label name => (labels.lookup name).map mask

/-- The code of an operand and the numbers that follow the instruction because of it. -/
def encodeOperand? (labels : Labels) (token : List Char) : Option (Nat × List Nat) :=
  let operand := Operand.ofToken token
  match operand.value? with
  | none => some (modeCode operand.mode, [])
  | some value => (number? labels value).map fun n => (modeCode operand.mode, [n])

/-- The numbers of a statement. -/
def encode? (labels : Labels) (statement : Statement) : Option (List Nat) :=
  match Operation.ofMnemonic? statement.mnemonic with
  | none => none
  | some .jsr =>
    match statement.operands with
    | [target] => do
      let (b, next) ← encodeOperand? labels target
      return (0x01 <<< 4 ||| b <<< 10) :: next
    | _ => none
  | some operation =>
    match statement.operands with
    | [first, second] => do
      let (a, nextA) ← encodeOperand? labels first
      let (b, nextB) ← encodeOperand? labels second
      return (operationCode operation ||| a <<< 4 ||| b <<< 10) :: (nextA ++ nextB)
    | _ => none

/-- The numbers of the statements of lines, in order. -/
def emit? (labels : Labels) : List Line → Option (List Nat)
  | [] => some []
  | line :: rest =>
    match line.statement? with
    | none => emit? labels rest
    | some statement => do
      let numbers ← encode? labels statement
      let others ← emit? labels rest
      return numbers ++ others

/-- The numbers of a source, if it is assembled. -/
def assemble? (source : List Char) : Option (List Nat) :=
  match parse source with
  | .error _ => none
  | .ok lines =>
    let scanned := scan lines
    match scanned.error? with
    | some _ => none
    | none => do
      let numbers ← emit? scanned.labels lines
      if numbers.length = scanned.size then some numbers else none

/-! ### Fields -/

theorem mask_eq (n : Nat) : mask n = (BitVec.ofNat 16 n).toNat := by
  rw [BitVec.toNat_ofNat]
  exact Nat.and_two_pow_sub_one_eq_mod n 16

theorem operationCode_eq (operation : Operation) :
    operationCode operation = operation.opcode.toNat := by
  cases operation with
  | binary op => cases op <;> rfl
  | conditional condition => cases condition <;> rfl
  | jsr => rfl

theorem modeCode_eq (mode : Mode) : modeCode mode = mode.code.toNat := by
  cases mode with
  | register r => cases r <;> rfl
  | atRegister r => cases r <;> rfl
  | indexed r => cases r <;> rfl
  | literal n => revert n; decide
  | _ => rfl

/-- Fields that are shifted into their places do not overlap. -/
theorem packed_eq (instruction : Instruction) :
    instruction.opcode.toNat ||| instruction.a.toNat <<< 4 ||| instruction.b.toNat <<< 10 =
      instruction.toWord.toNat := by
  rw [Instruction.toWord, BitVec.toNat_append, BitVec.toNat_append, Nat.shiftLeft_or_distrib,
    ← Nat.shiftLeft_add]
  ac_rfl

/-! ### Statements -/

theorem number?_eq (labels : Labels) (value : Value) :
    number? labels value = (value.word? labels).map BitVec.toNat := by
  cases value with
  | number n => exact congrArg some (mask_eq n)
  | label name =>
    -- An address is cut in the same way as a literal.
    rw [number?, Value.word?, Option.map_map]
    exact congrArg (labels.lookup name).map (funext mask_eq)

theorem encodeOperand?_eq (labels : Labels) (token : List Char) :
    encodeOperand? labels token = (encodeOperand labels token).toOption.map fun part =>
      (part.1.code.toNat, part.2.map BitVec.toNat) := by
  unfold encodeOperand? encodeOperand Operand.words?
  simp only [modeCode_eq, number?_eq]
  generalize Operand.ofToken token = operand
  cases operand.value? with
  | none => rfl
  | some value =>
    simp only
    cases value.word? labels <;> rfl

/-- The number in front of the next words is the instruction word. -/
private theorem toNat_word (operation : Operation) (a b : Mode) :
    operationCode operation ||| a.code.toNat <<< 4 ||| b.code.toNat <<< 10 =
      (Instruction.mk operation.opcode a.code b.code).toWord.toNat := by
  rw [operationCode_eq]
  exact packed_eq ⟨operation.opcode, a.code, b.code⟩

private theorem toNat_call (b : Mode) :
    0x01 <<< 4 ||| b.code.toNat <<< 10 =
      (Instruction.mk Operation.jsr.opcode Operation.jsrSelector b.code).toWord.toNat := by
  rw [← packed_eq]
  exact congrArg (· ||| b.code.toNat <<< 10) (Nat.zero_or _).symm

theorem encode?_eq (labels : Labels) (statement : Statement) :
    encode? labels statement =
      (statement.encode labels).toOption.map (List.map BitVec.toNat) := by
  unfold encode? Statement.encode
  simp only [encodeOperand?_eq]
  generalize statement.operands = operands
  cases Operation.ofMnemonic? statement.mnemonic with
  | none => rfl
  | some operation =>
    cases operation with
    | jsr =>
      rcases operands with _ | ⟨target, _ | ⟨_, _⟩⟩
      · rfl
      · simp only
        cases encodeOperand labels target with
        | error cause => rfl
        | ok part => exact congrArg (fun word => some (word :: _)) (toNat_call part.1)
      · rfl
    | binary _ | conditional _ =>
      rcases operands with _ | ⟨first, _ | ⟨second, _ | ⟨_, _⟩⟩⟩
      · rfl
      · rfl
      · simp only
        cases encodeOperand labels first with
        | error cause => rfl
        | ok one =>
          cases encodeOperand labels second with
          | error cause => rfl
          | ok two =>
            -- The next words of the first operand come before those of the second.
            have word (operation : Operation) := toNat_word operation one.1 two.1
            have nexts : one.2.map BitVec.toNat ++ two.2.map BitVec.toNat =
                (one.2 ++ two.2).map BitVec.toNat := List.map_append.symm
            exact congrArg₂ (fun word nexts => some (word :: nexts)) (word _) nexts
      · rfl

/-! ### Lines -/

theorem emit?_eq (labels : Labels) (address : Nat) (lines : List Line) :
    emit? labels lines =
      match (emitFrom labels address lines).error? with
      | some _ => none
      | none => some ((wordsOf (emitFrom labels address lines).placed).map BitVec.toNat) := by
  induction lines generalizing address with
  | nil => rfl
  | cons line rest ih =>
    unfold emit? emitFrom
    cases line.statement? with
    | none => exact ih address
    | some statement =>
      -- The induction is on the lines, each of which begins where the one before it ends.
      simp only [encode?_eq]
      cases statement.encode labels with
      | error cause => rfl
      | ok words =>
        have others := ih (address + words.length)
        simp only [Except.toOption, Option.map_some, others]
        cases (emitFrom labels (address + words.length) rest).error? with
        | some error => rfl
        | none => exact congrArg some List.map_append.symm

/-- What is made of a source without cutting numbers to words is the program assembled from it. -/
theorem assemble?_eq (source : List Char) :
    assemble? source =
      (assemble source).toOption.map fun program => program.words.map BitVec.toNat := by
  unfold assemble? assemble Session.assemble
  cases parse source with
  | error error => rfl
  | ok lines =>
    simp only
    cases (scan lines).error? with
    | some error => rfl
    | none =>
      have emitted : emit? (scan lines).labels lines =
          match (emit (scan lines).labels lines).error? with
          | some _ => none
          | none => some ((wordsOf (emit (scan lines).labels lines).placed).map BitVec.toNat) :=
        emit?_eq (scan lines).labels 0 lines
      -- From here on both stop at the same errors, and count the same words.
      simp only [emitted]
      cases (emit (scan lines).labels lines).error? with
      | some error => rfl
      | none =>
        simp only [Option.bind_eq_bind, Option.bind_some, List.length_map]
        by_cases counted : (wordsOf (emit (scan lines).labels lines).placed).length =
          (scan lines).size
        · rw [if_pos counted, if_pos counted]
          rfl
        · rw [if_neg counted, if_neg counted]
          rfl

end WordMachine.Raw
