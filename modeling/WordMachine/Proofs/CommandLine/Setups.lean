import Mathlib.Data.List.Forall2
import WordMachine.CommandLine.Command
import WordMachine.Proofs.Loading

/-! What a run is given: the words of its program, and the numbers that its options spell. From that
it sets a machine up and runs it. -/
namespace WordMachine.CommandLine

/-! ### Programs -/

/-- A source file can be read, decoded and assembled, and is assembled to a program. -/
structure Sourced (files : FileTree) (name : List Char) (program : Program) (bytes : List UInt8)
    (text : List Char) : Prop where
  reads : files.read (Path.ofText name) = .ok bytes
  decodes : Assembly.readSource bytes = .ok text
  assembles : Assembly.assemble text = .ok program

/-- The words that a program file holds. A binary file, known by its extension, holds whole words;
any other file is a source. -/
inductive HoldsProgram (files : FileTree) (name : List Char) : List Word → Prop
  | binary {bytes : List UInt8} (extension : Path.hasExtension name binaryExtension = true)
      (reads : files.read (Path.ofText name) = .ok bytes) (whole : bytes.length % 2 = 0) :
    HoldsProgram files name (Binary.decodePairs bytes)
  | source {program : Program} {bytes : List UInt8} {text : List Char}
      (extension : Path.hasExtension name binaryExtension = false)
      (sourced : Sourced files name program bytes text) :
    HoldsProgram files name program.words

theorem Sourced.unique {files : FileTree} {name : List Char} {program other : Program}
    {bytes more : List UInt8} {text written : List Char}
    (one : Sourced files name program bytes text) (two : Sourced files name other more written) :
    program = other := by
  obtain ⟨reads, decodes, assembles⟩ := one
  rw [two.reads] at reads
  cases reads
  rw [two.decodes] at decodes
  cases decodes
  rw [two.assembles] at assembles
  cases assembles
  rfl

theorem HoldsProgram.unique {files : FileTree} {name : List Char} {words others : List Word}
    (one : HoldsProgram files name words) (two : HoldsProgram files name others) :
    words = others := by
  cases one with
  | binary extension reads =>
    cases two with
    | binary _ again =>
      rw [reads] at again
      cases again
      rfl
    | source other => exact absurd (extension.symm.trans other) nofun
  | source extension sourced =>
    cases two with
    | binary other => exact absurd (other.symm.trans extension) nofun
    | source _ again => rw [sourced.unique again]

/-! ### Setups -/

/-- There is a text, and it spells an address. -/
def SpellsAddress (text? : Option (List Char)) (address : Int) : Prop :=
  ∃ text, text? = some text ∧ readHexadecimal text = .ok address

/-- A text asks for a dump: it spells a start, and behind a colon a length or nothing. -/
def SpellsDump (dump : List Char) : Prop :=
  let spelled := (dump.dropWhile (· != ':')).drop 1
  (∃ start, readHexadecimal (dump.takeWhile (· != ':')) = .ok start) ∧
    (spelled = [] ∨ ∃ length, Numeral.read .marked spelled = .ok length)

/-- What a run begins with. -/
@[ext] structure Setup where
  words : List Word
  stack : Int
  breakpoints : List Int
  budget : Int

namespace Setup

/-- The machine with the program in memory. -/
def loaded (setup : Setup) : Machine :=
  ((Machine.initial (Word.ofInt setup.stack)).load (setup.words.map Word.value) 0).2

/-- The machine that is run. -/
def machine (setup : Setup) (traced : Bool) : Machine :=
  let watched := setup.breakpoints.foldl
    (fun machine address => machine.addBreakpoint (Word.ofInt address)) setup.loaded
  if traced then watched.setTracing true else watched

/-- Why the run comes back, and the machine then. -/
def run (setup : Setup) (traced : Bool) : Reason × Machine :=
  Machine.run setup.budget.toNat (setup.machine traced)

/-- The exit status of the run. -/
def status (setup : Setup) (traced : Bool) : Nat :=
  (verdict (setup.run traced).1 (setup.run traced).2).1

end Setup

/-- The options of a run spell all that it begins with, and the program that they name can be
loaded. -/
structure RunOptions.Gives (files : FileTree) (options : RunOptions) (setup : Setup) : Prop where
  program : HoldsProgram files options.input setup.words
  fits : setup.words.length ≤ 65536
  /-- Without a text for it, the stack begins at address zero. -/
  stack : (options.stack = [] ∧ setup.stack = 0) ∨
    (options.stack ≠ [] ∧ readHexadecimal options.stack = .ok setup.stack)
  breakpoints : List.Forall₂ SpellsAddress options.breakpoints setup.breakpoints
  budget : options.budget? = some setup.budget
  dump : options.dump = [] ∨ SpellsDump options.dump

/-- Every breakpoint that is asked for is spelled. -/
theorem RunOptions.Gives.spells {files : FileTree} {options : RunOptions} {setup : Setup}
    (gives : options.Gives files setup) (text? : Option (List Char))
    (member : text? ∈ options.breakpoints) : ∃ address, SpellsAddress text? address := by
  obtain ⟨place, bound, rfl⟩ := List.getElem_of_mem member
  have same := gives.breakpoints.length_eq ▸ bound
  exact ⟨_, gives.breakpoints.get bound same⟩

/-- Options spell one setup at most. -/
theorem RunOptions.Gives.unique {files : FileTree} {options : RunOptions} {setup other : Setup}
    (one : options.Gives files setup) (two : options.Gives files other) : setup = other := by
  have stack : setup.stack = other.stack := by
    rcases one.stack with ⟨none, zero⟩ | ⟨some, spells⟩ <;>
      rcases two.stack with ⟨empty, same⟩ | ⟨filled, again⟩
    · exact zero.trans same.symm
    · exact absurd none filled
    · exact absurd empty some
    · exact Except.ok.inj (spells.symm.trans again)
  have addresses : Relator.RightUnique SpellsAddress := by
    rintro _ first second ⟨text, rfl, spells⟩ ⟨_, ⟨⟩, again⟩
    exact Except.ok.inj (spells.symm.trans again)
  have breakpoints := addresses.forall₂ one.breakpoints two.breakpoints
  have budget := Option.some.inj (one.budget.symm.trans two.budget)
  exact Setup.ext (one.program.unique two.program) stack breakpoints budget

end WordMachine.CommandLine
