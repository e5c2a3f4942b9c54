import WordMachine.CommandLine.Tool
import Std.Time.Zoned

/-!
# The program

The tool on the files of this system: what the arguments name is looked up, the tool is called, and
what it has changed is written back.
-/
namespace WordMachine.Disk

open WordMachine.CommandLine

/-- The spelling of the path to an entry. -/
def spelling (key : Key) : String :=
  let path : Path := match key with
    | first :: names => if first = FileTree.rootName then ⟨1, names⟩ else ⟨0, key⟩
    | [] => ⟨0, []⟩
  String.ofList path.text

/-- The entry under a key, if there is one. -/
def entry? (key : Key) : IO (Option Entry) := do
  try
    let bytes ← IO.FS.readBinFile (spelling key)
    return some (.file bytes.toList)
  catch
    | .noFileOrDirectory .. => return none
    | .inappropriateType .. => return some .directory
    | error => throw error

/-- Adds to a tree the entries on the way that names lead from a directory, up to a name that no
entry can have. -/
def lookAlong (tree : FileTree) (key : Key) : List (List Char) → IO FileTree
  | [] => return tree
  | name :: rest => do
    if name = Path.above then lookAlong tree (FileTree.above key) rest
    else if name.contains '\x00' ∨ FileTree.nameLimit < (Utf8.encode name).length then return tree
    else
      let key := key ++ [name]
      match ← entry? key with
      | none => return tree
      | some .directory => lookAlong (tree.put key .directory) key rest
      | some (.file bytes) => return tree.put key (.file bytes)

/-- The entries on the way to given paths, of those that can be followed. -/
def look (paths : List Path) : IO FileTree :=
  (paths.filter fun path => !FileTree.isTooLong path).foldlM (fun tree path =>
    lookAlong tree (if path.root = 0 then [] else [FileTree.rootName]) path.names) ⟨[]⟩

/-- Makes the entries in which one tree differs from another, directories before what they hold. -/
def update (before after : FileTree) : IO Unit :=
  after.entries.forM fun (key, entry) => do
    if before.find? key ≠ some entry then
      match entry with
      | .directory => IO.FS.createDir (spelling key)
      | .file bytes => IO.FS.writeBinFile (spelling key) ⟨bytes.toArray⟩

/-- The time of day as log files show it. -/
def time : IO String := do
  let now ← Std.Time.PlainDateTime.now
  let digits (width : Nat) (value : Int) := String.ofList
    ((Decimal.written value).toList.leftpad width '0')
  let date := [digits 4 now.date.year, digits 2 now.date.month.val, digits 2 now.date.day.val]
  let clock := [digits 2 now.time.hour.val, digits 2 now.time.minute.val,
    digits 2 now.time.second.val]
  return String.intercalate "-" date ++ " " ++ String.intercalate ":" clock ++ "," ++
    digits 3 (now.time.nanosecond.val / 1000000)

end WordMachine.Disk

open WordMachine WordMachine.CommandLine in
def main (arguments : List String) : IO UInt32 := do
  let arguments := arguments.map String.toList
  let before ← Disk.look (Tool.paths arguments)
  let outcome := Tool.call (← Disk.time) before arguments
  Disk.update before outcome.files
  IO.print outcome.output
  IO.eprint (outcome.errors ++ outcome.ending.complaint)
  return UInt32.ofNat outcome.ending.exitStatus
