import WordMachine.CommandLine.Path
import WordMachine.Text.Digits
import WordMachine.Text.Quoted
import WordMachine.Text.Utf8

/-!
# Files

The files and directories that the tool can see, and what happens when one is read, written or
made.
-/
namespace WordMachine.CommandLine

inductive FileFault
  | notFound
  | alreadyExists
  | notDirectory
  | isDirectory
  | nameTooLong
  | nullInPath
  deriving DecidableEq

/-- A failed operation and the path that it was given. -/
structure FileError where
  fault : FileFault
  path : List Char
  deriving DecidableEq

namespace FileFault

/-- The number and the wording that the system has for a fault. -/
def systemText? : FileFault → Option (Nat × String)
  | .notFound => some (2, "No such file or directory")
  | .alreadyExists => some (17, "File exists")
  | .notDirectory => some (20, "Not a directory")
  | .isDirectory => some (21, "Is a directory")
  | .nameTooLong => some (36, "File name too long")
  | .nullInPath => none

def kind : FileFault → String
  | .notFound => "FileNotFoundError"
  | .alreadyExists => "FileExistsError"
  | .notDirectory => "NotADirectoryError"
  | .isDirectory => "IsADirectoryError"
  | .nameTooLong => "OSError"
  | .nullInPath => "ValueError"

end FileFault

def FileError.message (error : FileError) : String :=
  match error.fault.systemText? with
  | some (number, text) => "[Errno " ++ Decimal.written number ++ "] " ++ text ++ ": " ++
      String.ofList (Text.quoted error.path)
  | none => "embedded null byte"

/-- The names that lead to an entry from the working directory. -/
abbrev Key := List (List Char)

inductive Entry
  | directory
  | file (bytes : List UInt8)
  deriving DecidableEq

/-- The entries that are known, each under its key; the directory of every entry is one too. All of
them are ordinary files or directories, and all can be read and written: there are no devices, no
links and no permissions, and what is written is never too much. -/
structure FileTree where
  entries : List (Key × Entry)

inductive Place
  | directory
  | file (key : Key) (bytes : List UInt8)
  /-- To an entry that is not there, of a directory that is. -/
  | absent (key : Key)

namespace FileTree

/-- The name that stands for the root. It is no name of an entry, since it holds a slash. -/
def rootName : List Char := ['/']

/-- The longest name that an entry can have, in bytes. -/
def nameLimit : Nat := 255

/-- The longest path that can be followed, in bytes. -/
def pathLimit : Nat := 4095

/-- Whether a path is too long to be followed at all. -/
def isTooLong (path : Path) : Bool := pathLimit < (Utf8.encode path.text).length

def find? (tree : FileTree) (key : Key) : Option Entry := tree.entries.lookup key

def put (tree : FileTree) (key : Key) (entry : Entry) : FileTree :=
  match tree.find? key with
  | none => ⟨tree.entries ++ [(key, entry)]⟩
  | some _ =>
    ⟨tree.entries.map fun present => if present.1 == key then (key, entry) else present⟩

/-- Puts a file under a key, and a directory under every key that leads to it. -/
def addFile (tree : FileTree) (key : Key) (bytes : List UInt8) : FileTree :=
  let directories := (List.range (key.length - 1)).map fun n => key.take (n + 1)
  (directories.foldl (fun tree directory => tree.put directory .directory) tree).put key
    (.file bytes)

/-- The directory above. A key above the working directory consists of steps up, and the root is
above itself. -/
def above (key : Key) : Key :=
  match key.getLast? with
  | none => [Path.above]
  | some name =>
    if name = Path.above then key ++ [Path.above]
    else if name = rootName then key
    else key.dropLast

/-- Follows names from a directory on. -/
def follow (tree : FileTree) (key : Key) : List (List Char) → Except FileFault Place
  | [] => .ok .directory
  | name :: rest =>
    if name = Path.above then follow tree (above key) rest
    -- The system looks at the length of a name before it looks for the entry.
    else if nameLimit < (Utf8.encode name).length then .error .nameTooLong
    else
      let next := key ++ [name]
      match tree.find? next with
      | some .directory => follow tree next rest
      | some (.file bytes) => if rest.isEmpty then .ok (.file next bytes) else .error .notDirectory
      | none => if rest.isEmpty then .ok (.absent next) else .error .notFound

def locate (tree : FileTree) (path : Path) : Except FileFault Place :=
  -- These two are refused before any directory is looked at.
  if path.names.any (·.contains '\x00') then .error .nullInPath
  else if isTooLong path then .error .nameTooLong
  else tree.follow (if path.root = 0 then [] else [rootName]) path.names

def read (tree : FileTree) (path : Path) : Except FileError (List UInt8) :=
  match tree.locate path with
  | .ok (.file _ bytes) => .ok bytes
  | .ok .directory => .error ⟨.isDirectory, path.text⟩
  | .ok (.absent _) => .error ⟨.notFound, path.text⟩
  | .error fault => .error ⟨fault, path.text⟩

/-- The key of the file that is written when a path is opened for writing. -/
def target (tree : FileTree) (path : Path) : Except FileError Key :=
  match tree.locate path with
  | .ok (.file key _) => .ok key
  | .ok (.absent key) => .ok key
  | .ok .directory => .error ⟨.isDirectory, path.text⟩
  | .error fault => .error ⟨fault, path.text⟩

/-- The bytes of the file under a key, none if there is no file. -/
def contents (tree : FileTree) (key : Key) : List UInt8 :=
  match tree.find? key with
  | some (.file bytes) => bytes
  | _ => []

def write (tree : FileTree) (key : Key) (bytes : List UInt8) : FileTree :=
  tree.put key (.file bytes)

def append (tree : FileTree) (key : Key) (bytes : List UInt8) : FileTree :=
  tree.write key (tree.contents key ++ bytes)

/-- Makes the directory that a path leads to, whose own directory is there or will not be made. -/
def makeDirectory (tree : FileTree) (path : Path) : Except FileError FileTree :=
  match tree.locate path with
  | .ok .directory => .ok tree
  | .ok (.absent key) => .ok (tree.put key .directory)
  | .ok (.file _ _) => .error ⟨.alreadyExists, path.text⟩
  | .error fault => .error ⟨fault, path.text⟩

/-- Makes the directory whose names are given, the last one first, and those that lead to it.
Directories that were made before an error stay. -/
def makeDirectoriesBackward (tree : FileTree) (root : Nat) :
    List (List Char) → FileTree × Option FileError
  | [] => (tree, none)
  | name :: before =>
    let path : Path := ⟨root, (name :: before).reverse⟩
    match tree.makeDirectory path with
    | .ok tree => (tree, none)
    -- Something on the way is missing: what leads here is made, and then this is tried again.
    | .error ⟨.notFound, _⟩ =>
      match makeDirectoriesBackward tree root before with
      | (tree, some error) => (tree, some error)
      | (tree, none) =>
        match tree.makeDirectory path with
        | .ok tree => (tree, none)
        | .error error => (tree, some error)
    | .error error => (tree, some error)

/-- Makes the directory that a path leads to, and those that lead to it. -/
def makeDirectories (tree : FileTree) (path : Path) : FileTree × Option FileError :=
  tree.makeDirectoriesBackward path.root path.names.reverse

/-- Whether a key leads to an entry below the working directory. -/
def isBelow (key : Key) : Bool := key.head? != some Path.above && key.head? != some rootName

/-- The files below the working directory, with their paths. -/
def files (tree : FileTree) : List (List Char × List UInt8) :=
  tree.entries.filterMap fun (key, entry) =>
    match entry with
    | .file bytes => if isBelow key then some (['/'].intercalate key, bytes) else none
    | .directory => none

def ofFiles (files : List (List Char × List UInt8)) : FileTree :=
  files.foldl (fun tree (name, bytes) => tree.addFile (Path.ofText name).names bytes) ⟨[]⟩

end FileTree

end WordMachine.CommandLine
