import WordMachine.Text.Layout

/-!
# Paths

A path is a sequence of names from the root or from the working directory. Doubled slashes, a slash
at the end, and names that stand for the directory itself make no difference.
-/
namespace WordMachine.CommandLine

/-- A path: how many slashes it begins with (none, one or two), and its names. -/
structure Path where
  root : Nat
  names : List (List Char)
  deriving DecidableEq

namespace Path

/-- The name that leads to the directory above. -/
def above : List Char := ['.', '.']

/-- The path that a text spells. Two slashes at the beginning differ from one; three do not. -/
def ofText (text : List Char) : Path :=
  let slashes := (text.takeWhile (· == '/')).length
  let names := (text.splitOn '/').filter fun name => !name.isEmpty && name != ['.']
  ⟨if slashes < 3 then slashes else 1, names⟩

def text (path : Path) : List Char :=
  let names := ['/'].intercalate path.names
  if path.root = 0 ∧ path.names.isEmpty then ['.'] else List.replicate path.root '/' ++ names

/-- The directory that a path leads into. -/
def parent (path : Path) : Path := ⟨path.root, path.names.dropLast⟩

/-- A path with every step up taken back together with the name before it. At the root a step up
leads nowhere. -/
def direct (path : Path) : Path :=
  let step (names : List (List Char)) (name : List Char) :=
    if name != above then names ++ [name]
    else match names.getLast? with
      | none => if path.root = 0 then [above] else []
      | some last => if last = above then names ++ [above] else names.dropLast
  ⟨path.root, path.names.foldl step []⟩

/-- The extension in the last name of a spelled path: what follows the last dot, with the dot,
unless only dots come before it. -/
def extension (text : List Char) : List Char :=
  let name := (text.reverse.takeWhile (· != '/')).reverse
  let stem := name.dropWhile (· == '.')
  if '.' ∈ stem then '.' :: (stem.reverse.takeWhile (· != '.')).reverse else []

/-- Whether a spelled path has a given extension, in any letter case. The extension is expected in
letters of ASCII other than k, whose other cases are in ASCII too. -/
def hasExtension (text expected : List Char) : Bool :=
  (extension text).map Char.toLower == expected

end Path

end WordMachine.CommandLine
