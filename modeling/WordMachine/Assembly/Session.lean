import WordMachine.Assembly.Listing
import WordMachine.Program
import WordMachine.Text.Utf8

/-!
# Assembling

Sources assembled one after the other, and what each call leaves behind. The answer to a call
depends on its source alone.
-/
namespace WordMachine.Assembly

open WordMachine.Text

/-- What the calls so far have left behind. -/
structure Session where
  /-- The lines of the last source all of whose lines could be read. -/
  lines : List Line
  labels : Labels
  /-- The words counted by the last pass over lines. -/
  counter : Nat
  placed : List Placed

namespace Session

def initial : Session := ⟨[], [], 0, []⟩

def words (session : Session) : List Word := wordsOf session.placed

/-- The listing of the last source all of whose lines could be read. -/
def listing (session : Session) : String := Listing.text session.lines session.placed

/-- Assembles a source. A source that cannot be read leaves the lines and the counter of the call
before; any other leaves what the two passes made of it. -/
def assemble (session : Session) (source : List Char) : Except Error Program × Session :=
  match parse source with
  -- The listing keeps the lines of the source before, now without words.
  | .error error => (.error error, ⟨session.lines, [], session.counter, []⟩)
  | .ok lines =>
    let scanned := scan lines
    match scanned.error? with
    -- The labels found so far stay visible, but no word is encoded.
    | some error => (.error error, ⟨lines, scanned.labels, scanned.size, []⟩)
    | none =>
      let emission := emit scanned.labels lines
      let words := wordsOf emission.placed
      let session := ⟨lines, scanned.labels, words.length, emission.placed⟩
      match emission.error? with
      | some error => (.error error, session)
      | none =>
        -- Both passes must agree on the number of words, or labels would point elsewhere.
        if words.length = scanned.size then (.ok ⟨words, scanned.labels⟩, session)
        else (.error ⟨.miscounted words.length scanned.size, 0, []⟩, session)

end Session

def assemble (source : List Char) : Except Error Program := (Session.initial.assemble source).1

/-- The text that the bytes of a source file write, with all line ends alike. -/
def readSource (bytes : List UInt8) : Except Utf8.Defect (List Char) :=
  (Utf8.decode bytes).map unifyLineEnds

end WordMachine.Assembly
