/-!
# Layout

How texts are laid out: the white space between words, the ends of lines, and columns of a fixed
width.
-/
namespace WordMachine.Text

/-! ### Sets of characters -/

/-- Whether a character lies in one of the ranges of code points, both ends included. -/
def inRanges (ranges : List (Nat × Nat)) (c : Char) : Bool :=
  ranges.any fun range => range.1 ≤ c.toNat && c.toNat ≤ range.2

theorem inRanges_iff (ranges : List (Nat × Nat)) (c : Char) :
    inRanges ranges c = true ↔ ∃ range ∈ ranges, range.1 ≤ c.toNat ∧ c.toNat ≤ range.2 := by
  simp [inRanges]

/-! ### White space -/

/-- The code points that separate words: controls, spaces of every width, and the two
separators of lines and paragraphs. Zero-width characters are not among them. -/
def blankRanges : List (Nat × Nat) :=
  [(0x09, 0x0D), (0x1C, 0x20), (0x85, 0x85), (0xA0, 0xA0), (0x1680, 0x1680), (0x2000, 0x200A),
    (0x2028, 0x2029), (0x202F, 0x202F), (0x205F, 0x205F), (0x3000, 0x3000)]

def isBlank (c : Char) : Bool := inRanges blankRanges c

/-- The maximal runs of characters that are not white space, in order. -/
def words (text : List Char) : List (List Char) :=
  (text.splitOnP isBlank).filter fun word => !word.isEmpty

/-- The words of a text with one space between neighbours and none at the ends. -/
def collapse (text : List Char) : List Char := [' '].intercalate (words text)

/-- A text without the white space at its two ends. -/
def trim (text : List Char) : List Char :=
  ((text.dropWhile isBlank).reverse.dropWhile isBlank).reverse

/-- A text with all its white space deleted. -/
def dropBlanks (text : List Char) : List Char := text.filter fun c => !isBlank c

/-! ### Lines -/

/-- A text with every line end, written as a carriage return, a line feed or the two together,
turned into one line feed. -/
def unifyLineEnds : List Char → List Char
  | [] => []
  | '\r' :: '\n' :: rest => '\n' :: unifyLineEnds rest
  | '\r' :: rest => '\n' :: unifyLineEnds rest
  | c :: rest => c :: unifyLineEnds rest

/-- The lines of a text, parted at line feeds; a text without one is a single line. -/
def lines (text : List Char) : List (List Char) := text.splitOn '\n'

/-! ### Columns -/

/-- A text filled with spaces on the right to a width; a longer one stays as it is. -/
def filled (width : Nat) (text : String) : String :=
  String.ofList (text.toList.rightpad width ' ')

def spaces (count : Nat) : String := String.ofList (List.replicate count ' ')

theorem length_filled (width : Nat) (text : String) :
    (filled width text).length = max width text.length := by
  simp [filled, String.length_toList]
  omega

end WordMachine.Text
