import WordMachine.Text.Layout
import WordMachine.Text.Digits
import WordMachine.Text.Quoted

/-!
# Numerals

Integers as a command line spells them: a sign, a mark for the base, and digits of any script with
single low lines between them, all with white space around.
-/
namespace WordMachine

/-- How the base of a numeral is known. -/
inductive Numeral.Base
  /-- Base ten, without a mark. -/
  | decimal
  /-- Base sixteen, with or without its mark. -/
  | hexadecimal
  /-- The base that the mark names: sixteen, eight or two, and ten without a mark. -/
  | marked
  deriving DecidableEq

/-- Why a text is not a numeral. -/
inductive Numeral.Error
  /-- The text does not have the form of a numeral of that base. -/
  | malformed (base : Numeral.Base) (text : List Char)
  /-- A decimal numeral has more digits than are read. -/
  | tooLong (digits : Nat)
  deriving DecidableEq

namespace Numeral

open WordMachine.Text

/-- The number that stands for a way of knowing the base; zero leaves it to the mark. -/
def Base.number : Base → Nat
  | .decimal => 10
  | .hexadecimal => 16
  | .marked => 0

/-- The most decimal digits that a numeral may have. -/
def decimalLimit : Nat := 4300

/-- The most characters of a malformed text's quotation that the message shows. -/
def quotationLimit : Nat := 200

def Error.message : Error → String
  | .malformed base text => "invalid literal for int() with base " ++
      Decimal.written base.number ++ ": " ++ String.ofList ((quoted text).take quotationLimit)
  | .tooLong digits => "Exceeds the limit (" ++ Decimal.written decimalLimit ++
      " digits) for integer string conversion: value has " ++ Decimal.written digits ++
      " digits; use sys.set_int_max_str_digits() to increase the limit"

/-- A character with its script forgotten: a digit becomes the ASCII digit of its value, and
white space outside ASCII becomes a space. -/
def plain (c : Char) : Char :=
  if c.toNat < 128 then c
  else if isBlank c then ' '
  else match decimalDigit? c with
    | some digit => Char.ofNat (0x30 + digit)
    | none => c

/-- The white space that may stand around a numeral, once scripts are forgotten. -/
def isPadding (c : Char) : Bool := c == ' ' || (0x09 ≤ c.toNat && c.toNat ≤ 0x0D)

/-- A text without the padding at its two ends. -/
def unpad (text : List Char) : List Char :=
  ((text.dropWhile isPadding).reverse.dropWhile isPadding).reverse

/-- The sign of a numeral (true for minus) and what follows it. -/
def sign : List Char → Bool × List Char
  | '-' :: rest => (true, rest)
  | '+' :: rest => (false, rest)
  | rest => (false, rest)

/-- The base named by the letter of a mark. -/
def baseOfMark? (letter : Char) : Option Nat :=
  if letter = 'x' ∨ letter = 'X' then some 16
  else if letter = 'o' ∨ letter = 'O' then some 8
  else if letter = 'b' ∨ letter = 'B' then some 2
  else none

/-- One low line may stand between the mark and the digits. -/
def afterMark : List Char → List Char
  | '_' :: digits => digits
  | digits => digits

/-- The digit values of one or more digits with single low lines between them. -/
def digits? (base : Nat) (text : List Char) : Option (List Nat) :=
  -- A low line at an end or next to another one leaves an empty group.
  let groups := text.splitOn '_'
  if groups.any (·.isEmpty) then none else (groups.flatten).mapM (digitValue? base)

/-- The base of an unsigned numeral, and what is left for digits once a mark is read. -/
def spelling (base : Base) (text : List Char) : Nat × List Char :=
  match base, text with
  | .decimal, _ => (10, text)
  | .hexadecimal, '0' :: letter :: rest =>
    if letter = 'x' ∨ letter = 'X' then (16, afterMark rest) else (16, text)
  | .hexadecimal, _ => (16, text)
  | .marked, '0' :: letter :: rest =>
    match baseOfMark? letter with
    | some marked => (marked, afterMark rest)
    | none => (10, text)
  | .marked, _ => (10, text)

/-- The digits that a text begins with, none if low lines stand between them as they must not. -/
def leadingDigits (base : Nat) (text : List Char) : List Nat :=
  (digits? base (text.takeWhile fun c => c == '_' || (digitValue? base c).isSome)).getD []

/-- Whether a numeral without a mark is refused where one may stand: with a zero in front, only
zero itself is spelled. -/
def isPaddedNumber (base : Base) (text : List Char) (digits : List Nat) : Bool :=
  base = .marked && text.head? = some '0' && digits.any (· != 0)

/-- The integer that a text spells. Decimal digits are counted before what follows them is seen. -/
def read (base : Base) (text : List Char) : Except Error Int :=
  let (negative, magnitude) := sign (unpad (text.map plain))
  let (radix, spelled) := spelling base magnitude
  let leading := (leadingDigits radix spelled).length
  -- Only digits in base ten are limited in number.
  if radix = 10 ∧ decimalLimit < leading then .error (.tooLong leading)
  else
    match digits? radix spelled with
    -- The message shows the text as it was given, with its scripts and padding.
    | none => .error (.malformed base text)
    | some digits =>
      if radix = 10 ∧ isPaddedNumber base spelled digits then .error (.malformed base text)
      else
        let value : Int := ofDigits radix digits
        .ok (if negative then -value else value)

end Numeral

end WordMachine
