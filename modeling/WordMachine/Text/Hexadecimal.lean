import WordMachine.Text.Digits

/-!
# Numbers in base sixteen

How words, addresses and codes are written, and how the literals of the source format are read.
-/
namespace WordMachine.Hexadecimal

open WordMachine.Text

def lowerDigits (n : Nat) : List Char := Nat.toDigits 16 n

def upperDigits (n : Nat) : List Char := (lowerDigits n).map Char.toUpper

/-- An integer in upper-case digits, filled with zeros to a width in which its sign counts. -/
def padded (width : Nat) (value : Int) : String :=
  match value with
  | .ofNat n => String.ofList ((upperDigits n).leftpad width '0')
  | .negSucc n => String.ofList ('-' :: (upperDigits (n + 1)).leftpad (width - 1) '0')

/-- An integer in lower-case digits behind the mark of the base, of at least `digits` digits. -/
def marked (digits : Nat) (value : Int) : String :=
  match value with
  | .ofNat n => "0x" ++ String.ofList ((lowerDigits n).leftpad digits '0')
  | .negSucc n => "-0x" ++ String.ofList ((lowerDigits (n + 1)).leftpad digits '0')

/-- The number written by one or more hexadecimal digits. -/
def read? (text : List Char) : Option Nat :=
  if text.isEmpty then none else (text.mapM (digitValue? 16)).map (ofDigits 16)

/-- The number written by a literal: the mark of the base, then one or more digits. -/
def readMarked? : List Char → Option Nat
  | '0' :: 'x' :: digits => read? digits
  | '0' :: 'X' :: digits => read? digits
  | _ => none

end WordMachine.Hexadecimal
