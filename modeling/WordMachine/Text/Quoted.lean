import WordMachine.Text.Hexadecimal
import WordMachine.Text.Printable

/-!
# Quoted text

How a message shows a text that came from outside: between quotes, with everything that would not
show spelled out.
-/
namespace WordMachine.Text

/-- The mark that ends a quoted text: the double quote for a text that holds single quotes and no
double ones, the single quote for any other. -/
def quoteMark (text : List Char) : Char :=
  -- The two quotes are written by their code points.
  if '\x27' ∈ text ∧ '\x22' ∉ text then '\x22' else '\x27'

/-- One character between quotes. The quote and the backslash get a backslash; line ends and tabs
their letters; any other character without a visible form its code point, in the shortest of three
widths. -/
def quotedCharacter (mark c : Char) : List Char :=
  if c = mark ∨ c = '\\' then ['\\', c]
  else if c = '\n' then ['\\', 'n']
  else if c = '\r' then ['\\', 'r']
  else if c = '\t' then ['\\', 't']
  else if isPrintable c then [c]
  else
    let (letter, width) :=
      if c.toNat < 0x100 then ('x', 2) else if c.toNat < 0x10000 then ('u', 4) else ('U', 8)
    '\\' :: letter :: (Hexadecimal.lowerDigits c.toNat).leftpad width '0'

def quoted (text : List Char) : List Char :=
  let mark := quoteMark text
  mark :: text.flatMap (quotedCharacter mark) ++ [mark]

end WordMachine.Text
