import WordMachine.Text.Digits

/-!
# Switches

The grammar of arguments that begin with a dash. A switch may be written with its value in the same
argument or in the next, long names may be cut short where no other name begins alike, and short
switches without values may share a dash. Letters behind a dash are understood all or none. A double
dash in the place of a value leaves the switch without one.
-/
namespace WordMachine.CommandLine

/-- A switch with what it sets, its names with their dashes, and whether it takes a value. -/
structure Switch (κ : Type) where
  key : κ
  names : List String
  takesValue : Bool

/-- What an argument is by itself. -/
inductive Shape (κ : Type)
  | positional
  /-- A switch, and the text that is given to it in the same argument, if there is one. -/
  | switch (switch : Switch κ) (given? : Option (List Char))
  /-- Like a switch, but of no known name. -/
  | unknown
  /-- Like a switch, and cut short so that several names begin alike. -/
  | ambiguous

/-- What an argument does in its place. -/
inductive Item (κ : Type)
  /-- A switch is set, with its value if it has one. -/
  | setting (key : κ) (value? : Option (List Char))
  /-- A positional argument, with the arguments after it. -/
  | positional (text : List Char) (rest : List (List Char))
  /-- The double dash, after which all arguments are positional. -/
  | separator
  | unknown
  /-- An argument that cannot be understood; it ends the sequence. -/
  | invalid

namespace Switch

variable {κ : Type}

def spellings (switches : List (Switch κ)) : List (List Char × Switch κ) :=
  switches.flatMap fun switch => switch.names.map fun name => (name.toList, switch)

def named? (switches : List (Switch κ)) (name : List Char) : Option (Switch κ) :=
  (spellings switches).lookup name

/-- Whether a text is a negative number in decimal digits, of which some may stand behind a
point. -/
def isNegativeNumber (text : List Char) : Bool :=
  let isDigit (c : Char) := (Text.decimalDigit? c).isSome
  -- A line feed at the end is overlooked.
  let text := if text.getLast? = some '\n' then text.dropLast else text
  match text with
  | '-' :: digits =>
    let fraction := digits.dropWhile isDigit
    match fraction with
    | [] => !digits.isEmpty
    | '.' :: places => !places.isEmpty && places.all isDigit
    | _ => false
  | _ => false

/-- What stands behind the first equals sign of an argument, if it has one. -/
def behindEquals? (argument : List Char) : Option (List Char) :=
  match argument.dropWhile (· != '=') with
  | [] => none
  | _ :: text => some text

/-- Whether an argument begins like a short switch and not like a long one. -/
def isShort : List Char → Bool
  | '-' :: '-' :: _ => false
  | _ => true

/-- The switches that an argument may stand for when it is not the name of one: for a long name
those that begin so; for a short one those whose name it begins with, the value or further letters
behind it, and those that begin so. -/
def candidates (switches : List (Switch κ)) (argument : List Char) :
    List (Switch κ × Option (List Char)) :=
  if isShort argument then
    (spellings switches).filterMap fun (spelling, switch) =>
      if spelling = argument.take 2 then some (switch, some (argument.drop 2))
      else if argument.isPrefixOf spelling then some (switch, none)
      else none
  else
    let name := argument.takeWhile (· != '=')
    (spellings switches).filterMap fun (spelling, switch) =>
      if name.isPrefixOf spelling then some (switch, behindEquals? argument) else none

/-- The switch that an argument names in full before an equals sign, and the text behind that. -/
def assigned? (switches : List (Switch κ)) (argument : List Char) :
    Option (Switch κ × List Char) := do
  let text ← behindEquals? argument
  let switch ← named? switches (argument.takeWhile (· != '='))
  return (switch, text)

/-- What an argument is by itself. Negative numbers and texts with a space are positional unless
they begin like a switch. -/
def shape (switches : List (Switch κ)) (argument : List Char) : Shape κ :=
  match argument with
  | '-' :: _ :: _ =>
    match named? switches argument with
    -- A full name wins over longer names that begin with it.
    | some switch => .switch switch none
    | none =>
      match assigned? switches argument with
      | some (switch, text) => .switch switch (some text)
      | none =>
        match candidates switches argument with
        | [(switch, given?)] => .switch switch given?
        | _ :: _ :: _ => .ambiguous
        | [] =>
          if isNegativeNumber argument ∨ ' ' ∈ argument then .positional else .unknown
  | _ => .positional

/-- What the switches of one argument set. -/
structure Settings (κ : Type) where
  complete : List (κ × Option (List Char))
  /-- The switch that still needs a value. -/
  pending : Option κ

/-- The value that a text spells when it is given in the same argument as the switch. A double dash
spells none, and the switch is then set without a value. Of the two rules in use for double dashes
this is the older one, by which they are taken away from the values of every argument; by the newer
one only positional arguments lose them, and the switch would get the two dashes as its value. -/
def spelledValue? (text : List Char) : Option (List Char) :=
  if text = ['-', '-'] then none else some text

/-- What a short switch and the letters behind it set; nothing if one of them is no switch. What
stands behind a switch that takes a value is that value. -/
def letters? (switches : List (Switch κ)) (switch : Switch κ) : List Char → Option (Settings κ)
  | [] =>
    if switch.takesValue then some ⟨[], some switch.key⟩ else some ⟨[(switch.key, none)], none⟩
  | first :: rest =>
    if switch.takesValue then some ⟨[(switch.key, spelledValue? (first :: rest))], none⟩
    else do
      let next ← named? switches ['-', first]
      let settings ← letters? switches next rest
      return { settings with complete := (switch.key, none) :: settings.complete }

/-- What a switch sets with a text given to it in the same argument, or without. A switch that
takes no value can only be given letters, and only by its short name. -/
def settings? (switches : List (Switch κ)) (isShort : Bool) (switch : Switch κ) :
    Option (List Char) → Option (Settings κ)
  | none => letters? switches switch []
  | some text =>
    if switch.takesValue then some ⟨[(switch.key, spelledValue? text)], none⟩
    else if isShort ∧ !text.isEmpty then letters? switches switch text
    else none

/-- The arguments after a double dash. -/
def positionals : List (List Char) → List (Item κ)
  | [] => []
  | argument :: rest => .positional argument rest :: positionals rest

/-- What arguments do one after the other. -/
def itemsFrom (switches : List (Switch κ)) : List (List Char) → List (Item κ)
  | [] => []
  | argument :: rest =>
    if argument = ['-', '-'] then .separator :: positionals rest
    else
      match shape switches argument with
      | .positional => .positional argument rest :: itemsFrom switches rest
      | .unknown => .unknown :: itemsFrom switches rest
      | .ambiguous => [.invalid]
      | .switch switch given? =>
        match settings? switches (isShort argument) switch given? with
        | none => [.invalid]
        | some settings =>
          let complete := settings.complete.map fun (key, value?) => Item.setting key value?
          -- None of the letters takes effect when the last one lacks its value.
          match settings.pending, rest with
          | none, rest => complete ++ itemsFrom switches rest
          | some _, [] => [.invalid]
          | some key, value :: rest =>
            -- The value must not look like a switch, nor be the double dash.
            match value == ['-', '-'], shape switches value with
            | false, .positional => complete ++ .setting key (some value) :: itemsFrom switches rest
            | _, _ => [.invalid]

/-- Whether some argument before a double dash is ambiguous. -/
def anyAmbiguous (switches : List (Switch κ)) (arguments : List (List Char)) : Bool :=
  (arguments.takeWhile (· != ['-', '-'])).any fun argument =>
    match shape switches argument with
    | .ambiguous => true
    | _ => false

/-- What arguments do one after the other. An ambiguous one anywhere invalidates all. -/
def items (switches : List (Switch κ)) (arguments : List (List Char)) : List (Item κ) :=
  if anyAmbiguous switches arguments then [.invalid] else itemsFrom switches arguments

end Switch

end WordMachine.CommandLine
