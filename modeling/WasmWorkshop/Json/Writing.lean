import WasmWorkshop.Bytes

/-!
# Writing JSON

JSON is written without space between tokens. In a string only the quote, the backslash and the
control characters below a space are escaped: by a letter where there is one, else by code with
lower-case digits.
-/

set_option autoImplicit false

namespace WasmWorkshop.Json

/-- The letter that stands for a control character after a backslash. -/
def controlLetter? (character : Char) : Option Char :=
  if character = '\x08' then some 'b'
  else if character = '\x0c' then some 'f'
  else if character = '\n' then some 'n'
  else if character = '\r' then some 'r'
  else if character = '\t' then some 't'
  else none

/-- A character of a string as it is written. -/
def writeChar (character : Char) : List Char :=
  if character = '"' then ['\\', '"']
  else if character = '\\' then ['\\', '\\']
  else if character.toNat < 0x20 then
    match controlLetter? character with
    | some letter => ['\\', letter]
    | none => ['\\', 'u', '0', '0'] ++ hexDigits (UInt8.ofNat character.toNat)
  else [character]

/-- A text as a JSON string. -/
def writeText (text : String) : List Char :=
  '"' :: (text.toList.flatMap writeChar ++ ['"'])

/-- A natural number. -/
def writeNatural (value : Nat) : List Char := (toString value).toList

/-- What stands between the elements of an array, or between the members of an object. -/
def separated : List (List Char) → List Char
  | [] => []
  | [part] => part
  | part :: rest => part ++ ',' :: separated rest

/-- An array of written elements. -/
def writeArray (elements : List (List Char)) : List Char := '[' :: (separated elements ++ [']'])

/-- An object of keys with written values. -/
def writeObject (members : List (String × List Char)) : List Char :=
  '\x7b' :: (separated (members.map fun member => writeText member.1 ++ ':' :: member.2) ++
    ['\x7d'])

end WasmWorkshop.Json
