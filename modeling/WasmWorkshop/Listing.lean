/-!
# Names in listings

Where names are listed for a reader, each stands between quotes, and what would not show or would
end the name is escaped: quotes and backslashes, the common control characters by a letter, and
every other character that is invisible or joins its neighbour by its code point.
-/

set_option autoImplicit false

namespace WasmWorkshop

/-- The ranges of code points that do not show: controls, spaces other than the common one, line
separators, format characters, and those for private use. -/
def hiddenRanges : List (Nat × Nat) :=
  [(0x0000, 0x001F), (0x007F, 0x00A0), (0x00AD, 0x00AD), (0x0600, 0x0605), (0x061C, 0x061C),
   (0x06DD, 0x06DD), (0x070F, 0x070F), (0x0890, 0x0891), (0x08E2, 0x08E2), (0x1680, 0x1680),
   (0x180E, 0x180E), (0x2000, 0x200F), (0x2028, 0x202F), (0x205F, 0x206F), (0x3000, 0x3000),
   (0xE000, 0xF8FF), (0xFDD0, 0xFDEF), (0xFEFF, 0xFEFF), (0xFFF0, 0xFFFB), (0x110BD, 0x110BD),
   (0x110CD, 0x110CD), (0x13430, 0x1343F), (0x1BCA0, 0x1BCA3), (0x1D173, 0x1D17A),
   (0xE0000, 0xE00FF), (0xF0000, 0xFFFFF), (0x100000, 0x10FFFF)]

/-- The blocks of marks that join the character before them. -/
def joiningRanges : List (Nat × Nat) :=
  [(0x0300, 0x036F), (0x0483, 0x0489), (0x1AB0, 0x1ACE), (0x1DC0, 0x1DFF), (0x20D0, 0x20F0),
   (0xFE00, 0xFE0F), (0xFE20, 0xFE2F), (0xE0100, 0xE01EF)]

/-- Whether a character shows on its own. The last two code points of each plane are no
characters. -/
def isShown (character : Char) : Bool :=
  let code := character.toNat
  code % 0x10000 < 0xFFFE &&
    (hiddenRanges ++ joiningRanges).all fun range => code < range.1 || range.2 < code

/-- A character as it is listed. -/
def listedChar (character : Char) : List Char :=
  if character = '"' then ['\\', '"']
  else if character = '\\' then ['\\', '\\']
  else if character = '\n' then ['\\', 'n']
  else if character = '\t' then ['\\', 't']
  else if character = '\r' then ['\\', 'r']
  else if character.toNat = 0 then ['\\', '0']
  else if isShown character then [character]
  else ['\\', 'u', '\x7b'] ++ Nat.toDigits 16 character.toNat ++ ['\x7d']

/-- A name as it is listed. -/
def listedName (name : String) : String :=
  String.ofList ('"' :: (name.toList.flatMap listedChar ++ ['"']))

/-- A list of names between brackets. -/
def listing (names : List String) : String :=
  "[" ++ ", ".intercalate (names.map listedName) ++ "]"

end WasmWorkshop
