/-!
# Blank characters

The characters with the Unicode property White_Space, and texts without the blank characters at
either end.
-/

set_option autoImplicit false

namespace WasmWorkshop

/-- The ranges of code points with the property White_Space. -/
def blankRanges : List (Nat × Nat) :=
  [(0x0009, 0x000D), (0x0020, 0x0020), (0x0085, 0x0085), (0x00A0, 0x00A0), (0x1680, 0x1680),
   (0x2000, 0x200A), (0x2028, 0x2029), (0x202F, 0x202F), (0x205F, 0x205F), (0x3000, 0x3000)]

/-- Whether a character is blank. -/
def isBlankChar (character : Char) : Bool :=
  blankRanges.any fun range => range.1 ≤ character.toNat && character.toNat ≤ range.2

/-- The characters without the blank ones at either end. -/
def trimChars (characters : List Char) : List Char :=
  ((characters.dropWhile isBlankChar).reverse.dropWhile isBlankChar).reverse

/-- The text without the blank characters at either end. -/
def trimBlank (text : String) : String := String.ofList (trimChars text.toList)

/-- Whether a text has blank characters only. -/
def isBlank (text : String) : Bool := text.toList.all isBlankChar

end WasmWorkshop
