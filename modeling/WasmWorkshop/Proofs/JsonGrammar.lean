import WasmWorkshop.Json.Token

/-!
# JSON by its grammar

Which texts are JSON is said here by a grammar, without any reader: space, strings, numbers, values
and objects. Space may stand around every token.

A string has two readings. By the grammar it is a row of units, and an escape by code may have any
four digits (`IsStringBody`). It gives a text only if the surrogates among its escapes come in pairs
(`Spells`). A value that nobody reads has to be JSON by the grammar alone, so its strings need not
give a text; keys and texts that are read have to.

An object is known by its members in the order in which they are written, each with the text that
its key gives and with its value as it stands (`IsObject`).
-/

set_option autoImplicit false

namespace WasmWorkshop.Json

/-! ## Space -/

/-- Characters that may stand between tokens. -/
def IsSpace (text : List Char) : Prop := ∀ character ∈ text, character ∈ [' ', '\n', '\t', '\r']

/-- The part with space around it. -/
inductive Padded (part : List Char) : List Char → Prop where
  | mk {before after : List Char} (front : IsSpace before) (back : IsSpace after) :
      Padded part (before ++ part ++ after)

/-! ## Strings -/

/-- The string with the given body, from its opening quote to its closing one. -/
def inQuotes (body : List Char) : List Char := '"' :: (body ++ ['"'])

/-- A character that stands for itself in a string. -/
def StandsForItself (character : Char) : Prop :=
  character ≠ '"' ∧ character ≠ '\\' ∧ 0x20 ≤ character.toNat

instance (character : Char) : Decidable (StandsForItself character) :=
  inferInstanceAs (Decidable (_ ∧ _ ∧ _))

/-- The letters of escapes, with the characters that they stand for. -/
def escapeLetters : List (Char × Char) :=
  [('"', '"'), ('\\', '\\'), ('/', '/'), ('b', '\x08'), ('f', '\x0c'), ('n', '\n'), ('r', '\r'),
   ('t', '\t')]

/-- Four hexadecimal digits and their value. -/
inductive IsCode : List Char → Nat → Prop where
  | digits {a b c d : Char} {first second third fourth : Nat} (isFirst : hexValue? a = some first)
      (isSecond : hexValue? b = some second) (isThird : hexValue? c = some third)
      (isFourth : hexValue? d = some fourth) :
      IsCode [a, b, c, d] (((first * 16 + second) * 16 + third) * 16 + fourth)

/-- One unit of a string. -/
inductive IsUnit : List Char → Prop where
  | plain {character : Char} (itself : StandsForItself character) : IsUnit [character]
  | letter {letter meant : Char} (known : (letter, meant) ∈ escapeLetters) : IsUnit ['\\', letter]
  | code {digits : List Char} {code : Nat} (isCode : IsCode digits code) :
      IsUnit ('\\' :: 'u' :: digits)

/-- What stands between the quotes of a string. -/
inductive IsStringBody : List Char → Prop where
  | nil : IsStringBody []
  | cons {unit body : List Char} (first : IsUnit unit) (others : IsStringBody body) :
      IsStringBody (unit ++ body)

/-- The units that give a character. A code of the range of surrogates gives none by itself; a high
one and a low one after it give one together. -/
inductive SpellsChar : List Char → Char → Prop where
  | plain {character : Char} (itself : StandsForItself character) :
      SpellsChar [character] character
  | letter {letter meant : Char} (known : (letter, meant) ∈ escapeLetters) :
      SpellsChar ['\\', letter] meant
  | code {digits : List Char} {code : Nat} (isCode : IsCode digits code)
      (single : code < 0xD800 ∨ 0xDFFF < code) :
      SpellsChar ('\\' :: 'u' :: digits) (Char.ofNat code)
  | pair {digits others : List Char} {high low : Nat} (first : IsCode digits high)
      (isHigh : 0xD800 ≤ high ∧ high ≤ 0xDBFF) (second : IsCode others low)
      (isLow : 0xDC00 ≤ low ∧ low ≤ 0xDFFF) :
      SpellsChar ('\\' :: 'u' :: (digits ++ '\\' :: 'u' :: others))
        (Char.ofNat (0x10000 + (high - 0xD800) * 0x400 + (low - 0xDC00)))

/-- The body of a string that gives the characters. -/
inductive Spells : List Char → List Char → Prop where
  | nil : Spells [] []
  | cons {unit body characters : List Char} {character : Char} (first : SpellsChar unit character)
      (others : Spells body characters) : Spells (unit ++ body) (character :: characters)

/-- The value is a string that gives the text. -/
inductive GivesText : List Char → String → Prop where
  | mk {body : List Char} {text : String} (spells : Spells body text.toList) :
      GivesText (inQuotes body) text

/-! ## Numbers -/

/-- At least one decimal digit. -/
def IsDigits (digits : List Char) : Prop := digits ≠ [] ∧ ∀ digit ∈ digits, digit.isDigit = true

/-- The digits before the point: a zero stands alone. -/
def IsWhole (digits : List Char) : Prop :=
  digits = ['0'] ∨ (IsDigits digits ∧ digits.head? ≠ some '0')

/-- The digits after the point, with the point. -/
inductive IsFraction : List Char → Option (List Char) → Prop where
  | none : IsFraction [] none
  | some {digits : List Char} (isDigits : IsDigits digits) :
      IsFraction ('.' :: digits) (some digits)

/-- The sign of an exponent. The answer says whether it is a minus. -/
inductive IsSign : List Char → Bool → Prop where
  | none : IsSign [] false
  | plus : IsSign ['+'] false
  | minus : IsSign ['-'] true

/-- The exponent, with its letter. -/
inductive IsExponent : List Char → Option (Bool × List Char) → Prop where
  | none : IsExponent [] none
  | some {letter : Char} {sign digits : List Char} {isNegative : Bool}
      (isLetter : letter = 'e' ∨ letter = 'E') (isSign : IsSign sign isNegative)
      (isDigits : IsDigits digits) :
      IsExponent (letter :: (sign ++ digits)) (some (isNegative, digits))

/-- A number and its parts. -/
inductive IsNumber : List Char → NumberText → Prop where
  | mk {isNegative : Bool} {whole fraction exponent : List Char}
      {fractionDigits : Option (List Char)} {exponentDigits : Option (Bool × List Char)}
      (isWhole : IsWhole whole) (isFraction : IsFraction fraction fractionDigits)
      (isExponent : IsExponent exponent exponentDigits) :
      IsNumber ((if isNegative then ['-'] else []) ++ (whole ++ (fraction ++ exponent)))
        ⟨isNegative, whole, fractionDigits, exponentDigits⟩

/-- The value is a number of digits alone. -/
inductive GivesNatural : List Char → Nat → Prop where
  | mk {digits : List Char} (isWhole : IsWhole digits) : GivesNatural digits (decimalValue digits)

/-! ## Values -/

/-- A key with its value, with space around both of them. -/
inductive KeyAndValue (body value : List Char) : List Char → Prop where
  | mk {key text : List Char} (keyPadded : Padded (inQuotes body) key)
      (padded : Padded value text) : KeyAndValue body value (key ++ ':' :: text)

mutual

/-- A value, without space around it. -/
inductive IsValue : List Char → Prop where
  | nullWord : IsValue ['n', 'u', 'l', 'l']
  | trueWord : IsValue ['t', 'r', 'u', 'e']
  | falseWord : IsValue ['f', 'a', 'l', 's', 'e']
  | number {text : List Char} {number : NumberText} (isNumber : IsNumber text number) : IsValue text
  | string {body : List Char} (isBody : IsStringBody body) : IsValue (inQuotes body)
  | emptyArray {space : List Char} (isSpace : IsSpace space) : IsValue ('[' :: (space ++ [']']))
  | array {inner : List Char} (elements : IsElements inner) : IsValue ('[' :: (inner ++ [']']))
  | emptyObject {space : List Char} (isSpace : IsSpace space) :
      IsValue ('\x7b' :: (space ++ ['\x7d']))
  | object {inner : List Char} (members : IsMembers inner) :
      IsValue ('\x7b' :: (inner ++ ['\x7d']))

/-- What stands between the brackets of an array that has elements. -/
inductive IsElements : List Char → Prop where
  | last {value text : List Char} (isValue : IsValue value) (padded : Padded value text) :
      IsElements text
  | next {value text others : List Char} (isValue : IsValue value) (padded : Padded value text)
      (more : IsElements others) : IsElements (text ++ ',' :: others)

/-- What stands between the brackets of an object that has members. -/
inductive IsMembers : List Char → Prop where
  | last {body value text : List Char} (isBody : IsStringBody body) (isValue : IsValue value)
      (member : KeyAndValue body value text) : IsMembers text
  | next {body value text others : List Char} (isBody : IsStringBody body)
      (isValue : IsValue value) (member : KeyAndValue body value text) (more : IsMembers others) :
      IsMembers (text ++ ',' :: others)

end

/-! ## Objects -/

/-- A member of an object: the text that its key gives, and its value as it stands. -/
abbrev Member := String × List Char

/-- What stands between the brackets of an object with the given members. -/
inductive HasMembers : List Char → List Member → Prop where
  | last {body value text : List Char} {name : String} (spells : Spells body name.toList)
      (isValue : IsValue value) (member : KeyAndValue body value text) :
      HasMembers text [(name, value)]
  | next {body value text others : List Char} {name : String} {members : List Member}
      (spells : Spells body name.toList) (isValue : IsValue value)
      (member : KeyAndValue body value text) (more : HasMembers others members) :
      HasMembers (text ++ ',' :: others) ((name, value) :: members)

/-- An object without space around it. -/
inductive IsObject : List Char → List Member → Prop where
  | empty {space : List Char} (isSpace : IsSpace space) :
      IsObject ('\x7b' :: (space ++ ['\x7d'])) []
  | full {inner : List Char} {members : List Member} (hasMembers : HasMembers inner members) :
      IsObject ('\x7b' :: (inner ++ ['\x7d'])) members

/-- A text that is an object, with space around it. -/
inductive IsObjectText (text : String) (members : List Member) : Prop where
  | mk {object : List Char} (isObject : IsObject object members)
      (padded : Padded object text.toList) : IsObjectText text members

/-- The values that members give for a key, in the order in which they come. -/
def valuesFor (key : String) (members : List Member) : List (List Char) :=
  (members.filter (·.1 = key)).map Prod.snd

end WasmWorkshop.Json
