import Rite.Text.Alphabetic
import Rite.Text.Digits
import Rite.Text.Numeric

/-!
# String and symbol literals

How strings and symbols are written by `inspect`.  A string is put in double quotes, with a backslash
before everything that would end it, start an interpolation or not show; a symbol is its name behind
a colon, quoted like a string unless it is a plain identifier, variable name or operator.
-/

namespace Rite.Text

/-! ## Strings -/

/-- The control characters, U+0000 to U+001F and U+007F to U+009F. -/
def isControl (c : Char) : Bool := c.toNat ≤ 0x1F || (0x7F ≤ c.toNat && c.toNat ≤ 0x9F)

/-- Whether a `#` before `next` would start an interpolation. -/
def opensInterpolation : Option Char → Bool
  | some c => c = '\x7b' || c = '$' || c = '@'
  | none => false

/-- Two upper-case hexadecimal digits. -/
def upperHexByte (n : Nat) : List Char :=
  ((Digits.padLeft '0' 2 (Digits.hex n)).toList).map Char.toUpper

/-- The letter of a backslash escape, for the characters that have one. -/
def escapeLetter? (c : Char) : Option Char :=
  if c = '"' then some '"'
  else if c = '\\' then some '\\'
  else if c = '\n' then some 'n'
  else if c = '\t' then some 't'
  else if c = '\r' then some 'r'
  else if c = '\x07' then some 'a'
  else if c = '\x08' then some 'b'
  else if c = '\x0b' then some 'v'
  else if c = '\x0c' then some 'f'
  else if c = '\x1b' then some 'e'
  else none

/-- How `c` is written before `next`. -/
def escapeChar (c : Char) (next : Option Char) : List Char :=
  match escapeLetter? c with
  | some letter => ['\\', letter]
  | none =>
    if c = '#' && opensInterpolation next then ['\\', '#']
    else if isControl c then '\\' :: 'x' :: upperHexByte c.toNat
    else [c]

/-- The characters between the quotes. -/
def escapeChars : List Char → List Char
  | [] => []
  | c :: rest => escapeChar c rest.head? ++ escapeChars rest

/-- The double-quoted form of a text. -/
def quote (text : String) : String :=
  String.ofList ('"' :: (escapeChars text.toList ++ ['"']))

/-! ## Symbols -/

/-- The operators that are written without quotes. -/
def operators : List String :=
  ["+", "-", "*", "/", "%", "**", "==", "!=", "<", "<=", ">", ">=", "<=>", "===", "=~", "!", "[]",
   "[]=", "<<", ">>", "&", "|", "^", "~", "+@", "-@"]

/-- A character of an identifier. -/
def isWordChar (c : Char) : Bool := isAlphabetic c || isNumeric c || c = '_'

/-- A character that may close a method name. -/
def isNameEnd (c : Char) : Bool := c = '?' || c = '!' || c = '='

/-- Whether `rest` may follow the first letter of a method name: word characters and then at most
one closing mark. -/
def isNameRest (rest : List Char) : Bool :=
  let marks := rest.reverse.takeWhile isNameEnd
  let body := rest.reverse.dropWhile isNameEnd
  body.all isWordChar && marks.length ≤ 1

/-- The name of a variable without its sigils: first every `@`, then every `$` is dropped. -/
def stripSigils (name : List Char) : List Char :=
  (name.dropWhile (· = '@')).dropWhile (· = '$')

/-- Whether a symbol is written without quotes. -/
def isPlainSymbol (name : List Char) : Bool :=
  match name with
  | [] => false
  | first :: rest =>
    if isAlphabetic first || first = '_' then isNameRest rest
    else if first = '@' || first = '$' then
      let word := stripSigils name
      !word.isEmpty && word.all isWordChar
    else operators.contains (String.ofList name)

/-- The literal form of a symbol. -/
def symbolLiteral (name : String) : String :=
  if isPlainSymbol name.toList then ":" ++ name else ":" ++ quote name

end Rite.Text
