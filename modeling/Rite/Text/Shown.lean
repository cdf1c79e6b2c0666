import Rite.Text.Digits
import Rite.Text.Extender
import Rite.Text.Unprintable

/-!
# Texts in reports and listings

Reports and listings show a text in double quotes on one line.  Tabs and line ends have letters;
characters that attach to their neighbour or do not print are given by code point.  A command is
shown word by word.  In the name of the program a single quote is escaped too and ASCII controls are
given as bytes; the arguments are shown like any text.
-/

namespace Rite.Text

/-- How one character of a text is shown. -/
def shownChar (c : Char) : String :=
  if c.toNat = 0 then "\\0"
  else if c = '\t' then "\\t"
  else if c = '\r' then "\\r"
  else if c = '\n' then "\\n"
  else if c = '"' then "\\\""
  else if c = '\\' then "\\\\"
  else if isExtender c || isUnprintable c then "\\u\x7b" ++ Digits.hex c.toNat ++ "\x7d"
  else String.singleton c

/-- The quoted form of a text. -/
def shown (text : String) : String :=
  "\"" ++ String.join (text.toList.map shownChar) ++ "\""

/-- Whether a character of a program's name is given as a byte: an ASCII control without a letter. -/
def isByteEscaped (c : Char) : Bool :=
  (c.toNat < 0x20 && c ≠ '\t' && c ≠ '\r' && c ≠ '\n' && c.toNat ≠ 0) || c.toNat = 0x7F

/-- How one character of a program's name is shown. -/
def shownProgramChar (c : Char) : String :=
  if c.toNat = 0x27 then "\\\x27"
  else if isByteEscaped c then "\\x" ++ Digits.padLeft '0' 2 (Digits.hex c.toNat)
  else shownChar c

/-- The quoted form of a program's name. -/
def shownProgram (name : String) : String :=
  "\"" ++ String.join (name.toList.map shownProgramChar) ++ "\""

/-- The words of a command, the program and its arguments, each quoted. -/
def shownCommand : List String → String
  | [] => ""
  | program :: args => " ".intercalate (shownProgram program :: args.map shown)

end Rite.Text
