import Rite.Text.CaseMap
import Rite.Text.Cased

/-!
# Upper and lower case of whole texts

Upper case maps character by character.  Lower case does so too, with one exception that depends on
the surroundings: a capital sigma at the end of a word becomes the final small sigma.
-/

namespace Rite.Text

/-- Whether the first character that is not looked through is a cased one. -/
def casedAhead (chars : List Char) : Bool :=
  match chars.dropWhile isCaseIgnorable with
  | c :: _ => isCased c
  | [] => false

/-- Whether a capital sigma ends a word: a cased character precedes it and none follows.  `before`
is what precedes, nearest character first. -/
def endsWord (before after : List Char) : Bool := casedAhead before && !casedAhead after

/-- Capital sigma. -/
def capitalSigma : Char := 'Σ'

/-- The lower-case form of `c` between `before` (nearest character first) and `after`. -/
def lowerBetween (before : List Char) (c : Char) (after : List Char) : List Char :=
  if c = capitalSigma then
    if endsWord before after then ['ς'] else ['σ']
  else lowerOf c

/-- The lower-case form of the characters that follow `before`. -/
def downcaseFrom (before : List Char) : List Char → List Char
  | [] => []
  | c :: after => lowerBetween before c after ++ downcaseFrom (c :: before) after

/-- The text in lower case. -/
def downcase (text : String) : String := String.ofList (downcaseFrom [] text.toList)

/-- The text in upper case. -/
def upcase (text : String) : String := String.ofList (text.toList.flatMap upperOf)

end Rite.Text
