import Rite.Machine.Engine
import Rite.Text.Case
import Rite.Text.Literal

/-!
# Methods of strings and symbols

Strings compare by code point.  Symbols are equal when their names are, whichever object they are.
-/

namespace Rite

open Rite.Action

namespace Strings

/-- Receiver and argument, both of which must be strings; it is the argument that is judged
first. -/
def concat (receiver : Handle) (args : List Handle) : Action Handle := do
  let other ← argument args 0
  let tail ← demand (·.string other)
  let head ← demand (·.string receiver)
  newString (head ++ tail)

/-- `text` written `n` times. -/
def repeated (text : String) (n : Nat) : String :=
  if text.isEmpty then "" else String.join (List.replicate n text)

/-- The receiver, as many times as the argument says. -/
def times (receiver : Handle) (args : List Handle) : Action Handle := do
  let other ← argument args 0
  let n ← demand (·.integer other)
  if n < 0 then
    fail (.typeMismatch "non-negative Integer" (toString n.toInt))
  else
    let text ← demand (·.string receiver)
    reserve (text.utf8ByteSize * n.toInt.toNat)
    newString (repeated text n.toInt.toNat)

/-- Whether the argument is a string with the same text. -/
def eq (receiver : Handle) (args : List Handle) : Action Handle := do
  let other ← argument args 0
  let a ← demand (·.string receiver)
  answer ((← ask fun m => (m.object other).string?) == some a)

/-- A comparison of two strings; here it is the receiver that is judged first. -/
def comparison (f : String → String → Bool) (receiver : Handle) (args : List Handle) :
    Action Handle := do
  let a ← demand (·.string receiver)
  let other ← argument args 0
  let b ← demand (·.string other)
  answer (f a b)

/-- A new string made from the text of the receiver. -/
def mapped (f : String → String) (receiver : Handle) : Action Handle := do
  newString (f (← demand (·.string receiver)))

/-- What each method does. -/
def perform : StringPrimitive → Handle → List Handle → Action Handle
  | .concat, receiver, args => concat receiver args
  | .times, receiver, args => times receiver args
  | .eq, receiver, args => eq receiver args
  | .lt, receiver, args => comparison (fun a b => a < b) receiver args
  | .le, receiver, args => comparison (fun a b => !decide (b < a)) receiver args
  | .gt, receiver, args => comparison (fun a b => b < a) receiver args
  | .ge, receiver, args => comparison (fun a b => !decide (a < b)) receiver args
  | .length, receiver, _ => do
    let text ← demand (·.string receiver)
    newInteger (Int64.ofNat text.length)
  | .isEmpty, receiver, _ => do
    let text ← demand (·.string receiver)
    answer text.isEmpty
  | .toS, receiver, _ => do
    discard (demand (·.string receiver))
    return receiver
  | .toSym, receiver, _ => do
    newSymbol (← demand (·.string receiver))
  | .inspect, receiver, _ => mapped Text.quote receiver
  | .upcase, receiver, _ => mapped Text.upcase receiver
  | .downcase, receiver, _ => mapped Text.downcase receiver

end Strings

namespace Symbols

/-- Whether the argument is a symbol with the same name. -/
def eq (receiver : Handle) (args : List Handle) : Action Handle := do
  let a ← demand (·.symbol receiver)
  let other ← argument args 0
  answer ((← ask fun m => (m.object other).symbol?) == some a)

/-- What each method does. -/
def perform : SymbolPrimitive → Handle → List Handle → Action Handle
  | .toS, receiver, _ => do
    newString (← demand (·.symbol receiver))
  | .toSym, receiver, _ => do
    discard (demand (·.symbol receiver))
    return receiver
  | .inspect, receiver, _ => do
    newString (Text.symbolLiteral (← demand (·.symbol receiver)))
  | .eq, receiver, args => eq receiver args
  | .length, receiver, _ => do
    let name ← demand (·.symbol receiver)
    newInteger (Int64.ofNat name.length)

end Symbols

end Rite
