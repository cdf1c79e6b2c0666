import Rite.Builtin.Array
import Rite.Builtin.Class
import Rite.Builtin.Hash
import Rite.Builtin.Integer
import Rite.Builtin.Object
import Rite.Builtin.Range
import Rite.Builtin.Text

/-!
# Calling methods

What a primitive does, and what calling a method of any kind does.  Arguments are counted before
anything else happens, and the whole call takes place one level deeper.
-/

namespace Rite

open Rite.Action

/-- What a primitive does. -/
def Primitive.perform (e : Engine) : Primitive → Handle → List Handle → Action Handle
  | .text s, _, _ => newString s
  | .answer b, _, _ => Action.answer b
  | .argumentTruth, _, args => do Action.answer (← argument args 0).truthy
  | .ofObject op, receiver, args => Objects.perform e op receiver args
  | .ofClass op, receiver, args => Classes.perform e op receiver args
  | .ofInteger op, receiver, args => Integers.perform op receiver args
  | .ofString op, receiver, args => Strings.perform op receiver args
  | .ofSymbol op, receiver, args => Symbols.perform op receiver args
  | .ofArray op, receiver, args => Arrays.perform e op receiver args
  | .ofHash op, receiver, args => Hashes.perform e op receiver args
  | .ofRange op, receiver, args => Ranges.perform e op receiver args

/-- Check the number of arguments. -/
def Arity.check (arity : Arity) (given : Nat) : Action Unit :=
  match arity with
  | .exactly n => if n = given then return () else fail (.argumentCount n given)
  | .any => return ()

/-- The body of a call. -/
def Found.body (found : Found) (e : Engine) (receiver : Handle) (name : String)
    (args : List Handle) : Action Handle := do
  match found.method with
  | .native method =>
    method.arity.check args.length
    method.primitive.perform e receiver args
  | .bytecode record => e.evaluate record (.methodBody receiver found.owner name) args
  | .attrReader ivar =>
    (Arity.exactly 0).check args.length
    ask (·.ivar receiver ivar)
  | .attrWriter ivar =>
    (Arity.exactly 1).check args.length
    let value ← argument args 0
    setIvar receiver ivar value
    return value

/-- Call a method that has been looked up. -/
def Found.call (e : Engine) (receiver : Handle) (found : Found) (name : String)
    (args : List Handle) : Action Handle :=
  nested (found.body e receiver name args)

end Rite
