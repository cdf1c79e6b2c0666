import Rite.Machine.Action

/-!
# What runs methods

Builtin methods send messages, and instructions call methods and evaluate class bodies, so all of
them depend on each other.  They are written against an `Engine`, the interface through which the
one reaches the other.  None of them is recursive by itself; the knot is tied once, in
`Rite.Machine.Run`, by recursion on fuel.
-/

namespace Rite

/-- The method that a frame is executing. -/
structure ActiveMethod where
  /-- The class whose table holds the method. -/
  owner : Handle
  name : String
  deriving DecidableEq

/-- What code is evaluated against. -/
structure Context where
  self : Handle
  /-- The class in which methods are undefined and class variables are looked up. -/
  target : Handle
  /-- The method being executed, if any. -/
  method : Option ActiveMethod := none
  deriving DecidableEq

namespace Context

/-- Code outside of all classes and methods. -/
def topLevel : Context := { self := Handle.mainObject, target := Handle.objectClass }

/-- The body of the class or module `c`. -/
def classBody (c : Handle) : Context := { self := c, target := c }

/-- The body of the method `name` of `owner`, called on `receiver`. -/
def methodBody (receiver owner : Handle) (name : String) : Context :=
  { self := receiver, target := owner, method := some { owner, name } }

end Context

/-- The means by which one method or instruction sets off another. -/
structure Engine where
  /-- Bound on the rounds of a loop. -/
  fuel : Nat
  /-- Call a method that has been looked up: on a receiver, by a name, with arguments. -/
  call : Handle → Found → String → List Handle → Action Handle
  /-- Evaluate a record. -/
  evaluate : Record → Context → List Handle → Action Handle

namespace Engine

variable (e : Engine)

/-- Send a message: look the method up and call it. -/
def send (receiver : Handle) (name : String) (args : List Handle) : Action Handle := do
  let found ← Action.demand (·.lookupMethod receiver name)
  e.call receiver found name args

/-- The text that the method `name` of `h` answers, or `#<Name>` if it answers no string. -/
def textBy (name : String) (h : Handle) : Action String := do
  let answer ← e.send h name []
  Action.ask fun m => ((m.object answer).string?).getD (m.plainText h)

/-- The text of an object. -/
def toText (h : Handle) : Action String := e.textBy "to_s" h

/-- The literal form of an object. -/
def inspect (h : Handle) : Action String := e.textBy "inspect" h

/-- The literal forms of objects, one after the other. -/
def inspectAll (objects : List Handle) : Action (List String) := objects.mapM e.inspect

end Engine

/-- The argument at `index`. -/
def Action.argument (args : List Handle) (index : Nat) : Action Handle :=
  match args[index]? with
  | some h => pure h
  | none => fail (.argumentCount (index + 1) args.length)

/-- Answer a truth value. -/
def Action.answer (b : Bool) : Action Handle := return Handle.ofBool b

/-- The literal form of a collection: `ellipsis` if it is being shown already, else what `body`
gives. -/
def Action.inspectGuarded (receiver : Handle) (ellipsis : String) (body : Action String) :
    Action Handle := do
  if ← ask (·.inspecting.contains receiver) then
    newString ellipsis
  else
    newString (← inspecting receiver body)

end Rite
