import Rite.Machine.Engine

/-!
# Methods of classes and modules

Making instances, asking for name and superclass, and defining accessors for instance variables.
-/

namespace Rite.Classes

open Rite.Action

variable (e : Engine)

/-- Make an instance and send it `initialize` with the arguments. -/
def new (receiver : Handle) (args : List Handle) : Action Handle := do
  if ← ask (·.isProperClass receiver) then
    let payload ← demand (·.freshPayload receiver)
    let instance_ ← allocate { isa := receiver, payload }
    discard (e.send instance_ "initialize" args)
    return instance_
  else
    fail (← ask (·.missing "new" receiver))

/-- The superclass, or `nil`. -/
def superclass (receiver : Handle) : Action Handle :=
  ask fun m => (m.superclassOf? receiver).getD Handle.nil

/-- The name of a class or module, as a string. -/
def name (receiver : Handle) : Action Handle := do
  let info ← demand (·.expect "Class" Object.classInfo? receiver)
  newString info.name

/-- Define accessors for each argument: a method that reads the instance variable, or one that sets
it, or both. -/
def defineAccessors (c : Handle) (reader writer : Bool) : List Handle → Action Handle
  | [] => return Handle.nil
  | h :: rest => do
    let name ← demand (·.name h)
    if reader then
      defineMethod c name (.attrReader ("@" ++ name))
    if writer then
      defineMethod c (name ++ "=") (.attrWriter ("@" ++ name))
    defineAccessors c reader writer rest

/-- What each method does. -/
def perform : ClassPrimitive → Handle → List Handle → Action Handle
  | .new, receiver, args => new e receiver args
  | .superclass, receiver, _ => superclass receiver
  | .name, receiver, _ => name receiver
  | .attrReader, receiver, args => defineAccessors receiver true false args
  | .attrWriter, receiver, args => defineAccessors receiver false true args
  | .attrAccessor, receiver, args => defineAccessors receiver true true args

end Rite.Classes
