import Rite.Builtin.Catalogue
import Rite.Machine.Action

/-!
# The machine at the start of a run

Every machine starts with the builtin classes, each bound to a constant and furnished with its
builtin methods, with `nil`, `true` and `false`, and with the top-level object and its singleton
class.  `Object` and `Class` refer to each other: both are instances of `Class`, and `Class` inherits
from `Object`.
-/

namespace Rite

namespace Boot

/-- A method table of builtin methods. -/
def methodTable (methods : List Native) : Table Method :=
  Table.ofList (methods.map fun method => (method.name, .native method))

/-- A builtin class.  All of them but `Object` inherit from `Object`. -/
def builtinClass (name : String) (c : Handle) : Object :=
  { isa := Handle.classClass
    payload := .ofClass
      { name
        superclass := if c = Handle.objectClass then none else some Handle.objectClass
        methods := methodTable (Catalogue.ofClass c) } }

/-- The handle of the singleton class of the top-level object, the first object behind the builtin
ones. -/
def mainSingleton : Handle := ⟨17⟩

/-- The top-level object. -/
def mainObject : Object := { isa := Handle.objectClass, singleton := some mainSingleton }

/-- The singleton class of the top-level object. -/
def mainSingletonClass : Object :=
  { isa := Handle.classClass
    payload := .ofClass
      { name := "(singleton)"
        superclass := some Handle.classClass
        methods := methodTable Catalogue.topLevel } }

/-- The objects that every heap starts with. -/
def objects : List Object :=
  Handle.builtinClasses.map (fun (name, c) => builtinClass name c) ++
    [{ isa := Handle.nilClass }, { isa := Handle.trueClass }, { isa := Handle.falseClass },
     mainObject, mainSingletonClass]

end Boot

/-- A machine at the start of a run. -/
def Machine.boot (limits : Limits := {}) (out err : Sink := {}) : Machine :=
  { heap := ⟨Boot.objects.toArray⟩
    constants := ⟨Handle.builtinClasses⟩
    out, err, limits }

end Rite
