import Rite.Heap.Basic
import Rite.Machine.Limits
import Rite.Machine.Sink

/-!
# The machine

A machine is everything a run can change: the heap, globals and constants, the two output sinks, the
current call depth and the collections whose `inspect` is in progress.  This module holds what can be
asked of a machine without changing it.
-/

namespace Rite

/-- The state of a run. -/
structure Machine where
  heap : Heap := {}
  globals : Table Handle := {}
  constants : Table Handle := {}
  out : Sink := {}
  err : Sink := {}
  limits : Limits := {}
  /-- How many calls are in progress. -/
  depth : Nat := 0
  /-- Collections whose `inspect` is in progress. -/
  inspecting : List Handle := []
  deriving Inhabited

/-- A method together with the class whose table holds it. -/
structure Found where
  owner : Handle
  method : Method
  deriving Inhabited

namespace Machine

/-! ## Objects and classes -/

/-- The object with the given handle. -/
def object (m : Machine) (h : Handle) : Object := m.heap.get h

/-- The class of an object; singleton classes are passed over. -/
def classOf (m : Machine) (h : Handle) : Handle := (m.object h).isa

/-- The class data of a class or module. -/
def classInfo? (m : Machine) (h : Handle) : Option ClassInfo := (m.object h).classInfo?

/-- Whether `h` is a class or a module. -/
def isClass (m : Machine) (h : Handle) : Bool := (m.classInfo? h).isSome

/-- Whether `h` is a class and not a module. -/
def isProperClass (m : Machine) (h : Handle) : Bool :=
  match m.classInfo? h with
  | some info => !info.isModule
  | none => false

/-- The superclass, if there is one. -/
def superclassOf? (m : Machine) (h : Handle) : Option Handle :=
  match m.classInfo? h with
  | some info => info.superclass
  | none => none

/-- The name of a class, and a question mark for anything else. -/
def className (m : Machine) (h : Handle) : String :=
  match m.classInfo? h with
  | some info => info.name
  | none => "?"

/-- The methods in the own table of a class, as name and kind, sorted by name. -/
def ownMethods (m : Machine) (h : Handle) : List String :=
  match m.classInfo? h with
  | some info => info.methods.sorted.map fun (name, method) => name ++ " " ++ method.text
  | none => []

/-- How an object is named in messages. -/
def describe (m : Machine) (h : Handle) : String :=
  if h = Handle.nil then "nil"
  else if h = Handle.yes then "true"
  else if h = Handle.no then "false"
  else if h = Handle.mainObject then "main:Object"
  else
    match m.classInfo? h with
    | some info => (if info.isModule then "module " else "class ") ++ info.name
    | none => "an instance of " ++ m.className (m.classOf h)

/-- The text of an object that has no better one: `#<Name>`. -/
def plainText (m : Machine) (h : Handle) : String := "#<" ++ m.className (m.classOf h) ++ ">"

/-- The fault for an object that is not of the `expected` kind. -/
def mismatch (m : Machine) (expected : String) (h : Handle) : Fault :=
  .typeMismatch expected (m.className (m.classOf h))

/-- The fault for a method that `h` does not have. -/
def missing (m : Machine) (name : String) (h : Handle) : Fault := .methodNotFound name (m.describe h)

/-! ## Variables -/

/-- An instance variable; `nil` if it is not set. -/
def ivar (m : Machine) (h : Handle) (name : String) : Handle :=
  ((m.object h).ivars.find? name).getD Handle.nil

/-- A global variable; `nil` if it is not set. -/
def global (m : Machine) (name : String) : Handle := (m.globals.find? name).getD Handle.nil

/-- A constant. -/
def constant? (m : Machine) (name : String) : Option Handle := m.constants.find? name

/-! ## Contents of the wanted kind -/

/-- What `read` finds in an object, or the fault that it is not of the `expected` kind. -/
def expect {α : Type} (m : Machine) (expected : String) (read : Object → Option α) (h : Handle) :
    Except Fault α :=
  match read (m.object h) with
  | some x => .ok x
  | none => .error (m.mismatch expected h)

/-- The value of an integer. -/
def integer (m : Machine) (h : Handle) : Except Fault Int64 := m.expect "Integer" Object.integer? h

/-- The text of a string. -/
def string (m : Machine) (h : Handle) : Except Fault String := m.expect "String" Object.string? h

/-- The name of a symbol. -/
def symbol (m : Machine) (h : Handle) : Except Fault String := m.expect "Symbol" Object.symbol? h

/-- The items of an array. -/
def array (m : Machine) (h : Handle) : Except Fault (Array Handle) :=
  m.expect "Array" Object.array? h

/-- The pairs of a hash. -/
def hash (m : Machine) (h : Handle) : Except Fault (List (Handle × Handle)) :=
  m.expect "Hash" Object.hash? h

/-- The bounds of a range. -/
def range (m : Machine) (h : Handle) : Except Fault (Handle × Handle × Bool) :=
  m.expect "Range" Object.range? h

/-- A name, given as a symbol or as a string. -/
def name (m : Machine) (h : Handle) : Except Fault String :=
  m.expect "Symbol" (fun o => o.symbol? <|> o.string?) h

/-- The elements to splice in for `h`: the items of an array, nothing for `nil`, or `h` alone. -/
def splat (m : Machine) (h : Handle) : List Handle :=
  match (m.object h).array? with
  | some items => items.toList
  | none => if h = Handle.nil then [] else [h]

end Machine

end Rite
