/-!
# Handles and the builtin objects

An object is known by its handle, its place in the heap.  Objects are never removed, so a handle
stays good.  Every heap starts with the same seventeen objects, in the order given here: the builtin
classes, then `nil`, `true`, `false` and the top-level object `main`.

A machine stores a handle in 32 bits, so that object number 2^32 would get the handle of the first
one.  Here places are natural numbers and never wrap around: heaps are taken to stay below 2^32
objects.
-/

namespace Rite

/-- The place of an object in the heap. -/
structure Handle where
  index : Nat
  deriving DecidableEq, Inhabited

namespace Handle

/-- The bytes that a stored handle takes. -/
def storedBytes : Nat := 4

/-- The class `Object`, the root of every line of descent. -/
def objectClass : Handle := ⟨0⟩
/-- The class `Class`, of which every class is an instance. -/
def classClass : Handle := ⟨1⟩
/-- The class `Module`, of which every module is an instance. -/
def moduleClass : Handle := ⟨2⟩
/-- The class `Integer`. -/
def integerClass : Handle := ⟨3⟩
/-- The class `String`. -/
def stringClass : Handle := ⟨4⟩
/-- The class `Symbol`. -/
def symbolClass : Handle := ⟨5⟩
/-- The class `Array`. -/
def arrayClass : Handle := ⟨6⟩
/-- The class `Hash`. -/
def hashClass : Handle := ⟨7⟩
/-- The class `Range`. -/
def rangeClass : Handle := ⟨8⟩
/-- The class `Proc`, of which method bodies are instances. -/
def procClass : Handle := ⟨9⟩
/-- The class `NilClass`. -/
def nilClass : Handle := ⟨10⟩
/-- The class `TrueClass`. -/
def trueClass : Handle := ⟨11⟩
/-- The class `FalseClass`. -/
def falseClass : Handle := ⟨12⟩
/-- The object `nil`. -/
def nil : Handle := ⟨13⟩
/-- The object `true`. -/
def yes : Handle := ⟨14⟩
/-- The object `false`. -/
def no : Handle := ⟨15⟩
/-- The object that is `self` at the top level. -/
def mainObject : Handle := ⟨16⟩

/-- The builtin classes in heap order, with the constants they are bound to. -/
def builtinClasses : List (String × Handle) :=
  [("Object", objectClass), ("Class", classClass), ("Module", moduleClass),
   ("Integer", integerClass), ("String", stringClass), ("Symbol", symbolClass),
   ("Array", arrayClass), ("Hash", hashClass), ("Range", rangeClass), ("Proc", procClass),
   ("NilClass", nilClass), ("TrueClass", trueClass), ("FalseClass", falseClass)]

/-- The object for a truth value. -/
def ofBool (b : Bool) : Handle := if b then yes else no

/-- Only `nil` and `false` count as false. -/
def truthy (h : Handle) : Bool := h ≠ nil && h ≠ no

end Handle

end Rite
