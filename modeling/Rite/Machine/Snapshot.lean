import Rite.Machine.State

/-!
# Snapshots

A snapshot shows an object and what it refers to as a tree, read off the heap without calling any
method.  Objects can refer to each other in circles, so the tree is cut at a given depth.
-/

namespace Rite

mutual

/-- An object as a tree. -/
inductive Snapshot where
  | nil
  | yes
  | no
  | mainObject
  /-- An object below the depth at which the tree is cut. -/
  | elided
  /-- Any other object.  `isa` is the name of its class, unless that is the builtin class for the
  kind of object. -/
  | object (isa : Option String) (body : SnapshotBody) (ivars : List (String × Snapshot))

/-- What an object of the tree holds by virtue of its kind. -/
inductive SnapshotBody where
  | plain
  | integer (value : Int64)
  | string (text : String)
  | symbol (name : String)
  | array (items : List Snapshot)
  | hash (pairs : List (Snapshot × Snapshot))
  | range (first last : Snapshot) (exclusive : Bool)
  | ofClass (name : String)
  | ofModule (name : String)
  | method (text : String)

end

/-- The builtin class of the objects with a given payload. -/
def Payload.builtinClass? : Payload → Option Handle
  | .plain => none
  | .integer _ => some Handle.integerClass
  | .string _ => some Handle.stringClass
  | .symbol _ => some Handle.symbolClass
  | .array _ => some Handle.arrayClass
  | .hash _ => some Handle.hashClass
  | .range .. => some Handle.rangeClass
  | .ofClass info => some (if info.isModule then Handle.moduleClass else Handle.classClass)
  | .method _ => some Handle.procClass

/-- A payload as part of a tree, given the trees of the objects it refers to. -/
def Payload.snapshot (view : Handle → Snapshot) : Payload → SnapshotBody
  | .plain => .plain
  | .integer value => .integer value
  | .string text => .string text
  | .symbol name => .symbol name
  | .array items => .array (items.toList.map view)
  | .hash pairs => .hash (pairs.map fun (key, value) => (view key, view value))
  | .range first last exclusive => .range (view first) (view last) exclusive
  | .ofClass info => if info.isModule then .ofModule info.name else .ofClass info.name
  | .method body => .method body.text

namespace Machine

/-- The class name that a snapshot of `o` mentions. -/
def unusualClass? (m : Machine) (o : Object) : Option String :=
  if o.payload.builtinClass? = some o.isa then none else some (m.className o.isa)

/-- The snapshot of an object that is not one of the four singular ones. -/
def snapshotBelow (m : Machine) (view : Handle → Snapshot) (o : Object) : Snapshot :=
  .object (m.unusualClass? o) (o.payload.snapshot view)
    (o.ivars.sorted.map fun (name, value) => (name, view value))

/-- The snapshot of an object, `depth` levels deep. -/
def snapshot (m : Machine) : (depth : Nat) → Handle → Snapshot
  | depth, h =>
    if h = Handle.nil then .nil
    else if h = Handle.yes then .yes
    else if h = Handle.no then .no
    else if h = Handle.mainObject then .mainObject
    else
      match depth with
      | 0 => .elided
      | depth + 1 => m.snapshotBelow (m.snapshot depth) (m.object h)

end Machine

end Rite
