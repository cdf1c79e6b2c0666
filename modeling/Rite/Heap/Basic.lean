import Rite.Heap.Object

/-!
# The heap

The heap is an array of objects that only grows.  Reading a handle outside of it gives a plain
instance of `Object`; a machine never holds such a handle.
-/

namespace Rite

/-- All objects of a machine, each at the place its handle names. -/
structure Heap where
  objects : Array Object := #[]
  deriving Inhabited

namespace Heap

/-- How many objects there are. -/
def size (heap : Heap) : Nat := heap.objects.size

/-- What a handle outside the heap is taken to denote. -/
def nothing : Object := { isa := Handle.objectClass }

/-- The object with the given handle. -/
def get (heap : Heap) (h : Handle) : Object := heap.objects.getD h.index nothing

/-- The handle that the next object will have. -/
def next (heap : Heap) : Handle := ⟨heap.objects.size⟩

/-- The heap with one more object. -/
def push (heap : Heap) (o : Object) : Heap := ⟨heap.objects.push o⟩

/-- The heap with the object at `h` changed. -/
def modify (heap : Heap) (h : Handle) (f : Object → Object) : Heap :=
  ⟨heap.objects.modify h.index f⟩

/-- Whether two handles denote the same key: they are the same handle, or both are integers, strings
or symbols with equal content. -/
def keysEqual (heap : Heap) (a b : Handle) : Bool :=
  if a = b then true
  else
    match (heap.get a).payload, (heap.get b).payload with
    | .integer x, .integer y => x == y
    | .string x, .string y => x == y
    | .symbol x, .symbol y => x == y
    | _, _ => false

/-- The value under the first key equal to `key`. -/
def lookupPair (heap : Heap) (key : Handle) : List (Handle × Handle) → Option Handle
  | [] => none
  | (k, v) :: rest => if heap.keysEqual k key then some v else heap.lookupPair key rest

/-- The pairs with `value` under `key`: an equal key keeps its handle and its place, a new one goes
to the end. -/
def insertPair (heap : Heap) (key value : Handle) :
    List (Handle × Handle) → List (Handle × Handle)
  | [] => [(key, value)]
  | (k, v) :: rest =>
    if heap.keysEqual k key then (k, value) :: rest
    else (k, v) :: heap.insertPair key value rest

/-- The value under `key` in the hash at `h`. -/
def hashGet? (heap : Heap) (h key : Handle) : Option Handle :=
  match (heap.get h).hash? with
  | some pairs => heap.lookupPair key pairs
  | none => none

/-- The heap with `value` under `key` in the hash at `h`.  Nothing changes if `h` is no hash. -/
def hashSet (heap : Heap) (h key value : Handle) : Heap :=
  match (heap.get h).hash? with
  | some pairs =>
    let pairs := heap.insertPair key value pairs
    heap.modify h (·.mapPairs fun _ => pairs)
  | none => heap

end Heap

end Rite
