import Rite.Machine.State

/-!
# Lines of descent

Methods, class variables and the payload of new objects are all found by walking up a superclass
chain until some class decides the matter.  There is one such walk, `Machine.ascend`, and it takes at
most as many hops as the limits allow: the class reached by the last permitted hop may still decide,
and a hop beyond it is a fault.
-/

namespace Rite.Machine

variable {α : Type}

/-- Walk up from `start` until `visit` decides.  `none` means that the chain ended undecided, and
`tooDeep` is the fault for needing a hop more than `hops`, given the class it would leave from. -/
def ascend (m : Machine) (visit : Handle → Except Fault (Option α)) (tooDeep : Handle → Fault) :
    (hops : Nat) → (start : Option Handle) → Except Fault (Option α)
  | _, none => .ok none
  | hops, some c =>
    match visit c with
    | .error e => .error e
    | .ok (some x) => .ok (some x)
    | .ok none =>
      match hops with
      | 0 => .error (tooDeep c)
      | hops + 1 => m.ascend visit tooDeep hops (m.superclassOf? c)

/-! ## Methods -/

/-- The entry for `name` in the own table of `c`, which must be a class. -/
def ownMethod (m : Machine) (name : String) (c : Handle) : Except Fault (Option Found) :=
  match m.classInfo? c with
  | some info => .ok ((info.methods.find? name).map fun method => ⟨c, method⟩)
  | none => .error (m.mismatch "Class" c)

/-- The method `name` of the nearest class at or above `start`. -/
def lookupFrom (m : Machine) (start : Option Handle) (name : String) :
    Except Fault (Option Found) :=
  m.ascend (m.ownMethod name) (fun c => .classChainTooDeep (m.className c))
    m.limits.maxClassDepth start

/-- The entry for `name` in the own table of the singleton class of `h`, if there is one. -/
def singletonMethod? (m : Machine) (h : Handle) (name : String) : Option Found :=
  match (m.object h).singleton with
  | none => none
  | some s =>
    match m.classInfo? s with
    | some info => (info.methods.find? name).map fun method => ⟨s, method⟩
    | none => none

/-- `found`, or the fault that `h` has no method `name`. -/
def orMissing (m : Machine) (h : Handle) (name : String) :
    Except Fault (Option Found) → Except Fault Found
  | .ok (some found) => .ok found
  | .ok none => .error (m.missing name h)
  | .error e => .error e

/-- The method that `h` answers `name` with: of its singleton class, else of its class or the
nearest superclass that has one. -/
def lookupMethod (m : Machine) (h : Handle) (name : String) : Except Fault Found :=
  match m.singletonMethod? h name with
  | some found => .ok found
  | none => m.orMissing h name (m.lookupFrom (some (m.classOf h)) name)

/-- Whether `h` has a method `name`. -/
def respondsTo (m : Machine) (h : Handle) (name : String) : Bool :=
  match m.lookupMethod h name with
  | .ok _ => true
  | .error _ => false

/-- The method that comes after the one of `owner` for `h`.  Above a singleton class comes the
object's own class. -/
def lookupAbove (m : Machine) (h owner : Handle) (name : String) : Except Fault Found :=
  let start :=
    if (m.object h).singleton = some owner then some (m.classOf h) else m.superclassOf? owner
  m.orMissing h name (m.lookupFrom start name)

/-! ## Class variables -/

/-- The class at or above `start` that holds the class variable `name`. -/
def classVarHolder (m : Machine) (start : Handle) (name : String) : Except Fault (Option Handle) :=
  m.ascend (fun c => .ok (if (m.object c).ivars.has name then some c else none))
    (fun _ => .classChainTooDeep (m.className start)) m.limits.maxClassDepth (some start)

/-! ## New objects -/

/-- Builtin classes that make no instances on request. -/
def uninstantiable : List Handle :=
  [Handle.integerClass, Handle.symbolClass, Handle.rangeClass, Handle.procClass, Handle.nilClass,
   Handle.trueClass, Handle.falseClass, Handle.classClass, Handle.moduleClass]

/-- What a builtin class says about the payload of the instances of `c` or of a class below it. -/
def builtinPayload (m : Machine) (instantiated c : Handle) : Except Fault (Option Payload) :=
  if c = Handle.stringClass then .ok (some (.string ""))
  else if c = Handle.arrayClass then .ok (some (.array #[]))
  else if c = Handle.hashClass then .ok (some (.hash []))
  else if uninstantiable.contains c then .error (m.missing "new" instantiated)
  else .ok none

/-- The payload that a new instance of `c` starts with, decided by the nearest builtin ancestor. -/
def freshPayload (m : Machine) (c : Handle) : Except Fault Payload :=
  match m.ascend (m.builtinPayload c) (fun _ => .classChainTooDeep (m.className c))
      m.limits.maxClassDepth (some c) with
  | .ok (some payload) => .ok payload
  | .ok none => .ok .plain
  | .error e => .error e

end Rite.Machine
