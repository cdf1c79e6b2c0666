import Rite.Machine.Descent

/-!
# Actions

An action is a computation on a machine.  It ends with a value or comes to a halt, and either way
leaves a machine behind: what was written, allocated or defined before a fault stays.  Running out of
fuel is a halt of its own and not a fault, so that no outcome of a program can be mistaken for it.

So is asking for a piece of memory that is longer than any piece can be.  No fault reports it: the
run breaks off on the spot, and whatever contains the machine breaks off with it.
-/

namespace Rite

/-- The number of bytes that one piece of memory has at most. -/
def largestPiece : Nat := 0x7fffffffffffffff

/-- A number of bytes that no piece of memory has. -/
structure Overlong where
  bytes : Nat
  beyond : largestPiece < bytes
  deriving DecidableEq

/-- Why an action ends without a value. -/
inductive Halt where
  /-- The program is at fault. -/
  | fault (f : Fault)
  /-- The program has asked for a piece of memory that is too long to exist. -/
  | overrun (request : Overlong)
  /-- The bound on the number of steps is used up; nothing is known about the program. -/
  | exhausted
  deriving DecidableEq

/-- The text of a halt. -/
def Halt.message : Halt → String
  | .fault f => f.message
  | .overrun _ => "capacity overflow"
  | .exhausted => "step limit reached"

/-- A computation on a machine. -/
abbrev Action := EStateM Halt Machine

namespace Action

variable {α : Type}

/-- End with a fault. -/
def fail (f : Fault) : Action α := fun m => .error (.fault f) m

/-- Break off. -/
def overrun (request : Overlong) : Action α := fun m => .error (.overrun request) m

/-- Ask for a piece of memory.  Only lengths that a program computes are asked for here.  What is
copied from things that are there cannot come near the bound. -/
def reserve (bytes : Nat) : Action Unit :=
  if beyond : largestPiece < bytes then overrun { bytes, beyond } else return ()

/-- Give up for want of fuel. -/
def exhausted : Action α := fun m => .error .exhausted m

/-- Ask the machine something. -/
def ask (question : Machine → α) : Action α := fun m => .ok (question m) m

/-- Ask the machine something that may turn out a fault. -/
def demand (question : Machine → Except Fault α) : Action α := fun m =>
  match question m with
  | .ok x => .ok x m
  | .error f => .error (.fault f) m

/-- The value of a computation that may be at fault. -/
def ofExcept : Except Fault α → Action α
  | .ok x => pure x
  | .error f => fail f

/-- Change the heap. -/
def changeHeap (f : Heap → Heap) : Action Unit := fun m => .ok () { m with heap := f m.heap }

/-- Change one object. -/
def changeObject (h : Handle) (f : Object → Object) : Action Unit := changeHeap (·.modify h f)

/-! ## New objects -/

/-- Add an object to the heap. -/
def allocate (o : Object) : Action Handle := fun m =>
  let h := m.heap.next
  .ok h { m with heap := m.heap.push o }

/-- A new integer. -/
def newInteger (value : Int64) : Action Handle :=
  allocate { isa := Handle.integerClass, payload := .integer value }

/-- A new string. -/
def newString (text : String) : Action Handle :=
  allocate { isa := Handle.stringClass, payload := .string text }

/-- A new symbol. -/
def newSymbol (name : String) : Action Handle :=
  allocate { isa := Handle.symbolClass, payload := .symbol name }

/-- A new array. -/
def newArray (items : List Handle) : Action Handle :=
  allocate { isa := Handle.arrayClass, payload := .array items.toArray }

/-- A new range. -/
def newRange (first last : Handle) (exclusive : Bool) : Action Handle :=
  allocate { isa := Handle.rangeClass, payload := .range first last exclusive }

/-- A new method object. -/
def newMethod (method : Method) : Action Handle :=
  allocate { isa := Handle.procClass, payload := .method method }

/-- A new plain instance of `c`, which is not set up. -/
def newObject (c : Handle) : Action Handle := allocate { isa := c }

/-- A new class.  Binding it to a constant is another matter. -/
def newClass (name : String) (superclass : Handle) : Action Handle :=
  allocate
    { isa := Handle.classClass, payload := .ofClass { name, superclass := some superclass } }

/-- A new module. -/
def newModule (name : String) : Action Handle :=
  allocate { isa := Handle.moduleClass, payload := .ofClass { name, isModule := true } }

/-! ## Hashes -/

/-- Put `value` under `key`. -/
def hashSet (h key value : Handle) : Action Unit := changeHeap (·.hashSet h key value)

/-- Put pairs into a hash, one after the other. -/
def hashSetAll (h : Handle) : List (Handle × Handle) → Action Unit
  | [] => return ()
  | (key, value) :: rest => do
    hashSet h key value
    hashSetAll h rest

/-- A new hash with the given pairs; of equal keys the first keeps the place and the last the
value. -/
def newHash (pairs : List (Handle × Handle)) : Action Handle := do
  let h ← allocate { isa := Handle.hashClass, payload := .hash [] }
  hashSetAll h pairs
  return h

/-! ## Variables -/

/-- Set an instance variable. -/
def setIvar (h : Handle) (name : String) (value : Handle) : Action Unit :=
  changeObject h (·.setIvar name value)

/-- Set a global variable. -/
def setGlobal (name : String) (value : Handle) : Action Unit := fun m =>
  .ok () { m with globals := m.globals.insert name value }

/-- Bind a constant. -/
def setConstant (name : String) (value : Handle) : Action Unit := fun m =>
  .ok () { m with constants := m.constants.insert name value }

/-- The value of a constant, which must be bound. -/
def constant (name : String) : Action Handle := do
  match ← ask (·.constant? name) with
  | some value => return value
  | none => fail (.uninitializedConstant name)

/-! ## Methods -/

/-- Put a method into the own table of a class or module. -/
def defineMethod (c : Handle) (name : String) (method : Method) : Action Unit := do
  if ← ask (·.isClass c) then
    changeObject c (·.mapMethods (·.insert name method))
  else
    fail (← ask (·.mismatch "Class" c))

/-- Whether the own table of `c` holds `name`. -/
def ownsMethod (c : Handle) (name : String) (m : Machine) : Bool :=
  match m.classInfo? c with
  | some info => info.methods.has name
  | none => false

/-- Remove a method from the own table of a class or module. -/
def undefMethod (c : Handle) (name : String) : Action Unit := do
  if ← ask (ownsMethod c name) then
    changeObject c (·.mapMethods (·.erase name))
  else
    fail (← ask (·.missing name c))

/-- The name of the singleton class of `h`. -/
def singletonName (h : Handle) (m : Machine) : String :=
  match m.classInfo? h with
  | some info => "(singleton of " ++ info.name ++ ")"
  | none => "(singleton)"

/-- The singleton class of an object, which is made when first asked for. -/
def singletonClassOf (h : Handle) : Action Handle := do
  match ← ask fun m => (m.object h).singleton with
  | some s => return s
  | none =>
    let s ← newClass (← ask (singletonName h)) Handle.classClass
    changeObject h fun o => { o with singleton := some s }
    return s

/-- Open the class `name`.  A constant of that name must be a class with the superclass asked for,
if one is; without such a constant a class is made and bound. -/
def openClass (name : String) (superclass : Option Handle) : Action Handle := do
  match ← ask (·.constant? name) with
  | some existing =>
    match ← ask (·.classInfo? existing) with
    | some info =>
      if info.isModule then
        fail (← ask (·.mismatch "Class" existing))
      else if superclass.isSome && superclass ≠ info.superclass then
        fail (.superclassMismatch name)
      else
        return existing
    | none => fail (← ask (·.mismatch "Class" existing))
  | none =>
    let parent := superclass.getD Handle.objectClass
    if ← ask (·.isProperClass parent) then
      let c ← newClass name parent
      setConstant name c
      return c
    else
      fail (← ask (·.mismatch "Class" parent))

/-- Open the module `name`.  A constant of that name must be a module; without one a module is made
and bound. -/
def openModule (name : String) : Action Handle := do
  match ← ask (·.constant? name) with
  | some existing =>
    match ← ask (·.classInfo? existing) with
    | some info =>
      if info.isModule then return existing
      else fail (← ask (·.mismatch "Module" existing))
    | none => fail (← ask (·.mismatch "Module" existing))
  | none =>
    let c ← newModule name
    setConstant name c
    return c

/-! ## Output -/

/-- The fault of a write beyond a sink's limit. -/
def sinkFull : Fault := .outputFailed "sink full"

/-- The fault of a sink that cannot be flushed. -/
def flushFailed : Fault := .outputFailed "flush failed"

/-- Write to the output sink. -/
def writeOut (text : String) : Action Unit := fun m =>
  let fits := m.out.fits text
  let m := { m with out := m.out.accept text }
  if fits then .ok () m else .error (.fault sinkFull) m

/-- Write to the error sink. -/
def writeErr (text : String) : Action Unit := fun m =>
  let fits := m.err.fits text
  let m := { m with err := m.err.accept text }
  if fits then .ok () m else .error (.fault sinkFull) m

/-- Flush the output sink and then the error sink. -/
def flush : Action Unit := fun m =>
  if m.out.failsFlush || m.err.failsFlush then .error (.fault flushFailed) m else .ok () m

/-! ## Nesting -/

/-- Run `body` one call deeper.  The depth is restored whether `body` succeeds or not. -/
def nested (body : Action α) : Action α := fun m =>
  if m.limits.maxCallDepth ≤ m.depth then .error (.fault .stackTooDeep) m
  else
    match body { m with depth := m.depth + 1 } with
    | .ok x m => .ok x { m with depth := m.depth - 1 }
    | .error h m => .error h { m with depth := m.depth - 1 }

/-- Run `body` with the inspection of `h` marked as in progress.  The mark is removed whether `body`
succeeds or not. -/
def inspecting (h : Handle) (body : Action α) : Action α := fun m =>
  match body { m with inspecting := h :: m.inspecting } with
  | .ok x m => .ok x { m with inspecting := m.inspecting.erase h }
  | .error e m => .error e { m with inspecting := m.inspecting.erase h }

end Action

end Rite
