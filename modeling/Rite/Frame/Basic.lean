import Rite.Heap.Items
import Rite.Machine.Engine

/-!
# Frames

A frame is one evaluation of a record: its registers and the context it runs in.  Register 0 holds
`self` and the arguments follow it.  Registers that were never written read as `nil`, so how many a
record declares makes no difference to what a program does.

An instruction works on the frame and on the machine together, as a `Step`.  On failure too a step
says what became of both.
-/

namespace Rite

/-- One evaluation of a record. -/
structure Frame where
  record : Record
  registers : Array Handle
  context : Context

namespace Frame

/-- The contents of a register. -/
def get (f : Frame) (r : UInt16) : Handle := f.registers.getD r.toNat Handle.nil

/-- The frame with `value` in register `r`. -/
def set (f : Frame) (r : UInt16) (value : Handle) : Frame :=
  { f with registers := Items.put f.registers r.toNat value }

/-- The frame in which an evaluation starts. -/
def start (record : Record) (context : Context) (args : List Handle) : Frame :=
  let used := context.self :: args
  { record, context
    registers :=
      used.toArray ++ Array.replicate (record.registerCount.toNat - used.length) Handle.nil }

/-- The contents of `count` registers from `first` on. -/
def span (f : Frame) (first count : UInt16) : List Handle :=
  (List.range count.toNat).map fun i => f.get (first + UInt16.ofNat i)

/-- The contents of `count` pairs of neighbouring registers from `first` on. -/
def pairs (f : Frame) (first count : UInt16) : List (Handle × Handle) :=
  (List.range count.toNat).map fun i =>
    (f.get (first + 2 * UInt16.ofNat i), f.get (first + 2 * UInt16.ofNat i + 1))

end Frame

/-- A frame and the machine it runs on. -/
structure Activation where
  frame : Frame
  machine : Machine

/-- A computation on a frame and its machine. -/
abbrev Step := EStateM Halt Activation

/-- Where control goes after an instruction. -/
inductive Flow where
  /-- To the next instruction. -/
  | next
  /-- To the instruction with this index. -/
  | jump (position : Nat)
  /-- Out of the frame, with a value. -/
  | leave (value : Handle)
  deriving DecidableEq

namespace Step

variable {α : Type}

/-- An action on the machine, which leaves the frame alone. -/
def act (action : Action α) : Step α := fun ⟨frame, machine⟩ =>
  match action machine with
  | .ok x machine => .ok x ⟨frame, machine⟩
  | .error h machine => .error h ⟨frame, machine⟩

/-- End with a fault. -/
def fail (f : Fault) : Step α := fun s => .error (.fault f) s

/-- Ask the frame something. -/
def view (question : Frame → α) : Step α := fun s => .ok (question s.frame) s

/-- The contents of a register. -/
def read (r : UInt16) : Step Handle := view (·.get r)

/-- Write a register. -/
def write (r : UInt16) (value : Handle) : Step Unit := fun ⟨frame, machine⟩ =>
  .ok () ⟨frame.set r value, machine⟩

/-- Write registers from `first` on. -/
def writeAll (first : UInt16) : List Handle → Step Unit
  | [] => return ()
  | value :: values => do
    write first value
    writeAll (first + 1) values

/-- Write the answer of an action to a register. -/
def writeResult (r : UInt16) (action : Action Handle) : Step Unit := do
  write r (← act action)

/-- The entry of a table of the record at an operand, or the fault that there is none. -/
def entry (kind : String) (table : Record → List α) (index : UInt16) : Step α := do
  let entries ← view fun f => table f.record
  match entries[index.toNat]? with
  | some x => return x
  | none => fail (.indexOutOfRange kind index.toNat entries.length)

/-- A symbol of the record. -/
def symbol (index : UInt16) : Step String := entry "symbol table" Record.symbols index

/-- A string literal of the record. -/
def literal (index : UInt16) : Step String := entry "literal pool" Record.literals index

/-- A record nested in the record. -/
def child (index : UInt16) : Step Record := entry "child records" Record.children index

end Step

end Rite
