import Rite.Frame.Execute

/-!
# Evaluating a frame

`Step.take` carries out one instruction and says where control goes.  `Frame.run` repeats it from a
given position until the frame is left or control runs off the end of the code, which answers `nil`.
-/

namespace Rite

namespace Step

/-- The signed target of a jump: the end of the instruction plus its distance. -/
def jumpTarget (p : Placed) : Int :=
  p.offset + p.instruction.encodedSize + p.instruction.jumpOffset?.getD 0

/-- The position of the instruction at a code offset, which may be negative. -/
def landing? (code : Code) (target : Int) : Option Nat :=
  if target < 0 then none else code.positionOf? target.toNat

/-- Jump.  The target must be the start of an instruction or the end of the code. -/
def jump (p : Placed) : Step Flow := do
  match landing? (← view (·.record.code)) (jumpTarget p) with
  | some position => return .jump position
  | none => fail (.invalidJumpTarget (jumpTarget p))

/-- Jump if a condition holds. -/
def jumpWhen (condition : Bool) (p : Placed) : Step Flow :=
  if condition then jump p else return .next

/-- Carry out one instruction. -/
def take (e : Engine) (p : Placed) : Step Flow := do
  let i := p.instruction
  match i.op with
  | .jump => jump p
  | .jumpIf => jumpWhen (← read i.a).truthy p
  | .jumpUnless => jumpWhen (!(← read i.a).truthy) p
  | .jumpNil => jumpWhen ((← read i.a) = Handle.nil) p
  | .jumpUnwind =>
    if (← view (·.record.catchCount)) > 0 then fail (.notImplemented i.op) else jump p
  | .ret | .retBlk => return .leave (← read i.a)
  | .stop => return .leave Handle.nil
  | _ =>
    execute e i
    return .next

end Step

namespace Frame

/-- Run from the instruction at `position` on.  `rounds` bounds the number of instructions. -/
def run (e : Engine) : (rounds : Nat) → (position : Nat) → Activation →
    EStateM.Result Halt Machine Handle
  | 0, _, s => .error .exhausted s.machine
  | rounds + 1, position, s =>
    match s.frame.record.code.placed[position]? with
    | none => .ok Handle.nil s.machine
    | some p =>
      match Step.take e p s with
      | .ok .next s => run e rounds (position + 1) s
      | .ok (.jump target) s => run e rounds target s
      | .ok (.leave value) s => .ok value s.machine
      | .error h s => .error h s.machine

/-- Evaluate a record: run a fresh frame from its first instruction. -/
def evaluate (e : Engine) (record : Record) (context : Context) (args : List Handle) :
    Action Handle := fun m => run e e.fuel 0 ⟨start record context args, m⟩

end Frame

end Rite
