import Rite.Proofs.AlikeFrame
import Rite.Proofs.Changes

/-!
# Probed runs

A run goes through states that its result does not show, and takes turns that nothing records.  To
speak of them, a program is run under a probe.  A `Probe` does something around every call, every
method body, every evaluation and every instruction: it may test the machine, or give up where some
turn is taken.  `Probe.call` and `Probe.evaluate` are `Run.call` and `Run.evaluate` with a probe put
in, and under the probe that does nothing they are the same functions (`Probe.engine_plain`).

What a probe finds out is read off a comparison of two runs, one under each of two probes.
`ComparedProbe.engine` is the induction for all of them: a relation that holds around calls, bodies,
evaluations and instructions holds between whole runs.
-/

namespace Rite

/-- What is done around the parts of a run. -/
structure Probe where
  /-- Around a call. -/
  call : Action Handle → Action Handle := id
  /-- Around the body of the method that is called, one call deeper. -/
  body : Found → Action Handle → Action Handle := fun _ => id
  /-- Around the evaluation of a record. -/
  evaluation : Action Handle → Action Handle := id
  /-- Around an instruction that is carried out in a frame. -/
  step : Placed → Frame → Action (Flow × Frame) → Action (Flow × Frame) := fun _ _ => id

namespace Probe

/-- The probe that does nothing. -/
def plain : Probe := {}

variable (p : Probe)

/-- Run a frame from a position on. -/
def runFrom (e : Engine) : (rounds position : Nat) → Frame → Action Handle
  | 0, _, _ => Action.exhausted
  | rounds + 1, position, f =>
    match f.record.code.placed[position]? with
    | none => pure Handle.nil
    | some i => do
      match ← p.step i f ((Step.take e i).on f) with
      | (.next, f) => runFrom e rounds (position + 1) f
      | (.jump target, f) => runFrom e rounds target f
      | (.leave value, _) => return value

mutual

/-- Call a method that has been looked up. -/
def callFound : (fuel : Nat) → Handle → Found → String → List Handle → Action Handle
  | 0, _, _, _, _ => Action.exhausted
  | fuel + 1, receiver, found, name, args =>
    let e : Engine := ⟨fuel, callFound fuel, evaluate fuel⟩
    p.call (Action.nested (p.body found (found.body e receiver name args)))

/-- Evaluate a record. -/
def evaluate : (fuel : Nat) → Record → Context → List Handle → Action Handle
  | 0, _, _, _ => Action.exhausted
  | fuel + 1, record, context, args =>
    let e : Engine := ⟨fuel, callFound fuel, evaluate fuel⟩
    p.evaluation (p.runFrom e fuel 0 (.start record context args))

end

/-- The engine with the given amount of fuel. -/
def engine (fuel : Nat) : Engine := ⟨fuel, p.callFound fuel, p.evaluate fuel⟩

/-- Evaluate a record as top-level code. -/
def record (fuel : Nat) (r : Record) : Action Handle := p.evaluate fuel r .topLevel []

/-- Evaluate records in order, starting from the value `last`. -/
def records (fuel : Nat) (last : Handle) : List Record → Action Handle
  | [] => return last
  | r :: rs => do
    let value ← p.record fuel r
    records fuel value rs

/-- Evaluate the root records of an image in order. -/
def image (fuel : Nat) (i : Image) : Action Handle := p.records fuel Handle.nil i.records

/-- Evaluate an image and flush the sinks. -/
def program (fuel : Nat) (i : Image) : Action Unit := do
  discard (p.image fuel i)
  Action.flush

/-! ## The probe that does nothing -/

theorem runFrom_plain (e : Engine) (rounds position : Nat) (f : Frame) :
    plain.runFrom e rounds position f = Frame.runFrom e rounds position f := by
  induction rounds generalizing position f with
  | zero => rfl
  | succ rounds ih =>
    rw [runFrom, Frame.runFrom_succ]
    cases f.record.code.placed[position]? with
    | none => rfl
    | some i =>
      have hstep : plain.step i f ((Step.take e i).on f) = (Step.take e i).on f := rfl
      dsimp only
      rw [hstep]
      refine congrArg _ (funext fun after => ?_)
      obtain ⟨_ | target | value, g⟩ := after
      · exact ih (position + 1) g
      · exact ih target g
      · rfl

/-- **A run under the probe that does nothing is a run.** -/
theorem engine_plain (fuel : Nat) : plain.engine fuel = Run.engine fuel := by
  induction fuel with
  | zero => rfl
  | succ fuel ih =>
    have hengine : Engine.mk fuel (plain.callFound fuel) (plain.evaluate fuel) = Run.engine fuel := ih
    unfold engine Run.engine
    congr 1
    · funext receiver found name args
      rw [callFound, Run.call, hengine]
      rfl
    · funext record context args
      rw [evaluate, Run.evaluate, hengine, runFrom_plain]
      rfl

theorem record_plain (fuel : Nat) (r : Record) : plain.record fuel r = Run.record fuel r :=
  congrArg (fun e : Engine => e.evaluate r .topLevel []) (engine_plain fuel)

theorem records_plain (fuel : Nat) (last : Handle) (rs : List Record) :
    plain.records fuel last rs = Run.records fuel last rs := by
  induction rs generalizing last with
  | nil => rfl
  | cons r rs ih =>
    rw [records, Run.records, record_plain]
    exact congrArg _ (funext ih)

theorem image_plain (fuel : Nat) (i : Image) : plain.image fuel i = Run.image fuel i :=
  records_plain fuel Handle.nil i.records

theorem program_plain (fuel : Nat) (i : Image) : plain.program fuel i = Run.program fuel i := by
  rw [program, Run.program, image_plain]

end Probe

/-! ## Comparing two probes -/

/-- A relation between actions that respects sequences and calls, and asks nothing of the right side
once the left has run out of fuel.  `V` relates the values with which the two actions end. -/
structure Sequential (R : {α : Type} → (α → α → Prop) → Action α → Action α → Prop) : Prop where
  pure : ∀ {α : Type} {V : α → α → Prop} {x x' : α}, V x x' → R V (Pure.pure x) (Pure.pure x')
  bind : ∀ {α β : Type} {V : α → α → Prop} {W : β → β → Prop} {a a' : Action α}
    {f f' : α → Action β}, R V a a' → (∀ x x', V x x' → R W (f x) (f' x')) →
    R W (a >>= f) (a' >>= f')
  exhausted : ∀ {α : Type} {V : α → α → Prop} (a' : Action α), R V Action.exhausted a'
  nested : ∀ {α : Type} {V : α → α → Prop} {a a' : Action α}, R V a a' →
    R V (Action.nested a) (Action.nested a')

/-- Two engines whose calls and evaluations are related. -/
structure ComparedEngine (R : {α : Type} → (α → α → Prop) → Action α → Action α → Prop)
    (e e' : Engine) : Prop where
  fuel : e.fuel ≤ e'.fuel
  call : ∀ receiver found name args,
    R Eq (e.call receiver found name args) (e'.call receiver found name args)
  evaluate : ∀ record context args,
    R Eq (e.evaluate record context args) (e'.evaluate record context args)

/-- Two probes that leave related what related engines do. -/
structure ComparedProbe (R : {α : Type} → (α → α → Prop) → Action α → Action α → Prop)
    (p p' : Probe) : Prop extends Sequential R where
  call : ∀ {a a' : Action Handle}, R Eq a a' → R Eq (p.call a) (p'.call a')
  body : ∀ {e e' : Engine}, ComparedEngine R e e' → ∀ receiver (found : Found) name args,
    R Eq (p.body found (found.body e receiver name args))
      (p'.body found (found.body e' receiver name args))
  evaluation : ∀ {a a' : Action Handle}, R Eq a a' → R Eq (p.evaluation a) (p'.evaluation a')
  step : ∀ {e e' : Engine}, ComparedEngine R e e' → ∀ (i : Placed) {f f' : Frame},
    Frame.Paired Eq Pairing.same f f' →
    R (Step.Left Eq Flow.Paired f.record Pairing.same) (p.step i f ((Step.take e i).on f))
      (p'.step i f' ((Step.take e' i).on f'))

namespace ComparedProbe

variable {R : {α : Type} → (α → α → Prop) → Action α → Action α → Prop} {p p' : Probe}

/-- A frame is run alike, instruction by instruction, as long as the rounds on the left last. -/
theorem runFrom (hp : ComparedProbe R p p') {e e' : Engine} (he : ComparedEngine R e e')
    {rounds rounds' : Nat} (hrounds : rounds ≤ rounds') (position : Nat) {f f' : Frame}
    (hf : Frame.Paired Eq Pairing.same f f') :
    R Eq (p.runFrom e rounds position f) (p'.runFrom e' rounds' position f') := by
  induction rounds generalizing rounds' position f f' with
  | zero => exact hp.exhausted _
  | succ rounds ih =>
    obtain ⟨rounds', rfl⟩ : ∃ n, rounds' = n + 1 := ⟨rounds' - 1, by omega⟩
    have hrest := Nat.le_of_succ_le_succ hrounds
    rw [Probe.runFrom, Probe.runFrom, hf.record]
    cases f'.record.code.placed[position]? with
    | none => exact hp.pure rfl
    | some i =>
      refine hp.bind (hp.step he i hf) fun x x' hx => ?_
      obtain ⟨flow, g⟩ := x
      obtain ⟨flow', g'⟩ := x'
      obtain ⟨hflow, hg, _⟩ := hx
      cases hflow with
      | next => exact ih hrest (position + 1) hg
      | jump target => exact ih hrest target hg
      | leave hvalue => exact hp.pure hvalue

/-- **Whole runs are related**, the one on the left having no more fuel than the other. -/
theorem engine (hp : ComparedProbe R p p') {fuel fuel' : Nat} (hfuel : fuel ≤ fuel') :
    ComparedEngine R (p.engine fuel) (p'.engine fuel') := by
  induction fuel generalizing fuel' with
  | zero =>
    refine ⟨hfuel, fun _ _ _ _ => ?_, fun _ _ _ => ?_⟩
    · simp only [Probe.engine, Probe.callFound]
      exact hp.exhausted _
    · simp only [Probe.engine, Probe.evaluate]
      exact hp.exhausted _
  | succ fuel ih =>
    obtain ⟨fuel', rfl⟩ : ∃ n, fuel' = n + 1 := ⟨fuel' - 1, by omega⟩
    have he := ih (Nat.le_of_succ_le_succ hfuel)
    refine ⟨hfuel, fun receiver found name args => ?_, fun record context args => ?_⟩
    · simp only [Probe.engine, Probe.callFound]
      exact hp.call (hp.nested (hp.body he receiver found name args))
    · simp only [Probe.engine, Probe.evaluate]
      exact hp.evaluation (hp.runFrom he he.fuel 0 (.start rfl (.same context) (.same args)))

variable {fuel fuel' : Nat}

theorem record (hp : ComparedProbe R p p') (hfuel : fuel ≤ fuel') (r : Record) :
    R Eq (p.record fuel r) (p'.record fuel' r) :=
  (hp.engine hfuel).evaluate r .topLevel []

theorem records (hp : ComparedProbe R p p') (hfuel : fuel ≤ fuel') (last : Handle)
    (rs : List Record) : R Eq (p.records fuel last rs) (p'.records fuel' last rs) := by
  induction rs generalizing last with
  | nil => exact hp.pure rfl
  | cons r rs ih =>
    refine hp.bind (hp.record hfuel r) fun value _ hvalue => ?_
    cases hvalue
    exact ih value

end ComparedProbe

end Rite
