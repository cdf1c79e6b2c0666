import Rite.Proofs.Probes

/-!
# Comparing whole runs

A `Comparison` is a relation between actions that respects everything programs are built from:
sequences, questions, halts, elementary changes, inspections and calls.  Such a relation holds
between every program and itself (`Comparison.image`), whatever the relation says: that both end
alike, that a fact about the machine is kept, that one side has more room than the other.  The side
on the left may have less fuel, and a relation asks nothing of the right side once the left has run
out of it.

A fact about all programs is then one `Comparison`, and its proof is the list of the fields: none of
them mentions an instruction, a builtin method or fuel.
-/

namespace Rite

/-- A relation between actions that respects what programs are built from. -/
structure Comparison (R : {α : Type} → (α → α → Prop) → Action α → Action α → Prop) : Prop
    extends Sequential R where
  /-- A question whose answers are related whatever equipment the two machines have. -/
  demand : ∀ {α β : Type} {Q : α → α → Prop} {W : β → β → Prop} {q q' : Machine → Except Fault α}
    {f f' : α → Action β},
    (∀ m m', Machine.Paired Eq Pairing.same m m' → PairedOutcome Q (q m) (q' m')) →
    (∀ x x', Q x x' → R W (f x) (f' x')) → R W (Action.demand q >>= f) (Action.demand q' >>= f')
  fail : ∀ {α : Type} {V : α → α → Prop} (f : Fault), R V (Action.fail f) (Action.fail f)
  overrun : ∀ {α : Type} {V : α → α → Prop} (request : Overlong),
    R V (Action.overrun request) (Action.overrun request)
  made : ∀ {α : Type} {V : α → α → Prop} {a : Action α}, a.Made → (∀ x, V x x) → R V a a
  inspecting : ∀ {α : Type} {V : α → α → Prop} {a a' : Action α} (h : Handle), R V a a' →
    R V (Action.inspecting h a) (Action.inspecting h a')

namespace Comparison

variable {α : Type} {R : {α : Type} → (α → α → Prop) → Action α → Action α → Prop}

/-- **What is alike is related.**  The induction is on how the two actions are built; at a call and
at an evaluation it rests on the engines. -/
theorem alike (hR : Comparison R) {π : Permit} {e e' : Engine} (he : ComparedEngine R e e')
    {K : Pairing} {a a' : Action α} {V : Pairing → α → α → Prop} (h : Alike Eq π e e' K a a' V)
    (hK : K = Pairing.same) : R (V Pairing.same) a a' := by
  induction h with
  | pure hx => exact hR.pure (hK ▸ hx)
  | bind _ _ iha ihf =>
    subst hK
    exact hR.bind (iha rfl) fun x x' hx => ihf Pairing.same x x' le_rfl hx rfl
  | question hq _ _ ih =>
    subst hK
    exact hR.demand hq fun x x' hx => ih x x' hx rfl
  | fail f => exact hR.fail f
  | overrun request => exact hR.overrun request
  | exhausted _ a' => exact hR.exhausted a'
  | effect heffect =>
    obtain ⟨rfl, hmade, hV⟩ := heffect.eq_and_made hK.le
    exact hR.made hmade hV
  | inspecting hh _ ih =>
    subst hK
    cases hh
    exact hR.inspecting _ (ih rfl)
  | call name hreceiver hfound hargs =>
    subst hK
    cases hreceiver
    rw [hfound.eq le_rfl, hargs.eq le_rfl]
    exact he.call _ _ _ _
  | evaluate hrecord hcontext hargs =>
    subst hK
    rw [hrecord, hcontext.eq le_rfl, hargs.eq le_rfl]
    exact he.evaluate _ _ _

/-- The body of a call, on related engines. -/
theorem body (hR : Comparison R) {e e' : Engine} (he : ComparedEngine R e e') (receiver : Handle)
    (found : Found) (name : String) (args : List Handle) :
    R Eq (found.body e receiver name args) (found.body e' receiver name args) := by
  have hbody : Alike Eq .full e e' Pairing.same (found.body e receiver name args)
      (found.body e' receiver name args) Pairing.rel :=
    Found.alike_body trivial (fun _ => trivial) he.fuel name (.same found) rfl (.same args)
  exact hR.alike he hbody rfl

/-- An instruction, on related engines. -/
theorem step (hR : Comparison R) {e e' : Engine} (he : ComparedEngine R e e') (i : Placed)
    {f f' : Frame} (hf : Frame.Paired Eq Pairing.same f f') :
    R (Step.Left Eq Flow.Paired f.record Pairing.same) ((Step.take e i).on f)
      ((Step.take e' i).on f') := by
  have htake : StepAlike Eq .full e e' Pairing.same (Step.take e i) (Step.take e' i)
      Flow.Paired := Step.alike_take sameCode_eq i (.full _)
  exact hR.alike he (htake f f' hf _ rfl) rfl

/-- Runs without a probe are compared on both sides. -/
theorem probe (hR : Comparison R) : ComparedProbe R .plain .plain :=
  { hR.toSequential with
    call := id
    body := hR.body
    evaluation := id
    step := hR.step }

/-- Engines are related, the one on the left having no more fuel than the other. -/
theorem engine (hR : Comparison R) {fuel fuel' : Nat} (hfuel : fuel ≤ fuel') :
    ComparedEngine R (Run.engine fuel) (Run.engine fuel') := by
  rw [← Probe.engine_plain, ← Probe.engine_plain]
  exact hR.probe.engine hfuel

variable {fuel fuel' : Nat}

theorem send (hR : Comparison R) (hfuel : fuel ≤ fuel') (receiver : Handle) (name : String)
    (args : List Handle) :
    R Eq ((Run.engine fuel).send receiver name args) ((Run.engine fuel').send receiver name args) :=
  hR.alike (hR.engine hfuel) (Alike.send (π := .full) rfl name (.same args)) rfl

theorem record (hR : Comparison R) (hfuel : fuel ≤ fuel') (r : Record) :
    R Eq (Run.record fuel r) (Run.record fuel' r) :=
  (hR.engine hfuel).evaluate r .topLevel []

theorem records (hR : Comparison R) (hfuel : fuel ≤ fuel') (last : Handle) (rs : List Record) :
    R Eq (Run.records fuel last rs) (Run.records fuel' last rs) := by
  rw [← Probe.records_plain, ← Probe.records_plain]
  exact hR.probe.records hfuel last rs

/-- **Every image is related to itself.** -/
theorem image (hR : Comparison R) (hfuel : fuel ≤ fuel') (i : Image) :
    R Eq (Run.image fuel i) (Run.image fuel' i) :=
  hR.records hfuel Handle.nil i.records

end Comparison

end Rite
