import Rite.Proofs.HeapInvariant

/-!
# Facts that hold at every step

`Machine.Reachable` is about machines at rest, between one image and the next.  Much of what matters
is asked of a machine while it runs, and `Machine.Visited` adds the states that a run goes through:
before and after every call, every method body and every instruction.  It is defined by watched runs
(`Rite.Proofs.Nesting`): a run goes through a state if every test that the state fails is failed by
the run.

A fact `I` about machines holds at every step if the effects of programs keep it.  That is what an
`Invariant` says, and `Invariant.visited` is the result.  In between, `Maintained` compares a run with
a copy on another engine, which may be probed: both pass through the same states, which all are
well-formed and have `I`.  Being well-formed and nothing else is the first invariant of this kind
(`reachable_wellFormed`).
-/

namespace Rite

variable {α β : Type}

/-! ## Machines at rest and on the way -/

/-- The machines that programs lead to: a machine at the start, with any limits and sinks, and what
an image leaves behind that was executed on such a machine and came to an end. -/
inductive Machine.Reachable : Machine → Prop
  | boot (limits : Limits) (out err : Sink) : Reachable (Machine.boot limits out err)
  | executed {m : Machine} (hm : Reachable m) (fuel : Nat) (i : Image)
      (hends : (Run.image fuel i).Ends m) : Reachable ((Run.image fuel i).leaves m)

/-- The states that programs go through: those at rest, and those in the course of a run that ends. -/
inductive Machine.Visited : Machine → Prop
  | resting {m : Machine} (h : m.Reachable) : Visited m
  /-- Every test that `m` fails is failed in the course of the run. -/
  | during {m m₀ : Machine} (h : m₀.Reachable) (fuel : Nat) (i : Image)
      (hends : (Run.image fuel i).Ends m₀)
      (hseen : ∀ ok : Machine → Bool, ok m = false → ¬ ((Probe.watch ok).image fuel i).Ends m₀) :
      Visited m

/-- A fact about machines that every effect with the permissions `π` keeps.  It is about the heap
alone, so bindings, output and the nesting of calls do not matter. -/
structure Invariant (π : Permit) (I : Machine → Prop) : Prop where
  heap : ∀ m m' : Machine, m'.heap = m.heap → I m → I m'
  effect : ∀ {α : Type} {K : Pairing} {a a' : Action α} {V : Pairing → α → α → Prop} {m : Machine}
    (hm : m.WellFormed), K = hm.pairing → I m → Effect Eq π K a a' V → I (a.leaves m)

/-- How a run from `m` and its copy end: in one well-formed state with `I`, with the same halt or with
values that `V` relates.  Where the run was out of fuel, nothing is said. -/
inductive Maintained (I : Machine → Prop) (m : Machine) (V : Pairing → α → α → Prop) :
    EStateM.Result Halt Machine α → EStateM.Result Halt Machine α → Prop
  | ok {x x' : α} {m₁ : Machine} (hm₁ : m₁.WellFormed) (hI : I m₁)
      (hsize : m.heap.size ≤ m₁.heap.size) (hx : V hm₁.pairing x x') :
      Maintained I m V (.ok x m₁) (.ok x' m₁)
  | error {halt : Halt} {m₁ : Machine} (hm₁ : m₁.WellFormed) (hI : I m₁) :
      Maintained I m V (.error halt m₁) (.error halt m₁)
  | exhausted {m₁ : Machine} {r : EStateM.Result Halt Machine α} :
      Maintained I m V (.error .exhausted m₁) r

/-- Two engines whose calls and evaluations maintain `I` when they are given valid handles. -/
structure MaintainingEngine (I : Machine → Prop) (e e' : Engine) : Prop where
  fuel : e.fuel ≤ e'.fuel
  call : ∀ {m : Machine} (hm : m.WellFormed), I m → ∀ {receiver found args} (name : String),
    m.Valid receiver → Found.Paired Eq hm.pairing found found → PairedRow hm.pairing args args →
    Maintained I m Pairing.rel (e.call receiver found name args m)
      (e'.call receiver found name args m)
  evaluate : ∀ {m : Machine} (hm : m.WellFormed), I m → ∀ (record : Record) {context args},
    Context.Paired hm.pairing context context → PairedRow hm.pairing args args →
    Maintained I m Pairing.rel (e.evaluate record context args m) (e'.evaluate record context args m)

theorem Machine.WellFormed.pairing_le_same {m : Machine} (hm : m.WellFormed) :
    hm.pairing ≤ Pairing.same :=
  fun _ _ hh => hh.1

/-- A change to the nesting of calls and inspections. -/
theorem Machine.WellFormed.nesting {m : Machine} (hm : m.WellFormed) (depth : Nat)
    {inspecting : List Handle} (hinspecting : ∀ h ∈ inspecting, m.Valid h) :
    Machine.WellFormed { m with depth, inspecting } :=
  hm.withRoots rfl hm.closed.globals hm.closed.constants hinspecting

/-- Elementary changes come to an end. -/
theorem Action.Made.ends {a : Action α} (ha : a.Made) (m : Machine) : a.Ends m := by
  induction ha generalizing m with
  | pure x => exact fun _ => nofun
  | @bind _ _ a f _ _ iha ihf =>
    intro m' hm'
    change EStateM.bind a f m = .error .exhausted m' at hm'
    unfold EStateM.bind at hm'
    cases hr : a m with
    | ok x m₁ =>
      rw [hr] at hm'
      exact ihf x m₁ m' hm'
    | error halt m₁ =>
      rw [hr] at hm'
      cases hm'
      exact iha m _ hr
  | ask _ => exact fun _ => nofun
  | @demand _ q _ =>
    intro m' hm'
    unfold Action.demand at hm'
    cases hq : q m <;> rw [hq] at hm' <;> cases hm'
  | fail f => exact fun _ => nofun
  | writeOut text =>
    intro m' hm'
    unfold Action.writeOut at hm'
    cases hfits : m.out.fits text <;> simp [hfits] at hm'
  | writeErr text =>
    intro m' hm'
    unfold Action.writeErr at hm'
    cases hfits : m.err.fits text <;> simp [hfits] at hm'
  | allocate | changeObject | hashSet | setGlobal | setConstant => exact fun _ => nofun

/-- The value of an effect is a valid handle or no handle at all, so it stands for itself. -/
theorem Effect.value_self {π : Permit} {K : Pairing} {a a' : Action α} {V : Pairing → α → α → Prop}
    (h : Effect Eq π K a a' V) {m : Machine} (hm : m.WellFormed) {x x' : α}
    (hx : V hm.pairing x x') : V hm.pairing x x := by
  cases h with
  | allocate | instantiate | singletonClassOf | openClass | openModule => exact ⟨rfl, hx.2⟩
  | _ => exact rfl

namespace Maintained

variable {I : Machine → Prop} {m : Machine} {V : Pairing → α → α → Prop} {a a' : Action α}

theorem trans {m₁ : Machine} {r r' : EStateM.Result Halt Machine α} (h : Maintained I m₁ V r r')
    (hsize : m.heap.size ≤ m₁.heap.size) : Maintained I m V r r' := by
  cases h with
  | ok hm₁ hI hsize' hx => exact .ok hm₁ hI (Nat.le_trans hsize hsize') hx
  | error hm₁ hI => exact .error hm₁ hI
  | exhausted => exact .exhausted

theorem bind {W : Pairing → β → β → Prop} {f f' : α → Action β} (ha : Maintained I m V (a m) (a' m))
    (hf : ∀ {m₁ : Machine} (hm₁ : m₁.WellFormed) {x x'}, I m₁ → m.heap.size ≤ m₁.heap.size →
      V hm₁.pairing x x' → Maintained I m₁ W (f x m₁) (f' x' m₁)) :
    Maintained I m W ((a >>= f) m) ((a' >>= f') m) := by
  change Maintained I m W (EStateM.bind a f m) (EStateM.bind a' f' m)
  unfold EStateM.bind
  generalize a m = r, a' m = r' at ha
  cases ha with
  | ok hm₁ hI hsize hx => exact (hf hm₁ hI hsize hx).trans hsize
  | error hm₁ hI => exact .error hm₁ hI
  | exhausted => exact .exhausted

theorem effect {π : Permit} (hinv : Invariant π I) {K : Pairing} (h : Effect Eq π K a a' V)
    (hm : m.WellFormed) (hK : K = hm.pairing) (hI : I m) : Maintained I m V (a m) (a' m) := by
  obtain ⟨rfl, _, _⟩ := h.eq_and_made (hK ▸ hm.pairing_le_same)
  have hI₁ := hinv.effect hm hK hI h
  have hpreserved := h.preserves hm hK
  unfold Action.leaves at hI₁
  generalize a m = r at hI₁ hpreserved
  cases hpreserved with
  | ok hm₁ hsize hx => exact .ok hm₁ hI₁ hsize (h.value_self hm₁ hx)
  | error hm₁ hsize => exact .error hm₁ hI₁

section Nesting

variable (hheap : ∀ m m' : Machine, m'.heap = m.heap → I m → I m')

include hheap

/-- A body that runs between two changes to the nesting. -/
theorem around {m₀ : Machine} (hstart : m₀.heap = m.heap) (back : Machine → Machine)
    (ha : Maintained I m₀ V (a m₀) (a' m₀))
    (hback : ∀ m₁ : Machine, m₁.WellFormed → (back m₁).WellFormed ∧ (back m₁).heap = m₁.heap) :
    Maintained I m V
      (match a m₀ with
        | .ok x m₁ => .ok x (back m₁)
        | .error halt m₁ => .error halt (back m₁))
      (match a' m₀ with
        | .ok x m₁ => .ok x (back m₁)
        | .error halt m₁ => .error halt (back m₁)) := by
  generalize a m₀ = r, a' m₀ = r' at ha
  cases ha with
  | @ok x x' m₁ hm₁ hI hsize hx =>
    obtain ⟨hwell, hsame⟩ := hback m₁ hm₁
    refine .ok hwell (hheap _ _ hsame hI) ?_ ?_
    · rw [hsame, ← hstart]
      exact hsize
    · rw [hm₁.pairing_congr hwell hsame]
      exact hx
  | @error halt m₁ hm₁ hI =>
    obtain ⟨hwell, hsame⟩ := hback m₁ hm₁
    exact .error hwell (hheap _ _ hsame hI)
  | exhausted => exact .exhausted

/-- The depth of calls is no part of an invariant. -/
theorem nested (hm : m.WellFormed) (hI : I m)
    (ha : ∀ m₁ : Machine, (hm₁ : m₁.WellFormed) → m₁.heap = m.heap → I m₁ →
      Maintained I m₁ V (a m₁) (a' m₁)) :
    Maintained I m V (Action.nested a m) (Action.nested a' m) := by
  unfold Action.nested
  split
  · exact .error hm hI
  · have hdeeper := hm.nesting (m.depth + 1) hm.closed.inspecting
    have hstart : { m with depth := m.depth + 1 }.heap = m.heap := rfl
    refine around hheap hstart (fun m₁ => { m₁ with depth := m₁.depth - 1 })
      (ha _ hdeeper hstart (hheap _ _ hstart hI)) fun m₁ hm₁ => ⟨?_, rfl⟩
    exact hm₁.nesting _ hm₁.closed.inspecting

theorem inspecting (hm : m.WellFormed) {h : Handle} (hh : m.Valid h)
    (ha : ∀ m₁ : Machine, (hm₁ : m₁.WellFormed) → m₁.heap = m.heap →
      Maintained I m₁ V (a m₁) (a' m₁)) :
    Maintained I m V (Action.inspecting h a m) (Action.inspecting h a' m) := by
  unfold Action.inspecting
  have hmarked : Machine.WellFormed { m with inspecting := h :: m.inspecting } := by
    refine hm.nesting m.depth fun x hx => ?_
    rcases List.mem_cons.mp hx with rfl | hx
    · exact hh
    · exact hm.closed.inspecting x hx
  have hstart : { m with inspecting := h :: m.inspecting }.heap = m.heap := rfl
  refine around hheap hstart (fun m₁ => { m₁ with inspecting := m₁.inspecting.erase h })
    (ha _ hmarked hstart) fun m₁ hm₁ => ⟨?_, rfl⟩
  exact hm₁.nesting m₁.depth fun x hx => hm₁.closed.inspecting x (List.mem_of_mem_erase hx)

end Nesting

/-- Tests that let every well-formed state with `I` pass change nothing. -/
theorem tested (ha : Maintained I m V (a m) (a' m)) {ok : Machine → Bool}
    (hok : ∀ s : Machine, s.WellFormed → I s → ok s = true) (hm : m.WellFormed) (hI : I m) :
    Maintained I m V (a m) (a'.tested ok m) := by
  unfold Action.tested
  rw [if_pos (hok m hm hI)]
  generalize a m = r, a' m = r' at ha
  cases ha with
  | ok hm₁ hI₁ hsize hx =>
    simp only [hok _ hm₁ hI₁, if_true]
    exact .ok hm₁ hI₁ hsize hx
  | error hm₁ hI₁ =>
    simp only [hok _ hm₁ hI₁, if_true]
    exact .error hm₁ hI₁
  | exhausted => exact .exhausted

theorem leaves (h : Maintained I m V (a m) (a' m)) (hends : a.Ends m) :
    (a.leaves m).WellFormed ∧ I (a.leaves m) := by
  unfold Action.leaves
  unfold Action.Ends at hends
  generalize a m = r, a' m = r' at h hends
  cases h with
  | ok hm₁ hI _ _ => exact ⟨hm₁, hI⟩
  | error hm₁ hI => exact ⟨hm₁, hI⟩
  | @exhausted m₁ _ => exact absurd rfl (hends m₁)

/-- A run that ends leaves the same state behind as its copy. -/
theorem leaves_eq (h : Maintained I m V (a m) (a' m)) (hends : a.Ends m) :
    a'.leaves m = a.leaves m := by
  unfold Action.leaves
  unfold Action.Ends at hends
  generalize a m = r, a' m = r' at h hends
  cases h with
  | ok _ _ _ _ => rfl
  | error _ _ => rfl
  | @exhausted m₁ _ => exact absurd rfl (hends m₁)

theorem ends (h : Maintained I m V (a m) (a' m)) (hends : a.Ends m) : a'.Ends m := by
  unfold Action.Ends at *
  generalize a m = r, a' m = r' at h hends
  cases h with
  | ok _ _ _ _ => exact fun _ => nofun
  | error _ _ => exact hends
  | @exhausted m₁ _ => exact absurd rfl (hends m₁)

end Maintained

/-- **What is alike maintains an invariant.**  The pairing is that of the machine an action starts on,
and it grows with the heap. -/
theorem Alike.maintains {π : Permit} {I : Machine → Prop} (hinv : Invariant π I) {e e' : Engine}
    (he : MaintainingEngine I e e') {K : Pairing} {a a' : Action α} {V : Pairing → α → α → Prop}
    (h : Alike Eq π e e' K a a' V) {m : Machine} (hm : m.WellFormed) (hK : K = hm.pairing)
    (hI : I m) : Maintained I m V (a m) (a' m) := by
  induction h generalizing m with
  | pure hx =>
    subst hK
    exact .ok hm hI (Nat.le_refl _) hx
  | bind _ _ iha ihf =>
    subst hK
    refine .bind (iha hm rfl hI) fun hm₁ _ _ hI₁ hsize hx => ?_
    -- Handles that were valid before the first part are valid after it.
    exact ihf hm₁.pairing _ _ (Pairing.below_le _ hsize) hx hm₁ rfl hI₁
  | question hq _ _ ih =>
    subst hK
    obtain ⟨fault, hx, hx'⟩ | ⟨x, x', hx, hx', hQ⟩ := (hq m m (hm.paired fun _ => rfl)).elim
    · rw [Action.demand_bind_of_error hx, Action.demand_bind_of_error hx']
      exact .error hm hI
    · rw [Action.demand_bind_of_ok hx, Action.demand_bind_of_ok hx']
      exact ih x x' hQ hm rfl hI
  | fail f => exact .error hm hI
  | overrun request => exact .error hm hI
  | exhausted _ a' => exact .exhausted
  | effect heffect => exact .effect hinv heffect hm hK hI
  | inspecting hh _ ih =>
    subst hK
    cases hh.1
    refine .inspecting hinv.heap hm hh.2 fun m₁ hm₁ hheap => ?_
    exact ih hm₁ (hm.pairing_congr hm₁ hheap).symm (hinv.heap _ _ hheap hI)
  | call name hreceiver hfound hargs =>
    subst hK
    cases hreceiver.1
    cases hfound.eq hm.pairing_le_same
    cases hargs.eq hm.pairing_le_same
    exact he.call hm hI name hreceiver.2 hfound hargs
  | evaluate hrecord hcontext hargs =>
    subst hK
    cases hrecord
    cases hcontext.eq hm.pairing_le_same
    cases hargs.eq hm.pairing_le_same
    exact he.evaluate hm hI _ hcontext hargs

/-! ## All programs -/

/-- Two probes that leave maintained what maintaining engines do. -/
structure MaintainingProbe (I : Machine → Prop) (p p' : Probe) : Prop where
  call : ∀ {m : Machine}, m.WellFormed → I m → ∀ {a a' : Action Handle},
    Maintained I m Pairing.rel (a m) (a' m) → Maintained I m Pairing.rel (p.call a m) (p'.call a' m)
  body : ∀ {m : Machine}, m.WellFormed → I m → ∀ (found : Found) {a a' : Action Handle},
    Maintained I m Pairing.rel (a m) (a' m) →
    Maintained I m Pairing.rel (p.body found a m) (p'.body found a' m)
  evaluation : ∀ {m : Machine}, m.WellFormed → I m → ∀ {a a' : Action Handle},
    Maintained I m Pairing.rel (a m) (a' m) →
    Maintained I m Pairing.rel (p.evaluation a m) (p'.evaluation a' m)
  step : ∀ {e e' : Engine}, MaintainingEngine I e e' → ∀ {m : Machine} (hm : m.WellFormed), I m →
    ∀ (i : Placed) {f f' : Frame}, Frame.Paired Eq hm.pairing f f' →
    Maintained I m (Step.Left Eq Flow.Paired f.record) (p.step i f ((Step.take e i).on f) m)
      (p'.step i f' ((Step.take e' i).on f') m)

namespace MaintainingProbe

variable {π : Permit} {I : Machine → Prop} {p p' : Probe}

/-- A frame maintains the invariant, instruction by instruction. -/
theorem runFrom (hp : MaintainingProbe I p p') {e e' : Engine} (he : MaintainingEngine I e e')
    (rounds position : Nat) {f f' : Frame} {m : Machine} (hm : m.WellFormed) (hI : I m)
    (hf : Frame.Paired Eq hm.pairing f f') :
    Maintained I m Pairing.rel (p.runFrom e rounds position f m)
      (p'.runFrom e' rounds position f' m) := by
  induction rounds generalizing position f f' m with
  | zero => exact .exhausted
  | succ rounds ih =>
    rw [Probe.runFrom, Probe.runFrom, hf.record]
    cases f'.record.code.placed[position]? with
    | none => exact .ok hm hI (Nat.le_refl _) hm.pairing.nil
    | some i =>
      refine .bind (hp.step he hm hI i hf) ?_
      intro m₁ hm₁ x x' hI₁ _ hx
      obtain ⟨flow, g⟩ := x
      obtain ⟨flow', g'⟩ := x'
      obtain ⟨hflow, hg, _⟩ := hx
      cases hflow with
      | next => exact ih (position + 1) hm₁ hI₁ hg
      | jump target => exact ih target hm₁ hI₁ hg
      | leave hvalue => exact .ok hm₁ hI₁ (Nat.le_refl _) hvalue

/-- Engines under the two probes maintain an invariant, with any amount of fuel. -/
theorem engine (hp : MaintainingProbe I p p') (hinv : Invariant π I) (hgive : π.giveUp)
    (hreveal : π.revealLimit) (fuel : Nat) :
    MaintainingEngine I (p.engine fuel) (p'.engine fuel) := by
  induction fuel with
  | zero =>
    refine ⟨Nat.le_refl _, fun _ _ _ _ _ _ _ _ _ => ?_, fun _ _ _ _ _ _ _ => ?_⟩
    · simp only [Probe.engine, Probe.callFound]
      exact .exhausted
    · simp only [Probe.engine, Probe.evaluate]
      exact .exhausted
  | succ fuel ih =>
    refine ⟨Nat.le_refl _, ?_, ?_⟩
    · intro m hm hI receiver found args name hreceiver hfound hargs
      have hbody : Alike Eq π (p.engine fuel) (p'.engine fuel) hm.pairing
          (found.body (p.engine fuel) receiver name args)
          (found.body (p'.engine fuel) receiver name args) Pairing.rel :=
        Found.alike_body hgive (fun _ => hreveal) ih.fuel name hfound ⟨rfl, hreceiver⟩ hargs
      simp only [Probe.engine, Probe.callFound]
      refine hp.call hm hI (.nested hinv.heap hm hI fun m₁ hm₁ hheap hI₁ => ?_)
      exact hp.body hm₁ hI₁ found
        (hbody.maintains hinv ih hm₁ (hm.pairing_congr hm₁ hheap).symm hI₁)
    · intro m hm hI record context args hcontext hargs
      simp only [Probe.engine, Probe.evaluate]
      exact hp.evaluation hm hI (hp.runFrom ih _ 0 hm hI (.start rfl hcontext hargs))

theorem records (hp : MaintainingProbe I p p') (hinv : Invariant π I) (hgive : π.giveUp)
    (hreveal : π.revealLimit) (fuel : Nat) (rs : List Record) {last : Handle} {m : Machine}
    (hm : m.WellFormed) (hI : I m) (hlast : m.Valid last) :
    Maintained I m Pairing.rel (p.records fuel last rs m) (p'.records fuel last rs m) := by
  induction rs generalizing m last with
  | nil => exact .ok hm hI (Nat.le_refl _) ⟨rfl, hlast⟩
  | cons r rs ih =>
    have hcontext : Context.Paired hm.pairing .topLevel .topLevel :=
      ⟨hm.pairing.builtin _ (by decide), hm.pairing.builtin _ (by decide), .none⟩
    refine .bind ((hp.engine hinv hgive hreveal fuel).evaluate hm hI r hcontext .nil) ?_
    intro m₁ hm₁ x x' hI₁ _ hx
    cases hx.1
    exact ih hm₁ hI₁ hx.2

theorem image (hp : MaintainingProbe I p p') (hinv : Invariant π I) (hgive : π.giveUp)
    (hreveal : π.revealLimit) (fuel : Nat) (i : Image) {m : Machine} (hm : m.WellFormed) (hI : I m) :
    Maintained I m Pairing.rel (p.image fuel i m) (p'.image fuel i m) :=
  hp.records hinv hgive hreveal fuel i.records hm hI (Nat.lt_of_lt_of_le (by decide) hm.rooted.size)

end MaintainingProbe

/-- **A watched run maintains an invariant**, if the tests let every well-formed state with it pass. -/
theorem maintained_image {I : Machine → Prop} (hinv : Invariant .full I) (ok : Machine → Bool)
    (hok : ∀ s : Machine, s.WellFormed → I s → ok s = true) (fuel : Nat) (i : Image) {m : Machine}
    (hm : m.WellFormed) (hI : I m) :
    Maintained I m Pairing.rel (Run.image fuel i m) ((Probe.watch ok).image fuel i m) := by
  have hp : MaintainingProbe I .plain (.watch ok) :=
    { call := fun hm hI _ _ ha => ha.tested hok hm hI
      body := fun hm hI _ _ _ ha => ha.tested hok hm hI
      evaluation := fun hm hI _ _ ha => ha.tested hok hm hI
      step := fun {e e'} he m hm hI i f f' hf => by
        have htake : StepAlike Eq .full e e' hm.pairing (Step.take e i) (Step.take e' i)
            Flow.Paired := Step.alike_take sameCode_eq i (.full _)
        exact ((htake f f' hf _ rfl).maintains hinv he hm rfl hI).tested hok hm hI }
  rw [← Probe.image_plain]
  exact hp.image hinv trivial trivial fuel i hm hI

namespace Invariant

variable {I : Machine → Prop}

/-- An invariant that holds at the start holds in every machine at rest. -/
theorem reachable (hinv : Invariant .full I) (hboot : I Boot.machine) {m : Machine}
    (h : m.Reachable) : m.WellFormed ∧ I m := by
  induction h with
  | boot limits out err =>
    have hsame : (Machine.boot limits out err).heap = Boot.machine.heap := rfl
    exact ⟨Machine.boot_wellFormed limits out err, hinv.heap _ _ hsame hboot⟩
  | executed _ fuel i hends ih =>
    have hrun := maintained_image hinv (fun _ => true) (fun _ _ _ => rfl) fuel i ih.1 ih.2
    exact hrun.leaves hends

/-- **An invariant that holds at the start holds at every step of every run.** -/
theorem visited (hinv : Invariant .full I) (hboot : I Boot.machine) {m : Machine}
    (h : m.Visited) : m.WellFormed ∧ I m := by
  cases h with
  | resting h => exact hinv.reachable hboot h
  | during h fuel i hends hseen =>
    -- The test for the invariant itself is passed all along, so `m` cannot be one that fails it.
    by_contra hm
    classical
    obtain ⟨hm₀, hI₀⟩ := hinv.reachable hboot h
    have hrun := maintained_image hinv (fun s => decide (s.WellFormed ∧ I s))
      (fun s hs hIs => decide_eq_true ⟨hs, hIs⟩) fuel i hm₀ hI₀
    exact hseen _ (decide_eq_false hm) (hrun.ends hends)

end Invariant

theorem Machine.Reachable.wellFormed {m : Machine} (h : m.Reachable) : m.WellFormed := by
  have hinv : Invariant .full fun _ => True := ⟨fun _ _ _ => id, fun _ _ _ _ => trivial⟩
  exact (hinv.reachable trivial h).1

/-- **The heap is well-formed over whole runs.**  In every machine that programs lead to, stored
handles are inside the heap, every object has a class, superclasses are older classes, modules have
none, and singleton classes are classes of one object each.  So every line of descent is finite, has
no cycle and ends at `Object`. -/
theorem reachable_wellFormed (m : Machine) (h : m.Reachable) :
    m.WellFormed ∧
    (∀ c, m.isProperClass c = true → Relation.ReflTransGen m.HasParent c Handle.objectClass) ∧
    ∀ c, ¬ Relation.TransGen m.HasParent c c := by
  have hm := h.wellFormed
  exact ⟨hm, fun c hc => hm.rooted.descends hc, hm.rooted.acyclic⟩

/-- A script that makes a class, its singleton class and a module, and then asks for a constant that
is not bound. -/
def classScript : Record where
  symbols := ["Point", "Shape", "Missing"]
  code :=
    { placed :=
        #[⟨0, { op := .openClass, a := 1, b := 0 }⟩, ⟨3, { op := .singletonClass, a := 1 }⟩,
          ⟨5, { op := .openModule, a := 1, b := 1 }⟩, ⟨8, { op := .getConst, a := 1, b := 2 }⟩]
      size := 11 }

/-- The machine that the script leaves behind when it fails. -/
def afterClassScript : Machine :=
  (Run.image 9 { (default : Image) with records := [classScript] }).leaves Boot.machine

theorem reachable_wellFormed_afterClassScript :
    afterClassScript.Reachable ∧ afterClassScript.isProperClass ⟨18⟩ = true ∧
    afterClassScript.WellFormed ∧
    Relation.ReflTransGen afterClassScript.HasParent ⟨18⟩ Handle.objectClass := by
  have hends : (Run.image 9 { (default : Image) with records := [classScript] }).Ends Boot.machine := by
    intro m' hm'
    have hfault : (match Run.image 9 { (default : Image) with records := [classScript] } Boot.machine with
        | .error (.fault f) _ => f == .uninitializedConstant "Missing"
        | _ => false) = true := by decide +kernel
    rw [hm'] at hfault
    exact Bool.false_ne_true hfault
  have hreachable : afterClassScript.Reachable := .executed (.boot {} {} {}) 9 _ hends
  have hclass : afterClassScript.isProperClass ⟨18⟩ = true := by decide +kernel
  obtain ⟨hwell, hdescends, _⟩ := reachable_wellFormed afterClassScript hreachable
  exact ⟨hreachable, hclass, hwell, hdescends ⟨18⟩ hclass⟩

end Rite
