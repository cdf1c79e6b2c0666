import Rite.Proofs.Comparison

/-!
# Call depth and inspections in progress

A machine counts the calls in progress and remembers the collections whose `inspect` is in progress.
Both are raised on the way into a call or an inspection and must be lowered on every way out, also
when a fault passes through from any level of nesting.

The states in between are spoken of with a probe (`Rite.Proofs.Probes`): `Probe.watch` tests the
machine before and after every call, at the start and at the end of every method body, where the depth
is one more, and before and after every evaluation and every instruction.  A run that fails a test
ends at once, as if out of fuel.  If the watched run ends as the plain one does, all tests were
passed.

`nesting_restored` is the main result: depth and inspections come out as they went in, and no test
that lets every depth up to the limit pass is ever failed.
-/

namespace Rite

variable {α β : Type}

/-! ## Watched runs -/

/-- Test the machine before and after an action. -/
def Action.tested (ok : Machine → Bool) (a : Action α) : Action α := fun m =>
  if ok m then
    match a m with
    | .ok x m => if ok m then .ok x m else .error .exhausted m
    | .error h m => if ok m then .error h m else .error .exhausted m
  else .error .exhausted m

/-- The probe that tests the machine before and after everything. -/
def Probe.watch (ok : Machine → Bool) : Probe where
  call := .tested ok
  body _ := .tested ok
  evaluation := .tested ok
  step _ _ := .tested ok

/-! ## Bookkeeping that stays -/

/-- Two states with the same calls and the same inspections in progress, under the same limits. -/
structure Machine.SameNesting (m m' : Machine) : Prop where
  depth : m'.depth = m.depth
  inspecting : m'.inspecting = m.inspecting
  limits : m'.limits = m.limits

namespace Machine.SameNesting

variable {m m₁ m₂ : Machine}

theorem refl (m : Machine) : m.SameNesting m := ⟨rfl, rfl, rfl⟩

theorem trans (h : m.SameNesting m₁) (h' : m₁.SameNesting m₂) : m.SameNesting m₂ :=
  ⟨h'.depth.trans h.depth, h'.inspecting.trans h.inspecting, h'.limits.trans h.limits⟩

theorem depth_le (h : m.SameNesting m₁) (hm : m.depth ≤ m.limits.maxCallDepth) :
    m₁.depth ≤ m₁.limits.maxCallDepth := by
  rw [h.depth, h.limits]
  exact hm

/-- A call raises the depth and lowers it again. -/
theorem leave (h : SameNesting { m with depth := m.depth + 1 } m₁) :
    m.SameNesting { m₁ with depth := m₁.depth - 1 } := by
  refine ⟨?_, h.inspecting, h.limits⟩
  have hdepth : m₁.depth = m.depth + 1 := h.depth
  change m₁.depth - 1 = m.depth
  omega

/-- An inspection puts its mark in front and takes the first such mark away. -/
theorem unmark {x : Handle} (h : SameNesting { m with inspecting := x :: m.inspecting } m₁) :
    m.SameNesting { m₁ with inspecting := m₁.inspecting.erase x } := by
  refine ⟨h.depth, ?_, h.limits⟩
  change m₁.inspecting.erase x = m.inspecting
  rw [h.inspecting, List.erase_cons_head]

end Machine.SameNesting

/-- The machine that an action leaves behind, with a value or without. -/
def Action.leaves (a : Action α) (m : Machine) : Machine :=
  match a m with
  | .ok _ m' => m'
  | .error _ m' => m'

/-- The action ends on its own, and not for want of fuel. -/
def Action.Ends (a : Action α) (m : Machine) : Prop := ∀ m', a m ≠ .error .exhausted m'

/-- Whether an action comes to a value. -/
def Action.succeeds (a : Action α) (m : Machine) : Bool :=
  match a m with
  | .ok _ _ => true
  | .error _ _ => false

theorem Action.Ends.of_succeeds {a : Action α} {m : Machine} (h : a.succeeds m = true) : a.Ends m := by
  intro m' hm'
  unfold Action.succeeds at h
  rw [hm'] at h
  exact Bool.false_ne_true h

/-- An action that leaves the bookkeeping alone. -/
def Action.Keeps (a : Action α) : Prop := ∀ m : Machine, m.SameNesting (a.leaves m)

theorem Action.Keeps.bind {a : Action α} {f : α → Action β} (ha : a.Keeps) (hf : ∀ x, (f x).Keeps) :
    (a >>= f).Keeps := by
  intro m
  have hm := ha m
  change m.SameNesting (Action.leaves (EStateM.bind a f) m)
  unfold Action.leaves EStateM.bind at *
  cases hr : a m with
  | error h m₁ =>
    rw [hr] at hm
    exact hm
  | ok x m₁ =>
    rw [hr] at hm
    exact hm.trans (hf x m₁)

/-- No elementary change touches the bookkeeping. -/
theorem Action.Made.keeps {a : Action α} (ha : a.Made) : a.Keeps := by
  induction ha with
  | pure x => exact fun m => .refl m
  | bind _ _ iha ihf => exact iha.bind ihf
  | ask _ => exact fun m => .refl m
  | @demand _ q _ =>
    intro m
    unfold Action.leaves Action.demand
    cases q m <;> exact .refl m
  | fail f => exact fun m => .refl m
  | writeOut text =>
    intro m
    unfold Action.leaves Action.writeOut
    cases m.out.fits text <;> exact ⟨rfl, rfl, rfl⟩
  | writeErr text =>
    intro m
    unfold Action.leaves Action.writeErr
    cases m.err.fits text <;> exact ⟨rfl, rfl, rfl⟩
  | allocate | changeObject | hashSet | setGlobal | setConstant => exact fun _ => ⟨rfl, rfl, rfl⟩

/-! ## The watched run follows the plain one -/

/-- How a run from `m` and its watched copy end.  The run leaves the bookkeeping of `m`; unless it is
out of fuel, the copy ends in the same state, with the same halt or with values that `V` relates. -/
inductive Followed (m : Machine) (V : α → α → Prop) :
    EStateM.Result Halt Machine α → EStateM.Result Halt Machine α → Prop
  | ok {x x' : α} {m₁ : Machine} (h : m.SameNesting m₁) (hx : V x x') :
      Followed m V (.ok x m₁) (.ok x' m₁)
  | error {halt : Halt} {m₁ : Machine} (h : m.SameNesting m₁) :
      Followed m V (.error halt m₁) (.error halt m₁)
  | exhausted {m₁ : Machine} {r : EStateM.Result Halt Machine α} (h : m.SameNesting m₁) :
      Followed m V (.error .exhausted m₁) r

/-- The watched action `a'` follows `a` from every state within the call limit. -/
def Follows (V : α → α → Prop) (a a' : Action α) : Prop :=
  ∀ m : Machine, m.depth ≤ m.limits.maxCallDepth → Followed m V (a m) (a' m)

namespace Follows

variable {a a' : Action α} {V : α → α → Prop}

theorem bind {W : β → β → Prop} {f f' : α → Action β} (ha : Follows V a a')
    (hf : ∀ x x', V x x' → Follows W (f x) (f' x')) : Follows W (a >>= f) (a' >>= f') := by
  intro m hm
  change Followed m W (EStateM.bind a f m) (EStateM.bind a' f' m)
  unfold EStateM.bind
  have hr := ha m hm
  generalize a m = r, a' m = r' at hr
  cases hr with
  | error h => exact .error h
  | exhausted h => exact .exhausted h
  | @ok x x' m₁ h hx =>
    dsimp only
    -- The first part left the depth alone, so the second starts within the limit as well.
    have hs := hf x x' hx m₁ (h.depth_le hm)
    generalize f x m₁ = s, f' x' m₁ = s' at hs
    cases hs with
    | error h' => exact .error (h.trans h')
    | exhausted h' => exact .exhausted (h.trans h')
    | ok h' hy => exact .ok (h.trans h') hy

theorem pure {x x' : α} (hx : V x x') : Follows V (Pure.pure x) (Pure.pure x') :=
  fun m _ => .ok (.refl m) hx

/-- A call raises the depth to at most the limit. -/
theorem nested (ha : Follows V a a') : Follows V (Action.nested a) (Action.nested a') := by
  intro m hm
  unfold Action.nested
  split
  · exact .error (.refl m)
  · -- There was room for one more call, so its body starts within the limit.
    have hr := ha { m with depth := m.depth + 1 } (by dsimp only; omega)
    generalize a { m with depth := m.depth + 1 } = r, a' { m with depth := m.depth + 1 } = r' at hr
    cases hr with
    | error h => exact .error h.leave
    | exhausted h => exact .exhausted h.leave
    | ok h hx => exact .ok h.leave hx

theorem inspecting (h : Handle) (ha : Follows V a a') :
    Follows V (Action.inspecting h a) (Action.inspecting h a') := by
  intro m hm
  unfold Action.inspecting
  have hr := ha { m with inspecting := h :: m.inspecting } hm
  generalize a { m with inspecting := h :: m.inspecting } = r,
    a' { m with inspecting := h :: m.inspecting } = r' at hr
  cases hr with
  | error h => exact .error h.unmark
  | exhausted h => exact .exhausted h.unmark
  | ok h hx => exact .ok h.unmark hx

/-- Tests that let every depth up to the limit pass change nothing. -/
theorem tested {ok : Machine → Bool}
    (hok : ∀ s : Machine, s.depth ≤ s.limits.maxCallDepth → ok s = true) (ha : Follows V a a') :
    Follows V a (a'.tested ok) := by
  intro m hm
  unfold Action.tested
  rw [if_pos (hok m hm)]
  have hr := ha m hm
  generalize a m = r, a' m = r' at hr
  cases hr with
  | error h =>
    simp only [hok _ (h.depth_le hm), if_true]
    exact .error h
  -- Nothing is asked of the copy of a run that is out of fuel.
  | exhausted h => exact .exhausted h
  | ok h hx =>
    simp only [hok _ (h.depth_le hm), if_true]
    exact .ok h hx

/-- Outside of running out of fuel, the watched run is the plain run. -/
theorem eq_of_ends (ha : Follows Eq a a') {m : Machine} (hm : m.depth ≤ m.limits.maxCallDepth)
    (hends : a.Ends m) : a' m = a m := by
  have hr := ha m hm
  unfold Action.Ends at hends
  generalize a m = r, a' m = r' at hr hends
  cases hr with
  | ok h hx => rw [hx]
  | error _ => rfl
  | exhausted h => exact absurd rfl (hends _)

theorem leaves (ha : Follows V a a') {m : Machine} (hm : m.depth ≤ m.limits.maxCallDepth) :
    m.SameNesting (a.leaves m) := by
  have hr := ha m hm
  unfold Action.leaves
  generalize a m = r, a' m = r' at hr
  cases hr with
  | ok h hx => exact h
  | error h => exact h
  | exhausted h => exact h

end Follows

/-- To be followed is a way of comparing runs. -/
theorem follows_comparison : Comparison Follows where
  pure hx := .pure hx
  bind ha hf := ha.bind hf
  demand {_ _ Q W q q' f f'} hq hf := by
    intro m hm
    -- Both sides ask one and the same machine, which is paired with itself.
    obtain ⟨fault, hx, hx'⟩ | ⟨x, x', hx, hx', hQ⟩ :=
      (hq m m (.refl_same (fun _ => rfl) m)).elim
    · rw [Action.demand_bind_of_error hx, Action.demand_bind_of_error hx']
      exact .error (.refl m)
    · rw [Action.demand_bind_of_ok hx, Action.demand_bind_of_ok hx']
      exact hf x x' hQ m hm
  fail f := fun m _ => .error (.refl m)
  overrun request := fun m _ => .error (.refl m)
  exhausted _ := fun m _ => .exhausted (.refl m)
  made {_ V a} ha hV := by
    intro m _
    have hm := ha.keeps m
    unfold Action.leaves at hm
    cases hr : a m with
    | ok x m₁ =>
      rw [hr] at hm
      exact .ok hm (hV x)
    | error halt m₁ =>
      rw [hr] at hm
      exact .error hm
  inspecting h ha := ha.inspecting h
  nested ha := ha.nested

/-! ## All programs -/

section Programs

variable {ok : Machine → Bool}

/-- The watched run follows the plain one, if the tests let every depth up to the limit pass. -/
theorem follows_watch (hok : ∀ s : Machine, s.depth ≤ s.limits.maxCallDepth → ok s = true) :
    ComparedProbe Follows .plain (.watch ok) :=
  { follows_comparison.toSequential with
    call := fun ha => ha.tested hok
    body := fun he receiver found name args =>
      (follows_comparison.body he receiver found name args).tested hok
    evaluation := fun ha => ha.tested hok
    step := fun he i _ _ hf => (follows_comparison.step he i hf).tested hok }

theorem follows_engine (hok : ∀ s : Machine, s.depth ≤ s.limits.maxCallDepth → ok s = true)
    (fuel : Nat) : ComparedEngine Follows (Run.engine fuel) ((Probe.watch ok).engine fuel) := by
  rw [← Probe.engine_plain]
  exact (follows_watch hok).engine (Nat.le_refl fuel)

theorem follows_records (hok : ∀ s : Machine, s.depth ≤ s.limits.maxCallDepth → ok s = true)
    (fuel : Nat) (last : Handle) (rs : List Record) :
    Follows Eq (Run.records fuel last rs) ((Probe.watch ok).records fuel last rs) := by
  rw [← Probe.records_plain]
  exact (follows_watch hok).records (Nat.le_refl fuel) last rs

/-- A test that fails where a method body would start is noticed. -/
theorem Probe.not_ends_watch (fuel : Nat) (receiver : Handle) (found : Found) (name : String)
    (args : List Handle) {s : Machine} (hroom : s.depth < s.limits.maxCallDepth)
    (hrejected : ok { s with depth := s.depth + 1 } = false) :
    ¬ ((Probe.watch ok).callFound fuel receiver found name args).Ends s := by
  intro hends
  refine hends s ?_
  cases fuel with
  | zero => simp only [Probe.callFound, Action.exhausted]
  | succ fuel =>
    -- Whatever the body is, it does not start: the test in front of it comes first.
    have hbody : ∀ body : Action Handle,
        Action.nested (body.tested ok) s = .error .exhausted s := by
      intro body
      unfold Action.nested Action.tested
      simp only [hrejected, Bool.false_eq_true, if_false, Nat.not_le.mpr hroom,
        Nat.add_sub_cancel]
    rw [Probe.callFound]
    change Action.tested ok (Action.nested (Action.tested ok _)) s = _
    rw [Action.tested, hbody]
    simp only [ite_self]

end Programs

/-- What a caller may count on when it sets off `a` on `m`: depth and inspections come out as they
went in, and the watched copy of `a`, if `a` ends at all, ends in the same way. -/
structure Action.RestoresNesting (a watched : Action α) (m : Machine) : Prop where
  depth : (a.leaves m).depth = m.depth
  inspecting : (a.leaves m).inspecting = m.inspecting
  undisturbed : a.Ends m → watched m = a m

theorem Follows.restoresNesting {a a' : Action α} (ha : Follows Eq a a') {m : Machine}
    (hm : m.depth ≤ m.limits.maxCallDepth) : a.RestoresNesting a' m :=
  ⟨(ha.leaves hm).depth, (ha.leaves hm).inspecting, ha.eq_of_ends hm⟩

/-- **Call bookkeeping is restored on every exit path, and the limit is never exceeded.**  From a
state within the call limit, and whatever they end with, sending a message, calling a method that has
been looked up, asking for a text or a literal form, and evaluating an image or a record leave depth
and inspections as they were.  While they run, no test fails that lets every depth up to the limit
pass.  The last part says that tests count: a call whose body would start in a state that is not let
pass does not end. -/
theorem nesting_restored (ok : Machine → Bool)
    (hok : ∀ s : Machine, s.depth ≤ s.limits.maxCallDepth → ok s = true) (fuel : Nat) (m : Machine)
    (hm : m.depth ≤ m.limits.maxCallDepth) :
    (∀ receiver name args, ((Run.engine fuel).send receiver name args).RestoresNesting
      (((Probe.watch ok).engine fuel).send receiver name args) m) ∧
    (∀ receiver found name args, (Run.call fuel receiver found name args).RestoresNesting
      ((Probe.watch ok).callFound fuel receiver found name args) m) ∧
    (∀ h, ((Run.engine fuel).inspect h).RestoresNesting (((Probe.watch ok).engine fuel).inspect h) m) ∧
    (∀ h, ((Run.engine fuel).toText h).RestoresNesting (((Probe.watch ok).engine fuel).toText h) m) ∧
    (∀ i, (Run.image fuel i).RestoresNesting ((Probe.watch ok).image fuel i) m) ∧
    (∀ r, (Run.record fuel r).RestoresNesting ((Probe.watch ok).record fuel r) m) ∧
    (∀ (strict : Machine → Bool) receiver found name args, m.depth < m.limits.maxCallDepth →
      strict { m with depth := m.depth + 1 } = false →
      ¬ ((Probe.watch strict).callFound fuel receiver found name args).Ends m) := by
  have he := follows_engine hok fuel
  refine ⟨?_, ?_, ?_, ?_, ?_, ?_, ?_⟩
  · intro receiver name args
    refine Follows.restoresNesting ?_ hm
    exact follows_comparison.alike he (Alike.send (π := .full) rfl name (.same args)) rfl
  · intro receiver found name args
    exact (he.call receiver found name args).restoresNesting hm
  · intro h
    exact (follows_comparison.alike he (Alike.inspect (π := .full) rfl) rfl).restoresNesting hm
  · intro h
    exact (follows_comparison.alike he (Alike.toText (π := .full) rfl) rfl).restoresNesting hm
  · intro i
    exact (follows_records hok fuel Handle.nil i.records).restoresNesting hm
  · intro r
    exact (he.evaluate r .topLevel []).restoresNesting hm
  · intro strict receiver found name args hroom hrejected
    exact Probe.not_ends_watch fuel receiver found name args hroom hrejected

/-- A machine with one call in progress, room for one more, and an array that holds `main`. -/
def crowded : Machine :=
  let m := Machine.boot { maxCallDepth := 2 } {} {}
  { m with
    heap := m.heap.push { isa := Handle.arrayClass, payload := .array #[Handle.mainObject] }
    depth := 1
    inspecting := [Handle.mainObject] }

/-- The literal form of that array needs one call too many: the fault leaves from inside the
inspection, two levels down, and depth and inspections are restored all the same. -/
theorem nesting_restored_crowded :
    crowded.depth ≤ crowded.limits.maxCallDepth ∧
    ((Run.engine 5).inspect ⟨18⟩).Ends crowded ∧
    ((Run.engine 5).inspect ⟨18⟩).RestoresNesting
      (((Probe.watch fun s => s.depth ≤ s.limits.maxCallDepth).engine 5).inspect ⟨18⟩) crowded := by
  refine ⟨by decide, fun m' hm' => ?_, ?_⟩
  · have hfault : (match (Run.engine 5).inspect ⟨18⟩ crowded with
        | .error (.fault f) _ => f == .stackTooDeep
        | _ => false) = true := by decide +kernel
    rw [hm'] at hfault
    exact Bool.false_ne_true hfault
  · exact (nesting_restored (fun s => s.depth ≤ s.limits.maxCallDepth) (fun _ hs => decide_eq_true hs)
      5 crowded (by decide)).2.2.1 ⟨18⟩

end Rite
