import Rite.Machine.Capture
import Rite.Proofs.Comparison

/-!
# Raising the call limit

The call limit is looked at in one place, on the way into a call, and all that comes of it is a
refusal.  A run that was never refused therefore goes the same way under any higher limit.

`Outlasts n` compares a run with its copy under the limit `n`: the copy passes through the same
states, but for the limit, until the run ends or is refused a call.  `callLimit_raised` says what
this means for a whole program: its output and its result are those of every higher limit, unless
the result is that the stack is too deep.
-/

namespace Rite

variable {α β : Type}

/-- The machine with another call limit. -/
def Machine.withCallLimit (m : Machine) (n : Nat) : Machine := m.equipped m.out m.err n

/-- How a run from `m` and its copy under the call limit `n` end.  Where the run was refused a call,
or was out of fuel, nothing is said about the copy. -/
inductive Outlasted (n : Nat) (m : Machine) (V : α → α → Prop) :
    EStateM.Result Halt Machine α → EStateM.Result Halt Machine α → Prop
  | ok {x x' : α} {m₁ : Machine} (hlimits : m₁.limits = m.limits) (hx : V x x') :
      Outlasted n m V (.ok x m₁) (.ok x' (m₁.withCallLimit n))
  | error {halt : Halt} {m₁ : Machine} :
      Outlasted n m V (.error halt m₁) (.error halt (m₁.withCallLimit n))
  | refused {m₁ : Machine} {r : EStateM.Result Halt Machine α} :
      Outlasted n m V (.error (.fault .stackTooDeep) m₁) r
  | exhausted {m₁ : Machine} {r : EStateM.Result Halt Machine α} :
      Outlasted n m V (.error .exhausted m₁) r

/-- Under any limit up to `n`, the action `a` ends as `a'` does under the limit `n`. -/
def Outlasts (n : Nat) (V : α → α → Prop) (a a' : Action α) : Prop :=
  ∀ m : Machine, m.limits.maxCallDepth ≤ n → Outlasted n m V (a m) (a' (m.withCallLimit n))

namespace Outlasts

variable {n : Nat} {V : α → α → Prop} {a a' : Action α}

theorem pure {x x' : α} (hx : V x x') : Outlasts n V (Pure.pure x) (Pure.pure x') :=
  fun _ _ => .ok rfl hx

theorem bind {W : β → β → Prop} {f f' : α → Action β} (ha : Outlasts n V a a')
    (hf : ∀ x x', V x x' → Outlasts n W (f x) (f' x')) : Outlasts n W (a >>= f) (a' >>= f') := by
  intro m hm
  change Outlasted n m W (EStateM.bind a f m) (EStateM.bind a' f' (m.withCallLimit n))
  unfold EStateM.bind
  have hr := ha m hm
  generalize a m = r, a' (m.withCallLimit n) = r' at hr
  cases hr with
  | error => exact .error
  | refused => exact .refused
  | exhausted => exact .exhausted
  | @ok x x' m₁ hlimits hx =>
    dsimp only
    -- The limit is still the one of `m`, so the second part starts below `n` as well.
    have hs := hf x x' hx m₁ (by rw [hlimits]; exact hm)
    generalize f x m₁ = s, f' x' (m₁.withCallLimit n) = s' at hs
    cases hs with
    | error => exact .error
    | refused => exact .refused
    | exhausted => exact .exhausted
    | ok hlimits' hy => exact .ok (hlimits'.trans hlimits) hy

/-- A body that runs between two changes to the machine that have nothing to do with limits. -/
theorem around (ha : Outlasts n V a a') {m m₀ : Machine} (hm : m.limits.maxCallDepth ≤ n)
    (hstart : m₀.limits = m.limits) {back : Machine → Machine}
    (hback : ∀ m₁, (back m₁).limits = m₁.limits ∧
      back (m₁.withCallLimit n) = (back m₁).withCallLimit n) :
    Outlasted n m V
      (match a m₀ with
        | .ok x m₁ => .ok x (back m₁)
        | .error halt m₁ => .error halt (back m₁))
      (match a' (m₀.withCallLimit n) with
        | .ok x m₁ => .ok x (back m₁)
        | .error halt m₁ => .error halt (back m₁)) := by
  have hr := ha m₀ (by rw [hstart]; exact hm)
  generalize a m₀ = r, a' (m₀.withCallLimit n) = r' at hr
  cases hr with
  | @ok x x' m₁ hlimits hx =>
    dsimp only
    rw [(hback m₁).2]
    exact .ok (((hback m₁).1.trans hlimits).trans hstart) hx
  | @error halt m₁ =>
    dsimp only
    rw [(hback m₁).2]
    exact .error
  | refused => exact .refused
  | exhausted => exact .exhausted

/-- A call that the lower limit lets pass is let pass by the higher one. -/
theorem nested (ha : Outlasts n V a a') : Outlasts n V (Action.nested a) (Action.nested a') := by
  intro m hm
  unfold Action.nested
  by_cases hfull : m.limits.maxCallDepth ≤ m.depth
  · rw [if_pos hfull]
    exact .refused
  · have hroom : ¬ (m.withCallLimit n).limits.maxCallDepth ≤ (m.withCallLimit n).depth := by
      show ¬ n ≤ m.depth
      omega
    rw [if_neg hfull, if_neg hroom]
    have hstart : { m with depth := m.depth + 1 }.limits = m.limits := rfl
    exact ha.around hm hstart fun m₁ => ⟨rfl, rfl⟩

theorem inspecting (h : Handle) (ha : Outlasts n V a a') :
    Outlasts n V (Action.inspecting h a) (Action.inspecting h a') := by
  intro m hm
  unfold Action.inspecting
  have hstart : { m with inspecting := h :: m.inspecting }.limits = m.limits := rfl
  exact ha.around hm hstart fun m₁ => ⟨rfl, rfl⟩

theorem mono {W : α → α → Prop} (ha : Outlasts n V a a') (hVW : ∀ x x', V x x' → W x x') :
    Outlasts n W a a' := by
  intro m hm
  have hr := ha m hm
  generalize a m = r, a' (m.withCallLimit n) = r' at hr
  cases hr with
  | ok hlimits hx => exact .ok hlimits (hVW _ _ hx)
  | error => exact .error
  | refused => exact .refused
  | exhausted => exact .exhausted

/-- Elementary changes neither look at the call limit nor touch it. -/
theorem of_made (ha : a.Made) : Outlasts n Eq a a := by
  induction ha with
  | pure x => exact .pure rfl
  | bind _ _ iha ihf =>
    refine iha.bind fun x x' hx => ?_
    rw [← hx]
    exact ihf x
  | @ask _ q hq =>
    intro m _
    unfold Action.ask
    have hsame : q (m.withCallLimit n) = q m := hq m m.out m.err n
    rw [hsame]
    exact .ok rfl rfl
  | @demand _ q hq =>
    intro m _
    unfold Action.demand
    have hsame : q (m.withCallLimit n) = q m := hq m m.out m.err n
    rw [hsame]
    cases q m with
    | ok x => exact .ok rfl rfl
    | error f => exact .error
  | fail f => exact fun _ _ => .error
  | writeOut text =>
    intro m _
    change Outlasted n m Eq (Action.writeOut text m)
      (if m.out.fits text then .ok () _ else .error (.fault Action.sinkFull) _)
    unfold Action.writeOut
    cases m.out.fits text
    · exact .error
    · exact .ok rfl rfl
  | writeErr text =>
    intro m _
    change Outlasted n m Eq (Action.writeErr text m)
      (if m.err.fits text then .ok () _ else .error (.fault Action.sinkFull) _)
    unfold Action.writeErr
    cases m.err.fits text
    · exact .error
    · exact .ok rfl rfl
  | allocate | changeObject | hashSet | setGlobal | setConstant => exact fun _ _ => .ok rfl rfl

theorem flush : Outlasts n Eq Action.flush Action.flush := by
  intro m _
  change Outlasted n m Eq (Action.flush m)
    (if m.out.failsFlush || m.err.failsFlush then .error (.fault Action.flushFailed) _ else .ok () _)
  unfold Action.flush
  cases m.out.failsFlush || m.err.failsFlush
  · exact .ok rfl rfl
  · exact .error

/-- To outlast is a way of comparing runs. -/
theorem comparison (n : Nat) : Comparison (Outlasts n) where
  pure hx := .pure hx
  bind ha hf := ha.bind hf
  demand {_ _ Q W q q' f f'} hq hf := by
    intro m hm
    obtain ⟨fault, hx, hx'⟩ | ⟨x, x', hx, hx', hQ⟩ :=
      (hq m (m.withCallLimit n) (m.paired_equipped m.out m.err n)).elim
    · rw [Action.demand_bind_of_error hx, Action.demand_bind_of_error hx']
      exact .error
    · rw [Action.demand_bind_of_ok hx, Action.demand_bind_of_ok hx']
      exact hf x x' hQ m hm
  fail f := fun _ _ => .error
  overrun request := fun _ _ => .error
  exhausted _ := fun _ _ => .exhausted
  made ha hV := (of_made ha).mono fun x _ hx => hx ▸ hV x
  inspecting h ha := ha.inspecting h
  nested ha := ha.nested

theorem program {fuel fuel' : Nat} (hfuel : fuel ≤ fuel') (i : Image) :
    Outlasts n Eq (Run.program fuel i) (Run.program fuel' i) := by
  have himage : Outlasts n Eq (discard (Run.image fuel i)) (discard (Run.image fuel' i)) :=
    ((comparison n).image hfuel i).bind fun _ _ _ => .pure rfl
  exact himage.bind fun _ _ _ => .flush

end Outlasts

/-- What a program writes on a fresh machine and how it ends, if it is given so much fuel. -/
def Image.captureWithin (image : Image) (limits : Limits) (fuel : Nat) : Captured :=
  .ofResult (Run.program fuel image (Machine.boot limits {} {}))

theorem Image.capture_eq (image : Image) (limits : Limits) :
    image.capture limits = image.captureWithin limits Run.ample := rfl

/-- What was captured is the same under the other limit. -/
theorem Outlasted.ofResult_eq {n : Nat} {m : Machine} {r r' : EStateM.Result Halt Machine α}
    {V : α → α → Prop} (h : Outlasted n m V r r')
    (hends : (Captured.ofResult r).halt ≠ some .exhausted)
    (hroom : (Captured.ofResult r).halt ≠ some (.fault .stackTooDeep)) :
    Captured.ofResult r' = Captured.ofResult r := by
  cases h with
  | ok _ _ => rfl
  | error => rfl
  | refused => exact absurd rfl hroom
  | exhausted => exact absurd rfl hends

/-- **Raising the call limit changes nothing but a stack that is too deep.**  Take two sets of
limits that differ in the call limit at most, and a program that ends under the lower one.  Unless it
ends because its calls are nested too deeply, it ends under the higher one too, within the same fuel
and with the same output, the same error output and the same result.  With ample fuel on both sides
this is about `Image.capture`. -/
theorem callLimit_raised (image : Image) (limits limits' : Limits)
    (hclass : limits'.maxClassDepth = limits.maxClassDepth)
    (hcall : limits.maxCallDepth ≤ limits'.maxCallDepth) (fuel : Nat)
    (hends : (image.captureWithin limits fuel).halt ≠ some .exhausted)
    (hroom : (image.captureWithin limits fuel).halt ≠ some (.fault .stackTooDeep)) :
    ∀ fuel', fuel ≤ fuel' →
      image.captureWithin limits' fuel' = image.captureWithin limits fuel := by
  intro fuel' hfuel
  have hboot : Machine.boot limits' {} {} =
      (Machine.boot limits {} {}).withCallLimit limits'.maxCallDepth := by
    obtain ⟨call, classes⟩ := limits
    obtain ⟨call', classes'⟩ := limits'
    subst hclass
    rfl
  have hrun := Outlasts.program hfuel image (Machine.boot limits {} {}) hcall
  rw [← hboot] at hrun
  exact hrun.ofResult_eq hends hroom

/-- A program that prints the literal form of an array of an array, and then asks for a method that
is missing. -/
def nestedLiteral : Image :=
  { (default : Image) with
    records :=
      [{ symbols := ["p", "missing"]
         code :=
          { placed :=
              #[⟨0, { op := .array, a := 2, b := 0 }⟩, ⟨3, { op := .array, a := 2, b := 1 }⟩,
                ⟨6, { op := .selfSend, a := 1, b := 0, c := 1 }⟩,
                ⟨10, { op := .selfSend, a := 1, b := 1, c := 0 }⟩]
            size := 14 } }] }

/-- Three nested calls are enough for it: the default limit prints the same and ends with the same
fault, while a limit of two is refused. -/
theorem callLimit_raised_nestedLiteral :
    (nestedLiteral.capture { maxCallDepth := 2 }).halt = some (.fault .stackTooDeep) ∧
    (nestedLiteral.capture { maxCallDepth := 3 }).out = "[[]]\n" ∧
    nestedLiteral.capture = nestedLiteral.capture { maxCallDepth := 3 } := by
  have hhalt : (nestedLiteral.captureWithin { maxCallDepth := 3 } Run.ample).halt =
      some (.fault (.methodNotFound "missing" "main:Object")) := by decide +kernel
  refine ⟨by decide +kernel, by decide +kernel, ?_⟩
  rw [Image.capture_eq, Image.capture_eq]
  exact callLimit_raised nestedLiteral { maxCallDepth := 3 } {} rfl (by decide) Run.ample
    (by rw [hhalt]; decide) (by rw [hhalt]; decide) Run.ample (Nat.le_refl _)

end Rite
