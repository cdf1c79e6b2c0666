import Rite.Proofs.BuiltinInstances
import Rite.Proofs.FailedSteps
import Rite.Proofs.QuietText

/-!
# Runs that only add objects

Turning objects into text makes strings and changes nothing else.  What such a run needs is room for
nested calls, and how much of it can be said exactly: `Takes levels a m V` is about a program `a`, a
family of actions with one member for each amount of fuel, that does nothing from `m` but add objects.
If there is room for `levels` more calls it answers a value that has `V`, and if there is not it fails
for want of room, and for no other reason.

There is a rule for each way to put programs together, so the levels of a program are computed along
its text: one after the other take the greater number, and a call takes one more than its body.
-/

namespace Rite

variable {α β : Type}

namespace Machine

variable {m m₁ m₂ : Machine}

/-- `m₁` is `m` with objects added: the objects of `m` and everything else are as they were. -/
structure Gains (m m₁ : Machine) : Prop where
  heap : m.heap.Within m₁.heap
  rest : m₁ = { m with heap := m₁.heap }

namespace Gains

theorem refl (m : Machine) : m.Gains m := ⟨.refl _, rfl⟩

theorem trans (h : m.Gains m₁) (h' : m₁.Gains m₂) : m.Gains m₂ := by
  refine ⟨h.heap.trans h'.heap, h'.rest.trans ?_⟩
  rw [h.rest]

theorem allocate (m : Machine) (o : Object) : m.Gains { m with heap := m.heap.push o } :=
  ⟨.push m.heap o, rfl⟩

theorem inspecting_eq (h : m.Gains m₁) : m₁.inspecting = m.inspecting := by
  rw [h.rest]

theorem room_eq (h : m.Gains m₁) : m₁.room = m.room := by
  rw [h.rest]
  rfl

/-- At the end of a call the depth is restored. -/
theorem leave (h : Gains { m with depth := m.depth + 1 } m₁) :
    m.Gains { m₁ with depth := m₁.depth - 1 } := by
  refine ⟨h.heap, ?_⟩
  rw [h.rest]
  rfl

/-- At the end of an inspection the mark is removed. -/
theorem unmark {x : Handle} (h : Gains { m with inspecting := x :: m.inspecting } m₁) :
    m.Gains { m₁ with inspecting := m₁.inspecting.erase x } := by
  refine ⟨h.heap, ?_⟩
  rw [h.rest]
  simp

end Gains

end Machine

/-- How a run from `m` ends that needs room for `levels` calls and only adds objects. -/
inductive Completed (levels : Nat) (m : Machine) (V : α → Heap → Prop) :
    EStateM.Result Halt Machine α → Prop
  | ok {x : α} {m₁ : Machine} (hroom : levels ≤ m.room) (hgain : m.Gains m₁) (hx : V x m₁.heap) :
      Completed levels m V (.ok x m₁)
  | tooDeep {m₁ : Machine} (hroom : m.room < levels) (hgain : m.Gains m₁) :
      Completed levels m V (.error (.fault .stackTooDeep) m₁)

/-- A message that a builtin method answers: the method runs one call deeper, with a unit of fuel
less. -/
theorem send_native {m : Machine} {h owner : Handle} {name : String} {args : List Handle}
    {method : Native} (hlookup : m.lookupMethod h name = .ok ⟨owner, .native method⟩)
    (harity : method.arity.check args.length = Pure.pure ()) (fuel : Nat) :
    (Run.engine (fuel + 1)).send h name args m =
      Action.nested (method.primitive.perform (Run.engine fuel) h args) m := by
  refine (Action.demand_bind_of_ok hlookup).trans ?_
  have hbody : Found.body ⟨owner, .native method⟩ (Run.engine fuel) h name args =
      method.primitive.perform (Run.engine fuel) h args := by
    unfold Found.body
    dsimp only
    rw [harity, pure_bind]
  rw [← hbody]
  show Run.call (fuel + 1) h ⟨owner, .native method⟩ name args m = _
  rw [Run.call]
  rfl

/-- From some amount of fuel on, `a` comes to one and the same end, for which room for `levels` calls
is needed, and only adds objects. -/
def Takes (levels : Nat) (a : Nat → Action α) (m : Machine) (V : α → Heap → Prop) : Prop :=
  ∃ enough r, (∀ fuel, enough ≤ fuel → a fuel m = r) ∧ Completed levels m V r

namespace Takes

variable {levels : Nat} {a b : Nat → Action α} {m : Machine} {V : α → Heap → Prop}
  {W : β → Heap → Prop}

theorem congr (h : Takes levels a m V) (hb : ∀ fuel, b fuel m = a fuel m) : Takes levels b m V := by
  obtain ⟨enough, r, hr, hcompleted⟩ := h
  exact ⟨enough, r, fun fuel hfuel => (hb fuel).trans (hr fuel hfuel), hcompleted⟩

/-- With enough room, none has to be asked for. -/
theorem spare (h : Takes levels a m V) (hroom : levels ≤ m.room) : Takes 0 a m V := by
  obtain ⟨enough, r, hr, hcompleted⟩ := h
  refine ⟨enough, r, hr, ?_⟩
  cases hcompleted with
  | ok _ hgain hx => exact .ok (Nat.zero_le _) hgain hx
  | tooDeep hnone _ => exact absurd hroom (Nat.not_le_of_lt hnone)

/-- A loop whose rounds are the fuel, less those spent already, has one more round to go. -/
theorem round {b : Nat → Nat → Action α} {spent : Nat}
    (h : Takes levels (fun fuel => b fuel (fuel - (spent + 1) + 1)) m V) :
    Takes levels (fun fuel => b fuel (fuel - spent)) m V := by
  obtain ⟨enough, r, hr, hcompleted⟩ := h
  refine ⟨max enough (spent + 1), r, fun fuel hfuel => ?_, hcompleted⟩
  show b fuel (fuel - spent) m = r
  rw [show fuel - spent = fuel - (spent + 1) + 1 by omega]
  exact hr fuel (by omega)

theorem pure {x : α} (hx : V x m.heap) : Takes 0 (fun _ => Pure.pure x) m V :=
  ⟨0, .ok x m, fun _ _ => rfl, .ok (Nat.zero_le _) (.refl m) hx⟩

/-- A new string. -/
theorem newString (text : String) :
    Takes 0 (fun _ => Action.newString text) m fun x heap => (heap.get x).string? = some text := by
  refine ⟨0, _, fun _ _ => rfl, .ok (Nat.zero_le _) (.allocate m _) ?_⟩
  have hnext : m.heap.next.index = m.heap.size := rfl
  rw [Heap.get_push, if_pos hnext]
  rfl

theorem bind {n k : Nat} {f : Nat → α → Action β} (ha : Takes n a m V)
    (hf : ∀ x m₁, m.Gains m₁ → V x m₁.heap → Takes k (fun fuel => f fuel x) m₁ W) :
    Takes (max n k) (fun fuel => a fuel >>= f fuel) m W := by
  obtain ⟨enough, r, hr, hcompleted⟩ := ha
  cases hcompleted with
  | @tooDeep m₁ hroom hgain =>
    refine ⟨enough, .error (.fault .stackTooDeep) m₁, fun fuel hfuel => ?_,
      .tooDeep (Nat.lt_of_lt_of_le hroom (Nat.le_max_left n k)) hgain⟩
    show EStateM.bind (a fuel) (f fuel) m = _
    unfold EStateM.bind
    rw [hr fuel hfuel]
  | @ok x m₁ hroom hgain hx =>
    obtain ⟨more, s, hs, hlast⟩ := hf x m₁ hgain hx
    refine ⟨max enough more, s, fun fuel hfuel => ?_, ?_⟩
    · show EStateM.bind (a fuel) (f fuel) m = s
      unfold EStateM.bind
      rw [hr fuel (by omega)]
      exact hs fuel (by omega)
    · cases hlast with
      | ok hroom' hgain' hy =>
        rw [hgain.room_eq] at hroom'
        exact .ok (by omega) (hgain.trans hgain') hy
      | tooDeep hroom' hgain' =>
        rw [hgain.room_eq] at hroom'
        exact .tooDeep (by omega) (hgain.trans hgain')

/-- What comes last and needs no room. -/
theorem finish {f : Nat → α → Action β} (ha : Takes levels a m V)
    (hf : ∀ x m₁, m.Gains m₁ → V x m₁.heap → Takes 0 (fun fuel => f fuel x) m₁ W) :
    Takes levels (fun fuel => a fuel >>= f fuel) m W := by
  simpa using ha.bind hf

theorem demand {q : Machine → Except Fault α} {f : Nat → α → Action β} {x : α} (hq : q m = .ok x)
    (hf : Takes levels (fun fuel => f fuel x) m W) :
    Takes levels (fun fuel => Action.demand q >>= f fuel) m W :=
  hf.congr fun _ => Action.demand_bind_of_ok hq

/-- A check that is passed. -/
theorem check {q : Machine → Except Fault α} {f : Nat → Unit → Action β} {x : α} (hq : q m = .ok x)
    (hf : Takes levels (fun fuel => f fuel ()) m W) :
    Takes levels (fun fuel => Functor.discard (Action.demand q) >>= f fuel) m W := by
  refine hf.congr fun fuel => ?_
  show EStateM.bind (EStateM.map (fun _ => ()) (Action.demand q)) (f fuel) m = _
  unfold EStateM.bind EStateM.map Action.demand
  rw [hq]

theorem ask {q : Machine → α} {f : Nat → α → Action β}
    (hf : Takes levels (fun fuel => f fuel (q m)) m W) :
    Takes levels (fun fuel => Action.ask q >>= f fuel) m W := hf

/-- A call takes one level more than its body. -/
theorem nested (h : Takes levels a { m with depth := m.depth + 1 } V) :
    Takes (levels + 1) (fun fuel => Action.nested (a fuel)) m V := by
  unfold Action.nested
  by_cases hdepth : m.limits.maxCallDepth ≤ m.depth
  · refine ⟨0, _, fun fuel _ => if_pos hdepth, .tooDeep ?_ (.refl m)⟩
    unfold Machine.room
    omega
  · have hdeeper : m.room = Machine.room { m with depth := m.depth + 1 } + 1 := by
      unfold Machine.room
      dsimp only
      omega
    obtain ⟨enough, r, hr, hcompleted⟩ := h
    cases hcompleted with
    | @ok x m₁ hroom hgain hx =>
      refine ⟨enough, .ok x { m₁ with depth := m₁.depth - 1 }, fun fuel hfuel => ?_,
        .ok (by omega) hgain.leave hx⟩
      dsimp only
      rw [if_neg hdepth, hr fuel hfuel]
    | @tooDeep m₁ hroom hgain =>
      refine ⟨enough, .error (.fault .stackTooDeep) { m₁ with depth := m₁.depth - 1 },
        fun fuel hfuel => ?_, .tooDeep (by omega) hgain.leave⟩
      dsimp only
      rw [if_neg hdepth, hr fuel hfuel]

theorem inspecting {h : Handle} (ha : Takes levels a { m with inspecting := h :: m.inspecting } V) :
    Takes levels (fun fuel => Action.inspecting h (a fuel)) m V := by
  unfold Action.inspecting
  obtain ⟨enough, r, hr, hcompleted⟩ := ha
  cases hcompleted with
  | @ok x m₁ hroom hgain hx =>
    refine ⟨enough, .ok x { m₁ with inspecting := m₁.inspecting.erase h }, fun fuel hfuel => ?_,
      .ok hroom hgain.unmark hx⟩
    dsimp only
    rw [hr fuel hfuel]
  | @tooDeep m₁ hroom hgain =>
    refine ⟨enough, .error (.fault .stackTooDeep) { m₁ with inspecting := m₁.inspecting.erase h },
      fun fuel hfuel => ?_, .tooDeep hroom hgain.unmark⟩
    dsimp only
    rw [hr fuel hfuel]

/-- A message that a builtin method without arguments answers. -/
theorem sendBuiltin {h owner : Handle} {name : String} {op : Primitive} {V : Handle → Heap → Prop}
    (hlookup : m.lookupMethod h name = .ok ⟨owner, .native (Catalogue.fixed name 0 op)⟩)
    (hop : Takes levels (fun fuel => op.perform (Run.engine fuel) h [])
      { m with depth := m.depth + 1 } V) :
    Takes (levels + 1) (fun fuel => (Run.engine fuel).send h name []) m V := by
  obtain ⟨enough, r, hr, hcompleted⟩ := hop.nested
  refine ⟨enough + 1, r, fun fuel hfuel => ?_, hcompleted⟩
  obtain ⟨fuel, rfl⟩ : ∃ n, fuel = n + 1 := ⟨fuel - 1, by omega⟩
  exact (send_native hlookup rfl fuel).trans (hr fuel (by omega))

/-- The text of an object, found by the builtin method of its class. -/
theorem textBy {h : Handle} {name text : String} {op : Primitive} (hkeeps : m.KeepsBuiltin name h)
    (hmethod : Machine.builtinMethod? (m.classOf h) name = some (Catalogue.fixed name 0 op))
    (hop : Takes levels (fun fuel => op.perform (Run.engine fuel) h [])
      { m with depth := m.depth + 1 } fun x heap => (heap.get x).string? = some text) :
    Takes (levels + 1) (fun fuel => (Run.engine fuel).textBy name h) m fun x _ => x = text := by
  refine (sendBuiltin (hkeeps.lookupMethod_eq hmethod) hop).finish fun answer m₁ _ hanswer => ?_
  refine ⟨0, .ok text m₁, fun _ _ => ?_, .ok (Nat.zero_le _) (.refl m₁) rfl⟩
  show EStateM.Result.ok (((m₁.heap.get answer).string?).getD _) m₁ = _
  rw [hanswer, Option.getD_some]

/-- A question for the content of an object, which is of the wanted kind. -/
theorem expect {expected : String} {read : Object → Option α} {h : Handle} {x : α}
    {f : Nat → α → Action β} (hread : read (m.object h) = some x)
    (hf : Takes levels (fun fuel => f fuel x) m W) :
    Takes levels (fun fuel => Action.demand (·.expect expected read h) >>= f fuel) m W :=
  .demand (Machine.expect_of_some hread) hf

end Takes

end Rite
