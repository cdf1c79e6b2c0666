import Rite.Proofs.HeapSteps

/-!
# Programs that settle

Everything that runs is given an amount of fuel, and a program terminates if some amount is enough.
A program is therefore a family of actions here, one for each amount.  `Settles I a m V` says that
the family `a` comes to an end from the machine `m`: from some amount on, all members do the same,
and what they do is to come to a halt or to answer a value that has `V`.  In the latter case the heap
has `I`, a fact that is to be kept along the way, and the nesting of calls and inspections is
what it was.

The members of a family need not be followed one by one: there is a rule for each way to put programs
together, so a proof that a program settles has the shape of the program.  What does not depend on
the engine at all settles because it is alike with itself (`Alike.settles`).
-/

namespace Rite

variable {α β : Type}

/-- A run from `m` that has come to an end. -/
inductive Settled (I : Heap → Prop) (m : Machine) (V : α → Prop) :
    EStateM.Result Halt Machine α → Prop
  | ok {x : α} {m₁ : Machine} (hI : I m₁.heap) (hsame : m.SameNesting m₁) (hx : V x) :
      Settled I m V (.ok x m₁)
  | error {halt : Halt} (hends : halt ≠ .exhausted) (m₁ : Machine) : Settled I m V (.error halt m₁)

/-- From some amount of fuel on, `a` comes to one and the same end. -/
def Settles (I : Heap → Prop) (a : Nat → Action α) (m : Machine) (V : α → Prop) : Prop :=
  ∃ enough r, (∀ fuel, enough ≤ fuel → a fuel m = r) ∧ Settled I m V r

/-- A value of which nothing needs to be known. -/
def Anything (_ : α) : Prop := True

theorem Settled.imp {I J : Heap → Prop} {m m₀ : Machine} {V W : α → Prop}
    {r : EStateM.Result Halt Machine α} (h : Settled I m V r) (hsame : m₀.SameNesting m)
    (hIJ : ∀ heap, I heap → J heap) (hVW : ∀ x, V x → W x) : Settled J m₀ W r := by
  cases h with
  | ok hI hsame' hx => exact .ok (hIJ _ hI) (hsame.trans hsame') (hVW _ hx)
  | error hends m₁ => exact .error hends m₁

namespace Settles

variable {I : Heap → Prop} {a b : Nat → Action α} {m : Machine} {V : α → Prop} {W : β → Prop}

/-- There are three ways to come to an end. -/
theorem ends (h : Settles I a m V) :
    ∃ enough result, (∀ fuel, enough ≤ fuel → a fuel m = result) ∧
      ((∃ x m₁, result = .ok x m₁) ∨ (∃ fault m₁, result = .error (.fault fault) m₁) ∨
        ∃ request m₁, result = .error (.overrun request) m₁) := by
  obtain ⟨enough, r, hr, hsettled⟩ := h
  refine ⟨enough, r, hr, ?_⟩
  cases hsettled with
  | @ok x m₁ _ _ _ => exact .inl ⟨x, m₁, rfl⟩
  | @error halt hends m₁ =>
    cases halt with
    | fault f => exact .inr (.inl ⟨f, m₁, rfl⟩)
    | overrun request => exact .inr (.inr ⟨request, m₁, rfl⟩)
    | exhausted => exact absurd rfl hends

/-! ## Ways to put programs together -/

theorem of_settled {a : Action α} (h : Settled I m V (a m)) : Settles I (fun _ => a) m V :=
  ⟨0, a m, fun _ _ => rfl, h⟩

theorem pure {x : α} (hI : I m.heap) (hx : V x) : Settles I (fun _ => Pure.pure x) m V :=
  .of_settled (.ok hI (.refl m) hx)

theorem fail (f : Fault) : Settles I (fun _ => (Action.fail f : Action α)) m V :=
  .of_settled (.error (by simp) m)

theorem imp {J : Heap → Prop} {W : α → Prop} (h : Settles I a m V)
    (hIJ : ∀ heap, I heap → J heap) (hVW : ∀ x, V x → W x) : Settles J a m W := by
  obtain ⟨enough, r, hr, hsettled⟩ := h
  exact ⟨enough, r, hr, hsettled.imp (.refl m) hIJ hVW⟩

/-- Only large amounts of fuel matter. -/
theorem congr (h : Settles I a m V) (start : Nat) (hb : ∀ fuel, start ≤ fuel → b fuel m = a fuel m) :
    Settles I b m V := by
  obtain ⟨enough, r, hr, hsettled⟩ := h
  refine ⟨max enough start, r, fun fuel hfuel => ?_, hsettled⟩
  rw [hb fuel (by omega), hr fuel (by omega)]

/-- A loop whose rounds are the fuel, less those spent already, has one more round to go. -/
theorem round {b : Nat → Nat → Action α} {spent : Nat}
    (h : Settles I (fun fuel => b fuel (fuel - (spent + 1) + 1)) m V) :
    Settles I (fun fuel => b fuel (fuel - spent)) m V := by
  refine h.congr (spent + 1) fun fuel hfuel => ?_
  rw [show fuel - spent = fuel - (spent + 1) + 1 by omega]

/-- It does not matter if some of the fuel is taken away. -/
theorem delay (h : Settles I a m V) (k : Nat)
    (hb : ∀ fuel, k ≤ fuel → b fuel m = a (fuel - k) m) : Settles I b m V := by
  obtain ⟨enough, r, hr, hsettled⟩ := h
  refine ⟨enough + k, r, fun fuel hfuel => ?_, hsettled⟩
  rw [hb fuel (by omega), hr (fuel - k) (by omega)]

theorem bind {f : Nat → α → Action β} (ha : Settles I a m V)
    (hf : ∀ x m₁, I m₁.heap → m.SameNesting m₁ → V x → Settles I (fun fuel => f fuel x) m₁ W) :
    Settles I (fun fuel => a fuel >>= f fuel) m W := by
  obtain ⟨n, r, hr, hsettled⟩ := ha
  cases hsettled with
  | @error halt hends m₁ =>
    refine ⟨n, .error halt m₁, fun fuel hfuel => ?_, .error hends m₁⟩
    show EStateM.bind (a fuel) (f fuel) m = _
    unfold EStateM.bind
    rw [hr fuel hfuel]
  | @ok x m₁ hI hsame hx =>
    obtain ⟨k, s, hs, hlast⟩ := hf x m₁ hI hsame hx
    refine ⟨max n k, s, fun fuel hfuel => ?_, hlast.imp hsame (fun _ => id) (fun _ => id)⟩
    show EStateM.bind (a fuel) (f fuel) m = s
    unfold EStateM.bind
    rw [hr fuel (by omega)]
    exact hs fuel (by omega)

theorem demand {q : Machine → Except Fault α} {f : Nat → α → Action β}
    (hf : ∀ x, q m = .ok x → Settles I (fun fuel => f fuel x) m W) :
    Settles I (fun fuel => Action.demand q >>= f fuel) m W := by
  cases hq : q m with
  | error fault =>
    exact ⟨0, _, fun fuel _ => Action.demand_bind_of_error hq, .error (by simp) m⟩
  | ok x =>
    obtain ⟨enough, r, hr, hsettled⟩ := hf x hq
    refine ⟨enough, r, fun fuel hfuel => ?_, hsettled⟩
    show (Action.demand q >>= f fuel) m = r
    rw [Action.demand_bind_of_ok hq]
    exact hr fuel hfuel

theorem ask {q : Machine → α} {f : Nat → α → Action β}
    (hf : Settles I (fun fuel => f fuel (q m)) m W) :
    Settles I (fun fuel => Action.ask q >>= f fuel) m W := hf

theorem asked {q : Machine → α} (hI : I m.heap) (hx : V (q m)) :
    Settles I (fun _ => Action.ask q) m V :=
  .of_settled (.ok hI (.refl m) hx)

theorem demanded {q : Machine → Except Fault α} (hI : I m.heap) :
    Settles I (fun _ => Action.demand q) m Anything := by
  refine .of_settled ?_
  unfold Action.demand
  cases q m with
  | ok x => exact .ok hI (.refl m) trivial
  | error f => exact .error (by simp) m

theorem argument {args : List Handle} {index : Nat} {f : Nat → Handle → Action β}
    (hf : ∀ h, Settles I (fun fuel => f fuel h) m W) :
    Settles I (fun fuel => Action.argument args index >>= f fuel) m W := by
  unfold Action.argument
  cases args[index]? with
  | some h => exact hf h
  | none => exact .fail _

/-- A new object, if the heap may have it. -/
theorem allocate {o : Object} (hI : I (m.heap.push o)) :
    Settles I (fun _ => Action.allocate o) m Anything :=
  .of_settled (.ok hI ⟨rfl, rfl, rfl⟩ trivial)

theorem changeObject {h : Handle} {f : Object → Object} (hI : I (m.heap.modify h f)) :
    Settles I (fun _ => Action.changeObject h f) m Anything :=
  .of_settled (.ok hI ⟨rfl, rfl, rfl⟩ trivial)

theorem writeOut (hI : I m.heap) (text : String) :
    Settles I (fun _ => Action.writeOut text) m Anything := by
  refine .of_settled ?_
  unfold Action.writeOut
  cases m.out.fits text
  · exact .error (by simp) _
  · exact .ok hI ⟨rfl, rfl, rfl⟩ trivial

theorem writeErr (hI : I m.heap) (text : String) :
    Settles I (fun _ => Action.writeErr text) m Anything := by
  refine .of_settled ?_
  unfold Action.writeErr
  cases m.err.fits text
  · exact .error (by simp) _
  · exact .ok hI ⟨rfl, rfl, rfl⟩ trivial

theorem discard (h : Settles I a m V) : Settles I (fun fuel => discard (a fuel)) m Anything :=
  h.bind fun _ _ hI _ _ => .pure hI trivial

/-- A call, for which there must be room. -/
theorem nested (h : m.depth < m.limits.maxCallDepth →
      Settles I a { m with depth := m.depth + 1 } V) :
    Settles I (fun fuel => Action.nested (a fuel)) m V := by
  unfold Action.nested
  by_cases hroom : m.limits.maxCallDepth ≤ m.depth
  · exact ⟨0, _, fun fuel _ => if_pos hroom, .error (by simp) m⟩
  · obtain ⟨enough, r, hr, hsettled⟩ := h (by omega)
    cases hsettled with
    | @ok x m₁ hI hsame hx =>
      refine ⟨enough, .ok x { m₁ with depth := m₁.depth - 1 }, ?_, .ok hI hsame.leave hx⟩
      intro fuel hfuel
      dsimp only
      rw [if_neg hroom, hr fuel hfuel]
    | @error halt hends m₁ =>
      refine ⟨enough, .error halt { m₁ with depth := m₁.depth - 1 }, ?_, .error hends _⟩
      intro fuel hfuel
      dsimp only
      rw [if_neg hroom, hr fuel hfuel]

theorem inspecting {h : Handle} (ha : Settles I a { m with inspecting := h :: m.inspecting } V) :
    Settles I (fun fuel => Action.inspecting h (a fuel)) m V := by
  unfold Action.inspecting
  obtain ⟨enough, r, hr, hsettled⟩ := ha
  cases hsettled with
  | @ok x m₁ hI hsame hx =>
    refine ⟨enough, .ok x { m₁ with inspecting := m₁.inspecting.erase h }, ?_,
      .ok hI hsame.unmark hx⟩
    intro fuel hfuel
    dsimp only
    rw [hr fuel hfuel]
  | @error halt hends m₁ =>
    refine ⟨enough, .error halt { m₁ with inspecting := m₁.inspecting.erase h }, ?_,
      .error hends _⟩
    intro fuel hfuel
    dsimp only
    rw [hr fuel hfuel]

theorem checkArity (hI : I m.heap) (arity : Arity) (given : Nat) :
    Settles I (fun _ => arity.check given) m Anything := by
  unfold Arity.check
  cases arity with
  | any => exact .pure hI trivial
  | exactly n =>
    dsimp only
    split
    · exact .pure hI trivial
    · exact .fail _

/-! ## Rounds over lists -/

section Lists

variable {xs : List β}

theorem mapM {f : Nat → β → Action α} (hI : I m.heap)
    (hf : ∀ x ∈ xs, ∀ m₁, I m₁.heap → m.SameNesting m₁ → Settles I (fun fuel => f fuel x) m₁ V) :
    Settles I (fun fuel => xs.mapM (f fuel)) m Anything := by
  induction xs generalizing m with
  | nil => exact .pure hI trivial
  | cons x xs ih =>
    simp only [List.mapM_cons]
    refine .bind (hf x List.mem_cons_self m hI (.refl m)) fun y m₁ hI₁ hsame _ => ?_
    refine .bind (ih hI₁ fun x hx m₂ hI₂ hsame₂ => ?_) fun ys m₂ hI₂ _ _ => .pure hI₂ trivial
    exact hf x (List.mem_cons_of_mem _ hx) m₂ hI₂ (hsame.trans hsame₂)

theorem foldlM {f : Nat → α → β → Action α} (hI : I m.heap) (acc : α)
    (hf : ∀ acc, ∀ x ∈ xs, ∀ m₁, I m₁.heap → m.SameNesting m₁ →
      Settles I (fun fuel => f fuel acc x) m₁ V) :
    Settles I (fun fuel => xs.foldlM (f fuel) acc) m Anything := by
  induction xs generalizing m acc with
  | nil => exact .pure hI trivial
  | cons x xs ih =>
    simp only [List.foldlM_cons]
    refine .bind (hf acc x List.mem_cons_self m hI (.refl m)) fun y m₁ hI₁ hsame _ => ?_
    refine ih hI₁ y fun acc x hx m₂ hI₂ hsame₂ => ?_
    exact hf acc x (List.mem_cons_of_mem _ hx) m₂ hI₂ (hsame.trans hsame₂)

theorem forM {f : Nat → β → Action PUnit} (hI : I m.heap)
    (hf : ∀ x ∈ xs, ∀ m₁, I m₁.heap → m.SameNesting m₁ →
      Settles I (fun fuel => f fuel x) m₁ Anything) :
    Settles I (fun fuel => xs.forM (f fuel)) m Anything := by
  induction xs generalizing m with
  | nil => exact .pure hI trivial
  | cons x xs ih =>
    show Settles I (fun fuel => f fuel x >>= fun _ => xs.forM (f fuel)) m Anything
    refine .bind (hf x List.mem_cons_self m hI (.refl m)) fun y m₁ hI₁ hsame _ => ?_
    refine ih hI₁ fun x hx m₂ hI₂ hsame₂ => ?_
    exact hf x (List.mem_cons_of_mem _ hx) m₂ hI₂ (hsame.trans hsame₂)

end Lists

end Settles

/-! ## What does not depend on the engine -/

/-- An engine that answers everything with a fault. -/
def Engine.idle : Engine where
  fuel := 0
  call _ _ _ _ := Action.fail .stackTooDeep
  evaluate _ _ _ := Action.fail .stackTooDeep

/-- How two alike actions end on one machine, when no loop runs out of rounds. -/
inductive Concluded (I : Heap → Prop) (m : Machine) (V : α → α → Prop) :
    EStateM.Result Halt Machine α → EStateM.Result Halt Machine α → Prop
  | ok {x x' : α} {m₁ : Machine} (hI : I m₁.heap) (hsame : m.SameNesting m₁) (hx : V x x') :
      Concluded I m V (.ok x m₁) (.ok x' m₁)
  | error {halt : Halt} (hends : halt ≠ .exhausted) (m₁ : Machine) :
      Concluded I m V (.error halt m₁) (.error halt m₁)

theorem Concluded.settled {I : Heap → Prop} {m : Machine} {V : α → α → Prop}
    {r r' : EStateM.Result Halt Machine α} (h : Concluded I m V r r') :
    Settled I m (fun x => ∃ x', V x x') r := by
  cases h with
  | ok hI hsame hx => exact .ok hI hsame ⟨_, hx⟩
  | error hends m₁ => exact .error hends m₁

/-- The permissions `π` let no loop run out of rounds, and all steps of the heap that they allow keep
the fact `I`. -/
structure KeptBy (π : Permit) (I : Heap → Prop) : Prop where
  endless : ¬ π.giveUp
  step : ∀ {m : Machine} {heap : Heap}, I m.heap → HeapStep π m heap → I heap

theorem Effect.concludes {π : Permit} {I : Heap → Prop} (hkept : KeptBy π I) {a a' : Action α}
    {V : Pairing → α → α → Prop} (h : Effect Eq π Pairing.same a a' V) {m : Machine}
    (hI : I m.heap) : Concluded I m (V Pairing.same) (a m) (a' m) := by
  obtain ⟨rfl, hmade, hV⟩ := h.eq_and_made le_rfl
  have hheap := hkept.step hI (h.heapStep m)
  have hsame := hmade.keeps m
  have hends := hmade.ends m
  unfold Action.leaves at hheap hsame
  unfold Action.Ends at hends
  generalize a m = r at hheap hsame hends
  cases r with
  | ok x m₁ => exact .ok hheap hsame (hV x)
  | error halt m₁ =>
    exact .error (fun hout => hends m₁ (congrArg (EStateM.Result.error · m₁) hout)) m₁

/-- Alike actions on the idle engine come to an end. -/
theorem Alike.concludes {π : Permit} {I : Heap → Prop} (hkept : KeptBy π I) {K : Pairing}
    {a a' : Action α} {V : Pairing → α → α → Prop} (h : Alike Eq π .idle .idle K a a' V)
    (hK : K = Pairing.same) {m : Machine} (hI : I m.heap) :
    Concluded I m (V Pairing.same) (a m) (a' m) := by
  induction h generalizing m with
  | pure hx => exact .ok hI (.refl m) (hK ▸ hx)
  | @bind _ _ _ _ _ a a' f f' _ _ iha ihf =>
    subst hK
    have hfirst := iha rfl hI
    change Concluded I m _ (EStateM.bind a f m) (EStateM.bind a' f' m)
    unfold EStateM.bind
    generalize a m = r, a' m = r' at hfirst
    cases hfirst with
    | error hends m₁ => exact .error hends m₁
    | @ok x x' m₁ hI₁ hsame hx =>
      have hsecond := ihf Pairing.same x x' le_rfl hx rfl hI₁
      dsimp only
      generalize f x m₁ = s, f' x' m₁ = s' at hsecond
      cases hsecond with
      | error hends m₂ => exact .error hends m₂
      | ok hI₂ hsame₂ hy => exact .ok hI₂ (hsame.trans hsame₂) hy
  | question hq _ _ ih =>
    subst hK
    obtain ⟨fault, hx, hx'⟩ | ⟨x, x', hx, hx', hQ⟩ :=
      (hq m m (.refl_same (fun _ => rfl) m)).elim
    · rw [Action.demand_bind_of_error hx, Action.demand_bind_of_error hx']
      exact .error (by simp) m
    · rw [Action.demand_bind_of_ok hx, Action.demand_bind_of_ok hx']
      exact ih x x' hQ rfl hI
  | fail f => exact .error (by simp) m
  | overrun request => exact .error (by simp) m
  | exhausted hgive => exact absurd hgive hkept.endless
  | effect heffect =>
    subst hK
    exact heffect.concludes hkept hI
  | @inspecting _ _ _ h _ a a' hh _ ih =>
    subst hK
    cases hh
    have hbody : Concluded I { m with inspecting := h :: m.inspecting } _ _ _ :=
      ih (m := { m with inspecting := h :: m.inspecting }) rfl hI
    unfold Action.inspecting
    generalize a { m with inspecting := h :: m.inspecting } = r,
      a' { m with inspecting := h :: m.inspecting } = r' at hbody
    cases hbody with
    | error hends m₁ => exact .error hends _
    | ok hI₁ hsame hx => exact .ok hI₁ hsame.unmark hx
  | call | evaluate => exact .error (by simp) m

/-- **What is alike with itself on the idle engine settles.** -/
theorem Alike.settles {π : Permit} {I : Heap → Prop} (hkept : KeptBy π I) {a : Action α}
    {V : Pairing → α → α → Prop} (h : Alike Eq π .idle .idle Pairing.same a a V) {m : Machine}
    (hI : I m.heap) : Settles I (fun _ => a) m fun x => ∃ x', V Pairing.same x x' :=
  .of_settled (h.concludes hkept rfl hI).settled

/-! ## Steps -/

/-- A family of steps settles on every frame with the record `r`, and leaves such a frame. -/
def StepSettles (I : Heap → Prop) (s : Nat → Step α) (m : Machine) (r : Record) (V : α → Prop) :
    Prop :=
  ∀ f : Frame, f.record = r → Settles I (fun fuel => (s fuel).on f) m fun x =>
    V x.1 ∧ x.2.record = r

namespace StepSettles

open Rite.Step

variable {I : Heap → Prop} {s : Nat → Step α} {m : Machine} {r : Record} {V : α → Prop}
  {W : β → Prop}

theorem pure {x : α} (hI : I m.heap) (hx : V x) : StepSettles I (fun _ => Pure.pure x) m r V :=
  fun _ hf => .pure hI ⟨hx, hf⟩

theorem fail (fault : Fault) : StepSettles I (fun _ => (Step.fail fault : Step α)) m r V :=
  fun _ _ => .fail fault

theorem bind {k : Nat → α → Step β} (hs : StepSettles I s m r V)
    (hk : ∀ x m₁, I m₁.heap → m.SameNesting m₁ → V x → StepSettles I (fun fuel => k fuel x) m₁ r W) :
    StepSettles I (fun fuel => s fuel >>= k fuel) m r W := by
  intro f hf
  simp only [on_bind]
  exact .bind (hs f hf) fun x m₁ hI₁ hsame hx => hk x.1 m₁ hI₁ hsame hx.1 x.2 hx.2

theorem imp {W : α → Prop} (hs : StepSettles I s m r V) (hVW : ∀ x, V x → W x) :
    StepSettles I s m r W :=
  fun f hf => (hs f hf).imp (fun _ => id) fun _ hx => ⟨hVW _ hx.1, hx.2⟩

theorem act {a : Nat → Action α} (ha : Settles I a m V) :
    StepSettles I (fun fuel => Step.act (a fuel)) m r V := by
  intro f hf
  simp only [on_act]
  exact .bind ha fun _ _ hI₁ _ hx => .pure hI₁ ⟨hx, hf⟩

/-- A question to the frame, whatever it answers. -/
theorem view {q : Frame → α} {k : Nat → α → Step β}
    (hk : ∀ x, StepSettles I (fun fuel => k fuel x) m r W) :
    StepSettles I (fun fuel => Step.view q >>= k fuel) m r W := by
  intro f hf
  simp only [on_bind, on_view, pure_bind]
  exact hk (q f) f hf

theorem demand {q : Machine → Except Fault α} {k : Nat → α → Step β}
    (hk : ∀ x, q m = .ok x → StepSettles I (fun fuel => k fuel x) m r W) :
    StepSettles I (fun fuel => Step.act (Action.demand q) >>= k fuel) m r W := by
  intro f hf
  simp only [on_bind, on_act, bind_assoc, pure_bind]
  exact .demand fun x hx => hk x hx f hf

/-- An entry of a table of the record. -/
theorem entry {kind : String} {table : Record → List α} {index : UInt16} {k : Nat → α → Step β}
    (hk : ∀ x, (table r)[index.toNat]? = some x → StepSettles I (fun fuel => k fuel x) m r W) :
    StepSettles I (fun fuel => Step.entry kind table index >>= k fuel) m r W := by
  intro f hf
  unfold Step.entry
  simp only [on_bind, on_view, pure_bind, hf]
  cases hx : (table r)[index.toNat]? with
  | none => exact .fail _
  | some x =>
    simp only [on_pure, pure_bind]
    exact hk x hx f hf

theorem write (hI : I m.heap) (register : UInt16) (value : Handle) :
    StepSettles I (fun _ => Step.write register value) m r Anything :=
  fun _ hf => .pure hI ⟨trivial, hf⟩

theorem writeResult {register : UInt16} {a : Nat → Action Handle} (ha : Settles I a m Anything) :
    StepSettles I (fun fuel => Step.writeResult register (a fuel)) m r Anything :=
  .bind (.act ha) fun _ _ hI₁ _ _ => .write hI₁ register _

theorem discard (hs : StepSettles I s m r V) :
    StepSettles I (fun fuel => discard (s fuel)) m r Anything :=
  .bind hs fun _ _ hI₁ _ _ => .pure hI₁ trivial

end StepSettles

theorem StepAlike.settles {π : Permit} {I : Heap → Prop} (hkept : KeptBy π I) {s : Step α}
    {V : Pairing → α → α → Prop} (h : StepAlike Eq π .idle .idle Pairing.same s s V) {m : Machine}
    (hI : I m.heap) (r : Record) :
    StepSettles I (fun _ => s) m r fun x => ∃ x', V Pairing.same x x' := by
  intro f hf
  have hpaired : Frame.Paired Eq Pairing.same f f := ⟨rfl, fun _ => rfl, .same f.context⟩
  refine ((h f f hpaired r hf).settles hkept hI).imp (fun _ => id) fun x hx => ?_
  obtain ⟨x', hvalue, _, hrecord⟩ := hx
  exact ⟨⟨x'.1, hvalue⟩, hrecord⟩

end Rite
