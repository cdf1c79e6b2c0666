import Mathlib.Data.List.Forall2
import Rite.Proofs.Ancestry
import Rite.Proofs.Rendering

/-!
# Equality of arrays

`Heap.SameValue` says when two objects have the same value: arrays that have as many items, with the
same values in the same places, integers, strings and symbols that hold the same, and anything else only
if it is the same object.  It is an equivalence among the objects that `==` can come to the end of.

The methods get there by sending `==` to the items on the left, each of which is judged by whatever
method its own class has for what stands on the right, and they stop at the first pair that differs.
For a program that answers a question and changes nothing, `Judges levels a m P` says that it comes to
an end, that the answer is right about `P`, and that it fails only if there is no room for `levels`
nested calls.
-/

namespace Rite

open Relation (ReflTransGen TransGen)

/-! ## Values -/

/-- What an object that is no array is compared by. -/
inductive Atom
  | integer (value : Int64)
  | string (text : String)
  | symbol (name : String)
  | object (h : Handle)
  deriving DecidableEq

namespace Heap

/-- What `h` is compared by, if it is no array. -/
def atom? (heap : Heap) (h : Handle) : Option Atom :=
  match (heap.get h).payload with
  | .array _ => none
  | .integer value => some (.integer value)
  | .string text => some (.string text)
  | .symbol name => some (.symbol name)
  | _ => some (.object h)

/-- The two objects have the same value. -/
inductive SameValue (heap : Heap) : Handle → Handle → Prop
  | atom {a b : Handle} {x : Atom} (ha : heap.atom? a = some x) (hb : heap.atom? b = some x) :
      SameValue heap a b
  | array {a b : Handle} {xs ys : Array Handle} (ha : (heap.get a).array? = some xs)
      (hb : (heap.get b).array? = some ys) (hsize : xs.size = ys.size)
      (hitems : ∀ (i : Nat) x y, xs[i]? = some x → ys[i]? = some y → SameValue heap x y) :
      SameValue heap a b

variable {heap : Heap} {a b c : Handle}

theorem atom?_eq_none_of_array {xs : Array Handle} (ha : (heap.get a).array? = some xs) :
    heap.atom? a = none := by
  unfold Object.array? at ha
  unfold atom?
  generalize (heap.get a).payload = payload at ha
  cases payload <;> cases ha
  rfl

theorem exists_atom_of_array (ha : (heap.get a).array? = none) : ∃ x, heap.atom? a = some x := by
  unfold Object.array? at ha
  unfold atom?
  generalize (heap.get a).payload = payload at ha
  cases payload <;> first | exact ⟨_, rfl⟩ | cases ha

theorem sameValue_iff_of_atom {x : Atom} (ha : heap.atom? a = some x) :
    heap.SameValue a b ↔ heap.atom? b = some x := by
  refine ⟨fun h => ?_, .atom ha⟩
  cases h with
  | atom ha' hb => rw [hb, ← ha', ha]
  | array ha' _ _ _ =>
    rw [atom?_eq_none_of_array ha'] at ha
    cases ha

theorem sameValue_iff_of_array {xs : Array Handle} (ha : (heap.get a).array? = some xs) :
    heap.SameValue a b ↔ ∃ ys, (heap.get b).array? = some ys ∧ xs.size = ys.size ∧
      ∀ (i : Nat) x y, xs[i]? = some x → ys[i]? = some y → heap.SameValue x y := by
  constructor
  · intro h
    cases h with
    | atom ha' _ =>
      rw [atom?_eq_none_of_array ha] at ha'
      cases ha'
    | array ha' hb hsize hitems =>
      cases Option.some.inj (ha.symm.trans ha')
      exact ⟨_, hb, hsize, hitems⟩
  · rintro ⟨ys, hb, hsize, hitems⟩
    exact .array ha hb hsize hitems

theorem SameValue.of_forall₂ {xs ys : Array Handle} (ha : (heap.get a).array? = some xs)
    (hb : (heap.get b).array? = some ys) (h : List.Forall₂ heap.SameValue xs.toList ys.toList) :
    heap.SameValue a b := by
  obtain ⟨hlength, hitems⟩ := List.forall₂_iff_get.mp h
  refine .array ha hb (by simpa using hlength) fun i x y hx hy => ?_
  obtain ⟨hi, rfl⟩ := Array.getElem?_eq_some_iff.mp hx
  obtain ⟨hj, rfl⟩ := Array.getElem?_eq_some_iff.mp hy
  exact hitems i (by simpa using hi) (by simpa using hj)

theorem SameValue.symm (h : heap.SameValue a b) : heap.SameValue b a := by
  induction h with
  | atom ha hb => exact .atom hb ha
  | array ha hb hsize _ ih =>
    exact .array hb ha hsize.symm fun i y x hy hx => ih i x y hx hy

theorem SameValue.trans (h : heap.SameValue a b) (h' : heap.SameValue b c) :
    heap.SameValue a c := by
  induction h generalizing c with
  | atom ha hb => exact .atom ha ((sameValue_iff_of_atom hb).mp h')
  | @array a b xs ys ha hb hsize _ ih =>
    obtain ⟨zs, hc, hsize', hitems⟩ := (sameValue_iff_of_array hb).mp h'
    refine .array ha hc (hsize.trans hsize') fun i x z hx hz => ?_
    -- The place is taken in all three.
    obtain ⟨hi, _⟩ := Array.getElem?_eq_some_iff.mp hx
    have hy : ys[i]? = some ys[i] := Array.getElem?_eq_getElem (hsize ▸ hi)
    exact ih i x _ hx hy (hitems i _ z hy hz)

/-! ## Nesting -/

/-- The items of an array; other objects have none. -/
def items (heap : Heap) (h : Handle) : List Handle :=
  match (heap.get h).array? with
  | some xs => xs.toList
  | none => []

/-- The array `h` has the item `x`. -/
def Contains (heap : Heap) (h x : Handle) : Prop := x ∈ heap.items h

/-- No array that can be reached from `h` contains itself, directly or through others. -/
def Acyclic (heap : Heap) (h : Handle) : Prop :=
  ∀ x, ReflTransGen heap.Contains h x → ¬ TransGen heap.Contains x x

/-- Arrays are nested at most `n` deep in `h`: an array of objects that are no arrays is nested once. -/
inductive NestsWithin (heap : Heap) : Handle → Nat → Prop
  | leaf {h : Handle} (n : Nat) (hleaf : (heap.get h).array? = none) : NestsWithin heap h n
  | array {h : Handle} {xs : Array Handle} {n : Nat} (harray : (heap.get h).array? = some xs)
      (hitems : ∀ x ∈ xs.toList, NestsWithin heap x n) : NestsWithin heap h (n + 1)

variable {h x : Handle} {n k : Nat}

theorem NestsWithin.mono (hn : heap.NestsWithin h n) (hk : n ≤ k) : heap.NestsWithin h k := by
  induction hn generalizing k with
  | leaf _ hleaf => exact .leaf k hleaf
  | array harray _ ih =>
    obtain ⟨k, rfl⟩ : ∃ j, k = j + 1 := ⟨k - 1, by omega⟩
    exact .array harray fun x hx => ih x hx (by omega)

/-- An array has the same value as itself, if it is nested finitely deep. -/
theorem NestsWithin.sameValue_self (hn : heap.NestsWithin h n) : heap.SameValue h h := by
  induction hn with
  | leaf _ hleaf =>
    obtain ⟨x, hx⟩ := exists_atom_of_array hleaf
    exact .atom hx hx
  | @array h xs n harray _ ih =>
    refine .array harray harray rfl fun i x y hx hy => ?_
    cases Option.some.inj (hx.symm.trans hy)
    exact ih x (Array.mem_toList_iff.mpr (Array.mem_of_getElem? hx))

theorem mem_items_iff {xs : Array Handle} (harray : (heap.get h).array? = some xs) :
    heap.Contains h x ↔ x ∈ xs.toList := by
  unfold Contains items
  rw [harray]

theorem not_contains_of_leaf (hleaf : (heap.get h).array? = none) : ¬ heap.Contains h x := by
  unfold Contains items
  rw [hleaf]
  exact List.not_mem_nil

/-- What is contained in `h` is nested less deep. -/
theorem NestsWithin.of_contains (hn : heap.NestsWithin h n) (hx : heap.Contains h x) :
    ∃ k < n, heap.NestsWithin x k := by
  cases hn with
  | leaf _ hleaf => exact absurd hx (not_contains_of_leaf hleaf)
  | @array _ xs n harray hitems =>
    exact ⟨n, Nat.lt_succ_self n, hitems x ((mem_items_iff harray).mp hx)⟩

theorem NestsWithin.of_transGen (hn : heap.NestsWithin h n) (hx : TransGen heap.Contains h x) :
    ∃ k < n, heap.NestsWithin x k := by
  induction hx with
  | single hx => exact hn.of_contains hx
  | tail _ hx ih =>
    obtain ⟨k, hk, hnests⟩ := ih
    obtain ⟨j, hj, hnests⟩ := hnests.of_contains hx
    exact ⟨j, Nat.lt_trans hj hk, hnests⟩

theorem NestsWithin.not_contains_self (hn : heap.NestsWithin h n) :
    ¬ TransGen heap.Contains h h := by
  induction n using Nat.strong_induction_on with
  | _ n ih =>
    intro hself
    obtain ⟨k, hk, hnests⟩ := hn.of_transGen hself
    exact ih k hk hnests hself

theorem NestsWithin.acyclic (hn : heap.NestsWithin h n) : heap.Acyclic h := by
  intro x hx
  rcases Relation.reflTransGen_iff_eq_or_transGen.mp hx with rfl | hx
  · exact hn.not_contains_self
  · obtain ⟨k, _, hnests⟩ := hn.of_transGen hx
    exact hnests.not_contains_self

/-- One bound serves for all of finitely many objects. -/
theorem exists_nestsWithin_forall {xs : List Handle} (h : ∀ x ∈ xs, ∃ n, heap.NestsWithin x n) :
    ∃ n, ∀ x ∈ xs, heap.NestsWithin x n := by
  induction xs with
  | nil => exact ⟨0, by simp⟩
  | cons y xs ih =>
    obtain ⟨n, hn⟩ := h y List.mem_cons_self
    obtain ⟨k, hk⟩ := ih fun x hx => h x (List.mem_cons_of_mem y hx)
    refine ⟨max n k, List.forall_mem_cons.mpr ⟨hn.mono (Nat.le_max_left n k), fun x hx => ?_⟩⟩
    exact (hk x hx).mono (Nat.le_max_right n k)

/-- Without cycles, arrays are nested finitely deep. -/
theorem Acyclic.exists_nestsWithin (hacyclic : heap.Acyclic h) : ∃ n, heap.NestsWithin h n := by
  -- On the way down the arrays passed so far are never met again, and each of them is an object of the
  -- heap, so the objects not passed so far become fewer.
  have hdescend : ∀ (left : Nat) (passed : List Handle) (x : Handle), heap.unopened passed = left →
      ReflTransGen heap.Contains h x → (∀ p ∈ passed, TransGen heap.Contains p x) →
      ∃ n, heap.NestsWithin x n := by
    intro left
    induction left using Nat.strong_induction_on with
    | _ left ih =>
      intro passed x hleft hx hpassed
      cases harray : (heap.get x).array? with
      | none => exact ⟨0, .leaf 0 harray⟩
      | some xs =>
        have hfree : x ∉ passed := fun hmem => hacyclic x hx (hpassed x hmem)
        have hfewer := unopened_cons_lt (index_lt_of_array harray) hfree
        obtain ⟨n, hn⟩ := exists_nestsWithin_forall fun y hy => by
          have hxy : heap.Contains x y := (mem_items_iff harray).mpr hy
          refine ih _ (hleft ▸ hfewer) (x :: passed) y rfl (hx.tail hxy) ?_
          exact List.forall_mem_cons.mpr ⟨.single hxy, fun p hp => (hpassed p hp).tail hxy⟩
        exact ⟨n + 1, .array harray hn⟩
  exact hdescend _ [] h rfl .refl (by simp)

end Heap

/-! ## Judging -/

/-- How a run from `m` ends that finds out whether `P`, changes nothing, and may need room for `levels`
calls. -/
inductive Verdict (levels : Nat) (m : Machine) (P : Prop) : EStateM.Result Halt Machine Handle → Prop
  | yes (h : P) : Verdict levels m P (.ok Handle.yes m)
  | no (h : ¬ P) : Verdict levels m P (.ok Handle.no m)
  | tooDeep (hroom : m.room < levels) : Verdict levels m P (.error (.fault .stackTooDeep) m)

section Nested

variable {α : Type} {m : Machine} {body : Action α}

/-- A call whose body changes nothing changes nothing. -/
theorem Action.nested_of_ok {x : α} (hroom : ¬ m.limits.maxCallDepth ≤ m.depth)
    (hbody : body { m with depth := m.depth + 1 } = .ok x { m with depth := m.depth + 1 }) :
    Action.nested body m = .ok x m := by
  unfold Action.nested
  rw [if_neg hroom, hbody]
  rfl

theorem Action.nested_of_error {halt : Halt} (hroom : ¬ m.limits.maxCallDepth ≤ m.depth)
    (hbody : body { m with depth := m.depth + 1 } = .error halt { m with depth := m.depth + 1 }) :
    Action.nested body m = .error halt m := by
  unfold Action.nested
  rw [if_neg hroom, hbody]
  rfl

end Nested

/-- From some amount of fuel on, `a` comes to one and the same end, with a verdict on `P`. -/
def Judges (levels : Nat) (a : Nat → Action Handle) (m : Machine) (P : Prop) : Prop :=
  ∃ enough r, (∀ fuel, enough ≤ fuel → a fuel m = r) ∧ Verdict levels m P r

namespace Judges

variable {levels : Nat} {a b : Nat → Action Handle} {m : Machine} {P Q : Prop}

theorem congr (h : Judges levels a m P) (hb : ∀ fuel, b fuel m = a fuel m) : Judges levels b m P := by
  obtain ⟨enough, r, hr, hverdict⟩ := h
  exact ⟨enough, r, fun fuel hfuel => (hb fuel).trans (hr fuel hfuel), hverdict⟩

theorem of_iff (h : Judges levels a m P) (hPQ : P ↔ Q) : Judges levels a m Q :=
  propext hPQ ▸ h

/-- With enough room, the answer comes. -/
theorem exists_answer (h : Judges levels a m P) (hroom : levels ≤ m.room) (found : Bool)
    (hfound : found = true ↔ P) :
    ∃ enough, ∀ fuel, enough ≤ fuel → a fuel m = .ok (Handle.ofBool found) m := by
  obtain ⟨enough, r, hr, hverdict⟩ := h
  refine ⟨enough, fun fuel hfuel => (hr fuel hfuel).trans ?_⟩
  cases hverdict with
  | yes h => rw [hfound.mpr h]; rfl
  | no h => rw [Bool.eq_false_iff.mpr fun hyes => h (hfound.mp hyes)]; rfl
  | tooDeep hnone => exact absurd hroom (Nat.not_le_of_lt hnone)

/-- An answer that is known takes no room. -/
theorem answer {found : Bool} (hfound : found = true ↔ P) :
    Judges levels (fun _ => Action.answer found) m P := by
  refine ⟨0, _, fun _ _ => rfl, ?_⟩
  cases found with
  | false => exact .no fun h => Bool.false_ne_true (hfound.mpr h)
  | true => exact .yes (hfound.mp rfl)

theorem refuse (h : ¬ P) : Judges levels (fun _ => Action.answer false) m P :=
  answer (iff_of_false Bool.false_ne_true h)

theorem accept (h : P) : Judges levels (fun _ => Action.answer true) m P :=
  answer (iff_of_true rfl h)

/-- A verdict and what is made of it. -/
theorem bind {f : Nat → Handle → Action Handle} (ha : Judges levels a m P)
    (hyes : P → Judges levels (fun fuel => f fuel Handle.yes) m Q)
    (hno : ¬ P → Judges levels (fun fuel => f fuel Handle.no) m Q) :
    Judges levels (fun fuel => a fuel >>= f fuel) m Q := by
  obtain ⟨enough, r, hr, hverdict⟩ := ha
  -- The machine is as it was when the second part starts, which is all that the parts share.
  have hseq : ∀ x, r = .ok x m → Judges levels (fun fuel => f fuel x) m Q →
      Judges levels (fun fuel => a fuel >>= f fuel) m Q := by
    rintro x rfl ⟨more, s, hs, hlast⟩
    refine ⟨max enough more, s, fun fuel hfuel => ?_, hlast⟩
    show EStateM.bind (a fuel) (f fuel) m = s
    unfold EStateM.bind
    rw [hr fuel (by omega)]
    exact hs fuel (by omega)
  cases hverdict with
  | yes h => exact hseq Handle.yes rfl (hyes h)
  | no h => exact hseq Handle.no rfl (hno h)
  | tooDeep hroom =>
    refine ⟨enough, _, fun fuel hfuel => ?_, .tooDeep hroom⟩
    show EStateM.bind (a fuel) (f fuel) m = _
    unfold EStateM.bind
    rw [hr fuel hfuel]

/-- A call takes one level more than its body. -/
theorem nested (h : Judges levels a { m with depth := m.depth + 1 } P) :
    Judges (levels + 1) (fun fuel => Action.nested (a fuel)) m P := by
  by_cases hdepth : m.limits.maxCallDepth ≤ m.depth
  · refine ⟨0, _, fun fuel _ => if_pos hdepth, .tooDeep ?_⟩
    unfold Machine.room
    omega
  · have hdeeper : m.room = Machine.room { m with depth := m.depth + 1 } + 1 := by
      unfold Machine.room
      dsimp only
      omega
    obtain ⟨enough, r, hr, hverdict⟩ := h
    cases hverdict with
    | yes h => exact ⟨enough, _, fun fuel hfuel => Action.nested_of_ok hdepth (hr fuel hfuel), .yes h⟩
    | no h => exact ⟨enough, _, fun fuel hfuel => Action.nested_of_ok hdepth (hr fuel hfuel), .no h⟩
    | tooDeep hroom =>
      exact ⟨enough, _, fun fuel hfuel => Action.nested_of_error hdepth (hr fuel hfuel),
        .tooDeep (by omega)⟩

/-- A message with one argument that a builtin method answers. -/
theorem sendBuiltin {h x owner : Handle} {name : String} {op : Primitive}
    (hlookup : m.lookupMethod h name = .ok ⟨owner, .native (Catalogue.fixed name 1 op)⟩)
    (hop : Judges levels (fun fuel => op.perform (Run.engine fuel) h [x])
      { m with depth := m.depth + 1 } P) :
    Judges (levels + 1) (fun fuel => (Run.engine fuel).send h name [x]) m P := by
  obtain ⟨enough, r, hr, hverdict⟩ := hop.nested
  refine ⟨enough + 1, r, fun fuel hfuel => ?_, hverdict⟩
  obtain ⟨fuel, rfl⟩ : ∃ n, fuel = n + 1 := ⟨fuel - 1, by omega⟩
  exact (send_native hlookup rfl fuel).trans (hr fuel (by omega))

/-- The items are compared place by place, and the first difference decides. -/
theorem eqItems {R : Handle → Handle → Prop} {xs : List Handle}
    (hsend : ∀ x ∈ xs, ∀ y, Judges levels (fun fuel => (Run.engine fuel).send x "==" [y]) m (R x y))
    (ys : List Handle) :
    Judges levels (fun fuel => Arrays.eqItems (Run.engine fuel) xs ys) m
      (∀ (i : Nat) x y, xs[i]? = some x → ys[i]? = some y → R x y) := by
  induction xs generalizing ys with
  | nil => exact accept (by simp)
  | cons x xs ih =>
    cases ys with
    | nil => exact accept (by simp)
    | cons y ys =>
      have hrest := ih (fun x hx => hsend x (List.mem_cons_of_mem _ hx)) ys
      have hsplit : (∀ (i : Nat) x' y', (x :: xs)[i]? = some x' → (y :: ys)[i]? = some y' → R x' y') ↔
          R x y ∧ ∀ (i : Nat) x' y', xs[i]? = some x' → ys[i]? = some y' → R x' y' := by
        refine ⟨fun h => ⟨h 0 x y rfl rfl, fun i => h (i + 1)⟩, fun h i => ?_⟩
        cases i with
        | zero =>
          rintro x' y' ⟨⟩ ⟨⟩
          exact h.1
        | succ i => exact h.2 i
      refine (hsend x List.mem_cons_self y).bind (fun hxy => ?_) (fun hxy => ?_)
      · exact hrest.of_iff (by rw [hsplit]; exact (and_iff_right hxy).symm)
      · exact refuse fun h => hxy (hsplit.mp h).1

/-- The opposite of what `==` answers. -/
theorem differs {x y : Handle}
    (hsend : Judges levels (fun fuel => (Run.engine fuel).send x "==" [y]) m P) :
    Judges levels (fun fuel => Objects.differs (Run.engine fuel) x [y]) m (¬ P) := by
  have hother : Action.argument [y] 0 = pure y := rfl
  unfold Objects.differs
  simp only [hother, pure_bind]
  exact hsend.bind (fun h => refuse (not_not_intro h)) (fun h => accept h)

end Judges

/-! ## The methods -/

/-- The builtin method that compares objects with this payload. -/
def Payload.equality : Payload → Primitive
  | .integer _ => .ofInteger .eq
  | .string _ => .ofString .eq
  | .symbol _ => .ofSymbol .eq
  | .array _ => .ofArray .eq
  | _ => .ofObject .same

/-- The builtin method that compares instances of the builtin class `ancestor`, where there is one. -/
def Primitive.equalityOf (ancestor : Option Handle) : Primitive :=
  if ancestor = some Handle.integerClass then .ofInteger .eq
  else if ancestor = some Handle.stringClass then .ofString .eq
  else if ancestor = some Handle.symbolClass then .ofSymbol .eq
  else if ancestor = some Handle.arrayClass then .ofArray .eq
  else .ofObject .same

theorem Payload.equalityOf_valueClass? (payload : Payload) :
    Primitive.equalityOf payload.valueClass? = payload.equality := by
  cases payload with
  | ofClass info =>
    unfold Payload.valueClass? Payload.builtinClass?
    dsimp only
    cases info.isModule <;> rfl
  | _ => rfl

namespace Machine

variable {m : Machine} {h a b : Handle} {chain : List Handle}

/-- An object inherits the `==` that goes with what it holds. -/
theorem inheritedMethod?_eq (hm : m.Visited) (hh : m.Valid h)
    (hchain : m.Lineage (m.classOf h) chain) :
    inheritedMethod? chain "==" =
      some (Catalogue.fixed "==" 1 (m.object h).payload.equality) := by
  obtain ⟨hwell, hempty⟩ := belowClassEmpty_invariant.visited Boot.belowClassEmpty hm
  have hancestor := hm.ancestralPayloads h hh chain hchain
  obtain ⟨made, row, hrow, rfl, hmade⟩ := hchain.exists_builtinRow hwell.rooted hempty
  have hrows : ∀ row ∈ Handle.builtinRows, inheritedMethod? row "==" =
      some (Catalogue.fixed "==" 1 (.equalityOf (Handle.valueAncestor? row))) := by decide +kernel
  rw [inheritedMethod?_append hmade, hrows row hrow, ← valueAncestor?_append hmade, hancestor,
    Payload.equalityOf_valueClass?]

theorem inheritedMethod?_ne (hm : m.Visited) (hchain : m.Lineage (m.classOf h) chain) :
    inheritedMethod? chain "!=" = some (Catalogue.fixed "!=" 1 (.ofObject .differs)) := by
  obtain ⟨hwell, hempty⟩ := belowClassEmpty_invariant.visited Boot.belowClassEmpty hm
  obtain ⟨made, row, hrow, rfl, hmade⟩ := hchain.exists_builtinRow hwell.rooted hempty
  have hrows : ∀ row ∈ Handle.builtinRows, inheritedMethod? row "!=" =
      some (Catalogue.fixed "!=" 1 (.ofObject .differs)) := by decide +kernel
  rw [inheritedMethod?_append hmade, hrows row hrow]

end Machine

/-- Whether `b` is what the method for an atom looks for. -/
def Atom.fits (heap : Heap) (b : Handle) : Atom → Bool
  | .integer value => (heap.get b).integer? == some value
  | .string text => (heap.get b).string? == some text
  | .symbol name => (heap.get b).symbol? == some name
  | .object h => h = b

/-- The method looks for the atom. -/
theorem Heap.fits_iff {heap : Heap} {a : Handle} {x : Atom} (ha : heap.atom? a = some x)
    (b : Handle) : x.fits heap b = true ↔ heap.atom? b = some x := by
  cases x with
  | object h =>
    have hself : ∀ c, heap.atom? c = some (.object h) → c = h := by
      intro c hc
      unfold Heap.atom? at hc
      generalize (heap.get c).payload = payload at hc
      cases payload <;> cases hc <;> rfl
    cases hself a ha
    refine decide_eq_true_iff.trans ⟨?_, fun hb => (hself b hb).symm⟩
    rintro rfl
    exact ha
  | _ =>
    unfold Atom.fits Object.integer? Object.string? Object.symbol? Heap.atom?
    generalize (heap.get b).payload = payload
    cases payload <;> simp

section Perform

variable {m : Machine} {a : Handle}

theorem Integers.eq_of_read {value : Int64} (ha : (m.object a).integer? = some value) (b : Handle) :
    Integers.eq a [b] m = Action.answer ((m.object b).integer? == some value) m := by
  unfold Integers.eq Integers.loose
  rw [bind_assoc]
  exact Action.demand_bind_of_ok (Machine.expect_of_some ha)

theorem Strings.eq_of_read {text : String} (ha : (m.object a).string? = some text) (b : Handle) :
    Strings.eq a [b] m = Action.answer ((m.object b).string? == some text) m :=
  Action.demand_bind_of_ok (Machine.expect_of_some ha)

theorem Symbols.eq_of_read {name : String} (ha : (m.object a).symbol? = some name) (b : Handle) :
    Symbols.eq a [b] m = Action.answer ((m.object b).symbol? == some name) m :=
  Action.demand_bind_of_ok (Machine.expect_of_some ha)

theorem Arrays.eq_of_array {xs ys : Array Handle} {b : Handle} (ha : (m.object a).array? = some xs)
    (hb : (m.object b).array? = some ys) (e : Engine) :
    Arrays.eq e a [b] m =
      (if xs.size ≠ ys.size then Action.answer false else Arrays.eqItems e xs.toList ys.toList) m := by
  have hother : Action.argument [b] 0 = pure b := rfl
  refine (Action.demand_bind_of_ok (Machine.expect_of_some ha)).trans ?_
  rw [hother, pure_bind, Action.ask_bind, hb]

theorem Arrays.eq_of_leaf {xs : Array Handle} {b : Handle} (ha : (m.object a).array? = some xs)
    (hb : (m.object b).array? = none) (e : Engine) :
    Arrays.eq e a [b] m = Action.answer false m := by
  have hother : Action.argument [b] 0 = pure b := rfl
  refine (Action.demand_bind_of_ok (Machine.expect_of_some ha)).trans ?_
  rw [hother, pure_bind, Action.ask_bind, hb]

theorem perform_equality {x : Atom} (ha : m.heap.atom? a = some x) (e : Engine) (b : Handle) :
    (m.object a).payload.equality.perform e a [b] m = Action.answer (x.fits m.heap b) m := by
  have hread : (m.object a).payload = (m.heap.get a).payload := rfl
  rw [hread]
  unfold Heap.atom? at ha
  cases hpayload : (m.heap.get a).payload <;> rw [hpayload] at ha <;> cases ha
  case integer value =>
    exact Integers.eq_of_read (by rw [Object.integer?, hread, hpayload]) b
  case string text =>
    exact Strings.eq_of_read (by rw [Object.string?, hread, hpayload]) b
  case symbol name =>
    exact Symbols.eq_of_read (by rw [Object.symbol?, hread, hpayload]) b
  all_goals rfl

end Perform

/-- Objects that are no arrays are compared by their atoms. -/
theorem judges_atom {m : Machine} {a : Handle} {x : Atom} (ha : m.heap.atom? a = some x)
    (b : Handle) {levels : Nat} :
    Judges levels (fun fuel => (m.object a).payload.equality.perform (Run.engine fuel) a [b]) m
      (m.heap.SameValue a b) := by
  have hfits : x.fits m.heap b = true ↔ m.heap.SameValue a b :=
    (Heap.fits_iff ha b).trans (Heap.sameValue_iff_of_atom ha).symm
  exact (Judges.answer hfits).congr fun fuel => perform_equality ha (Run.engine fuel) b

section Equality

variable {m : Machine} {a : Handle} {levels n : Nat}

/-- Arrays are compared by their sizes and then by their items. -/
theorem judges_array {xs : Array Handle} (ha : (m.heap.get a).array? = some xs)
    (hitems : ∀ x ∈ xs.toList, ∀ y,
      Judges levels (fun fuel => (Run.engine fuel).send x "==" [y]) m (m.heap.SameValue x y))
    (b : Handle) :
    Judges levels (fun fuel => Arrays.eq (Run.engine fuel) a [b]) m (m.heap.SameValue a b) := by
  cases hb : (m.heap.get b).array? with
  | none =>
    have hdiffers : ¬ m.heap.SameValue a b := fun h => by
      obtain ⟨ys, hys, _⟩ := (Heap.sameValue_iff_of_array ha).mp h
      cases hb.symm.trans hys
    exact (Judges.refuse hdiffers).congr fun fuel => Arrays.eq_of_leaf ha hb (Run.engine fuel)
  | some ys =>
    have hsame : m.heap.SameValue a b ↔ xs.size = ys.size ∧
        ∀ (i : Nat) x y, xs[i]? = some x → ys[i]? = some y → m.heap.SameValue x y := by
      rw [Heap.sameValue_iff_of_array ha, hb]
      simp
    by_cases hsize : xs.size = ys.size
    · refine ((Judges.eqItems hitems ys.toList).congr fun fuel => ?_).of_iff ?_
      · rw [Arrays.eq_of_array ha hb, if_neg (not_not_intro hsize)]
      · rw [hsame, and_iff_right hsize]
        simp
    · refine (Judges.refuse fun h => hsize (hsame.mp h).1).congr fun fuel => ?_
      rw [Arrays.eq_of_array ha hb, if_pos hsize]

/-- The object answers `==` with the builtin method that goes with what it holds, however deep calls
are nested. -/
def Machine.AnswersEq (m : Machine) (h : Handle) : Prop :=
  ∀ depth, ∃ owner, lookupMethod { m with depth := depth } h "==" =
    .ok ⟨owner, .native (Catalogue.fixed "==" 1 (m.object h).payload.equality)⟩

/-- With the builtin methods in use, `==` judges values. -/
theorem judges_eq (hanswers : ∀ x, ReflTransGen m.heap.Contains a x → m.AnswersEq x)
    (hn : m.heap.NestsWithin a n) (depth : Nat) (b : Handle) :
    Judges (n + 1) (fun fuel => (Run.engine fuel).send a "==" [b]) { m with depth := depth }
      (m.heap.SameValue a b) := by
  -- The depth is all that changes on the way down, so the statement is about all depths at once.
  induction hn generalizing depth b with
  | @leaf a n hleaf =>
    obtain ⟨owner, hlookup⟩ := hanswers a .refl depth
    obtain ⟨x, hx⟩ := Heap.exists_atom_of_array hleaf
    exact .sendBuiltin hlookup (judges_atom (m := { m with depth := depth + 1 }) hx b)
  | @array a xs n harray _ ih =>
    obtain ⟨owner, hlookup⟩ := hanswers a .refl depth
    have hkind : (m.object a).payload.equality = .ofArray .eq := by
      have hread : (m.object a).array? = some xs := harray
      unfold Object.array? at hread
      generalize (m.object a).payload = payload at hread
      cases payload <;> cases hread
      rfl
    rw [hkind] at hlookup
    refine Judges.sendBuiltin hlookup ?_
    refine judges_array (m := { m with depth := depth + 1 }) harray (fun x hx y => ?_) b
    have hcontains : m.heap.Contains a x := (Heap.mem_items_iff harray).mpr hx
    exact ih x hx (fun z hz => hanswers z (hz.head hcontains)) (depth + 1) y

end Equality

/-- The methods `==` of `a` and of all that can be reached from it through arrays, and the method `!=` of
`a`, are the builtin ones. -/
structure Machine.Comparable (m : Machine) (a : Handle) : Prop where
  eq : ∀ x, ReflTransGen m.heap.Contains a x → ∃ chain, m.KeepsInherited "==" x chain
  ne : ∃ chain, m.KeepsInherited "!=" a chain

/-- Whatever is reached through arrays is an object. -/
theorem Machine.Closed.valid_of_contains {m : Machine} (hm : m.Closed) {a x : Handle} (ha : m.Valid a)
    (hx : ReflTransGen m.heap.Contains a x) : m.Valid x := by
  induction hx with
  | refl => exact ha
  | @tail y x _ hyx ih =>
    have hhandle : x ∈ (m.object y).payload.handles := by
      change x ∈ (m.heap.get y).payload.handles
      unfold Heap.Contains Heap.items Object.array? at hyx
      generalize (m.heap.get y).payload = payload at hyx
      cases payload with
      | array items => exact hyx
      | _ => cases hyx
    exact hm.object y ih x (Object.mem_handles.mpr (.inr (.inr (.inr hhandle))))

/-- An object that keeps the inherited `==` answers with the one that goes with what it holds. -/
theorem Machine.KeepsInherited.answersEq {m : Machine} {h : Handle} {chain : List Handle}
    (hkeeps : m.KeepsInherited "==" h chain) (hm : m.Visited) (hh : m.Valid h) : m.AnswersEq h := by
  intro depth
  obtain ⟨hwell, _⟩ := belowClassEmpty_invariant.visited Boot.belowClassEmpty hm
  have hrooted := (hwell.nesting depth hwell.closed.inspecting).rooted
  exact (hkeeps.deeper depth).lookupMethod_eq hrooted
    (Machine.inheritedMethod?_eq hm hh hkeeps.lineage)

/-- **Equality of arrays is equality of values.**  If no cycle is reached from `a` and the builtin methods
are in use, `a == b` and `a != b` come to an end, change nothing, and answer whether `a` and `b` have the
same value.  They fail only for want of room, and one call more than arrays are nested in `a` is enough
for `==`, two are enough for `!=`.  Having the same value is an equivalence. -/
theorem array_equality_structural (m : Machine) (hm : m.Visited) (a b : Handle) (ha : m.Valid a)
    (hacyclic : m.heap.Acyclic a) (hcomparable : m.Comparable a) :
    (∃ depth, m.heap.NestsWithin a depth) ∧
    (∀ depth, m.heap.NestsWithin a depth →
      Judges (depth + 1) (fun fuel => (Run.engine fuel).send a "==" [b]) m (m.heap.SameValue a b) ∧
      Judges (depth + 2) (fun fuel => (Run.engine fuel).send a "!=" [b]) m
        (¬ m.heap.SameValue a b)) ∧
    (∀ x, m.heap.Acyclic x → m.heap.SameValue x x) ∧
    (∀ x y, m.heap.SameValue x y → m.heap.SameValue y x) ∧
    ∀ x y z, m.heap.SameValue x y → m.heap.SameValue y z → m.heap.SameValue x z := by
  obtain ⟨hwell, _⟩ := belowClassEmpty_invariant.visited Boot.belowClassEmpty hm
  have hanswers : ∀ x, ReflTransGen m.heap.Contains a x → m.AnswersEq x := fun x hx => by
    obtain ⟨chain, hkeeps⟩ := hcomparable.eq x hx
    exact hkeeps.answersEq hm (hwell.closed.valid_of_contains ha hx)
  obtain ⟨chain, hkeeps⟩ := hcomparable.ne
  obtain ⟨owner, hlookup⟩ :=
    hkeeps.lookupMethod_eq hwell.rooted (Machine.inheritedMethod?_ne hm hkeeps.lineage)
  refine ⟨hacyclic.exists_nestsWithin, fun depth hn => ⟨judges_eq hanswers hn m.depth b, ?_⟩,
    fun x hx => ?_, fun x y => .symm, fun x y z => .trans⟩
  · exact .sendBuiltin hlookup (judges_eq hanswers hn (m.depth + 1) b).differs
  · obtain ⟨depth, hn⟩ := hx.exists_nestsWithin
    exact hn.sameValue_self

/-- A script that makes a subclass `Row` of `Array`, an instance of it that holds the array `[1, "x"]`
twice and the symbol `:k`, and an array of two arrays `[1, "x"]` and the symbol `:k`. -/
def rowScript : Record where
  literals := ["x"]
  symbols := ["Array", "Row", "new", "k"]
  code :=
    { placed :=
        #[⟨0, { op := .getConst, a := 2, b := 0 }⟩, ⟨3, { op := .openClass, a := 1, b := 1 }⟩,
          ⟨6, { op := .send, a := 1, b := 2, c := 0 }⟩, ⟨10, { op := .load1, a := 2 }⟩,
          ⟨12, { op := .string, a := 3, b := 0 }⟩, ⟨15, { op := .array, a := 2, b := 2 }⟩,
          ⟨18, { op := .move, a := 3, b := 2 }⟩, ⟨21, { op := .loadSym, a := 4, b := 3 }⟩,
          ⟨24, { op := .arrayPush, a := 1, b := 3 }⟩, ⟨27, { op := .load1, a := 5 }⟩,
          ⟨29, { op := .string, a := 6, b := 0 }⟩, ⟨32, { op := .array, a := 5, b := 2 }⟩,
          ⟨35, { op := .load1, a := 6 }⟩, ⟨37, { op := .string, a := 7, b := 0 }⟩,
          ⟨40, { op := .array, a := 6, b := 2 }⟩, ⟨43, { op := .loadSym, a := 7, b := 3 }⟩,
          ⟨46, { op := .array, a := 5, b := 3 }⟩]
      size := 49 }

/-- The machine that the script leaves behind. -/
@[irreducible] def afterRowScript : Machine :=
  (Run.image 40 { (default : Image) with records := [rowScript] }).leaves Boot.machine

theorem reachable_afterRowScript : afterRowScript.Reachable := by
  have hends : (Run.image 40 { (default : Image) with records := [rowScript] }).Ends
      Boot.machine := .of_succeeds (by decide +kernel)
  unfold afterRowScript
  exact .executed (.boot {} {} {}) 40 _ hends

/-- The instance of `Row` has the handle 19: it is an array of arrays. -/
theorem nestsWithin_afterRowScript : afterRowScript.heap.NestsWithin ⟨19⟩ 2 := by
  obtain ⟨hrow, hshared, hone, htext, hsymbol⟩ :
      (afterRowScript.heap.get ⟨19⟩).array? = some #[⟨22⟩, ⟨22⟩, ⟨23⟩] ∧
      (afterRowScript.heap.get ⟨22⟩).array? = some #[⟨20⟩, ⟨21⟩] ∧
      (afterRowScript.heap.get ⟨20⟩).array? = none ∧ (afterRowScript.heap.get ⟨21⟩).array? = none ∧
      (afterRowScript.heap.get ⟨23⟩).array? = none := by decide +kernel
  have hinner : afterRowScript.heap.NestsWithin ⟨22⟩ 1 := by
    refine .array hshared ?_
    simpa using ⟨.leaf 0 hone, .leaf 0 htext⟩
  refine .array hrow ?_
  simpa using ⟨hinner, .leaf 1 hsymbol⟩

/-- The other array has the handle 31.  The first holds one array twice and the second two arrays. -/
theorem sameValue_afterRowScript : afterRowScript.heap.SameValue ⟨19⟩ ⟨31⟩ := by
  obtain ⟨hrow, hshared, hother, hfirst, hsecond⟩ :
      (afterRowScript.heap.get ⟨19⟩).array? = some #[⟨22⟩, ⟨22⟩, ⟨23⟩] ∧
      (afterRowScript.heap.get ⟨22⟩).array? = some #[⟨20⟩, ⟨21⟩] ∧
      (afterRowScript.heap.get ⟨31⟩).array? = some #[⟨26⟩, ⟨29⟩, ⟨30⟩] ∧
      (afterRowScript.heap.get ⟨26⟩).array? = some #[⟨24⟩, ⟨25⟩] ∧
      (afterRowScript.heap.get ⟨29⟩).array? = some #[⟨27⟩, ⟨28⟩] := by decide +kernel
  obtain ⟨hones, htexts, hsymbols⟩ :
      (∀ h ∈ [⟨20⟩, ⟨24⟩, ⟨27⟩], afterRowScript.heap.atom? h = some (.integer 1)) ∧
      (∀ h ∈ [⟨21⟩, ⟨25⟩, ⟨28⟩], afterRowScript.heap.atom? h = some (.string "x")) ∧
      ∀ h ∈ [⟨23⟩, ⟨30⟩], afterRowScript.heap.atom? h = some (.symbol "k") := by decide +kernel
  have hitem : ∀ c one text, (afterRowScript.heap.get c).array? = some #[one, text] →
      one ∈ [⟨20⟩, ⟨24⟩, ⟨27⟩] → text ∈ [⟨21⟩, ⟨25⟩, ⟨28⟩] →
      afterRowScript.heap.SameValue ⟨22⟩ c := by
    intro c one text hc hone htext
    refine .of_forall₂ hshared hc (.cons (.atom (hones _ ?_) (hones _ hone))
      (.cons (.atom (htexts _ ?_) (htexts _ htext)) .nil)) <;> decide
  refine .of_forall₂ hrow hother (.cons (hitem _ _ _ hfirst ?_ ?_) (.cons (hitem _ _ _ hsecond ?_ ?_)
    (.cons (.atom (hsymbols _ ?_) (hsymbols _ ?_)) .nil))) <;> decide

theorem comparable_afterRowScript : afterRowScript.Comparable ⟨19⟩ := by
  obtain ⟨hclosed, hkept, hne⟩ :
      (∀ x ∈ [⟨19⟩, ⟨20⟩, ⟨21⟩, ⟨22⟩, ⟨23⟩],
        afterRowScript.heap.items x ⊆ [⟨19⟩, ⟨20⟩, ⟨21⟩, ⟨22⟩, ⟨23⟩]) ∧
      (∀ x ∈ [⟨19⟩, ⟨20⟩, ⟨21⟩, ⟨22⟩, ⟨23⟩], ∃ chain ∈
        [⟨18⟩, Handle.arrayClass, Handle.objectClass] :: Handle.builtinRows,
        afterRowScript.KeepsInherited "==" x chain) ∧
      afterRowScript.KeepsInherited "!=" ⟨19⟩ [⟨18⟩, Handle.arrayClass, Handle.objectClass] := by
    decide +kernel
  refine ⟨fun x hx => ?_, _, hne⟩
  have hmem : x ∈ [⟨19⟩, ⟨20⟩, ⟨21⟩, ⟨22⟩, ⟨23⟩] := by
    induction hx with
    | refl => exact List.mem_cons_self
    | tail _ hxy ih => exact hclosed _ ih hxy
  obtain ⟨chain, _, hkeeps⟩ := hkept x hmem
  exact ⟨chain, hkeeps⟩

/-- The two are equal, though one of them is an instance of a subclass. -/
theorem array_equality_structural_afterRowScript :
    afterRowScript.Visited ∧ afterRowScript.Valid ⟨19⟩ ∧ afterRowScript.heap.Acyclic ⟨19⟩ ∧
    afterRowScript.Comparable ⟨19⟩ ∧
    ∃ enough, ∀ fuel, enough ≤ fuel →
      (Run.engine fuel).send ⟨19⟩ "==" [⟨31⟩] afterRowScript = .ok Handle.yes afterRowScript ∧
      (Run.engine fuel).send ⟨19⟩ "!=" [⟨31⟩] afterRowScript = .ok Handle.no afterRowScript := by
  obtain ⟨hvalid, hroom⟩ : 19 < afterRowScript.heap.size ∧ 4 ≤ afterRowScript.room := by
    decide +kernel
  have hvisited : afterRowScript.Visited := .resting reachable_afterRowScript
  have hacyclic := nestsWithin_afterRowScript.acyclic
  obtain ⟨_, hjudges, _⟩ := array_equality_structural afterRowScript hvisited ⟨19⟩ ⟨31⟩ hvalid
    hacyclic comparable_afterRowScript
  obtain ⟨heq, hdiffers⟩ := hjudges 2 nestsWithin_afterRowScript
  obtain ⟨enough, hyes⟩ :=
    heq.exists_answer (by omega) true (iff_of_true rfl sameValue_afterRowScript)
  obtain ⟨enough', hno⟩ := hdiffers.exists_answer hroom false
    (iff_of_false Bool.false_ne_true (not_not_intro sameValue_afterRowScript))
  refine ⟨hvisited, hvalid, hacyclic, comparable_afterRowScript, max enough enough', ?_⟩
  intro fuel hfuel
  exact ⟨hyes fuel (by omega), hno fuel (by omega)⟩

end Rite
