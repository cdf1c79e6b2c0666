import Rite.Proofs.BuiltinInstances
import Rite.Proofs.ClassVariables

/-!
# What objects inherit from the builtin classes

A class may descend from `Array` or `String`, and its instances are then arrays or strings with methods
of their own.  What an instance holds is decided once, when it is made, by the nearest builtin ancestor
of its class; which builtin method answers a message is decided anew each time, by a walk along the same
chain.  That the two agree, so that a builtin method never meets an object of the wrong kind, is an
invariant of programs (`AncestralPayloads`).

With it, and with the methods of a name left as they were along the whole chain (`KeepsInherited`), it is
known which builtin method an object inherits.
-/

namespace Rite

/-! ## Payloads -/

/-- The builtin class that goes with a payload, if its instances all hold the same kind of payload. -/
def Payload.valueClass? (payload : Payload) : Option Handle :=
  payload.builtinClass?.filter (· ∈ Handle.valueClasses)

/-- The nearest ancestor of a chain whose instances all hold the same kind of payload. -/
def Handle.valueAncestor? (chain : List Handle) : Option Handle :=
  chain.find? (· ∈ valueClasses)

namespace Machine

variable {m m₁ : Machine} {c h : Handle} {chain : List Handle}

/-- What an object holds goes with the nearest ancestor of its class whose instances all hold the same
kind of payload, and with nothing of that sort if there is no such ancestor. -/
def AncestralPayloads (m : Machine) : Prop :=
  ∀ h, m.Valid h → ∀ chain, m.Lineage (m.classOf h) chain →
    Handle.valueAncestor? chain = (m.object h).payload.valueClass?

theorem lineage_root (hm : m.Rooted) (h : m.Lineage Handle.objectClass chain) :
    chain = [Handle.objectClass] :=
  Lineage.unique hm .root h

/-- A builtin class other than `Object` has no ancestor but `Object`. -/
theorem Lineage.eq_of_builtin (hm : m.Rooted) (hempty : m.BelowClassEmpty) (hc : c.index < 13)
    (hne : c ≠ Handle.objectClass) (h : m.Lineage c chain) : chain = [c, Handle.objectClass] := by
  cases h with
  | root => exact absurd rfl hne
  | step hs hchain =>
    cases hempty.builtin c _ hc hs
    rw [lineage_root hm hchain]

theorem Lineage.of_superclassOf? (h : m₁.Lineage c chain)
    (hsame : ∀ d, m₁.superclassOf? d = m.superclassOf? d) : m.Lineage c chain := by
  induction h with
  | root => exact .root
  | step hs _ ih => exact .step ((hsame _).symm.trans hs) ih

/-- The ancestors of a class do not change when the machine grows. -/
theorem Extends.lineage_of (he : m.Extends m₁) (hm : m.Rooted) (hc : m.isProperClass c = true)
    (h : m₁.Lineage c chain) : m.Lineage c chain := by
  induction h with
  | root => exact .root
  | step hs _ ih =>
    obtain ⟨hs, hproper⟩ := he.parent_of hm hc hs
    exact .step hs (ih hproper)

/-- What a class says about the payload of an instance: it decides, refuses or leaves it to its
superclass. -/
theorem builtinPayload_cases (m : Machine) (instantiated c : Handle) :
    (∃ payload, m.builtinPayload instantiated c = .ok (some payload) ∧
      c ∈ Handle.valueClasses ∧ payload.valueClass? = some c) ∨
    (∃ fault, m.builtinPayload instantiated c = .error fault) ∨
    (m.builtinPayload instantiated c = .ok none ∧ c ∉ Handle.valueClasses) := by
  unfold builtinPayload
  split_ifs with hstring harray hhash hrefuses
  · exact .inl ⟨_, rfl, by rw [hstring]; decide, by rw [hstring]; decide⟩
  · exact .inl ⟨_, rfl, by rw [harray]; decide, by rw [harray]; decide⟩
  · exact .inl ⟨_, rfl, by rw [hhash]; decide, by rw [hhash]; decide⟩
  · exact .inr (.inl ⟨_, rfl⟩)
  · refine .inr (.inr ⟨rfl, fun hmem => ?_⟩)
    have hall : ∀ d ∈ Handle.valueClasses, d ≠ Handle.stringClass → d ≠ Handle.arrayClass →
        d ≠ Handle.hashClass → uninstantiable.contains d = true := by decide
    exact hrefuses (hall c hmem hstring harray hhash)

theorem valueAncestor?_cons_of_mem (hc : c ∈ Handle.valueClasses) :
    Handle.valueAncestor? (c :: chain) = some c :=
  List.find?_cons_of_pos (decide_eq_true hc)

theorem valueAncestor?_cons_of_not_mem (hc : c ∉ Handle.valueClasses) :
    Handle.valueAncestor? (c :: chain) = Handle.valueAncestor? chain :=
  List.find?_cons_of_neg (by simpa using hc)

/-- The walk for the payload of a new instance comes to a decision at the nearest ancestor of that sort,
or passes all ancestors by. -/
theorem Lineage.valueAncestor?_of_ascend (hm : m.Rooted) (h : m.Lineage c chain)
    {instantiated : Handle} {tooDeep : Handle → Fault} {hops : Nat} {found : Option Payload}
    (hfound : m.ascend (m.builtinPayload instantiated) tooDeep hops (some c) = .ok found) :
    Handle.valueAncestor? chain = (found.getD .plain).valueClass? := by
  induction h generalizing hops with
  | root =>
    have hvisit : m.builtinPayload instantiated Handle.objectClass = .ok none := rfl
    unfold ascend at hfound
    rw [hvisit] at hfound
    cases hops with
    | zero => cases hfound
    | succ hops =>
      dsimp only at hfound
      rw [hm.root, ascend_none] at hfound
      cases hfound
      rfl
  | @step c s chain hs _ ih =>
    unfold ascend at hfound
    rcases m.builtinPayload_cases instantiated c with ⟨payload, hvisit, hmem, hclass⟩ | ⟨_, hvisit⟩ |
      ⟨hvisit, hfree⟩ <;> rw [hvisit] at hfound
    · cases hfound
      rw [valueAncestor?_cons_of_mem hmem]
      exact hclass.symm
    · cases hfound
    · rw [valueAncestor?_cons_of_not_mem hfree]
      cases hops with
      | zero => cases hfound
      | succ hops =>
        dsimp only at hfound
        rw [show m.superclassOf? c = some s from hs] at hfound
        exact ih hfound

theorem Lineage.valueAncestor?_of_freshPayload (hm : m.Rooted) (h : m.Lineage c chain)
    {payload : Payload} (hfresh : m.freshPayload c = .ok payload) :
    Handle.valueAncestor? chain = payload.valueClass? := by
  unfold freshPayload at hfresh
  split at hfresh
  · next found hfound =>
    cases hfresh
    exact h.valueAncestor?_of_ascend hm hfound
  · next hfound =>
    cases hfresh
    exact h.valueAncestor?_of_ascend hm hfound
  · cases hfresh

theorem Lineage.valueAncestor?_of_builtin (hm : m.Rooted) (hempty : m.BelowClassEmpty)
    (h : m.Lineage c chain) {payload : Payload} (hpayload : payload.builtinClass? = some c) :
    Handle.valueAncestor? chain = payload.valueClass? := by
  have hne : c ≠ Handle.objectClass := by
    rintro rfl
    unfold Payload.builtinClass? at hpayload
    cases payload with
    | ofClass info =>
      dsimp only at hpayload
      split at hpayload <;> cases hpayload
    | _ => cases hpayload
  rw [h.eq_of_builtin hm hempty (Payload.index_lt_of_builtinClass? hpayload) hne]
  unfold Payload.valueClass?
  rw [hpayload]
  by_cases hmem : c ∈ Handle.valueClasses
  · rw [valueAncestor?_cons_of_mem hmem, Option.filter_some, if_pos (decide_eq_true hmem)]
  · rw [valueAncestor?_cons_of_not_mem hmem, Option.filter_some, if_neg (by simpa using hmem)]
    rfl

end Machine

/-- **Programs keep payloads and ancestors together.** -/
theorem ancestralPayloads_invariant :
    Invariant .full fun m => m.BelowClassEmpty ∧ m.AncestralPayloads where
  heap m m' hheap hI := by
    refine ⟨belowClassEmpty_invariant.heap m m' hheap hI.1, fun h hh chain hchain => ?_⟩
    obtain ⟨heap, _, _, _, _, _, _, _⟩ := m'
    cases hheap
    exact hI.2 h hh chain (hchain.of_superclassOf? fun _ => rfl)
  effect {α K a a' V m} hm hK hI heffect := by
    refine ⟨belowClassEmpty_invariant.effect hm hK hI.1 heffect, ?_⟩
    have hmade := (heffect.eq_and_made (hK ▸ hm.pairing_le_same)).2.1
    have hgrows : m.Grows (a.leaves m) := (grows_history.of_made hmade m).leaves
    have hstep : HeapStep .full m (a.leaves m).heap := heffect.heapStep m
    generalize a.leaves m = m₁ at hgrows hstep
    obtain ⟨hempty, hold⟩ := hI
    intro h hh chain hchain
    by_cases hvalid : m.Valid h
    · rw [show m₁.classOf h = m.classOf h from (hgrows.object h hvalid).isa] at hchain
      have hpayload := (hgrows.object h hvalid).payload.builtinClass?_eq
      rw [hold h hvalid chain (hgrows.extends.lineage_of hm.rooted (hm.rooted.isa h hvalid) hchain)]
      exact (congrArg (Option.filter _) hpayload).symm
    · rcases hstep.new_object hh hvalid with hbuiltin | hmakes
      · have hproper := hm.rooted.builtin _ (Payload.index_lt_of_builtinClass? hbuiltin)
        exact (hgrows.extends.lineage_of hm.rooted hproper hchain).valueAncestor?_of_builtin hm.rooted
          hempty hbuiltin
      · exact (hgrows.extends.lineage_of hm.rooted hmakes.isProperClass
          hchain).valueAncestor?_of_freshPayload hm.rooted hmakes.freshPayload

theorem Boot.ancestralPayloads : machine.AncestralPayloads := by
  have hplain : ∀ i < 18, (machine.object ⟨i⟩).payload.valueClass? = none := by decide +kernel
  have hisa : ∀ i < 18, (machine.classOf ⟨i⟩).index < 13 ∧
      machine.classOf ⟨i⟩ ∉ Handle.valueClasses := by decide +kernel
  refine forall_valid fun i hi chain hchain => ?_
  rw [hplain i hi]
  obtain ⟨hbuiltin, hfree⟩ := hisa i hi
  by_cases hne : machine.classOf ⟨i⟩ = Handle.objectClass
  · rw [hne] at hchain
    rw [Machine.lineage_root rooted hchain]
    rfl
  · rw [hchain.eq_of_builtin rooted belowClassEmpty hbuiltin hne,
      Machine.valueAncestor?_cons_of_not_mem hfree]
    rfl

/-- What an object holds goes with its ancestors, at any time in any run. -/
theorem Machine.Visited.ancestralPayloads {m : Machine} (hm : m.Visited) : m.AncestralPayloads :=
  (ancestralPayloads_invariant.visited ⟨Boot.belowClassEmpty, Boot.ancestralPayloads⟩ hm).2.2

/-! ## Inherited methods -/

/-- The rows of ancestors that the builtin classes have. -/
def Handle.builtinRows : List (List Handle) :=
  [objectClass] :: (List.range 12).map fun i => [⟨i + 1⟩, objectClass]

namespace Machine

variable {m : Machine} {c h : Handle} {chain : List Handle} {name : String}

/-- A row of ancestors is that of a builtin class, with classes made by programs before it. -/
theorem Lineage.exists_builtinRow (hm : m.Rooted) (hempty : m.BelowClassEmpty)
    (h : m.Lineage c chain) :
    ∃ made, ∃ row ∈ Handle.builtinRows, chain = made ++ row ∧ ∀ d ∈ made, 13 ≤ d.index := by
  induction h with
  | root => exact ⟨[], _, List.mem_cons_self, rfl, by simp⟩
  | @step c s chain hs hchain ih =>
    by_cases hbuiltin : c.index < 13
    · have hne : c ≠ Handle.objectClass := by
        rintro rfl
        cases hm.root.symm.trans hs
      have hpos : c.index ≠ 0 := fun hzero => hne (congrArg Handle.mk hzero)
      refine ⟨[], [c, Handle.objectClass], List.mem_cons_of_mem _ (List.mem_map.mpr
        ⟨c.index - 1, List.mem_range.mpr (by omega), ?_⟩), ?_, by simp⟩
      · rw [Nat.sub_add_cancel (Nat.pos_of_ne_zero hpos)]
      · exact Lineage.eq_of_builtin hm hempty hbuiltin hne (.step hs hchain)
    · obtain ⟨made, row, hrow, rfl, hmade⟩ := ih
      exact ⟨c :: made, row, hrow, rfl, List.forall_mem_cons.mpr ⟨Nat.le_of_not_lt hbuiltin, hmade⟩⟩

/-- Classes made by programs start with no methods. -/
theorem builtinMethod?_of_made (hc : 13 ≤ c.index) (name : String) : builtinMethod? c name = none := by
  have hne : ∀ d : Handle, d.index < 13 → c ≠ d := by
    rintro d hd rfl
    exact absurd hc (Nat.not_le_of_lt hd)
  have hempty : Catalogue.ofClass c = [] := by
    unfold Catalogue.ofClass
    simp (disch := decide) only [hne, if_false]
  unfold builtinMethod?
  rw [hempty]
  rfl

/-- The builtin method `name` of the nearest class in a row. -/
def inheritedMethod? (chain : List Handle) (name : String) : Option Native :=
  chain.findSome? (builtinMethod? · name)

theorem inheritedMethod?_append {made row : List Handle} (hmade : ∀ d ∈ made, 13 ≤ d.index) :
    inheritedMethod? (made ++ row) name = inheritedMethod? row name := by
  have hnone : made.findSome? (builtinMethod? · name) = none :=
    List.findSome?_eq_none_iff.mpr fun d hd => builtinMethod?_of_made (hmade d hd) name
  unfold inheritedMethod?
  rw [List.findSome?_append, hnone, Option.none_or]

theorem valueAncestor?_append {made row : List Handle} (hmade : ∀ d ∈ made, 13 ≤ d.index) :
    Handle.valueAncestor? (made ++ row) = Handle.valueAncestor? row := by
  have hbuiltin : ∀ d ∈ Handle.valueClasses, d.index < 13 := by decide
  have hnone : Handle.valueAncestor? made = none := by
    refine List.find?_eq_none.mpr fun d hd hmem => ?_
    exact absurd (hbuiltin d (of_decide_eq_true hmem)) (Nat.not_lt_of_le (hmade d hd))
  unfold Handle.valueAncestor? at hnone ⊢
  rw [List.find?_append, hnone, Option.none_or]

/-- Messages `name` to `h` are left to the builtin methods of its ancestors: these stand in the tables
of their classes as they did at the start, no other class of the row and no singleton class has a method
of the name, and the row is short enough to be searched. -/
structure KeepsInherited (m : Machine) (name : String) (h : Handle) (chain : List Handle) : Prop where
  lineage : m.Lineage (m.classOf h) chain
  length : chain.length ≤ m.limits.maxClassDepth + 1
  kept : ∀ c ∈ chain, m.entry? name c =
    (builtinMethod? c name).map fun method => ⟨c, .native method⟩
  unshadowed : m.singletonMethod? h name = none

/-- A row of ancestors is one where each class is followed by its superclass, up to `Object`. -/
theorem lineage_iff : m.Lineage c chain ↔ chain.head? = some c ∧
    chain.getLast? = some Handle.objectClass ∧ chain.IsChain fun c s => m.superclassOf? c = some s := by
  constructor
  · intro h
    induction h with
    | root => exact ⟨rfl, rfl, .singleton _⟩
    | @step c s chain hs _ ih =>
      obtain ⟨hhead, hlast, hchain⟩ := ih
      obtain ⟨rest, rfl⟩ := List.head?_eq_some_iff.mp hhead
      exact ⟨rfl, hlast, .cons_cons hs hchain⟩
  · rintro ⟨hhead, hlast, hchain⟩
    induction hchain generalizing c with
    | nil => cases hhead
    | singleton d =>
      cases hhead
      cases hlast
      exact .root
    | cons_cons hs _ ih =>
      cases hhead
      exact .step hs (ih rfl hlast)

instance (m : Machine) (c : Handle) (chain : List Handle) : Decidable (m.Lineage c chain) :=
  decidable_of_iff _ lineage_iff.symm

instance (m : Machine) (name : String) (h : Handle) (chain : List Handle) :
    Decidable (m.KeepsInherited name h chain) :=
  decidable_of_iff
    (m.Lineage (m.classOf h) chain ∧ chain.length ≤ m.limits.maxClassDepth + 1 ∧
      (∀ c ∈ chain, isBuiltinOf c (builtinMethod? c name) (m.entry? name c) = true) ∧
      (m.singletonMethod? h name).isNone = true)
    ⟨fun h => ⟨h.1, h.2.1, fun c hc => isBuiltinOf_iff.mp (h.2.2.1 c hc),
      Option.isNone_iff_eq_none.mp h.2.2.2⟩,
     fun h => ⟨h.lineage, h.length, fun c hc => isBuiltinOf_iff.mpr (h.kept c hc),
      Option.isNone_iff_eq_none.mpr h.unshadowed⟩⟩

/-- The nearest ancestor with a builtin method of the name is found. -/
theorem KeepsInherited.lookupMethod_eq (hkeeps : m.KeepsInherited name h chain) (hm : m.Rooted)
    {method : Native} (hmethod : inheritedMethod? chain name = some method) :
    ∃ owner, m.lookupMethod h name = .ok ⟨owner, .native method⟩ := by
  obtain ⟨before, owner, after, rfl, howner, hbefore⟩ := List.findSome?_eq_some_iff.mp hmethod
  have hchain := hkeeps.lineage.superclassChain hm
  have hown : ∀ c ∈ before ++ owner :: after, m.ownMethod name c =
      .ok ((builtinMethod? c name).map fun method => ⟨c, .native method⟩) := fun c hc => by
    rw [ownMethod_eq (hchain.isClass c hc), hkeeps.kept c hc]
  have hfound : m.lookupFrom (some (m.classOf h)) name = .ok (some ⟨owner, .native method⟩) := by
    have howner' : m.ownMethod name owner = .ok (some ⟨owner, .native method⟩) := by
      rw [hown owner (by simp), howner]
      rfl
    have hlength := hkeeps.length
    rw [List.length_append, List.length_cons] at hlength
    refine (hchain.ascend_found _ (d := owner) (k := before.length) (by simp) (fun b hb => ?_) ?_
      (by omega)).trans howner'
    · rw [List.take_left] at hb
      rw [hown b (List.mem_append_left _ hb), hbefore b hb]
      rfl
    · rw [howner']
      simp
  refine ⟨owner, ?_⟩
  unfold lookupMethod
  rw [hkeeps.unshadowed]
  dsimp only
  rw [hfound]
  rfl

/-- How deep calls are nested does not matter. -/
theorem KeepsInherited.deeper (hkeeps : m.KeepsInherited name h chain) (depth : Nat) :
    KeepsInherited { m with depth := depth } name h chain :=
  ⟨hkeeps.lineage.of_superclassOf? fun _ => rfl, hkeeps.length, hkeeps.kept, hkeeps.unshadowed⟩

end Machine

end Rite
