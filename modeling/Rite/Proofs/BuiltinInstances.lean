import Rite.Proofs.Resolution

/-!
# Instances of the builtin classes

What an object holds is settled when it is made, and so is its class.  Objects of a builtin class are
made in two ways, by the machine itself and by asking the class for an instance, and both ways they get
what goes with the class: an instance of `Array` holds items, an instance of `Hash` holds pairs.  This
is not true of machines as such, but it is an invariant of programs (`BuiltinInstances`).

With it, and with the builtin methods in their places (`KeepsBuiltin`), it is known what such an object
answers.
-/

namespace Rite

/-- The builtin classes whose instances all hold the same kind of payload. -/
def Handle.valueClasses : List Handle :=
  [integerClass, stringClass, symbolClass, arrayClass, hashClass, rangeClass, procClass]

/-- The objects `nil`, `true` and `false`, with their classes. -/
def Handle.singular : List (Handle × Handle) :=
  [(nil, nilClass), (yes, trueClass), (no, falseClass)]

/-- Instances of the builtin classes hold what goes with their class, and `nil`, `true` and `false` are
plain objects of the classes made for them. -/
structure Machine.BuiltinInstances (m : Machine) : Prop where
  payload : ∀ h, m.Valid h → m.classOf h ∈ Handle.valueClasses →
    (m.object h).payload.builtinClass? = some (m.classOf h)
  singular : ∀ x ∈ Handle.singular, m.classOf x.1 = x.2 ∧ (m.object x.1).payload = .plain

/-- What a builtin class gives its instances to start with goes with it. -/
theorem Machine.builtinClass?_of_freshPayload {m : Machine} {c : Handle} {payload : Payload}
    (hc : c ∈ Handle.valueClasses) (h : m.freshPayload c = .ok payload) :
    payload.builtinClass? = some c := by
  unfold freshPayload ascend at h
  simp only [Handle.valueClasses, List.mem_cons, List.not_mem_nil, or_false] at hc
  rcases hc with rfl | rfl | rfl | rfl | rfl | rfl | rfl <;> cases h <;> rfl

/-- The kind of a payload never changes. -/
theorem Payload.Grows.builtinClass?_eq {p p' : Payload} (h : p.Grows p') :
    p'.builtinClass? = p.builtinClass? := by
  cases h <;> rfl

/-- **Programs keep the instances of builtin classes in order.** -/
theorem builtinInstances_invariant : Invariant .full Machine.BuiltinInstances where
  heap m m' hheap h := by
    obtain ⟨heap, _, _, _, _, _, _, _⟩ := m'
    cases hheap
    exact ⟨h.payload, h.singular⟩
  effect {α K a a' V m} hm hK hold heffect := by
    have hmade := (heffect.eq_and_made (hK ▸ hm.pairing_le_same)).2.1
    have hgrows : m.Grows (a.leaves m) := (grows_history.of_made hmade m).leaves
    have hstep : HeapStep .full m (a.leaves m).heap := heffect.heapStep m
    generalize a.leaves m = m₁ at hgrows hstep
    have hisa : ∀ h, m.Valid h → m₁.classOf h = m.classOf h := fun h hh => (hgrows.object h hh).isa
    refine ⟨fun h hh hc => ?_, fun x hx => ?_⟩
    · by_cases hvalid : m.Valid h
      · rw [hisa h hvalid] at hc ⊢
        rw [(hgrows.object h hvalid).payload.builtinClass?_eq]
        exact hold.payload h hvalid hc
      · rcases hstep.new_object hh hvalid with hbuiltin | hmakes
        · exact hbuiltin
        · exact Machine.builtinClass?_of_freshPayload hc hmakes.freshPayload
    · have hindex : ∀ x ∈ Handle.singular, x.1.index < 17 := by decide
      have hvalid : m.Valid x.1 := Nat.lt_of_lt_of_le (hindex x hx) hm.rooted.size
      obtain ⟨hclass, hplain⟩ := hold.singular x hx
      have hpayload := (hgrows.object x.1 hvalid).payload
      rw [hplain] at hpayload
      refine ⟨(hisa x.1 hvalid).trans hclass, ?_⟩
      generalize (m₁.object x.1).payload = p at hpayload
      cases hpayload
      rfl

theorem Boot.builtinInstances : machine.BuiltinInstances := by
  have hpayload : ∀ i < 18, machine.classOf ⟨i⟩ ∉ Handle.valueClasses := by decide +kernel
  refine ⟨forall_valid fun i hi hc => absurd hc (hpayload i hi), fun x hx => ?_⟩
  simp only [Handle.singular, List.mem_cons, List.not_mem_nil, or_false] at hx
  rcases hx with rfl | rfl | rfl <;> exact ⟨rfl, rfl⟩

namespace Machine

variable {m m₁ : Machine} {h : Handle} {name : String}

/-! ## Builtin methods in their places -/

/-- The builtin method `name` of the class `c`. -/
def builtinMethod? (c : Handle) (name : String) : Option Native :=
  (Catalogue.ofClass c).find? (·.name == name)

/-- Messages `name` to `h` are left to the builtin method of its class: that stands in the table of the
class as it did at the start, and the singleton class of `h` has no method of the name. -/
structure KeepsBuiltin (m : Machine) (name : String) (h : Handle) : Prop where
  kept : m.entry? name (m.classOf h) =
    (builtinMethod? (m.classOf h) name).map fun method => ⟨m.classOf h, .native method⟩
  unshadowed : m.singletonMethod? h name = none

/-- Whether what was found in the table of `c` is the builtin method, or nothing if there is none. -/
def isBuiltinOf (c : Handle) : Option Native → Option Found → Bool
  | some method, some ⟨owner, .native kept⟩ => owner = c && kept = method
  | none, none => true
  | _, _ => false

theorem isBuiltinOf_iff {c : Handle} {method : Option Native} {found : Option Found} :
    isBuiltinOf c method found = true ↔ found = method.map fun method => ⟨c, .native method⟩ := by
  rcases found with _ | ⟨owner, _ | _ | _ | _⟩ <;> cases method <;> simp [isBuiltinOf]

instance (m : Machine) (name : String) (h : Handle) : Decidable (m.KeepsBuiltin name h) :=
  decidable_of_iff
    (isBuiltinOf (m.classOf h) (builtinMethod? (m.classOf h) name) (m.entry? name (m.classOf h)) = true
      ∧ (m.singletonMethod? h name).isNone = true)
    ⟨fun h => ⟨isBuiltinOf_iff.mp h.1, Option.isNone_iff_eq_none.mp h.2⟩,
     fun h => ⟨isBuiltinOf_iff.mpr h.kept, Option.isNone_iff_eq_none.mpr h.unshadowed⟩⟩

theorem KeepsBuiltin.lookupMethod_eq (hkeeps : m.KeepsBuiltin name h) {method : Native}
    (hmethod : builtinMethod? (m.classOf h) name = some method) :
    m.lookupMethod h name = .ok ⟨m.classOf h, .native method⟩ := by
  have hentry := hkeeps.kept
  rw [hmethod, Option.map_some] at hentry
  have hown : m.ownMethod name (m.classOf h) = .ok (some ⟨m.classOf h, .native method⟩) := by
    rw [ownMethod_eq ?_, hentry]
    obtain ⟨info, hinfo, _⟩ := Option.bind_eq_some_iff.mp hentry
    exact Option.isSome_iff_exists.mpr ⟨info, hinfo⟩
  unfold lookupMethod
  rw [hkeeps.unshadowed]
  -- The class itself has the method, so not a single hop is taken.
  unfold lookupFrom ascend
  rw [hown]
  rfl

end Machine

/-! ## More objects -/

/-- The objects of `heap` are there in `heap₁` as they are, perhaps with others. -/
structure Heap.Within (heap heap₁ : Heap) : Prop where
  size : heap.size ≤ heap₁.size
  get : ∀ h : Handle, h.index < heap.size → heap₁.get h = heap.get h

namespace Heap.Within

variable {heap heap₁ heap₂ : Heap}

theorem refl (heap : Heap) : heap.Within heap := ⟨Nat.le_refl _, fun _ _ => rfl⟩

theorem trans (h : heap.Within heap₁) (h' : heap₁.Within heap₂) : heap.Within heap₂ :=
  ⟨Nat.le_trans h.size h'.size, fun x hx =>
    (h'.get x (Nat.lt_of_lt_of_le hx h.size)).trans (h.get x hx)⟩

theorem push (heap : Heap) (o : Object) : heap.Within (heap.push o) := by
  refine ⟨by simp, fun h hh => ?_⟩
  rw [Heap.get_push, if_neg (Nat.ne_of_lt hh)]

end Heap.Within

/-- More objects leave the builtin methods in their places. -/
theorem Machine.KeepsBuiltin.within {m m₁ : Machine} {h : Handle} {name : String}
    (hkeeps : m.KeepsBuiltin name h) (hm : m.WellFormed) (hh : m.Valid h)
    (hw : m.heap.Within m₁.heap) : m₁.KeepsBuiltin name h := by
  have hobject : m₁.object h = m.object h := hw.get h hh
  have hclass : m₁.classOf h = m.classOf h := congrArg Object.isa hobject
  have hinfo : ∀ c, m.Valid c → m₁.classInfo? c = m.classInfo? c := fun c hc =>
    congrArg Object.classInfo? (hw.get c hc)
  constructor
  · rw [hclass, ← hkeeps.kept]
    unfold entry?
    rw [hinfo _ (valid_of_isProperClass (hm.rooted.isa h hh))]
  · rw [← hkeeps.unshadowed]
    unfold singletonMethod?
    rw [hobject]
    cases hs : (m.object h).singleton with
    | none => rfl
    | some s =>
      dsimp only
      rw [hinfo s (valid_of_isProperClass (hm.singletons.shape h s hh hs).1)]

end Rite
