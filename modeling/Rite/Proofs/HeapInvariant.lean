import Rite.Proofs.Nesting
import Mathlib.Logic.Relation

/-!
# The heap stays well-formed

What every machine can rely on, whatever programs it has executed: no stored handle leads outside of
the heap; the class of every object is a class; lines of descent lead down to `Object` through
smaller and smaller handles; and the singleton class of an object is a class of its own.

The invariant comes in three parts, `Machine.Closed`, `Machine.Rooted` and `Machine.SingletonsApart`,
which `Machine.WellFormed` puts together.  It is checked here once for each effect a program can have
(`Effect.preserves`), and it holds at the start (`Machine.boot_wellFormed`).  Whole programs follow in
`Rite.Proofs.Visited`, together with all that is asked of a machine beside it.
-/

namespace Rite

variable {α β : Type}

/-! ## Reading a changed heap -/

namespace Heap

variable (heap : Heap)

@[simp] theorem size_push (o : Object) : (heap.push o).size = heap.size + 1 :=
  Array.size_push o

@[simp] theorem size_modify (h : Handle) (f : Object → Object) :
    (heap.modify h f).size = heap.size :=
  Array.size_modify

/-- A new object is inside the heap it was added to. -/
theorem next_lt_size_push (o : Object) : heap.next.index < (heap.push o).size := by
  rw [size_push]
  exact Nat.lt_succ_self _

theorem get_of_size_le {h : Handle} (hh : heap.size ≤ h.index) : heap.get h = nothing := by
  unfold get
  rw [Array.getD_eq_getD_getElem?, Array.getElem?_eq_none hh]
  rfl

/-- An object that holds something is in the heap. -/
theorem index_lt_of_payload {heap : Heap} {h : Handle} (hp : (heap.get h).payload ≠ .plain) :
    h.index < heap.size := by
  by_contra hout
  rw [get_of_size_le _ (Nat.le_of_not_lt hout)] at hp
  exact hp rfl

theorem index_lt_of_array {heap : Heap} {h : Handle} {items : Array Handle}
    (hread : (heap.get h).array? = some items) : h.index < heap.size := by
  refine index_lt_of_payload fun hp => ?_
  rw [Object.array?, hp] at hread
  cases hread

theorem get_push (o : Object) (h : Handle) :
    (heap.push o).get h = if h.index = heap.size then o else heap.get h := by
  unfold get push size
  simp only [Array.getD_eq_getD_getElem?, Array.getElem?_push]
  split <;> rfl

theorem get_modify (h x : Handle) (f : Object → Object) :
    (heap.modify h f).get x =
      if x = h ∧ h.index < heap.size then f (heap.get h) else heap.get x := by
  obtain ⟨i⟩ := h
  obtain ⟨j⟩ := x
  unfold get modify size
  simp only [Array.getD_eq_getD_getElem?, Array.getElem?_modify, Handle.mk.injEq]
  -- Outside of the heap there is nothing to change, so the change shows at a valid handle only.
  by_cases hij : i = j
  · subst hij
    by_cases hi : i < heap.objects.size
    · simp only [if_true, true_and, if_pos hi, Array.getElem?_eq_getElem hi, Option.map_some,
        Option.getD_some]
    · simp only [if_true, true_and, if_neg hi, Array.getElem?_eq_none (Nat.le_of_not_lt hi),
        Option.map_none]
  · have hji : ¬ j = i := fun h => hij h.symm
    simp only [if_neg hij, hji, false_and, if_false]

end Heap

/-- The part of a class that lines of descent depend on: its superclass, and whether it is a
module. -/
def Object.outline (o : Object) : Option (Option Handle × Bool) :=
  o.classInfo?.map fun info => (info.superclass, info.isModule)

namespace Machine

variable {m m₁ : Machine} {c h : Handle}

theorem isProperClass_iff :
    m.isProperClass c = true ↔ ∃ parent, (m.object c).outline = some (parent, false) := by
  unfold isProperClass Object.outline classInfo?
  cases (m.object c).classInfo? with
  | none => simp
  | some info => simp

theorem superclassOf?_eq : m.superclassOf? c = (m.object c).outline.bind (·.1) := by
  unfold superclassOf? Object.outline classInfo?
  cases (m.object c).classInfo? <;> rfl

theorem isClass_eq : m.isClass c = (m.object c).outline.isSome := by
  unfold isClass Object.outline classInfo?
  cases (m.object c).classInfo? <;> rfl

/-! ## The invariant -/

/-- The handle leads to an object of the heap. -/
def Valid (m : Machine) (h : Handle) : Prop := h.index < m.heap.size

/-- Every stored handle leads to an object. -/
structure Closed (m : Machine) : Prop where
  object : ∀ h, m.Valid h → ∀ x ∈ (m.object h).handles, m.Valid x
  globals : ∀ x ∈ m.globals.entries, m.Valid x.2
  constants : ∀ x ∈ m.constants.entries, m.Valid x.2
  inspecting : ∀ h ∈ m.inspecting, m.Valid h

/-- Every object has a class, and every class descends from `Object`. -/
structure Rooted (m : Machine) : Prop where
  size : 17 ≤ m.heap.size
  builtin : ∀ c : Handle, c.index < 13 → m.isProperClass c = true
  isa : ∀ h, m.Valid h → m.isProperClass (m.classOf h) = true
  root : m.superclassOf? Handle.objectClass = none
  /-- The superclass of a class other than `Object` is a class, and it is older. -/
  parent : ∀ c, m.isProperClass c = true → c ≠ Handle.objectClass →
    ∃ s, m.superclassOf? c = some s ∧ m.isProperClass s = true ∧ s.index < c.index
  modules : ∀ c, m.isClass c = true → m.isProperClass c = false → m.superclassOf? c = none

/-- A singleton class is an instance and a subclass of `Class`, and belongs to one object. -/
structure SingletonsApart (m : Machine) : Prop where
  shape : ∀ h s, m.Valid h → (m.object h).singleton = some s →
    m.isProperClass s = true ∧ m.classOf s = Handle.classClass ∧
      m.superclassOf? s = some Handle.classClass
  apart : ∀ h h' s, m.Valid h → m.Valid h' → (m.object h).singleton = some s →
    (m.object h').singleton = some s → h = h'

/-- The invariant of every machine. -/
structure WellFormed (m : Machine) : Prop where
  closed : m.Closed
  rooted : m.Rooted
  singletons : m.SingletonsApart

theorem valid_of_isClass (hc : m.isClass c = true) : m.Valid c := by
  by_contra hv
  have hget : m.object c = Heap.nothing := m.heap.get_of_size_le (Nat.le_of_not_lt hv)
  rw [isClass_eq, hget] at hc
  cases hc

theorem valid_of_isProperClass (hc : m.isProperClass c = true) : m.Valid c := by
  obtain ⟨parent, hp⟩ := isProperClass_iff.mp hc
  exact valid_of_isClass (by rw [isClass_eq, hp]; rfl)

/-! ## Growing machines -/

/-- The objects of `m` are there in `m₁`, with the same classes, and classes among them keep their
place in the lines of descent. -/
structure Extends (m m₁ : Machine) : Prop where
  size : m.heap.size ≤ m₁.heap.size
  isa : ∀ h, m.Valid h → (m₁.object h).isa = (m.object h).isa
  outline : ∀ h, m.Valid h → (m₁.object h).outline = (m.object h).outline

namespace Extends

theorem valid (he : m.Extends m₁) (hh : m.Valid h) : m₁.Valid h := Nat.lt_of_lt_of_le hh he.size

theorem isProperClass (he : m.Extends m₁) (hc : m.Valid c) :
    m₁.isProperClass c = true ↔ m.isProperClass c = true := by
  rw [isProperClass_iff, isProperClass_iff, he.outline c hc]

theorem superclassOf? (he : m.Extends m₁) (hc : m.Valid c) :
    m₁.superclassOf? c = m.superclassOf? c := by
  rw [superclassOf?_eq, superclassOf?_eq, he.outline c hc]

theorem isProperClass_of (he : m.Extends m₁) (hc : m.isProperClass c = true) :
    m₁.isProperClass c = true :=
  (he.isProperClass (valid_of_isProperClass hc)).mpr hc

end Extends

/-- What a new object must be like: its class is a class, and if it is a class itself, it is a module
without a superclass or has a superclass that is older. -/
structure WellMade (m : Machine) (h : Handle) : Prop where
  isa : m.isProperClass (m.classOf h) = true
  outline : (m.object h).outline = none ∨ (m.object h).outline = some (none, true) ∨
    ∃ s, (m.object h).outline = some (some s, false) ∧ m.isProperClass s = true ∧ s.index < h.index

theorem Rooted.extend (hm : m.Rooted) (he : m.Extends m₁)
    (hnew : ∀ h, m₁.Valid h → ¬ m.Valid h → m₁.WellMade h) : m₁.Rooted where
  size := Nat.le_trans hm.size he.size
  builtin c hc := he.isProperClass_of (hm.builtin c hc)
  isa h hh := by
    by_cases hold : m.Valid h
    · have hisa : m₁.classOf h = m.classOf h := he.isa h hold
      rw [hisa]
      exact he.isProperClass_of (hm.isa h hold)
    · exact (hnew h hh hold).isa
  root := by
    have hroot : m.Valid Handle.objectClass := Nat.lt_of_lt_of_le (by decide) hm.size
    rw [he.superclassOf? hroot]
    exact hm.root
  parent c hc hne := by
    by_cases hold : m.Valid c
    · obtain ⟨s, hs, hproper, hlt⟩ := hm.parent c ((he.isProperClass hold).mp hc) hne
      exact ⟨s, (he.superclassOf? hold).trans hs, he.isProperClass_of hproper, hlt⟩
    · -- Of the three outlines of a new object only the last is that of a proper class.
      obtain ⟨p, hp⟩ := isProperClass_iff.mp hc
      rcases (hnew c (valid_of_isProperClass hc) hold).outline with hout | hout | ⟨s, hout, hs⟩
      · rw [hout] at hp
        cases hp
      · rw [hout] at hp
        cases hp
      · exact ⟨s, by rw [superclassOf?_eq, hout]; rfl, hs⟩
  modules c hc hmodule := by
    by_cases hold : m.Valid c
    · rw [he.superclassOf? hold]
      refine hm.modules c ?_ ?_
      · rw [isClass_eq, he.outline c hold, ← isClass_eq] at hc
        exact hc
      · rw [← Bool.not_eq_true] at hmodule ⊢
        exact fun h => hmodule ((he.isProperClass hold).mpr h)
    · rw [superclassOf?_eq]
      rcases (hnew c (valid_of_isClass hc) hold).outline with hout | hout | ⟨s, hout, _⟩
      · rw [hout]
        rfl
      · rw [hout]
        rfl
      · have hproper : m₁.isProperClass c = true := isProperClass_iff.mpr ⟨some s, hout⟩
        rw [hmodule] at hproper
        cases hproper

theorem SingletonsApart.extend (hm : m.SingletonsApart) (he : m.Extends m₁)
    (hold : ∀ h, m.Valid h → (m₁.object h).singleton = (m.object h).singleton)
    (hnew : ∀ h, m₁.Valid h → ¬ m.Valid h → (m₁.object h).singleton = none) :
    m₁.SingletonsApart := by
  -- Who has a singleton class had it before.
  have hvalid : ∀ h s, m₁.Valid h → (m₁.object h).singleton = some s →
      m.Valid h ∧ (m.object h).singleton = some s := by
    intro h s hh hs
    by_cases hv : m.Valid h
    · exact ⟨hv, hold h hv ▸ hs⟩
    · rw [hnew h hh hv] at hs
      cases hs
  constructor
  · intro h s hh hs
    obtain ⟨hv, hs⟩ := hvalid h s hh hs
    obtain ⟨hproper, hisa, hsuper⟩ := hm.shape h s hv hs
    have hsv : m.Valid s := valid_of_isProperClass hproper
    exact ⟨he.isProperClass_of hproper, (he.isa s hsv).trans hisa,
      (he.superclassOf? hsv).trans hsuper⟩
  · intro h h' s hh hh' hs hs'
    obtain ⟨hv, hs⟩ := hvalid h s hh hs
    obtain ⟨hv', hs'⟩ := hvalid h' s hh' hs'
    exact hm.apart h h' s hv hv' hs hs'

/-! ## Changes that keep the invariant -/

namespace WellFormed

/-- A change to anything but the heap. -/
theorem withRoots (hm : m.WellFormed) (hheap : m₁.heap = m.heap)
    (hglobals : ∀ x ∈ m₁.globals.entries, m.Valid x.2)
    (hconstants : ∀ x ∈ m₁.constants.entries, m.Valid x.2)
    (hinspecting : ∀ h ∈ m₁.inspecting, m.Valid h) : m₁.WellFormed := by
  obtain ⟨heap, globals, constants, out, err, limits, depth, inspecting⟩ := m₁
  cases hheap
  exact ⟨⟨hm.closed.object, hglobals, hconstants, hinspecting⟩,
    ⟨hm.rooted.size, hm.rooted.builtin, hm.rooted.isa, hm.rooted.root, hm.rooted.parent,
      hm.rooted.modules⟩, ⟨hm.singletons.shape, hm.singletons.apart⟩⟩

/-- A new object. -/
theorem push (hm : m.WellFormed) {o : Object} (hhandles : ∀ x ∈ o.handles, m.Valid x)
    (hsingleton : o.singleton = none) (hisa : m.isProperClass o.isa = true)
    (houtline : o.outline = none ∨ o.outline = some (none, true) ∨
      ∃ s, o.outline = some (some s, false) ∧ m.isProperClass s = true) :
    WellFormed { m with heap := m.heap.push o } := by
  have hold : ∀ h, m.Valid h → (m.heap.push o).get h = m.heap.get h := by
    intro h hh
    rw [Heap.get_push, if_neg (Nat.ne_of_lt hh)]
  have hnew : ∀ h : Handle, h.index < (m.heap.push o).size → ¬ m.Valid h →
      h.index = m.heap.size ∧ (m.heap.push o).get h = o := by
    intro h hh hv
    have hindex : h.index = m.heap.size := by
      rw [Heap.size_push] at hh
      unfold Valid at hv
      omega
    exact ⟨hindex, by rw [Heap.get_push, if_pos hindex]⟩
  have he : Extends m { m with heap := m.heap.push o } := by
    refine ⟨by simp, fun h hh => ?_, fun h hh => ?_⟩
    · exact congrArg Object.isa (hold h hh)
    · exact congrArg Object.outline (hold h hh)
  refine ⟨⟨?_, fun x hx => he.valid (hm.closed.globals x hx),
    fun x hx => he.valid (hm.closed.constants x hx),
    fun h hh => he.valid (hm.closed.inspecting h hh)⟩, ?_, ?_⟩
  · intro h hh x hx
    unfold Machine.object at hx
    by_cases hv : m.Valid h
    · rw [hold h hv] at hx
      exact he.valid (hm.closed.object h hv x hx)
    · rw [(hnew h hh hv).2] at hx
      exact he.valid (hhandles x hx)
  · refine hm.rooted.extend he fun h hh hv => ?_
    obtain ⟨hindex, hget⟩ := hnew h hh hv
    constructor
    · have hclass : Machine.classOf { m with heap := m.heap.push o } h = o.isa :=
        congrArg Object.isa hget
      rw [hclass]
      exact he.isProperClass_of hisa
    · have hobject : Machine.object { m with heap := m.heap.push o } h = o := hget
      rw [hobject]
      rcases houtline with hout | hout | ⟨s, hout, hs⟩
      · exact .inl hout
      · exact .inr (.inl hout)
      · have hlt : s.index < h.index := hindex ▸ valid_of_isProperClass hs
        exact .inr (.inr ⟨s, hout, he.isProperClass_of hs, hlt⟩)
  · refine hm.singletons.extend he (fun h hh => congrArg Object.singleton (hold h hh)) ?_
    intro h hh hv
    exact (congrArg Object.singleton (hnew h hh hv).2).trans hsingleton

section Modify

variable {f : Object → Object}

/-- What a heap with one changed object holds: the change at its place, and the old objects. -/
theorem get_modify_cases (m : Machine) (h : Handle) (f : Object → Object) (x : Handle) :
    (m.heap.modify h f).get x = m.heap.get x ∨
      m.Valid h ∧ x = h ∧ (m.heap.modify h f).get x = f (m.heap.get h) := by
  rw [Heap.get_modify]
  split
  · next hx => exact .inr ⟨hx.2, hx.1, rfl⟩
  · exact .inl rfl

theorem valid_modify_iff {x : Handle} :
    Machine.Valid { m with heap := m.heap.modify h f } x ↔ m.Valid x := by
  simp only [Valid, Heap.size_modify]

theorem extends_modify (hisa : (f (m.object h)).isa = (m.object h).isa)
    (houtline : (f (m.object h)).outline = (m.object h).outline) :
    Extends m { m with heap := m.heap.modify h f } := by
  refine ⟨by simp, fun x _ => ?_, fun x _ => ?_⟩
  · rcases get_modify_cases m h f x with hx | ⟨_, rfl, hx⟩
    · exact congrArg Object.isa hx
    · exact (congrArg Object.isa hx).trans hisa
  · rcases get_modify_cases m h f x with hx | ⟨_, rfl, hx⟩
    · exact congrArg Object.outline hx
    · exact (congrArg Object.outline hx).trans houtline

theorem closed_modify (hm : m.Closed)
    (hhandles : ∀ x ∈ (f (m.object h)).handles, x ∈ (m.object h).handles ∨ m.Valid x) :
    Closed { m with heap := m.heap.modify h f } := by
  refine ⟨fun x hx y hy => ?_, fun x hx => ?_, fun x hx => ?_, fun x hx => ?_⟩
  · rw [valid_modify_iff] at hx ⊢
    unfold Machine.object at hy
    rcases get_modify_cases m h f x with hsame | ⟨hv, rfl, hsame⟩
    · rw [hsame] at hy
      exact hm.object x hx y hy
    · rw [hsame] at hy
      rcases hhandles y hy with hy | hy
      · exact hm.object _ hv y hy
      · exact hy
  · exact valid_modify_iff.mpr (hm.globals x hx)
  · exact valid_modify_iff.mpr (hm.constants x hx)
  · exact valid_modify_iff.mpr (hm.inspecting x hx)

/-- A change to one object that leaves its class, its singleton class and its place in the lines of
descent alone. -/
theorem modify (hm : m.WellFormed) (hisa : (f (m.object h)).isa = (m.object h).isa)
    (hsingleton : (f (m.object h)).singleton = (m.object h).singleton)
    (houtline : (f (m.object h)).outline = (m.object h).outline)
    (hhandles : ∀ x ∈ (f (m.object h)).handles, x ∈ (m.object h).handles ∨ m.Valid x) :
    WellFormed { m with heap := m.heap.modify h f } := by
  have he := extends_modify hisa houtline
  refine ⟨closed_modify hm.closed hhandles, ?_, ?_⟩
  · exact hm.rooted.extend he fun x hx hv => absurd (valid_modify_iff.mp hx) hv
  · refine hm.singletons.extend he (fun x _ => ?_) fun x hx hv => absurd (valid_modify_iff.mp hx) hv
    rcases get_modify_cases m h f x with hx | ⟨_, rfl, hx⟩
    · exact congrArg Object.singleton hx
    · exact (congrArg Object.singleton hx).trans hsingleton

end Modify

/-- An object is told of a singleton class that no object has. -/
theorem setSingleton (hm : m.WellFormed) {s : Handle} (hs : m.isProperClass s = true)
    (hisa : m.classOf s = Handle.classClass) (hsuper : m.superclassOf? s = some Handle.classClass)
    (hfree : ∀ x, m.Valid x → (m.object x).singleton ≠ some s) :
    WellFormed { m with heap := m.heap.modify h fun o => { o with singleton := some s } } := by
  have he : Extends m { m with heap := m.heap.modify h fun o => { o with singleton := some s } } :=
    extends_modify rfl rfl
  -- A singleton class is now an old one, or it is `s` and belongs to `h`.
  have hcases : ∀ x t, m.Valid x →
      ((m.heap.modify h fun o => { o with singleton := some s }).get x).singleton = some t →
      (m.object x).singleton = some t ∨ x = h ∧ t = s := by
    intro x t _ ht
    rcases get_modify_cases m h (fun o => { o with singleton := some s }) x with hx | ⟨_, rfl, hx⟩
    · rw [hx] at ht
      exact .inl ht
    · rw [hx] at ht
      exact .inr ⟨rfl, (Option.some.inj ht).symm⟩
  refine ⟨closed_modify hm.closed fun x hx => ?_, ?_, ?_, ?_⟩
  · simp only [Object.handles, List.mem_cons, List.mem_append, Option.toList_some,
      List.not_mem_nil, or_false] at hx ⊢
    rcases hx with hx | (hx | hx) | hx
    · exact .inl (.inl hx)
    · exact .inr (hx ▸ valid_of_isProperClass hs)
    · exact .inl (.inr (.inl (.inr hx)))
    · exact .inl (.inr (.inr hx))
  · exact hm.rooted.extend he fun x hx hv => absurd (valid_modify_iff.mp hx) hv
  · intro x t hx ht
    replace hx := valid_modify_iff.mp hx
    have hshape : m.isProperClass t = true ∧ m.classOf t = Handle.classClass ∧
        m.superclassOf? t = some Handle.classClass := by
      rcases hcases x t hx ht with ht | ⟨_, rfl⟩
      · exact hm.singletons.shape x t hx ht
      · exact ⟨hs, hisa, hsuper⟩
    have ht := valid_of_isProperClass hshape.1
    exact ⟨he.isProperClass_of hshape.1, (he.isa t ht).trans hshape.2.1,
      (he.superclassOf? ht).trans hshape.2.2⟩
  · intro x y t hx hy htx hty
    replace hx := valid_modify_iff.mp hx
    replace hy := valid_modify_iff.mp hy
    rcases hcases x t hx htx with hxt | ⟨hxh, hts⟩
    · rcases hcases y t hy hty with hyt | ⟨_, hts⟩
      · exact hm.singletons.apart x y t hx hy hxt hyt
      · exact absurd (hts ▸ hxt) (hfree x hx)
    · rcases hcases y t hy hty with hyt | ⟨hyh, _⟩
      · exact absurd (hts ▸ hyt) (hfree y hy)
      · exact hxh.trans hyh.symm

end WellFormed

end Machine

/-! ## Handles of changed objects -/

theorem Object.mem_handles {o : Object} {x : Handle} :
    x ∈ o.handles ↔ x = o.isa ∨ o.singleton = some x ∨ x ∈ o.ivars.entries.map (·.2) ∨
      x ∈ o.payload.handles := by
  simp only [Object.handles, List.mem_cons, List.mem_append, Option.mem_toList, or_assoc]

theorem Table.mem_insert {t : Table α} {name : String} {value : α} {entry : String × α}
    (h : entry ∈ (t.insert name value).entries) : entry = (name, value) ∨ entry ∈ t.entries := by
  obtain ⟨entries⟩ := t
  change entry ∈ insertEntry name value entries at h
  change entry = (name, value) ∨ entry ∈ entries
  induction entries with
  | nil => exact .inl (List.mem_singleton.mp h)
  | cons first rest ih =>
    obtain ⟨other, old⟩ := first
    simp only [insertEntry] at h
    split at h
    · rcases List.mem_cons.mp h with h | h
      · exact .inl h
      · exact .inr (List.mem_cons_of_mem _ h)
    · rcases List.mem_cons.mp h with rfl | h
      · exact .inr List.mem_cons_self
      · exact (ih h).imp id (List.mem_cons_of_mem _)

theorem Object.handles_setIvar {o : Object} {name : String} {value x : Handle}
    (h : x ∈ (o.setIvar name value).handles) : x ∈ o.handles ∨ x = value := by
  rw [mem_handles] at h ⊢
  rcases h with h | h | h | h
  · exact .inl (.inl h)
  · exact .inl (.inr (.inl h))
  · obtain ⟨entry, hentry, rfl⟩ := List.mem_map.mp h
    rcases Table.mem_insert hentry with rfl | hentry
    · exact .inr rfl
    · exact .inl (.inr (.inr (.inl (List.mem_map_of_mem hentry))))
  · exact .inl (.inr (.inr (.inr h)))

/-- A change to the payload alone that leaves classes as they are. -/
structure Object.KeepsOutline (o o' : Object) : Prop where
  isa : o'.isa = o.isa
  singleton : o'.singleton = o.singleton
  ivars : o'.ivars = o.ivars
  outline : o'.outline = o.outline

theorem Object.keepsOutline_mapItems (o : Object) (f : Array Handle → Array Handle) :
    o.KeepsOutline (o.mapItems f) := by
  obtain ⟨_, _, _, payload⟩ := o
  cases payload <;> exact ⟨rfl, rfl, rfl, rfl⟩

theorem Object.keepsOutline_mapPairs (o : Object)
    (f : List (Handle × Handle) → List (Handle × Handle)) : o.KeepsOutline (o.mapPairs f) := by
  obtain ⟨_, _, _, payload⟩ := o
  cases payload <;> exact ⟨rfl, rfl, rfl, rfl⟩

theorem Object.keepsOutline_mapText (o : Object) (f : String → String) :
    o.KeepsOutline (o.mapText f) := by
  obtain ⟨_, _, _, payload⟩ := o
  cases payload <;> exact ⟨rfl, rfl, rfl, rfl⟩

theorem Object.keepsOutline_mapMethods (o : Object) (f : Table Method → Table Method) :
    o.KeepsOutline (o.mapMethods f) := by
  obtain ⟨_, _, _, payload⟩ := o
  cases payload <;> exact ⟨rfl, rfl, rfl, rfl⟩

/-- Changing the payload of an object keeps the invariant if what the new payload holds is valid. -/
theorem Machine.WellFormed.modifyPayload {m : Machine} {h : Handle} {f : Object → Object}
    (hm : m.WellFormed) (hf : (m.object h).KeepsOutline (f (m.object h)))
    (hpayload : ∀ x ∈ (f (m.object h)).payload.handles,
      x ∈ (m.object h).payload.handles ∨ m.Valid x) :
    Machine.WellFormed { m with heap := m.heap.modify h f } := by
  refine hm.modify hf.isa hf.singleton hf.outline fun x hx => ?_
  rw [Object.mem_handles, hf.isa, hf.singleton, hf.ivars] at hx
  rw [Object.mem_handles]
  rcases hx with hx | hx | hx | hx
  · exact .inl (.inl hx)
  · exact .inl (.inr (.inl hx))
  · exact .inl (.inr (.inr (.inl hx)))
  · exact (hpayload x hx).imp (fun hx => .inr (.inr (.inr hx))) id

theorem Items.mem_put {items : Array Handle} {place : Nat} {value x : Handle}
    (h : x ∈ (Items.put items place value).toList) :
    x ∈ items.toList ∨ x = value ∨ x = Handle.nil := by
  unfold Items.put at h
  split at h
  · rw [Array.toList_setIfInBounds] at h
    rcases List.mem_or_eq_of_mem_set h with h | h
    · exact .inl h
    · exact .inr (.inl h)
  · simp only [Array.toList_push, Array.toList_append, Array.toList_replicate, List.mem_append,
      List.mem_singleton] at h
    rcases h with (h | h) | h
    · exact .inl h
    · exact .inr (.inr (List.eq_of_mem_replicate h))
    · exact .inr (.inl h)

/-- Putting a pair into a hash stores no handle but the key and the value. -/
theorem Heap.handles_insertPair (heap : Heap) (key value : Handle) (pairs : List (Handle × Handle))
    {x : Handle} (h : x ∈ (Payload.hash (heap.insertPair key value pairs)).handles) :
    x ∈ (Payload.hash pairs).handles ∨ x = key ∨ x = value := by
  simp only [Payload.handles, List.mem_append] at h ⊢
  induction pairs with
  | nil => simpa [insertPair] using h
  | cons pair rest ih =>
    obtain ⟨k, v⟩ := pair
    simp only [insertPair] at h
    split at h
    · simp only [List.map_cons, List.mem_cons] at h ⊢
      grind
    · simp only [List.map_cons, List.mem_cons] at h ⊢
      grind

/-! ## Effects keep the invariant -/

/-- In a well-formed machine every handle of an object stands for itself. -/
def Machine.WellFormed.pairing {m : Machine} (hm : m.WellFormed) : Pairing :=
  .below m.heap.size hm.rooted.size

theorem Machine.WellFormed.paired {ρ : Record → Record → Prop} {m : Machine} (hm : m.WellFormed)
    (hρ : ∀ r, ρ r r) : Machine.Paired ρ hm.pairing m m where
  object := by
    rintro h _ ⟨rfl, hh⟩
    exact .refl hρ fun x hx => ⟨rfl, hm.closed.object h hh x hx⟩
  globals := .refl fun x hx => ⟨rfl, hm.closed.globals x hx⟩
  constants := .refl fun x hx => ⟨rfl, hm.closed.constants x hx⟩
  inspecting := List.forall₂_same.mpr fun h hh => ⟨rfl, hm.closed.inspecting h hh⟩
  maxClassDepth := rfl

theorem Machine.WellFormed.pairing_congr {m m₁ : Machine} (hm : m.WellFormed)
    (hm₁ : m₁.WellFormed) (hheap : m₁.heap = m.heap) : hm₁.pairing = hm.pairing := by
  unfold Machine.WellFormed.pairing
  simp only [hheap]

/-- How an action from `m` ends: in a well-formed machine that is no smaller, and with a value that
`V` relates to some other. -/
inductive Preserved (m : Machine) (V : Pairing → α → α → Prop) :
    EStateM.Result Halt Machine α → Prop
  | ok {x x' : α} {m₁ : Machine} (hm₁ : m₁.WellFormed) (hsize : m.heap.size ≤ m₁.heap.size)
      (hx : V hm₁.pairing x x') : Preserved m V (.ok x m₁)
  | error {halt : Halt} {m₁ : Machine} (hm₁ : m₁.WellFormed)
      (hsize : m.heap.size ≤ m₁.heap.size) : Preserved m V (.error halt m₁)

section Effects

variable {m : Machine} {V : Pairing → α → α → Prop}

theorem valid_of_row {n : Nat} {hn : 17 ≤ n} {row row' : List Handle}
    (h : PairedRow (.below n hn) row row') : ∀ x ∈ row, x.index < n := by
  induction h with
  | nil => exact fun x hx => absurd hx List.not_mem_nil
  | cons hab _ ih =>
    intro x hx
    rcases List.mem_cons.mp hx with rfl | hx
    · exact hab.2
    · exact ih x hx

/-- What a paired payload holds is below the bound of the pairing. -/
theorem Payload.Paired.valid {n : Nat} {hn : 17 ≤ n} {payload payload' : Payload}
    (h : Payload.Paired Eq (.below n hn) payload payload') : ∀ x ∈ payload.handles, x.index < n := by
  cases h with
  | plain | integer | string | symbol | method => exact fun x hx => absurd hx List.not_mem_nil
  | array hitems => exact valid_of_row hitems
  | hash hpairs =>
    intro x hx
    have hkeys : PairedRow (.below n hn) _ _ :=
      List.forall₂_map_left_iff.mpr (List.forall₂_map_right_iff.mpr (hpairs.imp fun _ _ hp => hp.1))
    have hvalues : PairedRow (.below n hn) _ _ :=
      List.forall₂_map_left_iff.mpr (List.forall₂_map_right_iff.mpr (hpairs.imp fun _ _ hp => hp.2))
    rcases List.mem_append.mp hx with hx | hx
    · exact valid_of_row hkeys x hx
    · exact valid_of_row hvalues x hx
  | range exclusive hfirst hlast => exact valid_of_row (.cons hfirst (.cons hlast .nil))
  | ofClass hinfo =>
    intro x hx
    obtain ⟨hs, _⟩ | ⟨s, _, hs, _, hss⟩ := rel_cases hinfo.superclass
    · simp only [Payload.handles, hs] at hx
      cases hx
    · simp only [Payload.handles, hs] at hx
      rw [List.mem_singleton.mp hx]
      exact hss.2

/-- A new object is well made if its class is a class and it is no class itself. -/
theorem Preserved.allocate (hm : m.WellFormed) {c : Handle} {payload : Payload}
    (hc : m.isProperClass c = true) (hplain : ∀ info, payload ≠ .ofClass info)
    (hpayload : ∀ x ∈ payload.handles, m.Valid x) :
    Preserved m Pairing.rel (Action.allocate { isa := c, payload } m) := by
  have houtline : Object.outline { isa := c, payload } = none := by
    cases payload with
    | ofClass info => exact absurd rfl (hplain info)
    | _ => rfl
  refine .ok (hm.push (fun x hx => ?_) rfl hc (.inl houtline)) (by simp) ⟨rfl, ?_⟩
  · rcases Object.mem_handles.mp hx with rfl | hx | hx | hx
    · exact Machine.valid_of_isProperClass hc
    · cases hx
    · cases hx
    · exact hpayload x hx
  · exact m.heap.next_lt_size_push _

/-- What a walk up the line of descent finds was decided at some class. -/
theorem Machine.exists_visit_of_ascend {visit : Handle → Except Fault (Option α)}
    {tooDeep : Handle → Fault} {hops : Nat} {start : Option Handle} {x : α}
    (h : m.ascend visit tooDeep hops start = .ok (some x)) : ∃ c, visit c = .ok (some x) := by
  -- With no hops left a walk still looks at the class it has come to.
  induction hops generalizing start with
  | zero =>
    cases start with
    | none => cases h
    | some c =>
      unfold Machine.ascend at h
      cases hc : visit c with
      | error f =>
        rw [hc] at h
        cases h
      | ok found =>
        rw [hc] at h
        cases found with
        | none => cases h
        | some y => exact ⟨c, hc.trans h⟩
  | succ hops ih =>
    cases start with
    | none => cases h
    | some c =>
      unfold Machine.ascend at h
      cases hc : visit c with
      | error f =>
        rw [hc] at h
        cases h
      | ok found =>
        rw [hc] at h
        cases found with
        | none => exact ih h
        | some y => exact ⟨c, hc.trans h⟩

/-- What a new instance starts with holds no handles and is no class. -/
theorem Machine.freshPayload_plain {c : Handle} {payload : Payload}
    (h : m.freshPayload c = .ok payload) :
    payload.handles = [] ∧ (∀ info, payload ≠ .ofClass info) ∧ ∀ method, payload ≠ .method method := by
  unfold Machine.freshPayload at h
  split at h
  · next found hfound =>
    cases h
    obtain ⟨d, hd⟩ := exists_visit_of_ascend hfound
    unfold Machine.builtinPayload at hd
    grind [Payload.handles]
  · cases h
    exact ⟨rfl, fun _ => nofun, fun _ => nofun⟩
  · cases h

theorem Preserved.instantiate (hm : m.WellFormed) (c : Handle) :
    Preserved m Pairing.rel (Classes.instantiate c m) := by
  unfold Classes.instantiate
  rw [Action.ask_bind]
  split
  · next hc =>
    cases hp : m.freshPayload c with
    | error f =>
      rw [Action.demand_bind_of_error hp]
      exact .error hm (Nat.le_refl _)
    | ok payload =>
      rw [Action.demand_bind_of_ok hp]
      obtain ⟨hempty, hplain, _⟩ := Machine.freshPayload_plain hp
      refine .allocate hm hc hplain fun x hx => ?_
      rw [hempty] at hx
      cases hx
  · exact .error hm (Nat.le_refl _)

/-! ### Classes and modules -/

/-- A class as it is made. -/
def Object.newClass (name : String) (parent : Handle) : Object :=
  { isa := Handle.classClass, payload := .ofClass { name, superclass := some parent } }

/-- A module as it is made. -/
def Object.newModule (name : String) : Object :=
  { isa := Handle.moduleClass, payload := .ofClass { name, isModule := true } }

theorem Machine.WellFormed.pushClass (hm : m.WellFormed) (name : String) {parent : Handle}
    (hparent : m.isProperClass parent = true) :
    Machine.WellFormed { m with heap := m.heap.push (.newClass name parent) } := by
  have hclass : m.isProperClass Handle.classClass = true := hm.rooted.builtin _ (by decide)
  refine hm.push ?_ rfl hclass (.inr (.inr ⟨parent, rfl, hparent⟩))
  intro x hx
  have hx : x = Handle.classClass ∨ x = parent := by
    simpa [Object.newClass, Object.handles, Payload.handles] using hx
  rcases hx with rfl | rfl
  · exact Machine.valid_of_isProperClass hclass
  · exact Machine.valid_of_isProperClass hparent

/-- The handle of a new object is not a singleton class yet. -/
theorem Machine.WellFormed.next_not_singleton (hm : m.WellFormed) {o : Object}
    (ho : o.singleton = none) (x : Handle)
    (hx : Machine.Valid { m with heap := m.heap.push o } x) :
    (Machine.object { m with heap := m.heap.push o } x).singleton ≠ some m.heap.next := by
  unfold Machine.object
  rw [Heap.get_push]
  intro hs
  split at hs
  · rw [ho] at hs
    cases hs
  · next hne =>
    have hvalid : m.Valid x := by
      have hx : x.index < m.heap.size + 1 := by simpa [Machine.Valid] using hx
      unfold Machine.Valid
      omega
    -- A singleton class of an old object would be an old object itself.
    have hnext := Machine.valid_of_isProperClass (hm.singletons.shape x _ hvalid hs).1
    exact Nat.lt_irrefl _ hnext

theorem Preserved.singletonClassOf (hm : m.WellFormed) {h : Handle} (hh : m.Valid h) :
    Preserved m Pairing.rel (Action.singletonClassOf h m) := by
  unfold Action.singletonClassOf
  rw [Action.ask_bind]
  cases hs : (m.object h).singleton with
  | some s =>
    have hvalid : m.Valid s := Machine.valid_of_isProperClass (hm.singletons.shape h s hh hs).1
    exact .ok hm (Nat.le_refl _) ⟨rfl, hvalid⟩
  | none =>
    have hclass : m.isProperClass Handle.classClass = true := hm.rooted.builtin _ (by decide)
    -- The class is made first; when `h` is told of it, nobody has it yet.
    have hpushed := hm.pushClass (Action.singletonName h m) hclass
    set fresh := Object.newClass (Action.singletonName h m) Handle.classClass
    have hget : (m.heap.push fresh).get m.heap.next = fresh := by
      rw [Heap.get_push]
      exact if_pos rfl
    have houtline : (Machine.object { m with heap := m.heap.push fresh } m.heap.next).outline =
        some (some Handle.classClass, false) := congrArg Object.outline hget
    have hset := hpushed.setSingleton (h := h) (s := m.heap.next)
      (Machine.isProperClass_iff.mpr ⟨_, houtline⟩) (congrArg Object.isa hget)
      (by rw [Machine.superclassOf?_eq, houtline]; rfl) (hm.next_not_singleton rfl)
    refine .ok hset ?_ ⟨rfl, ?_⟩
    · simp
    · rw [Heap.size_modify]
      exact m.heap.next_lt_size_push fresh

/-- Binding a constant to a valid handle. -/
theorem Machine.WellFormed.setConstant (hm : m.WellFormed) (name : String) {value : Handle}
    (hvalue : m.Valid value) :
    Machine.WellFormed { m with constants := m.constants.insert name value } := by
  refine hm.withRoots rfl hm.closed.globals (fun x hx => ?_) hm.closed.inspecting
  rcases Table.mem_insert hx with rfl | hx
  · exact hvalue
  · exact hm.closed.constants x hx

theorem Machine.WellFormed.setGlobal (hm : m.WellFormed) (name : String) {value : Handle}
    (hvalue : m.Valid value) :
    Machine.WellFormed { m with globals := m.globals.insert name value } := by
  refine hm.withRoots rfl (fun x hx => ?_) hm.closed.constants hm.closed.inspecting
  rcases Table.mem_insert hx with rfl | hx
  · exact hvalue
  · exact hm.closed.globals x hx

/-- What a table answers is one of its entries. -/
theorem Table.mem_of_find? {t : Table α} {name : String} {x : α} (h : t.find? name = some x) :
    (name, x) ∈ t.entries := by
  obtain ⟨entries⟩ := t
  change findEntry name entries = some x at h
  induction entries with
  | nil => cases h
  | cons entry rest ih =>
    obtain ⟨other, value⟩ := entry
    simp only [findEntry] at h
    split at h
    · next hname =>
      rw [← hname, ← Option.some.inj h]
      exact List.mem_cons_self
    · exact List.mem_cons_of_mem _ (ih h)

theorem Machine.Closed.constant (hm : m.Closed) {name : String} {c : Handle}
    (hc : m.constant? name = some c) : m.Valid c :=
  hm.constants (name, c) (Table.mem_of_find? hc)

theorem Preserved.openClass (hm : m.WellFormed) (name : String) (parent : Option Handle) :
    Preserved m Pairing.rel (Action.openClass name parent m) := by
  unfold Action.openClass
  rw [Action.ask_bind]
  cases hc : m.constant? name with
  | some c =>
    have hvalid : m.Valid c := hm.closed.constant hc
    dsimp only
    rw [Action.ask_bind]
    cases m.classInfo? c with
    | none => exact .error hm (Nat.le_refl _)
    | some info =>
      dsimp only
      split
      · exact .error hm (Nat.le_refl _)
      · split
        · exact .error hm (Nat.le_refl _)
        · exact .ok hm (Nat.le_refl _) ⟨rfl, hvalid⟩
  | none =>
    dsimp only
    rw [Action.ask_bind]
    split
    · next hparent =>
      have hpushed := hm.pushClass name hparent
      have hnext := m.heap.next_lt_size_push (.newClass name (parent.getD Handle.objectClass))
      refine .ok (hpushed.setConstant name hnext) ?_ ⟨rfl, hnext⟩
      simp
    · exact .error hm (Nat.le_refl _)

theorem Preserved.openModule (hm : m.WellFormed) (name : String) :
    Preserved m Pairing.rel (Action.openModule name m) := by
  unfold Action.openModule
  rw [Action.ask_bind]
  cases hc : m.constant? name with
  | some c =>
    have hvalid : m.Valid c := hm.closed.constant hc
    dsimp only
    rw [Action.ask_bind]
    cases m.classInfo? c with
    | none => exact .error hm (Nat.le_refl _)
    | some info =>
      dsimp only
      split
      · exact .ok hm (Nat.le_refl _) ⟨rfl, hvalid⟩
      · exact .error hm (Nat.le_refl _)
  | none =>
    have hmodule : m.isProperClass Handle.moduleClass = true := hm.rooted.builtin _ (by decide)
    have hpushed : Machine.WellFormed { m with heap := m.heap.push (.newModule name) } := by
      refine hm.push (fun x hx => ?_) rfl hmodule (.inr (.inl rfl))
      have hx : x = Handle.moduleClass := by
        simpa [Object.newModule, Object.handles, Payload.handles] using hx
      exact hx ▸ Machine.valid_of_isProperClass hmodule
    have hnext := m.heap.next_lt_size_push (.newModule name)
    refine .ok (hpushed.setConstant name hnext) ?_ ⟨rfl, hnext⟩
    simp

/-! ### All of them -/

/-- A change to one object that keeps the invariant. -/
theorem Preserved.changeObject {h : Handle} {f : Object → Object}
    (hf : Machine.WellFormed { m with heap := m.heap.modify h f }) :
    Preserved m Equal (Action.changeObject h f m) :=
  .ok hf (by simp) rfl

/-- Changing the own methods of a class stores no handle. -/
theorem Preserved.changeMethods (hm : m.WellFormed) (c : Handle)
    (f : Table Method → Table Method) :
    Preserved m Equal (Action.changeObject c (·.mapMethods f) m) := by
  refine .changeObject (hm.modifyPayload (Object.keepsOutline_mapMethods _ f) fun x hx => .inl ?_)
  revert hx
  obtain ⟨_, _, _, payload⟩ := m.object c
  cases payload <;> exact id

theorem Preserved.defineMethod (hm : m.WellFormed) (c : Handle) (name : String) (method : Method) :
    Preserved m Equal (Action.defineMethod c name method m) := by
  unfold Action.defineMethod
  rw [Action.ask_bind]
  split
  · exact .changeMethods hm c _
  · exact .error hm (Nat.le_refl _)

theorem Preserved.undefMethod (hm : m.WellFormed) (c : Handle) (name : String) :
    Preserved m Equal (Action.undefMethod c name m) := by
  unfold Action.undefMethod
  rw [Action.ask_bind]
  split
  · exact .changeMethods hm c _
  · exact .error hm (Nat.le_refl _)

/-- Changing the items of an array keeps the invariant if every item is an old one or valid. -/
theorem Preserved.changeItems (hm : m.WellFormed) (h : Handle)
    {f : Array Handle → Array Handle}
    (hf : ∀ items, ∀ x ∈ (f items).toList, x ∈ items.toList ∨ m.Valid x) :
    Preserved m Equal (Action.changeObject h (·.mapItems f) m) := by
  refine .changeObject (hm.modifyPayload (Object.keepsOutline_mapItems _ f) fun x hx => ?_)
  revert hx
  obtain ⟨_, _, _, payload⟩ := m.object h
  cases payload with
  | array items => exact hf items x
  | _ => exact .inl

theorem Preserved.hashSet (hm : m.WellFormed) (h : Handle) {key value : Handle}
    (hkey : m.Valid key) (hvalue : m.Valid value) :
    Preserved m Equal (Action.hashSet h key value m) := by
  change Preserved m Equal (.ok () { m with heap := m.heap.hashSet h key value })
  unfold Heap.hashSet
  cases hp : (m.heap.get h).hash? with
  | none => exact .ok hm (Nat.le_refl _) rfl
  | some pairs =>
    dsimp only
    refine .ok (hm.modifyPayload (Object.keepsOutline_mapPairs _ _) fun x hx => ?_) (by simp) rfl
    change (m.object h).hash? = some pairs at hp
    revert hx hp
    obtain ⟨_, _, _, payload⟩ := m.object h
    cases payload with
    | hash old =>
      intro hx hp
      cases hp
      rcases Heap.handles_insertPair _ _ _ _ hx with hx | rfl | rfl
      · exact .inl hx
      · exact .inr hkey
      · exact .inr hvalue
    | _ => exact fun hx _ => .inl hx

theorem Preserved.writeOut (hm : m.WellFormed) (text : String) :
    Preserved m Equal (Action.writeOut text m) := by
  have hm₁ : Machine.WellFormed { m with out := m.out.accept text } :=
    hm.withRoots rfl hm.closed.globals hm.closed.constants hm.closed.inspecting
  unfold Action.writeOut
  dsimp only
  split
  · exact .ok hm₁ (Nat.le_refl _) rfl
  · exact .error hm₁ (Nat.le_refl _)

theorem Preserved.writeErr (hm : m.WellFormed) (text : String) :
    Preserved m Equal (Action.writeErr text m) := by
  have hm₁ : Machine.WellFormed { m with err := m.err.accept text } :=
    hm.withRoots rfl hm.closed.globals hm.closed.constants hm.closed.inspecting
  unfold Action.writeErr
  dsimp only
  split
  · exact .ok hm₁ (Nat.le_refl _) rfl
  · exact .error hm₁ (Nat.le_refl _)

/-- **Every effect keeps the invariant.** -/
theorem Effect.preserves {π : Permit} {K : Pairing} {a a' : Action α} (h : Effect Eq π K a a' V)
    (hm : m.WellFormed) (hK : K = hm.pairing) : Preserved m V (a m) := by
  subst hK
  cases h with
  | allocate hc hfresh hp =>
    exact .allocate hm (hm.rooted.builtin _ (Payload.index_lt_of_builtinClass? hc)) hfresh.ne_ofClass hp.valid
  | instantiate hc => exact .instantiate hm _
  | singletonClassOf hh => exact .singletonClassOf hm hh.2
  | openClass name hp => exact .openClass hm name _
  | openModule name => exact .openModule hm name
  | defineMethod hc name hmethod _ => exact .defineMethod hm _ name _
  | undefMethod hc name => exact .undefMethod hm _ name
  | setIvar hh name hvalue =>
    refine .changeObject (hm.modify rfl rfl rfl fun x hx => ?_)
    rcases Object.handles_setIvar hx with hx | rfl
    · exact .inl hx
    · exact .inr hvalue.2
  | setGlobal name hvalue => exact .ok (hm.setGlobal name hvalue.2) (Nat.le_refl _) rfl
  | setConstant name hvalue => exact .ok (hm.setConstant name hvalue.2) (Nat.le_refl _) rfl
  | appendItems hh hitems =>
    refine .changeItems hm _ fun items x hx => ?_
    rw [Array.toList_appendList, List.mem_append] at hx
    exact hx.imp id (valid_of_row hitems x)
  | putItem hh place hvalue =>
    refine .changeItems hm _ fun items x hx => ?_
    rcases Items.mem_put hx with hx | rfl | rfl
    · exact .inl hx
    · exact .inr hvalue.2
    · exact .inr (Nat.lt_of_lt_of_le (by decide) hm.rooted.size)
  | appendText hh text _ =>
    refine .changeObject (hm.modifyPayload (Object.keepsOutline_mapText _ _) fun x hx => .inl ?_)
    revert hx
    obtain ⟨_, _, _, payload⟩ := m.object _
    cases payload <;> exact id
  | hashSet hh hkey hvalue => exact .hashSet hm _ hkey.2 hvalue.2
  | writeOut text => exact .writeOut hm text
  | writeErr text => exact .writeErr hm text

end Effects

theorem Preserved.leaves {m : Machine} {V : Pairing → α → α → Prop} {a : Action α}
    (h : Preserved m V (a m)) : (a.leaves m).WellFormed := by
  unfold Action.leaves
  generalize a m = r at h
  cases h with
  | ok hm₁ _ _ => exact hm₁
  | error hm₁ _ => exact hm₁

/-! ## The machine at the start -/

namespace Boot

/-- The machine at the start of a run with the usual limits; no other differs from it in its heap. -/
def machine : Machine := Machine.boot {} {} {}

theorem forall_valid {P : Handle → Prop} (hP : ∀ i < 18, P ⟨i⟩) (h : Handle)
    (hh : machine.Valid h) : P h :=
  hP h.index hh

theorem closed : machine.Closed where
  object := by
    refine forall_valid ?_
    have hobjects : ∀ i < 18, ∀ x ∈ (machine.object ⟨i⟩).handles, x.index < 18 := by decide +kernel
    exact hobjects
  globals := fun x hx => absurd hx List.not_mem_nil
  constants := by
    have hconstants : ∀ x ∈ Handle.builtinClasses, x.2.index < 18 := by decide
    exact hconstants
  inspecting := fun h hh => absurd hh List.not_mem_nil

theorem rooted : machine.Rooted where
  size := by decide
  builtin c hc := by
    have hproper : ∀ i < 13, machine.isProperClass ⟨i⟩ = true := by decide +kernel
    exact hproper c.index hc
  isa := by
    refine forall_valid ?_
    decide +kernel
  root := by decide +kernel
  parent c hc hne := by
    have hparent : ∀ i < 18, machine.isProperClass ⟨i⟩ = true → (⟨i⟩ : Handle) ≠ Handle.objectClass →
        machine.superclassOf? ⟨i⟩ = some Handle.objectClass ∧ 0 < i ∨
          machine.superclassOf? ⟨i⟩ = some Handle.classClass ∧ 1 < i := by decide +kernel
    rcases hparent c.index (Machine.valid_of_isProperClass hc) hc hne with ⟨hs, hlt⟩ | ⟨hs, hlt⟩
    · exact ⟨Handle.objectClass, hs, by decide +kernel, hlt⟩
    · exact ⟨Handle.classClass, hs, by decide +kernel, hlt⟩
  modules c hc := by
    have hmodules : ∀ i < 18, machine.isClass ⟨i⟩ = true → machine.isProperClass ⟨i⟩ = false →
        machine.superclassOf? ⟨i⟩ = none := by decide +kernel
    exact hmodules c.index (Machine.valid_of_isClass hc) hc

theorem singletonsApart : machine.SingletonsApart := by
  have honly : ∀ i < 18, ∀ s ∈ (machine.object ⟨i⟩).singleton, i = 16 ∧ s = mainSingleton := by
    decide +kernel
  constructor
  · intro h s hh hs
    rw [(honly h.index hh s hs).2]
    decide +kernel
  · intro h h' s hh hh' hs hs'
    have hindex : h.index = h'.index :=
      (honly h.index hh s hs).1.trans (honly h'.index hh' s hs').1.symm
    obtain ⟨i⟩ := h
    obtain ⟨j⟩ := h'
    exact congrArg Handle.mk hindex

end Boot

theorem Machine.boot_wellFormed (limits : Limits) (out err : Sink) :
    (Machine.boot limits out err).WellFormed := by
  have hboot : Boot.machine.WellFormed := ⟨Boot.closed, Boot.rooted, Boot.singletonsApart⟩
  exact hboot.withRoots rfl hboot.closed.globals hboot.closed.constants hboot.closed.inspecting

/-! ## Lines of descent -/

namespace Machine

variable {m : Machine} {c s : Handle}

/-- The handle `s` is the superclass of `c`. -/
def HasParent (m : Machine) (c s : Handle) : Prop := m.superclassOf? c = some s

/-- Superclasses are older, whatever has one. -/
theorem Rooted.index_lt (hm : m.Rooted) (hs : m.HasParent c s) : s.index < c.index := by
  have hs : m.superclassOf? c = some s := hs
  have hclass : m.isClass c = true := by
    rw [superclassOf?_eq] at hs
    obtain ⟨outline, hout, _⟩ := Option.bind_eq_some_iff.mp hs
    rw [isClass_eq, hout]
    rfl
  have hproper : m.isProperClass c = true := by
    by_contra hmodule
    rw [hm.modules c hclass (Bool.not_eq_true _ ▸ hmodule)] at hs
    cases hs
  have hne : c ≠ Handle.objectClass := by
    rintro rfl
    rw [hm.root] at hs
    cases hs
  obtain ⟨t, ht, _, hlt⟩ := hm.parent c hproper hne
  have hst : s = t := Option.some.inj (hs.symm.trans ht)
  exact hst ▸ hlt

/-- The line of descent of every class ends at `Object`. -/
theorem Rooted.descends (hm : m.Rooted) (hc : m.isProperClass c = true) :
    Relation.ReflTransGen m.HasParent c Handle.objectClass := by
  -- On the handle of the class: its superclass has a smaller one.
  induction hn : c.index using Nat.strongRecOn generalizing c with
  | _ n ih =>
    by_cases hroot : c = Handle.objectClass
    · rw [hroot]
    · obtain ⟨s, hs, hproper, hlt⟩ := hm.parent c hc hroot
      exact .head hs (ih s.index (hn ▸ hlt) hproper rfl)

/-- No class descends from itself. -/
theorem Rooted.acyclic (hm : m.Rooted) (c : Handle) : ¬ Relation.TransGen m.HasParent c c := by
  have hdown : ∀ d, Relation.TransGen m.HasParent c d → d.index < c.index := by
    intro d hd
    induction hd with
    | single hs => exact hm.index_lt hs
    | tail _ hs ih => exact Nat.lt_trans (hm.index_lt hs) ih
  exact fun hcycle => Nat.lt_irrefl _ (hdown c hcycle)

end Machine

end Rite
