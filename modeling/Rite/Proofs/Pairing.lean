import Rite.Machine.Run
import Mathlib.Data.List.Forall2
import Mathlib.Order.Basic

/-!
# Two machines side by side

What is said of whole runs often compares two of them: a run and its watched copy, a run under two limits, a
run on two heaps that differ in the numbering of their objects.  A `Pairing` says which handle of the
one machine stands for which handle of the other.  From it the relation `Paired` is lifted to
everything that holds handles, up to whole machines.

What a program can ask a machine is answered alike by two paired machines: texts, numbers and faults
come out equal, handles come out paired.  Those laws, one for each question of `Machine`, are the
second half of this module.  They are all the rest of the theory uses of the questions.

Method bodies are compared by a relation `ρ` of records, which a run never looks into; see
`SameCode` for what is asked of it.
-/

namespace Rite

variable {α : Type}

/-! ## Pairings -/

/-- Which handles of two machines stand for the same object.  The builtin objects stand for
themselves, and no object stands for two. -/
structure Pairing where
  rel : Handle → Handle → Prop
  builtin : ∀ h, h.index < 17 → rel h h
  unique : ∀ {a a' b b'}, rel a a' → rel b b' → (a = b ↔ a' = b')

namespace Pairing

instance : CoeFun Pairing fun _ => Handle → Handle → Prop := ⟨Pairing.rel⟩

/-- A pairing grows when new objects are paired. -/
instance : Preorder Pairing where
  le K L := ∀ h h', K h h' → L h h'
  le_refl _ _ _ hh := hh
  le_trans _ _ _ hKL hLM h h' hh := hLM h h' (hKL h h' hh)

/-- Every handle stands for itself. -/
def same : Pairing where
  rel := Eq
  builtin _ _ := rfl
  unique := by
    rintro a _ b _ rfl rfl
    rfl

/-- Every handle below `n` stands for itself. -/
def below (n : Nat) (hn : 17 ≤ n) : Pairing where
  rel h h' := h = h' ∧ h.index < n
  builtin _ hh := ⟨rfl, by omega⟩
  unique := by
    rintro a _ b _ ⟨rfl, -⟩ ⟨rfl, -⟩
    rfl

theorem below_le {n k : Nat} (hn : 17 ≤ n) (hnk : n ≤ k) :
    below n hn ≤ below k (Nat.le_trans hn hnk) :=
  fun _ _ hh => ⟨hh.1, Nat.lt_of_lt_of_le hh.2 hnk⟩

variable (K : Pairing) {h h' : Handle}

theorem nil : K Handle.nil Handle.nil := K.builtin _ (by decide)

theorem ofBool (b : Bool) : K (Handle.ofBool b) (Handle.ofBool b) := by
  cases b <;> exact K.builtin _ (by decide)

variable {K}

/-- A handle is a given builtin object exactly if its partner is. -/
theorem eq_builtin_iff (hh : K h h') {b : Handle} (hb : b.index < 17) : h = b ↔ h' = b :=
  K.unique hh (K.builtin b hb)

theorem eq_nil_iff (hh : K h h') : h = Handle.nil ↔ h' = Handle.nil :=
  eq_builtin_iff hh (by decide)

theorem truthy_eq (hh : K h h') : h.truthy = h'.truthy := by
  have hno : h = Handle.no ↔ h' = Handle.no := eq_builtin_iff hh (by decide)
  simp only [Handle.truthy, ne_eq, eq_nil_iff hh, hno]

/-- Membership in a row is the same question on both sides. -/
theorem contains_eq {row row' : List Handle} (hh : K h h') (hrow : List.Forall₂ K.rel row row') :
    row.contains h = row'.contains h' := by
  induction hrow with
  | nil => rfl
  | cons hab _ ih =>
    simp only [List.contains_cons, ih, beq_eq_decide, K.unique hh hab]

end Pairing

/-! ## Paired data -/

theorem rel_cases {R : α → α → Prop} {x y : Option α} (h : Option.Rel R x y) :
    (x = none ∧ y = none) ∨ ∃ a b, x = some a ∧ y = some b ∧ R a b := by
  cases h with
  | none => exact .inl ⟨rfl, rfl⟩
  | some hab => exact .inr ⟨_, _, rfl, rfl, hab⟩

/-- Rows related by `R` are related by `S` if `R` implies it for what the left row holds. -/
theorem forall₂_imp_of_mem {R S : α → α → Prop} {row row' : List α} (h : List.Forall₂ R row row')
    (hRS : ∀ x ∈ row, ∀ y, R x y → S x y) : List.Forall₂ S row row' := by
  refine ((List.forall₂_and_left row row').mpr ⟨hRS, h⟩).imp ?_
  rintro x y ⟨hx, hxy⟩
  exact hx y hxy

/-- Two outcomes that are the same fault or paired values. -/
inductive PairedOutcome (Q : α → α → Prop) : Except Fault α → Except Fault α → Prop
  | ok {x x' : α} (h : Q x x') : PairedOutcome Q (.ok x) (.ok x')
  | error (f : Fault) : PairedOutcome Q (.error f) (.error f)

namespace PairedOutcome

theorem elim {Q : α → α → Prop} {x y : Except Fault α} (h : PairedOutcome Q x y) :
    (∃ f, x = .error f ∧ y = .error f) ∨ ∃ a b, x = .ok a ∧ y = .ok b ∧ Q a b := by
  cases h with
  | error f => exact .inl ⟨f, rfl, rfl⟩
  | ok hab => exact .inr ⟨_, _, rfl, rfl, hab⟩

theorem eq {x y : Except Fault α} (h : PairedOutcome Eq x y) : x = y := by
  cases h with
  | ok h => rw [h]
  | error f => rfl

theorem of_eq {x y : Except Fault α} (h : x = y) : PairedOutcome Eq x y := by
  cases h
  cases x with
  | ok x => exact .ok rfl
  | error f => exact .error f

theorem map {β : Type} {Q : α → α → Prop} {R : β → β → Prop} {f : α → β}
    {x y : Except Fault α} (h : PairedOutcome Q x y) (hf : ∀ a b, Q a b → R (f a) (f b)) :
    PairedOutcome R (x.map f) (y.map f) := by
  cases h with
  | ok h => exact .ok (hf _ _ h)
  | error e => exact .error e

end PairedOutcome

/-- The values that entries hold under `name`.  In a table that was made by insertions there is at most
one. -/
def Table.rowOf (name : String) (entries : List (String × α)) : List α :=
  (entries.filter (·.1 = name)).map (·.2)

/-- Two tables that hold related values under every name.  The order of the entries does not matter,
except among entries for one name. -/
def Table.Paired (R : α → α → Prop) (t t' : Table α) : Prop :=
  ∀ name, List.Forall₂ R (rowOf name t.entries) (rowOf name t'.entries)

namespace Table

variable {R : α → α → Prop} {t t' : Table α} {entries : List (String × α)}

/-! ### Rows of values -/

theorem rowOf_cons (name : String) (entry : String × α) (entries : List (String × α)) :
    rowOf name (entry :: entries) =
      if entry.1 = name then entry.2 :: rowOf name entries else rowOf name entries := by
  unfold rowOf
  rw [List.filter_cons]
  simp only [decide_eq_true_eq]
  split <;> rfl

theorem mem_rowOf {name : String} {value : α} :
    value ∈ rowOf name entries ↔ (name, value) ∈ entries := by
  unfold rowOf
  simp only [List.mem_map, List.mem_filter, decide_eq_true_eq]
  constructor
  · rintro ⟨⟨_, _⟩, ⟨hmem, rfl⟩, rfl⟩
    exact hmem
  · intro hmem
    exact ⟨(name, value), ⟨hmem, rfl⟩, rfl⟩

theorem findEntry_eq_head? (name : String) (entries : List (String × α)) :
    findEntry name entries = (rowOf name entries).head? := by
  induction entries with
  | nil => rfl
  | cons entry entries ih =>
    obtain ⟨other, value⟩ := entry
    rw [findEntry, rowOf_cons, ih]
    split <;> rfl

theorem rowOf_insertEntry (name other : String) (value : α) (entries : List (String × α)) :
    rowOf other (insertEntry name value entries) =
      if other = name then value :: (rowOf name entries).tail else rowOf other entries := by
  induction entries with
  | nil =>
    rw [insertEntry, rowOf_cons]
    simp only [eq_comm]
    rfl
  | cons entry entries ih =>
    obtain ⟨own, old⟩ := entry
    rw [insertEntry]
    by_cases hown : own = name
    · subst hown
      rw [if_pos rfl, rowOf_cons, rowOf_cons, rowOf_cons]
      simp only [eq_comm, if_true, List.tail_cons]
      split
      · next hother => rw [hother]
      · rfl
    · simp only [if_neg hown, rowOf_cons, ih]
      by_cases hother : other = name
      · subst hother
        simp only [if_neg hown, if_true]
      · simp only [if_neg hother]

theorem rowOf_filter_ne (name other : String) (entries : List (String × α)) :
    rowOf other (entries.filter (·.1 ≠ name)) =
      if other = name then [] else rowOf other entries := by
  unfold rowOf
  rw [List.filter_filter]
  split
  · next hsame =>
    subst hsame
    simp
  · next hne =>
    congr 1
    apply List.filter_congr
    intro entry _
    by_cases hother : entry.1 = other
    · have hname : entry.1 ≠ name := fun h => hne (hother.symm.trans h)
      simp [hother, hne]
    · simp [hother]

/-! ### Sorting -/

/-- The comparison that `Table.sorted` sorts by, as the order of names. -/
theorem notAfter_iff (x y : String × α) : (!decide (y.1 < x.1)) = true ↔ x.1 ≤ y.1 := by
  simp only [Bool.not_eq_true', decide_eq_false_iff_not, String.not_lt]

theorem notAfter_trans (x y z : String × α) (hxy : (!decide (y.1 < x.1)) = true)
    (hyz : (!decide (z.1 < y.1)) = true) : (!decide (z.1 < x.1)) = true := by
  rw [notAfter_iff] at hxy hyz ⊢
  exact String.le_trans hxy hyz

theorem notAfter_total (x y : String × α) :
    ((!decide (y.1 < x.1)) || (!decide (x.1 < y.1))) = true := by
  rw [Bool.or_eq_true, notAfter_iff, notAfter_iff]
  exact String.le_total x.1 y.1

theorem sorted_pairwise (t : Table α) : t.sorted.Pairwise fun x y => x.1 ≤ y.1 := by
  refine (List.pairwise_mergeSort notAfter_trans notAfter_total t.entries).imp fun {x y} hxy => ?_
  exact (notAfter_iff x y).mp hxy

/-- Sorting by names does not disturb the entries for one name. -/
theorem rowOf_sorted (t : Table α) (name : String) : rowOf name t.sorted = rowOf name t.entries := by
  unfold rowOf Table.sorted
  congr 1
  -- The entries for one name stand in order already, so a stable sort keeps them as they are.
  have hordered : (t.entries.filter (·.1 = name)).Pairwise
      fun x y => (!decide (y.1 < x.1)) = true := by
    refine List.Pairwise.imp_of_mem (R := fun _ _ => True) ?_
      (List.pairwise_of_forall fun _ _ => trivial)
    intro x y hx hy _
    have hx' : x.1 = name := by simpa using (List.mem_filter.mp hx).2
    have hy' : y.1 = name := by simpa using (List.mem_filter.mp hy).2
    have hsame : x.1 = y.1 := hx'.trans hy'.symm
    exact (notAfter_iff x y).mpr (hsame ▸ String.le_refl x.1)
  have hsub := (List.sublist_mergeSort notAfter_trans notAfter_total hordered
    List.filter_sublist).filter (fun x : String × α => decide (x.1 = name))
  rw [List.filter_filter] at hsub
  simp only [Bool.and_self] at hsub
  exact (hsub.eq_of_length
    ((List.mergeSort_perm t.entries _).filter _).length_eq.symm).symm

/-! ### Paired tables -/

theorem Paired.refl (hR : ∀ x ∈ t.entries, R x.2 x.2) : Table.Paired R t t := by
  intro name
  refine List.forall₂_same.mpr fun value hvalue => ?_
  exact hR (name, value) (mem_rowOf.mp hvalue)

/-- Tables stay paired when the relation is weakened, of which only the values held matter. -/
theorem Paired.imp {S : α → α → Prop} (h : Table.Paired R t t')
    (hRS : ∀ x ∈ t.entries, ∀ y, R x.2 y → S x.2 y) : Table.Paired S t t' := by
  intro name
  refine forall₂_imp_of_mem (h name) fun value hvalue value' hR => ?_
  exact hRS (name, value) (mem_rowOf.mp hvalue) value' hR

theorem Paired.flip (h : Table.Paired R t t') : Table.Paired (fun x y => R y x) t' t :=
  fun name => (h name).flip

theorem Paired.find? (h : Table.Paired R t t') (name : String) :
    Option.Rel R (t.find? name) (t'.find? name) := by
  unfold Table.find?
  rw [findEntry_eq_head?, findEntry_eq_head?]
  have hrow := h name
  generalize rowOf name t.entries = row, rowOf name t'.entries = row' at hrow ⊢
  cases hrow with
  | nil => exact .none
  | cons hab _ => exact .some hab

theorem Paired.has_eq (h : Table.Paired R t t') (name : String) : t.has name = t'.has name := by
  unfold Table.has
  obtain ⟨hx, hy⟩ | ⟨_, _, hx, hy, _⟩ := rel_cases (h.find? name) <;> rw [hx, hy]
  rfl

theorem Paired.insert (h : Table.Paired R t t') {value value' : α} (hvalue : R value value')
    (name : String) : Table.Paired R (t.insert name value) (t'.insert name value') := by
  intro other
  unfold Table.insert
  rw [rowOf_insertEntry, rowOf_insertEntry]
  split
  · have hrow := h name
    generalize rowOf name t.entries = row, rowOf name t'.entries = row' at hrow ⊢
    cases hrow with
    | nil => exact .cons hvalue .nil
    | cons _ htail => exact .cons hvalue htail
  · exact h other

theorem Paired.erase (h : Table.Paired R t t') (name : String) :
    Table.Paired R (t.erase name) (t'.erase name) := by
  intro other
  unfold Table.erase
  rw [rowOf_filter_ne, rowOf_filter_ne]
  split
  · exact .nil
  · exact h other

/-- In a list in the order of its names, nothing comes before the head. -/
theorem head_le_of_mem_rowOf {x : String × α} {entries : List (String × α)}
    (hfirst : ∀ y ∈ entries, x.1 ≤ y.1) {name : String} {value : α}
    (hvalue : value ∈ rowOf name (x :: entries)) : x.1 ≤ name := by
  obtain heq | hmem := List.mem_cons.mp (mem_rowOf.mp hvalue)
  · subst heq
    exact String.le_refl name
  · exact hfirst (name, value) hmem

/-- Lists in the order of their names that hold related values under every name are related entry by
entry. -/
theorem forall₂_of_pairwise {entries entries' : List (String × α)}
    (hsorted : entries.Pairwise fun x y => x.1 ≤ y.1)
    (hsorted' : entries'.Pairwise fun x y => x.1 ≤ y.1)
    (h : ∀ name, List.Forall₂ R (rowOf name entries) (rowOf name entries')) :
    List.Forall₂ (fun x y => x.1 = y.1 ∧ R x.2 y.2) entries entries' := by
  induction entries generalizing entries' with
  | nil =>
    cases entries' with
    | nil => exact .nil
    | cons y _ =>
      have hy := h y.1
      rw [rowOf_cons, if_pos rfl] at hy
      cases hy
  | cons x entries ih =>
    cases entries' with
    | nil =>
      have hx := h x.1
      rw [rowOf_cons, if_pos rfl] at hx
      cases hx
    | cons y entries' =>
      obtain ⟨hfirst, hrest⟩ := List.pairwise_cons.mp hsorted
      obtain ⟨hfirst', hrest'⟩ := List.pairwise_cons.mp hsorted'
      -- Each head is named on the other side too, and nothing there comes before that side's head.
      have hle : x.1 ≤ y.1 := by
        have hy := h y.1
        rw [rowOf_cons y.1 y, if_pos rfl] at hy
        obtain ⟨_, _, _, _, hrow⟩ := List.forall₂_cons_right_iff.mp hy
        apply head_le_of_mem_rowOf hfirst
        rw [hrow]
        exact List.mem_cons_self
      have hge : y.1 ≤ x.1 := by
        have hx := h x.1
        rw [rowOf_cons x.1 x, if_pos rfl] at hx
        obtain ⟨_, _, _, _, hrow⟩ := List.forall₂_cons_left_iff.mp hx
        apply head_le_of_mem_rowOf hfirst'
        rw [hrow]
        exact List.mem_cons_self
      have hname : x.1 = y.1 := String.le_antisymm hle hge
      have hheads := h x.1
      rw [rowOf_cons, if_pos rfl, rowOf_cons, if_pos hname.symm] at hheads
      refine .cons ⟨hname, (List.forall₂_cons.mp hheads).1⟩ (ih hrest hrest' fun name => ?_)
      have hrow := h name
      rw [rowOf_cons, rowOf_cons, ← hname] at hrow
      split at hrow
      · exact (List.forall₂_cons.mp hrow).2
      · exact hrow

/-- Sorted by their names, paired tables are paired entry by entry. -/
theorem Paired.sorted (h : Table.Paired R t t') :
    List.Forall₂ (fun x y => x.1 = y.1 ∧ R x.2 y.2) t.sorted t'.sorted := by
  refine forall₂_of_pairwise t.sorted_pairwise t'.sorted_pairwise fun name => ?_
  rw [rowOf_sorted, rowOf_sorted]
  exact h name

theorem Paired.isEmpty_eq (h : Table.Paired R t t') : t.isEmpty = t'.isEmpty := by
  have hlength : t.entries.length = t'.entries.length := by
    have hsorted := h.sorted.length_eq
    unfold Table.sorted at hsorted
    rwa [List.length_mergeSort, List.length_mergeSort] at hsorted
  unfold Table.isEmpty
  rw [Bool.eq_iff_iff, List.isEmpty_iff_length_eq_zero, List.isEmpty_iff_length_eq_zero, hlength]

end Table

section Objects

variable (ρ : Record → Record → Prop) (K : Pairing)

/-- Two methods of the same kind whose bodies are related. -/
inductive Method.Paired : Method → Method → Prop
  | native (method : Native) : Paired (.native method) (.native method)
  | bytecode {body body' : Record} (h : ρ body body') : Paired (.bytecode body) (.bytecode body')
  | attrReader (ivar : String) : Paired (.attrReader ivar) (.attrReader ivar)
  | attrWriter (ivar : String) : Paired (.attrWriter ivar) (.attrWriter ivar)

/-- Two classes that differ in the numbering of handles only. -/
structure ClassInfo.Paired (i i' : ClassInfo) : Prop where
  name : i.name = i'.name
  superclass : Option.Rel K.rel i.superclass i'.superclass
  methods : Table.Paired (Method.Paired ρ) i.methods i'.methods
  isModule : i.isModule = i'.isModule

/-- Two pairs of handles, paired one by one. -/
def PairedPair (p p' : Handle × Handle) : Prop := K p.1 p'.1 ∧ K p.2 p'.2

/-- Two payloads of the same kind with the same data and paired handles. -/
inductive Payload.Paired : Payload → Payload → Prop
  | plain : Paired .plain .plain
  | integer (value : Int64) : Paired (.integer value) (.integer value)
  | string (text : String) : Paired (.string text) (.string text)
  | symbol (name : String) : Paired (.symbol name) (.symbol name)
  | array {items items' : Array Handle} (h : List.Forall₂ K.rel items.toList items'.toList) :
      Paired (.array items) (.array items')
  | hash {pairs pairs' : List (Handle × Handle)} (h : List.Forall₂ (PairedPair K) pairs pairs') :
      Paired (.hash pairs) (.hash pairs')
  | range {first first' last last' : Handle} (exclusive : Bool) (hfirst : K first first')
      (hlast : K last last') : Paired (.range first last exclusive) (.range first' last' exclusive)
  | ofClass {info info' : ClassInfo} (h : ClassInfo.Paired ρ K info info') :
      Paired (.ofClass info) (.ofClass info')
  | method {method method' : Method} (h : Method.Paired ρ method method') :
      Paired (.method method) (.method method')

/-- Two objects that differ in the numbering of handles only. -/
structure Object.Paired (o o' : Object) : Prop where
  isa : K o.isa o'.isa
  ivars : Table.Paired K.rel o.ivars o'.ivars
  singleton : Option.Rel K.rel o.singleton o'.singleton
  payload : Payload.Paired ρ K o.payload o'.payload

/-- Two methods as found, in paired classes. -/
structure Found.Paired (found found' : Found) : Prop where
  owner : K found.owner found'.owner
  method : Method.Paired ρ found.method found'.method

/-- Two active methods of the same name, in paired classes. -/
def ActiveMethod.Paired (a a' : ActiveMethod) : Prop := K a.owner a'.owner ∧ a.name = a'.name

/-- Two contexts that differ in the numbering of handles only. -/
structure Context.Paired (c c' : Context) : Prop where
  self : K c.self c'.self
  target : K c.target c'.target
  method : Option.Rel (ActiveMethod.Paired K) c.method c'.method

/-- Two machines on which every program does the same up to output and call depth: what one pair of
handles leads to is paired again. -/
structure Machine.Paired (m m' : Machine) : Prop where
  object : ∀ {h h'}, K h h' → Object.Paired ρ K (m.object h) (m'.object h')
  globals : Table.Paired K.rel m.globals m'.globals
  constants : Table.Paired K.rel m.constants m'.constants
  inspecting : List.Forall₂ K.rel m.inspecting m'.inspecting
  maxClassDepth : m.limits.maxClassDepth = m'.limits.maxClassDepth

end Objects

/-! ## What an object answers -/

namespace Object.Paired

variable {ρ : Record → Record → Prop} {K : Pairing} {o o' : Object}

theorem classInfo? (h : Object.Paired ρ K o o') :
    Option.Rel (ClassInfo.Paired ρ K) o.classInfo? o'.classInfo? := by
  obtain ⟨_, _, _, _⟩ := o
  obtain ⟨_, _, _, _⟩ := o'
  cases h.payload with
  | ofClass hi => exact .some hi
  | _ => exact .none

theorem integer?_eq (h : Object.Paired ρ K o o') : o.integer? = o'.integer? := by
  obtain ⟨_, _, _, _⟩ := o
  obtain ⟨_, _, _, _⟩ := o'
  cases h.payload <;> rfl

theorem string?_eq (h : Object.Paired ρ K o o') : o.string? = o'.string? := by
  obtain ⟨_, _, _, _⟩ := o
  obtain ⟨_, _, _, _⟩ := o'
  cases h.payload <;> rfl

theorem symbol?_eq (h : Object.Paired ρ K o o') : o.symbol? = o'.symbol? := by
  obtain ⟨_, _, _, _⟩ := o
  obtain ⟨_, _, _, _⟩ := o'
  cases h.payload <;> rfl

theorem array? (h : Object.Paired ρ K o o') :
    Option.Rel (fun items items' => List.Forall₂ K.rel items.toList items'.toList)
      o.array? o'.array? := by
  obtain ⟨_, _, _, _⟩ := o
  obtain ⟨_, _, _, _⟩ := o'
  cases h.payload with
  | array hi => exact .some hi
  | _ => exact .none

theorem hash? (h : Object.Paired ρ K o o') :
    Option.Rel (List.Forall₂ (PairedPair K)) o.hash? o'.hash? := by
  obtain ⟨_, _, _, _⟩ := o
  obtain ⟨_, _, _, _⟩ := o'
  cases h.payload with
  | hash hi => exact .some hi
  | _ => exact .none

theorem range? (h : Object.Paired ρ K o o') :
    Option.Rel (fun r r' => K r.1 r'.1 ∧ K r.2.1 r'.2.1 ∧ r.2.2 = r'.2.2) o.range? o'.range? := by
  obtain ⟨_, _, _, _⟩ := o
  obtain ⟨_, _, _, _⟩ := o'
  cases h.payload with
  | range exclusive hfirst hlast => exact .some ⟨hfirst, hlast, rfl⟩
  | _ => exact .none

theorem method? (h : Object.Paired ρ K o o') :
    Option.Rel (Method.Paired ρ) o.method? o'.method? := by
  obtain ⟨_, _, _, _⟩ := o
  obtain ⟨_, _, _, _⟩ := o'
  cases h.payload with
  | method hi => exact .some hi
  | _ => exact .none

end Object.Paired

/-! ## What a machine answers -/

namespace Machine.Paired

variable {ρ : Record → Record → Prop} {K : Pairing} {m m' : Machine} {h h' : Handle}

theorem classOf (p : Machine.Paired ρ K m m') (hh : K h h') : K (m.classOf h) (m'.classOf h') :=
  (p.object hh).isa

theorem classInfo? (p : Machine.Paired ρ K m m') (hh : K h h') :
    Option.Rel (ClassInfo.Paired ρ K) (m.classInfo? h) (m'.classInfo? h') :=
  (p.object hh).classInfo?

theorem isClass_eq (p : Machine.Paired ρ K m m') (hh : K h h') : m.isClass h = m'.isClass h' := by
  unfold Machine.isClass
  obtain ⟨hx, hy⟩ | ⟨_, _, hx, hy, _⟩ := rel_cases (p.classInfo? hh) <;> rw [hx, hy]
  rfl

theorem isProperClass_eq (p : Machine.Paired ρ K m m') (hh : K h h') :
    m.isProperClass h = m'.isProperClass h' := by
  unfold Machine.isProperClass
  obtain ⟨hx, hy⟩ | ⟨_, _, hx, hy, hi⟩ := rel_cases (p.classInfo? hh) <;> rw [hx, hy]
  show (!_) = !_
  rw [hi.isModule]

theorem superclassOf? (p : Machine.Paired ρ K m m') (hh : K h h') :
    Option.Rel K.rel (m.superclassOf? h) (m'.superclassOf? h') := by
  unfold Machine.superclassOf?
  obtain ⟨hx, hy⟩ | ⟨_, _, hx, hy, hi⟩ := rel_cases (p.classInfo? hh) <;> rw [hx, hy]
  · exact .none
  · exact hi.superclass

theorem className_eq (p : Machine.Paired ρ K m m') (hh : K h h') :
    m.className h = m'.className h' := by
  unfold Machine.className
  obtain ⟨hx, hy⟩ | ⟨_, _, hx, hy, hi⟩ := rel_cases (p.classInfo? hh) <;> rw [hx, hy]
  exact hi.name

theorem describe_eq (p : Machine.Paired ρ K m m') (hh : K h h') :
    m.describe h = m'.describe h' := by
  have hnil := Pairing.eq_nil_iff hh
  have hyes : h = Handle.yes ↔ h' = Handle.yes := Pairing.eq_builtin_iff hh (by decide)
  have hno : h = Handle.no ↔ h' = Handle.no := Pairing.eq_builtin_iff hh (by decide)
  have hmain : h = Handle.mainObject ↔ h' = Handle.mainObject :=
    Pairing.eq_builtin_iff hh (by decide)
  simp only [Machine.describe, hnil, hyes, hno, hmain, p.className_eq (p.classOf hh)]
  obtain ⟨hx, hy⟩ | ⟨_, _, hx, hy, hi⟩ := rel_cases (p.classInfo? hh)
  · rw [hx, hy]
  · simp only [hx, hy, hi.name, hi.isModule]

theorem plainText_eq (p : Machine.Paired ρ K m m') (hh : K h h') :
    m.plainText h = m'.plainText h' := by
  simp only [Machine.plainText, p.className_eq (p.classOf hh)]

theorem mismatch_eq (p : Machine.Paired ρ K m m') (hh : K h h') (expected : String) :
    m.mismatch expected h = m'.mismatch expected h' := by
  simp only [Machine.mismatch, p.className_eq (p.classOf hh)]

theorem missing_eq (p : Machine.Paired ρ K m m') (hh : K h h') (name : String) :
    m.missing name h = m'.missing name h' := by
  simp only [Machine.missing, p.describe_eq hh]

theorem ownsMethod_eq (p : Machine.Paired ρ K m m') (hh : K h h') (name : String) :
    Action.ownsMethod h name m = Action.ownsMethod h' name m' := by
  unfold Action.ownsMethod
  obtain ⟨hx, hy⟩ | ⟨_, _, hx, hy, hi⟩ := rel_cases (p.classInfo? hh) <;> rw [hx, hy]
  exact hi.methods.has_eq name

theorem singletonName_eq (p : Machine.Paired ρ K m m') (hh : K h h') :
    Action.singletonName h m = Action.singletonName h' m' := by
  unfold Action.singletonName
  obtain ⟨hx, hy⟩ | ⟨_, _, hx, hy, hi⟩ := rel_cases (p.classInfo? hh) <;> rw [hx, hy]
  show "(singleton of " ++ _ ++ ")" = "(singleton of " ++ _ ++ ")"
  rw [hi.name]

/-! ### Variables and contents -/

theorem getD_nil {x x' : Option Handle} (hx : Option.Rel K.rel x x') :
    K (x.getD Handle.nil) (x'.getD Handle.nil) := by
  cases hx with
  | some hab => exact hab
  | none => exact K.nil

theorem ivar (p : Machine.Paired ρ K m m') (hh : K h h') (name : String) :
    K (m.ivar h name) (m'.ivar h' name) :=
  getD_nil ((p.object hh).ivars.find? name)

theorem global (p : Machine.Paired ρ K m m') (name : String) : K (m.global name) (m'.global name) :=
  getD_nil (p.globals.find? name)

theorem constant? (p : Machine.Paired ρ K m m') (name : String) :
    Option.Rel K.rel (m.constant? name) (m'.constant? name) :=
  p.constants.find? name

theorem expect {Q : α → α → Prop} {read : Object → Option α} (p : Machine.Paired ρ K m m')
    (hread : ∀ o o', Object.Paired ρ K o o' → Option.Rel Q (read o) (read o')) (hh : K h h')
    (expected : String) : PairedOutcome Q (m.expect expected read h) (m'.expect expected read h') := by
  unfold Machine.expect
  obtain ⟨hx, hy⟩ | ⟨_, _, hx, hy, hab⟩ := rel_cases (hread _ _ (p.object hh)) <;> rw [hx, hy]
  · rw [p.mismatch_eq hh]
    exact .error _
  · exact .ok hab

theorem expect_eq {read : Object → Option α} (p : Machine.Paired ρ K m m')
    (hread : ∀ o o', Object.Paired ρ K o o' → read o = read o') (hh : K h h')
    (expected : String) : m.expect expected read h = m'.expect expected read h' := by
  simp only [Machine.expect, hread _ _ (p.object hh), p.mismatch_eq hh]

theorem integer_eq (p : Machine.Paired ρ K m m') (hh : K h h') : m.integer h = m'.integer h' :=
  p.expect_eq (fun _ _ => Object.Paired.integer?_eq) hh _

theorem string_eq (p : Machine.Paired ρ K m m') (hh : K h h') : m.string h = m'.string h' :=
  p.expect_eq (fun _ _ => Object.Paired.string?_eq) hh _

theorem symbol_eq (p : Machine.Paired ρ K m m') (hh : K h h') : m.symbol h = m'.symbol h' :=
  p.expect_eq (fun _ _ => Object.Paired.symbol?_eq) hh _

theorem name_eq (p : Machine.Paired ρ K m m') (hh : K h h') : m.name h = m'.name h' :=
  p.expect_eq (fun _ _ ho => by simp only [ho.symbol?_eq, ho.string?_eq]) hh _

theorem array (p : Machine.Paired ρ K m m') (hh : K h h') :
    PairedOutcome (fun items items' => List.Forall₂ K.rel items.toList items'.toList)
      (m.array h) (m'.array h') :=
  p.expect (fun _ _ => Object.Paired.array?) hh _

/-- Of an array only the size is asked for. -/
theorem arraySize_eq (p : Machine.Paired ρ K m m') (hh : K h h') :
    (m.array h).map (·.size) = (m'.array h').map (·.size) :=
  ((p.array hh).map fun _ _ hi => hi.length_eq).eq

theorem hash (p : Machine.Paired ρ K m m') (hh : K h h') :
    PairedOutcome (List.Forall₂ (PairedPair K)) (m.hash h) (m'.hash h') :=
  p.expect (fun _ _ => Object.Paired.hash?) hh _

theorem range (p : Machine.Paired ρ K m m') (hh : K h h') :
    PairedOutcome (fun r r' => K r.1 r'.1 ∧ K r.2.1 r'.2.1 ∧ r.2.2 = r'.2.2)
      (m.range h) (m'.range h') :=
  p.expect (fun _ _ => Object.Paired.range?) hh _

theorem splat (p : Machine.Paired ρ K m m') (hh : K h h') :
    List.Forall₂ K.rel (m.splat h) (m'.splat h') := by
  unfold Machine.splat
  obtain ⟨hx, hy⟩ | ⟨_, _, hx, hy, hi⟩ := rel_cases (p.object hh).array? <;> rw [hx, hy]
  · simp only [Pairing.eq_nil_iff hh]
    split
    · exact .nil
    · exact .cons hh .nil
  · exact hi

/-! ### Hashes -/

theorem keysEqual_eq (p : Machine.Paired ρ K m m') {a a' b b' : Handle} (ha : K a a')
    (hb : K b b') : m.heap.keysEqual a b = m'.heap.keysEqual a' b' := by
  unfold Heap.keysEqual
  simp only [K.unique ha hb]
  have hpa := (p.object ha).payload
  have hpb := (p.object hb).payload
  simp only [Machine.object] at hpa hpb
  -- What is left looks at the data of the two keys, and not at any handle in them.
  generalize (m.heap.get a).payload = x, (m'.heap.get a').payload = x' at hpa ⊢
  generalize (m.heap.get b).payload = y, (m'.heap.get b').payload = y' at hpb ⊢
  cases hpa <;> cases hpb <;> rfl

theorem lookupPair (p : Machine.Paired ρ K m m') {pairs pairs' : List (Handle × Handle)}
    (hh : K h h') (hpairs : List.Forall₂ (PairedPair K) pairs pairs') :
    Option.Rel K.rel (m.heap.lookupPair h pairs) (m'.heap.lookupPair h' pairs') := by
  induction hpairs with
  | nil => exact .none
  | @cons x y _ _ hxy _ ih =>
    obtain ⟨_, _⟩ := x
    obtain ⟨_, _⟩ := y
    simp only [Heap.lookupPair, p.keysEqual_eq hxy.1 hh]
    split
    · exact .some hxy.2
    · exact ih

theorem hashGet? (p : Machine.Paired ρ K m m') {key key' : Handle} (hh : K h h')
    (hkey : K key key') :
    Option.Rel K.rel (m.heap.hashGet? h key) (m'.heap.hashGet? h' key') := by
  unfold Heap.hashGet?
  have hpairs := (p.object hh).hash?
  simp only [Machine.object] at hpairs
  obtain ⟨hx, hy⟩ | ⟨_, _, hx, hy, hi⟩ := rel_cases hpairs <;> rw [hx, hy]
  · exact .none
  · exact p.lookupPair hkey hi

theorem insertPair (p : Machine.Paired ρ K m m') {pairs pairs' : List (Handle × Handle)}
    {value value' : Handle} (hh : K h h') (hvalue : K value value')
    (hpairs : List.Forall₂ (PairedPair K) pairs pairs') :
    List.Forall₂ (PairedPair K) (m.heap.insertPair h value pairs)
      (m'.heap.insertPair h' value' pairs') := by
  induction hpairs with
  | nil => exact .cons ⟨hh, hvalue⟩ .nil
  | @cons x y _ _ hxy hrest ih =>
    obtain ⟨_, _⟩ := x
    obtain ⟨_, _⟩ := y
    simp only [Heap.insertPair, p.keysEqual_eq hxy.1 hh]
    split
    · exact .cons ⟨hxy.1, hvalue⟩ hrest
    · exact .cons hxy ih

/-! ### Lines of descent -/

/-- Two walks agree if they agree at every class and see the chain end after as many hops. -/
theorem ascend {Q : α → α → Prop} (p : Machine.Paired ρ K m m')
    {visit visit' : Handle → Except Fault (Option α)} {tooDeep tooDeep' : Handle → Fault}
    (hvisit : ∀ c c', K c c' → PairedOutcome (Option.Rel Q) (visit c) (visit' c'))
    (hdeep : ∀ c c', K c c' → tooDeep c = tooDeep' c') (hops : Nat) {start start' : Option Handle}
    (hstart : Option.Rel K.rel start start') :
    PairedOutcome (Option.Rel Q) (m.ascend visit tooDeep hops start)
      (m'.ascend visit' tooDeep' hops start') := by
  induction hops generalizing start start' with
  | zero =>
    cases hstart with
    | none => exact .ok .none
    | @some c c' hc =>
      unfold Machine.ascend
      obtain ⟨f, hx, hy⟩ | ⟨_, _, hx, hy, hab⟩ := (hvisit c c' hc).elim <;> rw [hx, hy]
      · exact .error f
      · cases hab with
        | some hab => exact .ok (.some hab)
        | none =>
          rw [hdeep c c' hc]
          exact .error _
  | succ hops ih =>
    cases hstart with
    | none => exact .ok .none
    | @some c c' hc =>
      unfold Machine.ascend
      obtain ⟨f, hx, hy⟩ | ⟨_, _, hx, hy, hab⟩ := (hvisit c c' hc).elim <;> rw [hx, hy]
      · exact .error f
      · cases hab with
        | some hab => exact .ok (.some hab)
        | none => exact ih (p.superclassOf? hc)

/-- The entry for a name in the tables of two paired classes. -/
theorem tableEntry {i i' : ClassInfo} (hi : ClassInfo.Paired ρ K i i') (hh : K h h')
    (name : String) :
    Option.Rel (Found.Paired ρ K) ((i.methods.find? name).map fun method => ⟨h, method⟩)
      ((i'.methods.find? name).map fun method => ⟨h', method⟩) := by
  obtain ⟨hx, hy⟩ | ⟨_, _, hx, hy, hm⟩ := rel_cases (hi.methods.find? name) <;> rw [hx, hy]
  · exact .none
  · exact .some ⟨hh, hm⟩

theorem ownMethod (p : Machine.Paired ρ K m m') (name : String) (hh : K h h') :
    PairedOutcome (Option.Rel (Found.Paired ρ K)) (m.ownMethod name h) (m'.ownMethod name h') := by
  unfold Machine.ownMethod
  obtain ⟨hx, hy⟩ | ⟨_, _, hx, hy, hi⟩ := rel_cases (p.classInfo? hh) <;> rw [hx, hy]
  · rw [p.mismatch_eq hh]
    exact .error _
  · exact .ok (tableEntry hi hh name)

theorem lookupFrom (p : Machine.Paired ρ K m m') {start start' : Option Handle}
    (hstart : Option.Rel K.rel start start') (name : String) :
    PairedOutcome (Option.Rel (Found.Paired ρ K)) (m.lookupFrom start name)
      (m'.lookupFrom start' name) := by
  unfold Machine.lookupFrom
  rw [← p.maxClassDepth]
  refine p.ascend (fun c c' hc => p.ownMethod name hc) (fun c c' hc => ?_) _ hstart
  rw [p.className_eq hc]

theorem singletonMethod? (p : Machine.Paired ρ K m m') (hh : K h h') (name : String) :
    Option.Rel (Found.Paired ρ K) (m.singletonMethod? h name) (m'.singletonMethod? h' name) := by
  unfold Machine.singletonMethod?
  obtain ⟨hx, hy⟩ | ⟨s, s', hx, hy, hs⟩ := rel_cases (p.object hh).singleton <;> rw [hx, hy]
  · exact .none
  · dsimp only
    obtain ⟨hx, hy⟩ | ⟨_, _, hx, hy, hi⟩ := rel_cases (p.classInfo? hs) <;> rw [hx, hy]
    · exact .none
    · exact tableEntry hi hs name

theorem orMissing (p : Machine.Paired ρ K m m') (hh : K h h') (name : String)
    {x x' : Except Fault (Option Found)} (hx : PairedOutcome (Option.Rel (Found.Paired ρ K)) x x') :
    PairedOutcome (Found.Paired ρ K) (m.orMissing h name x) (m'.orMissing h' name x') := by
  cases hx with
  | error f => exact .error f
  | ok hx =>
    cases hx with
    | some hf => exact .ok hf
    | none =>
      simp only [Machine.orMissing, p.missing_eq hh]
      exact .error _

theorem lookupMethod (p : Machine.Paired ρ K m m') (hh : K h h') (name : String) :
    PairedOutcome (Found.Paired ρ K) (m.lookupMethod h name) (m'.lookupMethod h' name) := by
  unfold Machine.lookupMethod
  obtain ⟨hx, hy⟩ | ⟨_, _, hx, hy, hf⟩ := rel_cases (p.singletonMethod? hh name) <;> rw [hx, hy]
  · exact p.orMissing hh name (p.lookupFrom (.some (p.classOf hh)) name)
  · exact .ok hf

theorem respondsTo_eq (p : Machine.Paired ρ K m m') (hh : K h h') (name : String) :
    m.respondsTo h name = m'.respondsTo h' name := by
  unfold Machine.respondsTo
  obtain ⟨f, hx, hy⟩ | ⟨_, _, hx, hy, _⟩ := (p.lookupMethod hh name).elim <;> rw [hx, hy]

theorem lookupAbove (p : Machine.Paired ρ K m m') {owner owner' : Handle} (hh : K h h')
    (howner : K owner owner') (name : String) :
    PairedOutcome (Found.Paired ρ K) (m.lookupAbove h owner name)
      (m'.lookupAbove h' owner' name) := by
  have hiff : (m.object h).singleton = some owner ↔ (m'.object h').singleton = some owner' := by
    obtain ⟨hx, hy⟩ | ⟨s, s', hx, hy, hs⟩ := rel_cases (p.object hh).singleton <;> rw [hx, hy]
    · simp only [reduceCtorEq]
    · simp only [Option.some.injEq, K.unique hs howner]
  unfold Machine.lookupAbove
  simp only [hiff]
  refine p.orMissing hh name (p.lookupFrom ?_ name)
  split
  · exact .some (p.classOf hh)
  · exact p.superclassOf? howner

theorem classVarHolder (p : Machine.Paired ρ K m m') (hh : K h h') (name : String) :
    PairedOutcome (Option.Rel K.rel) (m.classVarHolder h name) (m'.classVarHolder h' name) := by
  unfold Machine.classVarHolder
  rw [← p.maxClassDepth, p.className_eq hh]
  refine p.ascend (fun c c' hc => .ok ?_) (fun _ _ _ => rfl) _ (.some hh)
  rw [(p.object hc).ivars.has_eq name]
  split
  · exact .some hc
  · exact .none

theorem builtinPayload (p : Machine.Paired ρ K m m') {c c' : Handle} (hh : K h h') (hc : K c c') :
    PairedOutcome (Option.Rel (Payload.Paired ρ K)) (m.builtinPayload h c)
      (m'.builtinPayload h' c') := by
  have hstring : c = Handle.stringClass ↔ c' = Handle.stringClass :=
    Pairing.eq_builtin_iff hc (by decide)
  have harray : c = Handle.arrayClass ↔ c' = Handle.arrayClass :=
    Pairing.eq_builtin_iff hc (by decide)
  have hhash : c = Handle.hashClass ↔ c' = Handle.hashClass :=
    Pairing.eq_builtin_iff hc (by decide)
  have hnone : Machine.uninstantiable.contains c = Machine.uninstantiable.contains c' := by
    refine Pairing.contains_eq hc (List.forall₂_same.mpr fun x hx => K.builtin x ?_)
    revert x
    decide
  simp only [Machine.builtinPayload, hstring, harray, hhash, hnone, p.missing_eq hh]
  split
  · exact .ok (.some (.string ""))
  split
  · exact .ok (.some (.array .nil))
  split
  · exact .ok (.some (.hash .nil))
  split
  · exact .error _
  · exact .ok .none

theorem freshPayload (p : Machine.Paired ρ K m m') (hh : K h h') :
    PairedOutcome (Payload.Paired ρ K) (m.freshPayload h) (m'.freshPayload h') := by
  have hascend : PairedOutcome (Option.Rel (Payload.Paired ρ K))
      (m.ascend (m.builtinPayload h) (fun _ => .classChainTooDeep (m'.className h'))
        m.limits.maxClassDepth (some h))
      (m'.ascend (m'.builtinPayload h') (fun _ => .classChainTooDeep (m'.className h'))
        m.limits.maxClassDepth (some h')) :=
    p.ascend (fun _ _ hc => p.builtinPayload hh hc) (fun _ _ _ => rfl) _ (.some hh)
  unfold Machine.freshPayload
  rw [← p.maxClassDepth, p.className_eq hh]
  obtain ⟨f, hx, hy⟩ | ⟨_, _, hx, hy, hpayload⟩ := hascend.elim <;> rw [hx, hy]
  · exact .error f
  · cases hpayload with
    | some hpayload => exact .ok hpayload
    | none => exact .ok .plain

end Machine.Paired

/-! ## Machines paired with themselves -/

/-- The handles that a payload holds. -/
def Payload.handles : Payload → List Handle
  | .array items => items.toList
  | .hash pairs => pairs.map (·.1) ++ pairs.map (·.2)
  | .range first last _ => [first, last]
  | .ofClass info => info.superclass.toList
  | _ => []

/-- The handles that an object holds: its class, its singleton class, the values of its instance
variables and what its payload holds. -/
def Object.handles (o : Object) : List Handle :=
  o.isa :: (o.singleton.toList ++ o.ivars.entries.map (·.2) ++ o.payload.handles)

section Reflexivity

variable {ρ : Record → Record → Prop} {K : Pairing}

theorem Method.Paired.refl (hρ : ∀ r, ρ r r) (method : Method) : Method.Paired ρ method method := by
  cases method with
  | native method => exact .native method
  | bytecode body => exact .bytecode (hρ body)
  | attrReader ivar => exact .attrReader ivar
  | attrWriter ivar => exact .attrWriter ivar

theorem rel_refl {R : α → α → Prop} {x : Option α} (h : ∀ a ∈ x, R a a) : Option.Rel R x x := by
  cases x with
  | none => exact .none
  | some a => exact .some (h a rfl)

theorem Payload.Paired.refl (hρ : ∀ r, ρ r r) {payload : Payload}
    (h : ∀ x ∈ payload.handles, K x x) : Payload.Paired ρ K payload payload := by
  cases payload with
  | plain => exact .plain
  | integer value => exact .integer value
  | string text => exact .string text
  | symbol name => exact .symbol name
  | array items => exact .array (List.forall₂_same.mpr h)
  | hash pairs =>
    refine .hash (List.forall₂_same.mpr fun x hx => ⟨h _ ?_, h _ ?_⟩)
    · exact List.mem_append_left _ (List.mem_map_of_mem hx)
    · exact List.mem_append_right _ (List.mem_map_of_mem hx)
  | range first last exclusive =>
    exact .range exclusive (h _ (.head _)) (h _ (.tail _ (.head _)))
  | ofClass info =>
    refine .ofClass ⟨rfl, rel_refl fun c hc => h c (Option.mem_toList.mpr hc), ?_, rfl⟩
    exact Table.Paired.refl fun x _ => .refl hρ x.2
  | method method => exact .method (.refl hρ method)

theorem Object.Paired.refl (hρ : ∀ r, ρ r r) {o : Object} (h : ∀ x ∈ o.handles, K x x) :
    Object.Paired ρ K o o := by
  simp only [Object.handles, List.mem_cons, List.mem_append, List.mem_map, Option.mem_toList] at h
  refine ⟨h _ (.inl rfl), .refl fun x hx => ?_, rel_refl fun s hs => ?_, .refl hρ fun x hx => ?_⟩
  · exact h _ (.inr (.inl (.inr ⟨x, hx, rfl⟩)))
  · exact h s (.inr (.inl (.inl hs)))
  · exact h x (.inr (.inr hx))

/-- Any machine is paired with itself when every handle stands for itself. -/
theorem Machine.Paired.refl_same (hρ : ∀ r, ρ r r) (m : Machine) :
    Machine.Paired ρ Pairing.same m m where
  object := by
    rintro h _ rfl
    exact .refl hρ fun _ _ => rfl
  globals := .refl fun _ _ => rfl
  constants := .refl fun _ _ => rfl
  inspecting := List.forall₂_same.mpr fun _ _ => rfl
  maxClassDepth := rfl

end Reflexivity

end Rite
