import Mathlib.Data.List.Nodup
import Rite.Proofs.Resolution

/-!
# What defining and undefining a method changes

Defining or undefining a method writes one entry of the own table of one class `c`.  The dispatch of
every object may depend on it: instances of `c` and of classes below `c`, classes themselves, and, if
`c` is a singleton class, one object alone.

What the entry means for an object is read off its order of resolution.  A new method answers the
message if the message comes as far as `c` (`ComesTo`), that is if `c` is in the order and no class
before it has the name.  When a method is taken away, messages that it answered go on to the next
class that has the name, and no other message is affected.  The order of resolution itself stays,
because tables have no part in it.
-/

namespace Rite

namespace Machine

variable {m : Machine} {c d o : Handle} {name : String} {order chain : List Handle}

/-! ## Orders of resolution -/

/-- No superclass chain is longer than the limit on class chains. -/
def ChainsWithin (m : Machine) : Prop :=
  ∀ c chain, m.Lineage c chain → chain.length ≤ m.limits.maxClassDepth

/-- The classes that can answer messages to `o`, in order: its singleton class, if it has one, then
its class and the ancestors of that. -/
def Order (m : Machine) (o : Handle) (order : List Handle) : Prop :=
  ∃ chain, m.Lineage (m.classOf o) chain ∧ order = (m.object o).singleton.toList ++ chain

/-- A message `name` comes as far as `c`: the class is in the order, and none before it has the
name. -/
def ComesTo (m : Machine) (name : String) (c : Handle) (order : List Handle) : Prop :=
  ∃ before after, order = before ++ c :: after ∧ ∀ b ∈ before, m.entry? name b = none

theorem WellFormed.existsUnique_order (hm : m.WellFormed) (ho : m.Valid o) :
    ∃! order, m.Order o order := by
  obtain ⟨chain, hchain⟩ := hm.rooted.exists_lineage (hm.rooted.isa o ho)
  refine ⟨_, ⟨chain, hchain, rfl⟩, ?_⟩
  rintro _ ⟨other, hother, rfl⟩
  rw [hchain.unique hm.rooted hother]

theorem Order.nodup (horder : m.Order o order) (hm : m.WellFormed) (hempty : m.BelowClassEmpty)
    (hwithin : m.ChainsWithin) (ho : m.Valid o) : order.Nodup := by
  obtain ⟨chain, hchain, rfl⟩ := horder
  exact (resolvesAlong hm hempty ho hchain (hwithin _ _ hchain)).nodup

theorem Order.lookupMethod_eq (horder : m.Order o order) (hm : m.WellFormed)
    (hwithin : m.ChainsWithin) (name : String) :
    m.lookupMethod o name = m.resolve o name order := by
  obtain ⟨chain, hchain, rfl⟩ := horder
  exact hchain.lookupMethod_eq hm.rooted (hwithin _ _ hchain) name

/-- Where no class stands twice, none stands on either side of itself. -/
theorem not_mem_around {before after : List Handle} (h : (before ++ c :: after).Nodup) :
    c ∉ before ∧ c ∉ after := by
  have hfree := (List.nodup_cons.mp (List.nodup_middle.mp h)).1
  simpa using hfree

/-- A message that a method of `c` answers comes as far as `c`. -/
theorem comesTo_of_resolve {method : Method} (h : m.resolve o name order = .ok ⟨c, method⟩) :
    m.ComesTo name c order := by
  unfold resolve at h
  cases hfirst : order.findSome? (m.entry? name) with
  | none =>
    rw [hfirst] at h
    cases h
  | some found =>
    rw [hfirst] at h
    cases h
    obtain ⟨before, w, after, rfl, hw, hbefore⟩ := List.findSome?_eq_some_iff.mp hfirst
    cases owner_of_entry? hw
    exact ⟨before, after, rfl, hbefore⟩

/-- Classes that have not got the name are passed over. -/
theorem resolve_append {before after : List Handle} (h : ∀ b ∈ before, m.entry? name b = none) :
    m.resolve o name (before ++ after) = m.resolve o name after := by
  unfold resolve
  rw [List.findSome?_append, List.findSome?_eq_none_iff.mpr h, Option.none_or]

theorem resolve_append_of_ok {before : List Handle} {found : Found}
    (h : m.resolve o name before = .ok found) (after : List Handle) :
    m.resolve o name (before ++ after) = .ok found := by
  unfold resolve at *
  rw [List.findSome?_append]
  cases hfirst : before.findSome? (m.entry? name) with
  | none =>
    rw [hfirst] at h
    cases h
  | some first =>
    rw [hfirst] at h
    exact h

theorem resolve_cons_of_some {found : Found} {after : List Handle}
    (h : m.entry? name c = some found) : m.resolve o name (c :: after) = .ok found := by
  unfold resolve
  rw [List.findSome?_cons, h]

theorem resolve_cons_of_none {after : List Handle} (h : m.entry? name c = none) :
    m.resolve o name (c :: after) = m.resolve o name after := by
  unfold resolve
  rw [List.findSome?_cons, h]

/-- Resolving depends on the entries of the classes in the order, and on how the fault is put. -/
theorem resolve_congr {m₁ : Machine} (h : ∀ x ∈ order, m₁.entry? name x = m.entry? name x)
    (hmissing : m₁.missing name o = m.missing name o) :
    m₁.resolve o name order = m.resolve o name order := by
  have hsame : (order.findSome? fun x => m₁.entry? name x) = order.findSome? (m.entry? name) := by
    induction order with
    | nil => rfl
    | cons x order ih =>
      rw [List.findSome?_cons, List.findSome?_cons, h x List.mem_cons_self,
        ih fun y hy => h y (List.mem_cons_of_mem _ hy)]
  unfold resolve
  rw [hsame, hmissing]

/-! ## Changing a table -/

/-- The machine with the own methods of `c` changed. -/
def retable (m : Machine) (c : Handle) (f : Table Method → Table Method) : Machine :=
  { m with heap := m.heap.modify c (·.mapMethods f) }

section Retable

variable (f : Table Method → Table Method)

theorem object_retable (m : Machine) (c x : Handle) :
    (m.retable c f).object x = if x = c then (m.object x).mapMethods f else m.object x := by
  show (m.heap.modify c (·.mapMethods f)).get x = _
  rw [Heap.get_modify]
  by_cases hx : x = c
  · subst hx
    simp only [true_and, if_true]
    split
    · rfl
    · next hout =>
      -- Outside the heap there is no class whose table could change.
      show m.heap.get x = (m.heap.get x).mapMethods f
      rw [Heap.get_of_size_le _ (Nat.le_of_not_lt hout)]
      rfl
  · simp only [hx, false_and, if_false]
    rfl

theorem keepsOutline_retable (m : Machine) (c x : Handle) :
    (m.object x).KeepsOutline ((m.retable c f).object x) := by
  rw [object_retable]
  split
  · exact Object.keepsOutline_mapMethods _ f
  · exact ⟨rfl, rfl, rfl, rfl⟩

theorem classInfo?_retable (m : Machine) (c x : Handle) :
    (m.retable c f).classInfo? x = (m.classInfo? x).map fun info =>
      if x = c then { info with methods := f info.methods } else info := by
  unfold classInfo?
  rw [object_retable]
  split
  · obtain ⟨_, _, _, payload⟩ := m.object x
    cases payload <;> rfl
  · simp

theorem entry?_retable (m : Machine) (c x : Handle) (name : String) :
    entry? (m.retable c f) name x = (m.classInfo? x).bind fun info =>
      ((if x = c then f info.methods else info.methods).find? name).map fun method =>
        ⟨x, method⟩ := by
  unfold entry?
  rw [classInfo?_retable]
  cases m.classInfo? x with
  | none => rfl
  | some info => by_cases hx : x = c <;> simp [hx]

/-- Only the entries of `c` change. -/
theorem entry?_retable_of_ne {x : Handle} (hx : x ≠ c) :
    entry? (m.retable c f) name x = m.entry? name x := by
  rw [entry?_retable]
  simp only [if_neg hx]
  rfl

/-- Names that the change does not touch keep their entries. -/
theorem entry?_retable_of_find? (hf : ∀ table : Table Method, (f table).find? name = table.find? name)
    (x : Handle) : entry? (m.retable c f) name x = m.entry? name x := by
  rw [entry?_retable]
  unfold entry?
  congr 1
  funext info
  split
  · rw [hf]
  · rfl

theorem missing_retable (m : Machine) (c o : Handle) (name : String) :
    (m.retable c f).missing name o = m.missing name o := by
  have hname : ∀ x, (m.retable c f).className x = m.className x := by
    intro x
    unfold className
    rw [classInfo?_retable]
    cases m.classInfo? x with
    | none => rfl
    | some info => by_cases hx : x = c <;> simp [hx]
  have hclass : (m.retable c f).classOf o = m.classOf o := (keepsOutline_retable f m c o).isa
  unfold missing describe
  rw [hname, hclass, classInfo?_retable]
  cases m.classInfo? o with
  | none => rfl
  | some info => by_cases ho : o = c <;> simp [ho]

theorem hasParent_retable {s : Handle} : (m.retable c f).HasParent d s ↔ m.HasParent d s := by
  unfold HasParent
  rw [superclassOf?_eq, superclassOf?_eq, (keepsOutline_retable f m c d).outline]

theorem lineage_retable : (m.retable c f).Lineage d chain ↔ m.Lineage d chain := by
  constructor
  · intro h
    induction h with
    | root => exact .root
    | step hs _ ih => exact .step ((hasParent_retable f).mp hs) ih
  · intro h
    induction h with
    | root => exact .root
    | step hs _ ih => exact .step ((hasParent_retable f).mpr hs) ih

/-- Tables have no part in the order of resolution. -/
theorem Order.retable (horder : m.Order o order) : (m.retable c f).Order o order := by
  obtain ⟨chain, hchain, rfl⟩ := horder
  have hkept := keepsOutline_retable f m c o
  refine ⟨chain, ?_, by rw [hkept.singleton]⟩
  show (m.retable c f).Lineage ((m.retable c f).object o).isa chain
  rw [hkept.isa]
  exact (lineage_retable f).mpr hchain

theorem WellFormed.retable (hm : m.WellFormed) (c : Handle) : (m.retable c f).WellFormed :=
  (Preserved.changeMethods hm c f).leaves

theorem ChainsWithin.retable (hwithin : m.ChainsWithin) : (m.retable c f).ChainsWithin :=
  fun d chain hchain => hwithin d chain ((lineage_retable f).mp hchain)

theorem lookupMethod_retable (hm : m.WellFormed) (hwithin : m.ChainsWithin)
    (horder : m.Order o order) (name : String) :
    (m.retable c f).lookupMethod o name = (m.retable c f).resolve o name order :=
  (horder.retable f).lookupMethod_eq (hm.retable f c) (hwithin.retable f) name

theorem resolve_retable (h : ∀ x ∈ order, entry? (m.retable c f) name x = m.entry? name x) :
    (m.retable c f).resolve o name order = m.resolve o name order :=
  resolve_congr h (missing_retable f m c o name)

/-- A message that does not come as far as `c` is resolved as before. -/
theorem resolve_retable_of_not_comesTo (hnodup : order.Nodup) (h : ¬ m.ComesTo name c order) :
    (m.retable c f).resolve o name order = m.resolve o name order := by
  by_cases hc : c ∈ order
  · obtain ⟨before, after, rfl⟩ := List.append_of_mem hc
    have hfree := (not_mem_around hnodup).1
    -- A class before `c` has the name, and it is the same class in both machines.
    have hsome : before.findSome? (m.entry? name) ≠ none := fun hnone =>
      h ⟨before, after, rfl, List.findSome?_eq_none_iff.mp hnone⟩
    obtain ⟨found, hfound⟩ := Option.ne_none_iff_exists'.mp hsome
    have hbefore : (m.retable c f).resolve o name before = m.resolve o name before :=
      resolve_retable f fun x hx => entry?_retable_of_ne f (ne_of_mem_of_not_mem hx hfree)
    have hresolved : m.resolve o name before = .ok found := by
      unfold resolve
      rw [hfound]
    rw [hresolved] at hbefore
    rw [resolve_append_of_ok hbefore, resolve_append_of_ok hresolved]
  · exact resolve_retable f fun x hx => entry?_retable_of_ne f (ne_of_mem_of_not_mem hx hc)

end Retable

/-! ## Defining and undefining -/

theorem defineMethod_of_isClass (hc : m.isClass c = true) (name : String) (method : Method) :
    Action.defineMethod c name method m = .ok () (m.retable c (·.insert name method)) := by
  unfold Action.defineMethod
  rw [Action.ask_bind, hc]
  rfl

theorem undefMethod_of_isSome (hc : (m.entry? name c).isSome = true) :
    Action.undefMethod c name m = .ok () (m.retable c (·.erase name)) := by
  unfold Action.undefMethod
  rw [Action.ask_bind, ownsMethod_eq, hc]
  rfl

/-- What the machine `m₁`, in which `c` has got the method `name`, does with messages to `o`. -/
structure Defines (m m₁ : Machine) (c : Handle) (name : String) (method : Method) (o : Handle)
    (order : List Handle) : Prop where
  /-- The new method answers messages that come as far as `c`. -/
  answers : m.ComesTo name c order → m₁.lookupMethod o name = .ok ⟨c, method⟩
  unchanged : ∀ other, ¬ (other = name ∧ m.ComesTo name c order) →
    m₁.lookupMethod o other = m.lookupMethod o other

/-- What the machine `m₁`, in which `c` has lost the method `name`, does with messages to `o`. -/
structure Undefines (m m₁ : Machine) (c : Handle) (name : String) (o : Handle)
    (order : List Handle) : Prop where
  /-- Messages that the method answered go on to the classes behind `c`. -/
  passes : ∀ method, m.lookupMethod o name = .ok ⟨c, method⟩ →
    ∃ before after, order = before ++ c :: after ∧
      m₁.lookupMethod o name = m.resolve o name after
  unchanged : ∀ other, ¬ (other = name ∧ ∃ method, m.lookupMethod o name = .ok ⟨c, method⟩) →
    m₁.lookupMethod o other = m.lookupMethod o other

section Object

variable (hm : m.WellFormed) (hempty : m.BelowClassEmpty) (hwithin : m.ChainsWithin)
  (ho : m.Valid o) (horder : m.Order o order)

include hm hempty hwithin ho horder

theorem defines (hc : m.isClass c = true) (name : String) (method : Method) :
    m.Defines (m.retable c (·.insert name method)) c name method o order := by
  have hlookup := horder.lookupMethod_eq hm hwithin
  have hlookup₁ := lookupMethod_retable (c := c) (·.insert name method) hm hwithin horder
  have hnodup := horder.nodup hm hempty hwithin ho
  refine ⟨?_, fun other hother => ?_⟩
  · rintro ⟨before, after, rfl, hbefore⟩
    have hfree := (not_mem_around hnodup).1
    have hnew : entry? (m.retable c (·.insert name method)) name c = some ⟨c, method⟩ := by
      obtain ⟨info, hinfo⟩ := Option.isSome_iff_exists.mp hc
      rw [entry?_retable, hinfo]
      simp
    rw [hlookup₁, resolve_append fun b hb => ?_, resolve_cons_of_some hnew]
    rw [entry?_retable_of_ne _ (ne_of_mem_of_not_mem hb hfree)]
    exact hbefore b hb
  · rw [hlookup₁, hlookup]
    by_cases hname : other = name
    · subst hname
      exact resolve_retable_of_not_comesTo _ hnodup fun hcomes => hother ⟨rfl, hcomes⟩
    · exact resolve_retable _ fun x _ => entry?_retable_of_find? _ (by simp [hname]) x

theorem undefines (c : Handle) (name : String) :
    m.Undefines (m.retable c (·.erase name)) c name o order := by
  have hlookup := horder.lookupMethod_eq hm hwithin
  have hlookup₁ := lookupMethod_retable (c := c) (·.erase name) hm hwithin horder
  have hnodup := horder.nodup hm hempty hwithin ho
  have hgone : entry? (m.retable c (·.erase name)) name c = none := by
    rw [entry?_retable]
    cases m.classInfo? c <;> simp
  -- Without the class `c` the entries are the same, and `c` has none any more.
  have hpass : ∀ before after, order = before ++ c :: after →
      (∀ b ∈ before, m.entry? name b = none) →
      (m.retable c (·.erase name)).resolve o name order = m.resolve o name after := by
    rintro before after rfl hbefore
    obtain ⟨hfree, hbehind⟩ := not_mem_around hnodup
    rw [resolve_append fun b hb => ?_, resolve_cons_of_none hgone]
    · exact resolve_retable _ fun x hx => entry?_retable_of_ne _ (ne_of_mem_of_not_mem hx hbehind)
    · rw [entry?_retable_of_ne _ (ne_of_mem_of_not_mem hb hfree)]
      exact hbefore b hb
  refine ⟨fun method hmethod => ?_, fun other hother => ?_⟩
  · rw [hlookup] at hmethod
    obtain ⟨before, after, hsplit, hbefore⟩ := comesTo_of_resolve hmethod
    exact ⟨before, after, hsplit, (hlookup₁ name).trans (hpass before after hsplit hbefore)⟩
  · rw [hlookup₁, hlookup]
    by_cases hname : other = name
    · subst hname
      by_cases hcomes : m.ComesTo other c order
      · -- The message came by, but `c` did not answer it, so it had no such method.
        obtain ⟨before, after, hsplit, hbefore⟩ := hcomes
        rw [hpass before after hsplit hbefore, hsplit, resolve_append hbefore]
        cases hentry : m.entry? other c with
        | none => rw [resolve_cons_of_none hentry]
        | some found =>
          obtain ⟨owner, method⟩ := found
          cases owner_of_entry? hentry
          refine absurd ⟨rfl, method, ?_⟩ hother
          rw [hlookup, hsplit, resolve_append hbefore, resolve_cons_of_some hentry]
      · exact resolve_retable_of_not_comesTo _ hnodup hcomes
    · exact resolve_retable _ fun x _ => entry?_retable_of_find? _ (by simp [hname]) x

end Object

/-- A method that is defined and undefined again leaves no trace, if there was none of that name. -/
theorem lookupMethod_defined_undefined (hm : m.WellFormed) (hwithin : m.ChainsWithin)
    (horder : m.Order o order) (hfree : m.entry? name c = none) (method : Method)
    (other : String) :
    ((m.retable c (·.insert name method)).retable c (·.erase name)).lookupMethod o other =
      m.lookupMethod o other := by
  rw [lookupMethod_retable _ (hm.retable _ c) (hwithin.retable _) (horder.retable _),
    horder.lookupMethod_eq hm hwithin]
  refine resolve_congr (fun x _ => ?_)
    ((missing_retable _ _ c o other).trans (missing_retable _ m c o other))
  rw [entry?_retable, classInfo?_retable, entry?]
  by_cases hx : x = c
  · subst hx
    unfold entry? at hfree
    cases hinfo : m.classInfo? x with
    | none => rfl
    | some info =>
      rw [hinfo] at hfree
      by_cases hname : other = name
      · subst hname
        have hnone : info.methods.find? other = none := by simpa using hfree
        simp [hnone]
      · simp [hname]
  · simp [hx]

/-- A row of ancestors has no more classes than there are handles up to the first. -/
theorem Lineage.length_le (hm : m.Rooted) (h : m.Lineage c chain) : chain.length ≤ c.index + 1 := by
  induction h with
  | root => simp
  | step hs _ ih =>
    have hlt := hm.index_lt hs
    rw [List.length_cons]
    omega

end Machine

/-- **The exact effect of defining and undefining a method.**  In every state that programs go
through, if no superclass chain is longer than the limit, every object has one order of resolution:
its singleton class, if it has one, followed by the chain of its class.

Defining succeeds exactly for classes and modules.  Then `name` is answered by the new method for the
objects whose messages come as far as `c`, and all other messages are answered as before.  Undefining
succeeds exactly if the own table of `c` has the name.  Then messages `name` that a method of `c`
answered are resolved by the classes behind `c`, and all others are answered as before.  Where either
fails, nothing changes.  To define a method and undefine it again restores every answer, if `c` had no
method of that name. -/
theorem method_tables_exact (m : Machine) (hm : m.Visited) (hwithin : m.ChainsWithin) (c : Handle)
    (name : String) (method : Method) :
    (∀ o, m.Valid o → ∃! order, m.Order o order) ∧
    (m.isClass c = true → ∃ m₁, Action.defineMethod c name method m = .ok () m₁ ∧
      ∀ o order, m.Valid o → m.Order o order → m.Defines m₁ c name method o order) ∧
    (m.isClass c = false → ∃ fault, Action.defineMethod c name method m = .error (.fault fault) m) ∧
    ((m.entry? name c).isSome = true → ∃ m₁, Action.undefMethod c name m = .ok () m₁ ∧
      ∀ o order, m.Valid o → m.Order o order → m.Undefines m₁ c name o order) ∧
    (m.entry? name c = none →
      Action.undefMethod c name m = .error (.fault (m.missing name c)) m) ∧
    (m.isClass c = true → m.entry? name c = none →
      ∃ m₂, (do Action.defineMethod c name method; Action.undefMethod c name) m = .ok () m₂ ∧
        ∀ o, m.Valid o → ∀ other, m₂.lookupMethod o other = m.lookupMethod o other) := by
  obtain ⟨hwell, hempty⟩ := belowClassEmpty_invariant.visited Boot.belowClassEmpty hm
  refine ⟨fun o ho => hwell.existsUnique_order ho, fun hc => ?_, fun hc => ?_, fun howns => ?_,
    fun hfree => ?_, fun hc hfree => ?_⟩
  · refine ⟨_, Machine.defineMethod_of_isClass hc name method, fun o order ho horder => ?_⟩
    exact Machine.defines hwell hempty hwithin ho horder hc name method
  · refine ⟨m.mismatch "Class" c, ?_⟩
    unfold Action.defineMethod
    rw [Action.ask_bind, hc]
    rfl
  · refine ⟨_, Machine.undefMethod_of_isSome howns, fun o order ho horder => ?_⟩
    exact Machine.undefines hwell hempty hwithin ho horder c name
  · unfold Action.undefMethod
    rw [Action.ask_bind, Machine.ownsMethod_eq, hfree]
    rfl
  · have howns : (Machine.entry? (m.retable c (·.insert name method)) name c).isSome = true := by
      obtain ⟨info, hinfo⟩ := Option.isSome_iff_exists.mp hc
      unfold Machine.entry?
      rw [Machine.classInfo?_retable, hinfo]
      simp
    refine ⟨(m.retable c (·.insert name method)).retable c (·.erase name), ?_, fun o ho other => ?_⟩
    · show EStateM.bind (Action.defineMethod c name method) _ m = _
      unfold EStateM.bind
      rw [Machine.defineMethod_of_isClass hc]
      exact Machine.undefMethod_of_isSome howns
    · obtain ⟨order, horder, _⟩ := hwell.existsUnique_order ho
      exact Machine.lookupMethod_defined_undefined hwell hwithin horder hfree method other

/-- In the state after the script, with the instance of `Circle` at the handle 24: a message `greet`
comes as far as `Shape`, which has no such method, and `describe` is answered by the singleton class,
the first of three classes that have it. -/
theorem method_tables_exact_afterDescribeScript :
    afterDescribeScript.Visited ∧ afterDescribeScript.ChainsWithin ∧
    afterDescribeScript.Order ⟨24⟩ [⟨25⟩, ⟨21⟩, ⟨18⟩, ⟨0⟩] ∧
    afterDescribeScript.ComesTo "greet" ⟨18⟩ [⟨25⟩, ⟨21⟩, ⟨18⟩, ⟨0⟩] ∧
    (∃ m₁, Action.defineMethod ⟨18⟩ "greet" (.attrReader "@greeting") afterDescribeScript =
        .ok () m₁ ∧
      m₁.lookupMethod ⟨24⟩ "greet" = .ok ⟨⟨18⟩, .attrReader "@greeting"⟩) ∧
    (∃ method, afterDescribeScript.lookupMethod ⟨24⟩ "describe" = .ok ⟨⟨25⟩, method⟩) ∧
    ∃ m₁, Action.undefMethod ⟨25⟩ "describe" afterDescribeScript = .ok () m₁ ∧
      m₁.lookupMethod ⟨24⟩ "describe" =
        afterDescribeScript.resolve ⟨24⟩ "describe" [⟨21⟩, ⟨18⟩, ⟨0⟩] := by
  obtain ⟨hvalid, hlimit, hsingleton, hfirst, hsecond, hclass, howns, hfound⟩ :
      24 < afterDescribeScript.heap.size ∧
      afterDescribeScript.heap.size ≤ afterDescribeScript.limits.maxClassDepth ∧
      (afterDescribeScript.object ⟨24⟩).singleton = some ⟨25⟩ ∧
      (afterDescribeScript.entry? "greet" ⟨25⟩).isNone = true ∧
      (afterDescribeScript.entry? "greet" ⟨21⟩).isNone = true ∧
      afterDescribeScript.isClass ⟨18⟩ = true ∧
      (afterDescribeScript.entry? "describe" ⟨25⟩).isSome = true ∧
      (afterDescribeScript.lookupMethod ⟨24⟩ "describe").toOption.map (·.owner) = some ⟨25⟩ := by
    decide +kernel
  have hwell := (belowClassEmpty_invariant.visited Boot.belowClassEmpty
    visited_afterDescribeScript).1
  have hwithin : afterDescribeScript.ChainsWithin := by
    intro c chain hchain
    have hlength := hchain.length_le hwell.rooted
    have hindex : c.index < afterDescribeScript.heap.size := by
      cases hchain with
      | root => exact Nat.lt_of_lt_of_le (by decide) hwell.rooted.size
      | step hs _ => exact Machine.valid_of_isClass hs.isClass
    omega
  have horder : afterDescribeScript.Order ⟨24⟩ [⟨25⟩, ⟨21⟩, ⟨18⟩, ⟨0⟩] :=
    ⟨_, lineage_afterDescribeScript, by rw [hsingleton]; rfl⟩
  have hcomes : afterDescribeScript.ComesTo "greet" ⟨18⟩ [⟨25⟩, ⟨21⟩, ⟨18⟩, ⟨0⟩] :=
    ⟨[⟨25⟩, ⟨21⟩], [⟨0⟩], rfl, by
      simpa [← Option.isNone_iff_eq_none] using And.intro hfirst hsecond⟩
  have hanswer : ∃ method, afterDescribeScript.lookupMethod ⟨24⟩ "describe" =
      .ok ⟨⟨25⟩, method⟩ := by
    cases hlookup : afterDescribeScript.lookupMethod ⟨24⟩ "describe" with
    | error fault =>
      rw [hlookup] at hfound
      cases hfound
    | ok found =>
      rw [hlookup] at hfound
      obtain ⟨owner, method⟩ := found
      cases hfound
      exact ⟨method, rfl⟩
  obtain ⟨_, hdefine, _⟩ := method_tables_exact afterDescribeScript visited_afterDescribeScript
    hwithin ⟨18⟩ "greet" (.attrReader "@greeting")
  obtain ⟨_, _, _, hundef, _⟩ := method_tables_exact afterDescribeScript
    visited_afterDescribeScript hwithin ⟨25⟩ "describe" (.attrReader "@greeting")
  obtain ⟨m₁, hm₁, hdefines⟩ := hdefine hclass
  obtain ⟨m₂, hm₂, hundefines⟩ := hundef howns
  refine ⟨visited_afterDescribeScript, hwithin, horder, hcomes,
    ⟨m₁, hm₁, (hdefines _ _ hvalid horder).answers hcomes⟩, hanswer, m₂, hm₂, ?_⟩
  obtain ⟨method, hmethod⟩ := hanswer
  obtain ⟨before, after, hsplit, hpassed⟩ := (hundefines _ _ hvalid horder).passes method hmethod
  cases before with
  | nil =>
    cases hsplit
    exact hpassed
  | cons first before =>
    -- The handle 25 stands at the head of the row and nowhere else.
    have hmem : (⟨25⟩ : Handle) ∈ [⟨21⟩, ⟨18⟩, ⟨0⟩] := by
      rw [(List.cons.inj hsplit).2]
      simp
    exact absurd hmem (by decide)

end Rite
