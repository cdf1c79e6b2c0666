import Rite.Proofs.HeapSteps

/-!
# Method resolution follows one order

The classes that can answer a message to an object stand in a row: its singleton class, if it has one,
its class, the superclass of that, and so on down to `Object`.  A message is answered by the first
class of the row whose own table has the name, and `super` goes on with the classes behind the one
whose method is running.

The code does not build this row.  It looks into the singleton class first and then walks up the line
of descent, and for `super` it starts at the superclass of the class it is in, except that above the
singleton class of the receiver comes the receiver's class and not `Class`.  That the two agree depends
on the singleton class not being in the line of descent as well.  It is not, because singleton classes
are subclasses of `Class`, and nothing is an instance of a class below `Class` (`BelowClassEmpty`).
-/

namespace Rite

open Relation (ReflTransGen TransGen)

variable {α : Type}

namespace Machine

variable {m m₁ : Machine} {c s h : Handle} {chain : List Handle}

/-! ## Lines of descent as rows -/

/-- The row of `c` and all its ancestors: every class is followed by its superclass, and the last one
is `Object`. -/
inductive Lineage (m : Machine) : Handle → List Handle → Prop
  | root : Lineage m Handle.objectClass [Handle.objectClass]
  | step {c s : Handle} {chain : List Handle} (hs : m.HasParent c s) (h : Lineage m s chain) :
      Lineage m c (c :: chain)

namespace Lineage

theorem mem_descends (h : m.Lineage c chain) : ∀ d ∈ chain, ReflTransGen m.HasParent c d := by
  induction h with
  | root =>
    intro d hd
    rw [List.mem_singleton.mp hd]
  | step hs _ ih =>
    intro d hd
    rcases List.mem_cons.mp hd with rfl | hd
    · exact .refl
    · exact .head hs (ih d hd)

theorem nodup (hm : m.Rooted) (h : m.Lineage c chain) : chain.Nodup := by
  induction h with
  | root => simp
  | step hs hchain ih =>
    refine List.nodup_cons.mpr ⟨fun hmem => ?_, ih⟩
    -- A class among its own ancestors would descend from itself.
    exact hm.acyclic _ (.head' hs (hchain.mem_descends _ hmem))

theorem unique (hm : m.Rooted) {other : List Handle} (h : m.Lineage c chain)
    (h' : m.Lineage c other) : other = chain := by
  have hroot : ∀ {s}, ¬ m.HasParent Handle.objectClass s := by
    intro s hs
    have hnone : m.superclassOf? Handle.objectClass = none := hm.root
    rw [show m.superclassOf? Handle.objectClass = some s from hs] at hnone
    cases hnone
  induction h generalizing other with
  | root =>
    cases h' with
    | root => rfl
    | step hs _ => exact absurd hs hroot
  | step hs _ ih =>
    cases h' with
    | root => exact absurd hs hroot
    | step hs' hother =>
      cases Option.some.inj (hs.symm.trans hs')
      rw [ih hother]

/-- What stands behind a class of the row is the row of its superclass. -/
theorem suffix {before after : List Handle} {w : Handle}
    (h : m.Lineage c (before ++ w :: after)) :
    (w = Handle.objectClass ∧ after = []) ∨ ∃ s, m.HasParent w s ∧ m.Lineage s after := by
  induction before generalizing c with
  | nil =>
    cases h with
    | root => exact .inl ⟨rfl, rfl⟩
    | step hs hchain => exact .inr ⟨_, hs, hchain⟩
  | cons first before ih =>
    generalize hrow : first :: before ++ w :: after = row at h
    cases h with
    | root =>
      have hlength := congrArg List.length hrow
      simp at hlength
    | step hs hchain =>
      injection hrow with _ hrest
      exact ih (hrest ▸ hchain)

end Lineage

theorem HasParent.isClass (hs : m.HasParent c s) : m.isClass c = true := by
  have hs : m.superclassOf? c = some s := hs
  rw [superclassOf?_eq] at hs
  obtain ⟨outline, hout, _⟩ := Option.bind_eq_some_iff.mp hs
  rw [isClass_eq, hout]
  rfl

/-- Every class has a row. -/
theorem Rooted.exists_lineage (hm : m.Rooted) (hc : m.isProperClass c = true) :
    ∃ chain, m.Lineage c chain := by
  have hdown := hm.descends hc
  clear hc
  induction hdown using ReflTransGen.head_induction_on with
  | refl => exact ⟨_, .root⟩
  | head hs _ ih =>
    obtain ⟨chain, hchain⟩ := ih
    exact ⟨_, .step hs hchain⟩

/-! ## Nothing is an instance of a class below `Class` -/

/-- The builtin classes are direct subclasses of `Object`, and no object is an instance of a class
below `Class`. -/
structure BelowClassEmpty (m : Machine) : Prop where
  builtin : ∀ c d : Handle, c.index < 13 → m.HasParent c d → d = Handle.objectClass
  isa : ∀ h, m.Valid h → ¬ TransGen m.HasParent (m.classOf h) Handle.classClass

/-- What there was in `m` keeps its place in the lines of descent. -/
theorem Grows.extends (hg : m.Grows m₁) : m.Extends m₁ := by
  refine ⟨hg.size, fun h hh => (hg.object h hh).isa, fun h hh => ?_⟩
  have hpayload := (hg.object h hh).payload
  unfold Object.outline Object.classInfo?
  generalize (m.object h).payload = p, (m₁.object h).payload = p₁ at hpayload
  cases hpayload <;> rfl

/-- In a grown machine the classes of the old one have the superclasses they had. -/
theorem Extends.parent_of (he : m.Extends m₁) (hm : m.Rooted) (hc : m.isProperClass c = true)
    (hs : m₁.HasParent c s) : m.HasParent c s ∧ m.isProperClass s = true := by
  have hs : m.HasParent c s := (he.superclassOf? (valid_of_isProperClass hc)).symm.trans hs
  have hne : c ≠ Handle.objectClass := by
    rintro rfl
    exact absurd (hm.root.symm.trans hs) nofun
  obtain ⟨t, ht, hproper, _⟩ := hm.parent c hc hne
  cases Option.some.inj (ht.symm.trans hs)
  exact ⟨hs, hproper⟩

/-- So none of them has got new ancestors. -/
theorem Extends.below_of (he : m.Extends m₁) (hm : m.Rooted) {c d : Handle}
    (hc : m.isProperClass c = true) (h : TransGen m₁.HasParent c d) : TransGen m.HasParent c d := by
  induction h using TransGen.head_induction_on with
  | single hs => exact .single (he.parent_of hm hc hs).1
  | head hs _ ih =>
    obtain ⟨hs, hproper⟩ := he.parent_of hm hc hs
    exact .head hs (ih hproper)

/-- A builtin class has no ancestor but `Object`. -/
theorem Rooted.not_below_of_builtin (hm : m.Rooted)
    (hbuiltin : ∀ c d : Handle, c.index < 13 → m.HasParent c d → d = Handle.objectClass)
    (hc : c.index < 13) : ¬ TransGen m.HasParent c Handle.classClass := by
  intro hbelow
  obtain ⟨s, hs, hdown⟩ := TransGen.head'_iff.mp hbelow
  cases hbuiltin c s hc hs
  rcases hdown.cases_head with heq | ⟨t, ht, _⟩
  · cases heq
  · exact absurd (hm.root.symm.trans ht) nofun

namespace BelowClassEmpty

/-- The nearest builtin ancestor of a class below `Class` is `Class`, which makes no instances. -/
theorem exists_error (hm : m.Rooted) (hempty : m.BelowClassEmpty)
    (instantiated : Handle) (tooDeep : Handle → Fault) (hops : Nat)
    (hc : ReflTransGen m.HasParent c Handle.classClass) :
    ∃ f, m.ascend (m.builtinPayload instantiated) tooDeep hops (some c) = .error f := by
  have hbuiltin : ∀ d : Handle, d.index < 13 → ReflTransGen m.HasParent d Handle.classClass →
      d = Handle.classClass := by
    intro d hd hdown
    rcases Relation.reflTransGen_iff_eq_or_transGen.mp hdown with heq | hbelow
    · exact heq.symm
    · exact absurd hbelow (hm.not_below_of_builtin hempty.builtin hd)
  have hvisit : ∀ c, ReflTransGen m.HasParent c Handle.classClass →
      (∃ f, m.builtinPayload instantiated c = .error f) ∨
        m.builtinPayload instantiated c = .ok none ∧ c ≠ Handle.classClass := by
    intro c hc
    have hstring : c ≠ Handle.stringClass := by
      rintro rfl
      exact absurd (hbuiltin _ (by decide) hc) (by decide)
    have harray : c ≠ Handle.arrayClass := by
      rintro rfl
      exact absurd (hbuiltin _ (by decide) hc) (by decide)
    have hhash : c ≠ Handle.hashClass := by
      rintro rfl
      exact absurd (hbuiltin _ (by decide) hc) (by decide)
    unfold builtinPayload
    rw [if_neg hstring, if_neg harray, if_neg hhash]
    split
    · exact .inl ⟨_, rfl⟩
    · next hfree =>
      refine .inr ⟨rfl, ?_⟩
      rintro rfl
      exact hfree (by decide)
  induction hops generalizing c with
  | zero =>
    rcases hvisit c hc with ⟨f, hf⟩ | ⟨hnone, _⟩
    · exact ⟨f, by unfold ascend; rw [hf]⟩
    · exact ⟨tooDeep c, by unfold ascend; rw [hnone]⟩
  | succ hops ih =>
    rcases hvisit c hc with ⟨f, hf⟩ | ⟨hnone, hne⟩
    · exact ⟨f, by unfold ascend; rw [hf]⟩
    · rcases hc.cases_head with heq | ⟨s, hs, hdown⟩
      · exact absurd heq hne
      · obtain ⟨f, hf⟩ := ih hdown
        refine ⟨f, ?_⟩
        unfold ascend
        rw [hnone, show m.superclassOf? c = some s from hs]
        exact hf

/-- A class that makes instances is not below `Class`. -/
theorem not_below (hm : m.Rooted) (hempty : m.BelowClassEmpty) {payload : Payload}
    (hc : m.freshPayload c = .ok payload) : ¬ TransGen m.HasParent c Handle.classClass := by
  intro hbelow
  obtain ⟨f, hf⟩ := hempty.exists_error hm c (fun _ => .classChainTooDeep (m.className c))
    m.limits.maxClassDepth hbelow.to_reflTransGen
  unfold freshPayload at hc
  rw [hf] at hc
  cases hc

end BelowClassEmpty

end Machine

/-- The class of a new object is builtin, or it was asked for an instance and can make one. -/
theorem HeapStep.class_of_new {π : Permit} {m : Machine} {heap : Heap} (hstep : HeapStep π m heap)
    {h : Handle} (hh : h.index < heap.size) (hnew : ¬ m.Valid h) :
    (heap.get h).isa.index < 13 ∨ ∃ payload, m.Makes (heap.get h).isa payload := by
  exact (hstep.new_object hh hnew).imp Payload.index_lt_of_builtinClass? fun hmakes => ⟨_, hmakes⟩

/-- **Programs never make an instance of a class below `Class`.** -/
theorem belowClassEmpty_invariant : Invariant .full Machine.BelowClassEmpty where
  heap m m' hheap h := by
    obtain ⟨heap, _, _, _, _, _, _, _⟩ := m'
    cases hheap
    exact ⟨h.builtin, h.isa⟩
  effect {α K a a' V m} hm hK hempty heffect := by
    have hmade := (heffect.eq_and_made (hK ▸ hm.pairing_le_same)).2.1
    have he : m.Extends (a.leaves m) := (grows_history.of_made hmade m).leaves.extends
    have hstep : HeapStep .full m (a.leaves m).heap := heffect.heapStep m
    generalize a.leaves m = m₁ at he hstep
    have hbelow : ∀ c, m.isProperClass c = true →
        ¬ TransGen m.HasParent c Handle.classClass →
        ¬ TransGen m₁.HasParent c Handle.classClass :=
      fun c hc hold h => hold (he.below_of hm.rooted hc h)
    refine ⟨fun c d hc hd => ?_, fun h hh => ?_⟩
    · have hproper := hm.rooted.builtin c hc
      exact hempty.builtin c d hc (he.parent_of hm.rooted hproper hd).1
    · by_cases hold : m.Valid h
      · rw [show m₁.classOf h = m.classOf h from he.isa h hold]
        exact hbelow _ (hm.rooted.isa h hold) (hempty.isa h hold)
      · rcases hstep.class_of_new hh hold with hbuiltin | ⟨payload, hmakes⟩
        · exact hbelow _ (hm.rooted.builtin _ hbuiltin)
            (hm.rooted.not_below_of_builtin hempty.builtin hbuiltin)
        · exact hbelow _ hmakes.isProperClass (hempty.not_below hm.rooted hmakes.freshPayload)

theorem Boot.belowClassEmpty : machine.BelowClassEmpty := by
  have hparent : ∀ i < 13, ∀ d ∈ machine.superclassOf? ⟨i⟩, d = Handle.objectClass := by
    decide +kernel
  have hisa : ∀ i < 18, (machine.classOf ⟨i⟩).index < 13 := by decide +kernel
  have hbuiltin : ∀ c d : Handle, c.index < 13 → machine.HasParent c d → d = Handle.objectClass :=
    fun c d hc hd => hparent c.index hc d hd
  refine ⟨hbuiltin, forall_valid fun i hi => ?_⟩
  exact rooted.not_below_of_builtin hbuiltin (hisa i hi)

/-! ## Looking up along a row -/

namespace Machine

variable {m : Machine} {c h : Handle} {chain : List Handle}

/-- The entry for `name` in the own table of `c`, if `c` is a class and there is one. -/
def entry? (m : Machine) (name : String) (c : Handle) : Option Found :=
  (m.classInfo? c).bind fun info => (info.methods.find? name).map fun method => ⟨c, method⟩

theorem ownsMethod_eq (m : Machine) (name : String) (c : Handle) :
    Action.ownsMethod c name m = (m.entry? name c).isSome := by
  unfold Action.ownsMethod entry? Table.has
  cases m.classInfo? c <;> simp

/-- What comes of asking the classes of a row for `name`, one after the other, on behalf of `o`. -/
def resolve (m : Machine) (o : Handle) (name : String) (row : List Handle) : Except Fault Found :=
  match row.findSome? (m.entry? name) with
  | some found => .ok found
  | none => .error (m.missing name o)

theorem owner_of_entry? {name : String} {found : Found} (h : m.entry? name c = some found) :
    found.owner = c := by
  obtain ⟨info, _, hinfo⟩ := Option.bind_eq_some_iff.mp h
  obtain ⟨method, _, hmethod⟩ := Option.map_eq_some_iff.mp hinfo
  rw [← hmethod]

theorem ownMethod_eq (hc : m.isClass c = true) (name : String) :
    m.ownMethod name c = .ok (m.entry? name c) := by
  unfold ownMethod entry?
  unfold isClass at hc
  obtain ⟨info, hinfo⟩ := Option.isSome_iff_exists.mp hc
  rw [hinfo]
  rfl

theorem singletonMethod?_eq (m : Machine) (h : Handle) (name : String) :
    m.singletonMethod? h name = (m.object h).singleton.bind (m.entry? name) := by
  unfold singletonMethod? entry?
  cases (m.object h).singleton with
  | none => rfl
  | some s =>
    dsimp only [Option.bind_some]
    cases m.classInfo? s <;> rfl

theorem orMissing_eq (m : Machine) (o : Handle) (name : String) (row : List Handle) :
    m.orMissing o name (.ok (row.findSome? (m.entry? name))) = m.resolve o name row := by
  unfold resolve
  cases row.findSome? (m.entry? name) <;> rfl

theorem ascend_none (m : Machine) (visit : Handle → Except Fault (Option α))
    (tooDeep : Handle → Fault) (hops : Nat) : m.ascend visit tooDeep hops none = .ok none := by
  cases hops <;> rfl

/-- A walk up from a class asks the classes of its row in order, if it may take as many hops. -/
theorem Lineage.ascend_eq (hm : m.Rooted) (h : m.Lineage c chain) (name : String)
    (tooDeep : Handle → Fault) {hops : Nat} (hhops : chain.length ≤ hops) :
    m.ascend (m.ownMethod name) tooDeep hops (some c) = .ok (chain.findSome? (m.entry? name)) := by
  -- One hop for every class, also for the last, which leads to the end of the walk.
  induction h generalizing hops with
  | root =>
    obtain ⟨hops, rfl⟩ : ∃ n, hops = n + 1 := ⟨hops - 1, by simp at hhops; omega⟩
    have hclass : m.isClass Handle.objectClass = true := by
      obtain ⟨parent, hout⟩ := isProperClass_iff.mp (hm.builtin Handle.objectClass (by decide))
      rw [isClass_eq, hout]
      rfl
    unfold ascend
    rw [ownMethod_eq hclass, List.findSome?_singleton]
    cases m.entry? name Handle.objectClass with
    | some found => rfl
    | none =>
      show m.ascend _ _ hops (m.superclassOf? Handle.objectClass) = _
      rw [hm.root, ascend_none]
  | @step c s chain hs _ ih =>
    obtain ⟨hops, rfl⟩ : ∃ n, hops = n + 1 := ⟨hops - 1, by simp at hhops; omega⟩
    unfold ascend
    rw [ownMethod_eq hs.isClass, List.findSome?_cons]
    cases m.entry? name c with
    | some found => rfl
    | none =>
      show m.ascend _ _ hops (m.superclassOf? c) = _
      rw [show m.superclassOf? c = some s from hs]
      exact ih (by simp at hhops; omega)

/-- Behind a class of a row, the walk goes on with the rest of the row. -/
theorem Lineage.lookupFrom_suffix (hm : m.Rooted) {before after : List Handle} {w : Handle}
    (h : m.Lineage c (before ++ w :: after))
    (hdepth : (before ++ w :: after).length ≤ m.limits.maxClassDepth) (name : String) :
    m.lookupFrom (m.superclassOf? w) name = .ok (after.findSome? (m.entry? name)) := by
  rcases h.suffix with ⟨rfl, rfl⟩ | ⟨s, hs, hafter⟩
  · unfold lookupFrom
    rw [hm.root, ascend_none]
    rfl
  · rw [show m.superclassOf? w = some s from hs]
    refine hafter.ascend_eq hm name _ ?_
    simp at hdepth
    omega

/-! ## The order of resolution -/

/-- The methods that `super` calls one after the other, starting with what `found` says.  `count`
bounds their number. -/
def superCalls (m : Machine) (o : Handle) (name : String) :
    (count : Nat) → (found : Except Fault Found) → List Found
  | count + 1, .ok found => found :: superCalls m o name count (m.lookupAbove o found.owner name)
  | _, _ => []

/-- Messages to `o` are resolved along the row `order`: no class stands in it twice; a message is
answered by the first class that has the name; `super` in a method of the class `w` goes on with the
classes behind `w`; and a chain of `super` calls is the row of all methods of that name. -/
structure ResolvesAlong (m : Machine) (o : Handle) (order : List Handle) : Prop where
  nodup : order.Nodup
  message : ∀ name, m.lookupMethod o name = m.resolve o name order
  above : ∀ name before w after, order = before ++ w :: after →
    m.lookupAbove o w name = m.resolve o name after
  supers : ∀ name count, order.length ≤ count →
    m.superCalls o name count (m.lookupMethod o name) = order.filterMap (m.entry? name)

/-- If `super` goes on with the rest of the row, a chain of `super` calls takes in every method. -/
theorem superCalls_eq {o : Handle} {order : List Handle} {name : String}
    (habove : ∀ before w after, order = before ++ w :: after →
      m.lookupAbove o w name = m.resolve o name after)
    {before after : List Handle} (horder : order = before ++ after) {count : Nat}
    (hcount : after.length ≤ count) :
    m.superCalls o name count (m.resolve o name after) = after.filterMap (m.entry? name) := by
  induction after generalizing before count with
  | nil => cases count <;> rfl
  | cons w after ih =>
    have hrest : order = (before ++ [w]) ++ after := by simpa using horder
    have hshort : after.length + 1 ≤ count := hcount
    cases hw : m.entry? name w with
    | none =>
      have hskip : m.resolve o name (w :: after) = m.resolve o name after := by
        unfold resolve
        rw [List.findSome?_cons, hw]
      rw [hskip, List.filterMap_cons_none hw]
      exact ih hrest (by omega)
    | some found =>
      obtain ⟨count, rfl⟩ : ∃ n, count = n + 1 := ⟨count - 1, by omega⟩
      have hhit : m.resolve o name (w :: after) = .ok found := by
        unfold resolve
        rw [List.findSome?_cons, hw]
      rw [hhit, List.filterMap_cons_some hw, superCalls, owner_of_entry? hw,
        habove before w after horder]
      rw [ih hrest (by omega)]

/-- A message is resolved along the singleton class and the line of descent of the class. -/
theorem Lineage.lookupMethod_eq (hm : m.Rooted) {o : Handle}
    (hchain : m.Lineage (m.classOf o) chain) (hdepth : chain.length ≤ m.limits.maxClassDepth)
    (name : String) :
    m.lookupMethod o name = m.resolve o name ((m.object o).singleton.toList ++ chain) := by
  have hclass : m.lookupFrom (some (m.classOf o)) name = .ok (chain.findSome? (m.entry? name)) :=
    hchain.ascend_eq hm name _ hdepth
  unfold lookupMethod
  rw [singletonMethod?_eq, hclass, orMissing_eq]
  cases (m.object o).singleton with
  | none => rfl
  | some s =>
    show (match m.entry? name s with | some found => _ | none => _) = m.resolve o name (s :: chain)
    unfold resolve
    rw [List.findSome?_cons]
    cases m.entry? name s <;> rfl

section Object

variable {o : Handle} (hm : m.WellFormed) (hempty : m.BelowClassEmpty) (ho : m.Valid o)
  (hchain : m.Lineage (m.classOf o) chain)

include hm hempty ho hchain

/-- The singleton class of an object is not an ancestor of its class. -/
theorem Lineage.not_mem_of_singleton {s : Handle} (hs : (m.object o).singleton = some s) :
    s ∉ chain := by
  intro hmem
  have hparent : m.HasParent s Handle.classClass := (hm.singletons.shape o s ho hs).2.2
  exact hempty.isa o ho (.tail' (hchain.mem_descends s hmem) hparent)

theorem resolvesAlong (hdepth : chain.length ≤ m.limits.maxClassDepth) :
    m.ResolvesAlong o ((m.object o).singleton.toList ++ chain) := by
  have hclass : ∀ name, m.lookupFrom (some (m.classOf o)) name =
      .ok (chain.findSome? (m.entry? name)) :=
    fun name => hchain.ascend_eq hm.rooted name _ hdepth
  have hmessage : ∀ name, m.lookupMethod o name =
      m.resolve o name ((m.object o).singleton.toList ++ chain) :=
    hchain.lookupMethod_eq hm.rooted hdepth
  have habove : ∀ name before w after,
      (m.object o).singleton.toList ++ chain = before ++ w :: after →
      m.lookupAbove o w name = m.resolve o name after := by
    intro name before w after horder
    rw [← orMissing_eq]
    show m.orMissing o name (m.lookupFrom (if (m.object o).singleton = some w then
      some (m.classOf o) else m.superclassOf? w) name) = _
    congr 1
    -- Either `w` is the singleton class, and the row of the class follows, or `w` is in that row.
    cases hs : (m.object o).singleton with
    | none =>
      rw [hs] at horder
      cases (show chain = before ++ w :: after from horder)
      rw [if_neg nofun]
      exact hchain.lookupFrom_suffix hm.rooted hdepth name
    | some s =>
      rw [hs] at horder
      have hfree := hchain.not_mem_of_singleton hm hempty ho hs
      cases before with
      | nil =>
        cases (show s :: chain = w :: after from horder)
        rw [if_pos rfl]
        exact hclass name
      | cons first before =>
        cases (show s :: chain = first :: (before ++ w :: after) from horder)
        have hne : ¬ some s = some w := by
          intro heq
          cases heq
          exact hfree (by simp)
        rw [if_neg hne]
        exact hchain.lookupFrom_suffix hm.rooted hdepth name
  refine ⟨?_, hmessage, habove, fun name count hcount => ?_⟩
  · cases hs : (m.object o).singleton with
    | none => exact hchain.nodup hm.rooted
    | some s =>
      exact List.nodup_cons.mpr
        ⟨hchain.not_mem_of_singleton hm hempty ho hs, hchain.nodup hm.rooted⟩
  · rw [hmessage]
    exact superCalls_eq (habove name) (List.nil_append _).symm hcount

end Object

end Machine

/-- **Method resolution and `super` follow one linear order.**  In every state that programs go
through, the class of every object has one line of descent down to `Object`.  If it is no longer than
the limit on class chains, messages to the object are resolved along one row: its singleton class, if
it has one, followed by that line.  The first class of the row whose own table has the name answers a
message, `super` goes on strictly behind the class it is in, and there is no method exactly if no
class asked has one. -/
theorem resolution_linear (m : Machine) (hm : m.Visited) (o : Handle) (ho : m.Valid o) :
    ∃ chain, m.Lineage (m.classOf o) chain ∧
      (∀ other, m.Lineage (m.classOf o) other → other = chain) ∧
      (chain.length ≤ m.limits.maxClassDepth →
        m.ResolvesAlong o ((m.object o).singleton.toList ++ chain)) := by
  obtain ⟨hwell, hempty⟩ := belowClassEmpty_invariant.visited Boot.belowClassEmpty hm
  obtain ⟨chain, hchain⟩ := hwell.rooted.exists_lineage (hwell.rooted.isa o ho)
  refine ⟨chain, hchain, fun other hother => hchain.unique hwell.rooted hother, fun hdepth => ?_⟩
  exact Machine.resolvesAlong hwell hempty ho hchain hdepth

/-- A script that makes a class `Shape`, a subclass `Circle` and an instance of it, and gives all of
them, the instance too, a method `describe` of their own. -/
def describeScript : Record where
  symbols := ["Shape", "describe", "Circle", "new"]
  children := [{ code := { placed := #[⟨0, { op := .superSend, a := 1, b := 0 }⟩], size := 3 } }]
  code :=
    { placed :=
        #[⟨0, { op := .openClass, a := 1, b := 0 }⟩, ⟨3, { op := .move, a := 4, b := 1 }⟩,
          ⟨6, { op := .method, a := 2, b := 0 }⟩, ⟨9, { op := .defMethod, a := 1, b := 1 }⟩,
          ⟨12, { op := .openClass, a := 3, b := 2 }⟩, ⟨15, { op := .move, a := 5, b := 3 }⟩,
          ⟨18, { op := .method, a := 4, b := 0 }⟩, ⟨21, { op := .defMethod, a := 3, b := 1 }⟩,
          ⟨24, { op := .send, a := 5, b := 3, c := 0 }⟩, ⟨28, { op := .singletonClass, a := 5 }⟩,
          ⟨30, { op := .method, a := 6, b := 0 }⟩, ⟨33, { op := .defMethod, a := 5, b := 1 }⟩]
      size := 36 }

/-- The machine that the script leaves behind. -/
@[irreducible] def afterDescribeScript : Machine :=
  (Run.image 20 { (default : Image) with records := [describeScript] }).leaves Boot.machine

theorem visited_afterDescribeScript : afterDescribeScript.Visited := by
  have hends : (Run.image 20 { (default : Image) with records := [describeScript] }).Ends
      Boot.machine := .of_succeeds (by decide +kernel)
  unfold afterDescribeScript
  exact .resting (.executed (.boot {} {} {}) 20 _ hends)

/-- The instance has the handle 24, and its class `Circle` the handle 21. -/
theorem lineage_afterDescribeScript :
    afterDescribeScript.Lineage (afterDescribeScript.classOf ⟨24⟩)
      [⟨21⟩, ⟨18⟩, Handle.objectClass] := by
  obtain ⟨hcircle, hshape, hisa⟩ :
      afterDescribeScript.superclassOf? ⟨21⟩ = some ⟨18⟩ ∧
      afterDescribeScript.superclassOf? ⟨18⟩ = some Handle.objectClass ∧
      afterDescribeScript.classOf ⟨24⟩ = ⟨21⟩ := by decide +kernel
  rw [hisa]
  exact .step hcircle (.step hshape .root)

/-- The row of the instance is its singleton class, `Circle`, `Shape` and `Object`, and three of these
have the method. -/
theorem resolution_linear_afterDescribeScript :
    afterDescribeScript.Visited ∧ afterDescribeScript.Valid ⟨24⟩ ∧
    afterDescribeScript.Lineage (afterDescribeScript.classOf ⟨24⟩) [⟨21⟩, ⟨18⟩, ⟨0⟩] ∧
    ([⟨25⟩, ⟨21⟩, ⟨18⟩, ⟨0⟩].filterMap (afterDescribeScript.entry? "describe")).map (·.owner) =
      [⟨25⟩, ⟨21⟩, ⟨18⟩] ∧
    afterDescribeScript.ResolvesAlong ⟨24⟩ [⟨25⟩, ⟨21⟩, ⟨18⟩, ⟨0⟩] := by
  obtain ⟨hsize, hsingleton, howners, hdepth⟩ :
      24 < afterDescribeScript.heap.size ∧
      (afterDescribeScript.object ⟨24⟩).singleton = some ⟨25⟩ ∧
      ([⟨25⟩, ⟨21⟩, ⟨18⟩, ⟨0⟩].filterMap (afterDescribeScript.entry? "describe")).map (·.owner) =
        [⟨25⟩, ⟨21⟩, ⟨18⟩] ∧
      3 ≤ afterDescribeScript.limits.maxClassDepth := by decide +kernel
  refine ⟨visited_afterDescribeScript, hsize, lineage_afterDescribeScript, howners, ?_⟩
  obtain ⟨chain, _, hunique, hresolves⟩ :=
    resolution_linear afterDescribeScript visited_afterDescribeScript ⟨24⟩ hsize
  cases hunique _ lineage_afterDescribeScript
  have hrow := hresolves hdepth
  rw [hsingleton] at hrow
  exact hrow

end Rite
