import Rite.Proofs.FailedSteps
import Rite.Proofs.Resolution

/-!
# Opening classes and modules

A class or a module is opened by its name.  What comes of it depends on what the constant of that name
is bound to: an object of the kind asked for is answered as it is, any other is refused, and if the
constant is free, a new class or module is made and bound to it.  `Machine.Opens` is this rule, for
both kinds: what is already there is not touched, what is made is made once, and a refusal leaves
nothing behind.

Whether an object is a class or a module never changes.  So what was opened as one of the two is
refused by the other in every later state (`Machine.Precedes`) in which the constant still has it.
-/

namespace Rite

namespace Machine

variable {m m₁ m₂ : Machine} {c : Handle} {name : String}

/-! ## Later states -/

/-- The state `m₁` is `m` or comes after it: the two are related by every relation between earlier and
later states that the elementary changes of a machine respect. -/
def Precedes (m m₁ : Machine) : Prop := ∀ G : Machine → Machine → Prop, History G → G m m₁

theorem Precedes.refl (m : Machine) : m.Precedes m := fun _ hG => hG.refl m

theorem Precedes.trans (h : m.Precedes m₁) (h₁ : m₁.Precedes m₂) : m.Precedes m₂ :=
  fun G hG => hG.trans (h G hG) (h₁ G hG)

theorem Precedes.extends (h : m.Precedes m₁) : m.Extends m₁ := (h _ grows_history).extends

/-! ## What opening does -/

/-- The machine with a new object and the constant `name` bound to it. -/
def introduce (m : Machine) (name : String) (o : Object) : Machine :=
  { m with heap := m.heap.push o, constants := m.constants.insert name m.heap.next }

theorem constant?_introduce (m : Machine) (name : String) (o : Object) :
    (m.introduce name o).constant? name = some m.heap.next := by
  show (m.constants.insert name m.heap.next).find? name = _
  rw [Table.find?_insert, if_pos rfl]

theorem object_introduce (m : Machine) (name : String) (o : Object) :
    (m.introduce name o).object m.heap.next = o := by
  show (m.heap.push o).get m.heap.next = o
  rw [Heap.get_push]
  exact if_pos rfl

/-- What `action` does with `m`, which opens the constant `name`.  Objects that are `fit` can be
opened; a new one is `fresh`, and it can be made if the machine is `ready` for it. -/
structure Opens (m : Machine) (name : String) (fit : Machine → Handle → Prop) (ready : Prop)
    (fresh : Object) (action : Action Handle) : Prop where
  succeeds : (∃ c m₁, action m = .ok c m₁) ↔
    (∀ c, m.constant? name = some c → fit m c) ∧ (m.constant? name = none → ready)
  /-- The answer is what the constant is bound to, and of the kind asked for. -/
  answers : ∀ c m₁, action m = .ok c m₁ → m₁.constant? name = some c ∧ fit m₁ c
  /-- A constant that was bound before is left alone, and everything else too. -/
  reuses : ∀ c m₁, action m = .ok c m₁ → (m.constant? name).isSome = true → m₁ = m
  /-- Otherwise one object is added, and that constant is bound. -/
  makes : ∀ c m₁, action m = .ok c m₁ → m.constant? name = none →
    c = m.heap.next ∧ m₁ = m.introduce name fresh
  again : ∀ c m₁, action m = .ok c m₁ → action m₁ = .ok c m₁
  fails : ∀ halt m₁, action m = .error halt m₁ → m₁ = m ∧ ∃ fault, halt = .fault fault

/-- All of it follows from what `action` does with a constant that is bound and with one that is
free. -/
theorem Opens.of_cases {fit : Machine → Handle → Prop} {ready : Prop} {fresh : Object}
    {action : Action Handle} (hall : AllOrNothing action)
    (hfit : ∀ m c, m.constant? name = some c → fit m c → action m = .ok c m)
    (hunfit : ∀ c, m.constant? name = some c → ¬ fit m c → ∃ fault, action m = .error fault m)
    (hready : m.constant? name = none → ready → action m = .ok m.heap.next (m.introduce name fresh))
    (hunready : m.constant? name = none → ¬ ready → ∃ fault, action m = .error fault m)
    (hfresh : fit (m.introduce name fresh) m.heap.next) : m.Opens name fit ready fresh action := by
  have hbound : ∀ c x m₁, m.constant? name = some c → action m = .ok x m₁ →
      fit m c ∧ x = c ∧ m₁ = m := by
    intro c x m₁ hc hok
    by_cases h : fit m c
    · cases (hfit m c hc h).symm.trans hok
      exact ⟨h, rfl, rfl⟩
    · obtain ⟨fault, hfault⟩ := hunfit c hc h
      cases hfault.symm.trans hok
  have hfree : ∀ x m₁, m.constant? name = none → action m = .ok x m₁ →
      ready ∧ x = m.heap.next ∧ m₁ = m.introduce name fresh := by
    intro x m₁ hnone hok
    by_cases h : ready
    · cases (hready hnone h).symm.trans hok
      exact ⟨h, rfl, rfl⟩
    · obtain ⟨fault, hfault⟩ := hunready hnone h
      cases hfault.symm.trans hok
  have hanswers : ∀ x m₁, action m = .ok x m₁ → m₁.constant? name = some x ∧ fit m₁ x := by
    intro x m₁ hok
    cases hc : m.constant? name with
    | some c =>
      obtain ⟨h, rfl, rfl⟩ := hbound c x m₁ hc hok
      exact ⟨hc, h⟩
    | none =>
      obtain ⟨_, rfl, rfl⟩ := hfree x m₁ hc hok
      exact ⟨m.constant?_introduce name fresh, hfresh⟩
  refine ⟨⟨?_, ?_⟩, hanswers, ?_, ?_, ?_, ?_⟩
  · rintro ⟨x, m₁, hok⟩
    exact ⟨fun c hc => (hbound c x m₁ hc hok).1, fun hnone => (hfree x m₁ hnone hok).1⟩
  · rintro ⟨hold, hnew⟩
    cases hc : m.constant? name with
    | some c => exact ⟨c, m, hfit m c hc (hold c hc)⟩
    | none => exact ⟨_, _, hready hc (hnew hc)⟩
  · intro x m₁ hok hsome
    obtain ⟨c, hc⟩ := Option.isSome_iff_exists.mp hsome
    exact (hbound c x m₁ hc hok).2.2
  · exact fun x m₁ hok hnone => (hfree x m₁ hnone hok).2
  · intro x m₁ hok
    obtain ⟨hconstant, h⟩ := hanswers x m₁ hok
    exact hfit m₁ x hconstant h
  · intro halt m₁ herror
    rcases hall m with ⟨x, m₁, hok⟩ | ⟨fault, hfault⟩
    · cases hok.symm.trans herror
    · cases hfault.symm.trans herror
      exact ⟨rfl, fault, rfl⟩

/-! ## Classes and modules -/

/-- The object `c` is a class and no module, with the superclass asked for, if one is. -/
def IsClassUnder (superclass : Option Handle) (m : Machine) (c : Handle) : Prop :=
  m.isProperClass c = true ∧ ∀ s, superclass = some s → m.superclassOf? c = some s

/-- The object `c` is a module. -/
def IsModule (m : Machine) (c : Handle) : Prop := m.isClass c = true ∧ m.isProperClass c = false

/-- An object that the constant is bound to is opened as a class if it is one and has the superclass
asked for; otherwise the fault says which of the two is wrong. -/
theorem openClass_of_bound (hc : m.constant? name = some c) (superclass : Option Handle) :
    (m.IsClassUnder superclass c → Action.openClass name superclass m = .ok c m) ∧
    (m.isProperClass c = false →
      Action.openClass name superclass m = .error (.fault (m.mismatch "Class" c)) m) ∧
    (m.isProperClass c = true → ¬ m.IsClassUnder superclass c →
      Action.openClass name superclass m = .error (.fault (.superclassMismatch name)) m) := by
  unfold IsClassUnder isProperClass superclassOf? Action.openClass
  rw [Action.ask_bind, hc]
  dsimp only
  rw [Action.ask_bind]
  cases m.classInfo? c with
  | none =>
    refine ⟨fun h => ?_, fun _ => rfl, fun h => ?_⟩
    · cases h.1
    · cases h
  | some info =>
    dsimp only
    cases info.isModule with
    | true =>
      refine ⟨fun h => ?_, fun _ => rfl, fun h => ?_⟩
      · cases h.1
      · cases h
    | false =>
      cases superclass with
      | none =>
        refine ⟨fun _ => rfl, fun h => ?_, fun _ h => ?_⟩
        · cases h
        · refine (h ⟨rfl, fun s hs => ?_⟩).elim
          cases hs
      | some s =>
        refine ⟨fun h => ?_, fun h => ?_, fun _ h => ?_⟩
        · have hsame : ((some s).isSome && decide (some s ≠ info.superclass)) = false := by
            simp [h.2 s rfl]
          rw [hsame]
          rfl
        · cases h
        · have hs : some s ≠ info.superclass := fun hs => h ⟨rfl, fun t ht => hs.symm.trans ht⟩
          have hother : ((some s).isSome && decide (some s ≠ info.superclass)) = true := by
            simp [hs]
          rw [hother]
          rfl

/-- A name that is free is given to a new class, if the superclass is a class. -/
theorem openClass_of_free (hfree : m.constant? name = none) (superclass : Option Handle) :
    (m.isProperClass (superclass.getD Handle.objectClass) = true →
      Action.openClass name superclass m = .ok m.heap.next
        (m.introduce name (.newClass name (superclass.getD Handle.objectClass)))) ∧
    (m.isProperClass (superclass.getD Handle.objectClass) = false →
      Action.openClass name superclass m =
        .error (.fault (m.mismatch "Class" (superclass.getD Handle.objectClass))) m) := by
  unfold Action.openClass
  rw [Action.ask_bind, hfree]
  dsimp only
  rw [Action.ask_bind]
  constructor
  · intro h
    rw [if_pos h]
    rfl
  · intro h
    rw [if_neg (Bool.eq_false_iff.mp h)]
    rfl

/-- An object that the constant is bound to is opened as a module if it is one. -/
theorem openModule_of_bound (hc : m.constant? name = some c) :
    (m.IsModule c → Action.openModule name m = .ok c m) ∧
    (¬ m.IsModule c → Action.openModule name m = .error (.fault (m.mismatch "Module" c)) m) := by
  unfold IsModule isClass isProperClass Action.openModule
  rw [Action.ask_bind, hc]
  dsimp only
  rw [Action.ask_bind]
  cases m.classInfo? c with
  | none => exact ⟨fun h => (Bool.false_ne_true h.1).elim, fun _ => rfl⟩
  | some info =>
    dsimp only
    cases info.isModule with
    | true => exact ⟨fun _ => rfl, fun h => (h ⟨rfl, rfl⟩).elim⟩
    | false => exact ⟨fun h => (Bool.false_ne_true h.2.symm).elim, fun _ => rfl⟩

theorem openModule_of_free (hfree : m.constant? name = none) :
    Action.openModule name m = .ok m.heap.next (m.introduce name (.newModule name)) := by
  unfold Action.openModule
  rw [Action.ask_bind, hfree]
  rfl

/-! ## The rule for both kinds -/

theorem opens_openClass (m : Machine) (name : String) (superclass : Option Handle) :
    m.Opens name (IsClassUnder superclass)
      (m.isProperClass (superclass.getD Handle.objectClass) = true)
      (.newClass name (superclass.getD Handle.objectClass)) (Action.openClass name superclass) := by
  refine .of_cases (Action.allOrNothing_openClass name superclass)
    (fun m c hc => (openClass_of_bound hc superclass).1) ?_
    (fun hfree => (openClass_of_free hfree superclass).1) ?_ ?_
  · intro c hc hunfit
    cases hproper : m.isProperClass c with
    | true => exact ⟨_, (openClass_of_bound hc superclass).2.2 hproper hunfit⟩
    | false => exact ⟨_, (openClass_of_bound hc superclass).2.1 hproper⟩
  · intro hfree hunready
    exact ⟨_, (openClass_of_free hfree superclass).2 (Bool.eq_false_iff.mpr hunready)⟩
  · unfold IsClassUnder isProperClass superclassOf? classInfo?
    rw [object_introduce]
    refine ⟨rfl, ?_⟩
    rintro s rfl
    rfl

theorem opens_openModule (m : Machine) (name : String) :
    m.Opens name IsModule True (.newModule name) (Action.openModule name) := by
  refine .of_cases (Action.allOrNothing_openModule name)
    (fun m c hc => (openModule_of_bound hc).1) (fun c hc h => ⟨_, (openModule_of_bound hc).2 h⟩)
    (fun hfree _ => openModule_of_free hfree) (fun _ h => (h trivial).elim) ?_
  unfold IsModule isClass isProperClass classInfo?
  rw [object_introduce]
  exact ⟨rfl, rfl⟩

/-! ## Kinds do not change -/

theorem Extends.isModule (he : m.Extends m₁) (hc : m.IsModule c) : m₁.IsModule c := by
  have hvalid : m.Valid c := valid_of_isClass hc.1
  refine ⟨?_, ?_⟩
  · rw [isClass_eq, he.outline c hvalid, ← isClass_eq]
    exact hc.1
  · rw [Bool.eq_false_iff]
    intro h
    exact Bool.eq_false_iff.mp hc.2 ((he.isProperClass hvalid).mp h)

end Machine

open Machine

/-- Opening a class or a module follows the same rule: what the constant is bound to is answered
unchanged if it is of the kind asked for, a free constant is bound to one new object, and a refusal
changes nothing.  What was opened as one kind is refused as the other from then on, for as long as the
constant has it.  Runs of images, sends and single instructions lead to later states, one after the
other. -/
theorem opening_atomic (m : Machine) (name : String) (superclass : Option Handle) :
    m.Opens name (IsClassUnder superclass)
      (m.isProperClass (superclass.getD Handle.objectClass) = true)
      (.newClass name (superclass.getD Handle.objectClass)) (Action.openClass name superclass) ∧
    m.Opens name IsModule True (.newModule name) (Action.openModule name) ∧
    (∀ c m₁, Action.openClass name superclass m = .ok c m₁ →
      ∀ m₂, m₁.Precedes m₂ → m₂.constant? name = some c →
        Action.openModule name m₂ = .error (.fault (m₂.mismatch "Module" c)) m₂) ∧
    (∀ c m₁, Action.openModule name m = .ok c m₁ →
      ∀ m₂, m₁.Precedes m₂ → m₂.constant? name = some c → ∀ other,
        Action.openClass name other m₂ = .error (.fault (m₂.mismatch "Class" c)) m₂) ∧
    m.Precedes m ∧ (∀ m₁ m₂, m.Precedes m₁ → m₁.Precedes m₂ → m.Precedes m₂) ∧
    ∀ fuel, (∀ i, m.Precedes ((Run.image fuel i).leaves m)) ∧
      (∀ receiver selector args,
        m.Precedes (((Run.engine fuel).send receiver selector args).leaves m)) ∧
      ∀ p f, m.Precedes (((Step.take (Run.engine fuel) p).on f).leaves m) := by
  have hclass := m.opens_openClass name superclass
  have hmodule := m.opens_openModule name
  refine ⟨hclass, hmodule, ?_, ?_, Precedes.refl m, fun _ _ => Precedes.trans,
    fun fuel => ⟨?_, ?_, ?_⟩⟩
  · intro c m₁ hok m₂ hlater hc
    refine (openModule_of_bound hc).2 fun h => ?_
    have hproper := hlater.extends.isProperClass_of (hclass.answers c m₁ hok).2.1
    exact Bool.false_ne_true (h.2.symm.trans hproper)
  · intro c m₁ hok m₂ hlater hc other
    have h := hlater.extends.isModule (hmodule.answers c m₁ hok).2
    exact (openClass_of_bound hc other).2.1 h.2
  · exact fun i G hG => hG.image fuel i m
  · exact fun receiver selector args G hG => hG.send fuel receiver selector args m
  · exact fun p f G hG => hG.step fuel p f m

/-- After the script `Shape` is a class: it is opened as it is, and refused as a module.  `Figure` is
free: a module is made of it, which is refused as a class at once. -/
theorem opening_atomic_afterDescribeScript :
    Action.openClass "Shape" none afterDescribeScript = .ok ⟨18⟩ afterDescribeScript ∧
    Action.openModule "Shape" afterDescribeScript =
      .error (.fault (.typeMismatch "Module" "Class")) afterDescribeScript ∧
    ∃ m₁, Action.openModule "Figure" afterDescribeScript = .ok afterDescribeScript.heap.next m₁ ∧
      m₁ = afterDescribeScript.introduce "Figure" (.newModule "Figure") ∧
      Action.openClass "Figure" (some ⟨18⟩) m₁ =
        .error (.fault (m₁.mismatch "Class" afterDescribeScript.heap.next)) m₁ := by
  obtain ⟨hshape, hproper, hmismatch, hfree⟩ :
      afterDescribeScript.constant? "Shape" = some ⟨18⟩ ∧
      afterDescribeScript.isProperClass ⟨18⟩ = true ∧
      afterDescribeScript.mismatch "Module" ⟨18⟩ = .typeMismatch "Module" "Class" ∧
      afterDescribeScript.constant? "Figure" = none := by decide +kernel
  obtain ⟨hclass, _, hrefused, _, hself, _⟩ := opening_atomic afterDescribeScript "Shape" none
  obtain ⟨_, hmodule, _, hrefusedClass, _⟩ := opening_atomic afterDescribeScript "Figure" none
  have hfits : ∀ c, afterDescribeScript.constant? "Shape" = some c →
      IsClassUnder none afterDescribeScript c := by
    intro c hc
    cases hshape.symm.trans hc
    refine ⟨hproper, fun s hs => ?_⟩
    cases hs
  have hnotfree : afterDescribeScript.constant? "Shape" ≠ none := by simp [hshape]
  obtain ⟨c, m₁, hok⟩ := hclass.succeeds.mpr ⟨hfits, fun hnone => (hnotfree hnone).elim⟩
  have hm₁ : m₁ = afterDescribeScript := hclass.reuses c m₁ hok (by simp [hshape])
  subst hm₁
  cases hshape.symm.trans (hclass.answers c _ hok).1
  refine ⟨hok, ?_, ?_⟩
  · rw [← hmismatch]
    exact hrefused _ _ hok _ hself hshape
  · obtain ⟨d, m₁, hmade⟩ := hmodule.succeeds.mpr ⟨fun c hc => by simp [hfree] at hc, fun _ => trivial⟩
    obtain ⟨rfl, hm₁⟩ := hmodule.makes d m₁ hmade hfree
    exact ⟨m₁, hmade, hm₁,
      hrefusedClass _ _ hmade m₁ (.refl m₁) (hmodule.answers _ _ hmade).1 (some ⟨18⟩)⟩

end Rite
