import Rite.Proofs.ClassWalks
import Rite.Proofs.FailedSteps
import Rite.Proofs.MethodTables

/-!
# Class variables are shared along a chain

A class variable is kept with the instance variables of a class.  Which class that is depends on where
one stands: reading and setting both start at the target class and go up its superclass chain to the
nearest class that holds the name.  A variable that no class of the chain holds is set on the target
class itself, and from then on that class stands in the way of its subclasses.

So a write through one class is seen through another if and only if the walk from there ends at the
class that was written, and nothing but that one entry has to be known to say what every other class
sees.  Chains are not affected: a variable has no part in who inherits from whom.
-/

namespace Rite

namespace Machine

variable {m m₁ : Machine} {c d : Handle} {name : String} {value : Handle} {chain other : List Handle}

/-! ## Chains of classes and modules -/

namespace SuperclassChain

theorem mem_head (h : m.SuperclassChain c chain) : c ∈ chain := by
  cases h <;> exact List.mem_cons_self

theorem unique (h : m.SuperclassChain c chain) (h' : m.SuperclassChain c other) : other = chain := by
  induction h generalizing other with
  | last _ hend =>
    cases h' with
    | last _ _ => rfl
    | step hs _ => cases hend.symm.trans hs
  | step hs _ ih =>
    cases h' with
    | last _ hend => cases hend.symm.trans hs
    | step hs' hother =>
      cases Option.some.inj (hs.symm.trans hs')
      rw [ih hother]

end SuperclassChain

theorem Lineage.superclassChain (hm : m.Rooted) (h : m.Lineage c chain) :
    m.SuperclassChain c chain := by
  induction h with
  | root =>
    obtain ⟨parent, hout⟩ := isProperClass_iff.mp (hm.builtin Handle.objectClass (by decide))
    exact .last (by rw [isClass_eq, hout]; rfl) hm.root
  | step hs _ ih => exact .step hs ih

/-- Every class has a chain: that of a module is the module alone. -/
theorem Rooted.exists_superclassChain (hm : m.Rooted) (hc : m.isClass c = true) :
    ∃ chain, m.SuperclassChain c chain := by
  by_cases hproper : m.isProperClass c = true
  · obtain ⟨chain, hchain⟩ := hm.exists_lineage hproper
    exact ⟨chain, hchain.superclassChain hm⟩
  · exact ⟨[c], .last hc (hm.modules c hc (Bool.not_eq_true _ ▸ hproper))⟩

theorem Rooted.existsUnique_superclassChain (hm : m.Rooted) (hc : m.isClass c = true) :
    ∃! chain, m.SuperclassChain c chain := by
  obtain ⟨chain, hchain⟩ := hm.exists_superclassChain hc
  exact ⟨chain, hchain, fun other hother => hchain.unique hother⟩

/-- The limit that the chains of proper classes keep is kept by those of modules too. -/
theorem ChainsWithin.length_le (hwithin : m.ChainsWithin) (hm : m.Rooted)
    (h : m.SuperclassChain c chain) : chain.length ≤ m.limits.maxClassDepth := by
  by_cases hproper : m.isProperClass c = true
  · obtain ⟨line, hline⟩ := hm.exists_lineage hproper
    rw [(hline.superclassChain hm).unique h]
    exact hwithin c line hline
  · have hc := h.isClass c h.mem_head
    have hend := hm.modules c hc (Bool.not_eq_true _ ▸ hproper)
    rw [SuperclassChain.unique (.last hc hend) h]
    -- `Object` alone makes a chain of that length.
    exact hwithin Handle.objectClass [Handle.objectClass] .root

/-- Where there are no more objects than the limit allows hops, no chain can be too long. -/
theorem ChainsWithin.of_size_le (hm : m.Rooted) (hsize : m.heap.size ≤ m.limits.maxClassDepth) :
    m.ChainsWithin := by
  intro c chain hchain
  have hlength := hchain.length_le hm
  have hindex : c.index < m.heap.size := by
    cases hchain with
    | root => exact Nat.lt_of_lt_of_le (by decide) hm.size
    | step hs _ => exact valid_of_isClass hs.isClass
  omega

/-! ## Holders -/

/-- Whether `c` holds the class variable `name`. -/
def holds (m : Machine) (name : String) (c : Handle) : Bool := (m.object c).ivars.has name

/-- The nearest class of a chain that holds the class variable `name`. -/
def nearest? (m : Machine) (name : String) (chain : List Handle) : Option Handle :=
  chain.find? (m.holds name)

/-- A walk for a class variable ends at the nearest holder, if no more hops are needed than there
are. -/
theorem SuperclassChain.classVarHolder_eq (h : m.SuperclassChain c chain)
    (hlength : chain.length ≤ m.limits.maxClassDepth) (name : String) :
    m.classVarHolder c name = .ok (m.nearest? name chain) := by
  have hskip : ∀ b, m.holds name b = false →
      (Except.ok (if (m.object b).ivars.has name then some b else none) :
        Except Fault (Option Handle)) = .ok none := by
    intro b hb
    rw [if_neg (Bool.not_eq_true _ ▸ hb)]
  cases hnearest : m.nearest? name chain with
  | none =>
    have hnone : ∀ b ∈ chain, m.holds name b = false := by
      simpa [nearest?] using hnearest
    exact h.ascend_end _ (fun b hb => hskip b (hnone b hb)) hlength
  | some d =>
    obtain ⟨hd, before, after, rfl, hbefore⟩ := List.find?_eq_some_iff_append.mp hnearest
    have hfound : (Except.ok (if (m.object d).ivars.has name then some d else none) :
        Except Fault (Option Handle)) = .ok (some d) := by
      rw [if_pos (show (m.object d).ivars.has name = true from hd)]
    rw [List.length_append] at hlength
    unfold classVarHolder
    rw [h.ascend_found (k := before.length) (d := d) _ (by simp) (fun b hb => ?_) (by simp [hfound])
      (by omega), hfound]
    rw [List.take_left] at hb
    exact hskip b (by simpa using hbefore b hb)

/-! ## Assignments -/

/-- The machine with `value` as the variable `name` of `h`. -/
def assign (m : Machine) (h : Handle) (name : String) (value : Handle) : Machine :=
  { m with heap := m.heap.modify h (·.setIvar name value) }

/-- The machine `m₁` differs from `m` in one entry: `value` is the variable `name` of `h`. -/
structure Assigns (m m₁ : Machine) (h : Handle) (name : String) (value : Handle) : Prop where
  rest : m₁ = { m with heap := m₁.heap }
  size : m₁.heap.size = m.heap.size
  others : ∀ x, x ≠ h → m₁.object x = m.object x
  object : m₁.object h = { m.object h with ivars := (m₁.object h).ivars }
  ivars : ∀ key, (m₁.object h).ivars.find? key =
    if key = name then some value else (m.object h).ivars.find? key

theorem assigns_assign (hc : m.Valid c) (name : String) (value : Handle) :
    m.Assigns (m.assign c name value) c name value := by
  have hself : (m.assign c name value).object c = (m.object c).setIvar name value := by
    show (m.heap.modify c (·.setIvar name value)).get c = _
    rw [Heap.get_modify, if_pos ⟨rfl, hc⟩]
    rfl
  refine ⟨rfl, m.heap.size_modify c _, fun x hx => ?_, ?_, fun key => ?_⟩
  · show (m.heap.modify c (·.setIvar name value)).get x = _
    rw [Heap.get_modify, if_neg fun h => hx h.1]
    rfl
  · rw [hself]
    rfl
  · rw [hself]
    exact Table.find?_insert _ _ _ _

namespace Assigns

variable (h : m.Assigns m₁ c name value)

include h

theorem classInfo? (x : Handle) : m₁.classInfo? x = m.classInfo? x := by
  unfold Machine.classInfo?
  by_cases hx : x = c
  · rw [hx, h.object]
    rfl
  · rw [h.others x hx]

theorem superclassChain (hd : m.SuperclassChain d chain) : m₁.SuperclassChain d chain := by
  have hclass : ∀ x, m₁.isClass x = m.isClass x := fun x => by
    unfold isClass
    rw [h.classInfo?]
  have hsuper : ∀ x, m₁.superclassOf? x = m.superclassOf? x := fun x => by
    unfold superclassOf?
    rw [h.classInfo?]
  induction hd with
  | last hc hend => exact .last ((hclass _).trans hc) ((hsuper _).trans hend)
  | step hs _ ih => exact .step ((hsuper _).trans hs) ih

theorem limits : m₁.limits = m.limits := by
  rw [h.rest]

theorem holds_self : m₁.holds name c = true := by
  unfold holds Table.has
  rw [h.ivars, if_pos rfl]
  rfl

theorem holds_of_ne (hd : d ≠ c) : m₁.holds name d = m.holds name d := by
  unfold holds
  rw [h.others d hd]

theorem ivar_self : m₁.ivar c name = value := by
  unfold ivar
  rw [h.ivars, if_pos rfl]
  rfl

theorem ivar_of_ne (hd : d ≠ c) : m₁.ivar d name = m.ivar d name := by
  unfold ivar
  rw [h.others d hd]

/-- A walk that does not end at the class written ends where it ended before: that class is a holder
now, so the walk has not come as far as there. -/
theorem nearest?_eq (hne : m₁.nearest? name chain ≠ some c) :
    m₁.nearest? name chain = m.nearest? name chain := by
  unfold nearest? at *
  induction chain with
  | nil => rfl
  | cons x chain ih =>
    rw [List.find?_cons] at hne ⊢
    rw [List.find?_cons]
    have hx : x ≠ c := by
      rintro rfl
      rw [h.holds_self] at hne
      exact hne rfl
    rw [h.holds_of_ne hx] at hne ⊢
    cases hholds : m.holds name x with
    | true => rfl
    | false =>
      rw [hholds] at hne
      exact ih hne

end Assigns

end Machine

/-! ## The two instructions -/

namespace Step

variable (e : Engine) (offset : Nat) (a b c : UInt16) {s : Activation} {name : String}

theorem take_setClassVar {holder : Option Handle}
    (hname : s.frame.record.symbols[b.toNat]? = some name)
    (hholder : s.machine.classVarHolder s.frame.context.target name = .ok holder) :
    take e ⟨offset, { op := .setClassVar, a, b, c }⟩ s =
      .ok .next ⟨s.frame,
        s.machine.assign (holder.getD s.frame.context.target) name (s.frame.get a)⟩ := by
  have htarget : view (·.context.target) s = .ok s.frame.context.target s := rfl
  have hset : setClassVar a name s =
      .ok () ⟨s.frame,
        s.machine.assign (holder.getD s.frame.context.target) name (s.frame.get a)⟩ := by
    unfold setClassVar
    rw [carryOn_of_ok htarget, carryOn_of_ok (demand_of_ok hholder)]
    rfl
  have hexecute : execute e { op := .setClassVar, a, b, c } s = _ :=
    (carryOn_of_ok (symbol_of_some hname)).trans hset
  exact carryOn_of_ok hexecute

theorem take_getClassVar {holder : Handle}
    (hname : s.frame.record.symbols[b.toNat]? = some name)
    (hholder : s.machine.classVarHolder s.frame.context.target name = .ok (some holder)) :
    take e ⟨offset, { op := .getClassVar, a, b, c }⟩ s =
      .ok .next ⟨s.frame.set a (s.machine.ivar holder name), s.machine⟩ := by
  have htarget : view (·.context.target) s = .ok s.frame.context.target s := rfl
  have hget : getClassVar a name s =
      .ok () ⟨s.frame.set a (s.machine.ivar holder name), s.machine⟩ := by
    unfold getClassVar
    rw [carryOn_of_ok htarget, carryOn_of_ok (demand_of_ok hholder)]
    rfl
  have hexecute : execute e { op := .getClassVar, a, b, c } s = _ :=
    (carryOn_of_ok (symbol_of_some hname)).trans hget
  exact carryOn_of_ok hexecute

theorem take_getClassVar_unset (hname : s.frame.record.symbols[b.toNat]? = some name)
    (hholder : s.machine.classVarHolder s.frame.context.target name = .ok none) :
    take e ⟨offset, { op := .getClassVar, a, b, c }⟩ s =
      .error (.fault (.uninitializedClassVariable name)) s := by
  have htarget : view (·.context.target) s = .ok s.frame.context.target s := rfl
  have hget : getClassVar a name s = .error (.fault (.uninitializedClassVariable name)) s := by
    unfold getClassVar
    rw [carryOn_of_ok htarget, carryOn_of_ok (demand_of_ok hholder)]
    rfl
  have hexecute : execute e { op := .getClassVar, a, b, c } s = _ :=
    (carryOn_of_ok (symbol_of_some hname)).trans hget
  exact carryOn_of_error hexecute

end Step

/-- What the instruction `p`, which reads the class variable `name` in the frame `f`, makes of the
write that led from `m` to `m₁` and gave `holder` the value `value`.  The target class of `f` has the
superclass chain `chain`. -/
structure SeesWrite (e : Engine) (p : Placed) (f : Frame) (name : String) (chain : List Handle)
    (holder value : Handle) (m m₁ : Machine) : Prop where
  kept : m₁.SuperclassChain f.context.target chain
  /-- The write is seen where the nearest holder is the class written. -/
  seen : m₁.nearest? name chain = some holder →
    Step.take e p ⟨f, m₁⟩ = .ok .next ⟨f.set p.instruction.a value, m₁⟩
  /-- Elsewhere there is the same value as before, or still none. -/
  unseen : m₁.nearest? name chain ≠ some holder →
    (∃ old, Step.take e p ⟨f, m⟩ = .ok .next ⟨f.set p.instruction.a old, m⟩ ∧
      Step.take e p ⟨f, m₁⟩ = .ok .next ⟨f.set p.instruction.a old, m₁⟩) ∨
    (Step.take e p ⟨f, m⟩ = .error (.fault (.uninitializedClassVariable name)) ⟨f, m⟩ ∧
      Step.take e p ⟨f, m₁⟩ = .error (.fault (.uninitializedClassVariable name)) ⟨f, m₁⟩)

theorem Machine.Assigns.seesWrite {m m₁ : Machine} {holder value : Handle} {name : String}
    (h : m.Assigns m₁ holder name value) (e : Engine) (offset : Nat) (a b c : UInt16) {f : Frame}
    {chain : List Handle} (hname : f.record.symbols[b.toNat]? = some name)
    (hchain : m.SuperclassChain f.context.target chain)
    (hlength : chain.length ≤ m.limits.maxClassDepth) :
    SeesWrite e ⟨offset, { op := .getClassVar, a, b, c }⟩ f name chain holder value m m₁ := by
  have hchain₁ := h.superclassChain hchain
  have hwalk := hchain.classVarHolder_eq hlength name
  have hwalk₁ := hchain₁.classVarHolder_eq (h.limits ▸ hlength) name
  refine ⟨hchain₁, fun hseen => ?_, fun hunseen => ?_⟩
  · rw [hseen] at hwalk₁
    have htake := Step.take_getClassVar e offset a b c (s := ⟨f, m₁⟩) hname hwalk₁
    rwa [h.ivar_self] at htake
  · rw [h.nearest?_eq hunseen] at hwalk₁ hunseen
    cases hnearest : m.nearest? name chain with
    | none =>
      rw [hnearest] at hwalk hwalk₁
      exact .inr ⟨Step.take_getClassVar_unset e offset a b c (s := ⟨f, m⟩) hname hwalk,
        Step.take_getClassVar_unset e offset a b c (s := ⟨f, m₁⟩) hname hwalk₁⟩
    | some d =>
      rw [hnearest] at hwalk hwalk₁ hunseen
      have hd : d ≠ holder := fun heq => hunseen (congrArg some heq)
      have htake₁ := Step.take_getClassVar e offset a b c (s := ⟨f, m₁⟩) hname hwalk₁
      rw [h.ivar_of_ne hd] at htake₁
      exact .inl ⟨_, Step.take_getClassVar e offset a b c (s := ⟨f, m⟩) hname hwalk, htake₁⟩

/-- **Class variables are shared along the chain.**  In every state that programs go through, if no
superclass chain is longer than the limit, every class and module has one chain.  Setting a class
variable under the target class of `f` succeeds and writes one entry of one object: the nearest class
of the chain that holds the name, or else the target class.  Afterwards reading it, in any frame,
gives the value where the nearest holder is the class written, and comes out as before where it is
not. -/
theorem class_variables_shared (m : Machine) (hm : m.Visited) (hwithin : m.ChainsWithin) (e : Engine)
    (name : String) :
    (∀ d, m.isClass d = true → ∃! chain, m.SuperclassChain d chain) ∧
    ∀ (offset : Nat) (a b c : UInt16) (f : Frame) (chain : List Handle),
      f.record.symbols[b.toNat]? = some name → m.SuperclassChain f.context.target chain →
      ∃ m₁, Step.take e ⟨offset, { op := .setClassVar, a, b, c }⟩ ⟨f, m⟩ = .ok .next ⟨f, m₁⟩ ∧
        m.Assigns m₁ ((m.nearest? name chain).getD f.context.target) name (f.get a) ∧
        ∀ (offset' : Nat) (a' b' c' : UInt16) (g : Frame) (chain' : List Handle),
          g.record.symbols[b'.toNat]? = some name → m.SuperclassChain g.context.target chain' →
          SeesWrite e ⟨offset', { op := .getClassVar, a := a', b := b', c := c' }⟩ g name chain'
            ((m.nearest? name chain).getD f.context.target) (f.get a) m m₁ := by
  have hrooted := (belowClassEmpty_invariant.visited Boot.belowClassEmpty hm).1.rooted
  refine ⟨fun d hd => hrooted.existsUnique_superclassChain hd, ?_⟩
  intro offset a b c f chain hname hchain
  have hwalk := hchain.classVarHolder_eq (hwithin.length_le hrooted hchain) name
  have hvalid : m.Valid ((m.nearest? name chain).getD f.context.target) := by
    cases hnearest : m.nearest? name chain with
    | none => exact Machine.valid_of_isClass (hchain.isClass _ hchain.mem_head)
    | some d => exact Machine.valid_of_isClass (hchain.isClass d (List.mem_of_find?_eq_some hnearest))
  have hassigns := Machine.assigns_assign hvalid name (f.get a)
  refine ⟨_, Step.take_setClassVar e offset a b c (s := ⟨f, m⟩) hname hwalk, hassigns, ?_⟩
  intro offset' a' b' c' g chain' hname' hchain'
  exact hassigns.seesWrite e offset' a' b' c' hname' hchain' (hwithin.length_le hrooted hchain')

/-- A frame in the body of `c`, with a value to set in register 1. -/
def variableFrame (c : Handle) : Frame where
  record := { symbols := ["@@sides"], code := {} }
  registers := #[c, Handle.yes]
  context := .classBody c

/-- After the script no class holds the variable.  Setting it in the body of `Shape`, which has the
handle 18, makes that class the holder: its subclass `Circle` sees the value and `Object` does not. -/
theorem class_variables_shared_afterDescribeScript :
    afterDescribeScript.Visited ∧ afterDescribeScript.ChainsWithin ∧
    afterDescribeScript.SuperclassChain ⟨18⟩ [⟨18⟩, ⟨0⟩] ∧
    afterDescribeScript.SuperclassChain ⟨21⟩ [⟨21⟩, ⟨18⟩, ⟨0⟩] ∧
    ∃ m₁, Step.take (Run.engine 0) ⟨0, { op := .setClassVar, a := 1, b := 0 }⟩
        ⟨variableFrame ⟨18⟩, afterDescribeScript⟩ = .ok .next ⟨variableFrame ⟨18⟩, m₁⟩ ∧
      afterDescribeScript.Assigns m₁ ⟨18⟩ "@@sides" Handle.yes ∧
      Step.take (Run.engine 0) ⟨0, { op := .getClassVar, a := 2, b := 0 }⟩
        ⟨variableFrame ⟨21⟩, m₁⟩ = .ok .next ⟨(variableFrame ⟨21⟩).set 2 Handle.yes, m₁⟩ ∧
      Step.take (Run.engine 0) ⟨0, { op := .getClassVar, a := 2, b := 0 }⟩
        ⟨variableFrame ⟨0⟩, m₁⟩ =
          .error (.fault (.uninitializedClassVariable "@@sides")) ⟨variableFrame ⟨0⟩, m₁⟩ := by
  have hm := visited_afterDescribeScript
  have hrooted := (belowClassEmpty_invariant.visited Boot.belowClassEmpty hm).1.rooted
  obtain ⟨hlimit, hcircle, hshape, hnone, hcircleHolds, hobjectHolds⟩ :
      afterDescribeScript.heap.size ≤ afterDescribeScript.limits.maxClassDepth ∧
      afterDescribeScript.superclassOf? ⟨21⟩ = some ⟨18⟩ ∧
      afterDescribeScript.superclassOf? ⟨18⟩ = some Handle.objectClass ∧
      afterDescribeScript.nearest? "@@sides" [⟨18⟩, ⟨0⟩] = none ∧
      afterDescribeScript.holds "@@sides" ⟨21⟩ = false ∧
      afterDescribeScript.holds "@@sides" ⟨0⟩ = false := by decide +kernel
  have hwithin := Machine.ChainsWithin.of_size_le hrooted hlimit
  have hobjectChain := (Machine.Lineage.root (m := afterDescribeScript)).superclassChain hrooted
  have hshapeChain : afterDescribeScript.SuperclassChain ⟨18⟩ [⟨18⟩, ⟨0⟩] :=
    .step hshape hobjectChain
  have hcircleChain : afterDescribeScript.SuperclassChain ⟨21⟩ [⟨21⟩, ⟨18⟩, ⟨0⟩] :=
    .step hcircle hshapeChain
  obtain ⟨_, hset⟩ := class_variables_shared afterDescribeScript hm hwithin (Run.engine 0) "@@sides"
  obtain ⟨m₁, htake, hassigns, hsees⟩ :=
    hset 0 1 0 0 (variableFrame ⟨18⟩) [⟨18⟩, ⟨0⟩] rfl hshapeChain
  rw [hnone] at hassigns hsees
  refine ⟨hm, hwithin, hshapeChain, hcircleChain, m₁, htake, hassigns, ?_, ?_⟩
  · refine (hsees 0 2 0 0 (variableFrame ⟨21⟩) _ rfl hcircleChain).seen ?_
    have hpassed : m₁.holds "@@sides" ⟨21⟩ = false :=
      (hassigns.holds_of_ne (by decide)).trans hcircleHolds
    have hfound : m₁.holds "@@sides" ⟨18⟩ = true := hassigns.holds_self
    simp [Machine.nearest?, hpassed, hfound, variableFrame, Context.classBody]
  · have hpassed : m₁.holds "@@sides" ⟨0⟩ = false :=
      (hassigns.holds_of_ne (by decide)).trans hobjectHolds
    have hnowhere : m₁.nearest? "@@sides" [⟨0⟩] = none := by simp [Machine.nearest?, hpassed]
    have hwalk : afterDescribeScript.classVarHolder Handle.objectClass "@@sides" = .ok none := by
      rw [hobjectChain.classVarHolder_eq (hwithin.length_le hrooted hobjectChain)]
      simp [Machine.nearest?, hobjectHolds, Handle.objectClass]
    have hbefore := Step.take_getClassVar_unset (Run.engine 0) 0 2 0 0
      (s := ⟨variableFrame ⟨0⟩, afterDescribeScript⟩) rfl hwalk
    rcases (hsees 0 2 0 0 (variableFrame ⟨0⟩) [⟨0⟩] rfl hobjectChain).unseen (by simp [hnowhere]) with
      ⟨old, hold, _⟩ | ⟨_, hunset⟩
    · cases hbefore.symm.trans hold
    · exact hunset

end Rite
