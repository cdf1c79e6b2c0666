import Mathlib.Tactic.IntervalCases
import Rite.Proofs.Resolution

/-!
# Where walks up a superclass chain stop

Three questions are answered by walking up a superclass chain: which class has a method, which class
holds a class variable, and what the instances of a class start out with.  Each walk has a test of its
own, and each may take `limit` hops.

Where they stop depends on the test and the chain alone (`Boundary`).  Let the classes be counted from
0.  A class that passes the test is found if its number is at most the limit, but the end of the chain
is found only if the chain is no longer than the limit, for the last class has to be left too.  So in
a chain of `limit + 1` classes a method of the last class is found, and that there is no method at all
is not.

This holds in every machine, whether a program leads to it or not.
-/

namespace Rite

variable {α β : Type}

namespace Machine

variable {m : Machine} {c d : Handle} {chain : List Handle}

/-- The superclass chain of `c`: classes, each followed by its superclass, of which the last has
none. -/
inductive SuperclassChain (m : Machine) : Handle → List Handle → Prop
  | last {c : Handle} (hc : m.isClass c = true) (hend : m.superclassOf? c = none) :
      SuperclassChain m c [c]
  | step {c s : Handle} {chain : List Handle} (hs : m.HasParent c s)
      (h : SuperclassChain m s chain) : SuperclassChain m c (c :: chain)

namespace SuperclassChain

theorem isClass (h : m.SuperclassChain c chain) : ∀ d ∈ chain, m.isClass d = true := by
  induction h with
  | last hc _ =>
    intro d hd
    rw [List.mem_singleton.mp hd]
    exact hc
  | step hs _ ih =>
    intro d hd
    rcases List.mem_cons.mp hd with rfl | hd
    · exact hs.isClass
    · exact ih d hd

theorem ne_nil (h : m.SuperclassChain c chain) : chain ≠ [] := by
  cases h <;> exact List.cons_ne_nil _ _

/-- The last class of the chain has no superclass. -/
theorem superclassOf?_last (h : m.SuperclassChain c chain)
    (hd : chain[chain.length - 1]? = some d) : m.superclassOf? d = none := by
  induction h with
  | last _ hend =>
    cases hd
    exact hend
  | @step c s chain hs hchain ih =>
    have hpos := List.length_pos_iff.mpr hchain.ne_nil
    refine ih ?_
    rwa [List.length_cons, Nat.add_sub_cancel, show chain.length = chain.length - 1 + 1 by omega,
      List.getElem?_cons_succ] at hd

/-- A walk goes past the classes that do not decide, with a hop for each of them. -/
theorem ascend_skip (h : m.SuperclassChain c chain) {visit : Handle → Except Fault (Option α)}
    (tooDeep : Handle → Fault) {k hops : Nat} (hd : chain[k]? = some d)
    (hbefore : ∀ b ∈ chain.take k, visit b = .ok none) (hk : k ≤ hops) :
    m.ascend visit tooDeep hops (some c) = m.ascend visit tooDeep (hops - k) (some d) := by
  induction h generalizing k hops with
  | last _ _ =>
    obtain rfl : k = 0 := by
      by_contra hne
      rw [List.getElem?_eq_none (by simp; omega)] at hd
      cases hd
    cases hd
    rfl
  | @step c s chain hs _ ih =>
    cases k with
    | zero =>
      cases hd
      rfl
    | succ k =>
      obtain ⟨hops, rfl⟩ : ∃ n, hops = n + 1 := ⟨hops - 1, by omega⟩
      rw [List.take_succ_cons] at hbefore
      have hrest : m.ascend visit tooDeep hops (some s) =
          m.ascend visit tooDeep (hops - k) (some d) :=
        ih (by simpa using hd) (fun b hb => hbefore b (List.mem_cons_of_mem _ hb)) (by omega)
      rw [Nat.add_sub_add_right, ← hrest]
      conv => lhs; unfold ascend
      rw [hbefore c List.mem_cons_self]
      show m.ascend visit tooDeep hops (m.superclassOf? c) = _
      rw [show m.superclassOf? c = some s from hs]

/-- A class that decides ends the walk, if it can be reached. -/
theorem ascend_found (h : m.SuperclassChain c chain) {visit : Handle → Except Fault (Option α)}
    (tooDeep : Handle → Fault) {k hops : Nat} (hd : chain[k]? = some d)
    (hbefore : ∀ b ∈ chain.take k, visit b = .ok none) (hdecides : visit d ≠ .ok none)
    (hk : k ≤ hops) : m.ascend visit tooDeep hops (some c) = visit d := by
  rw [h.ascend_skip tooDeep hd hbefore hk]
  unfold ascend
  cases hvisit : visit d with
  | error e => rfl
  | ok decision =>
    cases decision with
    | some x => rfl
    | none => exact absurd hvisit hdecides

/-- The end of the chain is reached by one hop from each of its classes. -/
theorem ascend_end (h : m.SuperclassChain c chain) {visit : Handle → Except Fault (Option α)}
    (tooDeep : Handle → Fault) {hops : Nat} (hall : ∀ b ∈ chain, visit b = .ok none)
    (hlength : chain.length ≤ hops) : m.ascend visit tooDeep hops (some c) = .ok none := by
  have hpos := List.length_pos_iff.mpr h.ne_nil
  have hlast : chain[chain.length - 1]? = some chain[chain.length - 1] :=
    List.getElem?_eq_getElem (by omega)
  rw [h.ascend_skip tooDeep hlast (fun b hb => hall b (List.mem_of_mem_take hb)) (by omega),
    show hops - (chain.length - 1) = hops - chain.length + 1 by omega]
  unfold ascend
  rw [hall _ (List.getElem_mem _)]
  show m.ascend visit tooDeep (hops - chain.length) (m.superclassOf? _) = _
  rw [h.superclassOf?_last hlast, ascend_none]

/-- The class that the last permitted hop leads to cannot be left. -/
theorem ascend_cut (h : m.SuperclassChain c chain) {visit : Handle → Except Fault (Option α)}
    (tooDeep : Handle → Fault) {hops : Nat} (hd : chain[hops]? = some d)
    (hbefore : ∀ b ∈ chain.take (hops + 1), visit b = .ok none) :
    m.ascend visit tooDeep hops (some c) = .error (tooDeep d) := by
  have htake := List.take_add_one (l := chain) (i := hops)
  rw [hd] at htake
  rw [h.ascend_skip tooDeep hd (fun b hb => hbefore b (by simp [htake, hb])) (Nat.le_refl _),
    Nat.sub_self]
  unfold ascend
  rw [hbefore d (by simp [htake])]

end SuperclassChain

end Machine

/-! ## The boundary -/

/-- How a walk along `chain` ends that may take `limit` hops and looks for a class that passes `test`.
`decided` is what a class says that passes, `undecided` what it means that none does, and `blamed` is
the name that the fault carries, given the class at which the walk was cut short. -/
structure Boundary (limit : Nat) (chain : List Handle) (test : Handle → Bool)
    (decided : Handle → Except Fault β) (undecided : Except Fault β) (blamed : Handle → String)
    (outcome : Except Fault β) : Prop where
  /-- The first class that passes decides if and only if its number is at most the limit. -/
  decides : ∀ k d, chain.findIdx? test = some k → chain[k]? = some d →
    (outcome = decided d ↔ k ≤ limit)
  /-- If none passes, the end is reported if and only if the chain is no longer than the limit. -/
  exhausts : chain.findIdx? test = none → (outcome = undecided ↔ chain.length ≤ limit)
  /-- In all other cases the chain is too deep. -/
  cuts : (∀ k, chain.findIdx? test = some k → limit < k) →
    (chain.findIdx? test = none → limit < chain.length) →
    ∃ d, chain[limit]? = some d ∧ outcome = .error (.classChainTooDeep (blamed d))

/-- A walk does what `visit` says at the classes that pass the test and goes on at the others.
`finish` is what is made of its result. -/
structure Walks (visit : Handle → Except Fault (Option α))
    (finish : Except Fault (Option α) → Except Fault β) (test : Handle → Bool)
    (decided : Handle → Except Fault β) (d : Handle) : Prop where
  passes : test d = true → visit d ≠ .ok none ∧ finish (visit d) = decided d
  skips : test d = false → visit d = .ok none
  /-- No decision is that the chain is too deep. -/
  plain : test d = true → ∀ name, decided d ≠ .error (.classChainTooDeep name)

namespace Machine.SuperclassChain

variable {m : Machine} {c : Handle} {chain : List Handle} {limit : Nat}
  {visit : Handle → Except Fault (Option α)} {test : Handle → Bool}
  {decided : Handle → Except Fault β} {undecided : Except Fault β}

/-- **The boundary of a walk.** -/
theorem boundary (h : m.SuperclassChain c chain) (blamed : Handle → String)
    (finish : Except Fault (Option α) → Except Fault β)
    (hwalks : ∀ d ∈ chain, Walks visit finish test decided d)
    (hnone : finish (.ok none) = undecided)
    (hplain : ∀ name, undecided ≠ .error (.classChainTooDeep name))
    (hfault : ∀ fault, finish (.error fault) = .error fault) :
    Boundary limit chain test decided undecided blamed
      (finish (m.ascend visit (fun d => .classChainTooDeep (blamed d)) limit (some c))) := by
  have hskip : ∀ b ∈ chain, test b = false → visit b = .ok none := fun b hb => (hwalks b hb).skips
  have hcut : (∀ b ∈ chain.take (limit + 1), test b = false) → limit < chain.length →
      ∃ d, chain[limit]? = some d ∧
        finish (m.ascend visit (fun d => .classChainTooDeep (blamed d)) limit (some c)) =
          .error (.classChainTooDeep (blamed d)) := by
    intro hfails hlimit
    refine ⟨_, List.getElem?_eq_getElem hlimit, ?_⟩
    rw [h.ascend_cut _ (List.getElem?_eq_getElem hlimit) fun b hb =>
      hskip b (List.mem_of_mem_take hb) (hfails b hb), hfault]
  cases hk : chain.findIdx? test with
  | none =>
    have hfails : ∀ b ∈ chain, test b = false := by simpa using hk
    refine ⟨fun k d hk' => ?_, fun _ => ⟨fun heq => ?_, fun hle => ?_⟩, fun _ hend => ?_⟩
    · cases hk.symm.trans hk'
    · by_contra hlt
      obtain ⟨b, _, hb⟩ := hcut (fun b hb => hfails b (List.mem_of_mem_take hb)) (by omega)
      exact hplain _ (heq.symm.trans hb)
    · rw [h.ascend_end _ (fun b hb => hskip b hb (hfails b hb)) hle, hnone]
    · exact hcut (fun b hb => hfails b (List.mem_of_mem_take hb)) (hend hk)
  | some k =>
    obtain ⟨hlength, htest, hbefore⟩ := List.findIdx?_eq_some_iff_getElem.mp hk
    have hwalk := hwalks _ (List.getElem_mem hlength)
    have hfails : ∀ n ≤ k, ∀ b ∈ chain.take n, test b = false := by
      intro n hn b hb
      obtain ⟨i, hi, rfl⟩ := List.mem_take_iff_getElem.mp hb
      simpa using hbefore i (by omega)
    refine ⟨fun k' d hk' hd => ?_, fun hk' => ?_, fun hsome _ => ?_⟩
    · cases hk.symm.trans hk'
      rw [List.getElem?_eq_getElem hlength] at hd
      cases hd
      refine ⟨fun heq => ?_, fun hle => ?_⟩
      · by_contra hlt
        obtain ⟨b, _, hb⟩ := hcut (hfails (limit + 1) (by omega)) (by omega)
        exact hwalk.plain htest _ (heq.symm.trans hb)
      · obtain ⟨hdecides, hfinish⟩ := hwalk.passes htest
        rw [h.ascend_found _ (List.getElem?_eq_getElem hlength) (fun b hb =>
          hskip b (List.mem_of_mem_take hb) (hfails k (Nat.le_refl k) b hb)) hdecides hle, hfinish]
    · cases hk.symm.trans hk'
    · have hlt := hsome k hk
      exact hcut (hfails (limit + 1) (by omega)) (by omega)

end Machine.SuperclassChain

/-! ## The three walks -/

namespace Machine

/-- The builtin classes that decide what their instances, and those of the classes below, start out
with: all but `Object`. -/
def decidesPayload (c : Handle) : Bool := 0 < c.index && c.index < 13

/-- What a builtin class decides for the instances of `instantiated`.  Most of them make none. -/
def decidedPayload (m : Machine) (instantiated c : Handle) : Except Fault Payload :=
  if c = Handle.stringClass then .ok (.string "")
  else if c = Handle.arrayClass then .ok (.array #[])
  else if c = Handle.hashClass then .ok (.hash [])
  else .error (m.missing "new" instantiated)

theorem builtinPayload_of_decidesPayload {m : Machine} {instantiated c : Handle}
    (hc : decidesPayload c = true) :
    m.builtinPayload instantiated c = (m.decidedPayload instantiated c).map some := by
  obtain ⟨index⟩ := c
  obtain ⟨hpos, hlt⟩ : 0 < index ∧ index < 13 := by simpa [decidesPayload] using hc
  interval_cases index <;> rfl

theorem builtinPayload_of_not_decidesPayload {m : Machine} {instantiated c : Handle}
    (hc : decidesPayload c = false) : m.builtinPayload instantiated c = .ok none := by
  have hne : ∀ d : Handle, decidesPayload d = true → c ≠ d := by
    rintro d hd rfl
    rw [hc] at hd
    cases hd
  have hfree : uninstantiable.contains c = false := by
    rw [Bool.eq_false_iff]
    intro hmem
    have hall : ∀ d ∈ uninstantiable, decidesPayload d = true := by decide
    exact hne c (hall c (List.contains_iff_mem.mp hmem)) rfl
  unfold builtinPayload
  rw [if_neg (hne _ (by decide)), if_neg (hne _ (by decide)), if_neg (hne _ (by decide)), hfree]
  rfl

/-- What looking for the payload makes of where the walk ends. -/
def payloadFrom : Except Fault (Option Payload) → Except Fault Payload
  | .ok (some payload) => .ok payload
  | .ok none => .ok .plain
  | .error fault => .error fault

theorem walks_ownMethod {m : Machine} {d : Handle} (hd : m.isClass d = true) (name : String) :
    Walks (m.ownMethod name) id (fun d => Action.ownsMethod d name m)
      (fun d => .ok (m.entry? name d)) d := by
  refine ⟨fun htest => ?_, fun htest => ?_, fun _ _ => by simp⟩
  · rw [ownMethod_eq hd]
    rw [ownsMethod_eq] at htest
    refine ⟨fun hnone => ?_, rfl⟩
    rw [Except.ok.inj hnone] at htest
    cases htest
  · rw [ownMethod_eq hd]
    rw [ownsMethod_eq, Option.isSome_eq_false_iff, Option.isNone_iff_eq_none] at htest
    rw [htest]

theorem walks_builtinPayload (m : Machine) (c d : Handle) :
    Walks (m.builtinPayload c) payloadFrom decidesPayload (m.decidedPayload c) d := by
  refine ⟨fun htest => ?_, builtinPayload_of_not_decidesPayload, fun _ name => ?_⟩
  · rw [builtinPayload_of_decidesPayload htest]
    cases m.decidedPayload c d with
    | ok payload => exact ⟨by simp [Except.map], rfl⟩
    | error fault => exact ⟨by simp [Except.map], rfl⟩
  · unfold decidedPayload
    split_ifs <;> simp [missing]

end Machine

/-- **The three walks stop at the same boundary.**  In every machine, let `chain` be the superclass
chain of the class `c`.  Looking up a method, a class variable or the payload of new instances decides
at the first class that passes its test if and only if its number in the chain is at most the class
limit, and reports that there is none if and only if no class passes and the chain is no longer than
the limit.  Otherwise the chain is too deep; the look-up of a method then names the class it cannot
leave, and the other two name `c`. -/
theorem class_walks_bounded (m : Machine) (c : Handle) (chain : List Handle)
    (h : m.SuperclassChain c chain) (name : String) :
    Boundary m.limits.maxClassDepth chain (fun d => Action.ownsMethod d name m)
      (fun d => .ok (m.entry? name d)) (.ok none) m.className (m.lookupFrom (some c) name) ∧
    Boundary m.limits.maxClassDepth chain (fun d => (m.object d).ivars.has name)
      (fun d => .ok (some d)) (.ok none) (fun _ => m.className c) (m.classVarHolder c name) ∧
    Boundary m.limits.maxClassDepth chain Machine.decidesPayload
      (m.decidedPayload c) (.ok .plain) (fun _ => m.className c) (m.freshPayload c) := by
  refine ⟨?_, ?_, ?_⟩
  · exact h.boundary m.className id (fun d hd => Machine.walks_ownMethod (h.isClass d hd) name) rfl
      (fun _ => by simp) fun _ => rfl
  · refine h.boundary (fun _ => m.className c) id (fun d _ => ⟨fun htest => ?_, fun htest => ?_,
      fun _ _ => by simp⟩) rfl (fun _ => by simp) fun _ => rfl
    · simp only [htest, if_true]
      exact ⟨by simp, rfl⟩
    · simp [htest]
  · exact h.boundary (fun _ => m.className c) Machine.payloadFrom
      (fun d _ => m.walks_builtinPayload c d) rfl (fun _ => by simp) fun _ => rfl

/-- The class `Circle` of the script, with two hops allowed.  Its chain has three classes: `Circle`,
`Shape` and `Object`. -/
theorem class_walks_bounded_describeScript :
    (afterDescribeScript.withClassLimit 2).SuperclassChain ⟨21⟩ [⟨21⟩, ⟨18⟩, ⟨0⟩] ∧
    (afterDescribeScript.withClassLimit 2).lookupFrom (some ⟨21⟩) "puts" =
      .ok (Machine.entry? (afterDescribeScript.withClassLimit 2) "puts" ⟨0⟩) ∧
    (afterDescribeScript.withClassLimit 2).lookupFrom (some ⟨21⟩) "absent" =
      .error (.classChainTooDeep "Object") ∧
    (afterDescribeScript.withClassLimit 2).classVarHolder ⟨21⟩ "absent" =
      .error (.classChainTooDeep "Circle") ∧
    (afterDescribeScript.withClassLimit 2).freshPayload ⟨21⟩ =
      .error (.classChainTooDeep "Circle") := by
  generalize hm : afterDescribeScript.withClassLimit 2 = m
  obtain ⟨hcircle, hshape, hobject, hroot, hlimit, hputs, habsent, hivars, hobjectName,
      hcircleName⟩ :
      m.superclassOf? ⟨21⟩ = some ⟨18⟩ ∧ m.superclassOf? ⟨18⟩ = some ⟨0⟩ ∧
      m.superclassOf? ⟨0⟩ = none ∧ m.isClass ⟨0⟩ = true ∧ m.limits.maxClassDepth = 2 ∧
      [⟨21⟩, ⟨18⟩, ⟨0⟩].findIdx? (fun d => Action.ownsMethod d "puts" m) = some 2 ∧
      [⟨21⟩, ⟨18⟩, ⟨0⟩].findIdx? (fun d => Action.ownsMethod d "absent" m) = none ∧
      [⟨21⟩, ⟨18⟩, ⟨0⟩].findIdx? (fun d => (m.object d).ivars.has "absent") = none ∧
      m.className ⟨0⟩ = "Object" ∧ m.className ⟨21⟩ = "Circle" := by
    rw [← hm]
    decide +kernel
  have hchain : m.SuperclassChain ⟨21⟩ [⟨21⟩, ⟨18⟩, ⟨0⟩] :=
    .step hcircle (.step hshape (.last hroot hobject))
  obtain ⟨hfound, _, _⟩ := class_walks_bounded m ⟨21⟩ _ hchain "puts"
  obtain ⟨hmethod, hclassVar, hpayload⟩ := class_walks_bounded m ⟨21⟩ _ hchain "absent"
  rw [hlimit] at hfound hmethod hclassVar hpayload
  refine ⟨hchain, (hfound.decides 2 ⟨0⟩ hputs rfl).mpr (Nat.le_refl _), ?_, ?_, ?_⟩
  · obtain ⟨d, hd, hdeep⟩ := hmethod.cuts (fun k hk => by rw [habsent] at hk; cases hk)
      (fun _ => by decide)
    cases hd
    rw [hdeep, hobjectName]
  · obtain ⟨_, _, hdeep⟩ := hclassVar.cuts (fun k hk => by rw [hivars] at hk; cases hk)
      (fun _ => by decide)
    rw [hdeep, hcircleName]
  · obtain ⟨_, _, hdeep⟩ := hpayload.cuts (fun k hk => by cases hk) (fun _ => by decide)
    rw [hdeep, hcircleName]

end Rite
