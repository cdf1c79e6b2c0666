import Rite.Machine.Descent

/-!
# Walks under a higher class limit

The class limit bounds how many hops a walk up a superclass chain may take.  A walk that ends within
the limit ends at the same class under every higher one; what a higher limit can change is only a
walk that was cut short, and such a walk is at fault.  So the answer to a look-up either stays the
same or was that the chain is too deep (`Enduring`).

Asking *whether* there is a method is different.  `Machine.respondsTo` takes a walk that was cut short
for a no, and the most that can be said is that a yes stays a yes.
-/

namespace Rite

variable {α : Type}

/-- The machine with another class limit. -/
def Machine.withClassLimit (m : Machine) (n : Nat) : Machine :=
  { m with limits := { m.limits with maxClassDepth := n } }

/-- A question that a higher class limit answers in the same way, unless the answer was that a chain
is too deep. -/
def Enduring (q : Machine → Except Fault α) : Prop :=
  ∀ (m : Machine) (n : Nat), m.limits.maxClassDepth ≤ n →
    q (m.withClassLimit n) = q m ∨ ∃ name, q m = .error (.classChainTooDeep name)

/-- A question that does not look at the limit. -/
theorem Enduring.of_eq {q : Machine → Except Fault α}
    (h : ∀ (m : Machine) (n : Nat), q (m.withClassLimit n) = q m) : Enduring q :=
  fun m n _ => .inl (h m n)

namespace Machine

/-- More hops lead to the same end, unless the walk was cut short. -/
theorem ascend_of_le (m : Machine) (n : Nat) (visit : Handle → Except Fault (Option α))
    (tooDeep : Handle → Fault) {hops hops' : Nat} (hhops : hops ≤ hops') (start : Option Handle) :
    (m.withClassLimit n).ascend visit tooDeep hops' start = m.ascend visit tooDeep hops start ∨
      ∃ c, m.ascend visit tooDeep hops start = .error (tooDeep c) := by
  induction hops generalizing hops' start with
  | zero =>
    cases start with
    | none => exact .inl (by simp only [ascend])
    | some c =>
      unfold ascend
      cases visit c with
      | error e => exact .inl rfl
      | ok decided =>
        cases decided with
        | some x => exact .inl rfl
        | none => exact .inr ⟨c, rfl⟩
  | succ hops ih =>
    obtain ⟨hops', rfl⟩ : ∃ k, hops' = k + 1 := ⟨hops' - 1, by omega⟩
    cases start with
    | none => exact .inl (by simp only [ascend])
    | some c =>
      unfold ascend
      cases visit c with
      | error e => exact .inl rfl
      | ok decided =>
        cases decided with
        | some x => exact .inl rfl
        | none => exact ih (Nat.le_of_succ_le_succ hhops) (m.superclassOf? c)

theorem enduring_lookupFrom (start : Machine → Option Handle) (name : String)
    (hstart : ∀ (m : Machine) (n : Nat), start (m.withClassLimit n) = start m) :
    Enduring fun m => m.lookupFrom (start m) name := by
  intro m n hn
  show (m.withClassLimit n).lookupFrom (start (m.withClassLimit n)) name = _ ∨ _
  rw [hstart]
  obtain hsame | ⟨c, hc⟩ := m.ascend_of_le n (m.ownMethod name)
    (fun c => .classChainTooDeep (m.className c)) hn (start m)
  · exact .inl hsame
  · exact .inr ⟨_, hc⟩

/-- What is made of a look-up keeps its endurance. -/
theorem enduring_orMissing {look : Machine → Except Fault (Option Found)} (h : Enduring look)
    (receiver : Handle) (name : String) : Enduring fun m => m.orMissing receiver name (look m) := by
  intro m n hn
  obtain hsame | ⟨c, hc⟩ := h m n hn
  · refine .inl ?_
    show (m.withClassLimit n).orMissing receiver name (look (m.withClassLimit n)) = _
    rw [hsame]
    rfl
  · refine .inr ⟨c, ?_⟩
    simp only [hc, orMissing]

theorem enduring_lookupMethod (h : Handle) (name : String) :
    Enduring fun m => m.lookupMethod h name := by
  intro m n hn
  have hwalk := enduring_orMissing (enduring_lookupFrom (fun m => some (m.classOf h)) name
    fun _ _ => rfl) h name m n hn
  have hown : (m.withClassLimit n).singletonMethod? h name = m.singletonMethod? h name := rfl
  simp only [lookupMethod, hown]
  cases m.singletonMethod? h name with
  | some found => exact .inl rfl
  | none => exact hwalk

theorem enduring_lookupAbove (h owner : Handle) (name : String) :
    Enduring fun m => m.lookupAbove h owner name :=
  enduring_orMissing (enduring_lookupFrom _ name fun _ _ => rfl) h name

theorem enduring_classVarHolder (start : Handle) (name : String) :
    Enduring fun m => m.classVarHolder start name := by
  intro m n hn
  obtain hsame | ⟨c, hc⟩ := m.ascend_of_le n
    (fun c => .ok (if (m.object c).ivars.has name then some c else none))
    (fun _ => .classChainTooDeep (m.className start)) hn (some start)
  · exact .inl hsame
  · exact .inr ⟨_, hc⟩

theorem enduring_freshPayload (c : Handle) : Enduring fun m => m.freshPayload c := by
  intro m n hn
  obtain hsame | ⟨_, hdeep⟩ := m.ascend_of_le n (m.builtinPayload c)
    (fun _ => .classChainTooDeep (m.className c)) hn (some c)
  · refine .inl ?_
    have hwalk : (m.withClassLimit n).ascend ((m.withClassLimit n).builtinPayload c)
        (fun _ => .classChainTooDeep ((m.withClassLimit n).className c))
        (m.withClassLimit n).limits.maxClassDepth (some c) = _ := hsame
    simp only [freshPayload, hwalk]
  · refine .inr ⟨m.className c, ?_⟩
    simp only [freshPayload, hdeep]

/-- A method that is found under a class limit is found under every higher one. -/
theorem respondsTo_withClassLimit {m : Machine} {n : Nat} (hn : m.limits.maxClassDepth ≤ n)
    {h : Handle} {name : String} (hyes : m.respondsTo h name = true) :
    (m.withClassLimit n).respondsTo h name = true := by
  unfold respondsTo at *
  obtain hsame | ⟨c, hc⟩ := enduring_lookupMethod h name m n hn
  · have hlookup : (m.withClassLimit n).lookupMethod h name = m.lookupMethod h name := hsame
    rw [hlookup]
    exact hyes
  · have hlookup : m.lookupMethod h name = .error (.classChainTooDeep c) := hc
    rw [hlookup] at hyes
    cases hyes

/-- An answer that is the same under the class limit `n` is the same under every limit in between. -/
theorem respondsTo_between {m : Machine} {k n : Nat} (hk : m.limits.maxClassDepth ≤ k) (hn : k ≤ n)
    {h : Handle} {name : String}
    (hsame : (m.withClassLimit n).respondsTo h name = m.respondsTo h name) :
    (m.withClassLimit k).respondsTo h name = m.respondsTo h name := by
  cases hlow : m.respondsTo h name with
  | true => exact respondsTo_withClassLimit hk hlow
  | false =>
    rw [hlow] at hsame
    rw [Bool.eq_false_iff]
    intro hyes
    have hhigh : (m.withClassLimit n).respondsTo h name = true :=
      respondsTo_withClassLimit (m := m.withClassLimit k) hn hyes
    rw [hsame] at hhigh
    cases hhigh

end Machine

end Rite
