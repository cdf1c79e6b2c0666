import Rite.Proofs.Growth
import Rite.Proofs.Visited

/-!
# What an effect makes of the heap

There are not many ways for an effect to leave the heap: as it was, with one more object, with one
object changed in one of a few ways, and, for a new singleton class, with one more object and an old
one that is told of it.  `HeapStep` lists them, each with what is known when it happens, and
`Effect.heapStep` is the one place where the effects are gone through.  An invariant of the heap is
then checked for the steps (`Invariant.of_heapStep`).
-/

namespace Rite

variable {α : Type}

/-- The class `c` makes instances that start out with `payload`. -/
structure Machine.Makes (m : Machine) (c : Handle) (payload : Payload) : Prop where
  isProperClass : m.isProperClass c = true
  freshPayload : m.freshPayload c = .ok payload

/-- The heaps that one effect with the permissions `π` can make of the heap of `m`. -/
inductive HeapStep (π : Permit) (m : Machine) : Heap → Prop
  | same : HeapStep π m m.heap
  /-- A new object of a builtin class, or an instance that was asked for. -/
  | newObject {c : Handle} {payload : Payload}
      (hc : payload.builtinClass? = some c ∨ m.Makes c payload)
      (hfresh : payload.Fresh) (hmethod : ∀ method, payload = .method method → π.installBody) :
      HeapStep π m (m.heap.push { isa := c, payload })
  | newClass (name : String) (parent : Handle) : HeapStep π m (m.heap.push (.newClass name parent))
  | newModule (name : String) : HeapStep π m (m.heap.push (.newModule name))
  /-- A new singleton class for `h`. -/
  | adopt (h : Handle) (name : String) :
      HeapStep π m ((m.heap.push (.newClass name Handle.classClass)).modify h fun o =>
        { o with singleton := some m.heap.next })
  | define (c : Handle) (name : String) (method : Method)
      (hmethod : π.installBody ∨ method.IsAccessor) :
      HeapStep π m (m.heap.modify c (·.mapMethods (·.insert name method)))
  | undefine (c : Handle) (name : String) :
      HeapStep π m (m.heap.modify c (·.mapMethods (·.erase name)))
  | setIvar (h : Handle) (name : String) (value : Handle) :
      HeapStep π m (m.heap.modify h (·.setIvar name value))
  | changeItems (h : Handle) (f : Array Handle → Array Handle) :
      HeapStep π m (m.heap.modify h (·.mapItems f))
  | appendText (h : Handle) (text : String) (htext : π.appendText) :
      HeapStep π m (m.heap.modify h (·.mapText (· ++ text)))
  | hashSet (h key value : Handle) : HeapStep π m (m.heap.hashSet h key value)

/-- What a class gives its instances to start with is fresh. -/
theorem Machine.Makes.fresh {m : Machine} {c : Handle} {payload : Payload}
    (h : m.Makes c payload) : payload.Fresh := by
  obtain ⟨hempty, hplain, _⟩ := Machine.freshPayload_plain h.freshPayload
  cases payload with
  | ofClass info => exact absurd rfl (hplain info)
  | hash pairs =>
    show pairs = []
    simpa [Payload.handles] using hempty
  | _ => exact trivial

/-- **An effect makes one step of the heap**, however it ends. -/
theorem Effect.heapStep {π : Permit} {K : Pairing} {a a' : Action α} {V : Pairing → α → α → Prop}
    (h : Effect Eq π K a a' V) (m : Machine) : HeapStep π m (a.leaves m).heap := by
  suffices hlater : Later (fun m m₁ => HeapStep π m m₁.heap) m Eq (a m) from hlater.leaves
  cases h with
  | allocate hc hfresh _ hmethod => exact .ok (.newObject (.inl hc) hfresh hmethod) rfl
  | @instantiate _ c _ _ =>
    unfold Classes.instantiate
    rw [Action.ask_bind]
    split
    · next hc =>
      cases hp : m.freshPayload c with
      | error f =>
        rw [Action.demand_bind_of_error hp]
        exact .error .same
      | ok payload =>
        rw [Action.demand_bind_of_ok hp]
        have hmakes : m.Makes c payload := ⟨hc, hp⟩
        have hmethod := (Machine.freshPayload_plain hp).2.2
        exact .ok (.newObject (.inr hmakes) hmakes.fresh fun _ h => absurd h (hmethod _)) rfl
    · exact .error .same
  | @singletonClassOf _ h _ _ =>
    unfold Action.singletonClassOf
    rw [Action.ask_bind]
    cases (m.object h).singleton with
    | some s => exact .ok .same rfl
    | none => exact .ok (.adopt h (Action.singletonName h m)) rfl
  | openClass name _ =>
    unfold Action.openClass
    rw [Action.ask_bind]
    cases m.constant? name with
    | some c =>
      dsimp only
      rw [Action.ask_bind]
      cases m.classInfo? c with
      | none => exact .error .same
      | some info =>
        dsimp only
        split
        · exact .error .same
        · split
          · exact .error .same
          · exact .ok .same rfl
    | none =>
      dsimp only
      rw [Action.ask_bind]
      split
      · exact .ok (.newClass name _) rfl
      · exact .error .same
  | openModule name =>
    unfold Action.openModule
    rw [Action.ask_bind]
    cases m.constant? name with
    | some c =>
      dsimp only
      rw [Action.ask_bind]
      cases m.classInfo? c with
      | none => exact .error .same
      | some info =>
        dsimp only
        split
        · exact .ok .same rfl
        · exact .error .same
    | none => exact .ok (.newModule name) rfl
  | defineMethod _ name _ hmethod =>
    unfold Action.defineMethod
    rw [Action.ask_bind]
    split
    · exact .ok (.define _ name _ hmethod) rfl
    · exact .error .same
  | undefMethod _ name =>
    unfold Action.undefMethod
    rw [Action.ask_bind]
    split
    · exact .ok (.undefine _ name) rfl
    · exact .error .same
  | setIvar _ name _ => exact .ok (.setIvar _ name _) rfl
  | setGlobal | setConstant => exact .ok .same rfl
  | appendItems _ _ => exact .ok (.changeItems _ _) rfl
  | putItem _ place _ => exact .ok (.changeItems _ _) rfl
  | appendText _ text htext => exact .ok (.appendText _ text htext) rfl
  | hashSet _ _ _ => exact .ok (.hashSet _ _ _) rfl
  | writeOut text =>
    unfold Action.writeOut
    cases m.out.fits text
    · exact .error .same
    · exact .ok .same rfl
  | writeErr text =>
    unfold Action.writeErr
    cases m.err.fits text
    · exact .error .same
    · exact .ok .same rfl

/-- A new object is of the builtin class that goes with its payload, or it is an instance that was
asked for. -/
theorem HeapStep.new_object {π : Permit} {m : Machine} {heap : Heap} (hstep : HeapStep π m heap)
    {h : Handle} (hh : h.index < heap.size) (hnew : ¬ m.Valid h) :
    (heap.get h).payload.builtinClass? = some (heap.get h).isa ∨
      m.Makes (heap.get h).isa (heap.get h).payload := by
  have hpushed : ∀ o : Object, h.index < (m.heap.push o).size → (m.heap.push o).get h = o := by
    intro o hlt
    rw [Heap.size_push] at hlt
    unfold Machine.Valid at hnew
    rw [Heap.get_push, if_pos (by omega)]
  cases hstep with
  | newObject hc _ =>
    rw [hpushed _ hh]
    exact hc
  | newClass name parent =>
    rw [hpushed _ hh]
    exact .inl rfl
  | newModule name =>
    rw [hpushed _ hh]
    exact .inl rfl
  | adopt x name =>
    rw [Heap.size_modify] at hh
    -- Telling an object of its singleton class leaves its class and its payload alone.
    rw [Heap.get_modify]
    split
    · next heq =>
      rw [← heq.1, hpushed _ hh]
      exact .inl rfl
    · rw [hpushed _ hh]
      exact .inl rfl
  | same => exact absurd hh hnew
  | hashSet x key value =>
    unfold Heap.hashSet at hh
    split at hh
    · rw [Heap.size_modify] at hh
      exact absurd hh hnew
    · exact absurd hh hnew
  | define | undefine | setIvar | changeItems | appendText =>
    rw [Heap.size_modify] at hh
    exact absurd hh hnew

/-- A fact about machines that depends on the heap alone is an invariant if all steps keep it. -/
theorem Invariant.of_heapStep {π : Permit} {I : Heap → Prop}
    (hstep : ∀ {m : Machine} {heap : Heap}, m.WellFormed → I m.heap → HeapStep π m heap → I heap) :
    Invariant π fun m => I m.heap where
  heap m m' hheap h := by
    rw [hheap]
    exact h
  effect hm _ hI heffect := hstep hm hI (heffect.heapStep _)

end Rite
