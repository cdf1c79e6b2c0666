import Rite.Proofs.Alike

/-!
# What effects are made of

On equal data an effect of a program is one and the same action on both sides, and it is made of very
little: questions about objects and names, new objects, six kinds of change to one object, pairs put
into hashes, bindings and output.  `Action.Made` describes these actions and `Effect.eq_and_made` is
the only place where the effects are taken apart.  What all effects have in common is an induction on
`Action.Made`.

Two things are absent from the list.  No effect touches the call depth or the inspections in
progress, and no question that an effect asks looks at the sinks or at the call limit, which
`Machine.equipped` replaces.  A higher class limit answers each of these questions in the same way,
unless a chain was too deep.
-/

namespace Rite

variable {α β : Type}

/-! ## Where every handle stands for itself -/

section SameData

variable {K : Pairing}

theorem PairedRow.eq {row row' : List Handle} (h : PairedRow K row row') (hK : K ≤ Pairing.same) :
    row = row' := by
  have hsame : List.Forall₂ Eq row row' := h.imp hK
  rwa [List.forall₂_eq_eq_eq] at hsame

theorem PairedRow.same (row : List Handle) : PairedRow Pairing.same row row :=
  List.forall₂_same.mpr fun _ _ => rfl

theorem Method.Paired.eq {method method' : Method} (h : Method.Paired Eq method method') :
    method = method' := by
  cases h with
  | bytecode h => rw [h]
  | _ => rfl

theorem rel_eq {R : α → α → Prop} (hR : ∀ a b, R a b → a = b) {x x' : Option α}
    (h : Option.Rel R x x') : x = x' := by
  cases h with
  | some h => rw [hR _ _ h]
  | none => rfl

/-- Where every handle stands for itself, only equal payloads are paired. -/
theorem Payload.Paired.eq {payload payload' : Payload}
    (h : Payload.Paired Eq K payload payload') (hK : K ≤ Pairing.same)
    (hplain : ∀ info, payload ≠ .ofClass info) : payload = payload' := by
  cases h with
  | plain | integer | string | symbol => rfl
  | array hitems => rw [Array.toList_inj.mp (PairedRow.eq hitems hK)]
  | hash hpairs =>
    have heq : List.Forall₂ Eq _ _ := hpairs.imp fun _ _ hp => Prod.ext (hK _ _ hp.1) (hK _ _ hp.2)
    rw [List.forall₂_eq_eq_eq] at heq
    rw [heq]
  | range exclusive hfirst hlast =>
    cases hK _ _ hfirst
    cases hK _ _ hlast
    rfl
  | ofClass _ => exact absurd rfl (hplain _)
  | method hmethod => rw [hmethod.eq]

theorem Found.Paired.eq {found found' : Found} (h : Found.Paired Eq K found found')
    (hK : K ≤ Pairing.same) : found = found' := by
  obtain ⟨owner, method⟩ := found
  obtain ⟨owner', method'⟩ := found'
  obtain ⟨howner, hmethod⟩ := h
  rw [show owner = owner' from hK _ _ howner, show method = method' from hmethod.eq]

theorem Found.Paired.same (found : Found) : Found.Paired Eq Pairing.same found found :=
  ⟨rfl, .refl (fun _ => rfl) _⟩

theorem Context.Paired.eq {c c' : Context} (h : Context.Paired K c c') (hK : K ≤ Pairing.same) :
    c = c' := by
  obtain ⟨self, target, method⟩ := c
  obtain ⟨self', target', method'⟩ := c'
  obtain ⟨hself, htarget, hmethod⟩ := h
  have hmethod : method = method' := by
    cases hmethod with
    | none => rfl
    | @some a b hab =>
      obtain ⟨owner, name⟩ := a
      obtain ⟨owner', name'⟩ := b
      obtain ⟨howner, hname⟩ := hab
      rw [show owner = owner' from hK _ _ howner, show name = name' from hname]
  rw [show self = self' from hK _ _ hself, show target = target' from hK _ _ htarget, hmethod]

theorem Context.Paired.same (c : Context) : Context.Paired Pairing.same c c :=
  ⟨rfl, rfl, rel_refl fun _ _ => ⟨rfl, rfl⟩⟩

end SameData

/-! ## Equipment -/

namespace Machine

/-- The machine with other sinks and another call limit. -/
def equipped (m : Machine) (out err : Sink) (callLimit : Nat) : Machine :=
  { m with out, err, limits := { m.limits with maxCallDepth := callLimit } }

/-- Nothing that programs ask a machine depends on its equipment. -/
theorem paired_equipped (m : Machine) (out err : Sink) (callLimit : Nat) :
    Machine.Paired Eq Pairing.same m (m.equipped out err callLimit) := by
  have hself := Machine.Paired.refl_same (ρ := Eq) (fun _ => rfl) m
  exact ⟨hself.object, hself.globals, hself.constants, hself.inspecting, rfl⟩

theorem ascend_equipped (m : Machine) (out err : Sink) (callLimit : Nat)
    (visit : Handle → Except Fault (Option α)) (tooDeep : Handle → Fault) (hops : Nat)
    (start : Option Handle) :
    (m.equipped out err callLimit).ascend visit tooDeep hops start =
      m.ascend visit tooDeep hops start := by
  induction hops generalizing start with
  | zero =>
    cases start with
    | none => rfl
    | some c =>
      unfold Machine.ascend
      rfl
  | succ hops ih =>
    cases start with
    | none => rfl
    | some c =>
      unfold Machine.ascend
      simp only [ih]
      rfl

theorem freshPayload_equipped (m : Machine) (out err : Sink) (callLimit : Nat) (c : Handle) :
    (m.equipped out err callLimit).freshPayload c = m.freshPayload c := by
  unfold Machine.freshPayload
  rw [ascend_equipped]
  rfl

end Machine

/-- A question that does not look at the equipment. -/
def Unequipped (q : Machine → α) : Prop :=
  ∀ m out err callLimit, q (Machine.equipped m out err callLimit) = q m

/-- A question that looks neither at the sinks nor at any limit. -/
def Unlimited (q : Machine → α) : Prop :=
  ∀ (m : Machine) (out err : Sink) (limits : Limits), q { m with out, err, limits } = q m

theorem Unlimited.unequipped {q : Machine → α} (h : Unlimited q) : Unequipped q :=
  fun m out err _ => h m out err _

theorem Unlimited.enduring {q : Machine → α} (h : Unlimited q) : Enduring (.ok <| q ·) :=
  .of_eq fun m _ => congrArg Except.ok (h m m.out m.err _)

/-! ## Elementary changes -/

/-- What programs can do to a single object, hashes apart. -/
inductive ObjectChange where
  /-- Give it a singleton class, unless it has one. -/
  | adopt (s : Handle)
  | setIvar (name : String) (value : Handle)
  | appendItems (items : List Handle)
  | putItem (place : Nat) (value : Handle)
  | appendText (text : String)
  | changeMethods (f : Table Method → Table Method)

/-- The object after a change. -/
def ObjectChange.on : ObjectChange → Object → Object
  | .adopt s, o => { o with singleton := o.singleton <|> some s }
  | .setIvar name value, o => o.setIvar name value
  | .appendItems items, o => o.mapItems (· ++ items)
  | .putItem place value, o => o.mapItems (Items.put · place value)
  | .appendText text, o => o.mapText (· ++ text)
  | .changeMethods f, o => o.mapMethods f

/-- Actions that are made of questions about objects and names, elementary changes and output. -/
inductive Action.Made : {α : Type} → Action α → Prop
  | pure {α : Type} (x : α) : Made (pure x)
  | bind {α β : Type} {a : Action α} {f : α → Action β} (ha : Made a) (hf : ∀ x, Made (f x)) :
      Made (a >>= f)
  | ask {α : Type} {q : Machine → α} (hq : Unequipped q) (hlimit : Enduring (.ok <| q ·)) :
      Made (Action.ask q)
  | demand {α : Type} {q : Machine → Except Fault α} (hq : Unequipped q) (hlimit : Enduring q) :
      Made (Action.demand q)
  | fail {α : Type} (f : Fault) : Made (Action.fail f : Action α)
  | allocate (o : Object) : Made (Action.allocate o)
  | changeObject (h : Handle) (c : ObjectChange) : Made (Action.changeObject h c.on)
  | hashSet (h key value : Handle) : Made (Action.hashSet h key value)
  | setGlobal (name : String) (value : Handle) : Made (Action.setGlobal name value)
  | setConstant (name : String) (value : Handle) : Made (Action.setConstant name value)
  | writeOut (text : String) : Made (Action.writeOut text)
  | writeErr (text : String) : Made (Action.writeErr text)

namespace Action.Made

theorem asked {q : Machine → α} (hq : Unlimited q) : Made (Action.ask q) :=
  .ask hq.unequipped hq.enduring

/-- A fault that is found out from the machine. -/
theorem failAsked {q : Machine → Fault} (hq : Unlimited q) :
    Made (Action.ask q >>= fun f => (Action.fail f : Action α)) :=
  .bind (.asked hq) fun f => .fail f

theorem instantiate (c : Handle) : Made (Classes.instantiate c) := by
  refine .bind (.asked fun _ _ _ _ => rfl) fun proper => ?_
  split
  · refine .bind (.demand (fun m out err n => ?_) (Machine.enduring_freshPayload c))
      fun payload => .allocate _
    exact m.freshPayload_equipped out err n c
  · exact .failAsked fun _ _ _ _ => rfl

/-- Changes that agree on the object they are made to are the same change. -/
theorem modify_congr {heap : Heap} {h : Handle} {f g : Object → Object}
    (hfg : f (heap.get h) = g (heap.get h)) : heap.modify h f = heap.modify h g := by
  obtain ⟨objects⟩ := heap
  unfold Heap.modify
  congr 1
  apply Array.ext_getElem?
  intro i
  rw [Array.getElem?_modify, Array.getElem?_modify]
  split
  · next hi =>
    cases hget : objects[i]? with
    | none => rfl
    | some o =>
      have ho : Heap.get ⟨objects⟩ h = o := by
        unfold Heap.get
        rw [Array.getD_eq_getD_getElem?, hi, hget]
        rfl
      rw [ho] at hfg
      rw [Option.map_some, Option.map_some, hfg]
  · rfl

/-- The object that a new singleton class is made for has none, so giving it one replaces nothing. -/
theorem singletonClassOf_eq (h : Handle) :
    Action.singletonClassOf h = (do
      match ← Action.ask fun m => (m.object h).singleton with
      | some s => return s
      | none =>
        let s ← Action.newClass (← Action.ask (Action.singletonName h)) Handle.classClass
        Action.changeObject h (ObjectChange.adopt s).on
        return s) := by
  funext m
  unfold Action.singletonClassOf
  rw [Action.ask_bind, Action.ask_bind]
  cases hs : (m.object h).singleton with
  | some s => rfl
  | none =>
    dsimp only
    rw [Action.ask_bind, Action.ask_bind]
    have hnone : ∀ o : Object, o.singleton = none → ((m.heap.push o).get h).singleton = none := by
      intro o ho
      unfold Heap.get Heap.push
      rw [Array.getD_eq_getD_getElem?, Array.getElem?_push]
      split
      · exact ho
      · rw [← Array.getD_eq_getD_getElem?]
        exact hs
    change EStateM.Result.ok m.heap.next _ = EStateM.Result.ok m.heap.next _
    congr 2
    refine modify_congr ?_
    simp only [ObjectChange.on]
    rw [hnone _ rfl]
    rfl

theorem singletonClassOf (h : Handle) : Made (Action.singletonClassOf h) := by
  rw [singletonClassOf_eq]
  refine .bind (.asked fun _ _ _ _ => rfl) fun existing => ?_
  cases existing with
  | some s => exact .pure s
  | none =>
    refine .bind (.asked fun _ _ _ _ => rfl) fun name => .bind (.allocate _) fun s => ?_
    exact .bind (.changeObject h (.adopt s)) fun _ => .pure s

theorem openClass (name : String) (parent : Option Handle) : Made (Action.openClass name parent) := by
  refine .bind (.asked fun _ _ _ _ => rfl) fun existing => ?_
  cases existing with
  | some c =>
    refine .bind (.asked fun _ _ _ _ => rfl) fun info => ?_
    cases info with
    | none => exact .failAsked fun _ _ _ _ => rfl
    | some info =>
      dsimp only
      split
      · exact .failAsked fun _ _ _ _ => rfl
      · split
        · exact .fail _
        · exact .pure c
  | none =>
    refine .bind (.asked fun _ _ _ _ => rfl) fun proper => ?_
    split
    · exact .bind (.allocate _) fun c => .bind (.setConstant name c) fun _ => .pure c
    · exact .failAsked fun _ _ _ _ => rfl

theorem openModule (name : String) : Made (Action.openModule name) := by
  refine .bind (.asked fun _ _ _ _ => rfl) fun existing => ?_
  cases existing with
  | some c =>
    refine .bind (.asked fun _ _ _ _ => rfl) fun info => ?_
    cases info with
    | none => exact .failAsked fun _ _ _ _ => rfl
    | some info =>
      dsimp only
      split
      · exact .pure c
      · exact .failAsked fun _ _ _ _ => rfl
  | none => exact .bind (.allocate _) fun c => .bind (.setConstant name c) fun _ => .pure c

theorem defineMethod (c : Handle) (name : String) (method : Method) :
    Made (Action.defineMethod c name method) := by
  refine .bind (.asked fun _ _ _ _ => rfl) fun isClass => ?_
  split
  · exact .changeObject c (.changeMethods (·.insert name method))
  · exact .failAsked fun _ _ _ _ => rfl

theorem undefMethod (c : Handle) (name : String) : Made (Action.undefMethod c name) := by
  refine .bind (.asked fun _ _ _ _ => rfl) fun owns => ?_
  split
  · exact .changeObject c (.changeMethods (·.erase name))
  · exact .failAsked fun _ _ _ _ => rfl

end Action.Made

/-- **On equal data an effect is one and the same action**, and that action is made of elementary
changes. -/
theorem Effect.eq_and_made {K : Pairing} {a a' : Action α} {V : Pairing → α → α → Prop}
    {π : Permit} (h : Effect Eq π K a a' V) (hK : K ≤ Pairing.same) :
    a = a' ∧ a.Made ∧ ∀ x, V Pairing.same x x := by
  cases h with
  | allocate hc hfresh hp =>
    rw [hp.eq hK hfresh.ne_ofClass]
    exact ⟨rfl, .allocate _, fun _ => rfl⟩
  | instantiate hc =>
    cases hK _ _ hc
    exact ⟨rfl, .instantiate _, fun _ => rfl⟩
  | singletonClassOf hh =>
    cases hK _ _ hh
    exact ⟨rfl, .singletonClassOf _, fun _ => rfl⟩
  | openClass name hp =>
    cases rel_eq hK hp
    exact ⟨rfl, .openClass _ _, fun _ => rfl⟩
  | openModule name => exact ⟨rfl, .openModule _, fun _ => rfl⟩
  | defineMethod hc name hm _ =>
    cases hK _ _ hc
    cases hm.eq
    exact ⟨rfl, .defineMethod _ _ _, fun _ => rfl⟩
  | undefMethod hc name =>
    cases hK _ _ hc
    exact ⟨rfl, .undefMethod _ _, fun _ => rfl⟩
  | setIvar hh name hvalue =>
    cases hK _ _ hh
    cases hK _ _ hvalue
    exact ⟨rfl, .changeObject _ (.setIvar name _), fun _ => rfl⟩
  | setGlobal name hvalue =>
    cases hK _ _ hvalue
    exact ⟨rfl, .setGlobal _ _, fun _ => rfl⟩
  | setConstant name hvalue =>
    cases hK _ _ hvalue
    exact ⟨rfl, .setConstant _ _, fun _ => rfl⟩
  | appendItems hh hitems =>
    cases hK _ _ hh
    cases hitems.eq hK
    exact ⟨rfl, .changeObject _ (.appendItems _), fun _ => rfl⟩
  | putItem hh place hvalue =>
    cases hK _ _ hh
    cases hK _ _ hvalue
    exact ⟨rfl, .changeObject _ (.putItem place _), fun _ => rfl⟩
  | appendText hh text _ =>
    cases hK _ _ hh
    exact ⟨rfl, .changeObject _ (.appendText text), fun _ => rfl⟩
  | hashSet hh hkey hvalue =>
    cases hK _ _ hh
    cases hK _ _ hkey
    cases hK _ _ hvalue
    exact ⟨rfl, .hashSet _ _ _, fun _ => rfl⟩
  | writeOut text => exact ⟨rfl, .writeOut _, fun _ => rfl⟩
  | writeErr text => exact ⟨rfl, .writeErr _, fun _ => rfl⟩

end Rite
