import Rite.Proofs.HeapInvariant

/-!
# Execution only adds

Objects are never removed and never turn into something else.  Programs can put values in place of
others in arrays, hashes and variables, and they can redefine methods; all else that is there once
stays: classes, kinds, numbers, the beginning of a text, the keys of a hash and their order, the
names of variables.

`Machine.Grows` says what two states of a machine have to do with each other when the second is later
than the first.  A `History` is any relation between earlier and later states that the elementary
changes respect, and every run respects a history (`History.image`).  That growth is a history is then
a matter of the seven kinds of change there are.
-/

namespace Rite

variable {α β : Type}

/-! ## Histories -/

/-- A relation between earlier and later states that holds across every elementary change. -/
structure History (G : Machine → Machine → Prop) : Prop where
  refl : ∀ m, G m m
  trans : ∀ {m m₁ m₂}, G m m₁ → G m₁ m₂ → G m m₂
  allocate : ∀ m o, G m { m with heap := m.heap.push o }
  changeObject : ∀ m h (c : ObjectChange), G m { m with heap := m.heap.modify h c.on }
  hashSet : ∀ m h key value, G m { m with heap := m.heap.hashSet h key value }
  setGlobal : ∀ m name value, G m { m with globals := m.globals.insert name value }
  setConstant : ∀ m name value, G m { m with constants := m.constants.insert name value }
  writeOut : ∀ m text, G m { m with out := m.out.accept text }
  writeErr : ∀ m text, G m { m with err := m.err.accept text }
  nesting : ∀ m depth inspecting, G m { m with depth, inspecting }

/-- How a run from `m` ends: in a later state, and if with a value, with one that `V` relates to some
other. -/
inductive Later (G : Machine → Machine → Prop) (m : Machine) (V : α → α → Prop) :
    EStateM.Result Halt Machine α → Prop
  | ok {x x' : α} {m₁ : Machine} (h : G m m₁) (hx : V x x') : Later G m V (.ok x m₁)
  | error {halt : Halt} {m₁ : Machine} (h : G m m₁) : Later G m V (.error halt m₁)

theorem Later.leaves {G : Machine → Machine → Prop} {m : Machine} {V : α → α → Prop} {a : Action α}
    (h : Later G m V (a m)) : G m (a.leaves m) := by
  unfold Action.leaves
  generalize a m = r at h
  cases h with
  | ok h _ => exact h
  | error h => exact h

namespace History

variable {G : Machine → Machine → Prop}

theorem bind (hG : History G) {V : α → α → Prop} {W : β → β → Prop} {a : Action α}
    {f : α → Action β} (ha : ∀ m, Later G m V (a m))
    (hf : ∀ x x', V x x' → ∀ m, Later G m W (f x m)) (m : Machine) : Later G m W ((a >>= f) m) := by
  change Later G m W (EStateM.bind a f m)
  unfold EStateM.bind
  have hr := ha m
  generalize a m = r at hr
  cases hr with
  | error h => exact .error h
  | @ok x x' m₁ h hx =>
    dsimp only
    have hs := hf x x' hx m₁
    generalize f x m₁ = s at hs
    cases hs with
    | ok h' hy => exact .ok (hG.trans h h') hy
    | error h' => exact .error (hG.trans h h')

/-- What is made of elementary changes leads to a later state. -/
theorem of_made (hG : History G) {a : Action α} (ha : a.Made) (m : Machine) : Later G m Eq (a m) := by
  induction ha generalizing m with
  | pure x => exact .ok (hG.refl m) rfl
  | bind _ _ iha ihf => exact hG.bind iha (fun x _ _ => ihf x) m
  | ask _ => exact .ok (hG.refl m) rfl
  | @demand _ q _ =>
    unfold Action.demand
    cases q m with
    | ok x => exact .ok (hG.refl m) rfl
    | error f => exact .error (hG.refl m)
  | fail f => exact .error (hG.refl m)
  | allocate o => exact .ok (hG.allocate m o) rfl
  | changeObject h c => exact .ok (hG.changeObject m h c) rfl
  | hashSet h key value => exact .ok (hG.hashSet m h key value) rfl
  | setGlobal name value => exact .ok (hG.setGlobal m name value) rfl
  | setConstant name value => exact .ok (hG.setConstant m name value) rfl
  | writeOut text =>
    have hlater : G m { m with out := m.out.accept text } := hG.writeOut m text
    unfold Action.writeOut
    cases m.out.fits text
    · exact .error hlater
    · exact .ok hlater rfl
  | writeErr text =>
    have hlater : G m { m with err := m.err.accept text } := hG.writeErr m text
    unfold Action.writeErr
    cases m.err.fits text
    · exact .error hlater
    · exact .ok hlater rfl

/-- A body that runs between two changes to the nesting. -/
theorem around (hG : History G) {V : α → α → Prop} {a : Action α} (ha : ∀ m, Later G m V (a m))
    {m m₀ : Machine} (hstart : G m m₀) {back : Machine → Machine} (hback : ∀ m₁, G m₁ (back m₁)) :
    Later G m V (match a m₀ with
      | .ok x m₁ => .ok x (back m₁)
      | .error halt m₁ => .error halt (back m₁)) := by
  have hr := ha m₀
  generalize a m₀ = r at hr
  cases hr with
  | ok h hx => exact .ok (hG.trans (hG.trans hstart h) (hback _)) hx
  | error h => exact .error (hG.trans (hG.trans hstart h) (hback _))

/-- Leading to a later state is a way of comparing runs, which asks nothing of the second. -/
theorem comparison (hG : History G) : Comparison fun V a _ => ∀ m, Later G m V (a m) where
  pure hx m := .ok (hG.refl m) hx
  bind ha hf := hG.bind ha hf
  demand {_ _ Q W q q' f f'} hq hf := by
    intro m
    obtain ⟨fault, hx, _⟩ | ⟨x, x', hx, _, hQ⟩ := (hq m m (.refl_same (fun _ => rfl) m)).elim
    · rw [Action.demand_bind_of_error hx]
      exact .error (hG.refl m)
    · rw [Action.demand_bind_of_ok hx]
      exact hf x x' hQ m
  fail f m := .error (hG.refl m)
  overrun request m := .error (hG.refl m)
  exhausted _ m := .error (hG.refl m)
  made {_ V a} ha hV := by
    intro m
    have hr := hG.of_made ha m
    generalize a m = r at hr
    cases hr with
    | @ok x _ _ h _ => exact .ok h (hV x)
    | error h => exact .error h
  inspecting h ha m := by
    unfold Action.inspecting
    exact hG.around ha (hG.nesting m m.depth (h :: m.inspecting))
      fun m₁ => hG.nesting m₁ m₁.depth (m₁.inspecting.erase h)
  nested ha m := by
    unfold Action.nested
    split
    · exact .error (hG.refl m)
    · exact hG.around ha (hG.nesting m (m.depth + 1) m.inspecting)
        fun m₁ => hG.nesting m₁ (m₁.depth - 1) m₁.inspecting

/-- **Every run respects a history**, however it ends. -/
theorem image (hG : History G) (fuel : Nat) (i : Image) (m : Machine) :
    G m ((Run.image fuel i).leaves m) :=
  (hG.comparison.image (Nat.le_refl fuel) i m).leaves

theorem record (hG : History G) (fuel : Nat) (r : Record) (m : Machine) :
    G m ((Run.record fuel r).leaves m) :=
  (hG.comparison.record (Nat.le_refl fuel) r m).leaves

theorem send (hG : History G) (fuel : Nat) (receiver : Handle) (name : String) (args : List Handle)
    (m : Machine) : G m (((Run.engine fuel).send receiver name args).leaves m) :=
  (hG.comparison.send (Nat.le_refl fuel) receiver name args m).leaves

/-- A single instruction respects a history too, in whatever frame it is executed. -/
theorem step (hG : History G) (fuel : Nat) (p : Placed) (f : Frame) (m : Machine) :
    G m (((Step.take (Run.engine fuel) p).on f).leaves m) := by
  have htake : StepAlike Eq .full (Run.engine fuel) (Run.engine fuel) Pairing.same
      (Step.take (Run.engine fuel) p) (Step.take (Run.engine fuel) p) Flow.Paired :=
    Step.alike_take sameCode_eq p (.full _)
  have hf : Frame.Paired Eq Pairing.same f f := ⟨rfl, fun _ => rfl, .same f.context⟩
  exact (hG.comparison.alike (hG.comparison.engine (Nat.le_refl fuel)) (htake f f hf _ rfl) rfl
    m).leaves

end History

/-! ## Growth -/

/-- No name is lost. -/
def Table.Grows (t t' : Table α) : Prop := ∀ name, t.has name = true → t'.has name = true

/-- What may become of the content of an object: its kind stays, and so do numbers, names, bounds and
methods.  A text is continued, an array is not shortened, the keys of a hash stay in their places,
and of a class only the methods change. -/
inductive Payload.Grows : Payload → Payload → Prop
  | plain : Grows .plain .plain
  | integer (value : Int64) : Grows (.integer value) (.integer value)
  | string (text more : String) : Grows (.string text) (.string (text ++ more))
  | symbol (name : String) : Grows (.symbol name) (.symbol name)
  | array {items items' : Array Handle} (h : items.size ≤ items'.size) :
      Grows (.array items) (.array items')
  | hash {pairs pairs' : List (Handle × Handle)} (h : pairs.map (·.1) <+: pairs'.map (·.1)) :
      Grows (.hash pairs) (.hash pairs')
  | range (first last : Handle) (exclusive : Bool) :
      Grows (.range first last exclusive) (.range first last exclusive)
  | ofClass (info : ClassInfo) (methods : Table Method) :
      Grows (.ofClass info) (.ofClass { info with methods })
  | method (method : Method) : Grows (.method method) (.method method)

/-- What may become of an object. -/
structure Object.Grows (o o' : Object) : Prop where
  isa : o'.isa = o.isa
  /-- A singleton class is never replaced or taken away. -/
  singleton : ∀ s, o.singleton = some s → o'.singleton = some s
  ivars : o.ivars.Grows o'.ivars
  payload : o.payload.Grows o'.payload

/-- What may become of a machine. -/
structure Machine.Grows (m m' : Machine) : Prop where
  size : m.heap.size ≤ m'.heap.size
  object : ∀ h, m.Valid h → (m.object h).Grows (m'.object h)
  globals : m.globals.Grows m'.globals
  constants : m.constants.Grows m'.constants
  limits : m'.limits = m.limits

namespace Table.Grows

variable {t t₁ t₂ : Table α}

theorem refl (t : Table α) : t.Grows t := fun _ hname => hname

theorem trans (h : t.Grows t₁) (h' : t₁.Grows t₂) : t.Grows t₂ :=
  fun name hname => h' name (h name hname)

theorem insert (t : Table α) (name : String) (value : α) : t.Grows (t.insert name value) := by
  intro other hother
  unfold Table.has at *
  rw [Table.find?_insert]
  split
  · rfl
  · exact hother

end Table.Grows

namespace Payload.Grows

variable {p p₁ p₂ : Payload}

theorem refl (p : Payload) : p.Grows p := by
  cases p with
  | plain => exact .plain
  | integer value => exact .integer value
  | string text => simpa using Grows.string text ""
  | symbol name => exact .symbol name
  | array items => exact .array (Nat.le_refl _)
  | hash pairs => exact .hash (List.prefix_refl _)
  | range first last exclusive => exact .range first last exclusive
  | ofClass info => exact .ofClass info info.methods
  | method method => exact .method method

theorem trans (h : p.Grows p₁) (h' : p₁.Grows p₂) : p.Grows p₂ := by
  cases h with
  | string text more =>
    cases h' with
    | string _ more' =>
      rw [String.append_assoc]
      exact .string text (more ++ more')
  | array h =>
    cases h' with
    | array h' => exact .array (Nat.le_trans h h')
  | hash h =>
    cases h' with
    | hash h' => exact .hash (h.trans h')
  | ofClass info _ =>
    cases h' with
    | ofClass _ methods => exact .ofClass info methods
  | _ => exact h'

end Payload.Grows

namespace Object.Grows

variable {o o₁ o₂ : Object}

theorem refl (o : Object) : o.Grows o := ⟨rfl, fun _ hs => hs, .refl _, .refl _⟩

theorem trans (h : o.Grows o₁) (h' : o₁.Grows o₂) : o.Grows o₂ :=
  ⟨h'.isa.trans h.isa, fun s hs => h'.singleton s (h.singleton s hs), h.ivars.trans h'.ivars,
    h.payload.trans h'.payload⟩

/-- An object of which only the content changes. -/
theorem of_payload {isa : Handle} {ivars : Table Handle} {singleton : Option Handle}
    {p p' : Payload} (h : p.Grows p') :
    Object.Grows ⟨isa, ivars, singleton, p⟩ ⟨isa, ivars, singleton, p'⟩ :=
  ⟨rfl, fun _ hs => hs, .refl _, h⟩

theorem mapItems {f : Array Handle → Array Handle} (hf : ∀ items, items.size ≤ (f items).size)
    (o : Object) : o.Grows (o.mapItems f) := by
  obtain ⟨isa, ivars, singleton, payload⟩ := o
  cases payload with
  | array items => exact .of_payload (.array (hf items))
  | _ => exact .refl _

/-- A row is not shortened by putting something into it. -/
theorem size_le_size_put (items : Array Handle) (place : Nat) (value : Handle) :
    items.size ≤ (Items.put items place value).size := by
  unfold Items.put
  split
  · exact Nat.le_of_eq Array.size_setIfInBounds.symm
  · rw [Array.size_push, Array.size_append]
    omega

theorem change (c : ObjectChange) (o : Object) : o.Grows (c.on o) := by
  cases c with
  | adopt s =>
    refine ⟨rfl, fun t ht => ?_, .refl _, .refl _⟩
    show (o.singleton <|> some s) = some t
    rw [ht]
    rfl
  | setIvar name value => exact ⟨rfl, fun _ hs => hs, .insert _ _ _, .refl _⟩
  | appendItems items =>
    refine mapItems (fun old => ?_) o
    rw [← Array.length_toList, ← Array.length_toList, Array.toList_appendList, List.length_append]
    omega
  | putItem place value => exact mapItems (fun items => size_le_size_put items place value) o
  | appendText text =>
    obtain ⟨isa, ivars, singleton, payload⟩ := o
    cases payload with
    | string old => exact .of_payload (.string old text)
    | _ => exact .refl _
  | changeMethods f =>
    obtain ⟨isa, ivars, singleton, payload⟩ := o
    cases payload with
    | ofClass info => exact .of_payload (.ofClass info (f info.methods))
    | _ => exact .refl _

end Object.Grows

/-- A pair goes to the place of an equal key or behind all others. -/
theorem Heap.keys_prefix_insertPair (heap : Heap) (key value : Handle)
    (pairs : List (Handle × Handle)) :
    pairs.map (·.1) <+: (heap.insertPair key value pairs).map (·.1) := by
  induction pairs with
  | nil => exact List.nil_prefix
  | cons pair rest ih =>
    obtain ⟨k, v⟩ := pair
    unfold Heap.insertPair
    split
    · exact List.prefix_refl _
    · exact List.prefix_cons_inj k |>.mpr ih

namespace Machine.Grows

theorem refl (m : Machine) : m.Grows m :=
  ⟨Nat.le_refl _, fun _ _ => .refl _, .refl _, .refl _, rfl⟩

theorem trans {m m₁ m₂ : Machine} (h : m.Grows m₁) (h' : m₁.Grows m₂) : m.Grows m₂ where
  size := Nat.le_trans h.size h'.size
  object x hx := (h.object x hx).trans (h'.object x (Nat.lt_of_lt_of_le hx h.size))
  globals := h.globals.trans h'.globals
  constants := h.constants.trans h'.constants
  limits := h'.limits.trans h.limits

theorem allocate (m : Machine) (o : Object) : m.Grows { m with heap := m.heap.push o } := by
  refine ⟨by simp, fun h hh => ?_, .refl _, .refl _, rfl⟩
  -- The new object stands behind all the old ones.
  have hne : h.index ≠ m.heap.size := Nat.ne_of_lt hh
  have hget : (m.heap.push o).get h = m.heap.get h := by rw [Heap.get_push, if_neg hne]
  show (m.heap.get h).Grows ((m.heap.push o).get h)
  rw [hget]
  exact .refl _

/-- A change to one object that lets it grow. -/
theorem modify (m : Machine) {h : Handle} {f : Object → Object}
    (hf : (m.object h).Grows (f (m.object h))) :
    m.Grows { m with heap := m.heap.modify h f } := by
  refine ⟨by simp, fun x _ => ?_, .refl _, .refl _, rfl⟩
  show (m.heap.get x).Grows ((m.heap.modify h f).get x)
  rw [Heap.get_modify]
  split
  · next hx =>
    rw [hx.1]
    exact hf
  · exact .refl _

theorem hashSet (m : Machine) (h key value : Handle) :
    m.Grows { m with heap := m.heap.hashSet h key value } := by
  unfold Heap.hashSet
  cases hpairs : (m.heap.get h).hash? with
  | none => exact .refl m
  | some pairs =>
    refine modify m ?_
    change (m.object h).hash? = some pairs at hpairs
    revert hpairs
    obtain ⟨isa, ivars, singleton, payload⟩ := m.object h
    cases payload with
    | hash old =>
      intro hpairs
      cases hpairs
      exact .of_payload (.hash (m.heap.keys_prefix_insertPair key value pairs))
    | _ => exact nofun

end Machine.Grows

theorem grows_history : History Machine.Grows where
  refl := .refl
  trans := .trans
  allocate := .allocate
  changeObject m _ c := .modify m (.change c _)
  hashSet := .hashSet
  setGlobal _ _ _ := ⟨Nat.le_refl _, fun _ _ => .refl _, .insert _ _ _, .refl _, rfl⟩
  setConstant _ _ _ := ⟨Nat.le_refl _, fun _ _ => .refl _, .refl _, .insert _ _ _, rfl⟩
  writeOut _ _ := ⟨Nat.le_refl _, fun _ _ => .refl _, .refl _, .refl _, rfl⟩
  writeErr _ _ := ⟨Nat.le_refl _, fun _ _ => .refl _, .refl _, .refl _, rfl⟩
  nesting _ _ _ := ⟨Nat.le_refl _, fun _ _ => .refl _, .refl _, .refl _, rfl⟩

/-- **Execution only adds to history.**  Executing an image, evaluating a record and sending a
message lead from every state to one that has grown out of it, whatever they end with.  The heap does
not shrink and every object keeps its class, its kind, its singleton class and the names of its
instance variables, and grows as its kind allows; no global and no constant is unset; the limits
stay.  The built-in classes, `nil`, `true`, `false` and `main` have the same handles in every state,
and grow as all objects do. -/
theorem execution_grows (m : Machine) (fuel : Nat) :
    (∀ i, m.Grows ((Run.image fuel i).leaves m)) ∧
    (∀ r, m.Grows ((Run.record fuel r).leaves m)) ∧
    (∀ receiver name args, m.Grows (((Run.engine fuel).send receiver name args).leaves m)) := by
  refine ⟨fun i => ?_, fun r => ?_, fun receiver name args => ?_⟩
  · exact grows_history.image fuel i m
  · exact grows_history.record fuel r m
  · exact grows_history.send fuel receiver name args m

end Rite
