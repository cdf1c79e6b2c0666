import Rite.Machine.Run

/-!
# Steps that fail

An instruction that calls nothing either succeeds or has no effect at all: whatever it checks, it
checks before its first write.  A machine that goes on after a fault therefore never holds half of
an update.

The argument is about how instructions are put together.  Some parts only look (`Looks`), some cannot
fail (`Succeeds`), and a sequence is all or nothing (`AllOrNothing`) if it first looks and then does
something that is all or nothing, or if nothing that can fail comes behind its first part.  Those two
rules are enough for every instruction but those of `Opcode.calling`, which hand control to a method
or to a class body.
-/

namespace Rite

/-- The opcodes that send a message or evaluate a nested record. -/
def Opcode.calling : List Opcode :=
  [.getIndex, .setIndex, .send, .selfSend, .sendBlk, .selfSendBlk, .superSend, .add, .sub, .mul, .div,
   .eq, .lt, .le, .gt, .ge, .addInt, .subInt, .strCat, .execBody]

/-! ## Sequences that are all or nothing -/

section Rules

variable {σ α β : Type} {a : EStateM Halt σ α} {f : α → EStateM Halt σ β}

/-- A computation that leaves its state alone, with a value or with a fault. -/
def Looks (a : EStateM Halt σ α) : Prop :=
  ∀ s, (∃ x, a s = .ok x s) ∨ ∃ fault, a s = .error (.fault fault) s

/-- A computation that cannot fail. -/
def Succeeds (a : EStateM Halt σ α) : Prop := ∀ s, ∃ x s', a s = .ok x s'

/-- A computation that succeeds, or is at fault and leaves its state alone. -/
def AllOrNothing (a : EStateM Halt σ α) : Prop :=
  ∀ s, (∃ x s', a s = .ok x s') ∨ ∃ fault, a s = .error (.fault fault) s

theorem Looks.pure (x : α) : Looks (pure x : EStateM Halt σ α) := fun _ => .inl ⟨x, rfl⟩

theorem Succeeds.pure (x : α) : Succeeds (pure x : EStateM Halt σ α) := fun s => ⟨x, s, rfl⟩

theorem Looks.allOrNothing (ha : Looks a) : AllOrNothing a := by
  intro s
  rcases ha s with ⟨x, hx⟩ | hfault
  · exact .inl ⟨x, s, hx⟩
  · exact .inr hfault

theorem Succeeds.allOrNothing (ha : Succeeds a) : AllOrNothing a := fun s => .inl (ha s)

theorem carryOn_of_ok {s s' : σ} {x : α} (ha : a s = .ok x s') : (a >>= f) s = f x s' := by
  show EStateM.bind a f s = f x s'
  simp only [EStateM.bind, ha]

theorem carryOn_of_error {s s' : σ} {halt : Halt} (ha : a s = .error halt s') :
    (a >>= f) s = .error halt s' := by
  show EStateM.bind a f s = .error halt s'
  simp only [EStateM.bind, ha]

theorem Looks.bind (ha : Looks a) (hf : ∀ x, Looks (f x)) : Looks (a >>= f) := by
  intro s
  rcases ha s with ⟨x, hx⟩ | ⟨fault, hfault⟩
  · rw [carryOn_of_ok hx]
    exact hf x s
  · exact .inr ⟨fault, carryOn_of_error hfault⟩

theorem Succeeds.bind (ha : Succeeds a) (hf : ∀ x, Succeeds (f x)) : Succeeds (a >>= f) := by
  intro s
  obtain ⟨x, s', hx⟩ := ha s
  rw [carryOn_of_ok hx]
  exact hf x s'

/-- First look, then act: where looking fails nothing has happened yet. -/
theorem AllOrNothing.after (ha : Looks a) (hf : ∀ x, AllOrNothing (f x)) : AllOrNothing (a >>= f) := by
  intro s
  rcases ha s with ⟨x, hx⟩ | ⟨fault, hfault⟩
  · rw [carryOn_of_ok hx]
    exact hf x s
  · exact .inr ⟨fault, carryOn_of_error hfault⟩

/-- Nothing that can fail comes behind the first change. -/
theorem AllOrNothing.followed (ha : AllOrNothing a) (hf : ∀ x, Succeeds (f x)) :
    AllOrNothing (a >>= f) := by
  intro s
  rcases ha s with ⟨x, s', hx⟩ | ⟨fault, hfault⟩
  · rw [carryOn_of_ok hx]
    exact .inl (hf x s')
  · exact .inr ⟨fault, carryOn_of_error hfault⟩

theorem Looks.discard (ha : Looks a) : Looks (discard a) := by
  show Looks (a >>= fun _ => Pure.pure ())
  exact ha.bind fun _ => .pure ()

end Rules

/-! ## Actions -/

namespace Action

variable {α : Type}

theorem looks_ask (q : Machine → α) : Looks (ask q) := fun m => .inl ⟨q m, rfl⟩

theorem looks_demand (q : Machine → Except Fault α) : Looks (demand q) := by
  intro m
  unfold demand
  cases q m with
  | ok x => exact .inl ⟨x, rfl⟩
  | error fault => exact .inr ⟨fault, rfl⟩

theorem looks_fail (fault : Fault) : Looks (fail fault : Action α) := fun _ => .inr ⟨fault, rfl⟩

/-- A fault that is found out from the machine. -/
theorem looks_failAsked (q : Machine → Fault) : Looks (do fail (← ask q) : Action α) :=
  (looks_ask q).bind looks_fail

theorem looks_constant (name : String) : Looks (constant name) := by
  refine (looks_ask _).bind fun value => ?_
  cases value with
  | some value => exact .pure value
  | none => exact looks_fail _

theorem succeeds_allocate (o : Object) : Succeeds (allocate o) := fun _ => ⟨_, _, rfl⟩

theorem succeeds_changeObject (h : Handle) (f : Object → Object) : Succeeds (changeObject h f) :=
  fun _ => ⟨_, _, rfl⟩

theorem succeeds_setGlobal (name : String) (value : Handle) : Succeeds (setGlobal name value) :=
  fun _ => ⟨_, _, rfl⟩

theorem succeeds_setConstant (name : String) (value : Handle) : Succeeds (setConstant name value) :=
  fun _ => ⟨_, _, rfl⟩

theorem succeeds_hashSetAll (h : Handle) (pairs : List (Handle × Handle)) :
    Succeeds (hashSetAll h pairs) := by
  induction pairs with
  | nil => exact .pure ()
  | cons pair rest ih =>
    have hset : Succeeds (hashSet h pair.1 pair.2) := fun _ => ⟨_, _, rfl⟩
    exact hset.bind fun _ => ih

theorem succeeds_newHash (pairs : List (Handle × Handle)) : Succeeds (newHash pairs) :=
  (succeeds_allocate _).bind fun h => (succeeds_hashSetAll h pairs).bind fun _ => .pure h

/-- A new class or module, and the constant it is bound to. -/
theorem succeeds_bound (name : String) (o : Object) :
    Succeeds (do let c ← allocate o; setConstant name c; return c) :=
  (succeeds_allocate o).bind fun c => (succeeds_setConstant name c).bind fun _ => .pure c

theorem succeeds_singletonClassOf (h : Handle) : Succeeds (singletonClassOf h) := by
  have hask : ∀ {β : Type} (q : Machine → β), Succeeds (ask q) := fun q m => ⟨q m, m, rfl⟩
  refine (hask _).bind fun existing => ?_
  cases existing with
  | some s => exact .pure s
  | none =>
    refine (hask _).bind fun name => (succeeds_allocate _).bind fun s => ?_
    exact (succeeds_changeObject h _).bind fun _ => .pure s

theorem allOrNothing_defineMethod (c : Handle) (name : String) (method : Method) :
    AllOrNothing (defineMethod c name method) := by
  refine .after (looks_ask _) fun isClass => ?_
  split
  · exact (succeeds_changeObject c _).allOrNothing
  · exact (looks_failAsked _).allOrNothing

theorem allOrNothing_undefMethod (c : Handle) (name : String) :
    AllOrNothing (undefMethod c name) := by
  refine .after (looks_ask _) fun owned => ?_
  split
  · exact (succeeds_changeObject c _).allOrNothing
  · exact (looks_failAsked _).allOrNothing

/-- A class that is there already is only looked at; a new one is made when its superclass has been
judged. -/
theorem allOrNothing_openClass (name : String) (superclass : Option Handle) :
    AllOrNothing (openClass name superclass) := by
  refine .after (looks_ask _) fun existing => ?_
  cases existing with
  | some existing =>
    refine .after (looks_ask _) fun info => ?_
    cases info with
    | none => exact (looks_failAsked _).allOrNothing
    | some info =>
      dsimp only
      split
      · exact (looks_failAsked _).allOrNothing
      · split
        · exact (looks_fail _).allOrNothing
        · exact (Looks.pure existing).allOrNothing
  | none =>
    refine .after (looks_ask _) fun proper => ?_
    split
    · exact (succeeds_bound name _).allOrNothing
    · exact (looks_failAsked _).allOrNothing

theorem allOrNothing_openModule (name : String) : AllOrNothing (openModule name) := by
  refine .after (looks_ask _) fun existing => ?_
  cases existing with
  | some existing =>
    refine .after (looks_ask _) fun info => ?_
    cases info with
    | none => exact (looks_failAsked _).allOrNothing
    | some info =>
      dsimp only
      split
      · exact (Looks.pure existing).allOrNothing
      · exact (looks_failAsked _).allOrNothing
  | none => exact (succeeds_bound name _).allOrNothing

end Action

/-! ## Steps -/

theorem Machine.expect_of_some {α : Type} {m : Machine} {expected : String} {read : Object → Option α}
    {h : Handle} {x : α} (hread : read (m.object h) = some x) : m.expect expected read h = .ok x := by
  unfold Machine.expect
  rw [hread]

namespace Step

variable {α β : Type} {a : Action α}

theorem act_of_ok {action : Action α} {x : α} {s : Activation} {m : Machine}
    (h : action s.machine = .ok x m) : act action s = .ok x ⟨s.frame, m⟩ := by
  unfold act
  simp only [h]

theorem demand_of_ok {q : Machine → Except Fault α} {x : α} {s : Activation}
    (h : q s.machine = .ok x) : act (Action.demand q) s = .ok x s :=
  act_of_ok (by simp only [Action.demand, h])

theorem act_of_error {action : Action α} {halt : Halt} {s : Activation} {m : Machine}
    (h : action s.machine = .error halt m) : act action s = .error halt ⟨s.frame, m⟩ := by
  unfold act
  simp only [h]

theorem demand_of_error {q : Machine → Except Fault α} {fault : Fault} {s : Activation}
    (h : q s.machine = .error fault) : act (Action.demand q) s = .error (.fault fault) s :=
  act_of_error (by simp only [Action.demand, h])

theorem symbol_of_some {index : UInt16} {name : String} {s : Activation}
    (h : s.frame.record.symbols[index.toNat]? = some name) : symbol index s = .ok name s := by
  have hentries : view (fun f => f.record.symbols) s = .ok s.frame.record.symbols s := rfl
  unfold symbol entry
  rw [carryOn_of_ok hentries, h]
  rfl

theorem looks_act (ha : Looks a) : Looks (act a) := by
  intro s
  unfold act
  rcases ha s.machine with ⟨x, hx⟩ | ⟨fault, hfault⟩
  · exact .inl ⟨x, by simp only [hx]⟩
  · exact .inr ⟨fault, by simp only [hfault]⟩

theorem succeeds_act (ha : Succeeds a) : Succeeds (act a) := by
  intro s
  obtain ⟨x, m, hx⟩ := ha s.machine
  exact ⟨x, ⟨s.frame, m⟩, by simp only [act, hx]⟩

theorem allOrNothing_act (ha : AllOrNothing a) : AllOrNothing (act a) := by
  intro s
  unfold act
  rcases ha s.machine with ⟨x, m, hx⟩ | ⟨fault, hfault⟩
  · exact .inl ⟨x, ⟨s.frame, m⟩, by simp only [hx]⟩
  · exact .inr ⟨fault, by simp only [hfault]⟩

theorem looks_view (question : Frame → α) : Looks (view question) :=
  fun s => .inl ⟨question s.frame, rfl⟩

theorem looks_read (r : UInt16) : Looks (read r) := looks_view _

theorem looks_fail (fault : Fault) : Looks (fail fault : Step α) := fun _ => .inr ⟨fault, rfl⟩

theorem looks_ask (q : Machine → α) : Looks (act (Action.ask q)) := looks_act (Action.looks_ask q)

theorem looks_demand (q : Machine → Except Fault α) : Looks (act (Action.demand q)) :=
  looks_act (Action.looks_demand q)

theorem looks_entry (kind : String) (table : Record → List α) (index : UInt16) :
    Looks (entry kind table index) := by
  refine (looks_view _).bind fun entries => ?_
  cases entries[index.toNat]? with
  | some x => exact .pure x
  | none => exact looks_fail _

theorem looks_symbol (index : UInt16) : Looks (symbol index) := looks_entry _ _ index

theorem looks_literal (index : UInt16) : Looks (literal index) := looks_entry _ _ index

theorem looks_child (index : UInt16) : Looks (child index) := looks_entry _ _ index

theorem succeeds_write (r : UInt16) (value : Handle) : Succeeds (write r value) :=
  fun _ => ⟨(), _, rfl⟩

theorem succeeds_writeAll (first : UInt16) (values : List Handle) :
    Succeeds (writeAll first values) := by
  induction values generalizing first with
  | nil => exact .pure ()
  | cons value values ih => exact (succeeds_write first value).bind fun _ => ih (first + 1)

theorem succeeds_writeResult (r : UInt16) {a : Action Handle} (ha : Succeeds a) :
    Succeeds (writeResult r a) :=
  (succeeds_act ha).bind (succeeds_write r)

theorem allOrNothing_writeResult (r : UInt16) {a : Action Handle} (ha : AllOrNothing a) :
    AllOrNothing (writeResult r a) :=
  (allOrNothing_act ha).followed (succeeds_write r)

/-- A new object is written to a register. -/
theorem allOrNothing_writeNew (r : UInt16) (o : Object) :
    AllOrNothing (writeResult r (Action.allocate o)) :=
  (succeeds_writeResult r (Action.succeeds_allocate o)).allOrNothing

theorem allOrNothing_write (r : UInt16) (value : Handle) : AllOrNothing (write r value) :=
  (succeeds_write r value).allOrNothing

theorem allOrNothing_changeObject (h : Handle) (f : Object → Object) :
    AllOrNothing (act (Action.changeObject h f)) :=
  (succeeds_act (Action.succeeds_changeObject h f)).allOrNothing

/-! ### Single instructions -/

theorem allOrNothing_getClassVar (r : UInt16) (name : String) :
    AllOrNothing (getClassVar r name) := by
  refine .after (looks_view _) fun target => .after (looks_demand _) fun holder => ?_
  cases holder with
  | some holder => exact allOrNothing_writeResult r (Action.looks_ask _).allOrNothing
  | none => exact (looks_fail _).allOrNothing

theorem allOrNothing_setClassVar (r : UInt16) (name : String) :
    AllOrNothing (setClassVar r name) := by
  refine .after (looks_view _) fun target => .after (looks_demand _) fun holder => ?_
  exact .after (looks_read r) fun value => allOrNothing_changeObject _ _

theorem allOrNothing_appendItems (h : Handle) (items : List Handle) :
    AllOrNothing (appendItems h items) :=
  .after (looks_demand _).discard fun _ => allOrNothing_changeObject h _

theorem allOrNothing_arrayCat (a : UInt16) : AllOrNothing (arrayCat a) := by
  refine .after (looks_read _) fun source => .after (looks_ask _) fun items => ?_
  refine .after (looks_read a) fun target => ?_
  split
  · exact allOrNothing_writeNew a _
  · exact allOrNothing_appendItems target items

theorem allOrNothing_arrayRef (i : Instruction) : AllOrNothing (arrayRef i) := by
  refine .after (looks_read _) fun source => .after (looks_ask _) fun items => ?_
  cases items with
  | some items => exact allOrNothing_write i.a _
  | none => exact allOrNothing_write i.a _

theorem allOrNothing_arraySet (i : Instruction) : AllOrNothing (arraySet i) := by
  refine .after (looks_read _) fun value => .after (looks_read _) fun target => ?_
  exact .after (looks_demand _).discard fun _ => allOrNothing_changeObject target _

theorem allOrNothing_arrayPost (i : Instruction) : AllOrNothing (arrayPost i) := by
  refine .after (looks_read _) fun source => .after (looks_ask _) fun items => ?_
  exact (allOrNothing_writeNew i.a _).followed fun _ => succeeds_writeAll _ _

theorem allOrNothing_intern (a : UInt16) : AllOrNothing (intern a) :=
  .after (looks_read a) fun _ => .after (looks_demand _) fun _ => allOrNothing_writeNew a _

theorem allOrNothing_hashSetAll (h : Handle) (pairs : List (Handle × Handle)) :
    AllOrNothing (act (Action.hashSetAll h pairs)) :=
  (succeeds_act (Action.succeeds_hashSetAll h pairs)).allOrNothing

theorem allOrNothing_hashAdd (a count : UInt16) : AllOrNothing (hashAdd a count) := by
  refine .after (looks_read a) fun h => .after (looks_demand _).discard fun _ => ?_
  exact .after (looks_view _) fun pairs => allOrNothing_hashSetAll h pairs

/-- Both hashes have been looked at before the first pair is put in. -/
theorem allOrNothing_hashCat (a : UInt16) : AllOrNothing (hashCat a) := by
  refine .after (looks_read a) fun h => .after (looks_demand _).discard fun _ => ?_
  refine .after (looks_read _) fun other => ?_
  split
  · exact .after (looks_demand _) fun pairs => allOrNothing_hashSetAll h pairs
  · exact (Looks.pure _).allOrNothing

theorem allOrNothing_range (a : UInt16) (exclusive : Bool) : AllOrNothing (range a exclusive) :=
  .after (looks_read a) fun _ => .after (looks_read _) fun _ => allOrNothing_writeNew a _

theorem allOrNothing_openClass (i : Instruction) : AllOrNothing (openClass i) := by
  refine .after (looks_read _) fun parent => .after (looks_symbol _) fun name => ?_
  exact allOrNothing_writeResult i.a (Action.allOrNothing_openClass name _)

/-- The symbol that a definition answers is made last. -/
theorem allOrNothing_defMethod (i : Instruction) : AllOrNothing (defMethod i) := by
  refine .after (looks_symbol _) fun name => .after (looks_read _) fun body => ?_
  refine .after (looks_demand _) fun method => .after (looks_read _) fun c => ?_
  refine (allOrNothing_act (Action.allOrNothing_defineMethod c name method)).followed fun _ => ?_
  exact succeeds_writeResult i.a (Action.succeeds_allocate _)

theorem allOrNothing_undefMethod (index : UInt16) : AllOrNothing (undefMethod index) := by
  refine .after (looks_symbol _) fun name => .after (looks_view _) fun target => ?_
  exact allOrNothing_act (Action.allOrNothing_undefMethod target name)

/-! ### All of them -/

theorem allOrNothing_execute (e : Engine) (i : Instruction) (hop : i.op ∉ Opcode.calling) :
    AllOrNothing (execute e i) := by
  obtain ⟨op, a, b, c⟩ := i
  cases op with
  | nop | enter | debug => exact (Looks.pure ()).allOrNothing
  | move => exact .after (looks_read b) fun _ => allOrNothing_write a _
  | loadLit | string | symbol => exact .after (looks_literal b) fun _ => allOrNothing_writeNew a _
  | loadInt | loadNeg | loadMinusOne | load0 | load1 | load2 | load3 | load4 | load5 | load6 | load7
  | loadInt16 | loadInt32 => exact allOrNothing_writeNew a _
  | loadSym => exact .after (looks_symbol b) fun _ => allOrNothing_writeNew a _
  | loadNil | loadTrue | loadFalse | objectClass => exact allOrNothing_write a _
  | loadSelf | targetClass => exact .after (looks_view _) fun _ => allOrNothing_write a _
  | getGlobal =>
    refine .after (looks_symbol b) fun name => ?_
    exact allOrNothing_writeResult a (Action.looks_ask _).allOrNothing
  | setGlobal =>
    refine .after (looks_symbol b) fun name => .after (looks_read a) fun value => ?_
    exact (succeeds_act (Action.succeeds_setGlobal name value)).allOrNothing
  | getIvar =>
    refine .after (looks_symbol b) fun name => .after (looks_view _) fun self => ?_
    exact allOrNothing_writeResult a (Action.looks_ask _).allOrNothing
  | setIvar =>
    refine .after (looks_symbol b) fun name => .after (looks_view _) fun self => ?_
    exact .after (looks_read a) fun value => allOrNothing_changeObject self _
  | getClassVar => exact .after (looks_symbol b) fun name => allOrNothing_getClassVar a name
  | setClassVar => exact .after (looks_symbol b) fun name => allOrNothing_setClassVar a name
  | getConst =>
    refine .after (looks_symbol b) fun name => ?_
    exact allOrNothing_writeResult a (Action.looks_constant name).allOrNothing
  | setConst =>
    refine .after (looks_symbol b) fun name => .after (looks_read a) fun value => ?_
    exact (succeeds_act (Action.succeeds_setConstant name value)).allOrNothing
  | array | arrayFrom => exact .after (looks_view _) fun _ => allOrNothing_writeNew a _
  | arrayCat => exact allOrNothing_arrayCat a
  | arrayPush =>
    exact .after (looks_read a) fun h => .after (looks_view _) (allOrNothing_appendItems h)
  | arrayDup =>
    exact .after (looks_read a) fun _ => .after (looks_ask _) fun _ => allOrNothing_writeNew a _
  | arrayRef => exact allOrNothing_arrayRef _
  | arraySet => exact allOrNothing_arraySet _
  | arrayPost => exact allOrNothing_arrayPost _
  | intern => exact allOrNothing_intern a
  | hash =>
    refine .after (looks_view _) fun pairs => ?_
    exact (succeeds_writeResult a (Action.succeeds_newHash pairs)).allOrNothing
  | hashAdd => exact allOrNothing_hashAdd a b
  | hashCat => exact allOrNothing_hashCat a
  | rangeInc | rangeExc => exact allOrNothing_range a _
  | openClass => exact allOrNothing_openClass _
  | openModule =>
    refine .after (looks_symbol b) fun name => ?_
    exact allOrNothing_writeResult a (Action.allOrNothing_openModule name)
  | method => exact .after (looks_child b) fun _ => allOrNothing_writeNew a _
  | defMethod => exact allOrNothing_defMethod _
  | undefMethod => exact allOrNothing_undefMethod a
  | singletonClass =>
    refine .after (looks_read a) fun h => ?_
    exact (succeeds_writeResult a (Action.succeeds_singletonClassOf h)).allOrNothing
  | raiseLiteral => exact .after (looks_literal a) fun _ => (looks_fail _).allOrNothing
  | getIndex | setIndex | send | selfSend | sendBlk | selfSendBlk | superSend | add | sub | mul | div
  | eq | lt | le | gt | ge | addInt | subInt | strCat | execBody => simp [Opcode.calling] at hop
  | _ => exact (looks_fail _).allOrNothing

theorem looks_jump (p : Placed) : Looks (jump p) := by
  refine (looks_view _).bind fun code => ?_
  cases landing? code (jumpTarget p) with
  | some position => exact .pure _
  | none => exact looks_fail _

theorem looks_jumpWhen (condition : Bool) (p : Placed) : Looks (jumpWhen condition p) := by
  unfold jumpWhen
  split
  · exact looks_jump p
  · exact .pure _

theorem allOrNothing_take (e : Engine) (p : Placed) (hop : p.instruction.op ∉ Opcode.calling) :
    AllOrNothing (take e p) := by
  unfold take
  dsimp only
  split
  · exact (looks_jump p).allOrNothing
  · exact ((looks_read _).bind fun _ => looks_jumpWhen _ p).allOrNothing
  · exact ((looks_read _).bind fun _ => looks_jumpWhen _ p).allOrNothing
  · exact ((looks_read _).bind fun _ => looks_jumpWhen _ p).allOrNothing
  · refine .after (looks_view _) fun count => ?_
    split
    · exact (looks_fail _).allOrNothing
    · exact (looks_jump p).allOrNothing
  · exact ((looks_read _).bind fun _ => .pure _).allOrNothing
  · exact ((looks_read _).bind fun _ => .pure _).allOrNothing
  · exact (Looks.pure _).allOrNothing
  · exact (allOrNothing_execute e _ hop).followed fun _ => .pure _

end Step

/-- **An instruction that calls nothing fails without a trace.**  If it does not succeed, it ends with
a fault, and the machine and the frame, registers included, are what they were. -/
theorem failed_step_traceless (e : Engine) (p : Placed) (hop : p.instruction.op ∉ Opcode.calling)
    {s s' : Activation} {halt : Halt} (hfail : Step.take e p s = .error halt s') :
    s' = s ∧ ∃ fault, halt = .fault fault := by
  rcases Step.allOrNothing_take e p hop s with ⟨flow, s₁, hok⟩ | ⟨fault, hfault⟩
  · rw [hok] at hfail
    cases hfail
  · rw [hfault] at hfail
    cases hfail
    exact ⟨rfl, fault, rfl⟩

/-- A frame that is about to define a method on the top-level object, which is no class. -/
def strayDefinition : Activation where
  frame :=
    { record := { symbols := ["size"], code := {} }
      registers := #[Handle.mainObject, Handle.mainObject, ⟨18⟩]
      context := .topLevel }
  machine :=
    let m := Machine.boot
    { m with heap := m.heap.push { isa := Handle.procClass, payload := .method (.attrReader "@size") } }

/-- Name and method are in order and the class is not: no table has changed, and no symbol has been
made. -/
theorem failed_step_traceless_strayDefinition :
    ∃ s', Step.take (Run.engine 0) ⟨0, { op := .defMethod, a := 1, b := 0 }⟩ strayDefinition =
        .error (.fault (.typeMismatch "Class" "Object")) s' ∧
      s' = strayDefinition := by
  have hfail : Step.take (Run.engine 0) ⟨0, { op := .defMethod, a := 1, b := 0 }⟩ strayDefinition =
      .error (.fault (.typeMismatch "Class" "Object")) strayDefinition := rfl
  exact ⟨_, hfail, (failed_step_traceless _ _ (by decide) hfail).1⟩

end Rite
