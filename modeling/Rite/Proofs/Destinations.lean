import Rite.Proofs.Destructuring

/-!
# What an instruction writes to

Every instruction has its destinations: the registers that it may write to.  Most have one, some have
none, and the one that takes an array apart has a row of them.  `Instruction.destinations` reads them off
the operands.  An instruction that goes well leaves all other registers of its frame as they were, and
`self`, the target class and the active method too (`destinations_confine`).

Instructions that call methods or evaluate class bodies are no exception.  What is called has a frame of
its own, and all that comes back to the caller is an answer.  So nothing is asked of the engine here.
`Step.Writes` says it of every part of an instruction, failed ones included: the frame it leaves comes from
the frame it found by writes to destinations alone (`Frame.Written`).

Over a whole run, a register that is a destination of no instruction of the code keeps its value
(`Activation.Reaches.sameBut`).
-/

namespace Rite

/-! ## Destinations -/

/-- The registers that an instruction may write to. -/
def Instruction.destinations (i : Instruction) : List UInt16 :=
  match i.op with
  | .arrayPost => (List.range (i.c.toNat + 1)).map fun k => i.a + UInt16.ofNat k
  | .nop | .setGlobal | .setIvar | .setClassVar | .setConst | .setIndex | .jump | .jumpIf | .jumpUnless
  | .jumpNil | .jumpUnwind | .enter | .arrayPush | .arraySet | .strCat | .hashAdd | .hashCat
  | .undefMethod | .debug => []
  | _ => [i.a]

/-- The row of destinations, where its numbers do not wrap around. -/
theorem Instruction.mem_destinations_arrayPost {a b c : UInt16} (h : a.toNat + c.toNat < 2 ^ 16)
    (r : UInt16) :
    r ∈ destinations { op := .arrayPost, a, b, c } ↔
      a.toNat ≤ r.toNat ∧ r.toNat ≤ a.toNat + c.toNat := by
  show r ∈ (List.range (c.toNat + 1)).map (fun k => a + UInt16.ofNat k) ↔ _
  rw [List.mem_map]
  constructor
  · rintro ⟨k, hk, rfl⟩
    have hk := List.mem_range.mp hk
    rw [UInt16.toNat_add, UInt16.toNat_ofNat']
    omega
  · rintro ⟨hle, hge⟩
    refine ⟨r.toNat - a.toNat, List.mem_range.mpr (by omega), ?_⟩
    apply UInt16.toNat_inj.mp
    rw [UInt16.toNat_add, UInt16.toNat_ofNat']
    omega

/-- Two frames of the same record and context whose registers differ in `D` at most. -/
structure Frame.SameBut (D : List UInt16) (f f' : Frame) : Prop where
  record : f'.record = f.record
  context : f'.context = f.context
  registers : ∀ r ∉ D, f'.get r = f.get r

theorem Frame.SameBut.refl (D : List UInt16) (f : Frame) : f.SameBut D f := ⟨rfl, rfl, fun _ _ => rfl⟩

theorem Frame.SameBut.trans {D : List UInt16} {f₁ f₂ f₃ : Frame} (h : f₁.SameBut D f₂)
    (h' : f₂.SameBut D f₃) : f₁.SameBut D f₃ :=
  ⟨h'.record.trans h.record, h'.context.trans h.context,
    fun r hr => (h'.registers r hr).trans (h.registers r hr)⟩

theorem Frame.SameBut.mono {D D' : List UInt16} {f f' : Frame} (h : f.SameBut D f')
    (hD : ∀ r ∈ D, r ∈ D') : f.SameBut D' f' :=
  ⟨h.record, h.context, fun r hr => h.registers r fun hmem => hr (hD r hmem)⟩

theorem Frame.sameBut_set {D : List UInt16} {r : UInt16} (hr : r ∈ D) (f : Frame) (value : Handle) :
    f.SameBut D (f.set r value) := by
  refine ⟨rfl, rfl, fun r' hr' => ?_⟩
  rw [Frame.get_set, if_neg]
  rintro rfl
  exact hr' hr

/-- `f'` is `f` after writes to registers of `D`. -/
inductive Frame.Written (D : List UInt16) (f : Frame) : Frame → Prop
  | none : Written D f f
  | set {f' : Frame} {r : UInt16} (h : Written D f f') (hr : r ∈ D) (value : Handle) :
      Written D f (f'.set r value)

theorem Frame.Written.trans {D : List UInt16} {f₁ f₂ f₃ : Frame} (h : f₁.Written D f₂)
    (h' : f₂.Written D f₃) : f₁.Written D f₃ := by
  induction h' with
  | none => exact h
  | set _ hr value ih => exact .set ih hr value

theorem Frame.Written.sameBut {D : List UInt16} {f f' : Frame} (h : f.Written D f') :
    f.SameBut D f' := by
  induction h with
  | none => exact .refl D f
  | @set f' r _ hr value ih => exact ih.trans (Frame.sameBut_set hr f' value)

namespace Step

variable {α β : Type} {D : List UInt16}

/-! ## Steps that keep to their destinations -/

/-- A step that writes to registers of `D` at most, if it goes well. -/
def Confined (D : List UInt16) (a : Step α) : Prop :=
  ∀ s x s', a s = .ok x s' → s.frame.SameBut D s'.frame

/-- A step that does nothing to its frame but write to registers of `D`, whether it goes well or not. -/
def Writes (D : List UInt16) (a : Step α) : Prop :=
  ∀ s, (∀ x s', a s = .ok x s' → s.frame.Written D s'.frame) ∧
    ∀ halt s', a s = .error halt s' → s.frame.Written D s'.frame

namespace Writes

theorem confined {a : Step α} (ha : Writes D a) : Confined D a :=
  fun s x s' h => ((ha s).1 x s' h).sameBut

theorem bind {a : Step α} {f : α → Step β} (ha : Writes D a) (hf : ∀ x, Writes D (f x)) :
    Writes D (a >>= f) := by
  intro s
  cases hfirst : a s with
  | ok x s' =>
    have hwritten := (ha s).1 x s' hfirst
    rw [carryOn_of_ok hfirst]
    exact ⟨fun y s'' h => hwritten.trans ((hf x s').1 y s'' h),
      fun halt s'' h => hwritten.trans ((hf x s').2 halt s'' h)⟩
  | error halt s' =>
    rw [carryOn_of_error hfirst]
    refine ⟨fun y s'' h => (by cases h), fun halt' s'' h => ?_⟩
    obtain ⟨_, rfl⟩ := EStateM.Result.error.inj h
    exact (ha s).2 halt s' hfirst

/-- What leaves the frame alone writes nothing. -/
theorem of_frame {a : Step α} (ha : ∀ s, (∃ x m, a s = .ok x ⟨s.frame, m⟩) ∨
    ∃ halt m, a s = .error halt ⟨s.frame, m⟩) : Writes D a := by
  intro s
  rcases ha s with ⟨y, m, hy⟩ | ⟨halt, m, herror⟩
  · rw [hy]
    refine ⟨fun x s' h => ?_, fun halt s' h => (by cases h)⟩
    obtain ⟨_, rfl⟩ := EStateM.Result.ok.inj h
    exact .none
  · rw [herror]
    refine ⟨fun x s' h => (by cases h), fun halt s' h => ?_⟩
    obtain ⟨_, rfl⟩ := EStateM.Result.error.inj h
    exact .none

theorem of_looks {a : Step α} (ha : Looks a) : Writes D a := by
  refine of_frame fun s => ?_
  rcases ha s with ⟨x, hx⟩ | ⟨fault, hfault⟩
  · exact .inl ⟨x, s.machine, hx⟩
  · exact .inr ⟨_, s.machine, hfault⟩

theorem pure (x : α) : Writes D (Pure.pure x : Step α) := .of_looks (.pure x)

/-- **Actions on the machine leave the frame alone**, whatever they call. -/
theorem act (action : Action α) : Writes D (Step.act action) := by
  refine of_frame fun s => ?_
  cases hresult : action s.machine with
  | ok x m => exact .inl ⟨x, m, act_of_ok hresult⟩
  | error halt m => exact .inr ⟨halt, m, act_of_error hresult⟩

theorem write {r : UInt16} (hr : r ∈ D) (value : Handle) : Writes D (Step.write r value) := by
  intro s
  refine ⟨fun x s' h => ?_, fun halt s' h => (by cases h)⟩
  obtain ⟨_, rfl⟩ := EStateM.Result.ok.inj h
  exact .set .none hr value

theorem writeAll {first : UInt16} {values : List Handle}
    (h : ∀ k < values.length, first + UInt16.ofNat k ∈ D) :
    Writes D (Step.writeAll first values) := by
  induction values generalizing first with
  | nil => exact .pure ()
  | cons value values ih =>
    have hfirst : first ∈ D := by simpa using h 0 (by simp)
    refine (Writes.write hfirst value).bind fun _ => ih fun k hk => ?_
    rw [Frame.next_add_ofNat]
    exact h (k + 1) (by simpa using hk)

theorem writeResult {r : UInt16} (hr : r ∈ D) (action : Action Handle) :
    Writes D (Step.writeResult r action) :=
  (Writes.act action).bind fun value => .write hr value

theorem write_self (r : UInt16) (value : Handle) : Writes [r] (Step.write r value) :=
  .write (List.mem_singleton_self r) value

theorem writeResult_self (r : UInt16) (action : Action Handle) :
    Writes [r] (Step.writeResult r action) :=
  .writeResult (List.mem_singleton_self r) action

theorem read (r : UInt16) : Writes D (Step.read r) := .of_looks (looks_read r)

theorem view (question : Frame → α) : Writes D (Step.view question) := .of_looks (looks_view question)

theorem fail (fault : Fault) : Writes D (Step.fail fault : Step α) := .of_looks (looks_fail fault)

theorem symbol (index : UInt16) : Writes D (Step.symbol index) := .of_looks (looks_symbol index)

theorem literal (index : UInt16) : Writes D (Step.literal index) := .of_looks (looks_literal index)

theorem child (index : UInt16) : Writes D (Step.child index) := .of_looks (looks_child index)

theorem discard {a : Step α} (ha : Writes D a) : Writes D (Functor.discard a) :=
  ha.bind fun _ => .pure ()

end Writes

/-! ### Single instructions -/

variable (e : Engine)

theorem writes_getClassVar (r : UInt16) (name : String) : Writes [r] (getClassVar r name) := by
  refine (Writes.view _).bind fun target => (Writes.act _).bind fun holder => ?_
  cases holder with
  | some holder => exact .writeResult_self r _
  | none => exact .fail _

theorem writes_setClassVar (r : UInt16) (name : String) : Writes D (setClassVar r name) := by
  refine (Writes.view _).bind fun target => (Writes.act _).bind fun holder => ?_
  exact (Writes.read r).bind fun value => .act _

theorem writes_sendRow (name : String) (a count : UInt16) : Writes D (sendRow e name a count) :=
  (Writes.read a).bind fun _ => (Writes.view _).bind fun _ => .act _

theorem writes_operator (name : String) (a : UInt16) : Writes [a] (operator e name a) :=
  (writes_sendRow e name a 1).bind fun _ => .write_self a _

theorem writes_operatorWith (name : String) (a value : UInt16) :
    Writes [a] (operatorWith e name a value) :=
  (Writes.act _).bind fun _ => (Writes.read a).bind fun _ => .writeResult_self a _

theorem writes_arguments (op : Opcode) (a packed : UInt16) : Writes D (arguments op a packed) := by
  unfold arguments
  dsimp only
  split
  · exact .fail _
  · split
    · exact (Writes.read _).bind fun _ => (Writes.act _).bind fun _ => .pure _
    · exact (Writes.view _).bind fun _ => .pure _

theorem writes_refuseBlock (i : Instruction) (used : UInt16) : Writes D (refuseBlock i used) := by
  refine (Writes.read _).bind fun block => ?_
  split
  · exact .fail _
  · exact .pure ()

theorem writes_sendTo (i : Instruction) (receiver : Handle) (block : Bool) :
    Writes [i.a] (sendTo e i receiver block) := by
  refine (writes_arguments i.op i.a i.c).bind fun ⟨args, used⟩ => ?_
  have hsend : Writes [i.a] (do
      let name ← symbol i.b
      writeResult i.a (e.send receiver name args)) :=
    (Writes.symbol i.b).bind fun _ => .writeResult_self i.a _
  cases block with
  | false => exact hsend
  | true => exact (writes_refuseBlock i used).bind fun _ => hsend

theorem writes_superSend (i : Instruction) : Writes [i.a] (superSend e i) := by
  refine (Writes.view _).bind fun active => ?_
  cases active with
  | none => exact .fail _
  | some active =>
    refine (writes_arguments i.op i.a i.b).bind fun ⟨args, _⟩ => (Writes.view _).bind fun self => ?_
    exact (Writes.act _).bind fun found => .writeResult_self i.a _

theorem writes_appendItems (h : Handle) (items : List Handle) : Writes D (appendItems h items) :=
  (Writes.act _).discard.bind fun _ => .act _

theorem writes_arrayCat (a : UInt16) : Writes [a] (arrayCat a) := by
  refine (Writes.read _).bind fun source => (Writes.act _).bind fun items => ?_
  refine (Writes.read a).bind fun target => ?_
  split
  · exact .writeResult_self a _
  · exact writes_appendItems target items

theorem writes_arrayRef (i : Instruction) : Writes [i.a] (arrayRef i) := by
  refine (Writes.read _).bind fun source => (Writes.act _).bind fun items => ?_
  cases items with
  | some items => exact .write_self i.a _
  | none => exact .write_self i.a _

theorem writes_arraySet (i : Instruction) : Writes D (arraySet i) :=
  (Writes.read _).bind fun _ => (Writes.read _).bind fun _ =>
    (Writes.act _).discard.bind fun _ => .act _

/-- The tail has as many items as the instruction says, so it ends at the last destination. -/
theorem writes_arrayPost (a b c : UInt16) :
    Writes (Instruction.destinations { op := .arrayPost, a, b, c })
      (arrayPost { op := .arrayPost, a, b, c }) := by
  have hmem (k : Nat) (hk : k ≤ c.toNat) :
      a + UInt16.ofNat k ∈ Instruction.destinations { op := .arrayPost, a, b, c } :=
    List.mem_map.mpr ⟨k, List.mem_range.mpr (Nat.lt_succ_of_le hk), rfl⟩
  refine (Writes.read a).bind fun source => (Writes.act _).bind fun items => ?_
  have hcount := (destructures_splitPost items b.toNat c.toNat).count
  refine (Writes.writeResult ?_ _).bind fun _ => .writeAll fun k hk => ?_
  · simpa using hmem 0 (Nat.zero_le _)
  · rw [Frame.next_add_ofNat]
    exact hmem (k + 1) (hcount ▸ hk)

theorem writes_strCat (a : UInt16) : Writes D (strCat e a) := by
  refine (Writes.read _).bind fun piece => (Writes.act _).bind fun known => ?_
  have hrest (text : String) : Writes D (do
      let target ← read a
      discard (act (Action.demand (·.string target)))
      act (Action.changeObject target (·.mapText (· ++ text)))) :=
    (Writes.read a).bind fun _ => (Writes.act _).discard.bind fun _ => .act _
  cases known with
  | some text => exact hrest text
  | none => exact (Writes.act _).bind hrest

theorem writes_intern (a : UInt16) : Writes [a] (intern a) :=
  (Writes.read a).bind fun _ => (Writes.act _).bind fun _ => .writeResult_self a _

theorem writes_hashAdd (a count : UInt16) : Writes D (hashAdd a count) :=
  (Writes.read a).bind fun _ => (Writes.act _).discard.bind fun _ =>
    (Writes.view _).bind fun _ => .act _

theorem writes_hashCat (a : UInt16) : Writes D (hashCat a) := by
  refine (Writes.read a).bind fun h => (Writes.act _).discard.bind fun _ => ?_
  refine (Writes.read _).bind fun other => ?_
  split
  · exact (Writes.act _).bind fun _ => .act _
  · exact .pure ()

theorem writes_range (a : UInt16) (exclusive : Bool) : Writes [a] (range a exclusive) :=
  (Writes.read a).bind fun _ => (Writes.read _).bind fun _ => .writeResult_self a _

theorem writes_openClass (i : Instruction) : Writes [i.a] (openClass i) :=
  (Writes.read _).bind fun _ => (Writes.symbol _).bind fun _ => .writeResult_self i.a _

theorem writes_execBody (i : Instruction) : Writes [i.a] (execBody e i) :=
  (Writes.read _).bind fun _ => (Writes.child _).bind fun _ => .writeResult_self i.a _

theorem writes_defMethod (i : Instruction) : Writes [i.a] (defMethod i) := by
  refine (Writes.symbol _).bind fun name => (Writes.read _).bind fun body => ?_
  refine (Writes.act _).bind fun method => (Writes.read _).bind fun c => ?_
  exact (Writes.act _).bind fun _ => .writeResult_self i.a _

theorem writes_undefMethod (index : UInt16) : Writes D (undefMethod index) :=
  (Writes.symbol _).bind fun _ => (Writes.view _).bind fun _ => .act _

/-! ### All of them -/

theorem writes_execute (i : Instruction) : Writes i.destinations (execute e i) := by
  obtain ⟨op, a, b, c⟩ := i
  cases op with
  | nop | enter | debug => exact .pure ()
  | move => exact (Writes.read b).bind fun _ => .write_self a _
  | loadLit | string | symbol => exact (Writes.literal b).bind fun _ => .writeResult_self a _
  | loadInt | loadNeg | loadMinusOne | load0 | load1 | load2 | load3 | load4 | load5 | load6 | load7
  | loadInt16 | loadInt32 => exact .writeResult_self a _
  | loadSym | getGlobal | getConst | openModule =>
    exact (Writes.symbol b).bind fun _ => .writeResult_self a _
  | loadNil | loadTrue | loadFalse | objectClass => exact .write_self a _
  | loadSelf | targetClass => exact (Writes.view _).bind fun _ => .write_self a _
  | setGlobal | setConst =>
    exact (Writes.symbol b).bind fun _ => (Writes.read a).bind fun _ => .act _
  | getIvar =>
    exact (Writes.symbol b).bind fun _ => (Writes.view _).bind fun _ => .writeResult_self a _
  | setIvar =>
    refine (Writes.symbol b).bind fun _ => (Writes.view _).bind fun _ => ?_
    exact (Writes.read a).bind fun _ => .act _
  | getClassVar => exact (Writes.symbol b).bind fun name => writes_getClassVar a name
  | setClassVar => exact (Writes.symbol b).bind fun name => writes_setClassVar a name
  | getIndex | add | sub | mul | div | eq | lt | le | gt | ge => exact writes_operator e _ a
  | setIndex => exact (writes_sendRow e _ a 2).discard
  | selfSend | selfSendBlk => exact (Writes.view _).bind fun self => writes_sendTo e _ self _
  | send | sendBlk => exact (Writes.read a).bind fun receiver => writes_sendTo e _ receiver _
  | superSend => exact writes_superSend e _
  | addInt | subInt => exact writes_operatorWith e _ a b
  | array | arrayFrom | hash => exact (Writes.view _).bind fun _ => .writeResult_self a _
  | arrayCat => exact writes_arrayCat a
  | arrayPush =>
    exact (Writes.read a).bind fun h => (Writes.view _).bind (writes_appendItems h)
  | arrayDup =>
    exact (Writes.read a).bind fun _ => (Writes.act _).bind fun _ => .writeResult_self a _
  | arrayRef => exact writes_arrayRef _
  | arraySet => exact writes_arraySet _
  | arrayPost => exact writes_arrayPost a b c
  | intern => exact writes_intern a
  | strCat => exact writes_strCat e a
  | hashAdd => exact writes_hashAdd a b
  | hashCat => exact writes_hashCat a
  | rangeInc | rangeExc => exact writes_range a _
  | openClass => exact writes_openClass _
  | execBody => exact writes_execBody e _
  | method => exact (Writes.child b).bind fun _ => .writeResult_self a _
  | defMethod => exact writes_defMethod _
  | undefMethod => exact writes_undefMethod a
  | singletonClass => exact (Writes.read a).bind fun _ => .writeResult_self a _
  | raiseLiteral => exact (Writes.literal a).bind fun _ => .fail _
  | _ => exact .fail _

theorem writes_take (p : Placed) : Writes p.instruction.destinations (take e p) := by
  unfold take
  dsimp only
  split
  · exact .of_looks (looks_jump p)
  · exact (Writes.read _).bind fun _ => .of_looks (looks_jumpWhen _ p)
  · exact (Writes.read _).bind fun _ => .of_looks (looks_jumpWhen _ p)
  · exact (Writes.read _).bind fun _ => .of_looks (looks_jumpWhen _ p)
  · refine (Writes.view _).bind fun count => ?_
    split
    · exact .fail _
    · exact .of_looks (looks_jump p)
  · exact (Writes.read _).bind fun _ => .pure _
  · exact (Writes.read _).bind fun _ => .pure _
  · exact .pure _
  · exact (writes_execute e _).bind fun _ => .pure _

theorem confined_take (p : Placed) : Confined p.instruction.destinations (take e p) :=
  (writes_take e p).confined

end Step

/-- **Instructions write to their destinations only.**  If an instruction goes well, all registers but
its destinations read as they did, and `self`, the target class and the active method are the same.  The
engine is any: it may call whatever methods and evaluate whatever class bodies it likes. -/
theorem destinations_confine (e : Engine) (p : Placed) {s s' : Activation} {flow : Flow}
    (h : Step.take e p s = .ok flow s') :
    (∀ r ∉ p.instruction.destinations, s'.frame.get r = s.frame.get r) ∧
      s'.frame.context = s.frame.context :=
  have hsame := Step.confined_take e p s flow s' h
  ⟨hsame.registers, hsame.context⟩

/-- A class body that overwrites the first registers of its own frame. -/
def clobberingBody : Record where
  registerCount := 3
  code :=
    { placed :=
        #[⟨0, { op := .loadInt, a := 1, b := 100 }⟩, ⟨3, { op := .loadInt, a := 2, b := 100 }⟩,
          ⟨6, { op := .ret, a := 1 }⟩]
      size := 8 }

/-- A frame that is about to evaluate that body for `Object`, with `true` in the register behind. -/
def clobberingFrame : Activation where
  frame :=
    { record := { registerCount := 3, children := [clobberingBody] }
      registers := #[Handle.mainObject, Handle.objectClass, Handle.yes]
      context := .topLevel }
  machine := .boot

/-- The body writes to its own second register and the caller's is still `true`.  Its answer, the first
of the two numbers it made, is in the caller's first. -/
theorem destinations_confine_clobberingFrame :
    ∃ s', Step.take (Run.engine 5) ⟨0, { op := .execBody, a := 1, b := 0 }⟩ clobberingFrame =
        .ok .next s' ∧
      s'.frame.get 1 = ⟨18⟩ ∧ s'.frame.get 2 = Handle.yes ∧
      s'.frame.context = clobberingFrame.frame.context := by
  obtain ⟨s', htake, hanswer⟩ : ∃ s', Step.take (Run.engine 5)
      ⟨0, { op := .execBody, a := 1, b := 0 }⟩ clobberingFrame = .ok .next s' ∧
      s'.frame.get 1 = ⟨18⟩ := ⟨_, rfl, rfl⟩
  obtain ⟨hregisters, hcontext⟩ := destinations_confine _ _ htake
  exact ⟨s', htake, hanswer, hregisters 2 (by decide), hcontext⟩

/-! ## Whole runs -/

/-- The position that control goes to from `position`, if it stays in the frame. -/
def Flow.position? (position : Nat) : Flow → Option Nat
  | .next => some (position + 1)
  | .jump target => some target
  | .leave _ => none

/-- The evaluation of a frame gets from one position and state to another by `n` instructions. -/
inductive Activation.Reaches (e : Engine) : Nat → Nat → Activation → Nat → Activation → Prop
  | refl (position : Nat) (s : Activation) : Reaches e 0 position s position s
  | step {n position position' position'' : Nat} {s s' s'' : Activation} {p : Placed} {flow : Flow}
      (hp : s.frame.record.code.placed[position]? = some p) (htake : Step.take e p s = .ok flow s')
      (hflow : flow.position? position = some position') (h : Reaches e n position' s' position'' s'') :
      Reaches e (n + 1) position s position'' s''

/-- What is reached is where a run goes on. -/
theorem Activation.Reaches.run_eq {e : Engine} {n position position' : Nat} {s s' : Activation}
    (h : Reaches e n position s position' s') (rounds : Nat) :
    Frame.run e (n + rounds) position s = Frame.run e rounds position' s' := by
  induction h with
  | refl => rw [Nat.zero_add]
  | @step n position _ _ s _ _ _ flow hp htake hflow _ ih =>
    rw [Nat.add_right_comm, Frame.run, hp]
    dsimp only
    rw [htake]
    cases flow with
    | next =>
      cases hflow
      exact ih
    | jump =>
      cases hflow
      exact ih
    | leave => cases hflow

/-- The destinations of all instructions of a section. -/
def Code.destinations (c : Code) : List UInt16 :=
  c.placed.toList.flatMap fun p => p.instruction.destinations

/-- **A register that no instruction of the code has as its destination never changes**, however long
the frame is evaluated. -/
theorem Activation.Reaches.sameBut {e : Engine} {n position position' : Nat} {s s' : Activation}
    (h : Reaches e n position s position' s') :
    s.frame.SameBut s.frame.record.code.destinations s'.frame := by
  induction h with
  | refl => exact .refl _ _
  | @step n position _ _ s _ _ p _ hp htake _ _ ih =>
    have hone := Step.confined_take e p _ _ _ htake
    rw [hone.record] at ih
    refine (hone.mono fun r hr => ?_).trans ih
    have hmem : p ∈ s.frame.record.code.placed.toList :=
      Array.mem_toList_iff.mpr (Array.mem_of_getElem? hp)
    exact List.mem_flatMap.mpr ⟨p, hmem, hr⟩

end Rite
