import Rite.Machine.Boot
import Rite.Proofs.AlikeFrame
import Rite.Proofs.FailedSteps

/-!
# Shorthands for sends

Many instructions come down to sending a message.  They gather the receiver and the arguments in
different ways, but once these are gathered there is only one way on: the message is sent, and the
answer goes to `R[a]`.  `Frame.deliver` is this last part and `Frame.message` is what the operands of a
send stand for, and each instruction is described by the two (`Step.take_send`, `Step.take_operator`).
That one instruction can be put for another is then a comparison of messages.

A send with keyword arguments is refused, and the refusal names the instruction.  In this one place a
send with a block and one without can be told apart although there is no block.
-/

namespace Rite

/-- How many keyword arguments the operand of a send stands for. -/
def Instruction.keywordCount (packed : UInt16) : UInt16 := (packed >>> 4) &&& 0x0F

/-- How many registers the arguments of a send occupy.  Fifteen arguments stand for one array. -/
def Instruction.argumentRegisters (packed : UInt16) : UInt16 :=
  if packed &&& 0x0F = 15 then 1 else packed &&& 0x0F

theorem Instruction.and_eq_of_lt {count : UInt16} (hcount : count.toNat < 15) :
    count &&& 0x0F = count := by
  apply UInt16.toNat_inj.mp
  rw [UInt16.toNat_and]
  exact Nat.and_two_pow_sub_one_of_lt_two_pow (n := 4) (by omega)

theorem Instruction.keywordCount_of_lt {count : UInt16} (hcount : count.toNat < 15) :
    Instruction.keywordCount count = 0 := by
  have hshift : count.toNat >>> 4 = 0 := by
    rw [Nat.shiftRight_eq_div_pow]
    omega
  apply UInt16.toNat_inj.mp
  unfold Instruction.keywordCount
  rw [UInt16.toNat_and, UInt16.toNat_shiftRight]
  simp [hshift]

namespace Frame

/-! ## Registers -/

variable {f : Frame} {m : Machine}

theorem get_set (f : Frame) (r r' : UInt16) (value : Handle) :
    (f.set r value).get r' = if r' = r then value else f.get r' := by
  unfold get set
  rw [Items.getD_put]
  simp only [UInt16.toNat_inj]

@[simp]
theorem get_set_self (f : Frame) (r : UInt16) (value : Handle) : (f.set r value).get r = value := by
  rw [get_set, if_pos rfl]

@[simp]
theorem set_set (f : Frame) (r : UInt16) (value value' : Handle) :
    (f.set r value).set r value' = f.set r value' := by
  unfold set
  rw [Items.put_put]

theorem span_one (f : Frame) (r : UInt16) : f.span r 1 = [f.get r] := by
  show [f.get (r + UInt16.ofNat 0)] = [f.get r]
  simp

/-- A span that the register is not in. -/
theorem span_set {first count r : UInt16} (value : Handle)
    (hr : ∀ i < count.toNat, first + UInt16.ofNat i ≠ r) :
    (f.set r value).span first count = f.span first count := by
  unfold span
  refine List.map_congr_left fun i hi => ?_
  rw [get_set, if_neg (hr i (List.mem_range.mp hi))]

/-! ## Messages -/

/-- The arguments that a send without keywords finds behind register `a`. -/
def arguments (f : Frame) (m : Machine) (a packed : UInt16) : Except Fault (List Handle) :=
  if packed &&& 0x0F = 15 then (m.array (f.get (a + 1))).map (·.toList)
  else .ok (f.span (a + 1) (packed &&& 0x0F))

/-- The name that an operand stands for. -/
def selector (f : Frame) (index : UInt16) : Except Fault String :=
  match f.record.symbols[index.toNat]? with
  | some name => .ok name
  | none => .error (.indexOutOfRange "symbol table" index.toNat f.record.symbols.length)

/-- The receiver of a send. -/
def receiver (f : Frame) (toSelf : Bool) (a : UInt16) : Handle :=
  if toSelf then f.context.self else f.get a

/-- The message that the operands of a send without keywords stand for. -/
def message (f : Frame) (m : Machine) (a b packed : UInt16) : Except Fault (String × List Handle) := do
  let args ← f.arguments m a packed
  return (← f.selector b, args)

/-- Up to fourteen arguments stand in registers of their own. -/
theorem message_of_few {count : UInt16} (a b : UInt16) (hcount : count.toNat < 15) :
    f.message m a b count = do return (← f.selector b, f.span (a + 1) count) := by
  have hmasked := Instruction.and_eq_of_lt hcount
  have hne : count ≠ 15 := fun h => by simp [h] at hcount
  unfold message arguments
  rw [hmasked, if_neg hne]
  rfl

theorem message_of_name {a b count : UInt16} {name : String} (hcount : count.toNat < 15)
    (hname : f.record.symbols[b.toNat]? = some name) :
    f.message m a b count = .ok (name, f.span (a + 1) count) := by
  rw [message_of_few a b hcount]
  unfold selector
  rw [hname]
  rfl

/-- Fifteen arguments stand for the items of one array. -/
theorem message_of_array {items : Array Handle} (a b : UInt16)
    (hitems : m.array (f.get (a + 1)) = .ok items) :
    f.message m a b 15 = do return (← f.selector b, items.toList) := by
  unfold message arguments
  rw [if_pos (by decide), hitems]
  rfl

/-- No message looks at register `a`, where its answer will go. -/
theorem message_set (value : Handle) (a b packed : UInt16) :
    (f.set a value).message m a b packed = f.message m a b packed := by
  have hbehind : ∀ i < (packed &&& 0x0F).toNat, a + 1 + UInt16.ofNat i ≠ a := by
    intro i hi h
    have hle : (packed &&& 0x0F).toNat ≤ 15 := by
      rw [UInt16.toNat_and]
      exact Nat.and_le_right
    have htoNat := congrArg UInt16.toNat h
    have hone : (1 : UInt16).toNat = 1 := rfl
    have ha := a.toNat_lt
    rw [UInt16.toNat_add, UInt16.toNat_add, UInt16.toNat_ofNat', hone] at htoNat
    omega
  have hnext : a + 1 ≠ a := by simp
  unfold message arguments
  rw [span_set value hbehind, get_set, if_neg hnext]
  rfl

/-- Send a message and put the answer into register `a`. -/
def deliver (e : Engine) (f : Frame) (m : Machine) (a : UInt16) (receiver : Handle) :
    Except Fault (String × List Handle) → EStateM.Result Halt Activation Unit
  | .error fault => .error (.fault fault) ⟨f, m⟩
  | .ok (name, args) => Step.writeResult a (e.send receiver name args) ⟨f, m⟩

section Deliver

variable {e : Engine} {m₁ : Machine} {a : UInt16} {receiver : Handle} {name : String}
  {args : List Handle}

theorem deliver_of_ok {value : Handle} (h : e.send receiver name args m = .ok value m₁) :
    f.deliver e m a receiver (.ok (name, args)) = .ok () ⟨f.set a value, m₁⟩ := by
  have hact : Step.act (e.send receiver name args) ⟨f, m⟩ = .ok value ⟨f, m₁⟩ := Step.act_of_ok h
  exact carryOn_of_ok hact

theorem deliver_of_error {halt : Halt} (h : e.send receiver name args m = .error halt m₁) :
    f.deliver e m a receiver (.ok (name, args)) = .error halt ⟨f, m₁⟩ := by
  have hact : Step.act (e.send receiver name args) ⟨f, m⟩ = .error halt ⟨f, m₁⟩ := Step.act_of_error h
  exact carryOn_of_error hact

end Deliver

end Frame

namespace Step

variable (e : Engine) {f : Frame} {m : Machine} {a b c : UInt16}

theorem arguments_eq (op : Opcode) (hc : Instruction.keywordCount c = 0) :
    arguments op a c ⟨f, m⟩ =
      match f.arguments m a c with
      | .ok args => .ok (args, Instruction.argumentRegisters c) ⟨f, m⟩
      | .error fault => .error (.fault fault) ⟨f, m⟩ := by
  have hnone : ¬ (c >>> 4) &&& 0x0F ≠ 0 := not_not_intro hc
  unfold arguments Frame.arguments Instruction.argumentRegisters
  rw [if_neg hnone]
  split
  · have hrow : read (a + 1) ⟨f, m⟩ = .ok (f.get (a + 1)) ⟨f, m⟩ := rfl
    rw [carryOn_of_ok hrow]
    cases hitems : m.array (f.get (a + 1)) with
    | ok items =>
      rw [carryOn_of_ok (demand_of_ok hitems)]
      rfl
    | error fault =>
      rw [carryOn_of_error (demand_of_error hitems)]
      rfl
  · rfl

theorem symbol_eq (f : Frame) (m : Machine) (b : UInt16) :
    symbol b ⟨f, m⟩ =
      match f.selector b with
      | .ok name => .ok name ⟨f, m⟩
      | .error fault => .error (.fault fault) ⟨f, m⟩ := by
  have hentries : view (fun f => f.record.symbols) ⟨f, m⟩ = .ok f.record.symbols ⟨f, m⟩ := rfl
  unfold symbol entry Frame.selector
  rw [carryOn_of_ok hentries]
  cases f.record.symbols[b.toNat]? <;> rfl

theorem refuseBlock_of_nil {op : Opcode} {used : UInt16} (h : f.get (a + used + 1) = Handle.nil) :
    refuseBlock { op, a, b, c } used ⟨f, m⟩ = .ok () ⟨f, m⟩ := by
  have hread : read (a + used + 1) ⟨f, m⟩ = .ok Handle.nil ⟨f, m⟩ := by rw [← h]; rfl
  unfold refuseBlock
  rw [carryOn_of_ok hread]
  rfl

theorem sendNamed_eq (receiver : Handle) (args : List Handle) :
    (symbol b >>= fun name => writeResult a (e.send receiver name args)) ⟨f, m⟩ =
      f.deliver e m a receiver (do return (← f.selector b, args)) := by
  have hsymbol := symbol_eq f m b
  cases hname : f.selector b with
  | error fault =>
    rw [hname] at hsymbol
    exact carryOn_of_error hsymbol
  | ok name =>
    rw [hname] at hsymbol
    exact carryOn_of_ok hsymbol

/-- A send without keywords delivers its message, if there is no block in the register for one. -/
theorem sendTo_eq {op : Opcode} {block : Bool} (receiver : Handle)
    (hc : Instruction.keywordCount c = 0)
    (hblock : block = true → f.get (a + Instruction.argumentRegisters c + 1) = Handle.nil) :
    sendTo e { op, a, b, c } receiver block ⟨f, m⟩ =
      f.deliver e m a receiver (f.message m a b c) := by
  unfold sendTo Frame.message
  have harguments := arguments_eq (f := f) (m := m) (a := a) op hc
  cases hargs : f.arguments m a c with
  | error fault =>
    rw [hargs] at harguments
    exact carryOn_of_error harguments
  | ok args =>
    rw [hargs] at harguments
    rw [carryOn_of_ok harguments]
    cases block with
    | true =>
      refine Eq.trans ?_ (sendNamed_eq e receiver args)
      exact carryOn_of_ok (refuseBlock_of_nil (hblock rfl))
    | false => exact sendNamed_eq e receiver args

/-- A send with keywords is refused, whatever is in the registers. -/
theorem sendTo_of_keywords {op : Opcode} {block : Bool} (receiver : Handle)
    (hc : Instruction.keywordCount c ≠ 0) :
    sendTo e { op, a, b, c } receiver block ⟨f, m⟩ =
      .error (.fault (.notImplemented op)) ⟨f, m⟩ := by
  have harguments : arguments op a c ⟨f, m⟩ = .error (.fault (.notImplemented op)) ⟨f, m⟩ := by
    have hsome : (c >>> 4) &&& 0x0F ≠ 0 := hc
    unfold arguments
    rw [if_pos hsome]
    rfl
  exact carryOn_of_error harguments

theorem operator_eq (name : String) :
    operator e name a ⟨f, m⟩ = f.deliver e m a (f.get a) (.ok (name, f.span (a + 1) 1)) := rfl

/-- An operator with an immediate operand: the operand is made before the message is sent. -/
theorem operatorWith_eq (name : String) {operand : Handle} {m₁ : Machine}
    (hnew : Action.newInteger (Int64.ofInt b.toNat) m = .ok operand m₁) :
    operatorWith e name a b ⟨f, m⟩ = f.deliver e m₁ a (f.get a) (.ok (name, [operand])) := by
  have hact : act (Action.newInteger (Int64.ofInt b.toNat)) ⟨f, m⟩ = .ok operand ⟨f, m₁⟩ :=
    act_of_ok hnew
  have hread : read a ⟨f, m₁⟩ = .ok (f.get a) ⟨f, m₁⟩ := rfl
  unfold operatorWith
  rw [carryOn_of_ok hact, carryOn_of_ok hread]
  rfl

/-- Go on to the next instruction, if this one ended well. -/
def next : EStateM.Result Halt Activation Unit → EStateM.Result Halt Activation Flow
  | .ok _ s => .ok .next s
  | .error halt s => .error halt s

theorem andNext_eq (step : Step Unit) (s : Activation) :
    (step >>= fun _ => pure Flow.next) s = next (step s) := by
  show EStateM.bind step (fun _ => pure Flow.next) s = next (step s)
  unfold EStateM.bind
  cases step s <;> rfl

/-- Carry out one instruction, and then another if control goes on to the next. -/
def takeBoth (e : Engine) (p q : Placed) : Step Flow := do
  match ← take e p with
  | .next => take e q
  | flow => return flow

/-- Two outcomes with the same machine and, if they are no errors, the same flow and frames that are
related by `R`.  Errors are the same, and the frame of an error is given up. -/
inductive Agree (R : Frame → Frame → Prop) :
    EStateM.Result Halt Activation Flow → EStateM.Result Halt Activation Flow → Prop
  | ok {f g : Frame} {flow : Flow} {m : Machine} (h : R f g) :
      Agree R (.ok flow ⟨f, m⟩) (.ok flow ⟨g, m⟩)
  | error {f g : Frame} {halt : Halt} {m : Machine} :
      Agree R (.error halt ⟨f, m⟩) (.error halt ⟨g, m⟩)

/-- The same message to the same receiver, from two frames. -/
theorem agree_deliver {R : Frame → Frame → Prop} {f g : Frame} (receiver : Handle)
    (message : Except Fault (String × List Handle))
    (hR : ∀ value, R (f.set a value) (g.set a value)) :
    Agree R (next (f.deliver e m a receiver message)) (next (g.deliver e m a receiver message)) := by
  cases message with
  | error fault => exact .error
  | ok message =>
    obtain ⟨name, args⟩ := message
    cases hsend : e.send receiver name args m with
    | ok value m₁ =>
      rw [Frame.deliver_of_ok hsend, Frame.deliver_of_ok hsend]
      exact .ok (hR value)
    | error halt m₁ =>
      rw [Frame.deliver_of_error hsend, Frame.deliver_of_error hsend]
      exact .error

end Step

/-! ## The instructions -/

/-- The instructions for operators, with the names of the messages they send. -/
def Opcode.operators : List (Opcode × String) :=
  [(.add, "+"), (.sub, "-"), (.mul, "*"), (.div, "/"), (.eq, "=="), (.lt, "<"), (.le, "<="),
    (.gt, ">"), (.ge, ">="), (.getIndex, "[]")]

/-- The operators with an immediate operand, with those that take it from a register. -/
def Opcode.immediates : List (Opcode × Opcode) := [(.addInt, .add), (.subInt, .sub)]

/-- The sends: whether the receiver is `self`, and whether there is a register for a block. -/
def Opcode.sends : List (Opcode × Bool × Bool) :=
  [(.send, false, false), (.sendBlk, false, true), (.selfSend, true, false), (.selfSendBlk, true, true)]

theorem Opcode.send_mem_sends : (.send, false, false) ∈ Opcode.sends := by decide

theorem Opcode.selfSend_mem_sends : (.selfSend, true, false) ∈ Opcode.sends := by decide

/-- The sends with a register for a block, with those without. -/
def Opcode.blockSends : List (Opcode × Opcode) := [(.sendBlk, .send), (.selfSendBlk, .selfSend)]

namespace Step

variable (e : Engine) (offset : Nat) (f : Frame) (m : Machine) (a b c : UInt16)

theorem take_operator {op : Opcode} {name : String} (hop : (op, name) ∈ Opcode.operators) :
    take e ⟨offset, { op, a, b, c }⟩ ⟨f, m⟩ =
      next (f.deliver e m a (f.get a) (.ok (name, f.span (a + 1) 1))) := by
  have htake : take e ⟨offset, { op, a, b, c }⟩ ⟨f, m⟩ =
      (operator e name a >>= fun _ => pure Flow.next) ⟨f, m⟩ := by
    simp only [Opcode.operators, List.mem_cons, Prod.mk.injEq, List.not_mem_nil, or_false] at hop
    rcases hop with ⟨rfl, rfl⟩ | ⟨rfl, rfl⟩ | ⟨rfl, rfl⟩ | ⟨rfl, rfl⟩ | ⟨rfl, rfl⟩ | ⟨rfl, rfl⟩ |
      ⟨rfl, rfl⟩ | ⟨rfl, rfl⟩ | ⟨rfl, rfl⟩ | ⟨rfl, rfl⟩ <;> rfl
  rw [htake, andNext_eq, operator_eq]

theorem take_eq_sendTo {op : Opcode} {toSelf block : Bool} (hop : (op, toSelf, block) ∈ Opcode.sends) :
    take e ⟨offset, { op, a, b, c }⟩ ⟨f, m⟩ =
      next (sendTo e { op, a, b, c } (f.receiver toSelf a) block ⟨f, m⟩) := by
  have htake : take e ⟨offset, { op, a, b, c }⟩ ⟨f, m⟩ =
      (view (·.receiver toSelf a) >>= (sendTo e { op, a, b, c } · block) >>= fun _ => pure Flow.next)
        ⟨f, m⟩ := by
    simp only [Opcode.sends, List.mem_cons, Prod.mk.injEq, List.not_mem_nil, or_false] at hop
    rcases hop with ⟨rfl, rfl, rfl⟩ | ⟨rfl, rfl, rfl⟩ | ⟨rfl, rfl, rfl⟩ | ⟨rfl, rfl, rfl⟩ <;> rfl
  have hreceiver : view (·.receiver toSelf a) ⟨f, m⟩ = .ok (f.receiver toSelf a) ⟨f, m⟩ := rfl
  rw [htake, andNext_eq, carryOn_of_ok hreceiver]

variable {c}

/-- A send without keywords, and with no block in the register for one if it has it. -/
theorem take_send {op : Opcode} {toSelf block : Bool} (hop : (op, toSelf, block) ∈ Opcode.sends)
    (hc : Instruction.keywordCount c = 0)
    (hblock : block = true → f.get (a + Instruction.argumentRegisters c + 1) = Handle.nil) :
    take e ⟨offset, { op, a, b, c }⟩ ⟨f, m⟩ =
      next (f.deliver e m a (f.receiver toSelf a) (f.message m a b c)) := by
  rw [take_eq_sendTo e offset f m a b c hop, sendTo_eq e _ hc hblock]

theorem take_plainSend (hc : Instruction.keywordCount c = 0) :
    take e ⟨offset, { op := .send, a, b, c }⟩ ⟨f, m⟩ =
      next (f.deliver e m a (f.get a) (f.message m a b c)) := by
  have htake := take_send e offset f m a b Opcode.send_mem_sends hc (by simp)
  exact htake

theorem take_send_of_keywords {op : Opcode} {toSelf block : Bool}
    (hop : (op, toSelf, block) ∈ Opcode.sends) (hc : Instruction.keywordCount c ≠ 0) :
    take e ⟨offset, { op, a, b, c }⟩ ⟨f, m⟩ = .error (.fault (.notImplemented op)) ⟨f, m⟩ := by
  rw [take_eq_sendTo e offset f m a b c hop, sendTo_of_keywords e _ hc]
  rfl

/-- An indexed assignment sends its message and drops the answer. -/
theorem agree_setIndex (offset' : Nat) {s : UInt16} (hname : f.record.symbols[s.toNat]? = some "[]=") :
    Agree (fun g g' => g = f ∧ ∃ value, g' = f.set a value)
      (take e ⟨offset, { op := .setIndex, a, b, c }⟩ ⟨f, m⟩)
      (take e ⟨offset', { op := .send, a, b := s, c := 2 }⟩ ⟨f, m⟩) := by
  have htake : take e ⟨offset, { op := .setIndex, a, b, c }⟩ ⟨f, m⟩ =
      next (discard (act (e.send (f.get a) "[]=" (f.span (a + 1) 2))) ⟨f, m⟩) :=
    andNext_eq (discard (sendRow e "[]=" a 2)) ⟨f, m⟩
  rw [htake, take_plainSend e offset' f m a s (by decide), Frame.message_of_name (by decide) hname]
  cases hanswer : e.send (f.get a) "[]=" (f.span (a + 1) 2) m with
  | ok value m₁ =>
    have hdropped : discard (act (e.send (f.get a) "[]=" (f.span (a + 1) 2))) ⟨f, m⟩ =
        .ok () ⟨f, m₁⟩ := carryOn_of_ok (act_of_ok hanswer)
    rw [Frame.deliver_of_ok hanswer, hdropped]
    exact .ok ⟨rfl, value, rfl⟩
  | error halt m₁ =>
    have hdropped : discard (act (e.send (f.get a) "[]=" (f.span (a + 1) 2))) ⟨f, m⟩ =
        .error halt ⟨f, m₁⟩ := carryOn_of_error (act_of_error hanswer)
    rw [Frame.deliver_of_error hanswer, hdropped]
    exact .error

/-- An operator with an immediate operand is the operator after the operand has been loaded. -/
theorem agree_immediate (offset' offset'' : Nat) {op base : Opcode}
    (hop : (op, base) ∈ Opcode.immediates) :
    Agree (fun g g' => g.get a = g'.get a) (take e ⟨offset, { op, a, b, c }⟩ ⟨f, m⟩)
      (takeBoth e ⟨offset', { op := .loadInt, a := a + 1, b }⟩ ⟨offset'', { op := base, a }⟩
        ⟨f, m⟩) := by
  obtain ⟨operand, m₁, hnew⟩ :
      ∃ operand m₁, Action.newInteger (Int64.ofInt b.toNat) m = .ok operand m₁ :=
    Action.succeeds_allocate _ m
  have hload : take e ⟨offset', { op := .loadInt, a := a + 1, b }⟩ ⟨f, m⟩ =
      .ok .next ⟨f.set (a + 1) operand, m₁⟩ := by
    have hwrite : loadInteger (a + 1) b.toNat ⟨f, m⟩ = .ok () ⟨f.set (a + 1) operand, m₁⟩ :=
      carryOn_of_ok (act_of_ok hnew)
    exact carryOn_of_ok hwrite
  have hboth : takeBoth e ⟨offset', { op := .loadInt, a := a + 1, b }⟩ ⟨offset'', { op := base, a }⟩
      ⟨f, m⟩ = take e ⟨offset'', { op := base, a }⟩ ⟨f.set (a + 1) operand, m₁⟩ :=
    carryOn_of_ok hload
  obtain ⟨name, hname, htake⟩ : ∃ name, (base, name) ∈ Opcode.operators ∧
      take e ⟨offset, { op, a, b, c }⟩ ⟨f, m⟩ = next (operatorWith e name a b ⟨f, m⟩) := by
    simp only [Opcode.immediates, List.mem_cons, Prod.mk.injEq, List.not_mem_nil, or_false] at hop
    rcases hop with ⟨rfl, rfl⟩ | ⟨rfl, rfl⟩
    · exact ⟨"+", by decide, andNext_eq _ _⟩
    · exact ⟨"-", by decide, andNext_eq _ _⟩
  have hne : a ≠ a + 1 := by simp
  have hreceiver : (f.set (a + 1) operand).get a = f.get a := by rw [Frame.get_set, if_neg hne]
  have hspan : (f.set (a + 1) operand).span (a + 1) 1 = [operand] := by
    rw [Frame.span_one, Frame.get_set_self]
  rw [hboth, htake, take_operator e offset'' _ m₁ a 0 0 hname, operatorWith_eq e name hnew, hreceiver,
    hspan]
  exact agree_deliver e _ _ fun value => by simp

/-- A send to `self` is a send after `self` has been loaded. -/
theorem agree_selfSend (offset' offset'' : Nat) (hc : Instruction.keywordCount c = 0) :
    Agree Eq (take e ⟨offset, { op := .selfSend, a, b, c }⟩ ⟨f, m⟩)
      (takeBoth e ⟨offset', { op := .loadSelf, a }⟩ ⟨offset'', { op := .send, a, b, c }⟩
        ⟨f, m⟩) := by
  have hboth : takeBoth e ⟨offset', { op := .loadSelf, a }⟩ ⟨offset'', { op := .send, a, b, c }⟩
      ⟨f, m⟩ = take e ⟨offset'', { op := .send, a, b, c }⟩ ⟨f.set a f.context.self, m⟩ := rfl
  have hsend := take_send e offset f m a b Opcode.selfSend_mem_sends hc (by simp)
  rw [hboth, hsend, take_plainSend e offset'' _ m a b hc, Frame.message_set, Frame.get_set_self]
  exact agree_deliver e _ _ fun value => (f.set_set a f.context.self value).symm

/-- An array of arguments stands for its items. -/
theorem agree_array (offset' : Nat) {items : Array Handle} {g : Frame}
    (hitems : m.array (f.get (a + 1)) = .ok items) (hsize : items.size < 15)
    (hrecord : g.record = f.record) (hreceiver : g.get a = f.get a)
    (hspan : g.span (a + 1) (UInt16.ofNat items.size) = items.toList) :
    Agree (fun g g' => g.get a = g'.get a)
      (take e ⟨offset, { op := .send, a, b, c := 15 }⟩ ⟨f, m⟩)
      (take e ⟨offset', { op := .send, a, b, c := UInt16.ofNat items.size }⟩ ⟨g, m⟩) := by
  have hcount : (UInt16.ofNat items.size).toNat < 15 := by
    rw [UInt16.toNat_ofNat']
    omega
  have hselector : g.selector b = f.selector b := by
    unfold Frame.selector
    rw [hrecord]
  rw [take_plainSend e offset f m a b (by decide),
    take_plainSend e offset' g m a b (Instruction.keywordCount_of_lt hcount),
    Frame.message_of_array a b hitems, Frame.message_of_few a b hcount, hselector, hspan, hreceiver]
  exact agree_deliver e _ _ fun value => by simp

end Step

open Step

/-- **Shorthands are sends.**  For every engine, frame and machine: an operator is the send of its
name with one argument; an indexed assignment is one with two, whose answer is dropped; an operator
with an immediate operand is the operator after a load; a send to `self` is a send after a load; a send
with a register for a block that holds none is a send without; and an array of arguments stands for its
items.  Only a send with keywords tells which it was: it is refused, and nothing else happens. -/
theorem shorthands_are_sends (e : Engine) (f : Frame) (m : Machine) (p q r : Nat) (a b c : UInt16) :
    (∀ op name, (op, name) ∈ Opcode.operators → ∀ s, f.record.symbols[s.toNat]? = some name →
      take e ⟨p, { op, a, b, c }⟩ ⟨f, m⟩ =
        take e ⟨q, { op := .send, a, b := s, c := 1 }⟩ ⟨f, m⟩) ∧
    (∀ s, f.record.symbols[s.toNat]? = some "[]=" →
      Agree (fun g g' => g = f ∧ ∃ value, g' = f.set a value)
        (take e ⟨p, { op := .setIndex, a, b, c }⟩ ⟨f, m⟩)
        (take e ⟨q, { op := .send, a, b := s, c := 2 }⟩ ⟨f, m⟩)) ∧
    (∀ op base, (op, base) ∈ Opcode.immediates →
      Agree (fun g g' => g.get a = g'.get a) (take e ⟨p, { op, a, b, c }⟩ ⟨f, m⟩)
        (takeBoth e ⟨q, { op := .loadInt, a := a + 1, b }⟩ ⟨r, { op := base, a }⟩ ⟨f, m⟩)) ∧
    (Instruction.keywordCount c = 0 →
      Agree Eq (take e ⟨p, { op := .selfSend, a, b, c }⟩ ⟨f, m⟩)
        (takeBoth e ⟨q, { op := .loadSelf, a }⟩ ⟨r, { op := .send, a, b, c }⟩ ⟨f, m⟩)) ∧
    (∀ op plain, (op, plain) ∈ Opcode.blockSends →
      (Instruction.keywordCount c = 0 →
        f.get (a + Instruction.argumentRegisters c + 1) = Handle.nil →
        take e ⟨p, { op, a, b, c }⟩ ⟨f, m⟩ = take e ⟨q, { op := plain, a, b, c }⟩ ⟨f, m⟩) ∧
      (Instruction.keywordCount c ≠ 0 →
        take e ⟨p, { op, a, b, c }⟩ ⟨f, m⟩ = .error (.fault (.notImplemented op)) ⟨f, m⟩ ∧
        take e ⟨q, { op := plain, a, b, c }⟩ ⟨f, m⟩ =
          .error (.fault (.notImplemented plain)) ⟨f, m⟩)) ∧
    (∀ items, m.array (f.get (a + 1)) = .ok items → items.size ≤ 14 →
      ∀ g : Frame, g.record = f.record → g.get a = f.get a →
        g.span (a + 1) (UInt16.ofNat items.size) = items.toList →
        Agree (fun h h' => h.get a = h'.get a)
          (take e ⟨p, { op := .send, a, b, c := 15 }⟩ ⟨f, m⟩)
          (take e ⟨q, { op := .send, a, b, c := UInt16.ofNat items.size }⟩ ⟨g, m⟩)) := by
  refine ⟨?_, fun s => agree_setIndex e p f m a b q, fun op base => agree_immediate e p f m a b q r,
    agree_selfSend e p f m a b q r, ?_, ?_⟩
  · intro op name hop s hname
    rw [take_operator e p f m a b c hop, take_plainSend e q f m a s (by decide),
      Frame.message_of_name (by decide) hname]
  · intro op plain hop
    obtain ⟨toSelf, hblock, hplain⟩ : ∃ toSelf, (op, toSelf, true) ∈ Opcode.sends ∧
        (plain, toSelf, false) ∈ Opcode.sends := by
      simp only [Opcode.blockSends, List.mem_cons, Prod.mk.injEq, List.not_mem_nil, or_false] at hop
      rcases hop with ⟨rfl, rfl⟩ | ⟨rfl, rfl⟩
      · exact ⟨false, by decide, by decide⟩
      · exact ⟨true, by decide, by decide⟩
    refine ⟨fun hc hnil => ?_, fun hc => ⟨?_, ?_⟩⟩
    · rw [take_send e p f m a b hblock hc fun _ => hnil, take_send e q f m a b hplain hc (by simp)]
    · exact take_send_of_keywords e p f m a b hblock hc
    · exact take_send_of_keywords e q f m a b hplain hc
  · intro items hitems hsize g hrecord hreceiver hspan
    exact agree_array e p f m a b q hitems (Nat.lt_succ_of_le hsize) hrecord hreceiver hspan

/-- A frame on the top level. -/
def rowFrame (registers : Array Handle) : Frame where
  record := { symbols := ["=="], code := {} }
  registers
  context := .topLevel

/-- A fresh machine with an array of two items. -/
@[irreducible] def rowMachine : Machine :=
  { Machine.boot with
    heap := Machine.boot.heap.push
      { isa := Handle.arrayClass, payload := .array #[Handle.yes, Handle.no] } }

/-- The comparison of `true` with an array, as an instruction and as a send with and without a register
for a block; and the two items of that array as arguments, together and one by one. -/
theorem shorthands_are_sends_rowMachine :
    (.eq, "==") ∈ Opcode.operators ∧
    take (Run.engine 3) ⟨0, { op := .eq, a := 0 }⟩
        ⟨rowFrame #[Handle.yes, Machine.boot.heap.next], rowMachine⟩ =
      take (Run.engine 3) ⟨0, { op := .send, a := 0, b := 0, c := 1 }⟩
        ⟨rowFrame #[Handle.yes, Machine.boot.heap.next], rowMachine⟩ ∧
    take (Run.engine 3) ⟨0, { op := .sendBlk, a := 0, b := 0, c := 1 }⟩
        ⟨rowFrame #[Handle.yes, Machine.boot.heap.next], rowMachine⟩ =
      take (Run.engine 3) ⟨0, { op := .send, a := 0, b := 0, c := 1 }⟩
        ⟨rowFrame #[Handle.yes, Machine.boot.heap.next], rowMachine⟩ ∧
    rowMachine.array Machine.boot.heap.next = .ok #[Handle.yes, Handle.no] ∧
    Agree (fun g g' => g.get 0 = g'.get 0)
      (take (Run.engine 3) ⟨0, { op := .send, a := 0, b := 0, c := 15 }⟩
        ⟨rowFrame #[Handle.yes, Machine.boot.heap.next], rowMachine⟩)
      (take (Run.engine 3) ⟨0, { op := .send, a := 0, b := 0, c := 2 }⟩
        ⟨rowFrame #[Handle.yes, Handle.yes, Handle.no], rowMachine⟩) := by
  have hitems : rowMachine.array Machine.boot.heap.next = .ok #[Handle.yes, Handle.no] := by
    delta rowMachine
    rfl
  obtain ⟨hoperators, _, _, _, hblocks, harray⟩ := shorthands_are_sends (Run.engine 3)
    (rowFrame #[Handle.yes, Machine.boot.heap.next]) rowMachine 0 0 0 0 0 1
  refine ⟨by decide, ?_, ?_, hitems, ?_⟩
  · exact hoperators .eq "==" (by decide) 0 rfl
  · exact (hblocks .sendBlk .send (by decide)).1 (by decide) rfl
  · exact harray _ hitems (by decide) (rowFrame #[Handle.yes, Handle.yes, Handle.no]) rfl rfl rfl

/-- **A send with a block can be told from one without.**  With a keyword argument and nothing but `nil`
in the registers both are refused, and each refusal names its own instruction. -/
theorem keywords_tell_blockSend :
    (∀ r, (rowFrame #[]).get r = Handle.nil) ∧
    take (Run.engine 3) ⟨0, { op := .sendBlk, a := 1, b := 0, c := 0x10 }⟩
        ⟨rowFrame #[], Machine.boot⟩ ≠
      take (Run.engine 3) ⟨0, { op := .send, a := 1, b := 0, c := 0x10 }⟩
        ⟨rowFrame #[], Machine.boot⟩ := by
  refine ⟨fun r => ?_, fun h => ?_⟩
  · simp [rowFrame, Frame.get]
  · have hblock : (.sendBlk, false, true) ∈ Opcode.sends := by decide
    have hkeyword : Instruction.keywordCount 0x10 ≠ 0 := by decide
    rw [take_send_of_keywords _ _ _ _ _ _ hblock hkeyword,
      take_send_of_keywords _ _ _ _ _ _ Opcode.send_mem_sends hkeyword] at h
    cases h

end Rite
