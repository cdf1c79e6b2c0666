import Rite.Machine.Capture
import Rite.Proofs.ImageRoundTrip
import Rite.Proofs.QuietText

/-!
# Programs without jumps back terminate

Three things keep a program going: calls, class bodies that are evaluated, and jumps.  Calls can only
be nested as deep as the limit allows, class bodies only as deep as the record is, and a jump forward
leaves fewer instructions to go.  So the proof is an induction on the room for calls
(`callsSettle`), within it one on the record (`CallsSettle.evaluate`), and within that one on the
instructions that are left (`CallsSettle.runFrom`).

The builtin methods fall under the first of these: all that they set off are calls.  The lines of
nested arrays are the exception, and they are dealt with in `Rite.Proofs.QuietText`.

To terminate is not to end well: a program may ask for a text or a row of handles that is longer than
any piece of memory, and breaks off there (`repetition_overruns`).
-/

namespace Rite

/-! ## Builtin methods -/

section Builtins

variable {m : Machine} {bound : Nat} {receiver : Handle} {args : List Handle}

/-- With room for `bound` more calls, tame methods can be called. -/
def CallsSettle (bound : Nat) : Prop :=
  ∀ m : Machine, m.heap.Tame → m.room ≤ bound → ∀ receiver found name args,
    found.method.Tame name →
      Settles Heap.Tame (fun fuel => Run.call fuel receiver found name args) m Anything

theorem Alike.settlesTame {α : Type} {a : Action α} {V : Pairing → α → α → Prop}
    (h : Alike Eq .codeKept .idle .idle Pairing.same a a V) (hm : m.heap.Tame) :
    Settles Heap.Tame (fun _ => a) m Anything :=
  (h.settles keptBy_tame hm).imp (fun _ => id) fun _ _ => trivial

/-- What keeps a heap quiet keeps it tame. -/
theorem Settles.tame {α : Type} {a : Nat → Action α} {V : α → Prop}
    {arrays : Handle → Option (Array Handle)} (h : Settles (Heap.Quiet arrays) a m V) :
    Settles Heap.Tame a m V :=
  h.imp (fun _ hquiet => hquiet.tame) fun _ => id

/-- A builtin method that leaves the engine idle. -/
theorem settles_idle (hm : m.heap.Tame) {op : Primitive} (hop : op ≠ .ofObject .puts)
    (hidle : ∀ e, op.perform e receiver args = op.perform .idle receiver args) :
    Settles Heap.Tame (fun fuel => op.perform (Run.engine fuel) receiver args) m Anything := by
  simp only [hidle]
  have halike : Alike Eq .codeKept .idle .idle Pairing.same (op.perform .idle receiver args)
      (op.perform .idle receiver args) Pairing.rel :=
    Primitive.alike_perform (Nat.le_refl _) op (fun h => absurd h hop) (fun _ => trivial) rfl
      (.same args)
  exact halike.settlesTame hm

theorem settles_quiet (hm : m.heap.Tame) {op : Primitive} (hop : op.isQuiet = true) :
    Settles Heap.Tame (fun fuel => op.perform (Run.engine fuel) receiver args) m Anything :=
  ((textsSettle m.room).perform (.of_tame hm) (Nat.le_refl _) hop receiver args).tame

theorem settles_text (hm : m.heap.Tame) {name : String} (hname : name ∈ textMethods) (h : Handle) :
    Settles Heap.Tame (fun fuel => (Run.engine fuel).textBy name h) m Anything :=
  (settles_textBy (.of_tame hm) hname h).tame

theorem settles_puts (hm : m.heap.Tame) :
    Settles Heap.Tame (fun fuel => Objects.puts (Run.engine fuel) args) m Anything := by
  unfold Objects.puts
  refine .bind (V := Anything) (.foldlM (V := Anything) hm "" fun text h _ m₁ hm₁ _ => ?_) ?_
  · exact .bind (settles_lines (.of_tame hm₁) h).tame fun _ _ hm₂ _ _ => .pure hm₂ trivial
  · intro text m₁ hm₁ _ _
    exact .bind (.writeOut hm₁ _) fun _ _ hm₂ _ _ => .pure hm₂ trivial

theorem settles_print (hm : m.heap.Tame) :
    Settles Heap.Tame (fun fuel => Objects.print (Run.engine fuel) args) m Anything := by
  unfold Objects.print
  refine .bind (.forM hm fun h _ m₁ hm₁ _ => ?_) fun _ _ hm₁ _ _ => .pure hm₁ trivial
  exact .bind (settles_text hm₁ (by decide) h) fun text _ hm₂ _ _ => .writeOut hm₂ text

theorem settles_p (hm : m.heap.Tame) :
    Settles Heap.Tame (fun fuel => Objects.p (Run.engine fuel) args) m Anything := by
  unfold Objects.p
  refine .bind (.forM hm fun h _ m₁ hm₁ _ => ?_) fun _ m₁ hm₁ _ _ => ?_
  · exact .bind (settles_text hm₁ (by decide) h) fun text _ hm₂ _ _ => .writeOut hm₂ _
  · match args with
    | [] => exact .pure hm₁ trivial
    | [_] => exact .pure hm₁ trivial
    | _ :: _ :: _ => exact .allocate (hm₁.push trivial)

theorem settles_warn (hm : m.heap.Tame) :
    Settles Heap.Tame (fun fuel => Objects.warn (Run.engine fuel) args) m Anything := by
  unfold Objects.warn
  refine .bind (.forM hm fun h _ m₁ hm₁ _ => ?_) fun _ _ hm₁ _ _ => .pure hm₁ trivial
  exact .bind (settles_text hm₁ (by decide) h) fun text _ hm₂ _ _ => .writeErr hm₂ _

namespace CallsSettle

variable (hcalls : CallsSettle bound) (hm : m.heap.Tame) (hroom : m.room ≤ bound)

include hcalls hm hroom

theorem send (receiver : Handle) (name : String) (args : List Handle) :
    Settles Heap.Tame (fun fuel => (Run.engine fuel).send receiver name args) m Anything :=
  .demand fun found hfound =>
    hcalls m hm hroom receiver found name args (Machine.tame_of_lookupMethod hm hfound)

theorem differs :
    Settles Heap.Tame (fun fuel => Objects.differs (Run.engine fuel) receiver args) m Anything := by
  unfold Objects.differs
  refine .argument fun h => ?_
  exact .bind (hcalls.send hm hroom receiver "==" [h]) fun _ _ hm₁ _ _ => .pure hm₁ trivial

theorem eqItems (xs ys : List Handle) :
    Settles Heap.Tame (fun fuel => Arrays.eqItems (Run.engine fuel) xs ys) m Anything := by
  induction xs generalizing ys m with
  | nil => exact .pure hm trivial
  | cons x xs ih =>
    cases ys with
    | nil => exact .pure hm trivial
    | cons y ys =>
      refine .bind (hcalls.send hm hroom x "==" [y]) fun equal m₁ hm₁ hsame _ => ?_
      cases equal.truthy
      · exact .pure hm₁ trivial
      · exact ih hm₁ (hsame.room ▸ hroom) ys

theorem arrayEq :
    Settles Heap.Tame (fun fuel => Arrays.eq (Run.engine fuel) receiver args) m Anything := by
  unfold Arrays.eq
  refine .demand fun items _ => .argument fun other => .ask ?_
  cases (m.object other).array? with
  | none => exact .pure hm trivial
  | some others =>
    dsimp only
    split
    · exact .pure hm trivial
    · exact hcalls.eqItems hm hroom items.toList others.toList

theorem new :
    Settles Heap.Tame (fun fuel => Classes.new (Run.engine fuel) receiver args) m Anything := by
  simp only [Classes.new_eq]
  have hmake : Alike Eq .codeKept .idle .idle Pairing.same (Classes.instantiate receiver)
      (Classes.instantiate receiver) Pairing.rel := .effect (.instantiate rfl)
  refine .bind (hmake.settlesTame hm) fun made m₁ hm₁ hsame _ => ?_
  refine .bind (.discard (hcalls.send hm₁ (hsame.room ▸ hroom) made "initialize" args)) ?_
  exact fun _ _ hm₂ _ _ => .pure hm₂ trivial

/-- **Every builtin method comes to an end.** -/
theorem perform (op : Primitive) :
    Settles Heap.Tame (fun fuel => op.perform (Run.engine fuel) receiver args) m Anything := by
  cases op with
  | ofObject op =>
    cases op with
    | puts => exact settles_puts hm
    | print => exact settles_print hm
    | p => exact settles_p hm
    | warn => exact settles_warn hm
    | inspect => exact settles_quiet hm rfl
    | differs => exact hcalls.differs hm hroom
    | _ => exact settles_idle hm nofun fun _ => rfl
  | ofClass op =>
    cases op with
    | new => exact hcalls.new hm hroom
    | _ => exact settles_idle hm nofun fun _ => rfl
  | ofArray op =>
    cases op with
    | eq => exact hcalls.arrayEq hm hroom
    | inspect => exact settles_quiet hm rfl
    | _ => exact settles_idle hm nofun fun _ => rfl
  | ofHash op =>
    cases op with
    | inspect => exact settles_quiet hm rfl
    | _ => exact settles_idle hm nofun fun _ => rfl
  | ofRange op =>
    cases op with
    | inspect => exact settles_quiet hm rfl
    | toS => exact settles_quiet hm rfl
    | _ => exact settles_idle hm nofun fun _ => rfl
  | _ => exact settles_idle hm nofun fun _ => rfl

end CallsSettle

end Builtins

/-! ## Instructions -/

section Instructions

variable {m : Machine} {bound : Nat} {r : Record}

theorem StepAlike.settlesTame {α : Type} {s : Step α} {V : Pairing → α → α → Prop}
    (h : StepAlike Eq .codeKept .idle .idle Pairing.same s s V) (hm : m.heap.Tame) :
    StepSettles Heap.Tame (fun _ => s) m r Anything :=
  (h.settles keptBy_tame hm r).imp fun _ _ => trivial

theorem settles_strCat (hm : m.heap.Tame) (a : UInt16) :
    StepSettles Heap.Tame (fun fuel => Step.strCat (Run.engine fuel) a) m r Anything := by
  intro f hf
  simp only [Step.strCat_on]
  refine .bind (V := Anything) (.ask ?_) fun text m₁ hm₁ _ _ => ?_
  · cases (m.object (f.get (a + 1))).string? with
    | some text => exact .pure hm trivial
    | none => exact settles_text hm (by decide) _
  · refine .bind (V := Anything) ?_ fun _ _ hm₂ _ _ => .pure hm₂ ⟨trivial, hf⟩
    refine .bind (.discard (.demanded hm₁)) fun _ m₂ hm₂ _ _ => ?_
    exact .changeObject (hm₂.modify fun _ => Object.tame_mapText _)

theorem settles_method (hm : m.heap.Tame) (hchildren : ∀ c ∈ r.children, c.Tame) (a b : UInt16) :
    StepSettles Heap.Tame
      (fun _ => do Step.writeResult a (Action.newMethod (.bytecode (← Step.child b)))) m r
      Anything := by
  refine .entry fun body hbody => .writeResult (.allocate (hm.push ?_))
  exact ⟨body, rfl, hchildren body (List.mem_of_getElem? hbody)⟩

/-- A body is taken from a method object and put into a table, under a name that is permitted. -/
theorem settles_defMethod (hm : m.heap.Tame) (i : Instruction)
    (hnames : ∀ name, r.symbols[i.b.toNat]? = some name → name ∉ textMethods) :
    StepSettles Heap.Tame (fun _ => Step.defMethod i) m r Anything := by
  refine .entry fun name hname => .view fun body => .demand fun method hmethod => .view fun c => ?_
  refine .bind (V := Anything) (.act ?_) fun _ m₁ hm₁ _ _ => ?_
  · -- A method object in a tame heap holds a tame body, and the name is one the record may define.
    have htame : method.Tame name := by
      have hbody := hm body
      unfold Machine.expect Object.method? Machine.object at hmethod
      split at hmethod
      · next x hx =>
        cases hmethod
        split at hx
        · next heq =>
          rw [heq] at hbody
          obtain ⟨record, hrecord, hforward⟩ := hbody
          cases hx
          rw [hrecord]
          exact ⟨hforward, hnames name hname⟩
        · cases hx
      · cases hmethod
    unfold Action.defineMethod
    refine .ask ?_
    split
    · exact .changeObject (hm.modify fun _ => Object.tame_define htame)
    · exact .ask (.fail _)
  · exact .writeResult (.allocate (hm₁.push trivial))

/-- With room for `bound` more calls, the class bodies of `r` can be evaluated. -/
def BodiesSettle (bound : Nat) (r : Record) : Prop :=
  ∀ c ∈ r.children, ∀ (m : Machine) (context : Context), m.heap.Tame → m.room ≤ bound →
    Settles Heap.Tame (fun fuel => Run.evaluate fuel c context []) m Anything

theorem BodiesSettle.execBody (hbodies : BodiesSettle bound r) (hm : m.heap.Tame)
    (hroom : m.room ≤ bound) (i : Instruction) :
    StepSettles Heap.Tame (fun fuel => Step.execBody (Run.engine fuel) i) m r Anything := by
  refine .view fun c => .entry fun body hbody => .writeResult ?_
  exact hbodies body (List.mem_of_getElem? hbody) m _ hm hroom

namespace CallsSettle

variable (hcalls : CallsSettle bound) (hm : m.heap.Tame) (hroom : m.room ≤ bound)

include hcalls hm hroom

theorem sendRow (name : String) (a count : UInt16) :
    StepSettles Heap.Tame (fun fuel => Step.sendRow (Run.engine fuel) name a count) m r Anything :=
  .view fun receiver => .view fun args => .act (hcalls.send hm hroom receiver name args)

theorem operator (name : String) (a : UInt16) :
    StepSettles Heap.Tame (fun fuel => Step.operator (Run.engine fuel) name a) m r Anything :=
  .bind (hcalls.sendRow hm hroom name a 1) fun answer _ hm₁ _ _ => .write hm₁ a answer

theorem operatorWith (name : String) (a value : UInt16) :
    StepSettles Heap.Tame (fun fuel => Step.operatorWith (Run.engine fuel) name a value) m r
      Anything := by
  refine .bind (V := Anything) (.act (.allocate (hm.push trivial))) fun operand m₁ hm₁ hsame _ => ?_
  refine .view fun receiver => .writeResult ?_
  exact hcalls.send hm₁ (hsame.room ▸ hroom) receiver name [operand]

theorem sendTo (i : Instruction) (receiver : Handle) (block : Bool) :
    StepSettles Heap.Tame (fun fuel => Step.sendTo (Run.engine fuel) i receiver block) m r
      Anything := by
  refine .bind ((Step.alike_arguments i.op i.a i.c).settlesTame hm) fun x m₁ hm₁ hsame _ => ?_
  obtain ⟨args, used⟩ := x
  have hsend : ∀ m₂ : Machine, m₂.heap.Tame → m₂.room ≤ bound → StepSettles Heap.Tame
      (fun fuel => Step.symbol i.b >>= fun name =>
        Step.writeResult i.a ((Run.engine fuel).send receiver name args)) m₂ r Anything :=
    fun m₂ hm₂ hroom₂ => .entry fun name _ =>
      .writeResult (hcalls.send hm₂ hroom₂ receiver name args)
  have hroom₁ : m₁.room ≤ bound := hsame.room ▸ hroom
  cases block
  · exact hsend m₁ hm₁ hroom₁
  · refine .bind ((Step.alike_refuseBlock i used).settlesTame hm₁) fun _ m₂ hm₂ hsame₂ _ => ?_
    exact hsend m₂ hm₂ (hsame₂.room ▸ hroom₁)

theorem superSend (i : Instruction) :
    StepSettles Heap.Tame (fun fuel => Step.superSend (Run.engine fuel) i) m r Anything := by
  refine .view fun method => ?_
  cases method with
  | none => exact .fail _
  | some active =>
    refine .bind ((Step.alike_arguments i.op i.a i.b).settlesTame hm) fun x m₁ hm₁ hsame _ => ?_
    refine .view fun self => .demand fun found hfound => .writeResult ?_
    exact hcalls m₁ hm₁ (hsame.room ▸ hroom) self found active.name x.1
      (Machine.tame_of_lookupAbove hm₁ hfound)

/-- **Every instruction comes to an end** that neither jumps nor leaves the frame. -/
theorem execute (hbodies : BodiesSettle bound r) (hchildren : ∀ c ∈ r.children, c.Tame)
    (i : Instruction)
    (hnames : i.op = .defMethod →
      ∀ name, r.symbols[i.b.toNat]? = some name → name ∉ textMethods) :
    StepSettles Heap.Tame (fun fuel => Step.execute (Run.engine fuel) i) m r Anything := by
  have hidle : (∀ e, Step.execute e i = Step.execute .idle i) → i.op ≠ .method →
      i.op ≠ .defMethod →
      StepSettles Heap.Tame (fun fuel => Step.execute (Run.engine fuel) i) m r Anything := by
    intro hsame hmethod hdef
    simp only [hsame]
    have hallows : Permit.codeKept.Allows i.op :=
      ⟨fun _ => trivial, fun h => absurd h hmethod, fun h => absurd h hdef⟩
    exact (Step.alike_execute sameCode_eq i hallows).settlesTame hm
  obtain ⟨op, a, b, c⟩ := i
  cases op with
  | getIndex => exact hcalls.operator hm hroom "[]" a
  | setIndex => exact .discard (hcalls.sendRow hm hroom "[]=" a 2)
  | selfSend => exact .view fun self => hcalls.sendTo hm hroom _ self false
  | selfSendBlk => exact .view fun self => hcalls.sendTo hm hroom _ self true
  | send => exact .view fun receiver => hcalls.sendTo hm hroom _ receiver false
  | sendBlk => exact .view fun receiver => hcalls.sendTo hm hroom _ receiver true
  | superSend => exact hcalls.superSend hm hroom _
  | add => exact hcalls.operator hm hroom "+" a
  | sub => exact hcalls.operator hm hroom "-" a
  | mul => exact hcalls.operator hm hroom "*" a
  | div => exact hcalls.operator hm hroom "/" a
  | eq => exact hcalls.operator hm hroom "==" a
  | lt => exact hcalls.operator hm hroom "<" a
  | le => exact hcalls.operator hm hroom "<=" a
  | gt => exact hcalls.operator hm hroom ">" a
  | ge => exact hcalls.operator hm hroom ">=" a
  | addInt => exact hcalls.operatorWith hm hroom "+" a b
  | subInt => exact hcalls.operatorWith hm hroom "-" a b
  | strCat => exact settles_strCat hm a
  | execBody => exact hbodies.execBody hm hroom _
  | method => exact settles_method hm hchildren a b
  | defMethod => exact settles_defMethod hm _ (hnames rfl)
  | _ => exact hidle (fun _ => rfl) nofun nofun

end CallsSettle

/-- Control does not go back to `position` or before it. -/
def Flow.Ahead (position : Nat) : Flow → Prop
  | .jump target => position < target
  | _ => True

section Jumps

variable {is : List Instruction} {position : Nat} {p : Placed}
  (hm : m.heap.Tame) (hcode : r.code = Code.ofInstructions is)
  (hp : r.code.placed[position]? = some p)
  (hforward : ∀ distance, p.instruction.jumpOffset? = some distance → 0 ≤ distance)

include hm hcode hp hforward

theorem settles_jump :
    StepSettles Heap.Tame (fun _ => Step.jump p) m r (Flow.Ahead position) := by
  intro f hf
  unfold Step.jump
  simp only [Step.on_bind, Step.on_view, pure_bind, hf]
  cases hlanding : Step.landing? r.code (Step.jumpTarget p) with
  | none => exact .fail _
  | some target =>
    rw [hcode] at hp hlanding
    exact .pure hm ⟨Step.lt_of_landing? hp hforward hlanding, hf⟩

theorem settles_jumpWhen (condition : Bool) :
    StepSettles Heap.Tame (fun _ => Step.jumpWhen condition p) m r (Flow.Ahead position) := by
  unfold Step.jumpWhen
  split
  · exact settles_jump hm hcode hp hforward
  · exact .pure hm trivial

end Jumps

/-- **One instruction of tame code** comes to an end, and control goes forward. -/
theorem CallsSettle.take (hcalls : CallsSettle bound) (hm : m.heap.Tame) (hroom : m.room ≤ bound)
    (hbodies : BodiesSettle bound r) (hr : r.Tame) {position : Nat} {p : Placed}
    (hp : r.code.placed[position]? = some p) :
    StepSettles Heap.Tame (fun fuel => Step.take (Run.engine fuel) p) m r (Flow.Ahead position) := by
  obtain ⟨⟨is, hcode⟩, hown, hchildren⟩ := hr
  have hmem : p ∈ r.code.placed := Array.mem_of_getElem? hp
  have hjump := settles_jump hm hcode hp (hown.jumps p hmem)
  have hjumpWhen := settles_jumpWhen hm hcode hp (hown.jumps p hmem)
  have hexecute : StepSettles Heap.Tame
      (fun fuel => Step.execute (Run.engine fuel) p.instruction >>= fun _ => pure Flow.next) m r
      (Flow.Ahead position) :=
    .bind (hcalls.execute hm hroom hbodies hchildren p.instruction (hown.names p hmem))
      fun _ _ hm₁ _ _ => .pure hm₁ trivial
  unfold Step.take
  dsimp only
  split
  · exact hjump
  · exact .view fun _ => hjumpWhen _
  · exact .view fun _ => hjumpWhen _
  · exact .view fun _ => hjumpWhen _
  · refine .view fun count => ?_
    split
    · exact .fail _
    · exact hjump
  · exact .view fun _ => .pure hm trivial
  · exact .view fun _ => .pure hm trivial
  · exact .pure hm trivial
  · exact hexecute

end Instructions

/-! ## Evaluations and calls -/

section Programs

variable {m : Machine} {bound : Nat} {r : Record}

/-- The rest of a frame comes to an end.  `spent` rounds have gone before; the induction is on the
number of instructions from `position` on. -/
theorem CallsSettle.runFrom (hcalls : CallsSettle bound) (hbodies : BodiesSettle bound r)
    (hr : r.Tame) (hm : m.heap.Tame) (hroom : m.room ≤ bound) (spent position : Nat) {f : Frame}
    (hf : f.record = r) :
    Settles Heap.Tame (fun fuel => Frame.runFrom (Run.engine fuel) (fuel - spent) position f) m
      Anything := by
  induction hleft : r.code.placed.size - position using Nat.strong_induction_on
    generalizing m spent position f with
  | _ left ih =>
    refine Settles.round (b := fun fuel rounds =>
      Frame.runFrom (Run.engine fuel) rounds position f) ?_
    simp only [Frame.runFrom_succ, hf]
    cases hp : r.code.placed[position]? with
    | none => exact .pure hm trivial
    | some p =>
      obtain ⟨hposition, _⟩ := Array.getElem?_eq_some_iff.mp hp
      refine .bind (hcalls.take hm hroom hbodies hr hp f hf) fun x m₁ hm₁ hsame hx => ?_
      obtain ⟨flow, g⟩ := x
      obtain ⟨hflow, hg⟩ := hx
      have hroom₁ : m₁.room ≤ bound := hsame.room ▸ hroom
      -- Wherever control goes, it goes ahead, so fewer instructions are left.
      cases flow with
      | next => exact ih _ (by omega) hm₁ hroom₁ (spent + 1) (position + 1) hg rfl
      | jump target =>
        have htarget : position < target := hflow
        exact ih _ (by omega) hm₁ hroom₁ (spent + 1) target hg rfl
      | leave value => exact .pure hm₁ trivial

/-- **Tame records can be evaluated.**  The induction is on the tree of records. -/
theorem CallsSettle.evaluate (hcalls : CallsSettle bound) (hr : r.Tame) (hm : m.heap.Tame)
    (hroom : m.room ≤ bound) (context : Context) (args : List Handle) :
    Settles Heap.Tame (fun fuel => Run.evaluate fuel r context args) m Anything := by
  induction hr generalizing m context args with
  | @intro r hcode hown hchildren ih =>
    -- The bodies a record evaluates are its children; this takes no room from the calls.
    have hbodies : BodiesSettle bound r := fun c hc m₁ context hm₁ hroom₁ =>
      ih c hc hm₁ hroom₁ context []
    have hrun := hcalls.runFrom hbodies (.intro hcode hown hchildren) hm hroom 0 0
      (f := .start r context args) rfl
    refine hrun.delay 1 fun fuel hfuel => ?_
    obtain ⟨fuel, rfl⟩ : ∃ n, fuel = n + 1 := ⟨fuel - 1, by omega⟩
    rw [Run.evaluate]
    rfl

/-- Methods of all kinds. -/
theorem CallsSettle.body (hcalls : CallsSettle bound) (hm : m.heap.Tame) (hroom : m.room ≤ bound)
    {found : Found} {name : String} (hfound : found.method.Tame name) (receiver : Handle)
    (args : List Handle) :
    Settles Heap.Tame (fun fuel => found.body (Run.engine fuel) receiver name args) m Anything := by
  unfold Found.body
  cases hmethod : found.method with
  | native builtin =>
    refine .bind (.checkArity hm builtin.arity args.length) fun _ m₁ hm₁ hsame _ => ?_
    exact hcalls.perform hm₁ (hsame.room ▸ hroom) builtin.primitive
  | bytecode record =>
    rw [hmethod] at hfound
    exact hcalls.evaluate hfound.1 hm hroom _ args
  | attrReader ivar =>
    exact .bind (.checkArity hm _ args.length) fun _ _ hm₁ _ _ => .asked hm₁ trivial
  | attrWriter ivar =>
    refine .bind (.checkArity hm _ args.length) fun _ m₁ hm₁ _ _ => .argument fun value => ?_
    exact .bind (.changeObject (hm₁.modify fun _ ho => ho)) fun _ _ hm₂ _ _ => .pure hm₂ trivial

/-- **Tame methods can be called.**  The induction is on the room for calls. -/
theorem callsSettle (bound : Nat) : CallsSettle bound := by
  induction bound using Nat.strong_induction_on with
  | _ bound ih =>
    intro m hm hroom receiver found name args hfound
    refine settles_call fun hlt => ?_
    -- The call is within the limit, so its body has less room than the caller.
    have hdeeper := Machine.room_deeper hlt
    exact (ih _ (by omega)).body (m := { m with depth := m.depth + 1 }) hm (Nat.le_refl _) hfound
      receiver args

theorem settles_records {rs : List Record} (hrs : ∀ r ∈ rs, r.Tame) (hm : m.heap.Tame)
    (last : Handle) : Settles Heap.Tame (fun fuel => Run.records fuel last rs) m Anything := by
  induction rs generalizing m last with
  | nil => exact .pure hm trivial
  | cons r rs ih =>
    have hrecord := (callsSettle m.room).evaluate (hrs r List.mem_cons_self) hm (Nat.le_refl _)
      .topLevel []
    refine .bind hrecord fun value m₁ hm₁ _ _ => ?_
    exact ih (fun r hr => hrs r (List.mem_cons_of_mem _ hr)) hm₁ value

end Programs

/-- **Programs without jumps back terminate.**  Let an image be loaded in which no jump of any record
leads back and no record defines `to_s` or `inspect`.  Whatever the limits and the sinks, from some
amount of fuel on its execution comes to one and the same end: a value, a fault, or a request for more
memory than one piece can have. -/
theorem forward_terminates (bytes : Bytes) (image : Image) (hload : Image.ofBytes bytes = .ok image)
    (hforward : ∀ root ∈ image.records, ∀ r : Record, r.Within root → r.GoesForward)
    (limits : Limits) (out err : Sink) :
    ∃ enough result,
      (∀ fuel, enough ≤ fuel → Run.image fuel image (Machine.boot limits out err) = result) ∧
      ((∃ value m, result = .ok value m) ∨ (∃ fault m, result = .error (.fault fault) m) ∨
        ∃ request m, result = .error (.overrun request) m) := by
  have htame := Image.tame_of_ofBytes hload hforward
  have hboot : (Machine.boot limits out err).heap.Tame := Boot.heap_tame
  exact (settles_records htame hboot Handle.nil).ends

/-- A method that answers its receiver. -/
def selfDraft : RecordDraft where
  registers := 2
  code := #[.instruction { op := .ret, a := 0 }]

/-- A script that jumps over an instruction, makes an array that is its own only item, defines a
method, and writes the lines of the array. -/
def loopDraft : RecordDraft where
  registers := 6
  symbols := ["itself", "puts"]
  children := [selfDraft]
  code := #[.instruction { op := .jump, a := 3 }, .instruction { op := .move, a := 1, b := 1 },
    .instruction { op := .array, a := 1, b := 0 }, .instruction { op := .move, a := 2, b := 1 },
    .instruction { op := .arrayPush, a := 1, b := 1 }, .instruction { op := .targetClass, a := 3 },
    .instruction { op := .method, a := 4, b := 0 }, .instruction { op := .defMethod, a := 3, b := 0 },
    .instruction { op := .selfSend, a := 1, b := 1, c := 1 }, .instruction { op := .stop }]

theorem loopDraft_storable : loopDraft.Storable := by
  refine .intro ⟨by decide, by decide, by decide, by decide, by decide, by decide⟩ fun c hc => ?_
  rw [show c = selfDraft from List.mem_singleton.mp hc]
  refine .intro ⟨by decide, by decide, by decide, by decide, by decide, by decide⟩ fun c hc => ?_
  cases hc

theorem loopDraft_goesForward {r : Record} (h : r.Within loopDraft.toRecord) : r.GoesForward := by
  have hroot : loopDraft.toRecord.GoesForward := by decide +kernel
  have hself : selfDraft.toRecord.GoesForward := by decide +kernel
  cases h with
  | root => exact hroot
  | nested hc h =>
    rw [show _ = selfDraft.toRecord from List.mem_singleton.mp hc] at h
    cases h with
    | root => exact hself
    | nested hc _ => cases hc

theorem loopDraft_loads : Image.ofBytes (ImageDraft.ofRecord loopDraft).toBytes =
    .ok (ImageDraft.ofRecord loopDraft).toImage := by
  have hparts : ∀ p ∈ (ImageDraft.ofRecord loopDraft).parts, p.Storable := by
    intro p hp
    rw [List.mem_singleton.mp hp]
    exact loopDraft_storable
  exact (Image.ofBytes_eq_ok_iff _ _).mpr (ImageDraft.imageOf_toBytes hparts (by decide +kernel))

theorem forward_terminates_loopDraft :
    Image.ofBytes (ImageDraft.ofRecord loopDraft).toBytes =
      .ok (ImageDraft.ofRecord loopDraft).toImage ∧
    (∀ root ∈ (ImageDraft.ofRecord loopDraft).toImage.records, ∀ r : Record,
      r.Within root → r.GoesForward) ∧
    ∃ enough result, (∀ fuel, enough ≤ fuel →
        Run.image fuel (ImageDraft.ofRecord loopDraft).toImage (Machine.boot {} {} {}) = result) ∧
      ((∃ value m, result = .ok value m) ∨ (∃ fault m, result = .error (.fault fault) m) ∨
        ∃ request m, result = .error (.overrun request) m) := by
  have hforward : ∀ root ∈ (ImageDraft.ofRecord loopDraft).toImage.records, ∀ r : Record,
      r.Within root → r.GoesForward := by
    intro root hroot r hr
    rw [List.mem_singleton.mp hroot] at hr
    exact loopDraft_goesForward hr
  exact ⟨loopDraft_loads, hforward, forward_terminates _ _ loopDraft_loads hforward {} {} {}⟩

/-- A script that evaluates `"ab" * 2 ** 62`. -/
def repetitionDraft : RecordDraft where
  registers := 4
  literals := ["ab"]
  symbols := ["**"]
  code := #[.instruction { op := .string, a := 1, b := 0 }, .instruction { op := .load2, a := 2 },
    .instruction { op := .loadInt, a := 3, b := 62 },
    .instruction { op := .send, a := 2, b := 0, c := 1 }, .instruction { op := .mul, a := 1 },
    .instruction { op := .stop }]

/-- The image of that script. -/
def repetition : Image := (ImageDraft.ofRecord repetitionDraft).toImage

theorem repetition_loads :
    Image.ofBytes (ImageDraft.ofRecord repetitionDraft).toBytes = .ok repetition := by
  refine (Image.ofBytes_eq_ok_iff _ _).mpr (ImageDraft.imageOf_toBytes ?_ (by decide +kernel))
  intro p hp
  rw [List.mem_singleton.mp hp]
  refine .intro ⟨by decide, by decide, by decide, by decide, by decide, by decide⟩ fun c hc => ?_
  cases hc

/-- **A program without jumps that has no result.**  It can be loaded, no jump leads back and nothing
is defined, and it ends neither with a value nor with a fault: the text would have 2^63 bytes. -/
theorem repetition_overruns :
    (∃ bytes, Image.ofBytes bytes = .ok repetition) ∧
    (∀ root ∈ repetition.records, ∀ r : Record, r.Within root → r.GoesForward) ∧
    ∃ request : Overlong, request.bytes = 0x8000000000000000 ∧
      repetition.capture = { out := "", err := "", halt := some (.overrun request) } := by
  refine ⟨⟨_, repetition_loads⟩, ?_, ⟨0x8000000000000000, by decide⟩, rfl, by decide +kernel⟩
  intro root hroot r hr
  have hroot : root = repetitionDraft.toRecord := List.mem_singleton.mp hroot
  have hforward : repetitionDraft.toRecord.GoesForward := by decide +kernel
  subst hroot
  cases hr with
  | root => exact hforward
  | nested hc _ => cases hc

end Rite
