import Rite.Proofs.AlikeBuiltin

/-!
# Instructions and evaluations are alike

An instruction works on a frame and on the machine.  `Step.on` sets it off on a given frame and so
makes an action of it, and `StepAlike` is `Alike` for these actions.  Two frames are paired if their
records run the same code and each register of the one is paired with the same register of the other,
whatever their register files are long.

The main results are `Step.alike_take`, one instruction, and `Frame.alike_evaluate`, a whole
evaluation.
-/

namespace Rite

variable {α β : Type} {ρ : Record → Record → Prop} {π : Permit} {e e' : Engine} {K : Pairing}

/-! ## Frames -/

/-- What a relation of records must preserve for related records to run alike: all that is executed,
and none of the declared counts. -/
structure SameCode (ρ : Record → Record → Prop) : Prop where
  code : ∀ {r r'}, ρ r r' → r.code = r'.code
  literals : ∀ {r r'}, ρ r r' → r.literals = r'.literals
  symbols : ∀ {r r'}, ρ r r' → r.symbols = r'.symbols
  catchCount : ∀ {r r'}, ρ r r' → r.catchCount = r'.catchCount
  children : ∀ {r r'}, ρ r r' → List.Forall₂ ρ r.children r'.children

/-- Equal records run the same code. -/
theorem sameCode_eq : SameCode Eq where
  code h := congrArg Record.code h
  literals h := congrArg Record.literals h
  symbols h := congrArg Record.symbols h
  catchCount h := congrArg Record.catchCount h
  children h := List.forall₂_eq_eq_eq ▸ congrArg Record.children h

theorem Context.Paired.mono {L : Pairing} {c c' : Context} (hKL : K ≤ L)
    (h : Context.Paired K c c') : Context.Paired L c c' := by
  refine ⟨hKL _ _ h.self, hKL _ _ h.target, ?_⟩
  obtain ⟨hx, hy⟩ | ⟨_, _, hx, hy, hm⟩ := rel_cases h.method <;> rw [hx, hy]
  · exact .none
  · exact .some ⟨hKL _ _ hm.1, hm.2⟩

theorem Items.size_put (items : Array Handle) (place : Nat) (value : Handle) :
    (Items.put items place value).size = max items.size (place + 1) := by
  unfold Items.put
  split
  · rw [Array.size_setIfInBounds]
    omega
  · rw [Array.size_push, Array.size_append, Array.size_replicate]
    omega

/-- What a row holds after a write: the value, `nil` in the gap, and the old items. -/
theorem Items.getElem?_put (items : Array Handle) (place i : Nat) (value : Handle) :
    (Items.put items place value)[i]? =
      if i = place then some value
      else if items.size ≤ i ∧ i < place then some Handle.nil
      else items[i]? := by
  unfold Items.put
  split
  · rw [Array.getElem?_setIfInBounds]
    grind
  · rw [Array.getElem?_push, Array.getElem?_append, Array.getElem?_replicate]
    grind

theorem Items.put_put (items : Array Handle) (place : Nat) (value value' : Handle) :
    Items.put (Items.put items place value) place value' = Items.put items place value' := by
  apply Array.ext_getElem?
  intro i
  rw [getElem?_put, getElem?_put, getElem?_put, size_put]
  grind

/-- Reading a row after a write sees the write and is blind to the gap it opened. -/
theorem Items.getD_put (items : Array Handle) (place i : Nat) (value : Handle) :
    (Items.put items place value).getD i Handle.nil =
      if i = place then value else items.getD i Handle.nil := by
  rw [Array.getD_eq_getD_getElem?, Array.getD_eq_getD_getElem?, getElem?_put]
  grind

variable (ρ K) in
/-- Two frames whose records run the same code and whose registers are paired one by one. -/
structure Frame.Paired (f f' : Frame) : Prop where
  record : ρ f.record f'.record
  registers : ∀ i, K (f.registers.getD i Handle.nil) (f'.registers.getD i Handle.nil)
  context : Context.Paired K f.context f'.context

namespace Frame.Paired

variable {f f' : Frame}

theorem mono {L : Pairing} (hKL : K ≤ L) (h : Frame.Paired ρ K f f') : Frame.Paired ρ L f f' :=
  ⟨h.record, fun i => hKL _ _ (h.registers i), h.context.mono hKL⟩

theorem get (h : Frame.Paired ρ K f f') (r : UInt16) : K (f.get r) (f'.get r) :=
  h.registers r.toNat

theorem set (h : Frame.Paired ρ K f f') (r : UInt16) {value value' : Handle}
    (hvalue : K value value') : Frame.Paired ρ K (f.set r value) (f'.set r value') := by
  refine ⟨h.record, fun i => ?_, h.context⟩
  simp only [Frame.set, Items.getD_put]
  split
  · exact hvalue
  · exact h.registers i

theorem span (h : Frame.Paired ρ K f f') (first count : UInt16) :
    PairedRow K (f.span first count) (f'.span first count) := by
  unfold Frame.span PairedRow
  rw [List.forall₂_map_left_iff, List.forall₂_map_right_iff, List.forall₂_same]
  exact fun i _ => h.get _

theorem pairs (h : Frame.Paired ρ K f f') (first count : UInt16) :
    List.Forall₂ (PairedPair K) (f.pairs first count) (f'.pairs first count) := by
  unfold Frame.pairs
  rw [List.forall₂_map_left_iff, List.forall₂_map_right_iff, List.forall₂_same]
  exact fun i _ => ⟨h.get _, h.get _⟩

/-- The registers beyond those in use start as `nil`, as many as there may be. -/
theorem start {record record' : Record} {context context' : Context} {args args' : List Handle}
    (hrecord : ρ record record') (hcontext : Context.Paired K context context')
    (hargs : PairedRow K args args') :
    Frame.Paired ρ K (.start record context args) (.start record' context' args') := by
  refine ⟨hrecord, fun i => ?_, hcontext⟩
  -- How many registers a record asks for is not seen: a register that is missing reads as `nil` too.
  have hpadded : ∀ (row : List Handle) (n : Nat),
      (row.toArray ++ Array.replicate n Handle.nil).getD i Handle.nil =
        row.toArray.getD i Handle.nil := by
    intro row n
    simp only [Array.getD_eq_getD_getElem?, Array.getElem?_append, Array.getElem?_replicate]
    grind
  simp only [Frame.start, hpadded]
  exact PairedRow.getD (.cons hcontext.self hargs) i

end Frame.Paired

/-! ## Steps as actions -/

namespace Step

/-- A step set off on a frame; the frame it leaves is part of the answer. -/
def on (s : Step α) (f : Frame) : Action (α × Frame) := fun m =>
  match s ⟨f, m⟩ with
  | .ok x t => .ok (x, t.frame) t.machine
  | .error h t => .error h t.machine

theorem on_pure (x : α) (f : Frame) : (pure x : Step α).on f = pure (x, f) := rfl

theorem on_bind (s : Step α) (k : α → Step β) (f : Frame) :
    (s >>= k).on f = s.on f >>= fun p => (k p.1).on p.2 := by
  funext m
  change (match EStateM.bind s k ⟨f, m⟩ with | .ok x t => _ | .error h t => _) =
    EStateM.bind (s.on f) (fun p => (k p.1).on p.2) m
  unfold EStateM.bind on
  cases s ⟨f, m⟩ <;> rfl

theorem on_act (a : Action α) (f : Frame) : (act a).on f = a >>= fun x => pure (x, f) := by
  funext m
  change (match act a ⟨f, m⟩ with | .ok x t => _ | .error h t => _) = EStateM.bind a _ m
  unfold EStateM.bind act
  dsimp only
  cases a m <;> rfl

theorem on_view (q : Frame → α) (f : Frame) : (view q).on f = pure (q f, f) := rfl

theorem on_discard (s : Step α) (f : Frame) :
    (Functor.discard s).on f = s.on f >>= fun p => pure ((), p.2) := by
  change (s >>= fun _ => pure ()).on f = _
  rw [on_bind]
  rfl

theorem on_write (r : UInt16) (value : Handle) (f : Frame) :
    (write r value).on f = pure ((), f.set r value) := rfl

end Step

variable (ρ) in
/-- What two alike steps answer and leave: related values and paired frames, the one on the left still
with the record `r`. -/
def Step.Left (V : Pairing → α → α → Prop) (r : Record) (L : Pairing) (x x' : α × Frame) : Prop :=
  V L x.1 x'.1 ∧ Frame.Paired ρ L x.2 x'.2 ∧ x.2.record = r

variable (ρ π e e') in
/-- Two steps that are alike on every pair of frames. -/
def StepAlike (K : Pairing) (s s' : Step α) (V : Pairing → α → α → Prop) : Prop :=
  ∀ f f', Frame.Paired ρ K f f' → ∀ r, f.record = r →
    Alike ρ π e e' K (s.on f) (s'.on f') (Step.Left ρ V r)

namespace StepAlike

open Rite.Step

variable {V : Pairing → α → α → Prop} {W : Pairing → β → β → Prop}

theorem pure {x x' : α} (h : V K x x') :
    StepAlike ρ π e e' K (Pure.pure x : Step α) (Pure.pure x') V := by
  intro f f' hf r hr
  rw [on_pure, on_pure]
  exact .pure ⟨h, hf, hr⟩

theorem bind {s s' : Step α} {k k' : α → Step β} (hs : StepAlike ρ π e e' K s s' V)
    (hk : ∀ L x x', K ≤ L → V L x x' → StepAlike ρ π e e' L (k x) (k' x') W) :
    StepAlike ρ π e e' K (s >>= k) (s' >>= k') W := by
  intro f f' hf r hr
  rw [on_bind, on_bind]
  exact .bind (hs f f' hf r hr) fun L x x' hL hx => hk L _ _ hL hx.1 _ _ hx.2.1 r hx.2.2

theorem fail (fault : Fault) : StepAlike ρ π e e' K (Step.fail fault : Step α) (Step.fail fault) V :=
  fun _ _ _ _ _ => .fail fault

theorem act {a a' : Action α} (ha : Alike ρ π e e' K a a' V) :
    StepAlike ρ π e e' K (Step.act a) (Step.act a') V := by
  intro f f' hf r hr
  rw [on_act, on_act]
  exact .bind ha fun L x x' hL hx => .pure ⟨hx, hf.mono hL, hr⟩

/-! ### Questions to the frame and to the machine, which keep the pairing -/

theorem view {Q : α → α → Prop} {q q' : Frame → α} {k k' : α → Step β}
    (hq : ∀ f f', Frame.Paired ρ K f f' → Q (q f) (q' f'))
    (hk : ∀ x x', Q x x' → StepAlike ρ π e e' K (k x) (k' x') W) :
    StepAlike ρ π e e' K (Step.view q >>= k) (Step.view q' >>= k') W := by
  intro f f' hf r hr
  rw [on_bind, on_bind, on_view, on_view, pure_bind, pure_bind]
  exact hk _ _ (hq f f' hf) f f' hf r hr

theorem read {r : UInt16} {k k' : Handle → Step β}
    (hk : ∀ h h', K h h' → StepAlike ρ π e e' K (k h) (k' h') W) :
    StepAlike ρ π e e' K (Step.read r >>= k) (Step.read r >>= k') W :=
  .view (fun _ _ hf => hf.get r) hk

theorem span {first count : UInt16} {k k' : List Handle → Step β}
    (hk : ∀ row row', PairedRow K row row' → StepAlike ρ π e e' K (k row) (k' row') W) :
    StepAlike ρ π e e' K (Step.view (·.span first count) >>= k)
      (Step.view (·.span first count) >>= k') W :=
  .view (fun _ _ hf => hf.span first count) hk

theorem self {k k' : Handle → Step β}
    (hk : ∀ h h', K h h' → StepAlike ρ π e e' K (k h) (k' h') W) :
    StepAlike ρ π e e' K (Step.view (·.context.self) >>= k) (Step.view (·.context.self) >>= k') W :=
  .view (fun _ _ hf => hf.context.self) hk

theorem target {k k' : Handle → Step β}
    (hk : ∀ h h', K h h' → StepAlike ρ π e e' K (k h) (k' h') W) :
    StepAlike ρ π e e' K (Step.view (·.context.target) >>= k) (Step.view (·.context.target) >>= k')
      W :=
  .view (fun _ _ hf => hf.context.target) hk

theorem demand {Q : α → α → Prop} {q q' : Machine → Except Fault α} {k k' : α → Step β}
    (hq : ∀ m m', Machine.Matched ρ K m m' → PairedOutcome Q (q m) (q' m'))
    (hk : ∀ x x', Q x x' → StepAlike ρ π e e' K (k x) (k' x') W) :
    StepAlike ρ π e e' K (Step.act (Action.demand q) >>= k) (Step.act (Action.demand q') >>= k') W := by
  intro f f' hf r hr
  simp only [on_bind, on_act, bind_assoc, pure_bind]
  exact .demand hq fun x x' hx => hk x x' hx f f' hf r hr

theorem lookup {Q : α → α → Prop} {q q' : Machine → Except Fault α} {k k' : α → Step β}
    (hlimit : Enduring q) (hq : ∀ m m', Machine.Paired ρ K m m' → PairedOutcome Q (q m) (q' m'))
    (hk : ∀ x x', Q x x' → StepAlike ρ π e e' K (k x) (k' x') W) :
    StepAlike ρ π e e' K (Step.act (Action.demand q) >>= k) (Step.act (Action.demand q') >>= k') W := by
  intro f f' hf r hr
  simp only [on_bind, on_act, bind_assoc, pure_bind]
  exact .lookup hlimit hq fun x x' hx => hk x x' hx f f' hf r hr

theorem data {q q' : Machine → Except Fault α} {k k' : α → Step β}
    (hq : ∀ m m', Machine.Matched ρ K m m' → q m = q' m')
    (hk : ∀ x, StepAlike ρ π e e' K (k x) (k' x) W) :
    StepAlike ρ π e e' K (Step.act (Action.demand q) >>= k) (Step.act (Action.demand q') >>= k') W := by
  refine .demand (Q := Eq) (fun m m' p => .of_eq (hq m m' p)) fun x x' hx => ?_
  rw [← hx]
  exact hk x

theorem ask {Q : α → α → Prop} {q q' : Machine → α} {k k' : α → Step β}
    (hq : ∀ m m', Machine.Matched ρ K m m' → Q (q m) (q' m'))
    (hk : ∀ x x', Q x x' → StepAlike ρ π e e' K (k x) (k' x') W) :
    StepAlike ρ π e e' K (Step.act (Action.ask q) >>= k) (Step.act (Action.ask q') >>= k') W := by
  intro f f' hf r hr
  simp only [on_bind, on_act, bind_assoc, pure_bind]
  exact .ask hq fun x x' hx => hk x x' hx f f' hf r hr

/-- A check on the machine whose result is not used. -/
theorem discard {s s' : Step α} (hs : StepAlike ρ π e e' K s s' V) :
    StepAlike ρ π e e' K (Functor.discard s) (Functor.discard s') Equal := by
  change StepAlike ρ π e e' K (s >>= fun _ => Pure.pure ()) (s' >>= fun _ => Pure.pure ()) Equal
  exact .bind hs fun _ _ _ _ _ => .pure rfl

theorem discardDemand {Q : α → α → Prop} {q q' : Machine → Except Fault α}
    (hq : ∀ m m', Machine.Matched ρ K m m' → PairedOutcome Q (q m) (q' m')) :
    StepAlike ρ π e e' K (Functor.discard (Step.act (Action.demand q)))
      (Functor.discard (Step.act (Action.demand q'))) Equal := by
  change StepAlike ρ π e e' K (Step.act (Action.demand q) >>= fun _ => Pure.pure ())
    (Step.act (Action.demand q') >>= fun _ => Pure.pure ()) Equal
  exact .demand hq fun _ _ _ => .pure rfl

theorem discardData {q q' : Machine → Except Fault α}
    (hq : ∀ m m', Machine.Matched ρ K m m' → q m = q' m') :
    StepAlike ρ π e e' K (Functor.discard (Step.act (Action.demand q)))
      (Functor.discard (Step.act (Action.demand q'))) Equal :=
  .discardDemand fun m m' p => .of_eq (hq m m' p)

/-! ### Tables of the record -/

theorem entry {R : α → α → Prop} {kind : String} {table : Record → List α} {index : UInt16}
    {k k' : α → Step β}
    (htable : ∀ f f', Frame.Paired ρ K f f' → List.Forall₂ R (table f.record) (table f'.record))
    (hk : ∀ x x', R x x' → StepAlike ρ π e e' K (k x) (k' x') W) :
    StepAlike ρ π e e' K (Step.entry kind table index >>= k) (Step.entry kind table index >>= k') W := by
  unfold Step.entry
  rw [bind_assoc, bind_assoc]
  refine .view htable fun entries entries' hentries => ?_
  have hlength : entries.length = entries'.length := hentries.length_eq
  by_cases hi : index.toNat < entries.length
  · have hi' : index.toNat < entries'.length := hlength ▸ hi
    rw [List.getElem?_eq_getElem hi, List.getElem?_eq_getElem hi']
    simp only [pure_bind]
    exact hk _ _ (hentries.get hi hi')
  · rw [List.getElem?_eq_none (by omega), List.getElem?_eq_none (by omega), hlength]
    exact .fail _

/-- An entry of a table that related records share. -/
theorem sharedEntry {kind : String} {table : Record → List α} {index : UInt16} {k k' : α → Step β}
    (htable : ∀ f f', Frame.Paired ρ K f f' → table f.record = table f'.record)
    (hk : ∀ x, StepAlike ρ π e e' K (k x) (k' x) W) :
    StepAlike ρ π e e' K (Step.entry kind table index >>= k) (Step.entry kind table index >>= k') W := by
  refine .entry (R := Eq) (fun f f' hf => ?_) fun x x' hx => ?_
  · rw [htable f f' hf]
    exact List.forall₂_same.mpr fun _ _ => rfl
  · rw [← hx]
    exact hk x

theorem symbol (hρ : SameCode ρ) {index : UInt16} {k k' : String → Step β}
    (hk : ∀ name, StepAlike ρ π e e' K (k name) (k' name) W) :
    StepAlike ρ π e e' K (Step.symbol index >>= k) (Step.symbol index >>= k') W :=
  .sharedEntry (fun _ _ hf => hρ.symbols hf.record) hk

theorem literal (hρ : SameCode ρ) {index : UInt16} {k k' : String → Step β}
    (hk : ∀ text, StepAlike ρ π e e' K (k text) (k' text) W) :
    StepAlike ρ π e e' K (Step.literal index >>= k) (Step.literal index >>= k') W :=
  .sharedEntry (fun _ _ hf => hρ.literals hf.record) hk

theorem child (hρ : SameCode ρ) {index : UInt16} {k k' : Record → Step β}
    (hk : ∀ r r', ρ r r' → StepAlike ρ π e e' K (k r) (k' r') W) :
    StepAlike ρ π e e' K (Step.child index >>= k) (Step.child index >>= k') W :=
  .entry (fun _ _ hf => hρ.children hf.record) hk

/-! ### Writing registers -/

theorem write (r : UInt16) {value value' : Handle} (hvalue : K value value') :
    StepAlike ρ π e e' K (Step.write r value) (Step.write r value') Equal := by
  intro f f' hf record hrecord
  rw [on_write, on_write]
  exact .pure ⟨rfl, hf.set r hvalue, hrecord⟩

theorem writeResult (r : UInt16) {a a' : Action Handle} (ha : Alike ρ π e e' K a a' Pairing.rel) :
    StepAlike ρ π e e' K (Step.writeResult r a) (Step.writeResult r a') Equal :=
  .bind (.act ha) fun _ _ _ _ hx => .write r hx

theorem writeAll (first : UInt16) {row row' : List Handle} (hrow : PairedRow K row row') :
    StepAlike ρ π e e' K (Step.writeAll first row) (Step.writeAll first row') Equal := by
  suffices hall : ∀ L first, K ≤ L →
      StepAlike ρ π e e' L (Step.writeAll first row) (Step.writeAll first row') Equal from
    hall K first le_rfl
  induction hrow with
  | nil => exact fun L _ _ => .pure rfl
  | cons hx _ ih =>
    intro L first hL
    exact .bind (.write first (hL _ _ hx)) fun M _ _ hM _ => ih M (first + 1) (hL.trans hM)

end StepAlike

/-! ## Instructions that go on to the next -/

namespace Step

theorem alike_getClassVar (r : UInt16) (name : String) :
    StepAlike ρ π e e' K (getClassVar r name) (getClassVar r name) Equal := by
  refine .target fun c c' hc => .lookup (Machine.enduring_classVarHolder c name)
    (fun _ _ p => p.classVarHolder hc name) fun x x' hx => ?_
  cases hx with
  | some hholder => exact .writeResult r (.asked fun _ _ p => p.ivar hholder name)
  | none => exact .fail _

theorem alike_setClassVar (r : UInt16) (name : String) :
    StepAlike ρ π e e' K (setClassVar r name) (setClassVar r name) Equal := by
  refine .target fun c c' hc => .lookup (Machine.enduring_classVarHolder c name)
    (fun _ _ p => p.classVarHolder hc name) fun x x' hx => ?_
  refine .read fun h h' hh => .act (.effect (.setIvar ?_ name hh))
  cases hx with
  | some hholder => exact hholder
  | none => exact hc

/-! ### Calls -/

theorem alike_sendRow (name : String) (a count : UInt16) :
    StepAlike ρ π e e' K (sendRow e name a count) (sendRow e' name a count) Pairing.rel := by
  refine .read fun h h' hh => .span fun row row' hrow => ?_
  exact .act (.send hh name hrow)

theorem alike_operator (name : String) (a : UInt16) :
    StepAlike ρ π e e' K (operator e name a) (operator e' name a) Equal :=
  .bind (alike_sendRow name a 1) fun _ _ _ _ hx => .write a hx

theorem alike_operatorWith (name : String) (a value : UInt16) :
    StepAlike ρ π e e' K (operatorWith e name a value) (operatorWith e' name a value) Equal := by
  refine .bind (.act (.newInteger _)) fun L x x' _ hx => .read fun h h' hh => ?_
  exact .writeResult a (.send hh name (.cons hx .nil))

/-- The arguments of a call and the number of registers they take up. -/
def PairedArguments (L : Pairing) (x x' : List Handle × UInt16) : Prop :=
  PairedRow L x.1 x'.1 ∧ x.2 = x'.2

theorem alike_arguments (op : Opcode) (a packed : UInt16) :
    StepAlike ρ π e e' K (arguments op a packed) (arguments op a packed) PairedArguments := by
  unfold arguments
  split
  · exact .fail _
  · dsimp only
    split
    · refine .read fun row row' hrow => ?_
      exact .demand (fun _ _ p => p.array hrow) fun _ _ hitems => .pure ⟨hitems, rfl⟩
    · exact .span fun row row' hrow => .pure ⟨hrow, rfl⟩

theorem alike_refuseBlock (i : Instruction) (used : UInt16) :
    StepAlike ρ π e e' K (refuseBlock i used) (refuseBlock i used) Equal := by
  refine .read fun h h' hh => ?_
  simp only [ne_eq, Pairing.eq_nil_iff hh]
  split
  · exact .fail _
  · exact .pure rfl

theorem alike_sendTo (hρ : SameCode ρ) (i : Instruction) {receiver receiver' : Handle}
    (hr : K receiver receiver') (block : Bool) :
    StepAlike ρ π e e' K (sendTo e i receiver block) (sendTo e' i receiver' block) Equal := by
  refine .bind (alike_arguments i.op i.a i.c) fun L x x' hL hx => ?_
  obtain ⟨args, used⟩ := x
  obtain ⟨args', used'⟩ := x'
  obtain ⟨hargs, rfl⟩ := hx
  -- With a block the check on it comes first, so the rest is needed for two pairings.
  have hsend : ∀ M, L ≤ M → StepAlike ρ π e e' M
      (Step.symbol i.b >>= fun name => writeResult i.a (e.send receiver name args))
      (Step.symbol i.b >>= fun name => writeResult i.a (e'.send receiver' name args')) Equal :=
    fun M hM => .symbol hρ fun name =>
      .writeResult i.a (.send (hM _ _ (hL _ _ hr)) name (hargs.mono hM))
  cases block
  · exact hsend L le_rfl
  · exact .bind (alike_refuseBlock i used) fun M _ _ hM _ => hsend M hM

theorem alike_superSend (i : Instruction) :
    StepAlike ρ π e e' K (superSend e i) (superSend e' i) Equal := by
  refine .view (fun _ _ hf => hf.context.method) fun x x' hx => ?_
  cases hx with
  | none => exact .fail _
  | @some active active' hactive =>
    obtain ⟨howner, hname⟩ := hactive
    refine .bind (alike_arguments i.op i.a i.b) fun L y y' hL hy => ?_
    refine .self fun h h' hh => ?_
    rw [hname]
    refine .lookup (Machine.enduring_lookupAbove h _ _)
      (fun _ _ p => p.lookupAbove hh (hL _ _ howner) _) fun found found' hfound => ?_
    exact .writeResult i.a (.call _ hh hfound hy.1)

/-! ### Arrays, strings and hashes -/

theorem alike_appendItems {h h' : Handle} {items items' : List Handle} (hh : K h h')
    (hitems : PairedRow K items items') :
    StepAlike ρ π e e' K (appendItems h items) (appendItems h' items') Equal := by
  refine .bind (.discardData fun _ _ p => p.arraySize_eq hh) fun L _ _ hL _ => ?_
  exact .act (.effect (.appendItems (hL _ _ hh) (hitems.mono hL)))

theorem alike_arrayCat (a : UInt16) : StepAlike ρ π e e' K (arrayCat a) (arrayCat a) Equal := by
  refine .read fun source source' hsource => ?_
  refine .ask (fun _ _ p => p.splat hsource) fun items items' hitems => ?_
  refine .read fun h h' hh => ?_
  simp only [Pairing.eq_nil_iff hh]
  split
  · exact .writeResult a (.newArray hitems)
  · exact alike_appendItems hh hitems

theorem alike_arrayRef (i : Instruction) :
    StepAlike ρ π e e' K (arrayRef i) (arrayRef i) Equal := by
  refine .read fun source source' hsource => ?_
  refine .ask (fun _ _ p => (p.object hsource).array?) fun x x' hx => ?_
  cases hx with
  | some hitems => exact .write i.a (PairedRow.getD hitems i.c.toNat)
  | none =>
    refine .write i.a ?_
    split
    · exact hsource
    · exact K.nil

theorem alike_arraySet (i : Instruction) :
    StepAlike ρ π e e' K (arraySet i) (arraySet i) Equal := by
  refine .read fun value value' hvalue => .read fun h h' hh => ?_
  refine .bind (.discardData fun _ _ p => p.arraySize_eq hh) fun L _ _ hL _ => ?_
  exact .act (.effect (.putItem (hL _ _ hh) _ (hL _ _ hvalue)))

theorem pairedRow_splitPost {items items' : List Handle} (hitems : PairedRow K items items')
    (pre post : Nat) :
    PairedRow K (splitPost items pre post).1 (splitPost items' pre post).1 ∧
      PairedRow K (splitPost items pre post).2 (splitPost items' pre post).2 := by
  have hbeyond : PairedRow K (items.drop pre) (items'.drop pre) := List.forall₂_drop pre hitems
  have hlength : (items.drop pre).length = (items'.drop pre).length := List.Forall₂.length_eq hbeyond
  unfold splitPost
  simp only [hlength]
  split
  · exact ⟨List.forall₂_take _ hbeyond, List.forall₂_drop _ hbeyond⟩
  · refine ⟨.nil, List.rel_append hbeyond (List.forall₂_same.mpr fun x hx => ?_)⟩
    rw [List.eq_of_mem_replicate hx]
    exact K.nil

theorem alike_arrayPost (i : Instruction) :
    StepAlike ρ π e e' K (arrayPost i) (arrayPost i) Equal := by
  refine .read fun source source' hsource => ?_
  refine .ask (fun _ _ p => p.splat hsource) fun items items' hitems => ?_
  obtain ⟨hrest, htail⟩ := pairedRow_splitPost hitems i.b.toNat i.c.toNat
  refine .bind (.writeResult i.a (.newArray hrest)) fun L _ _ hL _ => ?_
  exact .writeAll (i.a + 1) (htail.mono hL)

/-- The text that is appended for `h`: its own if it is a string, else the one it answers. -/
def pieceText (e : Engine) (h : Handle) : Action String := do
  match ← Action.ask fun m => (m.object h).string? with
  | some text => return text
  | none => e.toText h

/-- Continue the string `h`. -/
def continueText (h : Handle) (text : String) : Action Unit := do
  discard (Action.demand (·.string h))
  Action.changeObject h (·.mapText (· ++ text))

theorem strCat_on (e : Engine) (a : UInt16) (f : Frame) :
    (strCat e a).on f = (do
      let text ← pieceText e (f.get (a + 1))
      continueText (f.get a) text
      return ((), f)) := by
  have hdiscard : ∀ q : Action String, discard q = q >>= fun _ => pure () := fun _ => rfl
  unfold strCat pieceText continueText
  simp only [Step.read, on_bind, on_view, on_act, bind_assoc, pure_bind]
  congr 1
  funext x
  cases x with
  | some text => simp only [hdiscard, on_discard, on_bind, on_view, on_act, bind_assoc, pure_bind]
  | none => simp only [hdiscard, on_discard, on_bind, on_view, on_act, bind_assoc, pure_bind]

theorem alike_pieceText {h h' : Handle} (hh : K h h') :
    Alike ρ π e e' K (pieceText e h) (pieceText e' h') Equal := by
  refine .ask (Q := Eq) (fun _ _ p => (p.object hh).string?_eq) fun x _ hx => ?_
  cases hx
  cases x with
  | some text => exact .pure rfl
  | none => exact .toText hh

theorem alike_strCat (htext : π.appendText) (a : UInt16) :
    StepAlike ρ π e e' K (strCat e a) (strCat e' a) Equal := by
  intro f f' hf r hr
  rw [strCat_on, strCat_on]
  refine .bind (alike_pieceText (hf.get _)) fun L text _ hL heq => ?_
  cases heq
  have hh : L (f.get a) (f'.get a) := hL _ _ (hf.get a)
  refine .bind (V := Equal) ?_ fun M _ _ hM _ => .pure ⟨rfl, hf.mono (hL.trans hM), hr⟩
  refine .bind (.discardData fun _ _ p => p.string_eq hh) fun M _ _ hM _ => ?_
  exact .effect (.appendText (hM _ _ hh) text htext)

theorem alike_intern (a : UInt16) : StepAlike ρ π e e' K (intern a) (intern a) Equal := by
  refine .read fun h h' hh => .data (fun _ _ p => p.string_eq hh) fun name => ?_
  exact .writeResult a (.newSymbol name)

theorem alike_hashAdd (a count : UInt16) :
    StepAlike ρ π e e' K (hashAdd a count) (hashAdd a count) Equal := by
  refine .read fun h h' hh => ?_
  refine .bind (.discardDemand fun _ _ p => p.hash hh) fun L _ _ hL _ => ?_
  refine .view (fun _ _ hf => hf.pairs _ _) fun pairs pairs' hpairs => ?_
  exact .act (.hashSetAll (hL _ _ hh) hpairs)

theorem alike_hashCat (a : UInt16) : StepAlike ρ π e e' K (hashCat a) (hashCat a) Equal := by
  refine .read fun h h' hh => ?_
  refine .bind (.discardDemand fun _ _ p => p.hash hh) fun L _ _ hL _ => ?_
  refine .read fun other other' hother => ?_
  simp only [ne_eq, Pairing.eq_nil_iff hother]
  split
  · refine .demand (fun _ _ p => p.hash hother) fun pairs pairs' hpairs => ?_
    exact .act (.hashSetAll (hL _ _ hh) hpairs)
  · exact .pure rfl

theorem alike_range (a : UInt16) (exclusive : Bool) :
    StepAlike ρ π e e' K (range a exclusive) (range a exclusive) Equal := by
  refine .read fun first first' hfirst => .read fun last last' hlast => ?_
  exact .writeResult a (.newRange hfirst hlast exclusive)

/-! ### Classes and methods -/

theorem alike_openClass (hρ : SameCode ρ) (i : Instruction) :
    StepAlike ρ π e e' K (openClass i) (openClass i) Equal := by
  refine .read fun parent parent' hparent => .symbol hρ fun name => ?_
  refine .writeResult i.a (.effect (.openClass name ?_))
  simp only [Pairing.eq_nil_iff hparent]
  split
  · exact .none
  · exact .some hparent

theorem alike_execBody (hρ : SameCode ρ) (i : Instruction) :
    StepAlike ρ π e e' K (execBody e i) (execBody e' i) Equal := by
  refine .read fun c c' hc => .child hρ fun body body' hbody => ?_
  exact .writeResult i.a (.evaluate hbody ⟨hc, hc, .none⟩ .nil)

theorem alike_defMethod (hρ : SameCode ρ) (hbody : π.installBody) (i : Instruction) :
    StepAlike ρ π e e' K (defMethod i) (defMethod i) Equal := by
  refine .symbol hρ fun name => .read fun proc proc' hproc => ?_
  refine .demand (fun _ _ p => p.expect (fun _ _ => Object.Paired.method?) hproc _) ?_
  intro method method' hmethod
  refine .read fun c c' hc => ?_
  refine .bind (.act (.effect (.defineMethod hc name hmethod (.inl hbody)))) fun L _ _ _ _ => ?_
  exact .writeResult i.a (.newSymbol name)

theorem alike_undefMethod (hρ : SameCode ρ) (index : UInt16) :
    StepAlike ρ π e e' K (undefMethod index) (undefMethod index) Equal :=
  .symbol hρ fun name => .target fun _ _ hc => .act (.effect (.undefMethod hc name))

/-! ### All of them -/

end Step

/-- What an instruction with this opcode does beyond the ordinary is permitted. -/
structure Permit.Allows (π : Permit) (op : Opcode) : Prop where
  appendText : op = .strCat → π.appendText
  makeBody : op = .method → π.installBody
  installBody : op = .defMethod → π.installBody

theorem Permit.Allows.full (op : Opcode) : Permit.full.Allows op :=
  ⟨fun _ => trivial, fun _ => trivial, fun _ => trivial⟩

namespace Step

theorem alike_loadInteger (r : UInt16) (value : Int) :
    StepAlike ρ π e e' K (loadInteger r value) (loadInteger r value) Equal :=
  .writeResult r (.newInteger _)

theorem alike_execute (hρ : SameCode ρ) (i : Instruction) (hallows : π.Allows i.op) :
    StepAlike ρ π e e' K (execute e i) (execute e' i) Equal := by
  obtain ⟨op, a, b, c⟩ := i
  cases op with
  | nop | enter | debug => exact .pure rfl
  | move => exact .read fun _ _ hh => .write a hh
  | loadLit | string => exact .literal hρ fun text => .writeResult a (.newString text)
  | loadInt | loadNeg | loadMinusOne | load0 | load1 | load2 | load3 | load4 | load5 | load6 | load7
  | loadInt16 | loadInt32 => exact alike_loadInteger a _
  | loadSym => exact .symbol hρ fun name => .writeResult a (.newSymbol name)
  | loadNil => exact .write a K.nil
  | loadSelf => exact .self fun _ _ hh => .write a hh
  | loadTrue => exact .write a (K.ofBool true)
  | loadFalse => exact .write a (K.ofBool false)
  | getGlobal => exact .symbol hρ fun name => .writeResult a (.asked fun _ _ p => p.global name)
  | setGlobal =>
    exact .symbol hρ fun name => .read fun _ _ hh => .act (.effect (.setGlobal name hh))
  | getIvar =>
    exact .symbol hρ fun name => .self fun _ _ hs =>
      .writeResult a (.asked fun _ _ p => p.ivar hs name)
  | setIvar =>
    exact .symbol hρ fun name => .self fun _ _ hs => .read fun _ _ hh =>
      .act (.effect (.setIvar hs name hh))
  | getClassVar => exact .symbol hρ fun name => alike_getClassVar a name
  | setClassVar => exact .symbol hρ fun name => alike_setClassVar a name
  | getConst => exact .symbol hρ fun name => .writeResult a (.constant name)
  | setConst =>
    exact .symbol hρ fun name => .read fun _ _ hh => .act (.effect (.setConstant name hh))
  | getIndex => exact alike_operator "[]" a
  | setIndex => exact .discard (alike_sendRow "[]=" a 2)
  | selfSend => exact .self fun _ _ hs => alike_sendTo hρ _ hs false
  | selfSendBlk => exact .self fun _ _ hs => alike_sendTo hρ _ hs true
  | send => exact .read fun _ _ hh => alike_sendTo hρ _ hh false
  | sendBlk => exact .read fun _ _ hh => alike_sendTo hρ _ hh true
  | superSend => exact alike_superSend _
  | add => exact alike_operator "+" a
  | sub => exact alike_operator "-" a
  | mul => exact alike_operator "*" a
  | div => exact alike_operator "/" a
  | eq => exact alike_operator "==" a
  | lt => exact alike_operator "<" a
  | le => exact alike_operator "<=" a
  | gt => exact alike_operator ">" a
  | ge => exact alike_operator ">=" a
  | addInt => exact alike_operatorWith "+" a b
  | subInt => exact alike_operatorWith "-" a b
  | array => exact .span fun _ _ hrow => .writeResult a (.newArray hrow)
  | arrayFrom => exact .span fun _ _ hrow => .writeResult a (.newArray hrow)
  | arrayCat => exact alike_arrayCat a
  | arrayPush => exact .read fun _ _ hh => .span fun _ _ hrow => alike_appendItems hh hrow
  | arrayDup =>
    exact .read fun _ _ hh => .ask (fun _ _ p => p.splat hh) fun _ _ hitems =>
      .writeResult a (.newArray hitems)
  | arrayRef => exact alike_arrayRef _
  | arraySet => exact alike_arraySet _
  | arrayPost => exact alike_arrayPost _
  | intern => exact alike_intern a
  | symbol => exact .literal hρ fun text => .writeResult a (.newSymbol text)
  | strCat => exact alike_strCat (hallows.appendText rfl) a
  | hash => exact .view (fun _ _ hf => hf.pairs a b) fun _ _ hpairs => .writeResult a (.newHash hpairs)
  | hashAdd => exact alike_hashAdd a b
  | hashCat => exact alike_hashCat a
  | rangeInc => exact alike_range a false
  | rangeExc => exact alike_range a true
  | objectClass => exact .write a (K.builtin _ (by decide))
  | openClass => exact alike_openClass hρ _
  | openModule => exact .symbol hρ fun name => .writeResult a (.effect (.openModule name))
  | execBody => exact alike_execBody hρ _
  | method =>
    exact .child hρ fun _ _ hbody => .writeResult a (.newMethod (hallows.makeBody rfl) (.bytecode hbody))
  | defMethod => exact alike_defMethod hρ (hallows.installBody rfl) _
  | undefMethod => exact alike_undefMethod hρ a
  | singletonClass => exact .read fun _ _ hh => .writeResult a (.effect (.singletonClassOf hh))
  | targetClass => exact .target fun _ _ hh => .write a hh
  | raiseLiteral => exact .literal hρ fun text => .fail _
  | _ => exact .fail _

end Step

/-! ## Where control goes -/

/-- Control goes to the same place on both sides, or leaves with paired values. -/
inductive Flow.Paired (K : Pairing) : Flow → Flow → Prop
  | next : Paired K .next .next
  | jump (position : Nat) : Paired K (.jump position) (.jump position)
  | leave {value value' : Handle} (h : K value value') : Paired K (.leave value) (.leave value')

namespace Step

theorem alike_jump (hρ : SameCode ρ) (p : Placed) :
    StepAlike ρ π e e' K (jump p) (jump p) Flow.Paired := by
  refine .view (Q := Eq) (fun _ _ hf => hρ.code hf.record) fun code _ hcode => ?_
  cases hcode
  cases landing? code (jumpTarget p) with
  | some position => exact .pure (.jump position)
  | none => exact .fail _

theorem alike_jumpWhen (hρ : SameCode ρ) (condition : Bool) (p : Placed) :
    StepAlike ρ π e e' K (jumpWhen condition p) (jumpWhen condition p) Flow.Paired := by
  unfold jumpWhen
  split
  · exact alike_jump hρ p
  · exact .pure .next

/-- **One instruction is alike on paired frames.** -/
theorem alike_take (hρ : SameCode ρ) (p : Placed) (hallows : π.Allows p.instruction.op) :
    StepAlike ρ π e e' K (take e p) (take e' p) Flow.Paired := by
  have hexecute : StepAlike ρ π e e' K (execute e p.instruction >>= fun _ => pure Flow.next)
      (execute e' p.instruction >>= fun _ => pure Flow.next) Flow.Paired :=
    .bind (alike_execute hρ p.instruction hallows) fun _ _ _ _ _ => .pure .next
  unfold take
  dsimp only
  split
  · exact alike_jump hρ p
  · refine .read fun h h' hh => ?_
    rw [Pairing.truthy_eq hh]
    exact alike_jumpWhen hρ _ p
  · refine .read fun h h' hh => ?_
    rw [Pairing.truthy_eq hh]
    exact alike_jumpWhen hρ _ p
  · refine .read fun h h' hh => ?_
    simp only [Pairing.eq_nil_iff hh]
    exact alike_jumpWhen hρ _ p
  · refine .view (Q := Eq) (fun _ _ hf => hρ.catchCount hf.record) fun count _ hcount => ?_
    cases hcount
    split
    · exact .fail _
    · exact alike_jump hρ p
  · exact .read fun h h' hh => .pure (.leave hh)
  · exact .read fun h h' hh => .pure (.leave hh)
  · exact .pure (.leave K.nil)
  · exact hexecute

end Step

namespace Frame

/-- A frame run from a position on, as an action. -/
def runFrom (e : Engine) (rounds position : Nat) (f : Frame) : Action Handle := fun m =>
  run e rounds position ⟨f, m⟩

/-- What a run does after one instruction. -/
def resume (e : Engine) (rounds position : Nat) : Flow × Frame → Action Handle
  | (.next, f) => runFrom e rounds (position + 1) f
  | (.jump target, f) => runFrom e rounds target f
  | (.leave value, _) => pure value

theorem runFrom_succ (e : Engine) (rounds position : Nat) (f : Frame) :
    runFrom e (rounds + 1) position f =
      match f.record.code.placed[position]? with
      | none => pure Handle.nil
      | some p => (Step.take e p).on f >>= resume e rounds position := by
  funext m
  unfold runFrom run
  dsimp only
  cases f.record.code.placed[position]? with
  | none => rfl
  | some p =>
    change _ = EStateM.bind ((Step.take e p).on f) (resume e rounds position) m
    unfold EStateM.bind Step.on
    dsimp only
    obtain ⟨_ | _ | _, _⟩ | ⟨_, _⟩ := Step.take e p ⟨f, m⟩ <;> rfl

/-- A run is alike as long as its rounds last. -/
theorem alike_runFrom (hallows : ∀ op, π.Allows op) (hgive : π.giveUp) (hρ : SameCode ρ)
    {rounds rounds' : Nat} (hrounds : rounds ≤ rounds') (position : Nat) {f f' : Frame}
    (hf : Frame.Paired ρ K f f') :
    Alike ρ π e e' K (runFrom e rounds position f) (runFrom e' rounds' position f') Pairing.rel := by
  induction rounds generalizing K rounds' position f f' with
  -- The side with fewer rounds gives up first, and then nothing is asked of the other.
  | zero => exact .exhausted hgive _
  | succ rounds ih =>
    obtain ⟨rounds', rfl⟩ : ∃ n, rounds' = n + 1 := ⟨rounds' - 1, by omega⟩
    rw [runFrom_succ, runFrom_succ, hρ.code hf.record]
    cases f'.record.code.placed[position]? with
    | none => exact .nil
    | some p =>
      refine .bind (Step.alike_take hρ p (hallows _) f f' hf _ rfl) fun L x x' _ hx => ?_
      obtain ⟨flow, g⟩ := x
      obtain ⟨flow', g'⟩ := x'
      obtain ⟨hflow, hg, _⟩ := hx
      cases hflow with
      | next => exact ih (by omega) (position + 1) hg
      | jump target => exact ih (by omega) target hg
      | leave hvalue => exact .pure hvalue

/-- **A whole evaluation is alike on paired data.** -/
theorem alike_evaluate (hallows : ∀ op, π.Allows op) (hgive : π.giveUp) (hρ : SameCode ρ)
    (hfuel : e.fuel ≤ e'.fuel) {record record' : Record} {context context' : Context}
    {args args' : List Handle} (hrecord : ρ record record')
    (hcontext : Context.Paired K context context') (hargs : PairedRow K args args') :
    Alike ρ π e e' K (evaluate e record context args) (evaluate e' record' context' args')
      Pairing.rel :=
  alike_runFrom hallows hgive hρ hfuel 0 (.start hrecord hcontext hargs)

end Frame

end Rite
