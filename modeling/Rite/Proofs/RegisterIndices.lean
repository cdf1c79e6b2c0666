import Rite.Proofs.Destinations
import Rite.Proofs.ForwardCode
import Rite.Proofs.ImageRoundTrip

/-!
# Register indices

Many instructions find registers by adding to their operands: the operand behind the first, the arguments
of a call, the pairs of a hash.  Registers are numbered by 16-bit words, so such a sum could wrap around and
denote some register at the other end.  In decoded code it never does.  All operands that number or count
registers have eight bits there, and the sums stay far below the end of the range.

`Instruction.sums` lists the indices that an instruction computes, as the natural numbers that they should
be.  `Step.Exact` is the interpreter once more with these numbers in the place of words; what happens to a
number that no word holds is left open.  If it wraps around, this is the interpreter itself, for all
instructions.  For decoded instructions it is the interpreter whatever happens, so it cannot matter, and it
does not happen (`register_indices_exact`).

The file of registers grows only where an index is written to.  The highest index that decoded code writes to
is 510, so that is all the room a frame ever needs beyond what it starts with.
-/

namespace Rite

/-! ## The indices that instructions compute -/

namespace Instruction

/-- The indices that a call computes from its register and its packed counts: the first argument and the
others behind it, or the array that holds them all, and then the block.  None of them is computed if there
are keywords. -/
def callSums (a packed : UInt16) (block : Bool) : List Nat :=
  let positional := packed &&& 0x0F
  if (packed >>> 4) &&& 0x0F ≠ 0 then []
  else if positional = 15 then
    (a.toNat + 1) :: if block then [a.toNat + 1 + 1] else []
  else
    (a.toNat + 1) :: List.range' (a.toNat + 1) positional.toNat ++
      if block then [a.toNat + positional.toNat + 1] else []

/-- The indices of `count` keys from `first` on and of the values behind them. -/
def pairSums (first count : Nat) : List (Nat × Nat) :=
  (List.range count).map fun k => (first + 2 * k, first + 2 * k + 1)

/-- The register indices that an instruction computes as sums. -/
def sums (i : Instruction) : List Nat :=
  let a := i.a.toNat
  match i.op with
  | .getIndex | .add | .sub | .mul | .div | .eq | .lt | .le | .gt | .ge | .arrayCat | .strCat
  | .hashCat | .rangeInc | .rangeExc | .openClass | .defMethod => [a + 1]
  | .setIndex => [a + 1, a + 2]
  | .selfSend | .send => callSums i.a i.c false
  | .selfSendBlk | .sendBlk => callSums i.a i.c true
  | .superSend => callSums i.a i.b false
  | .array => List.range' a i.b.toNat
  | .arrayFrom => List.range' i.b.toNat i.c.toNat
  | .arrayPush => (a + 1) :: List.range' (a + 1) i.b.toNat
  | .arrayPost => List.range' (a + 1) i.c.toNat
  | .hash => (pairSums a i.b.toNat).flatMap fun q => [q.1, q.2]
  | .hashAdd => (pairSums (a + 1) i.b.toNat).flatMap fun q => [q.1, q.2]
  | _ => []

end Instruction

/-! ## The interpreter with exact indices -/

namespace Step.Exact

open Rite.Action (ask demand)

section Definitions

variable (beyond : Nat → Step UInt16) (e : Engine)

/-- The register with an index that was computed exactly.  `beyond` is what happens to an index that no
16-bit word holds. -/
def index (n : Nat) : Step UInt16 := if n < 2 ^ 16 then return UInt16.ofNat n else beyond n

/-- The contents of a register. -/
def readAt (n : Nat) : Step Handle := do read (← index beyond n)

/-- The contents of registers. -/
def readRow : List Nat → Step (List Handle)
  | [] => return []
  | n :: ns => do
    let value ← readAt beyond n
    let values ← readRow ns
    return value :: values

/-- The contents of the `count` registers behind `a`. -/
def readBehind (a count : UInt16) : Step (List Handle) := do
  discard (index beyond (a.toNat + 1))
  readRow beyond (List.range' (a.toNat + 1) count.toNat)

/-- The contents of pairs of registers. -/
def readPairs : List (Nat × Nat) → Step (List (Handle × Handle))
  | [] => return []
  | (n, k) :: rest => do
    let key ← readAt beyond n
    let value ← readAt beyond k
    let pairs ← readPairs rest
    return (key, value) :: pairs

/-- Write registers from `n` on. -/
def writeRow (n : Nat) : List Handle → Step Unit
  | [] => return ()
  | value :: values => do
    write (← index beyond n) value
    writeRow (n + 1) values

/-- Send a message to `R[a]` with the `count` registers behind it as arguments. -/
def sendRow (name : String) (a count : UInt16) : Step Handle := do
  let receiver ← read a
  let args ← readRow beyond (List.range' (a.toNat + 1) count.toNat)
  act (e.send receiver name args)

/-- `R[a] = R[a] <name> R[a+1]`. -/
def operator (name : String) (a : UInt16) : Step Unit := do
  write a (← sendRow beyond e name a 1)

/-- The arguments behind register `a` and how many registers they occupy. -/
def arguments (op : Opcode) (a packed : UInt16) : Step (List Handle × UInt16) := do
  let positional := packed &&& 0x0F
  if (packed >>> 4) &&& 0x0F ≠ 0 then
    fail (.notImplemented op)
  else if positional = 15 then
    let row ← readAt beyond (a.toNat + 1)
    let items ← act (demand (·.array row))
    return (items.toList, 1)
  else
    return (← readBehind beyond a positional, positional)

/-- Refuse a block argument. -/
def refuseBlock (i : Instruction) (used : UInt16) : Step Unit := do
  if (← readAt beyond (i.a.toNat + used.toNat + 1)) ≠ Handle.nil then
    fail (.notImplemented i.op)

/-- Send the message named by operand `b` to `receiver`. -/
def sendTo (i : Instruction) (receiver : Handle) (block : Bool) : Step Unit := do
  let given ← arguments beyond i.op i.a i.c
  if block then
    refuseBlock beyond i given.2
  let name ← symbol i.b
  writeResult i.a (e.send receiver name given.1)

/-- Call the method that comes after the one being executed. -/
def superSend (i : Instruction) : Step Unit := do
  (← view (·.context.method)).elim (fail .superOutsideMethod) fun active => do
    let given ← arguments beyond i.op i.a i.b
    let self ← view (·.context.self)
    let found ← act (demand (·.lookupAbove self active.owner active.name))
    writeResult i.a (e.call self found active.name given.1)

/-- Append the elements of `R[a+1]` to the array in `R[a]`. -/
def arrayCat (a : UInt16) : Step Unit := do
  let source ← readAt beyond (a.toNat + 1)
  let items ← act (ask (·.splat source))
  let target ← read a
  if target = Handle.nil then
    writeResult a (Action.newArray items)
  else
    appendItems target items

/-- `*R[a], R[a+1], ..., R[a+c] = R[a][b..]`. -/
def arrayPost (i : Instruction) : Step Unit := do
  let source ← read i.a
  let items ← act (ask (·.splat source))
  let parts := splitPost items i.b.toNat i.c.toNat
  writeResult i.a (Action.newArray parts.1)
  writeRow beyond (i.a.toNat + 1) parts.2

/-- Append the text of `R[a+1]` to the string in `R[a]`. -/
def strCat (a : UInt16) : Step Unit := do
  let piece ← readAt beyond (a.toNat + 1)
  let text ← (← act (ask fun m => (m.object piece).string?)).elim (act (e.toText piece)) pure
  let target ← read a
  discard (act (demand (·.string target)))
  act (Action.changeObject target (·.mapText (· ++ text)))

/-- Add pairs of registers to the hash in `R[a]`. -/
def hashAdd (a count : UInt16) : Step Unit := do
  let h ← read a
  discard (act (demand (·.hash h)))
  act (Action.hashSetAll h (← readPairs beyond (Instruction.pairSums (a.toNat + 1) count.toNat)))

/-- Add the pairs of the hash in `R[a+1]` to the one in `R[a]`. -/
def hashCat (a : UInt16) : Step Unit := do
  let h ← read a
  discard (act (demand (·.hash h)))
  let other ← readAt beyond (a.toNat + 1)
  if other ≠ Handle.nil then
    let pairs ← act (demand (·.hash other))
    act (Action.hashSetAll h pairs)

/-- A range from `R[a]` to `R[a+1]`. -/
def range (a : UInt16) (exclusive : Bool) : Step Unit := do
  let first ← read a
  let last ← readAt beyond (a.toNat + 1)
  writeResult a (Action.newRange first last exclusive)

/-- Open a class; `R[a+1]` is its superclass or `nil`. -/
def openClass (i : Instruction) : Step Unit := do
  let parent ← readAt beyond (i.a.toNat + 1)
  let name ← symbol i.b
  writeResult i.a (Action.openClass name (if parent = Handle.nil then none else some parent))

/-- Install the method object in `R[a+1]` in the class in `R[a]`. -/
def defMethod (i : Instruction) : Step Unit := do
  let name ← symbol i.b
  let body ← readAt beyond (i.a.toNat + 1)
  let method ← act (demand (·.expect "Proc" Object.method? body))
  let c ← read i.a
  act (Action.defineMethod c name method)
  writeResult i.a (Action.newSymbol name)

/-- What an instruction does that neither jumps nor leaves the frame.  Where no index is computed, there is
nothing to be exact about. -/
def execute (i : Instruction) : Step Unit := do
  match i.op with
  | .getIndex => operator beyond e "[]" i.a
  | .setIndex => discard (sendRow beyond e "[]=" i.a 2)
  | .selfSend => sendTo beyond e i (← view (·.context.self)) false
  | .selfSendBlk => sendTo beyond e i (← view (·.context.self)) true
  | .send => sendTo beyond e i (← read i.a) false
  | .sendBlk => sendTo beyond e i (← read i.a) true
  | .superSend => superSend beyond e i
  | .add => operator beyond e "+" i.a
  | .sub => operator beyond e "-" i.a
  | .mul => operator beyond e "*" i.a
  | .div => operator beyond e "/" i.a
  | .eq => operator beyond e "==" i.a
  | .lt => operator beyond e "<" i.a
  | .le => operator beyond e "<=" i.a
  | .gt => operator beyond e ">" i.a
  | .ge => operator beyond e ">=" i.a
  | .array =>
    writeResult i.a (Action.newArray (← readRow beyond (List.range' i.a.toNat i.b.toNat)))
  | .arrayFrom =>
    writeResult i.a (Action.newArray (← readRow beyond (List.range' i.b.toNat i.c.toNat)))
  | .arrayCat => arrayCat beyond i.a
  | .arrayPush => appendItems (← read i.a) (← readBehind beyond i.a i.b)
  | .arrayPost => arrayPost beyond i
  | .strCat => strCat beyond e i.a
  | .hash =>
    let pairs ← readPairs beyond (Instruction.pairSums i.a.toNat i.b.toNat)
    writeResult i.a (Action.newHash pairs)
  | .hashAdd => hashAdd beyond i.a i.b
  | .hashCat => hashCat beyond i.a
  | .rangeInc => range beyond i.a false
  | .rangeExc => range beyond i.a true
  | .openClass => openClass beyond i
  | .defMethod => defMethod beyond i
  | _ => Step.execute e i

/-- Carry out one instruction.  Jumps and returns compute no index. -/
def take (p : Placed) : Step Flow := do
  match p.instruction.op with
  | .jump | .jumpIf | .jumpUnless | .jumpNil | .jumpUnwind | .ret | .retBlk | .stop => Step.take e p
  | _ =>
    execute beyond e p.instruction
    return .next

end Definitions

/-- Indices that wrap around. -/
def wrapped (n : Nat) : Step UInt16 := return UInt16.ofNat n

/-! ### Indices that come out as words -/

/-- The index `n` comes out as the word that it is, up to wrapping around. -/
def Plain (beyond : Nat → Step UInt16) (n : Nat) : Prop :=
  index beyond n = (return UInt16.ofNat n : Step UInt16)

theorem plain_of_lt (beyond : Nat → Step UInt16) {n : Nat} (h : n < 2 ^ 16) : Plain beyond n := if_pos h

theorem plain_wrapped (n : Nat) : Plain wrapped n := by
  unfold Plain index
  split
  · rfl
  · rfl

section Equations

variable {beyond : Nat → Step UInt16} {e : Engine} {a count : UInt16}

theorem ofNat_toNat_succ (a : UInt16) : UInt16.ofNat (a.toNat + 1) = a + 1 := by
  rw [UInt16.ofNat_add, UInt16.ofNat_toNat]
  rfl

theorem readAt_eq {n : Nat} (h : Plain beyond n) : readAt beyond n = read (UInt16.ofNat n) := by
  unfold readAt
  rw [h]
  rfl

theorem readAt_next (h : Plain beyond (a.toNat + 1)) : readAt beyond (a.toNat + 1) = read (a + 1) := by
  rw [readAt_eq h, ofNat_toNat_succ]

theorem readRow_eq {ns : List Nat} (h : ∀ n ∈ ns, Plain beyond n) :
    readRow beyond ns = view fun f => ns.map fun n => f.get (UInt16.ofNat n) := by
  induction ns with
  | nil => rfl
  | cons n ns ih =>
    obtain ⟨hn, hns⟩ := List.forall_mem_cons.mp h
    rw [readRow, readAt_eq hn, ih hns]
    rfl

/-- A span is read as the row of its indices, also where the words wrap around. -/
theorem readRow_span {n : Nat} (h : ∀ k ∈ List.range' n count.toNat, Plain beyond k) :
    readRow beyond (List.range' n count.toNat) = view (·.span (UInt16.ofNat n) count) := by
  rw [readRow_eq h]
  congr 1
  funext f
  unfold Frame.span
  rw [List.range'_eq_map_range, List.map_map]
  exact List.map_congr_left fun k _ => congrArg f.get (UInt16.ofNat_add n k)

theorem readRow_behind (h : ∀ n ∈ List.range' (a.toNat + 1) count.toNat, Plain beyond n) :
    readRow beyond (List.range' (a.toNat + 1) count.toNat) = view (·.span (a + 1) count) := by
  rw [readRow_span h, ofNat_toNat_succ]

theorem readBehind_eq
    (h : ∀ n ∈ (a.toNat + 1) :: List.range' (a.toNat + 1) count.toNat, Plain beyond n) :
    readBehind beyond a count = view (·.span (a + 1) count) := by
  obtain ⟨hfirst, hrow⟩ := List.forall_mem_cons.mp h
  unfold readBehind
  rw [hfirst, readRow_behind hrow]
  rfl

theorem readPairs_eq {ns : List (Nat × Nat)} (h : ∀ q ∈ ns, Plain beyond q.1 ∧ Plain beyond q.2) :
    readPairs beyond ns =
      view fun f => ns.map fun q => (f.get (UInt16.ofNat q.1), f.get (UInt16.ofNat q.2)) := by
  induction ns with
  | nil => rfl
  | cons q ns ih =>
    obtain ⟨⟨hkey, hvalue⟩, hns⟩ := List.forall_mem_cons.mp h
    rw [readPairs, readAt_eq hkey, readAt_eq hvalue, ih hns]
    rfl

/-- Pairs are read at the indices of their keys and values, also where the words wrap around. -/
theorem readPairs_pairs {n : Nat}
    (h : ∀ k ∈ (Instruction.pairSums n count.toNat).flatMap fun q => [q.1, q.2],
      Plain beyond k) :
    readPairs beyond (Instruction.pairSums n count.toNat) =
      view (·.pairs (UInt16.ofNat n) count) := by
  have hpairs : ∀ q ∈ Instruction.pairSums n count.toNat, Plain beyond q.1 ∧ Plain beyond q.2 := by
    intro q hq
    exact ⟨h q.1 (List.mem_flatMap.mpr ⟨q, hq, by simp⟩), h q.2 (List.mem_flatMap.mpr ⟨q, hq, by simp⟩)⟩
  rw [readPairs_eq hpairs]
  congr 1
  funext f
  unfold Frame.pairs Instruction.pairSums
  rw [List.map_map]
  refine List.map_congr_left fun k _ => ?_
  have hkey : UInt16.ofNat (n + 2 * k) = UInt16.ofNat n + 2 * UInt16.ofNat k := by
    rw [UInt16.ofNat_add, UInt16.ofNat_mul]
    rfl
  have hvalue : UInt16.ofNat (n + 2 * k + 1) = UInt16.ofNat n + 2 * UInt16.ofNat k + 1 := by
    rw [UInt16.ofNat_add, hkey]
    rfl
  show (f.get (UInt16.ofNat (n + 2 * k)), f.get (UInt16.ofNat (n + 2 * k + 1))) = _
  rw [hkey, hvalue]

theorem writeRow_eq {n : Nat} {values : List Handle}
    (h : ∀ k ∈ List.range' n values.length, Plain beyond k) :
    writeRow beyond n values = writeAll (UInt16.ofNat n) values := by
  induction values generalizing n with
  | nil => rfl
  | cons value values ih =>
    rw [List.length_cons, List.range'_succ] at h
    obtain ⟨hfirst, hrest⟩ := List.forall_mem_cons.mp h
    rw [writeRow, hfirst, ih hrest, UInt16.ofNat_add]
    rfl

/-! ### Single instructions -/

theorem sendRow_eq {name : String}
    (h : ∀ n ∈ List.range' (a.toNat + 1) count.toNat, Plain beyond n) :
    sendRow beyond e name a count = Step.sendRow e name a count := by
  unfold sendRow Step.sendRow
  rw [readRow_behind h]

theorem operator_eq {name : String} (h : Plain beyond (a.toNat + 1)) :
    operator beyond e name a = Step.operator e name a := by
  unfold operator Step.operator
  rw [sendRow_eq]
  intro n hn
  obtain rfl := List.mem_singleton.mp hn
  exact h

theorem arguments_eq {op : Opcode} {packed : UInt16} {block : Bool}
    (h : ∀ n ∈ Instruction.callSums a packed block, Plain beyond n) :
    arguments beyond op a packed = Step.arguments op a packed := by
  unfold Instruction.callSums at h
  unfold arguments Step.arguments
  dsimp only at h ⊢
  split at h
  · next hkeywords => rw [if_pos hkeywords, if_pos hkeywords]
  · next hkeywords =>
    rw [if_neg hkeywords, if_neg hkeywords]
    split at h
    · next hpacked =>
      rw [if_pos hpacked, if_pos hpacked, readAt_next (h _ List.mem_cons_self)]
    · next hpacked =>
      rw [if_neg hpacked, if_neg hpacked, readBehind_eq fun n hn => h n (List.mem_append_left _ hn)]

theorem refuseBlock_eq {i : Instruction} {used : UInt16}
    (h : Plain beyond (i.a.toNat + used.toNat + 1)) :
    refuseBlock beyond i used = Step.refuseBlock i used := by
  have hindex : UInt16.ofNat (i.a.toNat + used.toNat + 1) = i.a + used + 1 := by
    rw [UInt16.ofNat_add, UInt16.ofNat_add, UInt16.ofNat_toNat, UInt16.ofNat_toNat]
    rfl
  unfold refuseBlock Step.refuseBlock
  rw [readAt_eq h, hindex]

/-- The block stands behind the arguments, however many registers these take. -/
theorem used_mem_callSums {op : Opcode} {packed used : UInt16} {args : List Handle} {s s' : Activation}
    (h : Step.arguments op a packed s = .ok (args, used) s') :
    a.toNat + used.toNat + 1 ∈ Instruction.callSums a packed true := by
  unfold Step.arguments at h
  unfold Instruction.callSums
  dsimp only at h ⊢
  split at h
  · cases h
  · next hkeywords =>
    rw [if_neg hkeywords]
    split at h
    · next hpacked =>
      rw [if_pos hpacked]
      change (act (demand _) >>= _) s = _ at h
      cases hact : act (demand (·.array (s.frame.get (a + 1)))) s with
      | ok items s₁ =>
        rw [carryOn_of_ok hact] at h
        obtain ⟨hanswer, _⟩ := EStateM.Result.ok.inj h
        obtain ⟨_, rfl⟩ := Prod.mk.inj hanswer
        exact List.mem_cons_of_mem _ (List.mem_singleton_self _)
      | error halt s₁ =>
        rw [carryOn_of_error hact] at h
        cases h
    · next hpacked =>
      rw [if_neg hpacked]
      obtain ⟨hanswer, _⟩ := EStateM.Result.ok.inj h
      obtain ⟨_, rfl⟩ := Prod.mk.inj hanswer
      exact List.mem_append_right _ (List.mem_singleton_self _)

/-- Two ways to go on are the same if they are for all that there can be to go on with. -/
theorem bind_congr_of_ok {α β : Type} {first : Step α} {f g : α → Step β}
    (h : ∀ s x s', first s = .ok x s' → f x = g x) : (first >>= f) = (first >>= g) := by
  funext s
  cases hfirst : first s with
  | ok x s' => rw [carryOn_of_ok hfirst, carryOn_of_ok hfirst, h s x s' hfirst]
  | error halt s' => rw [carryOn_of_error hfirst, carryOn_of_error hfirst]

theorem sendTo_eq {i : Instruction} {receiver : Handle} {block : Bool}
    (h : ∀ n ∈ Instruction.callSums i.a i.c block, Plain beyond n) :
    sendTo beyond e i receiver block = Step.sendTo e i receiver block := by
  unfold sendTo Step.sendTo
  rewrite [arguments_eq h]
  cases block with
  | false => rfl
  | true =>
    -- Where the block stands is known only once the arguments are read.
    refine bind_congr_of_ok fun s given s' hgiven => ?_
    exact congrArg (· >>= _) (refuseBlock_eq (h _ (used_mem_callSums hgiven)))

theorem superSend_eq {i : Instruction}
    (h : ∀ n ∈ Instruction.callSums i.a i.b false, Plain beyond n) :
    superSend beyond e i = Step.superSend e i := by
  unfold superSend Step.superSend
  congr 1
  funext active
  cases active with
  | none => rfl
  | some active => exact congrArg (· >>= _) (arguments_eq h)

theorem arrayCat_eq (h : Plain beyond (a.toNat + 1)) : arrayCat beyond a = Step.arrayCat a := by
  unfold arrayCat Step.arrayCat
  rw [readAt_next h]

theorem arrayPost_eq {i : Instruction}
    (h : ∀ n ∈ List.range' (i.a.toNat + 1) i.c.toNat, Plain beyond n) :
    arrayPost beyond i = Step.arrayPost i := by
  unfold arrayPost Step.arrayPost
  congr 1
  funext source
  congr 1
  funext items
  have hcount := (destructures_splitPost items i.b.toNat i.c.toNat).count
  dsimp only
  rewrite [writeRow_eq (by rwa [hcount]), ofNat_toNat_succ]
  rfl

theorem strCat_eq (h : Plain beyond (a.toNat + 1)) : strCat beyond e a = Step.strCat e a := by
  unfold strCat Step.strCat
  rewrite [readAt_next h]
  congr 1
  funext piece
  congr 1
  funext known
  cases known with
  | some text => rfl
  | none => rfl

theorem hashAdd_eq
    (h : ∀ k ∈ (Instruction.pairSums (a.toNat + 1) count.toNat).flatMap fun q => [q.1, q.2],
      Plain beyond k) :
    hashAdd beyond a count = Step.hashAdd a count := by
  unfold hashAdd Step.hashAdd
  rw [readPairs_pairs h, ofNat_toNat_succ]

theorem hashCat_eq (h : Plain beyond (a.toNat + 1)) : hashCat beyond a = Step.hashCat a := by
  unfold hashCat Step.hashCat
  rw [readAt_next h]

theorem range_eq {exclusive : Bool} (h : Plain beyond (a.toNat + 1)) :
    range beyond a exclusive = Step.range a exclusive := by
  unfold range Step.range
  rw [readAt_next h]

theorem openClass_eq {i : Instruction} (h : Plain beyond (i.a.toNat + 1)) :
    openClass beyond i = Step.openClass i := by
  unfold openClass Step.openClass
  rw [readAt_next h]

theorem defMethod_eq {i : Instruction} (h : Plain beyond (i.a.toNat + 1)) :
    defMethod beyond i = Step.defMethod i := by
  unfold defMethod Step.defMethod
  rw [readAt_next h]

end Equations

/-! ### All of them -/

/-- **Where all indices come out as words, the exact interpreter is the interpreter.** -/
theorem execute_eq {beyond : Nat → Step UInt16} {e : Engine} {i : Instruction}
    (h : ∀ n ∈ i.sums, Plain beyond n) : execute beyond e i = Step.execute e i := by
  obtain ⟨op, a, b, c⟩ := i
  cases op with
  | getIndex | add | sub | mul | div | eq | lt | le | gt | ge =>
    exact operator_eq (h _ (List.mem_singleton_self _))
  | setIndex => exact congrArg discard (sendRow_eq h)
  | selfSend | selfSendBlk =>
    exact congrArg (view (·.context.self) >>= ·) (funext fun receiver => sendTo_eq h)
  | send | sendBlk => exact congrArg (read a >>= ·) (funext fun receiver => sendTo_eq h)
  | superSend => exact superSend_eq h
  | array =>
    show (readRow beyond _ >>= _) = _
    rw [readRow_span h, UInt16.ofNat_toNat]
    rfl
  | arrayFrom =>
    show (readRow beyond _ >>= _) = _
    rw [readRow_span h, UInt16.ofNat_toNat]
    rfl
  | arrayCat => exact arrayCat_eq (h _ (List.mem_singleton_self _))
  | arrayPush =>
    show (read a >>= fun target => readBehind beyond a b >>= appendItems target) = _
    rw [readBehind_eq h]
    rfl
  | arrayPost => exact arrayPost_eq h
  | strCat => exact strCat_eq (h _ (List.mem_singleton_self _))
  | hash =>
    show (readPairs beyond _ >>= _) = _
    rw [readPairs_pairs h, UInt16.ofNat_toNat]
    rfl
  | hashAdd => exact hashAdd_eq h
  | hashCat => exact hashCat_eq (h _ (List.mem_singleton_self _))
  | rangeInc | rangeExc => exact range_eq (h _ (List.mem_singleton_self _))
  | openClass => exact openClass_eq (h _ (List.mem_singleton_self _))
  | defMethod => exact defMethod_eq (h _ (List.mem_singleton_self _))
  | _ => rfl

theorem take_eq {beyond : Nat → Step UInt16} {e : Engine} {p : Placed}
    (h : ∀ n ∈ p.instruction.sums, Plain beyond n) : take beyond e p = Step.take e p := by
  have hexecute := execute_eq (e := e) h
  obtain ⟨offset, op, a, b, c⟩ := p
  cases op with
  | jump | jumpIf | jumpUnless | jumpNil | jumpUnwind | ret | retBlk | stop => rfl
  | _ => exact congrArg (· >>= fun _ => return Flow.next) hexecute

end Step.Exact

/-! ## Decoded instructions -/

namespace Instruction

section Operands

variable {op : Opcode} {a b c : UInt16}

/-- The first operand has eight bits in all shapes but one. -/
theorem Fits.a_lt (h : Fits { op, a, b, c }) (hshape : op.shape ≠ .s) : a.toNat < 256 := by
  unfold Fits at h
  dsimp only at h
  split at h
  · rw [h.1]
    decide
  · exact h.1
  · exact h.1
  · exact h.1
  · exact h.1
  · exact h
  · contradiction

theorem Fits.b_lt (h : Fits { op, a, b, c }) (hshape : op.shape = .bb ∨ op.shape = .bbb) :
    b.toNat < 256 := by
  unfold Fits at h
  rcases hshape with hshape | hshape
  · rw [hshape] at h
    exact h.2.1
  · rw [hshape] at h
    exact h.2.1

theorem Fits.c_lt (h : Fits { op, a, b, c }) (hshape : op.shape = .bbb) : c.toNat < 256 := by
  unfold Fits at h
  rw [hshape] at h
  exact h.2.2

end Operands

/-- A call looks no further than fourteen arguments and a block behind them. -/
theorem callSums_le {a packed : UInt16} {block : Bool} (ha : a.toNat < 256) :
    ∀ n ∈ callSums a packed block, n ≤ 271 := by
  have hpositional : (packed &&& 0x0F).toNat ≤ 15 := by
    rw [UInt16.toNat_and]
    exact Nat.and_le_right
  unfold callSums
  dsimp only
  intro n hn
  split at hn
  · cases hn
  · split at hn
    · rcases List.mem_cons.mp hn with rfl | hn
      · omega
      · split at hn
        · have hn := List.mem_singleton.mp hn
          omega
        · cases hn
    · rcases List.mem_append.mp hn with hn | hn
      · rcases List.mem_cons.mp hn with rfl | hn
        · omega
        · have hn := List.mem_range'_1.mp hn
          omega
      · split at hn
        · have hn := List.mem_singleton.mp hn
          omega
        · cases hn

theorem pairSums_le {first count : Nat} (hcount : count < 256) :
    ∀ n ∈ (pairSums first count).flatMap fun q => [q.1, q.2], n ≤ first + 509 := by
  intro n hn
  obtain ⟨q, hq, hn⟩ := List.mem_flatMap.mp hn
  obtain ⟨k, hk, rfl⟩ := List.mem_map.mp hq
  have hk := List.mem_range.mp hk
  have hn : n = first + 2 * k ∨ n = first + 2 * k + 1 := by simpa using hn
  omega

/-- **The indices that a decoded instruction computes are small.** -/
theorem Fits.sums_le {i : Instruction} (h : i.Fits) : ∀ n ∈ i.sums, n ≤ 765 := by
  obtain ⟨op, a, b, c⟩ := i
  intro n hn
  cases op with
  | getIndex | add | sub | mul | div | eq | lt | le | gt | ge | arrayCat | strCat | hashCat | rangeInc
  | rangeExc | openClass | defMethod =>
    have ha := h.a_lt (by decide)
    have hn : n = a.toNat + 1 := List.mem_singleton.mp hn
    omega
  | setIndex =>
    have ha := h.a_lt (by decide)
    have hn : n ∈ [a.toNat + 1, a.toNat + 2] := hn
    have hn : n = a.toNat + 1 ∨ n = a.toNat + 2 := by simpa using hn
    omega
  | selfSend | send | selfSendBlk | sendBlk | superSend =>
    have hle := callSums_le (h.a_lt (by decide)) n hn
    omega
  | array =>
    have ha := h.a_lt (by decide)
    have hb := h.b_lt (by decide)
    have hn : a.toNat ≤ n ∧ n < a.toNat + b.toNat := List.mem_range'_1.mp hn
    omega
  | arrayFrom =>
    have hb := h.b_lt (by decide)
    have hc := h.c_lt (by decide)
    have hn : b.toNat ≤ n ∧ n < b.toNat + c.toNat := List.mem_range'_1.mp hn
    omega
  | arrayPush =>
    have ha := h.a_lt (by decide)
    have hb := h.b_lt (by decide)
    have hn : n ∈ (a.toNat + 1) :: List.range' (a.toNat + 1) b.toNat := hn
    rcases List.mem_cons.mp hn with rfl | hn
    · omega
    · have hn := List.mem_range'_1.mp hn
      omega
  | arrayPost =>
    have ha := h.a_lt (by decide)
    have hc := h.c_lt (by decide)
    have hn : a.toNat + 1 ≤ n ∧ n < a.toNat + 1 + c.toNat := List.mem_range'_1.mp hn
    omega
  | hash =>
    have ha := h.a_lt (by decide)
    have hle : n ≤ a.toNat + 509 := pairSums_le (h.b_lt (by decide)) n hn
    omega
  | hashAdd =>
    have ha := h.a_lt (by decide)
    have hle : n ≤ a.toNat + 1 + 509 := pairSums_le (h.b_lt (by decide)) n hn
    omega
  | _ => cases hn

/-- Decoded instructions write to low registers only. -/
theorem Fits.destinations_le {i : Instruction} (h : i.Fits) : ∀ r ∈ i.destinations, r.toNat ≤ 510 := by
  obtain ⟨op, a, b, c⟩ := i
  intro r hr
  cases op with
  | arrayPost =>
    have ha := h.a_lt (by decide)
    have hc := h.c_lt (by decide)
    have hrow := (mem_destinations_arrayPost (by omega) r).mp hr
    omega
  | nop | setGlobal | setIvar | setClassVar | setConst | setIndex | jump | jumpIf | jumpUnless
  | jumpNil | jumpUnwind | enter | arrayPush | arraySet | strCat | hashAdd | hashCat
  | undefMethod | debug => cases hr
  | _ =>
    have ha := h.a_lt (by decide)
    obtain rfl : r = a := List.mem_singleton.mp hr
    omega

end Instruction

/-- **Loaded code holds instructions whose operands fit**, at every depth. -/
theorem Image.fits_of_ofBytes {bytes : Bytes} {image : Image} (hload : Image.ofBytes bytes = .ok image)
    {root r : Record} (hroot : root ∈ image.records) (hr : r.Within root) {p : Placed}
    (hp : p ∈ r.code.placed) : p.instruction.Fits := by
  obtain ⟨_, _, _, _, is, _, _, _, _, _, _, hencodes, hcode, _⟩ :=
    Image.exists_own_of_ofBytes hload hroot hr
  apply hencodes.1
  rw [← Code.instructions_ofInstructions is, ← hcode]
  exact List.mem_map_of_mem (Array.mem_toList_iff.mpr hp)

/-! ## The file of registers -/

/-- The longest that the registers of a frame can become when a decoded record is evaluated with `count`
arguments. -/
def Record.registerBound (r : Record) (count : Nat) : Nat :=
  max r.registerCount.toNat (max (count + 1) 511)

theorem Frame.size_start (r : Record) (context : Context) (args : List Handle) :
    (Frame.start r context args).registers.size = max r.registerCount.toNat (args.length + 1) := by
  unfold Frame.start
  simp only [Array.size_append, List.size_toArray, List.length_cons, Array.size_replicate]
  omega

/-- A row of writes makes the file reach to the end of the row. -/
theorem Frame.size_setAll (f : Frame) (first : UInt16) (value : Handle) (values : List Handle)
    (hlast : first.toNat + values.length < 2 ^ 16) :
    (f.setAll first (value :: values)).registers.size =
      max f.registers.size (first.toNat + values.length + 1) := by
  induction values generalizing f first value with
  | nil => exact Items.size_put ..
  | cons value' values ih =>
    rw [List.length_cons] at hlast
    have hnext : (first + 1).toNat = first.toNat + 1 := by
      rw [UInt16.toNat_add, UInt16.toNat_one]
      exact Nat.mod_eq_of_lt (by omega)
    rw [Frame.setAll, ih _ _ _ (by omega), hnext, List.length_cons]
    show max (Items.put f.registers first.toNat value).size _ = _
    rw [Items.size_put]
    omega

/-- Registers that are all below a bound do not make the file longer than it. -/
theorem Frame.Written.size_le {D : List UInt16} {f f' : Frame} {bound : Nat} (h : f.Written D f')
    (hD : ∀ r ∈ D, r.toNat < bound) (hf : f.registers.size ≤ bound) : f'.registers.size ≤ bound := by
  induction h with
  | none => exact hf
  | @set f' r _ hr value ih =>
    have hlt := hD r hr
    show (Items.put f'.registers r.toNat value).size ≤ bound
    rw [Items.size_put]
    omega

/-- One instruction keeps the file within a bound that its destinations keep to. -/
theorem Step.size_le_of_take {e : Engine} {p : Placed} {s : Activation} {bound : Nat}
    (hp : ∀ r ∈ p.instruction.destinations, r.toNat < bound) (hs : s.frame.registers.size ≤ bound) :
    (∀ flow s', Step.take e p s = .ok flow s' → s'.frame.registers.size ≤ bound) ∧
      ∀ halt s', Step.take e p s = .error halt s' → s'.frame.registers.size ≤ bound := by
  obtain ⟨hok, herror⟩ := Step.writes_take e p s
  exact ⟨fun flow s' h => (hok flow s' h).size_le hp hs,
    fun halt s' h => (herror halt s' h).size_le hp hs⟩

/-- A whole run keeps the file within a bound that all destinations of its code keep to. -/
theorem Activation.Reaches.size_le {e : Engine} {n position position' : Nat} {s s' : Activation}
    {bound : Nat} (h : Reaches e n position s position' s')
    (hcode : ∀ p ∈ s.frame.record.code.placed, ∀ r ∈ p.instruction.destinations, r.toNat < bound)
    (hs : s.frame.registers.size ≤ bound) : s'.frame.registers.size ≤ bound := by
  induction h with
  | refl => exact hs
  | @step n position _ _ s s₁ _ p flow hp htake _ _ ih =>
    have hrecord := (Step.confined_take e p _ _ _ htake).record
    have hsize := (Step.size_le_of_take (hcode p (Array.mem_of_getElem? hp)) hs).1 flow s₁ htake
    exact ih (hrecord ▸ hcode) hsize

/-- **Register indices are exact.**  The interpreter is its exact counterpart with indices that wrap around.
For every record of a loaded image, at any depth:

* the indices that its instructions compute are below 2^16, and so it makes no difference to any of its
  instructions what would be done about an index that is not;
* in every evaluation, with whatever engine, context, arguments and machine, the file of registers never
  becomes longer than the record says, than the arguments need or than 511, whichever is most, not even by
  an instruction that fails. -/
theorem register_indices_exact {bytes : Bytes} {image : Image} (hload : Image.ofBytes bytes = .ok image)
    {root r : Record} (hroot : root ∈ image.records) (hr : r.Within root) :
    (∀ (e : Engine) (p : Placed), Step.Exact.take Step.Exact.wrapped e p = Step.take e p) ∧
    (∀ p ∈ r.code.placed, (∀ n ∈ p.instruction.sums, n < 2 ^ 16) ∧
      ∀ (beyond : Nat → Step UInt16) (e : Engine), Step.Exact.take beyond e p = Step.take e p) ∧
    ∀ (e : Engine) (context : Context) (args : List Handle) (m : Machine) (n position : Nat)
      (s : Activation), Activation.Reaches e n 0 ⟨.start r context args, m⟩ position s →
      s.frame.registers.size ≤ r.registerBound args.length ∧
      ∀ p, r.code.placed[position]? = some p →
        (∀ flow s', Step.take e p s = .ok flow s' →
          s'.frame.registers.size ≤ r.registerBound args.length) ∧
        ∀ halt s', Step.take e p s = .error halt s' →
          s'.frame.registers.size ≤ r.registerBound args.length := by
  have hfits {p : Placed} (hp : p ∈ r.code.placed) := Image.fits_of_ofBytes hload hroot hr hp
  have hsums {p : Placed} (hp : p ∈ r.code.placed) : ∀ n ∈ p.instruction.sums, n < 2 ^ 16 :=
    fun n hn => Nat.lt_of_le_of_lt ((hfits hp).sums_le n hn) (by decide)
  refine ⟨fun e p => Step.Exact.take_eq fun n _ => Step.Exact.plain_wrapped n, fun p hp =>
    ⟨hsums hp, fun beyond e => ?_⟩, fun e context args m n position s hreaches => ?_⟩
  · exact Step.Exact.take_eq fun n hn => Step.Exact.plain_of_lt beyond (hsums hp n hn)
  · -- The frame starts within the bound, and no destination of the code lies beyond it.
    have hlow : ∀ p ∈ r.code.placed, ∀ d ∈ p.instruction.destinations,
        d.toNat < r.registerBound args.length := by
      intro p hp d hd
      have hle := (hfits hp).destinations_le d hd
      unfold Record.registerBound
      omega
    have hstart : (Frame.start r context args).registers.size ≤ r.registerBound args.length := by
      rw [Frame.size_start]
      unfold Record.registerBound
      omega
    have hsize := hreaches.size_le hlow hstart
    exact ⟨hsize, fun p hp => Step.size_le_of_take (hlow p (Array.mem_of_getElem? hp)) hsize⟩

/-- A script that takes an array apart into the highest registers there are. -/
def highestRegisters : RecordDraft where
  code := #[.instruction { op := .arrayPost, a := 255, b := 0, c := 255 }]

/-- The instruction computes the indices from 256 to 510, none of which is too large, and leaves a file of
511 registers behind, which is as long as it may become. -/
theorem register_indices_exact_highestRegisters :
    ∃ image, Image.ofBytes (ImageDraft.ofRecord highestRegisters).toBytes = .ok image ∧
      highestRegisters.toRecord ∈ image.records ∧
      (∀ (beyond : Nat → Step UInt16) (e : Engine),
        Step.Exact.take beyond e ⟨0, { op := .arrayPost, a := 255, b := 0, c := 255 }⟩ =
          Step.take e ⟨0, { op := .arrayPost, a := 255, b := 0, c := 255 }⟩) ∧
      ∃ s, Activation.Reaches (Run.engine 5) 1 0 ⟨.start highestRegisters.toRecord .topLevel [], .boot⟩ 1 s ∧
        s.frame.registers.size = 511 ∧
        s.frame.registers.size ≤ highestRegisters.toRecord.registerBound 0 := by
  have hparts : ∀ part ∈ (ImageDraft.ofRecord highestRegisters).parts, part.Storable := by
    intro part hpart
    obtain rfl := List.mem_singleton.mp hpart
    refine .intro ⟨by decide, by decide, by decide, by decide, by decide, by decide⟩ ?_
    intro c hc
    cases hc
  have hload : Image.ofBytes (ImageDraft.ofRecord highestRegisters).toBytes =
      .ok (ImageDraft.ofRecord highestRegisters).toImage :=
    (Image.ofBytes_eq_ok_iff _ _).mpr (ImageDraft.imageOf_toBytes hparts (by decide +kernel))
  have hroot : highestRegisters.toRecord ∈ (ImageDraft.ofRecord highestRegisters).toImage.records :=
    List.mem_singleton.mpr rfl
  obtain ⟨_, hcode, hruns⟩ := register_indices_exact hload hroot (.root _)
  refine ⟨_, hload, hroot, (hcode _ ?_).2, ?_⟩
  · exact Array.mem_of_getElem? (i := 0) rfl
  · have hsplit : Step.splitPost (Machine.boot.splat .nil) 0 255 = ([], List.replicate 255 .nil) := by
      decide +kernel
    have htake := Step.take_arrayPost (Run.engine 5) 0 (.start highestRegisters.toRecord .topLevel [])
      .boot 255 0 255 hsplit
    have hsize := Frame.size_setAll ((Frame.start highestRegisters.toRecord .topLevel []).set 255
      Machine.boot.heap.next) 256 .nil (List.replicate 254 .nil) (by decide +kernel)
    have hreaches := Activation.Reaches.step rfl htake rfl (.refl 1 _)
    exact ⟨_, hreaches, hsize.trans (by decide +kernel), (hruns _ _ _ _ _ _ _ hreaches).1⟩

end Rite
