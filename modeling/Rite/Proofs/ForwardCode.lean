import Rite.Proofs.ImageFormat
import Rite.Proofs.Settling

/-!
# Code that goes forward

A record goes forward if none of its jumps leads back and it defines no method under one of the two
names by which objects are turned into text.  `Record.Tame` asks this of a record and of everything
nested in it, and `Heap.Tame` asks it of all code that a machine can come to run: of the bodies in
method objects and in method tables.  Under the two names there is then no body of instructions in
any table, so turning an object into text never leaves the builtin methods.

No instruction but the two that make and install method bodies can do harm to a tame heap
(`keptBy_tame`).
-/

namespace Rite

/-! ## Records -/

/-- The methods that turn an object into text. -/
def textMethods : List String := ["to_s", "inspect"]

/-- `Within r root`: the record `r` is `root` or is nested in it, at any depth. -/
inductive Record.Within : Record → Record → Prop
  | root (r : Record) : Within r r
  | nested {r c root : Record} (hc : c ∈ root.children) (h : Within r c) : Within r root

/-- The code of the record has no jump back and defines neither of the text methods. -/
structure Record.GoesForward (r : Record) : Prop where
  jumps : ∀ p ∈ r.code.placed, ∀ distance, p.instruction.jumpOffset? = some distance → 0 ≤ distance
  names : ∀ p ∈ r.code.placed, p.instruction.op = .defMethod →
    ∀ name, r.symbols[p.instruction.b.toNat]? = some name → name ∉ textMethods

instance (r : Record) : Decidable r.GoesForward :=
  decidable_of_iff
    ((∀ p ∈ r.code.placed, ∀ distance ∈ p.instruction.jumpOffset?, 0 ≤ distance) ∧
      ∀ p ∈ r.code.placed, p.instruction.op = .defMethod →
        ∀ name ∈ r.symbols[p.instruction.b.toNat]?, name ∉ textMethods)
    ⟨fun h => ⟨h.1, h.2⟩, fun h => ⟨h.jumps, h.names⟩⟩

/-- Code that was loaded and goes forward, in the record and in those nested in it. -/
inductive Record.Tame : Record → Prop
  | intro {r : Record} (hcode : ∃ is, r.code = Code.ofInstructions is) (hown : r.GoesForward)
      (hchildren : ∀ c ∈ r.children, c.Tame) : Tame r

namespace Code

/-- Instructions that are laid out one behind the other have growing offsets. -/
theorem placeFrom_sorted (start : Nat) (is : List Instruction) :
    (placeFrom start is).Pairwise (fun p q => p.offset < q.offset) ∧
      ∀ p ∈ placeFrom start is, start ≤ p.offset := by
  induction is generalizing start with
  | nil => exact ⟨.nil, fun p hp => absurd hp List.not_mem_nil⟩
  | cons i is ih =>
    obtain ⟨hsorted, hstart⟩ := ih (start + i.encodedSize)
    have hpos := i.encodedSize_pos
    refine ⟨.cons (fun p hp => ?_) hsorted, fun p hp => ?_⟩
    · have hp := hstart p hp
      show start < p.offset
      omega
    · rcases List.mem_cons.mp hp with rfl | hp
      · exact Nat.le_refl _
      · have hp := hstart p hp
        omega

/-- The position of an offset behind an instruction comes after that instruction. -/
theorem lt_of_positionOf? {is : List Instruction} {position target found : Nat} {p : Placed}
    (hp : (ofInstructions is).placed[position]? = some p) (htarget : p.offset < target)
    (hfound : (ofInstructions is).positionOf? target = some found) : position < found := by
  obtain ⟨hposition, rfl⟩ := Array.getElem?_eq_some_iff.mp hp
  unfold positionOf? at hfound
  split at hfound
  · cases hfound
    exact hposition
  · obtain ⟨hlt, hoffset, _⟩ := Array.findIdx?_eq_some_iff_getElem.mp hfound
    -- What stands at `position` or before it has no greater offset than `p`.
    by_contra hle
    have hsorted := (placeFrom_sorted 0 is).1
    rcases Nat.lt_or_eq_of_le (Nat.le_of_not_lt hle) with hbefore | rfl
    · have := List.pairwise_iff_getElem.mp hsorted found position hlt hposition hbefore
      simp only [beq_iff_eq] at hoffset
      simp only [ofInstructions, List.getElem_toArray] at hoffset htarget
      omega
    · simp only [beq_iff_eq] at hoffset
      omega

end Code

/-- **A jump that does not lead back leads forward.** -/
theorem Step.lt_of_landing? {is : List Instruction} {position found : Nat} {p : Placed}
    (hp : (Code.ofInstructions is).placed[position]? = some p)
    (hjump : ∀ distance, p.instruction.jumpOffset? = some distance → 0 ≤ distance)
    (hfound : landing? (Code.ofInstructions is) (jumpTarget p) = some found) : position < found := by
  have hdistance : 0 ≤ p.instruction.jumpOffset?.getD 0 := by
    cases h : p.instruction.jumpOffset? with
    | none => exact Int.le_refl 0
    | some distance => exact hjump distance h
  have hpos := p.instruction.encodedSize_pos
  unfold landing? at hfound
  split at hfound
  · cases hfound
  · refine Code.lt_of_positionOf? hp ?_ hfound
    unfold jumpTarget
    omega

/-! ## Loaded records -/

namespace Format

theorem Row.exists_of_mem {α : Type} {G : Nat → Bytes → α → Prop} {base : Nat} {b : Bytes}
    {xs : List α} (h : Row G base b xs) {x : α} (hx : x ∈ xs) : ∃ base' b', G base' b' x := by
  induction h with
  | nil => cases hx
  | cons hfirst _ ih =>
    rcases List.mem_cons.mp hx with rfl | hx
    · exact ⟨_, _, hfirst⟩
    · exact ih hx

/-- A stored tree of records is tame if all its records go forward. -/
theorem RecordWithin.tame {depth base : Nat} {b : Bytes} {root : Record} {notes : List Discrepancy}
    (h : RecordWithin depth base b (root, notes))
    (hforward : ∀ r : Record, r.Within root → r.GoesForward) : root.Tame := by
  induction depth generalizing base b root notes with
  | zero => exact h.elim
  | succ depth ih =>
    obtain ⟨own, inner, declared, kids, _, hown, hrow, hkids, _⟩ := h
    obtain ⟨_, _, is, _, _, _, _, _, _, _, hcode, _⟩ := hown
    refine .intro ⟨is, hcode⟩ (hforward root (.root root)) fun c hc => ?_
    have hc' := hc
    rw [hkids] at hc'
    obtain ⟨⟨_, inside⟩, hkid, rfl⟩ := List.mem_map.mp hc'
    obtain ⟨base', b', hwithin⟩ := hrow.exists_of_mem hkid
    exact ih hwithin fun r hr => hforward r (.nested hc hr)

/-- Every record of a stored tree has bytes of its own. -/
theorem RecordWithin.exists_own {depth base : Nat} {b : Bytes} {root : Record}
    {notes : List Discrepancy} (h : RecordWithin depth base b (root, notes)) {r : Record}
    (hr : r.Within root) : ∃ own declared, RecordOwn own declared r := by
  induction hr generalizing depth base b notes with
  | root =>
    cases depth with
    | zero => exact h.elim
    | succ depth =>
      obtain ⟨own, _, declared, _, _, hown, _⟩ := h
      exact ⟨own, declared, hown⟩
  | nested hc _ ih =>
    cases depth with
    | zero => exact h.elim
    | succ depth =>
      obtain ⟨_, _, _, kids, _, _, hrow, hkids, _⟩ := h
      rw [hkids] at hc
      obtain ⟨⟨c, inside⟩, hkid, rfl⟩ := List.mem_map.mp hc
      obtain ⟨base', b', hwithin⟩ := hrow.exists_of_mem hkid
      exact ih hwithin

theorem SectionsAt.exists_of_mem {base : Nat} {b : Bytes} {roots : List Record}
    {notes : List Discrepancy} (h : SectionsAt base b roots notes) {root : Record}
    (hroot : root ∈ roots) :
    ∃ depth base' b' inside, RecordWithin depth base' b' (root, inside) := by
  induction h with
  | done => cases hroot
  | stop => cases hroot
  | locals _ _ ih => exact ih hroot
  | record _ hfirst _ ih =>
    rcases List.mem_cons.mp hroot with rfl | hroot
    · exact ⟨_, _, _, _, hfirst⟩
    · exact ih hroot

end Format

/-- Every record of a loaded image, at any depth, was stored in bytes of its own. -/
theorem Image.exists_own_of_ofBytes {bytes : Bytes} {image : Image}
    (hload : Image.ofBytes bytes = .ok image) {root r : Record} (hroot : root ∈ image.records)
    (hr : r.Within root) : ∃ own declared, Format.RecordOwn own declared r := by
  obtain ⟨_, _, _, _, _, hsections, _⟩ := (Image.ofBytes_eq_ok_iff bytes image).mp hload
  obtain ⟨_, _, _, _, hwithin⟩ := hsections.exists_of_mem hroot
  exact hwithin.exists_own hr

/-- **The records of a loaded image are tame** if all of them go forward. -/
theorem Image.tame_of_ofBytes {bytes : Bytes} {image : Image}
    (hload : Image.ofBytes bytes = .ok image)
    (hforward : ∀ root ∈ image.records, ∀ r : Record, r.Within root → r.GoesForward) :
    ∀ root ∈ image.records, root.Tame := by
  intro root hroot
  obtain ⟨_, _, _, _, _, hsections, _⟩ := (Image.ofBytes_eq_ok_iff bytes image).mp hload
  obtain ⟨_, _, _, _, hwithin⟩ := hsections.exists_of_mem hroot
  exact hwithin.tame (hforward root hroot)

/-! ## Heaps -/

/-- The builtin methods that turn an object into text.  They make strings, and set off nothing but
each other. -/
def Primitive.isQuiet : Primitive → Bool
  | .text _ | .ofObject .inspect | .ofObject .toS | .ofClass .name | .ofInteger .toS
  | .ofString .toS | .ofString .inspect | .ofSymbol .toS | .ofSymbol .inspect | .ofArray .inspect
  | .ofHash .inspect | .ofRange .inspect | .ofRange .toS => true
  | _ => false

/-- A method that may stand in a table under `name`. -/
def Method.Tame (name : String) : Method → Prop
  | .native builtin => name ∈ textMethods → builtin.primitive.isQuiet = true
  | .bytecode body => body.Tame ∧ name ∉ textMethods
  | .attrReader _ | .attrWriter _ => True

/-- A payload whose code is tame. -/
def Payload.Tame : Payload → Prop
  | .method held => ∃ body : Record, held = .bytecode body ∧ body.Tame
  | .ofClass info => ∀ entry ∈ info.methods.entries, entry.2.Tame entry.1
  | _ => True

/-- A heap all of whose code is tame. -/
def Heap.Tame (heap : Heap) : Prop := ∀ h, (heap.get h).payload.Tame

namespace Heap.Tame

variable {heap : Heap}

theorem push (hheap : heap.Tame) {o : Object} (ho : o.payload.Tame) : (heap.push o).Tame := by
  intro h
  rw [Heap.get_push]
  split
  · exact ho
  · exact hheap h

theorem modify (hheap : heap.Tame) {h : Handle} {f : Object → Object}
    (hf : ∀ o : Object, o.payload.Tame → (f o).payload.Tame) : (heap.modify h f).Tame := by
  intro x
  rw [Heap.get_modify]
  split
  · exact hf _ (hheap h)
  · exact hheap x

end Heap.Tame

namespace Object

variable {o : Object}

theorem tame_mapItems (f : Array Handle → Array Handle) (ho : o.payload.Tame) :
    (o.mapItems f).payload.Tame := by
  obtain ⟨_, _, _, payload⟩ := o
  cases payload with
  | array => exact trivial
  | _ => exact ho

theorem tame_mapText (f : String → String) (ho : o.payload.Tame) : (o.mapText f).payload.Tame := by
  obtain ⟨_, _, _, payload⟩ := o
  cases payload with
  | string => exact trivial
  | _ => exact ho

theorem tame_mapPairs (f : List (Handle × Handle) → List (Handle × Handle))
    (ho : o.payload.Tame) : (o.mapPairs f).payload.Tame := by
  obtain ⟨_, _, _, payload⟩ := o
  cases payload with
  | hash => exact trivial
  | _ => exact ho

theorem tame_mapMethods {f : Table Method → Table Method}
    (hf : ∀ t : Table Method, (∀ entry ∈ t.entries, entry.2.Tame entry.1) →
      ∀ entry ∈ (f t).entries, entry.2.Tame entry.1) (ho : o.payload.Tame) :
    (o.mapMethods f).payload.Tame := by
  obtain ⟨_, _, _, payload⟩ := o
  cases payload with
  | ofClass info => exact hf info.methods ho
  | _ => exact ho

theorem tame_define {name : String} {method : Method} (hmethod : method.Tame name)
    (ho : o.payload.Tame) : (o.mapMethods (·.insert name method)).payload.Tame := by
  refine tame_mapMethods (fun t ht entry hentry => ?_) ho
  rcases Table.mem_insert hentry with rfl | hentry
  · exact hmethod
  · exact ht entry hentry

theorem tame_undefine (name : String) (ho : o.payload.Tame) :
    (o.mapMethods (·.erase name)).payload.Tame :=
  tame_mapMethods (fun _ ht entry hentry => ht entry (List.mem_of_mem_filter hentry)) ho

end Object

/-- No loop gives up, and method bodies are neither made nor installed. -/
def Permit.codeKept : Permit := ⟨False, True, False, True⟩

/-- **Only the instructions that make and install method bodies can harm a tame heap.** -/
theorem keptBy_tame : KeptBy .codeKept Heap.Tame where
  endless := id
  step {m heap} hheap hstep := by
    cases hstep with
    | same => exact hheap
    | @newObject _ payload _ hfresh hmethod =>
      refine hheap.push ?_
      cases payload with
      | method method => exact (hmethod method rfl).elim
      | ofClass info => exact hfresh.elim
      | _ => exact trivial
    | newClass name parent => exact hheap.push fun entry hentry => absurd hentry List.not_mem_nil
    | newModule name => exact hheap.push fun entry hentry => absurd hentry List.not_mem_nil
    | adopt h name =>
      have hpushed : (m.heap.push (.newClass name Handle.classClass)).Tame :=
        hheap.push fun entry hentry => absurd hentry List.not_mem_nil
      exact hpushed.modify fun _ ho => ho
    | define c name method hmethod =>
      refine hheap.modify fun _ => Object.tame_define ?_
      obtain hbody | haccessor := hmethod
      · exact hbody.elim
      · cases method with
        | attrReader | attrWriter => exact trivial
        | native | bytecode => exact haccessor.elim
    | undefine c name => exact hheap.modify fun _ => Object.tame_undefine name
    | setIvar h name value => exact hheap.modify fun _ ho => ho
    | changeItems h f => exact hheap.modify fun _ => Object.tame_mapItems f
    | appendText h text _ => exact hheap.modify fun _ => Object.tame_mapText _
    | hashSet h key value =>
      unfold Heap.hashSet
      split
      · exact hheap.modify fun _ => Object.tame_mapPairs _
      · exact hheap

/-- A check for payloads without bodies of instructions. -/
def Payload.isTame : Payload → Bool
  | .method _ => false
  | .ofClass info => info.methods.entries.all fun entry =>
      match entry.2 with
      | .native builtin => decide (entry.1 ∈ textMethods → builtin.primitive.isQuiet = true)
      | _ => false
  | _ => true

theorem Payload.tame_of_isTame {payload : Payload} (h : payload.isTame = true) : payload.Tame := by
  cases payload with
  | method => cases h
  | ofClass info =>
    intro entry hentry
    have hcheck := List.all_eq_true.mp h entry hentry
    cases hmethod : entry.2 with
    | native builtin =>
      rw [hmethod] at hcheck
      have hquiet : entry.1 ∈ textMethods → builtin.primitive.isQuiet = true :=
        of_decide_eq_true hcheck
      exact hquiet
    | bytecode | attrReader | attrWriter =>
      rw [hmethod] at hcheck
      cases hcheck
  | _ => exact trivial

/-- The heap at the start holds builtin methods only, and quiet ones under the two names. -/
theorem Boot.heap_tame : machine.heap.Tame := by
  have hobjects : ∀ i < 18, (machine.heap.get ⟨i⟩).payload.isTame = true := by decide +kernel
  intro h
  by_cases hh : machine.Valid h
  · exact Payload.tame_of_isTame (hobjects h.index hh)
  · rw [Heap.get_of_size_le _ (Nat.le_of_not_lt hh)]
    exact trivial

/-! ## Looking up tame methods -/

namespace Machine

variable {m : Machine} {name : String} {found : Found}

theorem tame_of_entry (hm : m.heap.Tame) {c : Handle} {info : ClassInfo} {method : Method}
    (hinfo : m.classInfo? c = some info) (h : info.methods.find? name = some method) :
    method.Tame name := by
  have hpayload : (m.heap.get c).payload = .ofClass info := by
    unfold classInfo? Object.classInfo? object at hinfo
    split at hinfo
    · next heq => rw [heq, Option.some.inj hinfo]
    · cases hinfo
  have hclass := hm c
  rw [hpayload] at hclass
  exact hclass (name, method) (Table.mem_of_find? h)

theorem tame_of_orMissing (hm : m.heap.Tame) {h : Handle} {start : Option Handle}
    (hfound : m.orMissing h name (m.lookupFrom start name) = .ok found) :
    found.method.Tame name := by
  cases hlookup : m.lookupFrom start name with
  | error f =>
    rw [hlookup] at hfound
    cases hfound
  | ok x =>
    rw [hlookup] at hfound
    cases x with
    | none => cases hfound
    | some y =>
      cases hfound
      obtain ⟨c, hc⟩ := exists_visit_of_ascend hlookup
      unfold ownMethod at hc
      split at hc
      · next info hinfo =>
        obtain ⟨method, hmethod, hsame⟩ := Option.map_eq_some_iff.mp (Except.ok.inj hc)
        rw [← hsame]
        exact tame_of_entry hm hinfo hmethod
      · cases hc

theorem tame_of_lookupMethod (hm : m.heap.Tame) {h : Handle}
    (hfound : m.lookupMethod h name = .ok found) : found.method.Tame name := by
  unfold lookupMethod at hfound
  split at hfound
  · next own hown =>
    cases hfound
    unfold singletonMethod? at hown
    split at hown
    · cases hown
    · split at hown
      · next info hinfo =>
        obtain ⟨method, hmethod, hsame⟩ := Option.map_eq_some_iff.mp hown
        rw [← hsame]
        exact tame_of_entry hm hinfo hmethod
      · cases hown
  · exact tame_of_orMissing hm hfound

theorem tame_of_lookupAbove (hm : m.heap.Tame) {h owner : Handle}
    (hfound : m.lookupAbove h owner name = .ok found) : found.method.Tame name :=
  tame_of_orMissing hm hfound

end Machine

end Rite
