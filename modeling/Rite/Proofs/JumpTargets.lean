import Rite.Proofs.Comparison
import Rite.Proofs.ForwardCode
import Rite.Proofs.ImageRoundTrip

/-!
# Where jumps land

The code of a loaded record is laid out without gaps, so its offsets grow and stay below its size.
Looking up an offset is then exact: it finds the one instruction that starts there, or the end of the
code.  A jump that is taken goes to the position of its target if the target has one, and is a fault
that names the target otherwise.

It follows that control never leaves the code: wherever an evaluation stands, it stands in front of
one of the instructions or behind the last of them.  `Frame.trace` writes down where it stands.
-/

namespace Rite

/-! ## Offsets -/

namespace Code

/-- The instructions are laid out in order and inside the section. -/
structure Laid (code : Code) : Prop where
  sorted : code.offsets.Pairwise (· < ·)
  below : ∀ offset ∈ code.offsets, offset < code.size

/-- `target` is the offset of position `j`.  The position behind the last instruction has the size of
the code as its offset. -/
def StartsAt (code : Code) (j : Nat) (target : Int) : Prop :=
  (∃ offset : Nat, code.offsets[j]? = some offset ∧ target = offset) ∨
    (j = code.length ∧ target = code.size)

theorem length_offsets (code : Code) : code.offsets.length = code.length := by
  simp [offsets, length]

theorem length_instructions (code : Code) : code.instructions.length = code.length := by
  simp [instructions, length]

theorem offsets_getElem? (code : Code) (j : Nat) :
    code.offsets[j]? = code.placed[j]?.map (·.offset) := by
  simp [offsets]

theorem laid_ofInstructions (is : List Instruction) : (ofInstructions is).Laid := by
  constructor
  · show ((placeFrom 0 is).map (·.offset)).Pairwise (· < ·)
    rw [List.pairwise_map]
    exact (placeFrom_sorted 0 is).1
  · intro offset hoffset
    obtain ⟨p, hp, rfl⟩ := List.mem_map.mp hoffset
    have hend : p.offset + p.instruction.encodedSize ≤ 0 + (is.flatMap Instruction.encode).length :=
      end_le_of_mem_placeFrom hp
    have hpos := p.instruction.encodedSize_pos
    show p.offset < (is.flatMap Instruction.encode).length
    omega

namespace Laid

variable {code : Code}

/-- **Lookup is exact.**  Since the offsets grow, the first instruction with an offset is the only one,
and since they stay below the size, the end of the code is no instruction's offset. -/
theorem positionOf?_eq_some_iff (h : code.Laid) (x i : Nat) :
    code.positionOf? x = some i ↔
      code.offsets[i]? = some x ∨ (i = code.length ∧ x = code.size) := by
  unfold positionOf?
  split
  · next hend =>
    constructor
    · intro hi
      exact .inr ⟨(Option.some.inj hi).symm, hend⟩
    · rintro (hoffset | ⟨rfl, _⟩)
      · have hlt := h.below x (List.mem_of_getElem? hoffset)
        omega
      · rfl
  · next hne =>
    rw [Array.findIdx?_eq_some_iff_getElem]
    constructor
    · rintro ⟨hi, hx, _⟩
      left
      rw [offsets_getElem?, Array.getElem?_eq_getElem hi, Option.map_some, beq_iff_eq.mp hx]
    · rintro (hoffset | ⟨_, hend⟩)
      · have hplaced := hoffset
        rw [offsets_getElem?] at hplaced
        obtain ⟨p, hp, hpx⟩ := Option.map_eq_some_iff.mp hplaced
        obtain ⟨hi, hget⟩ := Array.getElem?_eq_some_iff.mp hp
        refine ⟨hi, by rw [hget, hpx, beq_self_eq_true], ?_⟩
        intro j hji hj
        -- An earlier instruction has a smaller offset.
        have hj' : j < code.offsets.length := by rw [length_offsets]; exact Nat.lt_trans hji hi
        have hi' : i < code.offsets.length := by rw [length_offsets]; exact hi
        have hless := List.pairwise_iff_getElem.mp h.sorted j i hj' hi' hji
        obtain ⟨_, hxi⟩ := List.getElem?_eq_some_iff.mp hoffset
        have hxj : code.offsets[j] = x := by
          simp only [offsets, List.getElem_map, Array.getElem_toList]
          exact beq_iff_eq.mp hj
        omega
      · exact absurd hend hne

/-- Lookup of a signed offset. -/
theorem landing?_eq_some_iff (h : code.Laid) (target : Int) (j : Nat) :
    Step.landing? code target = some j ↔ code.StartsAt j target := by
  unfold Step.landing? StartsAt
  split
  · next hneg =>
    constructor
    · intro hj
      cases hj
    · rintro (⟨offset, _, htarget⟩ | ⟨_, htarget⟩) <;> omega
  · next hpos =>
    rw [h.positionOf?_eq_some_iff]
    constructor
    · rintro (hoffset | ⟨hj, hend⟩)
      · exact .inl ⟨target.toNat, hoffset, by omega⟩
      · exact .inr ⟨hj, by omega⟩
    · rintro (⟨offset, hoffset, rfl⟩ | ⟨hj, hend⟩)
      · exact .inl hoffset
      · exact .inr ⟨hj, by omega⟩

end Laid

/-- What has an offset is a position of the code, the end included. -/
theorem StartsAt.le_length {code : Code} {j : Nat} {target : Int} (h : code.StartsAt j target) :
    j ≤ code.length := by
  rcases h with ⟨offset, hoffset, _⟩ | ⟨rfl, _⟩
  · obtain ⟨hj, _⟩ := List.getElem?_eq_some_iff.mp hoffset
    rw [length_offsets] at hj
    exact Nat.le_of_lt hj
  · exact Nat.le_refl _

end Code

/-- **Loaded code is laid out in order**, at every depth. -/
theorem Image.laid_of_ofBytes {bytes : Bytes} {image : Image} (hload : Image.ofBytes bytes = .ok image)
    {root r : Record} (hroot : root ∈ image.records) (hr : r.Within root) : r.code.Laid := by
  obtain ⟨_, _, _, _, is, _, _, _, _, _, _, _, hcode, _⟩ := Image.exists_own_of_ofBytes hload hroot hr
  rw [hcode]
  exact Code.laid_ofInstructions is

/-! ## Jumps -/

namespace Step

variable {e : Engine} {p : Placed} {s s' : Activation}

/-- The instruction is a jump, and its condition holds. -/
def TakesJump (p : Placed) (s : Activation) : Prop :=
  match p.instruction.op with
  | .jump => True
  | .jumpIf => (s.frame.get p.instruction.a).truthy = true
  | .jumpUnless => (s.frame.get p.instruction.a).truthy = false
  | .jumpNil => s.frame.get p.instruction.a = Handle.nil
  | .jumpUnwind => s.frame.record.catchCount = 0
  | _ => False

theorem jump_eq (p : Placed) (s : Activation) :
    jump p s =
      match landing? s.frame.record.code (jumpTarget p) with
      | some position => .ok (.jump position) s
      | none => .error (.fault (.invalidJumpTarget (jumpTarget p))) s := by
  change (match landing? s.frame.record.code (jumpTarget p) with
    | some position => (pure (.jump position) : Step Flow)
    | none => fail (.invalidJumpTarget (jumpTarget p))) s = _
  cases landing? s.frame.record.code (jumpTarget p) <;> rfl

/-- All jumps that are taken are carried out in the same way. -/
theorem take_of_takesJump (h : TakesJump p s) : take e p s = jump p s := by
  unfold TakesJump at h
  unfold take
  split at h
  · next hop => simp only [hop]
  · next hop =>
    simp only [hop]
    change jumpWhen (s.frame.get p.instruction.a).truthy p s = _
    rw [h]
    rfl
  · next hop =>
    simp only [hop]
    change jumpWhen (!(s.frame.get p.instruction.a).truthy) p s = _
    rw [h]
    rfl
  · next hop =>
    simp only [hop]
    change jumpWhen (s.frame.get p.instruction.a = Handle.nil) p s = _
    rw [h]
    rfl
  · next hop =>
    simp only [hop]
    change (if s.frame.record.catchCount > 0 then fail (.notImplemented _) else jump p) s = _
    rw [h]
    rfl
  · exact h.elim

/-- A jump that is taken has a distance. -/
theorem exists_distance (h : TakesJump p s) :
    ∃ distance, p.instruction.jumpOffset? = some distance ∧
      jumpTarget p = p.offset + p.instruction.encodedSize + distance := by
  have hsome : ∃ distance, p.instruction.jumpOffset? = some distance := by
    unfold TakesJump at h
    unfold Instruction.jumpOffset?
    split at h
    · next hop => exact ⟨_, by rw [hop]⟩
    · next hop => exact ⟨_, by rw [hop]⟩
    · next hop => exact ⟨_, by rw [hop]⟩
    · next hop => exact ⟨_, by rw [hop]⟩
    · next hop => exact ⟨_, by rw [hop]⟩
    · exact h.elim
  obtain ⟨distance, hdistance⟩ := hsome
  refine ⟨distance, hdistance, ?_⟩
  rw [jumpTarget, hdistance]
  rfl

/-- **A jump that is taken** goes to the position that starts at its target, and there only.  Neither
the frame nor the machine is touched. -/
theorem take_eq_jump_iff (hlaid : s.frame.record.code.Laid) (h : TakesJump p s) (j : Nat) :
    take e p s = .ok (.jump j) s ↔ s.frame.record.code.StartsAt j (jumpTarget p) := by
  rw [take_of_takesJump h, jump_eq, ← hlaid.landing?_eq_some_iff]
  cases landing? s.frame.record.code (jumpTarget p) with
  | some position => simp
  | none => simp

/-- A jump to where no instruction starts is a fault that names the place. -/
theorem take_eq_invalid (hlaid : s.frame.record.code.Laid) (h : TakesJump p s)
    (hnone : ∀ j, ¬ s.frame.record.code.StartsAt j (jumpTarget p)) :
    take e p s = .error (.fault (.invalidJumpTarget (jumpTarget p))) s := by
  rw [take_of_takesJump h, jump_eq]
  cases hlanding : landing? s.frame.record.code (jumpTarget p) with
  | some position => exact absurd ((hlaid.landing?_eq_some_iff _ _).mp hlanding) (hnone position)
  | none => rfl

/-- Where control is sent by an instruction, a jump was taken. -/
theorem takesJump_of_take {j : Nat} (h : take e p s = .ok (.jump j) s') : TakesJump p s := by
  have hwhen : ∀ {condition : Bool}, jumpWhen condition p s = .ok (.jump j) s' →
      condition = true := by
    intro condition hjump
    cases condition with
    | true => rfl
    | false => cases hjump
  unfold TakesJump
  revert h
  fun_cases take e p with
  | case1 i hop =>
    intro _
    rw [show p.instruction.op = .jump from hop]
    trivial
  | case2 i hop =>
    intro h
    rw [show p.instruction.op = .jumpIf from hop]
    exact hwhen h
  | case3 i hop =>
    intro h
    rw [show p.instruction.op = .jumpUnless from hop]
    have hfalsy := hwhen h
    simpa using hfalsy
  | case4 i hop =>
    intro h
    rw [show p.instruction.op = .jumpNil from hop]
    exact of_decide_eq_true (hwhen h)
  | case5 i hop =>
    intro h
    rw [show p.instruction.op = .jumpUnwind from hop]
    change (if s.frame.record.catchCount > 0 then fail (.notImplemented _) else jump p) s = _ at h
    by_cases hcount : s.frame.record.catchCount > 0
    · rw [if_pos hcount] at h
      cases h
    · rw [gt_iff_lt, UInt16.lt_iff_toNat_lt] at hcount
      show s.frame.record.catchCount = 0
      rw [← UInt16.toNat_inj]
      exact Nat.eq_zero_of_not_pos hcount
  | case6 i hop =>
    intro h
    cases h
  | case7 i hop =>
    intro h
    cases h
  | case8 i hop =>
    intro h
    cases h
  | case9 i =>
    -- Every other instruction goes on behind itself.
    intro h
    change EStateM.bind (execute e i) (fun _ => pure Flow.next) s = _ at h
    unfold EStateM.bind at h
    cases hstep : execute e i s <;> rw [hstep] at h <;> cases h

end Step

/-! ## Evaluations -/

section Answers

variable {α : Type}

/-- What the action on the left answers is related to something. -/
def Answers (V : α → α → Prop) (a _ : Action α) : Prop :=
  ∀ m x m', a m = .ok x m' → ∃ x', V x x'

theorem Answers.comparison : Comparison @Answers where
  pure {_ _ _ x'} hx m y m' h := by
    obtain ⟨rfl, _⟩ := EStateM.Result.ok.inj h
    exact ⟨x', hx⟩
  bind {_ _ _ _ a _ f _} ha hf m y m' h := by
    change EStateM.bind a f m = _ at h
    unfold EStateM.bind at h
    cases hfirst : a m with
    | ok x m₁ =>
      rw [hfirst] at h
      obtain ⟨x', hx⟩ := ha m x m₁ hfirst
      exact hf x x' hx m₁ y m' h
    | error halt m₁ =>
      rw [hfirst] at h
      cases h
  demand hq hf m y m' h := by
    obtain ⟨fault, hx, _⟩ | ⟨x, x', hx, _, hQ⟩ := (hq m m (.refl_same (fun _ => rfl) m)).elim
    · rw [Action.demand_bind_of_error hx] at h
      cases h
    · rw [Action.demand_bind_of_ok hx] at h
      exact hf x x' hQ m y m' h
  fail _ _ _ _ h := by cases h
  overrun _ _ _ _ h := by cases h
  exhausted _ _ _ _ h := by cases h
  made _ hV _ x _ _ := ⟨x, hV x⟩
  inspecting {_ _ a _} handle ha m x m' h := by
    unfold Action.inspecting at h
    cases hbody : a { m with inspecting := handle :: m.inspecting } with
    | ok y m₁ =>
      rw [hbody] at h
      obtain ⟨rfl, _⟩ := EStateM.Result.ok.inj h
      exact ha _ y m₁ hbody
    | error halt m₁ =>
      rw [hbody] at h
      cases h
  nested {_ _ a _} ha m x m' h := by
    unfold Action.nested at h
    split at h
    · cases h
    · next hroom =>
      cases hbody : a { m with depth := m.depth + 1 } with
      | ok y m₁ =>
        rw [hbody] at h
        obtain ⟨rfl, _⟩ := EStateM.Result.ok.inj h
        exact ha _ y m₁ hbody
      | error halt m₁ =>
        rw [hbody] at h
        cases h

end Answers

/-- No instruction changes the record it belongs to, whatever the engine does. -/
theorem Step.record_of_take {e : Engine} {p : Placed} {s s' : Activation} {flow : Flow}
    (h : take e p s = .ok flow s') : s'.frame.record = s.frame.record := by
  have hframe : Frame.Paired Eq Pairing.same s.frame s.frame :=
    ⟨rfl, fun _ => rfl, .same s.frame.context⟩
  have hengine : ComparedEngine @Answers e e :=
    ⟨le_rfl, fun _ _ _ _ _ x _ _ => ⟨x, rfl⟩, fun _ _ _ _ x _ _ => ⟨x, rfl⟩⟩
  have halike : Alike Eq .full e e Pairing.same ((take e p).on s.frame) ((take e p).on s.frame) _ :=
    alike_take sameCode_eq p (.full _) s.frame s.frame hframe s.frame.record rfl
  have hon : (take e p).on s.frame s.machine = .ok (flow, s'.frame) s'.machine := by
    unfold Step.on
    rw [h]
  obtain ⟨_, _, _, hrecord⟩ := Answers.comparison.alike hengine halike rfl _ _ _ hon
  exact hrecord

namespace Frame

/-- The positions at which a run stands, one after the other, and how it ends. -/
def trace (e : Engine) : (rounds : Nat) → (position : Nat) → Activation →
    List Nat × EStateM.Result Halt Machine Handle
  | 0, position, s => ([position], .error .exhausted s.machine)
  | rounds + 1, position, s =>
    let (later, result) :=
      match s.frame.record.code.placed[position]? with
      | none => ([], .ok Handle.nil s.machine)
      | some p =>
        match Step.take e p s with
        | .ok .next s => trace e rounds (position + 1) s
        | .ok (.jump target) s => trace e rounds target s
        | .ok (.leave value) s => ([], .ok value s.machine)
        | .error h s => ([], .error h s.machine)
    (position :: later, result)

/-- To write down the positions changes nothing. -/
theorem trace_result (e : Engine) (rounds position : Nat) (s : Activation) :
    (trace e rounds position s).2 = run e rounds position s := by
  induction rounds generalizing position s with
  | zero => rfl
  | succ rounds ih =>
    unfold trace run
    cases s.frame.record.code.placed[position]? with
    | none => rfl
    | some p =>
      dsimp only
      obtain ⟨_ | target | value, s'⟩ | ⟨h, s'⟩ := Step.take e p s
      · exact ih (position + 1) s'
      · exact ih target s'
      · rfl
      · rfl

/-- One instruction takes control from a position of the code to a position of the code. -/
theorem le_length_of_take {e : Engine} {s s' : Activation} {p : Placed} {position : Nat} {flow : Flow}
    (hlaid : s.frame.record.code.Laid) (hp : s.frame.record.code.placed[position]? = some p)
    (h : Step.take e p s = .ok flow s') :
    (flow = .next → position + 1 ≤ s.frame.record.code.length) ∧
      ∀ target, flow = .jump target → target ≤ s.frame.record.code.length := by
  constructor
  · rintro rfl
    exact (Array.getElem?_eq_some_iff.mp hp).1
  · rintro target rfl
    have htaken := Step.takesJump_of_take h
    have hsame : s' = s := by
      rw [Step.take_of_takesJump htaken, Step.jump_eq] at h
      split at h
      · exact (EStateM.Result.ok.inj h).2.symm
      · cases h
    rw [hsame] at h
    exact ((Step.take_eq_jump_iff hlaid htaken target).mp h).le_length

/-- **Control stays in the code**, from any position of it on. -/
theorem trace_le {e : Engine} {rounds position : Nat} {s : Activation} {r : Record}
    (hrecord : s.frame.record = r) (hlaid : r.code.Laid) (hposition : position ≤ r.code.length) :
    ∀ x ∈ (trace e rounds position s).1, x ≤ r.code.length := by
  induction rounds generalizing position s with
  | zero =>
    intro x hx
    obtain rfl := List.mem_singleton.mp hx
    exact hposition
  | succ rounds ih =>
    intro x hx
    unfold trace at hx
    rcases List.mem_cons.mp hx with rfl | hx
    · exact hposition
    · subst hrecord
      cases hp : s.frame.record.code.placed[position]? with
      | none =>
        rw [hp] at hx
        cases hx
      | some p =>
        rw [hp] at hx
        dsimp only at hx
        cases hstep : Step.take e p s with
        | error h s' =>
          rw [hstep] at hx
          cases hx
        | ok flow s' =>
          rw [hstep] at hx
          have hsame := Step.record_of_take hstep
          obtain ⟨hnext, hjump⟩ := le_length_of_take hlaid hp hstep
          cases flow with
          | next => exact ih hsame (hnext rfl) x hx
          | jump target => exact ih hsame (hjump target rfl) x hx
          | leave value => cases hx

end Frame

/-- **Jumps land only on decoded instructions.**  For every record of a loaded image, at any depth:

* its offsets, one for each instruction, grow and stay below the size of its code;
* looking up an offset gives `i` exactly when instruction `i` starts there, or when it is the size of
  the code and `i` is the position behind the last instruction;
* a jump that is taken at position `i` goes to `j` exactly when `j` starts at the end of the jump plus
  its signed distance, and is otherwise a fault that carries this sum, which may be negative;
* in every evaluation, with whatever engine, context and machine, control stays at the positions from
  zero to the number of instructions. -/
theorem jumps_land {bytes : Bytes} {image : Image} (hload : Image.ofBytes bytes = .ok image)
    {root r : Record} (hroot : root ∈ image.records) (hr : r.Within root) :
    (r.code.instructions.length = r.code.length ∧ r.code.offsets.length = r.code.length ∧
      r.code.offsets.Pairwise (· < ·) ∧ ∀ offset ∈ r.code.offsets, offset < r.code.size) ∧
    (∀ x i, r.code.positionOf? x = some i ↔
      (i < r.code.length ∧ r.code.offsets[i]? = some x) ∨ (i = r.code.length ∧ x = r.code.size)) ∧
    (∀ (e : Engine) (s : Activation) (i : Nat) (p : Placed), s.frame.record = r →
      r.code.placed[i]? = some p → Step.TakesJump p s →
      ∃ offset distance, r.code.offsets[i]? = some offset ∧
        p.instruction.jumpOffset? = some distance ∧
        (∀ j, Step.take e p s = .ok (.jump j) s ↔
          r.code.StartsAt j (offset + p.instruction.encodedSize + distance)) ∧
        ((∀ j, ¬ r.code.StartsAt j (offset + p.instruction.encodedSize + distance)) →
          Step.take e p s =
            .error (.fault (.invalidJumpTarget (offset + p.instruction.encodedSize + distance))) s)) ∧
    ∀ (e : Engine) (context : Context) (args : List Handle) (m : Machine),
      Frame.evaluate e r context args m =
          (Frame.trace e e.fuel 0 ⟨.start r context args, m⟩).2 ∧
        ∀ position ∈ (Frame.trace e e.fuel 0 ⟨.start r context args, m⟩).1,
          position ≤ r.code.length := by
  have hlaid := Image.laid_of_ofBytes hload hroot hr
  refine ⟨⟨r.code.length_instructions, r.code.length_offsets, hlaid.sorted, hlaid.below⟩, ?_, ?_, ?_⟩
  · intro x i
    rw [hlaid.positionOf?_eq_some_iff]
    constructor
    · rintro (hoffset | hend)
      · obtain ⟨hi, _⟩ := List.getElem?_eq_some_iff.mp hoffset
        rw [Code.length_offsets] at hi
        exact .inl ⟨hi, hoffset⟩
      · exact .inr hend
    · rintro (⟨_, hoffset⟩ | hend)
      · exact .inl hoffset
      · exact .inr hend
  · rintro e s i p rfl hp htaken
    obtain ⟨distance, hdistance, htarget⟩ := Step.exists_distance htaken
    refine ⟨p.offset, distance, by rw [Code.offsets_getElem?, hp]; rfl, hdistance, ?_, ?_⟩
    · intro j
      rw [← htarget]
      exact Step.take_eq_jump_iff hlaid htaken j
    · rw [← htarget]
      exact Step.take_eq_invalid hlaid htaken
  · intro e context args m
    refine ⟨(Frame.trace_result e e.fuel 0 _).symm, ?_⟩
    exact Frame.trace_le rfl hlaid (Nat.zero_le _)

/-- A body that jumps over an instruction and then far back, out of the code. -/
def strayBody : RecordDraft where
  code := #[.instruction { op := .jump, a := 1 }, .instruction { op := .nop },
    .instruction { op := .jump, a := 65516 }]

/-- A script with that body nested in it. -/
def strayDraft : ImageDraft := .ofRecord { children := [strayBody] }

/-- The first jump of the nested body lands on the instruction at offset four, its third.  The second
jump would go to offset minus thirteen. -/
theorem jumps_land_strayBody :
    ∃ image, Image.ofBytes strayDraft.toBytes = .ok image ∧
      ∃ root ∈ image.records, strayBody.toRecord.Within root ∧
        ∀ (e : Engine) (s : Activation), s.frame.record = strayBody.toRecord →
          Step.take e ⟨0, { op := .jump, a := 1 }⟩ s = .ok (.jump 2) s ∧
          Step.take e ⟨4, { op := .jump, a := 65516 }⟩ s =
            .error (.fault (.invalidJumpTarget (-13))) s := by
  have hparts : ∀ part ∈ strayDraft.parts, part.Storable := by
    intro part hpart
    obtain rfl := List.mem_singleton.mp hpart
    refine .intro ⟨by decide, by decide, by decide, by decide, by decide, by decide⟩ ?_
    intro c hc
    obtain rfl := List.mem_singleton.mp hc
    refine .intro ⟨by decide, by decide, by decide, by decide, by decide, by decide⟩ ?_
    intro c hc
    cases hc
  have hload : Image.ofBytes strayDraft.toBytes = .ok strayDraft.toImage :=
    (Image.ofBytes_eq_ok_iff _ _).mpr (ImageDraft.imageOf_toBytes hparts (by decide +kernel))
  have hroot : RecordDraft.toRecord { children := [strayBody] } ∈ strayDraft.toImage.records :=
    List.mem_singleton.mpr rfl
  have hwithin : strayBody.toRecord.Within (RecordDraft.toRecord { children := [strayBody] }) :=
    .nested (List.mem_singleton.mpr rfl) (.root _)
  refine ⟨_, hload, _, hroot, hwithin, fun e s hs => ?_⟩
  have hjumps := (jumps_land hload hroot hwithin).2.2.1 e s
  constructor
  · obtain ⟨offset, distance, hoffset, hdistance, hlands, _⟩ :=
      hjumps 0 ⟨0, { op := .jump, a := 1 }⟩ hs rfl trivial
    cases hoffset
    cases hdistance
    exact (hlands 2).mpr (.inl ⟨4, rfl, rfl⟩)
  · obtain ⟨offset, distance, hoffset, hdistance, _, hinvalid⟩ :=
      hjumps 2 ⟨4, { op := .jump, a := 65516 }⟩ hs rfl trivial
    cases hoffset
    cases hdistance
    apply hinvalid
    rintro j (⟨offset, _, htarget⟩ | ⟨_, htarget⟩)
    · exact absurd htarget (Int.ne_of_lt (Int.lt_of_lt_of_le (by decide) (Int.natCast_nonneg offset)))
    · cases htarget

end Rite
