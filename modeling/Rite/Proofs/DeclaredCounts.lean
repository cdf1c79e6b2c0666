import Rite.Proofs.CallLimit
import Rite.Proofs.Simulation

/-!
# Declared counts are inert

A record declares how many registers and how many local variables it has.  The register count says
how long the row of registers is when a frame starts; but reading past the end of the row gives `nil`,
which is what the row is filled with, and writing past the end makes it longer.  The count of locals
is not looked at.  So neither count can be told from the outside: two programs that differ in nothing
else write the same and end the same (`declaredCounts_inert`).
-/

namespace Rite

variable {α : Type}

/-! ## Records without their counts -/

mutual

/-- The record with all counts forgotten, its own and those of the records nested in it. -/
def Record.withoutCounts : Record → Record
  | ⟨_, _, catchCount, code, literals, symbols, children⟩ =>
    ⟨0, 0, catchCount, code, literals, symbols, Record.allWithoutCounts children⟩

/-- Records with all counts forgotten. -/
def Record.allWithoutCounts : List Record → List Record
  | [] => []
  | r :: rs => r.withoutCounts :: Record.allWithoutCounts rs

end

namespace Record

/-- Two records that differ in declared counts only, at any depth. -/
def SameButCounts (r r' : Record) : Prop := r.withoutCounts = r'.withoutCounts

theorem allWithoutCounts_eq_iff (rs rs' : List Record) :
    allWithoutCounts rs = allWithoutCounts rs' ↔ List.Forall₂ SameButCounts rs rs' := by
  induction rs generalizing rs' with
  | nil => cases rs' <;> simp [allWithoutCounts]
  | cons r rs ih =>
    cases rs' with
    | nil => simp [allWithoutCounts]
    | cons r' rs' =>
      rw [allWithoutCounts, allWithoutCounts, List.cons.injEq, List.forall₂_cons, ih]
      rfl

/-- All that is left of two such records is the same, but for what is forgotten further down. -/
theorem SameButCounts.parts {r r' : Record} (h : SameButCounts r r') :
    r.catchCount = r'.catchCount ∧ r.code = r'.code ∧ r.literals = r'.literals ∧
    r.symbols = r'.symbols ∧ List.Forall₂ SameButCounts r.children r'.children := by
  obtain ⟨_, _, catchCount, code, literals, symbols, children⟩ := r
  obtain ⟨_, _, catchCount', code', literals', symbols', children'⟩ := r'
  unfold SameButCounts withoutCounts at h
  rw [Record.mk.injEq] at h
  obtain ⟨-, -, hcatch, hcode, hliterals, hsymbols, hchildren⟩ := h
  exact ⟨hcatch, hcode, hliterals, hsymbols, (allWithoutCounts_eq_iff _ _).mp hchildren⟩

/-- What is left is all that is executed. -/
theorem sameCode_sameButCounts : SameCode SameButCounts where
  code h := h.parts.2.1
  literals h := h.parts.2.2.1
  symbols h := h.parts.2.2.2.1
  catchCount h := h.parts.1
  children h := h.parts.2.2.2.2

end Record

/-! ## Captured runs -/

/-- Runs in step from one and the same machine are captured alike. -/
theorem Twinned.ofResult_eq {ρ : Record → Record → Prop} {start : Machine} {K : Pairing}
    {V : Pairing → α → α → Prop} {r r' : EStateM.Result Halt Machine α}
    (h : Twinned ρ start start K V r r')
    (hends : (Captured.ofResult r).halt ≠ some .exhausted) :
    Captured.ofResult r' = Captured.ofResult r := by
  have hcontents {sink sink' s : Sink} (hs : Sink.Twin s s sink sink') :
      sink'.contents = sink.contents := by
    obtain ⟨added, hbytes, hbytes'⟩ := hs.written
    unfold Sink.contents
    rw [hbytes, hbytes']
  cases h with
  | ok _ hm _ =>
    unfold Captured.ofResult
    dsimp only
    rw [hcontents hm.out, hcontents hm.err]
  | error _ hm =>
    unfold Captured.ofResult
    dsimp only
    rw [hcontents hm.out, hcontents hm.err]
  | exhausted => exact absurd rfl hends

namespace Image

variable {image image' : Image} {limits : Limits} {fuel : Nat}

/-- A run that ends is matched by the run of the other image, given as much fuel. -/
theorem captureWithin_eq_of_ends
    (hcounts : Record.allWithoutCounts image.records = Record.allWithoutCounts image'.records)
    (hends : (image.captureWithin limits fuel).halt ≠ some .exhausted) :
    image'.captureWithin limits fuel = image.captureWithin limits fuel := by
  have hboot := Machine.boot_wellFormed limits {} {}
  have htwin := Machine.Twin.refl (ρ := Record.SameButCounts) (fun _ => rfl) hboot
  have hrecords := (Record.allWithoutCounts_eq_iff _ _).mp hcounts
  have hprogram : Twins Record.SameButCounts (Machine.boot limits {} {}) (Machine.boot limits {} {})
      hboot.pairing Equal (Run.program fuel image) (Run.program fuel image') := by
    refine .bind (V := Equal) ?_ fun _ _ _ _ _ => .flush rfl rfl
    refine .bind (twins_image Record.sameCode_sameButCounts (Nat.le_refl fuel) hrecords) ?_
    exact fun _ _ _ _ _ => .pure rfl
  exact (hprogram _ _ htwin).ofResult_eq hends

end Image

/-- **Declared counts are inert.**  Take two images whose records differ in declared register and
local counts only, at any depth.  Under any limits and for any amount of fuel, the one runs out of it
exactly if the other does; and if they do not, they write the same to either sink and end in the same
way.  With ample fuel this is about `Image.capture`. -/
theorem declaredCounts_inert (image image' : Image) (limits : Limits)
    (hcounts : Record.allWithoutCounts image.records = Record.allWithoutCounts image'.records)
    (fuel : Nat) :
    ((image.captureWithin limits fuel).halt = some .exhausted ↔
      (image'.captureWithin limits fuel).halt = some .exhausted) ∧
    ((image.captureWithin limits fuel).halt ≠ some .exhausted →
      image'.captureWithin limits fuel = image.captureWithin limits fuel) := by
  refine ⟨?_, Image.captureWithin_eq_of_ends hcounts⟩
  constructor
  · intro hexhausted
    by_contra hends
    rw [Image.captureWithin_eq_of_ends hcounts.symm hends] at hexhausted
    exact hends hexhausted
  · intro hexhausted
    by_contra hends
    rw [Image.captureWithin_eq_of_ends hcounts hends] at hexhausted
    exact hends hexhausted

/-- A program whose class body makes an array of two registers that nothing has been written to, and
prints it.  The counts are those that the script and the body declare. -/
def unsetRegisters (registers locals bodyRegisters bodyLocals : UInt16) : Image :=
  { (default : Image) with
    records :=
      [{ registerCount := registers
         localCount := locals
         symbols := ["Shape"]
         children :=
          [{ registerCount := bodyRegisters
             localCount := bodyLocals
             symbols := ["p"]
             code :=
              { placed :=
                  #[⟨0, { op := .array, a := 9, b := 2 }⟩,
                    ⟨3, { op := .selfSend, a := 8, b := 0, c := 1 }⟩]
                size := 7 } }]
         code :=
          { placed :=
              #[⟨0, { op := .openClass, a := 1, b := 0 }⟩, ⟨3, { op := .execBody, a := 1, b := 0 }⟩]
            size := 6 } }] }

theorem declaredCounts_inert_unsetRegisters :
    (unsetRegisters 0 0 0 0).capture = { out := "[nil, nil]\n", err := "", halt := none } ∧
    (unsetRegisters 12 7 300 65535).capture = (unsetRegisters 0 0 0 0).capture := by
  have hhalt : ((unsetRegisters 0 0 0 0).captureWithin {} Run.ample).halt = none := by decide +kernel
  refine ⟨by decide +kernel, ?_⟩
  rw [Image.capture_eq, Image.capture_eq]
  refine (declaredCounts_inert (unsetRegisters 0 0 0 0) (unsetRegisters 12 7 300 65535) {} rfl
    Run.ample).2 ?_
  rw [hhalt]
  exact nofun

end Rite
