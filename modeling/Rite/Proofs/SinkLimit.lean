import Rite.Proofs.Growth

/-!
# A full sink stops the run

A limited sink accepts bytes up to its limit and refuses the rest.  No program can ask how much it has
written, so nothing changes before a write is refused, and then nothing of the program runs any more:
the fault goes straight to the top.

`Confines n` compares a run whose output is unlimited with its copy that may write `n` bytes.  As long
as the output fits, the copy passes through the same states, but for the limit.  At the write that does
not fit, the copy ends, with the first `n` bytes written.  What the other run does from there on can
only add to its output; that it never takes anything back is the history `Wrote`.
-/

namespace Rite

variable {α β : Type}

/-! ## What a sink accepts -/

namespace Sink

/-- The sink with room for `n` bytes in all. -/
def limitedTo (sink : Sink) (n : Nat) : Sink := { sink with limit := some n }

theorem bytes_accept (sink : Sink) (text : String) :
    (sink.accept text).bytes = sink.bytes ++ (Utf8.encode text).take (sink.room text.utf8ByteSize) := by
  unfold accept bytes Utf8.encode
  simp

theorem length_encode (text : String) : (Utf8.encode text).length = text.utf8ByteSize := by
  unfold Utf8.encode
  rw [Array.length_toList]
  rfl

theorem bytes_prefix_accept (sink : Sink) (text : String) :
    sink.bytes <+: (sink.accept text).bytes := by
  rw [bytes_accept]
  exact List.prefix_append _ _

section Unlimited

variable {sink : Sink} (hsink : sink.limit = none) (text : String)

include hsink

theorem room_of_unlimited (n : Nat) : sink.room n = n := by
  unfold room
  rw [hsink]

theorem fits_of_unlimited : sink.fits text = true := by
  unfold fits
  rw [room_of_unlimited hsink]
  exact decide_eq_true rfl

theorem bytes_accept_of_unlimited :
    (sink.accept text).bytes = sink.bytes ++ Utf8.encode text := by
  rw [bytes_accept, room_of_unlimited hsink, ← length_encode, List.take_length]

end Unlimited

variable {sink : Sink} {n : Nat}

theorem room_limitedTo (sink : Sink) (n size : Nat) :
    (sink.limitedTo n).room size = min size (n - sink.bytes.length) := by
  unfold room limitedTo bytes
  rw [Array.length_toList]
  rfl

theorem fits_limitedTo_iff (text : String) :
    (sink.limitedTo n).fits text = true ↔
      text.utf8ByteSize ≤ n - sink.bytes.length := by
  unfold fits
  rw [room_limitedTo, decide_eq_true_iff]
  omega

/-- The limited sink accepts what is left of the first `n` bytes. -/
theorem bytes_accept_limitedTo (hsink : sink.bytes.length ≤ n) (text : String) :
    ((sink.limitedTo n).accept text).bytes = (sink.bytes ++ Utf8.encode text).take n := by
  have hbytes : (sink.limitedTo n).bytes = sink.bytes := rfl
  rw [bytes_accept, room_limitedTo, hbytes, List.take_append, List.take_of_length_le hsink,
    ← length_encode]
  congr 1
  rw [List.take_eq_take_iff]
  omega

/-- A text that fits is accepted as if there were no limit. -/
theorem accept_limitedTo_of_fits (hsink : sink.limit = none) {text : String}
    (hfits : (sink.limitedTo n).fits text = true) :
    (sink.limitedTo n).accept text = (sink.accept text).limitedTo n := by
  have hroom : (sink.limitedTo n).room text.utf8ByteSize = sink.room text.utf8ByteSize := by
    rw [room_of_unlimited hsink]
    exact of_decide_eq_true hfits
  show ({ sink.limitedTo n with
      written := sink.written ++
        text.toUTF8.extract 0 ((sink.limitedTo n).room text.utf8ByteSize) } : Sink) = _
  rw [hroom]
  rfl

end Sink

/-! ## Output is never taken back -/

/-- What was written stays written. -/
structure Machine.Wrote (m m' : Machine) : Prop where
  out : m.out.bytes <+: m'.out.bytes
  err : m.err.bytes <+: m'.err.bytes

theorem wrote_history : History Machine.Wrote where
  refl _ := ⟨List.prefix_refl _, List.prefix_refl _⟩
  trans h h' := ⟨h.out.trans h'.out, h.err.trans h'.err⟩
  allocate _ _ := ⟨List.prefix_refl _, List.prefix_refl _⟩
  changeObject _ _ _ := ⟨List.prefix_refl _, List.prefix_refl _⟩
  hashSet _ _ _ _ := ⟨List.prefix_refl _, List.prefix_refl _⟩
  setGlobal _ _ _ := ⟨List.prefix_refl _, List.prefix_refl _⟩
  setConstant _ _ _ := ⟨List.prefix_refl _, List.prefix_refl _⟩
  writeOut m text := ⟨m.out.bytes_prefix_accept text, List.prefix_refl _⟩
  writeErr m text := ⟨List.prefix_refl _, m.err.bytes_prefix_accept text⟩
  nesting _ _ _ := ⟨List.prefix_refl _, List.prefix_refl _⟩

/-! ## A run and its limited copy -/

namespace Machine

/-- The machine whose output is limited to `n` bytes in all. -/
def withOutLimit (m : Machine) (n : Nat) : Machine :=
  m.equipped (m.out.limitedTo n) m.err m.limits.maxCallDepth

/-- The output is unlimited, and up to now `n` bytes of room would have been enough. -/
structure Fits (n : Nat) (m : Machine) : Prop where
  unlimited : m.out.limit = none
  size : m.out.bytes.length ≤ n

/-- The machine `m` has written more than `n` bytes, of which the stopped machine has the first `n`. -/
structure Overran (n : Nat) (stopped m : Machine) : Prop where
  size : n < m.out.bytes.length
  out : stopped.out.bytes = m.out.bytes.take n
  err : stopped.err.bytes <+: m.err.bytes

/-- What is written later does not change the first `n` bytes. -/
theorem Overran.later {n : Nat} {stopped m m₁ : Machine} (h : Overran n stopped m)
    (hlater : m.Wrote m₁) : Overran n stopped m₁ := by
  obtain ⟨more, hmore⟩ := hlater.out
  refine ⟨?_, ?_, h.err.trans hlater.err⟩
  · exact Nat.lt_of_lt_of_le h.size hlater.out.length_le
  · rw [h.out, ← hmore, List.take_append_of_le_length (Nat.le_of_lt h.size)]

end Machine

open Machine (Wrote Fits Overran)

/-- How a run with unlimited output and its copy with room for `n` bytes end.  Where the run was out
of fuel, nothing is said about the copy. -/
inductive Confined (n : Nat) (V : α → α → Prop) :
    EStateM.Result Halt Machine α → EStateM.Result Halt Machine α → Prop
  | ok {x x' : α} {m₁ : Machine} (hfits : Fits n m₁) (hx : V x x') :
      Confined n V (.ok x m₁) (.ok x' (m₁.withOutLimit n))
  | error {halt : Halt} {m₁ : Machine} (hfits : Fits n m₁) :
      Confined n V (.error halt m₁) (.error halt (m₁.withOutLimit n))
  /-- The copy was refused a write; the run went on and ended with `r`. -/
  | stopped {r : EStateM.Result Halt Machine α} {m₂ : Machine} (hr : Later (Overran n) m₂ V r) :
      Confined n V r (.error (.fault Action.sinkFull) m₂)
  | exhausted {m₁ : Machine} {r : EStateM.Result Halt Machine α} :
      Confined n V (.error .exhausted m₁) r

/-- The action `a` takes back no output, and `a'` is its copy with room for `n` bytes. -/
structure Confines (n : Nat) (V : α → α → Prop) (a a' : Action α) : Prop where
  later : ∀ m, Later Wrote m V (a m)
  ends : ∀ m, Fits n m → Confined n V (a m) (a' (m.withOutLimit n))

/-- An overrun run stays overrun whatever it does next. -/
theorem Later.overran {n : Nat} {V : α → α → Prop} {stopped m : Machine}
    {r : EStateM.Result Halt Machine α} (hr : Later Wrote m V r) (hover : Overran n stopped m) :
    Later (Overran n) stopped V r := by
  cases hr with
  | ok h hx => exact .ok (hover.later h) hx
  | error h => exact .error (hover.later h)

namespace Confines

variable {n : Nat} {V : α → α → Prop} {a a' : Action α}

theorem pure {x x' : α} (hx : V x x') : Confines n V (Pure.pure x) (Pure.pure x') :=
  ⟨fun m => .ok (wrote_history.refl m) hx, fun _ hm => .ok hm hx⟩

theorem bind {W : β → β → Prop} {f f' : α → Action β} (ha : Confines n V a a')
    (hf : ∀ x x', V x x' → Confines n W (f x) (f' x')) : Confines n W (a >>= f) (a' >>= f') := by
  refine ⟨wrote_history.bind ha.later fun x x' hx => (hf x x' hx).later, fun m hm => ?_⟩
  change Confined n W (EStateM.bind a f m) (EStateM.bind a' f' (m.withOutLimit n))
  unfold EStateM.bind
  have hr := ha.ends m hm
  generalize a m = r, a' (m.withOutLimit n) = r' at hr
  cases hr with
  | ok hfits hx => exact (hf _ _ hx).ends _ hfits
  | error hfits => exact .error hfits
  | exhausted => exact .exhausted
  | stopped hr =>
    -- The copy is over; the run goes on with `f` and only adds to what it has written.
    cases hr with
    | error h => exact .stopped (.error h)
    | ok h hx => exact .stopped (((hf _ _ hx).later _).overran h)

theorem fail (f : Fault) : Confines n V (Action.fail f) (Action.fail f) :=
  ⟨fun m => .error (wrote_history.refl m), fun _ hm => .error hm⟩

theorem overrun (request : Overlong) :
    Confines n V (Action.overrun request) (Action.overrun request) :=
  ⟨fun m => .error (wrote_history.refl m), fun _ hm => .error hm⟩

/-- A body that runs between two changes to the machine that have nothing to do with sinks. -/
theorem around (ha : Confines n V a a') {m₀ : Machine} (hm : Fits n m₀) {back : Machine → Machine}
    (hback : ∀ m₁, (back m₁).out = m₁.out ∧ (back m₁).err = m₁.err ∧
      back (m₁.withOutLimit n) = (back m₁).withOutLimit n) :
    Confined n V
      (match a m₀ with
        | .ok x m₁ => .ok x (back m₁)
        | .error halt m₁ => .error halt (back m₁))
      (match a' (m₀.withOutLimit n) with
        | .ok x m₁ => .ok x (back m₁)
        | .error halt m₁ => .error halt (back m₁)) := by
  have hfits : ∀ m₁, Fits n m₁ → Fits n (back m₁) := by
    intro m₁ h
    obtain ⟨hout, _, _⟩ := hback m₁
    exact ⟨hout ▸ h.unlimited, hout ▸ h.size⟩
  have hover : ∀ m₂ m₁, Overran n m₂ m₁ → Overran n (back m₂) (back m₁) := by
    intro m₂ m₁ h
    obtain ⟨hout, herr, _⟩ := hback m₁
    obtain ⟨hout', herr', _⟩ := hback m₂
    exact ⟨hout ▸ h.size, hout ▸ hout' ▸ h.out, herr ▸ herr' ▸ h.err⟩
  have hr := ha.ends m₀ hm
  generalize a m₀ = r, a' (m₀.withOutLimit n) = r' at hr
  cases hr with
  | @ok x x' m₁ h hx =>
    dsimp only
    rw [(hback m₁).2.2]
    exact .ok (hfits m₁ h) hx
  | @error halt m₁ h =>
    dsimp only
    rw [(hback m₁).2.2]
    exact .error (hfits m₁ h)
  | exhausted => exact .exhausted
  | stopped hr =>
    cases hr with
    | ok h hx => exact .stopped (.ok (hover _ _ h) hx)
    | error h => exact .stopped (.error (hover _ _ h))

theorem nested (ha : Confines n V a a') : Confines n V (Action.nested a) (Action.nested a') := by
  refine ⟨@Sequential.nested _ wrote_history.comparison.toSequential α V a a' ha.later, fun m hm => ?_⟩
  unfold Action.nested
  by_cases hfull : m.limits.maxCallDepth ≤ m.depth
  · have hfull' : (m.withOutLimit n).limits.maxCallDepth ≤ (m.withOutLimit n).depth := hfull
    rw [if_pos hfull, if_pos hfull']
    exact .error hm
  · have hroom' : ¬ (m.withOutLimit n).limits.maxCallDepth ≤ (m.withOutLimit n).depth := hfull
    rw [if_neg hfull, if_neg hroom']
    have hstart : Fits n { m with depth := m.depth + 1 } := ⟨hm.unlimited, hm.size⟩
    exact ha.around hstart fun m₁ => ⟨rfl, rfl, rfl⟩

theorem inspecting (h : Handle) (ha : Confines n V a a') :
    Confines n V (Action.inspecting h a) (Action.inspecting h a') := by
  refine ⟨@Comparison.inspecting _ wrote_history.comparison α V a a' h ha.later, fun m hm => ?_⟩
  unfold Action.inspecting
  have hstart : Fits n { m with inspecting := h :: m.inspecting } := ⟨hm.unlimited, hm.size⟩
  exact ha.around hstart fun m₁ => ⟨rfl, rfl, rfl⟩

/-- The one place where the limit shows: a write that does not fit ends the copy. -/
theorem writeOut (text : String) :
    Confines n Eq (Action.writeOut text) (Action.writeOut text) := by
  refine ⟨wrote_history.of_made (.writeOut text), fun m hm => ?_⟩
  change Confined n Eq (Action.writeOut text m)
    (if (m.out.limitedTo n).fits text then .ok () _ else .error (.fault Action.sinkFull) _)
  unfold Action.writeOut
  rw [Sink.fits_of_unlimited hm.unlimited, if_pos rfl]
  have hwritten := Sink.bytes_accept_of_unlimited hm.unlimited text
  cases hfits : (m.out.limitedTo n).fits text with
  | true =>
    have hroom := Sink.fits_limitedTo_iff text |>.mp hfits
    rw [if_pos rfl]
    have hsame : ({ m.withOutLimit n with out := (m.out.limitedTo n).accept text } : Machine) =
        Machine.withOutLimit { m with out := m.out.accept text } n := by
      rw [Sink.accept_limitedTo_of_fits hm.unlimited hfits]
      rfl
    show Confined n Eq _ (.ok () { m.withOutLimit n with out := (m.out.limitedTo n).accept text })
    rw [hsame]
    refine .ok ⟨hm.unlimited, ?_⟩ rfl
    show (m.out.accept text).bytes.length ≤ n
    have hsize := hm.size
    rw [hwritten, List.length_append, Sink.length_encode]
    omega
  | false =>
    have hroom : ¬ text.utf8ByteSize ≤ n - m.out.bytes.length := by
      rw [← Sink.fits_limitedTo_iff, hfits]
      exact Bool.false_ne_true
    rw [if_neg Bool.false_ne_true]
    refine .stopped (.ok ⟨?_, ?_, List.prefix_refl _⟩ rfl)
    · show n < (m.out.accept text).bytes.length
      rw [hwritten, List.length_append, Sink.length_encode]
      omega
    · show ((m.out.limitedTo n).accept text).bytes = (m.out.accept text).bytes.take n
      rw [hwritten, Sink.bytes_accept_limitedTo hm.size]

/-- The error output has the same room on both sides. -/
theorem writeErr (text : String) :
    Confines n Eq (Action.writeErr text) (Action.writeErr text) := by
  refine ⟨wrote_history.of_made (.writeErr text), fun m hm => ?_⟩
  change Confined n Eq (Action.writeErr text m)
    (if m.err.fits text then .ok () _ else .error (.fault Action.sinkFull) _)
  unfold Action.writeErr
  have hafter : Fits n { m with err := m.err.accept text } := ⟨hm.unlimited, hm.size⟩
  cases m.err.fits text
  · exact .error hafter
  · exact .ok hafter rfl

/-- Elementary changes do not look at the sinks, and only writing touches them. -/
theorem of_made (ha : a.Made) : Confines n Eq a a := by
  induction ha with
  | pure x => exact .pure rfl
  | bind _ _ iha ihf =>
    refine iha.bind fun x x' hx => ?_
    rw [← hx]
    exact ihf x
  | @ask _ q hq hlimit =>
    refine ⟨wrote_history.of_made (.ask hq hlimit), fun m hm => ?_⟩
    have hsame : q (m.withOutLimit n) = q m := hq m _ _ _
    unfold Action.ask
    rw [hsame]
    exact .ok hm rfl
  | @demand _ q hq hlimit =>
    refine ⟨wrote_history.of_made (.demand hq hlimit), fun m hm => ?_⟩
    have hsame : q (m.withOutLimit n) = q m := hq m _ _ _
    unfold Action.demand
    rw [hsame]
    cases q m with
    | ok x => exact .ok hm rfl
    | error f => exact .error hm
  | fail f => exact .fail f
  | writeOut text => exact .writeOut text
  | writeErr text => exact .writeErr text
  | allocate o => exact ⟨wrote_history.of_made (.allocate o), fun m hm => .ok ⟨hm.1, hm.2⟩ rfl⟩
  | changeObject h c =>
    exact ⟨wrote_history.of_made (.changeObject h c), fun m hm => .ok ⟨hm.1, hm.2⟩ rfl⟩
  | hashSet h key value =>
    exact ⟨wrote_history.of_made (.hashSet h key value), fun m hm => .ok ⟨hm.1, hm.2⟩ rfl⟩
  | setGlobal name value =>
    exact ⟨wrote_history.of_made (.setGlobal name value), fun m hm => .ok ⟨hm.1, hm.2⟩ rfl⟩
  | setConstant name value =>
    exact ⟨wrote_history.of_made (.setConstant name value), fun m hm => .ok ⟨hm.1, hm.2⟩ rfl⟩

theorem mono {W : α → α → Prop} (ha : Confines n V a a') (hVW : ∀ x x', V x x' → W x x') :
    Confines n W a a' := by
  have hlater : ∀ {G m r}, Later G m V r → Later G m W r := by
    intro G m r hr
    cases hr with
    | ok h hx => exact .ok h (hVW _ _ hx)
    | error h => exact .error h
  refine ⟨fun m => hlater (ha.later m), fun m hm => ?_⟩
  have hr := ha.ends m hm
  generalize a m = r, a' (m.withOutLimit n) = r' at hr
  cases hr with
  | ok hfits hx => exact .ok hfits (hVW _ _ hx)
  | error hfits => exact .error hfits
  | stopped hr => exact .stopped (hlater hr)
  | exhausted => exact .exhausted

/-- To confine is a way of comparing runs. -/
theorem comparison (n : Nat) : Comparison (Confines n) where
  pure hx := .pure hx
  bind ha hf := ha.bind hf
  demand {_ _ Q W q q' f f'} hq hf := by
    refine ⟨@Comparison.demand _ wrote_history.comparison _ _ Q W q q' f f' hq
      fun x x' hx => (hf x x' hx).later, fun m hm => ?_⟩
    obtain ⟨fault, hx, hx'⟩ | ⟨x, x', hx, hx', hQ⟩ :=
      (hq m (m.withOutLimit n) (m.paired_equipped _ _ _)).elim
    · rw [Action.demand_bind_of_error hx, Action.demand_bind_of_error hx']
      exact .error hm
    · rw [Action.demand_bind_of_ok hx, Action.demand_bind_of_ok hx']
      exact (hf x x' hQ).ends m hm
  fail f := .fail f
  overrun request := .overrun request
  exhausted a' := ⟨wrote_history.comparison.exhausted a', fun _ _ => .exhausted⟩
  made ha hV := (of_made ha).mono fun x _ hx => hx ▸ hV x
  inspecting h ha := ha.inspecting h
  nested ha := ha.nested

theorem flush : Confines n Eq Action.flush Action.flush := by
  refine ⟨fun m => ?_, fun m hm => ?_⟩
  · unfold Action.flush
    cases m.out.failsFlush || m.err.failsFlush
    · exact .ok (wrote_history.refl m) rfl
    · exact .error (wrote_history.refl m)
  · change Confined n Eq (Action.flush m)
      (if m.out.failsFlush || m.err.failsFlush then .error (.fault Action.flushFailed) _
        else .ok () _)
    unfold Action.flush
    cases m.out.failsFlush || m.err.failsFlush
    · exact .ok hm rfl
    · exact .error hm

theorem program {fuel fuel' : Nat} (hfuel : fuel ≤ fuel') (i : Image) :
    Confines n Eq (Run.program fuel i) (Run.program fuel' i) := by
  have himage : Confines n Eq (discard (Run.image fuel i)) (discard (Run.image fuel' i)) :=
    ((comparison n).image hfuel i).bind fun _ _ _ => .pure rfl
  exact himage.bind fun _ _ _ => .flush

end Confines

/-! ## Whole programs -/

/-- What a run wrote to either sink, byte by byte, and how it ended. -/
structure Transcript where
  out : Bytes
  err : Bytes
  /-- Why the run failed, if it did. -/
  halt : Option Halt
  deriving DecidableEq

/-- The transcript of a run, read off the machine that it left behind. -/
def Transcript.ofResult : EStateM.Result Halt Machine α → Transcript
  | .ok _ m => { out := m.out.bytes, err := m.err.bytes, halt := none }
  | .error h m => { out := m.out.bytes, err := m.err.bytes, halt := some h }

/-- What a program writes on a fresh machine that accepts all error output. -/
def Image.transcript (image : Image) (limits : Limits) (out : Sink) (fuel : Nat) : Transcript :=
  .ofResult (Run.program fuel image (Machine.boot limits out {}))

/-- `cut` is what is left of the run `whole` if only `n` bytes of output are accepted. -/
structure Transcript.StopsAt (n : Nat) (whole cut : Transcript) : Prop where
  fits : whole.out.length ≤ n → cut = whole
  full : n < whole.out.length →
    cut.halt = some (.fault Action.sinkFull) ∧ cut.out = whole.out.take n ∧ cut.err <+: whole.err

theorem Transcript.StopsAt.of_fits {n : Nat} {whole : Transcript} (h : whole.out.length ≤ n) :
    Transcript.StopsAt n whole whole :=
  ⟨fun _ => rfl, fun hfull => absurd h (Nat.not_le.mpr hfull)⟩

theorem Machine.Overran.stopsAt {n : Nat} {stopped m : Machine} (h : Overran n stopped m)
    (halt : Option Halt) :
    Transcript.StopsAt n { out := m.out.bytes, err := m.err.bytes, halt }
      { out := stopped.out.bytes, err := stopped.err.bytes,
        halt := some (.fault Action.sinkFull) } :=
  ⟨fun hfits => absurd hfits (Nat.not_le.mpr h.size), fun _ => ⟨rfl, h.out, h.err⟩⟩

theorem Confined.stopsAt {n : Nat} {V : α → α → Prop} {r r' : EStateM.Result Halt Machine α}
    (h : Confined n V r r') (hends : (Transcript.ofResult r).halt ≠ some .exhausted) :
    Transcript.StopsAt n (.ofResult r) (.ofResult r') := by
  cases h with
  | ok hfits _ => exact .of_fits hfits.size
  | error hfits => exact .of_fits hfits.size
  | exhausted => exact absurd rfl hends
  | stopped hr =>
    cases hr with
    | ok h _ => exact h.stopsAt none
    | @error halt _ h => exact h.stopsAt (some halt)

/-- **A full sink is fail-stop.**  Take a program that ends, with whatever result, when its output is
unlimited, and run it with an output sink that accepts `n` bytes.  If its output has at most `n`
bytes, both runs write the same bytes to both sinks and end alike.  Otherwise the limited run ends
with the fault of a full sink; its output is the first `n` bytes of the whole output, and its error
output is an initial part of the whole error output. -/
theorem sink_failStop (image : Image) (limits : Limits) (n fuel : Nat)
    (hends : (image.transcript limits {} fuel).halt ≠ some .exhausted) :
    ∀ fuel', fuel ≤ fuel' →
      Transcript.StopsAt n (image.transcript limits {} fuel)
        (image.transcript limits { limit := some n } fuel') := by
  intro fuel' hfuel
  have hboot : Machine.boot limits { limit := some n } {} =
      (Machine.boot limits {} {}).withOutLimit n := rfl
  have hfresh : Fits n (Machine.boot limits {} {}) := ⟨rfl, Nat.zero_le n⟩
  have hrun := (Confines.program (n := n) hfuel image).ends (Machine.boot limits {} {}) hfresh
  rw [← hboot] at hrun
  exact hrun.stopsAt hends

/-- A program that writes `[]` and a line end to the output, to the error output, and to both once
more. -/
def twoByTwo : Image :=
  { (default : Image) with
    records :=
      [{ symbols := ["p", "warn"]
         code :=
          { placed :=
              #[⟨0, { op := .array, a := 2, b := 0 }⟩,
                ⟨3, { op := .selfSend, a := 1, b := 0, c := 1 }⟩,
                ⟨7, { op := .selfSend, a := 1, b := 1, c := 1 }⟩,
                ⟨11, { op := .selfSend, a := 1, b := 0, c := 1 }⟩,
                ⟨15, { op := .selfSend, a := 1, b := 1, c := 1 }⟩]
            size := 19 } }] }

/-- Of its six bytes of output the first four are accepted, and the second line of error output is
not written any more. -/
theorem sink_failStop_twoByTwo :
    twoByTwo.transcript {} {} 50 =
      { out := Utf8.encode "[]\n[]\n", err := Utf8.encode "[]\n[]\n", halt := none } ∧
    twoByTwo.transcript {} { limit := some 4 } 50 =
      { out := Utf8.encode "[]\n[", err := Utf8.encode "[]\n",
        halt := some (.fault Action.sinkFull) } ∧
    ∀ fuel', 50 ≤ fuel' →
      Transcript.StopsAt 4 (twoByTwo.transcript {} {} 50)
        (twoByTwo.transcript {} { limit := some 4 } fuel') := by
  have hwhole : twoByTwo.transcript {} {} 50 =
      { out := Utf8.encode "[]\n[]\n", err := Utf8.encode "[]\n[]\n", halt := none } := by
    decide +kernel
  refine ⟨hwhole, by decide +kernel, ?_⟩
  exact sink_failStop twoByTwo {} 4 50 (by rw [hwhole]; exact nofun)

end Rite
