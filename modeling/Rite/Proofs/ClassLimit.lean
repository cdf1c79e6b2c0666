import Rite.Proofs.CallLimit
import Rite.Proofs.ImageRoundTrip
import Rite.Proofs.Nesting

/-!
# Raising the class limit

Methods, superclass methods, class variables and the payload of new objects are looked up along a
superclass chain, and a look-up that the class limit cuts short is a fault.  A run that meets no such
fault would go the same way under any higher limit, were it not for `respond_to?`: it takes a look-up
that was cut short for a no, and under a higher limit the answer may be yes.  The program of
`respondTo_reveals_classLimit` ends well under two limits and prints different answers.

So the answers of `respond_to?` have to be watched.  A candid run (`Probe.candid`) gives up where an
answer would be another one under the limit `n`.  `Endures k` compares it with a plain run under a
limit `k` between its own limit and `n`: both pass through the same states, but for the limit, until the
candid run ends, is refused a look-up or gives up.  `k` being its own limit, this says what a candid run
is; `k` being `n`, it says that the limit can be raised (`classLimit_raised`).
-/

namespace Rite

variable {α β : Type}

/-! ## Candid runs -/

/-- The probe that gives up where `respond_to?` would answer otherwise under the class limit `n`. -/
def Probe.candid (n : Nat) : Probe where
  body found run m :=
    if found.method.IsRespondTo ∧ run.run' (m.withClassLimit n) ≠ run.run' m then Action.exhausted m
    else run m

/-! ## Runs under a higher limit -/

/-- How a run under `limits` and its copy under the class limit `k` end.  Where the run was refused a
look-up under a lower limit, or gave up, nothing is said about the copy. -/
inductive Endured (k : Nat) (limits : Limits) (V : α → α → Prop) :
    EStateM.Result Halt Machine α → EStateM.Result Halt Machine α → Prop
  | ok {x x' : α} {m₁ : Machine} (hlimits : m₁.limits = limits) (hx : V x x') :
      Endured k limits V (.ok x m₁) (.ok x' (m₁.withClassLimit k))
  | error {halt : Halt} {m₁ : Machine} :
      Endured k limits V (.error halt m₁) (.error halt (m₁.withClassLimit k))
  | refused {m₁ : Machine} {r : EStateM.Result Halt Machine α} (name : String)
      (hlow : limits.maxClassDepth < k) :
      Endured k limits V (.error (.fault (.classChainTooDeep name)) m₁) r
  | exhausted {m₁ : Machine} {r : EStateM.Result Halt Machine α} :
      Endured k limits V (.error .exhausted m₁) r

/-- Under any class limit up to `k`, the action `a` ends as `a'` does under the limit `k`. -/
def Endures (k : Nat) (V : α → α → Prop) (a a' : Action α) : Prop :=
  ∀ m : Machine, m.limits.maxClassDepth ≤ k → Endured k m.limits V (a m) (a' (m.withClassLimit k))

namespace Endures

variable {k : Nat} {V : α → α → Prop} {a a' : Action α}

theorem pure {x x' : α} (hx : V x x') : Endures k V (Pure.pure x) (Pure.pure x') :=
  fun _ _ => .ok rfl hx

theorem bind {W : β → β → Prop} {f f' : α → Action β} (ha : Endures k V a a')
    (hf : ∀ x x', V x x' → Endures k W (f x) (f' x')) : Endures k W (a >>= f) (a' >>= f') := by
  intro m hm
  change Endured k m.limits W (EStateM.bind a f m) (EStateM.bind a' f' (m.withClassLimit k))
  unfold EStateM.bind
  have hr := ha m hm
  generalize a m = r, a' (m.withClassLimit k) = r' at hr
  cases hr with
  | error => exact .error
  | refused name hlow => exact .refused name hlow
  | exhausted => exact .exhausted
  | @ok x x' m₁ hlimits hx =>
    -- The limits are still those of `m`.
    rw [← hlimits] at hm ⊢
    exact hf x x' hx m₁ hm

theorem mono {W : α → α → Prop} (ha : Endures k V a a') (hVW : ∀ x x', V x x' → W x x') :
    Endures k W a a' := by
  intro m hm
  have hr := ha m hm
  generalize a m = r, a' (m.withClassLimit k) = r' at hr
  cases hr with
  | ok hlimits hx => exact .ok hlimits (hVW _ _ hx)
  | error => exact .error
  | refused name hlow => exact .refused name hlow
  | exhausted => exact .exhausted

/-- A body that runs between two changes to the machine that have nothing to do with limits. -/
theorem around (ha : Endures k V a a') (m₀ : Machine) (hm : m₀.limits.maxClassDepth ≤ k)
    {back : Machine → Machine}
    (hback : ∀ m₁, (back m₁).limits = m₁.limits ∧
      back (m₁.withClassLimit k) = (back m₁).withClassLimit k) :
    Endured k m₀.limits V
      (match a m₀ with
        | .ok x m₁ => .ok x (back m₁)
        | .error halt m₁ => .error halt (back m₁))
      (match a' (m₀.withClassLimit k) with
        | .ok x m₁ => .ok x (back m₁)
        | .error halt m₁ => .error halt (back m₁)) := by
  have hr := ha m₀ hm
  generalize a m₀ = r, a' (m₀.withClassLimit k) = r' at hr
  cases hr with
  | @ok x x' m₁ hlimits hx =>
    dsimp only
    rw [(hback m₁).2]
    exact .ok ((hback m₁).1.trans hlimits) hx
  | @error halt m₁ =>
    dsimp only
    rw [(hback m₁).2]
    exact .error
  | refused name hlow => exact .refused name hlow
  | exhausted => exact .exhausted

/-- The call limit is the same on both sides, and so is the depth of calls. -/
theorem nested (ha : Endures k V a a') : Endures k V (Action.nested a) (Action.nested a') := by
  intro m hm
  by_cases hfull : m.limits.maxCallDepth ≤ m.depth
  · have hfull' : (m.withClassLimit k).limits.maxCallDepth ≤ (m.withClassLimit k).depth := hfull
    unfold Action.nested
    rw [if_pos hfull, if_pos hfull']
    exact .error
  · have hroom : ¬ (m.withClassLimit k).limits.maxCallDepth ≤ (m.withClassLimit k).depth := hfull
    unfold Action.nested
    rw [if_neg hfull, if_neg hroom]
    exact ha.around { m with depth := m.depth + 1 } hm fun m₁ => ⟨rfl, rfl⟩

theorem inspecting (h : Handle) (ha : Endures k V a a') :
    Endures k V (Action.inspecting h a) (Action.inspecting h a') := by
  intro m hm
  unfold Action.inspecting
  exact ha.around { m with inspecting := h :: m.inspecting } hm fun m₁ => ⟨rfl, rfl⟩

/-- A question that is answered alike on both sides, unless the lower limit is in the way. -/
theorem demand {Q : α → α → Prop} {W : β → β → Prop} {q q' : Machine → Except Fault α}
    {f f' : α → Action β} (hq : ∀ m, PairedOutcome Q (q m) (q' m))
    (hlast : ∀ m : Machine, m.limits.maxClassDepth ≤ k →
      PairedOutcome Q (q m) (q' (m.withClassLimit k)) ∨ ∃ name, q m = .error (.classChainTooDeep name))
    (hf : ∀ x x', Q x x' → Endures k W (f x) (f' x')) :
    Endures k W (Action.demand q >>= f) (Action.demand q' >>= f') := by
  intro m hm
  have houtcome : PairedOutcome Q (q m) (q' (m.withClassLimit k)) ∨
      m.limits.maxClassDepth < k ∧ ∃ name, q m = .error (.classChainTooDeep name) := by
    rcases Nat.lt_or_eq_of_le hm with hlow | rfl
    · exact (hlast m hm).imp_right fun hdeep => ⟨hlow, hdeep⟩
    · exact .inl (hq m)
  rcases houtcome with hboth | ⟨hlow, name, hdeep⟩
  · obtain ⟨fault, hx, hx'⟩ | ⟨x, x', hx, hx', hQ⟩ := hboth.elim
    · rw [Action.demand_bind_of_error hx, Action.demand_bind_of_error hx']
      exact .error
    · rw [Action.demand_bind_of_ok hx, Action.demand_bind_of_ok hx']
      exact hf x x' hQ m hm
  · rw [Action.demand_bind_of_error hdeep]
    exact .refused name hlow

theorem demanded {q : Machine → Except Fault α} (hlimit : Enduring q) :
    Endures k Eq (Action.demand q) (Action.demand q) := by
  have hbind : Endures k Eq (Action.demand q >>= Pure.pure) (Action.demand q >>= Pure.pure) :=
    demand (Q := Eq) (fun _ => .of_eq rfl)
      (fun m hm => (hlimit m k hm).imp_left fun hsame => .of_eq hsame.symm) fun _ _ hx => .pure hx
  simpa only [bind_pure] using hbind

/-- Elementary changes do not touch the limit, and what they ask endures. -/
theorem of_made (ha : a.Made) : Endures k Eq a a := by
  induction ha with
  | pure x => exact .pure rfl
  | bind _ _ iha ihf =>
    refine iha.bind fun x x' hx => ?_
    rw [← hx]
    exact ihf x
  | @ask _ q _ hlimit => exact demanded hlimit
  | demand _ hlimit => exact demanded hlimit
  | fail f => exact fun _ _ => .error
  | writeOut text =>
    intro m _
    change Endured k m.limits Eq (Action.writeOut text m)
      (if m.out.fits text then .ok () _ else .error (.fault Action.sinkFull) _)
    unfold Action.writeOut
    cases m.out.fits text
    · exact .error
    · exact .ok rfl rfl
  | writeErr text =>
    intro m _
    change Endured k m.limits Eq (Action.writeErr text m)
      (if m.err.fits text then .ok () _ else .error (.fault Action.sinkFull) _)
    unfold Action.writeErr
    cases m.err.fits text
    · exact .error
    · exact .ok rfl rfl
  | allocate | changeObject | hashSet | setGlobal | setConstant => exact fun _ _ => .ok rfl rfl

theorem flush : Endures k Eq Action.flush Action.flush := by
  intro m _
  change Endured k m.limits Eq (Action.flush m)
    (if m.out.failsFlush || m.err.failsFlush then .error (.fault Action.flushFailed) _ else .ok () _)
  unfold Action.flush
  cases m.out.failsFlush || m.err.failsFlush
  · exact .ok rfl rfl
  · exact .error

end Endures

/-- **What is alike and does not reveal the limit endures a higher one.**  The induction is on how the
two actions are built; at a call and at an evaluation it rests on the engines. -/
theorem Alike.endures {π : Permit} (hπ : ¬ π.revealLimit) {k : Nat} {e e' : Engine}
    (he : ComparedEngine (Endures k) e e') {K : Pairing} {a a' : Action α}
    {V : Pairing → α → α → Prop} (h : Alike Eq π e e' K a a' V) (hK : K = Pairing.same) :
    Endures k (V Pairing.same) a a' := by
  induction h with
  | pure hx => exact .pure (hK ▸ hx)
  | bind _ _ iha ihf =>
    subst hK
    exact (iha rfl).bind fun x x' hx => ihf Pairing.same x x' le_rfl hx rfl
  | question hq hlimit _ ih =>
    subst hK
    refine .demand (fun m => hq m m (.refl_same (fun _ => rfl) m)) (fun m hm => ?_)
      fun x x' hx => ih x x' hx rfl
    exact hlimit.resolve_left hπ m (m.withClassLimit k) (.refl_same (fun _ => rfl) _) hm
  | fail f => exact fun _ _ => .error
  | overrun request => exact fun _ _ => .error
  | exhausted _ a' => exact fun _ _ => .exhausted
  | effect heffect =>
    obtain ⟨rfl, hmade, hV⟩ := heffect.eq_and_made hK.le
    exact (Endures.of_made hmade).mono fun x _ hx => hx ▸ hV x
  | inspecting hh _ ih =>
    subst hK
    cases hh
    exact (ih rfl).inspecting _
  | call name hreceiver hfound hargs =>
    subst hK
    cases hreceiver
    rw [hfound.eq le_rfl, hargs.eq le_rfl]
    exact he.call _ _ _ _
  | evaluate hrecord hcontext hargs =>
    subst hK
    rw [hrecord, hcontext.eq le_rfl, hargs.eq le_rfl]
    exact he.evaluate _ _ _

/-! ## All programs -/

/-- Everything is permitted but to reveal the class limit. -/
def Permit.limitKept : Permit := ⟨True, True, True, False⟩

theorem Permit.Allows.limitKept (op : Opcode) : Permit.limitKept.Allows op :=
  ⟨fun _ => trivial, fun _ => trivial, fun _ => trivial⟩

namespace Candid

variable {n k : Nat} {receiver : Handle} {args : List Handle}

theorem ofBool_inj {b b' : Bool} (h : Handle.ofBool b = Handle.ofBool b') : b = b' := by
  revert b b'
  decide

/-- Asking is at fault or gives an answer, and leaves the machine as it is. -/
theorem respondTo_cases (receiver : Handle) (args : List Handle) (m : Machine) :
    (∃ f, ∀ k, Objects.respondTo receiver args (m.withClassLimit k) =
      .error (.fault f) (m.withClassLimit k)) ∨
    ∃ name, ∀ k, Objects.respondTo receiver args (m.withClassLimit k) =
      .ok (Handle.ofBool ((m.withClassLimit k).respondsTo receiver name)) (m.withClassLimit k) := by
  cases args with
  | nil => exact .inl ⟨_, fun _ => rfl⟩
  | cons h rest =>
    have hsame : ∀ k, (m.withClassLimit k).name h = m.name h := fun _ => rfl
    cases hname : m.name h with
    | error f => exact .inl ⟨f, fun k => Action.demand_bind_of_error ((hsame k).trans hname)⟩
    | ok name => exact .inr ⟨name, fun k => Action.demand_bind_of_ok ((hsame k).trans hname)⟩

/-- An answer that is the same under the class limit `n` is the same under `k`. -/
theorem endured_respondTo (hk : k ≤ n) {m : Machine} (hm : m.limits.maxClassDepth ≤ k)
    (hsame : (Objects.respondTo receiver args).run' (m.withClassLimit n) =
      (Objects.respondTo receiver args).run' m) :
    Endured k m.limits Eq (Objects.respondTo receiver args m)
      (Objects.respondTo receiver args (m.withClassLimit k)) := by
  rcases respondTo_cases receiver args m with ⟨f, hf⟩ | ⟨name, hname⟩
  · have hown : Objects.respondTo receiver args m = .error (.fault f) m := hf m.limits.maxClassDepth
    rw [hown, hf k]
    exact .error
  · have hown : Objects.respondTo receiver args m = .ok (Handle.ofBool (m.respondsTo receiver name)) m :=
      hname m.limits.maxClassDepth
    have hanswer : (m.withClassLimit n).respondsTo receiver name = m.respondsTo receiver name := by
      delta EStateM.run' EStateM.run at hsame
      rw [hown, hname n] at hsame
      exact ofBool_inj (Option.some.inj hsame)
    rw [hown, hname k, Machine.respondsTo_between hm hk hanswer]
    exact .ok rfl rfl

/-- Counting the arguments does not look at the machine. -/
theorem check_eq_pure_or_fail (arity : Arity) (given : Nat) :
    arity.check given = pure () ∨ ∃ f, arity.check given = Action.fail f := by
  cases arity with
  | any => exact .inl rfl
  | exactly count =>
    by_cases hcount : count = given
    · exact .inl (if_pos hcount)
    · exact .inr ⟨_, if_neg hcount⟩

/-- Calling `respond_to?` is to count the arguments and then to ask. -/
theorem body_of_isRespondTo {found : Found} (h : found.method.IsRespondTo) (receiver : Handle)
    (name : String) (args : List Handle) :
    ∃ arity : Arity, ∀ e : Engine, found.body e receiver name args =
      arity.check args.length >>= fun _ => Objects.respondTo receiver args := by
  obtain ⟨owner, method⟩ := found
  cases method with
  | native method =>
    obtain ⟨_, arity, primitive⟩ := method
    cases (h : primitive = .ofObject .respondTo)
    exact ⟨arity, fun _ => rfl⟩
  | _ => exact absurd h id

/-- The body of a candid call endures: `respond_to?` is watched, and nothing else reveals the
limit. -/
theorem endures_body (hk : k ≤ n) {e e' : Engine} (he : ComparedEngine (Endures k) e e')
    (found : Found) (name : String) :
    Endures k Eq ((Probe.candid n).body found (found.body e receiver name args))
      (found.body e' receiver name args) := by
  intro m hm
  unfold Probe.candid
  dsimp only
  by_cases hask : found.method.IsRespondTo
  · obtain ⟨arity, hbody⟩ := body_of_isRespondTo hask receiver name args
    rw [hbody e, hbody e']
    split
    · exact .exhausted
    · next hkept =>
      have hsame := not_not.mp fun hne => hkept ⟨hask, hne⟩
      rcases check_eq_pure_or_fail arity args.length with hcheck | ⟨f, hcheck⟩
      · rw [hcheck, pure_bind] at hsame ⊢
        exact endured_respondTo hk hm hsame
      · rw [hcheck]
        exact .error
  · have hbody : Alike Eq .limitKept e e' Pairing.same (found.body e receiver name args)
        (found.body e' receiver name args) Pairing.rel :=
      Found.alike_body trivial (fun h => absurd h hask) he.fuel name (.same found) rfl (.same args)
    rw [if_neg fun hboth => hask hboth.1]
    exact hbody.endures id he rfl m hm

theorem endures_step {e e' : Engine} (he : ComparedEngine (Endures k) e e') (i : Placed)
    {f f' : Frame} (hf : Frame.Paired Eq Pairing.same f f') :
    Endures k (Step.Left Eq Flow.Paired f.record Pairing.same) ((Step.take e i).on f)
      ((Step.take e' i).on f') := by
  have htake : StepAlike Eq .limitKept e e' Pairing.same (Step.take e i) (Step.take e' i)
      Flow.Paired := Step.alike_take sameCode_eq i (.limitKept _)
  exact (htake f f' hf _ rfl).endures id he rfl

/-- A candid run endures as the plain one. -/
theorem endures_candid (hk : k ≤ n) : ComparedProbe (Endures k) (.candid n) .plain where
  pure := .pure
  bind := .bind
  exhausted _ := fun _ _ => .exhausted
  nested := .nested
  call := id
  body he _ found name _ := endures_body hk he found name
  evaluation := id
  step := endures_step

theorem endures_program (hk : k ≤ n) {fuel fuel' : Nat} (hfuel : fuel ≤ fuel') (i : Image) :
    Endures k Eq ((Probe.candid n).program fuel i) (Run.program fuel' i) := by
  have himage : Endures k Eq (discard ((Probe.candid n).image fuel i))
      (discard (Probe.plain.image fuel' i)) :=
    ((endures_candid hk).records hfuel Handle.nil i.records).bind fun _ _ _ => .pure rfl
  rw [← Probe.program_plain]
  exact himage.bind fun _ _ _ => .flush

end Candid

/-! ## Captured runs -/

/-- What was captured is the same under the other limit. -/
theorem Endured.ofResult_eq {k : Nat} {limits : Limits} {r r' : EStateM.Result Halt Machine α}
    {V : α → α → Prop} (h : Endured k limits V r r') (hends : ∀ m₁, r ≠ .error .exhausted m₁)
    (hdeep : limits.maxClassDepth < k → ∀ name,
      (Captured.ofResult r).halt ≠ some (.fault (.classChainTooDeep name))) :
    Captured.ofResult r' = Captured.ofResult r := by
  cases h with
  | ok _ _ => rfl
  | error => rfl
  | refused name hlow => exact absurd rfl (hdeep hlow name)
  | @exhausted m₁ _ => exact absurd rfl (hends m₁)

theorem Machine.boot_withClassLimit (limits limits' : Limits)
    (hcall : limits'.maxCallDepth = limits.maxCallDepth) :
    (Machine.boot limits {} {}).withClassLimit limits'.maxClassDepth = Machine.boot limits' {} {} := by
  obtain ⟨call, classes⟩ := limits
  obtain ⟨call', classes'⟩ := limits'
  subst hcall
  rfl

/-- A program that makes a class below `String` with a method `respond_to?` of its own, which passes the
question on to the builtin method, and prints whether an instance has the method `asked`. -/
def respondDraft (asked : String) : RecordDraft where
  registers := 4
  symbols := ["String", "X", "respond_to?", "initialize", "new", asked, "p"]
  children :=
    [{ registers := 3
       code := #[.instruction { op := .superSend, a := 0, b := 1 },
         .instruction { op := .ret, a := 0 }] },
     { registers := 3
       code := #[.instruction { op := .loadNil, a := 1 }, .instruction { op := .ret, a := 1 }] }]
  code := #[.instruction { op := .getConst, a := 2, b := 0 },
    .instruction { op := .openClass, a := 1, b := 1 }, .instruction { op := .method, a := 2, b := 0 },
    .instruction { op := .defMethod, a := 1, b := 2 }, .instruction { op := .getConst, a := 1, b := 1 },
    .instruction { op := .method, a := 2, b := 1 }, .instruction { op := .defMethod, a := 1, b := 3 },
    .instruction { op := .getConst, a := 1, b := 1 },
    .instruction { op := .send, a := 1, b := 4, c := 0 },
    .instruction { op := .loadSym, a := 2, b := 5 },
    .instruction { op := .send, a := 1, b := 2, c := 1 }, .instruction { op := .move, a := 2, b := 1 },
    .instruction { op := .selfSend, a := 1, b := 6, c := 1 }, .instruction { op := .stop }]

/-- The image of the program. -/
def respondImage (asked : String) : Image := (ImageDraft.ofRecord (respondDraft asked)).toImage

theorem respondImage_loads {asked : String} (hasked : StorableText asked)
    (hsize : (ImageDraft.ofRecord (respondDraft asked)).toBytes.length < 2 ^ 32) :
    Image.ofBytes (ImageDraft.ofRecord (respondDraft asked)).toBytes = .ok (respondImage asked) := by
  refine (Image.ofBytes_eq_ok_iff _ _).mpr (ImageDraft.imageOf_toBytes ?_ hsize)
  intro p hp
  rw [List.mem_singleton.mp hp]
  have hfixed : ∀ text ∈ ["String", "X", "respond_to?", "initialize", "new", "p"],
      StorableText text := by decide
  have hsymbols : ∀ text ∈ (respondDraft asked).symbols, StorableText text := by
    intro text htext
    by_cases hname : text = asked
    · exact hname ▸ hasked
    · exact hfixed text (by simpa [respondDraft, hname] using htext)
  have hcode : ∀ item ∈ (respondDraft asked).code.toList, item.instruction?.isSome = true := by
    simp [respondDraft, CodeItem.instruction?]
  refine .intro ⟨hcode, by simp [respondDraft], hsymbols, by simp [respondDraft],
    by simp [respondDraft], by simp [respondDraft]⟩ fun c hc => ?_
  simp only [respondDraft, List.mem_cons, List.not_mem_nil, or_false] at hc
  rcases hc with rfl | rfl
  all_goals
    refine .intro ⟨by decide, by decide, by decide, by decide, by decide, by decide⟩ ?_
    simp

/-- **The class limit shows in an answer.**  Under the limit 1 a program ends well and says that an
object has no method `puts`, since the look-up is cut short one hop below `Object`; under the limit 2
it ends well and says that it has one. -/
theorem respondTo_reveals_classLimit :
    (∃ bytes, Image.ofBytes bytes = .ok (respondImage "puts")) ∧
    (respondImage "puts").capture { maxClassDepth := 1 } =
      { out := "false\n", err := "", halt := none } ∧
    (respondImage "puts").capture { maxClassDepth := 2 } =
      { out := "true\n", err := "", halt := none } :=
  ⟨⟨_, respondImage_loads (by decide) (by decide +kernel)⟩, by decide +kernel, by decide +kernel⟩

/-- **Raising the class limit changes nothing but chains that are too deep and what `respond_to?` says
about them.**  Take two sets of limits that differ in the class limit at most, and a program that ends
under the lower one while no answer of `respond_to?` would be another one under the higher limit.
Unless it ends because a chain of classes is too deep, it ends under the higher limit too, within the
same fuel and with the same output, the same error output and the same result.  With ample fuel on both
sides this is about `Image.capture`. -/
theorem classLimit_raised (image : Image) (limits limits' : Limits)
    (hcall : limits'.maxCallDepth = limits.maxCallDepth)
    (hclass : limits.maxClassDepth ≤ limits'.maxClassDepth) (fuel : Nat)
    (hcandid : ((Probe.candid limits'.maxClassDepth).program fuel image).Ends (Machine.boot limits {} {}))
    (hdeep : ∀ name, (image.captureWithin limits fuel).halt ≠
      some (.fault (.classChainTooDeep name))) :
    (image.captureWithin limits fuel).halt ≠ some .exhausted ∧
    ∀ fuel', fuel ≤ fuel' →
      image.captureWithin limits' fuel' = image.captureWithin limits fuel := by
  -- Under its own limit, the candid run is what was captured.
  have hown := Candid.endures_program hclass (Nat.le_refl fuel) image (Machine.boot limits {} {})
    (Nat.le_refl _)
  have hsame : image.captureWithin limits fuel = Captured.ofResult
      ((Probe.candid limits'.maxClassDepth).program fuel image (Machine.boot limits {} {})) :=
    hown.ofResult_eq hcandid fun hlow => absurd hlow (Nat.lt_irrefl _)
  rw [hsame] at hdeep ⊢
  refine ⟨?_, fun fuel' hfuel => ?_⟩
  · cases hrun : (Probe.candid limits'.maxClassDepth).program fuel image (Machine.boot limits {} {}) with
    | ok _ _ => simp [Captured.ofResult]
    | error halt m₁ =>
      intro hhalt
      cases Option.some.inj hhalt
      exact hcandid m₁ hrun
  · have hraised := Candid.endures_program (Nat.le_refl _) hfuel image (Machine.boot limits {} {})
      hclass
    rw [Machine.boot_withClassLimit limits limits' hcall] at hraised
    exact hraised.ofResult_eq hcandid fun _ => hdeep

/-- Asked for `upcase`, which `String` has, the program prints the same under every limit from 1 on. -/
theorem classLimit_raised_upcase :
    (∃ bytes, Image.ofBytes bytes = .ok (respondImage "upcase")) ∧
    (respondImage "upcase").capture { maxClassDepth := 1 } =
      { out := "true\n", err := "", halt := none } ∧
    (respondImage "upcase").capture = (respondImage "upcase").capture { maxClassDepth := 1 } := by
  have hran : (respondImage "upcase").capture { maxClassDepth := 1 } =
      { out := "true\n", err := "", halt := none } := by decide +kernel
  have hcandid : ((Probe.candid 64).program Run.ample (respondImage "upcase")).Ends
      (Machine.boot { maxClassDepth := 1 } {} {}) := by
    intro m₁ hm₁
    have hok : (Captured.ofResult ((Probe.candid 64).program Run.ample (respondImage "upcase")
        (Machine.boot { maxClassDepth := 1 } {} {}))).halt = none := by decide +kernel
    rw [hm₁] at hok
    cases hok
  refine ⟨⟨_, respondImage_loads (by decide) (by decide +kernel)⟩, hran, ?_⟩
  rw [Image.capture_eq] at hran
  rw [Image.capture_eq, Image.capture_eq]
  exact (classLimit_raised (respondImage "upcase") { maxClassDepth := 1 } {} rfl (by decide) Run.ample
    hcandid (fun name => by rw [hran]; simp)).2 Run.ample (Nat.le_refl _)

end Rite
