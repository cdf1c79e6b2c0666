import Rite.Proofs.HeapSteps
import Rite.Proofs.ImageRoundTrip

/-!
# Keys of hashes

A hash is a list of pairs, and its keys compare by what they hold at the time.  Putting in a pair
replaces the value under an equal key, so the keys of a hash are pairwise unequal when they are put
in.  Integers and symbols stay what they are, and so do objects that are equal to nothing but
themselves.  Strings do not: a string that is a key can be continued, and may then be equal to
another key of the same hash.

Two things are left of the promise.  Two equal keys of one hash are always two different strings
(`keysApart_invariant`); and in runs that never continue a string while it is a key, no two keys are
equal (`Machine.SparinglyReachable.keysUnequal`).
-/

namespace Rite

variable {α : Type}

/-! ## Equal keys -/

theorem Object.payload_of_hash? {o : Object} {pairs : List (Handle × Handle)}
    (h : o.hash? = some pairs) : o.payload = .hash pairs := by
  unfold Object.hash? at h
  split at h
  · next hpayload =>
    cases h
    exact hpayload
  · cases h

theorem Object.payload_mapPairs {o : Object} {pairs : List (Handle × Handle)}
    (h : o.payload = .hash pairs) {f : List (Handle × Handle) → List (Handle × Handle)} :
    (o.mapPairs f).payload = .hash (f pairs) := by
  obtain ⟨_, _, _, payload⟩ := o
  cases h
  rfl

/-- The payload `p₁` in place of `p` is an integer or a symbol only if `p` was the same one, and so is
a text unless `strings` holds. -/
structure Payload.KeepsKey (strings : Prop) (p p₁ : Payload) : Prop where
  integer : ∀ x, p₁ = .integer x → p = .integer x
  string : ∀ text, p₁ = .string text → p = .string text ∨ strings
  symbol : ∀ name, p₁ = .symbol name → p = .symbol name

theorem Payload.KeepsKey.refl (strings : Prop) (p : Payload) : p.KeepsKey strings p :=
  ⟨fun _ => id, fun _ => .inl, fun _ => id⟩

/-- A changed object is the same as a key, and has the same pairs if it is a hash. -/
structure Object.KeepsKeys (strings : Prop) (o o₁ : Object) : Prop where
  key : o.payload.KeepsKey strings o₁.payload
  pairs : ∀ pairs, o₁.payload = .hash pairs → o.payload = .hash pairs

theorem Object.KeepsKeys.of_payload {strings : Prop} {o o₁ : Object} (h : o₁.payload = o.payload) :
    o.KeepsKeys strings o₁ := by
  refine ⟨?_, fun pairs hpairs => h ▸ hpairs⟩
  rw [h]
  exact .refl strings _

namespace Heap

variable {heap heap₁ : Heap} {a b h : Handle} {strings : Prop}

/-- What two keys must have in common to be equal. -/
theorem keysEqual_iff :
    heap.keysEqual a b = true ↔ a = b ∨
      (∃ x, (heap.get a).payload = .integer x ∧ (heap.get b).payload = .integer x) ∨
      (∃ text, (heap.get a).payload = .string text ∧ (heap.get b).payload = .string text) ∨
      ∃ name, (heap.get a).payload = .symbol name ∧ (heap.get b).payload = .symbol name := by
  unfold keysEqual
  by_cases hab : a = b
  · simp [hab]
  · rw [if_neg hab]
    generalize (heap.get a).payload = p, (heap.get b).payload = q
    cases p <;> cases q <;> simp [hab] <;> grind

/-- The keys `a` and `b` can stand in one hash: they are different objects, and if they are equal
nevertheless, they are strings, which is allowed only if `strings` holds. -/
structure Apart (strings : Prop) (heap : Heap) (a b : Handle) : Prop where
  ne : a ≠ b
  unequal : heap.keysEqual a b = true →
    strings ∧ (heap.get a).string?.isSome = true ∧ (heap.get b).string?.isSome = true

/-- Any two keys of a hash are apart. -/
def KeysApart (strings : Prop) (heap : Heap) : Prop :=
  ∀ h pairs, (heap.get h).payload = .hash pairs → (pairs.map (·.1)).Pairwise (heap.Apart strings)

theorem Apart.of_keysEqual_eq_false (h : heap.keysEqual a b = false) : heap.Apart strings a b := by
  refine ⟨?_, fun hequal => ?_⟩
  · rintro rfl
    rw [keysEqual_iff.mpr (.inl rfl)] at h
    cases h
  · rw [h] at hequal
    cases hequal

theorem Apart.keep (h : heap.Apart strings a b)
    (ha : (heap.get a).payload.KeepsKey strings (heap₁.get a).payload)
    (hb : (heap.get b).payload.KeepsKey strings (heap₁.get b).payload) :
    heap₁.Apart strings a b := by
  refine ⟨h.ne, fun hequal => ?_⟩
  -- If the keys are equal now and no strings, they were equal before and no strings either.
  have hstring : ∀ {p : Payload} {o : Object}, o.payload = p → o.string?.isSome = true →
      ∃ text, p = .string text := by
    intro p o hp hsome
    unfold Object.string? at hsome
    rw [hp] at hsome
    cases p with
    | string text => exact ⟨text, rfl⟩
    | _ => cases hsome
  rcases keysEqual_iff.mp hequal with heq | ⟨x, hax, hbx⟩ | ⟨text, hat, hbt⟩ | ⟨name, han, hbn⟩
  · exact absurd heq h.ne
  · have hold := h.unequal (keysEqual_iff.mpr
      (.inr (.inl ⟨x, ha.integer x hax, hb.integer x hbx⟩)))
    obtain ⟨text, htext⟩ := hstring (ha.integer x hax) hold.2.1
    cases htext
  · have hboth : (heap₁.get a).string?.isSome = true ∧ (heap₁.get b).string?.isSome = true := by
      unfold Object.string?
      rw [hat, hbt]
      exact ⟨rfl, rfl⟩
    refine ⟨?_, hboth⟩
    rcases ha.string text hat with hat | hstrings
    · rcases hb.string text hbt with hbt | hstrings
      · exact (h.unequal (keysEqual_iff.mpr (.inr (.inr (.inl ⟨text, hat, hbt⟩))))).1
      · exact hstrings
    · exact hstrings
  · have hold := h.unequal (keysEqual_iff.mpr
      (.inr (.inr (.inr ⟨name, ha.symbol name han, hb.symbol name hbn⟩))))
    obtain ⟨text, htext⟩ := hstring (ha.symbol name han) hold.2.1
    cases htext

/-- A pair goes to the place of an equal key, or behind keys that are all unequal to its own. -/
theorem keys_insertPair (heap : Heap) (key value : Handle) (pairs : List (Handle × Handle)) :
    (heap.insertPair key value pairs).map (·.1) = pairs.map (·.1) ∨
      (heap.insertPair key value pairs).map (·.1) = pairs.map (·.1) ++ [key] ∧
        ∀ k ∈ pairs.map (·.1), heap.keysEqual k key = false := by
  induction pairs with
  | nil => exact .inr ⟨rfl, fun k hk => absurd hk List.not_mem_nil⟩
  | cons pair rest ih =>
    obtain ⟨k, v⟩ := pair
    unfold insertPair
    cases hk : heap.keysEqual k key with
    | true => exact .inl rfl
    | false =>
      rw [if_neg Bool.false_ne_true]
      rcases ih with hsame | ⟨hnew, hall⟩
      · exact .inl (congrArg (k :: ·) hsame)
      · refine .inr ⟨congrArg (k :: ·) hnew, fun x hx => ?_⟩
        rcases List.mem_cons.mp hx with rfl | hx
        · exact hk
        · exact hall x hx

theorem pairwise_insertPair {pairs : List (Handle × Handle)} (key value : Handle)
    (h : (pairs.map (·.1)).Pairwise (heap.Apart strings)) :
    ((heap.insertPair key value pairs).map (·.1)).Pairwise (heap.Apart strings) := by
  rcases heap.keys_insertPair key value pairs with hsame | ⟨hnew, hall⟩
  · rw [hsame]
    exact h
  · rw [hnew, List.pairwise_append]
    refine ⟨h, List.pairwise_singleton _ _, fun k hk x hx => ?_⟩
    rw [List.mem_singleton.mp hx]
    exact .of_keysEqual_eq_false (hall k hk)

namespace KeysApart

/-- Another heap, whose hashes have keys that were apart and have been kept. -/
theorem change (heap : Heap) (hpairs : ∀ x pairs, (heap₁.get x).payload = .hash pairs →
      (pairs.map (·.1)).Pairwise (heap.Apart strings) ∧
      ∀ k ∈ pairs.map (·.1), (heap.get k).payload.KeepsKey strings (heap₁.get k).payload) :
    heap₁.KeysApart strings := by
  intro x pairs hx
  obtain ⟨hapart, hkeep⟩ := hpairs x pairs hx
  exact hapart.imp_of_mem fun ha hb hab => hab.keep (hkeep _ ha) (hkeep _ hb)

theorem modify (hheap : heap.KeysApart strings) {f : Object → Object}
    (hf : ∀ o : Object, o.KeepsKeys strings (f o)) : (heap.modify h f).KeysApart strings := by
  refine change heap fun x pairs hx => ⟨hheap x pairs ?_, fun k _ => ?_⟩
  · rw [get_modify] at hx
    split at hx
    · next heq =>
      rw [heq.1]
      exact (hf _).pairs pairs hx
    · exact hx
  · rw [get_modify]
    split
    · next heq =>
      rw [heq.1]
      exact (hf _).key
    · exact .refl strings _

/-- A new object, if the keys of all hashes were there before and it is no hash with pairs. -/
theorem push (hheap : heap.KeysApart strings) {o : Object}
    (hvalid : ∀ x pairs, (heap.get x).payload = .hash pairs →
      ∀ k ∈ pairs.map (·.1), k.index < heap.size)
    (ho : ∀ pairs, o.payload = .hash pairs → pairs = []) : (heap.push o).KeysApart strings := by
  refine change heap fun x pairs hx => ?_
  rw [get_push] at hx
  split at hx
  · cases ho pairs hx
    exact ⟨.nil, fun k hk => absurd hk List.not_mem_nil⟩
  · refine ⟨hheap x pairs hx, fun k hk => ?_⟩
    rw [get_push, if_neg (Nat.ne_of_lt (hvalid x pairs hx k hk))]
    exact .refl strings _

theorem hashSet (hheap : heap.KeysApart strings) (key value : Handle) :
    (heap.hashSet h key value).KeysApart strings := by
  unfold Heap.hashSet
  cases hp : (heap.get h).hash? with
  | none => exact hheap
  | some old =>
    have hold : (heap.get h).payload = .hash old := Object.payload_of_hash? hp
    show (heap.modify h (·.mapPairs fun _ => heap.insertPair key value old)).KeysApart strings
    refine change heap fun x pairs hx => ⟨?_, fun k _ => ?_⟩
    · rw [get_modify] at hx
      split at hx
      · rw [Object.payload_mapPairs hold] at hx
        cases hx
        exact pairwise_insertPair key value (hheap h old hold)
      · exact hheap x pairs hx
    · rw [get_modify]
      split
      · rw [Object.payload_mapPairs hold]
        exact ⟨fun _ => nofun, fun _ => nofun, fun _ => nofun⟩
      · exact .refl strings _

end KeysApart

end Heap

/-! ## Every step keeps keys apart -/

section Changes

variable {strings : Prop}

theorem Object.keepsKeys_mapMethods (f : Table Method → Table Method) (o : Object) :
    o.KeepsKeys strings (o.mapMethods f) := by
  obtain ⟨_, _, _, payload⟩ := o
  cases payload with
  | ofClass info => exact ⟨⟨fun _ => nofun, fun _ => nofun, fun _ => nofun⟩, fun _ => nofun⟩
  | _ => exact .of_payload rfl

theorem Object.keepsKeys_mapItems (f : Array Handle → Array Handle) (o : Object) :
    o.KeepsKeys strings (o.mapItems f) := by
  obtain ⟨_, _, _, payload⟩ := o
  cases payload with
  | array items => exact ⟨⟨fun _ => nofun, fun _ => nofun, fun _ => nofun⟩, fun _ => nofun⟩
  | _ => exact .of_payload rfl

theorem Object.keepsKeys_mapText (hstrings : strings) (f : String → String) (o : Object) :
    o.KeepsKeys strings (o.mapText f) := by
  obtain ⟨_, _, _, payload⟩ := o
  cases payload with
  | string text =>
    exact ⟨⟨fun _ => nofun, fun _ _ => .inr hstrings, fun _ => nofun⟩, fun _ => nofun⟩
  | _ => exact .of_payload rfl

end Changes

/-- The keys of a hash are objects of the heap. -/
theorem Machine.Closed.valid_key {m : Machine} (hm : m.Closed) (x : Handle)
    (pairs : List (Handle × Handle)) (hx : (m.heap.get x).payload = .hash pairs) :
    ∀ k ∈ pairs.map (·.1), k.index < m.heap.size := by
  intro k hk
  have hvalid : m.Valid x := by
    by_contra hinvalid
    rw [Heap.get_of_size_le _ (Nat.le_of_not_lt hinvalid)] at hx
    cases hx
  refine hm.object x hvalid k (Object.mem_handles.mpr (.inr (.inr (.inr ?_))))
  show k ∈ (m.heap.get x).payload.handles
  rw [hx]
  exact List.mem_append_left _ hk

theorem HeapStep.keysApart {π : Permit} {m : Machine} {heap : Heap} {strings : Prop}
    (hstrings : π.appendText → strings) (hm : m.WellFormed) (hheap : m.heap.KeysApart strings)
    (hstep : HeapStep π m heap) : heap.KeysApart strings := by
  have hkeys := hm.closed.valid_key
  cases hstep with
  | same => exact hheap
  | newObject _ hfresh =>
    refine hheap.push hkeys fun pairs hpairs => ?_
    have hpairs : Payload.Fresh (.hash pairs) := hpairs ▸ hfresh
    exact hpairs
  | newClass name parent => exact hheap.push hkeys fun _ => nofun
  | newModule name => exact hheap.push hkeys fun _ => nofun
  | adopt h name =>
    have hpushed : (m.heap.push (.newClass name Handle.classClass)).KeysApart strings :=
      hheap.push hkeys fun _ => nofun
    exact hpushed.modify fun _ => .of_payload rfl
  | define c name method _ => exact hheap.modify fun o => o.keepsKeys_mapMethods _
  | undefine c name => exact hheap.modify fun o => o.keepsKeys_mapMethods _
  | setIvar h name value => exact hheap.modify fun _ => .of_payload rfl
  | changeItems h f => exact hheap.modify fun o => o.keepsKeys_mapItems f
  | appendText h text htext => exact hheap.modify fun o => o.keepsKeys_mapText (hstrings htext) _
  | hashSet h key value => exact hheap.hashSet key value

theorem Boot.keysApart (strings : Prop) : machine.heap.KeysApart strings := by
  have hnone : ∀ i < 18, (machine.object ⟨i⟩).hash? = none := by decide +kernel
  intro h pairs hpairs
  have hhash : (machine.object h).hash? = some pairs := by
    unfold Object.hash?
    rw [show (machine.object h).payload = .hash pairs from hpairs]
  by_cases hh : machine.Valid h
  · rw [hnone h.index hh] at hhash
    cases hhash
  · rw [Heap.get_of_size_le _ (Nat.le_of_not_lt hh)] at hpairs
    cases hpairs

theorem keysApart_invariant {π : Permit} {strings : Prop} (hstrings : π.appendText → strings) :
    Invariant π fun m => m.heap.KeysApart strings :=
  .of_heapStep fun hm hI hstep => hstep.keysApart hstrings hm hI

/-! ## Runs that spare keys -/

/-- Whether `h` is a key of some hash. -/
def Machine.isKey (m : Machine) (h : Handle) : Bool :=
  m.heap.objects.any fun o =>
    match o.hash? with
    | some pairs => pairs.any fun pair => pair.1 = h
    | none => false

/-- Carry out an action, and give up if `h` is a key of a hash afterwards. -/
def Action.sparing (h : Handle) (a : Action α) : Action α := fun m =>
  match a m with
  | .ok x m => if m.isKey h then .error .exhausted m else .ok x m
  | .error halt m => .error halt m

/-- The probe that gives up when an instruction has continued a string that is a key. -/
def Probe.spare : Probe where
  step i f a := if i.instruction.op = .strCat then a.sparing (f.get i.instruction.a) else a

theorem Machine.not_mem_of_isKey {m : Machine} {k x : Handle} {pairs : List (Handle × Handle)}
    (hk : m.isKey k = false) (hx : (m.heap.get x).payload = .hash pairs) :
    k ∉ pairs.map (·.1) := by
  intro hmem
  have hlt : x.index < m.heap.objects.size := by
    by_contra hge
    rw [Heap.get_of_size_le _ (Nat.le_of_not_lt hge)] at hx
    cases hx
  have hget : m.heap.get x = m.heap.objects[x.index] := by
    unfold Heap.get
    rw [Array.getD_eq_getD_getElem?, Array.getElem?_eq_getElem hlt]
    rfl
  obtain ⟨pair, hpair, rfl⟩ := List.mem_map.mp hmem
  have hsome : m.isKey pair.1 = true := by
    refine Array.any_eq_true.mpr ⟨x.index, hlt, ?_⟩
    have hhash : (m.heap.objects[x.index]).hash? = some pairs := by
      unfold Object.hash?
      rw [← hget, hx]
    rw [hhash]
    exact List.any_eq_true.mpr ⟨pair, hpair, decide_eq_true rfl⟩
  rw [hk] at hsome
  cases hsome

/-- Continuing a string that is no key. -/
theorem Heap.KeysApart.mapText {heap : Heap} {strings : Prop} {h : Handle} {f : String → String}
    (hheap : heap.KeysApart strings)
    (hfree : ∀ x pairs, ((heap.modify h (·.mapText f)).get x).payload = .hash pairs →
      h ∉ pairs.map (·.1)) :
    (heap.modify h (·.mapText f)).KeysApart strings := by
  refine .change heap fun x pairs hx => ⟨hheap x pairs ?_, fun k hk => ?_⟩
  · rw [Heap.get_modify] at hx
    split at hx
    · next heq =>
      rw [heq.1]
      exact (Object.keepsKeys_mapText trivial f _).pairs pairs hx
    · exact hx
  · have hne : k ≠ h := by
      rintro rfl
      exact hfree x pairs hx hk
    rw [Heap.get_modify, if_neg fun heq => hne heq.1]
    exact .refl strings _

theorem Action.sparing_bind {β : Type} (h : Handle) (a : Action α) (f : α → Action β) :
    (a >>= f).sparing h = a >>= fun x => (f x).sparing h := by
  funext m
  change (match EStateM.bind a f m with | .ok x m => _ | .error halt m => _) =
    EStateM.bind a (fun x => (f x).sparing h) m
  unfold EStateM.bind
  cases a m <;> rfl

/-- Continuing a string comes last, when the text of the piece is known. -/
theorem Step.take_strCat_on (e : Engine) {p : Placed} (hop : p.instruction.op = .strCat) (f : Frame) :
    (Step.take e p).on f = (do
      let text ← pieceText e (f.get (p.instruction.a + 1))
      continueText (f.get p.instruction.a) text
      return (.next, f)) := by
  have hstep : Step.take e p = strCat e p.instruction.a >>= fun _ => pure .next := by
    unfold Step.take Step.execute
    simp only [hop]
  rw [hstep, on_bind, strCat_on]
  simp only [bind_assoc, pure_bind, on_pure]

/-- No two keys of a hash are equal. -/
def Machine.KeysUnequal (m : Machine) : Prop := m.heap.KeysApart False

/-- No string is continued. -/
def Permit.textsKept : Permit := ⟨True, False, True, True⟩

theorem keysUnequal_invariant : Invariant .textsKept Machine.KeysUnequal := keysApart_invariant id

section Programs

/-- A string that is continued and is no key afterwards. -/
theorem maintained_continueText {m : Machine} (hm : m.WellFormed) (hI : m.KeysUnequal) {h : Handle}
    (hh : m.Valid h) (text : String) {f f' : Frame} (hf : Frame.Paired Eq hm.pairing f f') :
    Maintained Machine.KeysUnequal m (Step.Left Eq Flow.Paired f.record)
      ((Step.continueText h text >>= fun _ => pure (.next, f) : Action (Flow × Frame)).sparing h m)
      ((Step.continueText h text >>= fun _ => pure (.next, f')) m) := by
  have hdiscard : ∀ q : Action String, discard q = q >>= fun _ => pure () := fun _ => rfl
  unfold Step.continueText
  simp only [hdiscard, bind_assoc, pure_bind, Action.sparing_bind]
  cases hs : m.string h with
  | error fault =>
    rw [Action.demand_bind_of_error hs, Action.demand_bind_of_error hs]
    exact .error hm hI
  | ok old =>
    rw [Action.demand_bind_of_ok hs, Action.demand_bind_of_ok hs]
    have hpair : hm.pairing h h := ⟨rfl, hh⟩
    have hchange : Effect Eq .full hm.pairing (Action.changeObject h (·.mapText (· ++ text)))
        (Action.changeObject h (·.mapText (· ++ text))) Equal := .appendText hpair text trivial
    have hkept := hchange.preserves hm rfl
    generalize hm₁ : { m with heap := m.heap.modify h (·.mapText (· ++ text)) } = m₁
    have hran : Action.changeObject h (·.mapText (· ++ text)) m = .ok () m₁ := hm₁ ▸ rfl
    rw [hran] at hkept
    change Maintained _ m _ (EStateM.bind _ _ m) (EStateM.bind _ _ m)
    unfold EStateM.bind
    rw [hran]
    change Maintained _ m _ (if m₁.isKey h then _ else _) _
    cases hkept with
    | ok hwell hsize _ =>
      split
      · exact .exhausted
      · next hfree =>
        have hfree : m₁.isKey h = false := Bool.eq_false_iff.mpr hfree
        refine .ok hwell ?_ hsize ⟨.next, hf.mono (Pairing.below_le hm.rooted.size hsize), rfl⟩
        subst hm₁
        exact hI.mapText fun x pairs hx => Machine.not_mem_of_isKey hfree hx

/-- The sparing instruction, next to the plain one. -/
theorem maintained_take {e e' : Engine} (he : MaintainingEngine Machine.KeysUnequal e e')
    {m : Machine} (hm : m.WellFormed) (hI : m.KeysUnequal) (i : Placed) {f f' : Frame}
    (hf : Frame.Paired Eq hm.pairing f f') :
    Maintained Machine.KeysUnequal m (Step.Left Eq Flow.Paired f.record)
      (Probe.spare.step i f ((Step.take e i).on f) m) ((Step.take e' i).on f' m) := by
  unfold Probe.spare
  dsimp only
  by_cases hop : i.instruction.op = .strCat
  · rw [if_pos hop, Step.take_strCat_on e hop, Step.take_strCat_on e' hop, Action.sparing_bind,
      ← (hf.get i.instruction.a).1]
    have hpiece : Alike Eq .textsKept e e' hm.pairing
        (Step.pieceText e (f.get (i.instruction.a + 1)))
        (Step.pieceText e' (f'.get (i.instruction.a + 1))) Equal := Step.alike_pieceText (hf.get _)
    refine .bind (hpiece.maintains keysUnequal_invariant he hm rfl hI) ?_
    intro m₁ hm₁ text _ hI₁ hsize htext
    cases htext
    have hf₁ := hf.mono (Pairing.below_le hm.rooted.size hsize)
    exact maintained_continueText hm₁ hI₁ (hf₁.get _).2 text hf₁
  · have hallows : Permit.textsKept.Allows i.instruction.op := ⟨hop, fun _ => trivial, fun _ => trivial⟩
    have htake : StepAlike Eq .textsKept e e' hm.pairing (Step.take e i) (Step.take e' i)
        Flow.Paired := Step.alike_take sameCode_eq i hallows
    rw [if_neg hop]
    exact (htake f f' hf _ rfl).maintains keysUnequal_invariant he hm rfl hI

theorem maintaining_spare : MaintainingProbe Machine.KeysUnequal .spare .plain where
  call _ _ _ _ ha := ha
  body _ _ _ _ _ ha := ha
  evaluation _ _ _ _ ha := ha
  step he _ hm hI i _ _ hf := maintained_take he hm hI i hf

end Programs

/-- The machines at rest after runs that continued no string which was a key when the instruction was
done: sparing runs did not give up. -/
inductive Machine.SparinglyReachable : Machine → Prop
  | boot (limits : Limits) (out err : Sink) : SparinglyReachable (.boot limits out err)
  | executed {m : Machine} (h : SparinglyReachable m) (fuel : Nat) (i : Image)
      (hends : (Probe.spare.image fuel i).Ends m) : SparinglyReachable ((Run.image fuel i).leaves m)

theorem Machine.SparinglyReachable.keysUnequal {m : Machine} (h : m.SparinglyReachable) :
    m.WellFormed ∧ m.KeysUnequal := by
  induction h with
  | boot limits out err =>
    exact ⟨Machine.boot_wellFormed limits out err, Boot.keysApart False⟩
  | @executed m _ fuel i hends ih =>
    have hrun := maintaining_spare.image keysUnequal_invariant trivial trivial fuel i ih.1 ih.2
    rw [Probe.image_plain] at hrun
    rw [hrun.leaves_eq hends]
    exact hrun.leaves hends

/-- A script that makes a hash with the keys `"a"` and `"ab"`, and then appends `"b"` to what `copy` puts
into register 5. -/
def keysDraft (copy : Instruction) : ImageDraft :=
  .ofRecord
    { registers := 8, literals := ["a", "ab", "b"]
      code := #[.instruction { op := .string, a := 1, b := 0 }, .instruction copy,
        .instruction { op := .loadNil, a := 2 }, .instruction { op := .string, a := 3, b := 1 },
        .instruction { op := .loadNil, a := 4 }, .instruction { op := .hash, a := 1, b := 2 },
        .instruction { op := .string, a := 6, b := 2 }, .instruction { op := .strCat, a := 5 }] }

theorem keysDraft_loads {copy : Instruction} (h : (keysDraft copy).toBytes.length < 2 ^ 32) :
    Image.ofBytes (keysDraft copy).toBytes = .ok (keysDraft copy).toImage := by
  refine (Image.ofBytes_eq_ok_iff _ _).mpr (ImageDraft.imageOf_toBytes ?_ h)
  intro p hp
  simp only [keysDraft, ImageDraft.ofRecord, List.mem_cons, List.not_mem_nil, or_false] at hp
  subst hp
  have hliterals : ∀ text ∈ ["a", "ab", "b"], StorableText text := by decide
  refine .intro ⟨?_, hliterals, ?_, by simp, by simp, by simp⟩ fun c hc => absurd hc (by simp)
  · intro item hitem
    simp only [List.mem_cons, List.not_mem_nil, or_false] at hitem
    rcases hitem with rfl | rfl | rfl | rfl | rfl | rfl | rfl | rfl <;> rfl
  · exact fun text htext => absurd htext (by simp)

/-- Register 5 refers to the key `"a"`. -/
def keyContinued : Image := (keysDraft { op := .move, a := 5, b := 1 }).toImage

/-- The machine that is left behind when the key has been continued. -/
@[irreducible] def afterContinuation : Machine := (Run.image 12 keyContinued).leaves Boot.machine

/-- **A hash with two equal keys**, left behind by an image that has been loaded. -/
theorem equal_keys_afterContinuation :
    (∃ bytes, Image.ofBytes bytes = .ok keyContinued) ∧ afterContinuation.Reachable ∧
    (afterContinuation.object ⟨20⟩).hash? = some [(⟨18⟩, Handle.nil), (⟨19⟩, Handle.nil)] ∧
    afterContinuation.heap.keysEqual ⟨18⟩ ⟨19⟩ = true := by
  have hends : (Run.image 12 keyContinued).Ends Boot.machine := by
    intro m' hm'
    have hok : (match Run.image 12 keyContinued Boot.machine with
        | .ok _ _ => true
        | .error _ _ => false) = true := by decide +kernel
    rw [hm'] at hok
    exact Bool.false_ne_true hok
  refine ⟨⟨_, keysDraft_loads (by decide +kernel)⟩, ?_, by decide +kernel⟩
  unfold afterContinuation
  exact .executed (.boot {} {} {}) 12 _ hends

/-- **The keys of a hash are apart.**  Whatever programs have run, two keys of one hash that compare
equal are two different strings; and if no string that was a key was continued on the way, no two
keys of a hash compare equal. -/
theorem hash_keys_apart {m : Machine} {h : Handle} {pairs : List (Handle × Handle)}
    (hpairs : (m.object h).hash? = some pairs) :
    (m.Reachable → (pairs.map (·.1)).Pairwise fun a b => m.heap.keysEqual a b = true →
      a ≠ b ∧ (m.object a).string?.isSome ∧ (m.object b).string?.isSome) ∧
    (m.SparinglyReachable → (pairs.map (·.1)).Pairwise fun a b => m.heap.keysEqual a b = false) := by
  have hpayload := Object.payload_of_hash? hpairs
  constructor
  · intro hm
    have hapart := ((keysApart_invariant fun _ => trivial).reachable (Boot.keysApart True) hm).2
    exact (hapart h pairs hpayload).imp fun hab hequal => ⟨hab.ne, (hab.unequal hequal).2⟩
  · intro hm
    refine (hm.keysUnequal.2 h pairs hpayload).imp fun {a b} hab => ?_
    rw [Bool.eq_false_iff]
    exact fun hequal => (hab.unequal hequal).1

/-- Register 5 holds another string `"a"`, which is no key. -/
def otherContinued : Image := (keysDraft { op := .string, a := 5, b := 0 }).toImage

/-- The machine that is left behind when a string has been continued that is no key. -/
@[irreducible] def afterOtherContinuation : Machine :=
  (Run.image 12 otherContinued).leaves Boot.machine

/-- The string that has been continued is equal to the key `"ab"` now, and it is none. -/
theorem hash_keys_apart_afterOtherContinuation :
    afterOtherContinuation.Reachable ∧ afterOtherContinuation.SparinglyReachable ∧
    (afterOtherContinuation.object ⟨21⟩).hash? = some [(⟨18⟩, Handle.nil), (⟨20⟩, Handle.nil)] ∧
    afterOtherContinuation.heap.keysEqual ⟨19⟩ ⟨20⟩ = true ∧
    (afterOtherContinuation.heap.keysEqual ⟨18⟩ ⟨20⟩ = true →
      (⟨18⟩ : Handle) ≠ ⟨20⟩ ∧ (afterOtherContinuation.object ⟨18⟩).string?.isSome ∧
      (afterOtherContinuation.object ⟨20⟩).string?.isSome) ∧
    afterOtherContinuation.heap.keysEqual ⟨18⟩ ⟨20⟩ = false := by
  have hends : (Run.image 12 otherContinued).Ends Boot.machine ∧
      (Probe.spare.image 12 otherContinued).Ends Boot.machine := by
    have hok : (match Run.image 12 otherContinued Boot.machine,
          Probe.spare.image 12 otherContinued Boot.machine with
        | .ok _ _, .ok _ _ => true
        | _, _ => false) = true := by decide +kernel
    constructor
    · intro m' hm'
      rw [hm'] at hok
      exact Bool.false_ne_true hok
    · intro m' hm'
      rw [hm'] at hok
      split at hok <;> simp_all
  have hreachable : afterOtherContinuation.Reachable := by
    unfold afterOtherContinuation
    exact .executed (.boot {} {} {}) 12 _ hends.1
  have hsparingly : afterOtherContinuation.SparinglyReachable := by
    unfold afterOtherContinuation
    exact .executed (.boot {} {} {}) 12 _ hends.2
  obtain ⟨hpairs, hequal⟩ : (afterOtherContinuation.object ⟨21⟩).hash? =
        some [(⟨18⟩, Handle.nil), (⟨20⟩, Handle.nil)] ∧
      afterOtherContinuation.heap.keysEqual ⟨19⟩ ⟨20⟩ = true := by decide +kernel
  obtain ⟨hdistinct, hunequal⟩ := hash_keys_apart hpairs
  have hlater : (⟨20⟩ : Handle) ∈ [(⟨20⟩ : Handle)] := List.mem_singleton_self _
  exact ⟨hreachable, hsparingly, hpairs, hequal,
    (List.pairwise_cons.mp (hdistinct hreachable)).1 ⟨20⟩ hlater,
    (List.pairwise_cons.mp (hunequal hsparingly)).1 ⟨20⟩ hlater⟩

end Rite
