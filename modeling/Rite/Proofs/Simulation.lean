import Rite.Proofs.SinkLimit

/-!
# Two runs in step

Two machines are twins under a pairing when paired handles lead to paired objects, the limits and the
call depth are the same, and the sinks have taken in the same bytes since the two runs started.  A
program that is carried out on twins leaves twins behind: it allocates on both sides or on neither,
and a new object is paired with the new object of the other side, whatever their numbers are.

`Twins` says so of one pair of actions.  It is shown once for each effect (`Effect.twins`), carried
through everything that is alike (`Alike.twins`), and by induction on fuel through whole programs
(`twins_records`).  The left side may have less fuel, and nothing is said once it has run out of it;
run with equal fuel in both directions, neither side outlasts the other.

Records are compared by any relation that keeps the code, so the two programs need not be the same.
-/

namespace Rite

variable {α β : Type}

/-! ## Sinks that agree -/

namespace Sink

/-- How many bytes the sink will still accept; none is named if there is no limit. -/
def spare (sink : Sink) : Option Nat := sink.limit.map (· - sink.size)

theorem room_eq_min (sink : Sink) (n : Nat) : sink.room n = (sink.spare.map (min n)).getD n := by
  unfold room spare
  cases sink.limit <;> rfl

theorem room_le (sink : Sink) (n : Nat) : sink.room n ≤ n := by
  unfold room
  split
  · exact Nat.min_le_left _ _
  · exact Nat.le_refl n

theorem size_accept (sink : Sink) (text : String) :
    (sink.accept text).size = sink.size + sink.room text.utf8ByteSize := by
  have hsize : ∀ s : Sink, s.size = s.bytes.length := fun s => (Array.length_toList).symm
  have hroom := sink.room_le text.utf8ByteSize
  rw [hsize, bytes_accept, List.length_append, List.length_take, length_encode, ← hsize]
  omega

theorem spare_accept (sink : Sink) (text : String) :
    (sink.accept text).spare = sink.spare.map (· - sink.room text.utf8ByteSize) := by
  have hlimit : (sink.accept text).limit = sink.limit := rfl
  unfold spare
  rw [size_accept, hlimit]
  cases sink.limit with
  | none => rfl
  | some limit => simp only [Option.map_some, Nat.sub_sub]

/-- Two sinks that have taken in the same bytes, the one since it was `start` and the other since it
was `start'`, and that have room for equally many more. -/
structure Twin (start start' sink sink' : Sink) : Prop where
  written : ∃ added, sink.bytes = start.bytes ++ added ∧ sink'.bytes = start'.bytes ++ added
  spare : sink.spare = sink'.spare
  flush : sink.failsFlush = start.failsFlush
  flush' : sink'.failsFlush = start'.failsFlush

namespace Twin

variable {start start' sink sink' : Sink}

theorem refl (h : start.spare = start'.spare) : Twin start start' start start' :=
  ⟨⟨[], (List.append_nil _).symm, (List.append_nil _).symm⟩, h, rfl, rfl⟩

theorem room_eq (h : Twin start start' sink sink') (n : Nat) : sink.room n = sink'.room n := by
  rw [room_eq_min, room_eq_min, h.spare]

theorem fits_eq (h : Twin start start' sink sink') (text : String) :
    sink.fits text = sink'.fits text := by
  unfold fits
  rw [h.room_eq]

theorem accept (h : Twin start start' sink sink') (text : String) :
    Twin start start' (sink.accept text) (sink'.accept text) := by
  obtain ⟨added, hbytes, hbytes'⟩ := h.written
  refine ⟨⟨added ++ (Utf8.encode text).take (sink.room text.utf8ByteSize), ?_, ?_⟩, ?_,
    h.flush, h.flush'⟩
  · rw [bytes_accept, hbytes, List.append_assoc]
  · rw [bytes_accept, hbytes', List.append_assoc, h.room_eq]
  · rw [spare_accept, spare_accept, h.room_eq, h.spare]

end Twin

end Sink

/-! ## Paired objects under change -/

section Objects

variable {ρ : Record → Record → Prop} {K L : Pairing}

theorem rel_imp {R S : α → α → Prop} {x y : Option α} (h : Option.Rel R x y)
    (hRS : ∀ a ∈ x, ∀ b, R a b → S a b) : Option.Rel S x y := by
  cases h with
  | none => exact .none
  | @some a b hab => exact .some (hRS a rfl b hab)

/-- Only the handles that a payload holds matter for whether it is paired. -/
theorem Payload.Paired.imp {payload payload' : Payload} (h : Payload.Paired ρ K payload payload')
    (hKL : ∀ x ∈ payload.handles, ∀ x', K x x' → L x x') : Payload.Paired ρ L payload payload' := by
  cases h with
  | plain => exact .plain
  | integer value => exact .integer value
  | string text => exact .string text
  | symbol name => exact .symbol name
  | array hitems => exact .array (forall₂_imp_of_mem hitems hKL)
  | hash hpairs =>
    refine .hash (forall₂_imp_of_mem hpairs fun x hx y hxy => ⟨hKL _ ?_ _ hxy.1, hKL _ ?_ _ hxy.2⟩)
    · exact List.mem_append_left _ (List.mem_map_of_mem hx)
    · exact List.mem_append_right _ (List.mem_map_of_mem hx)
  | range exclusive hfirst hlast =>
    exact .range exclusive (hKL _ (.head _) _ hfirst) (hKL _ (.tail _ (.head _)) _ hlast)
  | ofClass hi =>
    refine .ofClass ⟨hi.name, rel_imp hi.superclass fun c hc => ?_, hi.methods, hi.isModule⟩
    exact hKL c (Option.mem_toList.mpr hc)
  | method hmethod => exact .method hmethod

/-- Only the handles that an object holds matter for whether it is paired. -/
theorem Object.Paired.imp {o o' : Object} (h : Object.Paired ρ K o o')
    (hKL : ∀ x ∈ o.handles, ∀ x', K x x' → L x x') : Object.Paired ρ L o o' := by
  simp only [Object.handles, List.mem_cons, List.mem_append, List.mem_map, Option.mem_toList] at hKL
  refine ⟨hKL _ (.inl rfl) _ h.isa, h.ivars.imp fun x hx => ?_, rel_imp h.singleton fun s hs => ?_,
    h.payload.imp fun x hx => ?_⟩
  · exact hKL _ (.inr (.inl (.inr ⟨x, hx, rfl⟩)))
  · exact hKL s (.inr (.inl (.inl hs)))
  · exact hKL x (.inr (.inr hx))

theorem Table.Paired.empty {R : α → α → Prop} : Table.Paired R {} {} := fun _ => .nil

namespace Object.Paired

variable {o o' : Object}

/-- Objects as they are made, with nothing but a class and a payload. -/
theorem fresh {c c' : Handle} (hc : K c c') {payload payload' : Payload}
    (h : Payload.Paired ρ K payload payload') :
    Object.Paired ρ K { isa := c, payload } { isa := c', payload := payload' } :=
  ⟨hc, .empty, .none, h⟩

theorem mono (hKL : K ≤ L) (h : Object.Paired ρ K o o') : Object.Paired ρ L o o' :=
  h.imp fun _ _ _ hx => hKL _ _ hx

theorem setIvar (h : Object.Paired ρ K o o') (name : String) {value value' : Handle}
    (hvalue : K value value') :
    Object.Paired ρ K (o.setIvar name value) (o'.setIvar name value') :=
  ⟨h.isa, h.ivars.insert hvalue name, h.singleton, h.payload⟩

theorem adopt (h : Object.Paired ρ K o o') {s s' : Handle} (hs : K s s') :
    Object.Paired ρ K { o with singleton := some s } { o' with singleton := some s' } :=
  ⟨h.isa, h.ivars, .some hs, h.payload⟩

/-- A change to the items that keeps paired rows paired. -/
theorem mapItems (h : Object.Paired ρ K o o') {f f' : Array Handle → Array Handle}
    (hf : ∀ items items', PairedRow K items.toList items'.toList →
      PairedRow K (f items).toList (f' items').toList) :
    Object.Paired ρ K (o.mapItems f) (o'.mapItems f') := by
  obtain ⟨isa, ivars, singleton, payload⟩ := o
  obtain ⟨isa', ivars', singleton', payload'⟩ := o'
  cases h.payload with
  | array hitems => exact ⟨h.isa, h.ivars, h.singleton, .array (hf _ _ hitems)⟩
  | _ => exact h

theorem mapPairs (h : Object.Paired ρ K o o') {pairs pairs' : List (Handle × Handle)}
    (hpairs : List.Forall₂ (PairedPair K) pairs pairs') :
    Object.Paired ρ K (o.mapPairs fun _ => pairs) (o'.mapPairs fun _ => pairs') := by
  obtain ⟨isa, ivars, singleton, payload⟩ := o
  obtain ⟨isa', ivars', singleton', payload'⟩ := o'
  cases h.payload with
  | hash _ => exact ⟨h.isa, h.ivars, h.singleton, .hash hpairs⟩
  | _ => exact h

theorem mapText (h : Object.Paired ρ K o o') (f : String → String) :
    Object.Paired ρ K (o.mapText f) (o'.mapText f) := by
  obtain ⟨isa, ivars, singleton, payload⟩ := o
  obtain ⟨isa', ivars', singleton', payload'⟩ := o'
  cases h.payload with
  | string text => exact ⟨h.isa, h.ivars, h.singleton, .string (f text)⟩
  | _ => exact h

theorem mapMethods (h : Object.Paired ρ K o o') {f f' : Table Method → Table Method}
    (hf : ∀ t t', Table.Paired (Method.Paired ρ) t t' → Table.Paired (Method.Paired ρ) (f t) (f' t')) :
    Object.Paired ρ K (o.mapMethods f) (o'.mapMethods f') := by
  obtain ⟨isa, ivars, singleton, payload⟩ := o
  obtain ⟨isa', ivars', singleton', payload'⟩ := o'
  cases h.payload with
  | ofClass hi =>
    exact ⟨h.isa, h.ivars, h.singleton,
      .ofClass ⟨hi.name, hi.superclass, hf _ _ hi.methods, hi.isModule⟩⟩
  | _ => exact h

end Object.Paired

theorem PairedRow.append {row row' tail tail' : List Handle} (h : PairedRow K row row')
    (htail : PairedRow K tail tail') : PairedRow K (row ++ tail) (row' ++ tail') :=
  List.rel_append h htail

theorem PairedRow.set {row row' : List Handle} {value value' : Handle} (h : PairedRow K row row')
    (place : Nat) (hvalue : K value value') :
    PairedRow K (row.set place value) (row'.set place value') := by
  induction h generalizing place with
  | nil => exact .nil
  | cons hxy hrest ih =>
    cases place with
    | zero => exact .cons hvalue hrest
    | succ place => exact .cons hxy (ih place)

theorem PairedRow.put {items items' : Array Handle} {value value' : Handle}
    (h : PairedRow K items.toList items'.toList) (place : Nat) (hvalue : K value value') :
    PairedRow K (Items.put items place value).toList (Items.put items' place value').toList := by
  have hsize : items.size = items'.size := List.Forall₂.length_eq h
  unfold Items.put
  rw [hsize]
  split
  · rw [Array.toList_setIfInBounds, Array.toList_setIfInBounds]
    exact h.set place hvalue
  · rw [Array.toList_push, Array.toList_push, Array.toList_append, Array.toList_append]
    refine .append (.append h (List.forall₂_same.mpr fun x hx => ?_)) (.cons hvalue .nil)
    simp only [Array.toList_replicate, List.mem_replicate] at hx
    rw [hx.2]
    exact K.nil

end Objects

/-! ## Twin machines -/

/-- The pairing in which two new handles stand for each other. -/
def Pairing.extend (K : Pairing) (h h' : Handle) (hnew : ∀ {x x'}, K x x' → x ≠ h ∧ x' ≠ h') :
    Pairing where
  rel x x' := K x x' ∨ (x = h ∧ x' = h')
  builtin x hx := .inl (K.builtin x hx)
  unique := by
    rintro a a' b b' (ha | ⟨rfl, rfl⟩) (hb | ⟨rfl, rfl⟩)
    · exact K.unique ha hb
    · exact iff_of_false (hnew ha).1 (hnew ha).2
    · exact iff_of_false (hnew hb).1.symm (hnew hb).2.symm
    · exact iff_of_true rfl rfl

section Simulation

variable (ρ : Record → Record → Prop) (start start' : Machine)

/-- Two machines on which programs go in step, in runs that began at `start` and at `start'`. -/
structure Machine.Twin (K : Pairing) (m m' : Machine) : Prop extends Machine.Paired ρ K m m' where
  valid : ∀ {h h'}, K h h' → m.Valid h ∧ m'.Valid h'
  limits : m.limits = m'.limits
  depth : m.depth = m'.depth
  out : Sink.Twin start.out start'.out m.out m'.out
  err : Sink.Twin start.err start'.err m.err m'.err

/-- How two runs in step end: with the same halt or with values that `V` relates, on twins under a
pairing that may have grown.  Nothing is said if the left side is out of fuel. -/
inductive Twinned (K : Pairing) (V : Pairing → α → α → Prop) :
    EStateM.Result Halt Machine α → EStateM.Result Halt Machine α → Prop
  | ok {L : Pairing} {x x' : α} {m m' : Machine} (hL : K ≤ L)
      (hm : Machine.Twin ρ start start' L m m') (hx : V L x x') : Twinned K V (.ok x m) (.ok x' m')
  | error {L : Pairing} {halt : Halt} {m m' : Machine} (hL : K ≤ L)
      (hm : Machine.Twin ρ start start' L m m') : Twinned K V (.error halt m) (.error halt m')
  | exhausted (m : Machine) (r : EStateM.Result Halt Machine α) :
      Twinned K V (.error .exhausted m) r

/-- Two actions that end in step on all twins. -/
def Twins (K : Pairing) (V : Pairing → α → α → Prop) (a a' : Action α) : Prop :=
  ∀ m m', Machine.Twin ρ start start' K m m' → Twinned ρ start start' K V (a m) (a' m')

variable {ρ start start'} {K L : Pairing} {m m' : Machine}

namespace Machine.Twin

theorem fresh (t : Machine.Twin ρ start start' K m m') {x x' : Handle} (hx : K x x') :
    x ≠ m.heap.next ∧ x' ≠ m'.heap.next := by
  obtain ⟨hvalid, hvalid'⟩ := t.valid hx
  constructor
  · rintro rfl
    exact Nat.lt_irrefl _ hvalid
  · rintro rfl
    exact Nat.lt_irrefl _ hvalid'

/-- New objects on both sides are paired with each other. -/
theorem push (t : Machine.Twin ρ start start' K m m') {o o' : Object}
    (ho : Object.Paired ρ K o o') :
    Machine.Twin ρ start start' (K.extend m.heap.next m'.heap.next t.fresh)
      { m with heap := m.heap.push o } { m' with heap := m'.heap.push o' } := by
  have hgrow : K ≤ K.extend m.heap.next m'.heap.next t.fresh := fun _ _ hx => .inl hx
  have hobject {x x' : Handle} (hx : K.extend m.heap.next m'.heap.next t.fresh x x') :
      Object.Paired ρ K ((m.heap.push o).get x) ((m'.heap.push o').get x') := by
    rw [Heap.get_push, Heap.get_push]
    rcases hx with hx | ⟨rfl, rfl⟩
    · obtain ⟨hvalid, hvalid'⟩ := t.valid hx
      rw [if_neg (Nat.ne_of_lt hvalid), if_neg (Nat.ne_of_lt hvalid')]
      exact t.object hx
    · show Object.Paired ρ K (if m.heap.size = m.heap.size then o else _)
        (if m'.heap.size = m'.heap.size then o' else _)
      rw [if_pos rfl, if_pos rfl]
      exact ho
  refine ⟨⟨fun hx => (hobject hx).mono hgrow, t.globals.imp fun _ _ _ hx => .inl hx,
    t.constants.imp fun _ _ _ hx => .inl hx, t.inspecting.imp hgrow, t.maxClassDepth⟩, ?_, t.limits,
    t.depth, t.out, t.err⟩
  rintro x x' (hx | ⟨rfl, rfl⟩)
  · obtain ⟨hvalid, hvalid'⟩ := t.valid hx
    exact ⟨(Nat.lt_succ_of_lt hvalid).trans_eq (m.heap.size_push o).symm,
      (Nat.lt_succ_of_lt hvalid').trans_eq (m'.heap.size_push o').symm⟩
  · exact ⟨m.heap.next_lt_size_push o, m'.heap.next_lt_size_push o'⟩

/-- The same change to two paired objects. -/
theorem modify (t : Machine.Twin ρ start start' K m m') {h h' : Handle} (hh : K h h')
    {f f' : Object → Object}
    (hf : Object.Paired ρ K (m.object h) (m'.object h') →
      Object.Paired ρ K (f (m.object h)) (f' (m'.object h'))) :
    Machine.Twin ρ start start' K { m with heap := m.heap.modify h f }
      { m' with heap := m'.heap.modify h' f' } := by
  obtain ⟨hvalid, hvalid'⟩ := t.valid hh
  refine ⟨⟨fun {x x'} hx => ?_, t.globals, t.constants, t.inspecting, t.maxClassDepth⟩,
    fun hx => ?_, t.limits, t.depth, t.out, t.err⟩
  · show Object.Paired ρ K ((m.heap.modify h f).get x) ((m'.heap.modify h' f').get x')
    rw [Heap.get_modify, Heap.get_modify]
    by_cases hxh : x = h
    · have hxh' : x' = h' := (K.unique hx hh).mp hxh
      rw [if_pos ⟨hxh, hvalid⟩, if_pos ⟨hxh', hvalid'⟩]
      exact hf (t.object hh)
    · have hxh' : x' ≠ h' := fun heq => hxh ((K.unique hx hh).mpr heq)
      rw [if_neg fun hand => hxh hand.1, if_neg fun hand => hxh' hand.1]
      exact t.object hx
  · obtain ⟨hx, hx'⟩ := t.valid hx
    exact ⟨hx.trans_eq (m.heap.size_modify h f).symm, hx'.trans_eq (m'.heap.size_modify h' f').symm⟩

theorem setDepth (t : Machine.Twin ρ start start' K m m') {d d' : Nat} (hd : d = d') :
    Machine.Twin ρ start start' K { m with depth := d } { m' with depth := d' } :=
  ⟨⟨t.object, t.globals, t.constants, t.inspecting, t.maxClassDepth⟩, t.valid, t.limits, hd, t.out,
    t.err⟩

theorem setInspecting (t : Machine.Twin ρ start start' K m m') {row row' : List Handle}
    (hrow : PairedRow K row row') :
    Machine.Twin ρ start start' K { m with inspecting := row } { m' with inspecting := row' } :=
  ⟨⟨t.object, t.globals, t.constants, hrow, t.maxClassDepth⟩, t.valid, t.limits, t.depth, t.out,
    t.err⟩

theorem setGlobals (t : Machine.Twin ρ start start' K m m') {table table' : Table Handle}
    (htable : Table.Paired K.rel table table') :
    Machine.Twin ρ start start' K { m with globals := table } { m' with globals := table' } :=
  ⟨⟨t.object, htable, t.constants, t.inspecting, t.maxClassDepth⟩, t.valid, t.limits, t.depth, t.out,
    t.err⟩

theorem setConstants (t : Machine.Twin ρ start start' K m m') {table table' : Table Handle}
    (htable : Table.Paired K.rel table table') :
    Machine.Twin ρ start start' K { m with constants := table } { m' with constants := table' } :=
  ⟨⟨t.object, t.globals, htable, t.inspecting, t.maxClassDepth⟩, t.valid, t.limits, t.depth, t.out,
    t.err⟩

/-- A well-formed machine is its own twin, each object standing for itself. -/
theorem refl (hρ : ∀ r, ρ r r) (hm : m.WellFormed) : Machine.Twin ρ m m hm.pairing m m :=
  ⟨hm.paired hρ, fun hx => ⟨hx.2, hx.1 ▸ hx.2⟩, rfl, rfl, .refl rfl, .refl rfl⟩

end Machine.Twin

/-- A mark is taken away at the same place on both sides. -/
theorem PairedRow.erase {row row' : List Handle} {h h' : Handle} (hrow : PairedRow K row row')
    (hh : K h h') : PairedRow K (row.erase h) (row'.erase h') := by
  induction hrow with
  | nil => exact .nil
  | @cons x y _ _ hxy hrest ih =>
    rw [List.erase_cons, List.erase_cons]
    simp only [beq_iff_eq, K.unique hxy hh]
    split
    · exact hrest
    · exact .cons hxy ih

/-! ## Actions in step -/

theorem Twinned.mono {V : Pairing → α → α → Prop} {r r' : EStateM.Result Halt Machine α}
    (hKL : K ≤ L) (h : Twinned ρ start start' L V r r') : Twinned ρ start start' K V r r' := by
  cases h with
  | ok hL hm hx => exact .ok (hKL.trans hL) hm hx
  | error hL hm => exact .error (hKL.trans hL) hm
  | exhausted m => exact .exhausted m r'

namespace Twins

variable {V : Pairing → α → α → Prop} {W : Pairing → β → β → Prop}

theorem pure {x x' : α} (hx : V K x x') : Twins ρ start start' K V (Pure.pure x) (Pure.pure x') :=
  fun _ _ t => .ok le_rfl t hx

theorem fail (f : Fault) : Twins ρ start start' K V (Action.fail f) (Action.fail f) :=
  fun _ _ t => .error le_rfl t

theorem overrun (request : Overlong) :
    Twins ρ start start' K V (Action.overrun request) (Action.overrun request) :=
  fun _ _ t => .error le_rfl t

theorem exhausted (a : Action α) : Twins ρ start start' K V Action.exhausted a :=
  fun m m' _ => .exhausted m (a m')

theorem bind {a a' : Action α} {f f' : α → Action β} (ha : Twins ρ start start' K V a a')
    (hf : ∀ L x x', K ≤ L → V L x x' → Twins ρ start start' L W (f x) (f' x')) :
    Twins ρ start start' K W (a >>= f) (a' >>= f') := by
  intro m m' t
  change Twinned ρ start start' K W (EStateM.bind a f m) (EStateM.bind a' f' m')
  unfold EStateM.bind
  have hr := ha m m' t
  generalize a m = r, a' m' = r' at hr
  cases hr with
  | ok hL hm hx => exact (hf _ _ _ hL hx _ _ hm).mono hL
  | error hL hm => exact .error hL hm
  | exhausted m => exact .exhausted m _

/-- A question that paired machines answer alike. -/
theorem demand {Q : α → α → Prop} {q q' : Machine → Except Fault α} {f f' : α → Action β}
    (hq : ∀ m m', Machine.Paired ρ K m m' → PairedOutcome Q (q m) (q' m'))
    (hf : ∀ x x', Q x x' → Twins ρ start start' K W (f x) (f' x')) :
    Twins ρ start start' K W (Action.demand q >>= f) (Action.demand q' >>= f') := by
  intro m m' t
  obtain ⟨fault, hx, hx'⟩ | ⟨x, x', hx, hx', hQ⟩ := (hq m m' t.toPaired).elim
  · rw [Action.demand_bind_of_error hx, Action.demand_bind_of_error hx']
    exact .error le_rfl t
  · rw [Action.demand_bind_of_ok hx, Action.demand_bind_of_ok hx']
    exact hf x x' hQ m m' t

theorem ask {Q : α → α → Prop} {q q' : Machine → α} {f f' : α → Action β}
    (hq : ∀ m m', Machine.Paired ρ K m m' → Q (q m) (q' m'))
    (hf : ∀ x x', Q x x' → Twins ρ start start' K W (f x) (f' x')) :
    Twins ρ start start' K W (Action.ask q >>= f) (Action.ask q' >>= f') :=
  fun m m' t => hf _ _ (hq m m' t.toPaired) m m' t

/-- A question whose answers are equal. -/
theorem askData {q q' : Machine → α} {f f' : α → Action β}
    (hq : ∀ m m', Machine.Paired ρ K m m' → q m = q' m')
    (hf : ∀ x, Twins ρ start start' K W (f x) (f' x)) :
    Twins ρ start start' K W (Action.ask q >>= f) (Action.ask q' >>= f') := by
  refine .ask (Q := Eq) hq fun x x' hx => ?_
  rw [← hx]
  exact hf x

/-- A fault that is found out from the machine. -/
theorem failAsked {q q' : Machine → Fault}
    (hq : ∀ m m', Machine.Paired ρ K m m' → q m = q' m') :
    Twins ρ start start' K W (Action.ask q >>= Action.fail) (Action.ask q' >>= Action.fail) :=
  .askData hq fun f => .fail f

theorem allocate {o o' : Object} (ho : Object.Paired ρ K o o') :
    Twins ρ start start' K Pairing.rel (Action.allocate o) (Action.allocate o') := by
  intro m m' t
  have hgrow : K ≤ K.extend m.heap.next m'.heap.next t.fresh := fun _ _ hx => .inl hx
  exact .ok hgrow (t.push ho) (.inr ⟨rfl, rfl⟩)

theorem changeObject {h h' : Handle} (hh : K h h') {f f' : Object → Object}
    (hf : ∀ o o', Object.Paired ρ K o o' → Object.Paired ρ K (f o) (f' o')) :
    Twins ρ start start' K Equal (Action.changeObject h f) (Action.changeObject h' f') :=
  fun _ _ t => .ok le_rfl (t.modify hh (hf _ _)) rfl

/-- The depth goes up by one and down again on both sides. -/
theorem nested {a a' : Action α} (ha : Twins ρ start start' K V a a') :
    Twins ρ start start' K V (Action.nested a) (Action.nested a') := by
  intro m m' t
  unfold Action.nested
  by_cases hfull : m.limits.maxCallDepth ≤ m.depth
  · have hfull' : m'.limits.maxCallDepth ≤ m'.depth := by rwa [← t.limits, ← t.depth]
    rw [if_pos hfull, if_pos hfull']
    exact .error le_rfl t
  · have hfull' : ¬ m'.limits.maxCallDepth ≤ m'.depth := by rwa [← t.limits, ← t.depth]
    rw [if_neg hfull, if_neg hfull']
    have hr := ha { m with depth := m.depth + 1 } { m' with depth := m'.depth + 1 }
      (t.setDepth (congrArg (· + 1) t.depth))
    generalize a _ = r, a' _ = r' at hr
    cases hr with
    | ok hL hm hx => exact .ok hL (hm.setDepth (congrArg (· - 1) hm.depth)) hx
    | error hL hm => exact .error hL (hm.setDepth (congrArg (· - 1) hm.depth))
    | exhausted n => exact .exhausted _ _

theorem inspecting {a a' : Action α} {h h' : Handle} (hh : K h h')
    (ha : Twins ρ start start' K V a a') :
    Twins ρ start start' K V (Action.inspecting h a) (Action.inspecting h' a') := by
  intro m m' t
  unfold Action.inspecting
  have hr := ha _ _ (t.setInspecting (.cons hh t.inspecting))
  generalize a _ = r, a' _ = r' at hr
  cases hr with
  | ok hL hm hx =>
    exact .ok hL (hm.setInspecting (PairedRow.erase hm.inspecting (hL _ _ hh))) hx
  | error hL hm =>
    exact .error hL (hm.setInspecting (PairedRow.erase hm.inspecting (hL _ _ hh)))
  | exhausted n => exact .exhausted _ _

/-! ### Classes and modules -/

theorem newClass (name : String) {parent parent' : Handle} (hparent : K parent parent') :
    Twins ρ start start' K Pairing.rel (Action.newClass name parent)
      (Action.newClass name parent') :=
  .allocate (.fresh (K.builtin _ (by decide)) (.ofClass ⟨rfl, .some hparent, .empty, rfl⟩))

theorem newModule (name : String) :
    Twins ρ start start' K Pairing.rel (Action.newModule name) (Action.newModule name) :=
  .allocate (.fresh (K.builtin _ (by decide)) (.ofClass ⟨rfl, .none, .empty, rfl⟩))

theorem setConstant (name : String) {value value' : Handle} (hvalue : K value value') :
    Twins ρ start start' K Equal (Action.setConstant name value) (Action.setConstant name value') :=
  fun _ _ t => .ok le_rfl (t.setConstants (t.constants.insert hvalue name)) rfl

theorem instantiate {c c' : Handle} (hc : K c c') :
    Twins ρ start start' K Pairing.rel (Classes.instantiate c) (Classes.instantiate c') := by
  refine .askData (fun _ _ p => p.isProperClass_eq hc) fun proper => ?_
  split
  · refine .demand (fun _ _ p => p.freshPayload hc) fun payload payload' hpayload => ?_
    exact .allocate (.fresh hc hpayload)
  · exact .failAsked fun _ _ p => p.missing_eq hc "new"

theorem singletonClassOf {h h' : Handle} (hh : K h h') :
    Twins ρ start start' K Pairing.rel (Action.singletonClassOf h) (Action.singletonClassOf h') := by
  refine .ask (fun _ _ p => (p.object hh).singleton) fun s s' hs => ?_
  cases hs with
  | some hs => exact .pure hs
  | none =>
    refine .askData (fun _ _ p => p.singletonName_eq hh) fun name => ?_
    refine .bind (.newClass name (K.builtin _ (by decide))) fun L s s' hL hs => ?_
    refine .bind (.changeObject (hL _ _ hh) fun o o' ho => ho.adopt hs) fun M _ _ hM _ => ?_
    exact .pure (hM _ _ hs)

/-- Whether a superclass is the one asked for is the same question on both sides. -/
theorem superclass_eq_iff {a a' b b' : Option Handle} (ha : Option.Rel K.rel a a')
    (hb : Option.Rel K.rel b b') : a = b ↔ a' = b' := by
  cases ha with
  | none => cases hb <;> simp
  | some ha =>
    cases hb with
    | none => simp
    | some hb => simp only [Option.some.injEq, K.unique ha hb]

theorem openClass (name : String) {parent parent' : Option Handle}
    (hparent : Option.Rel K.rel parent parent') :
    Twins ρ start start' K Pairing.rel (Action.openClass name parent)
      (Action.openClass name parent') := by
  have hasked : parent.isSome = parent'.isSome := by
    cases hparent <;> rfl
  refine .ask (fun _ _ p => p.constant? name) fun existing existing' hexisting => ?_
  cases hexisting with
  | some hexisting =>
    refine .ask (fun _ _ p => p.classInfo? hexisting) fun info info' hinfo => ?_
    cases hinfo with
    | none => exact .failAsked fun _ _ p => p.mismatch_eq hexisting "Class"
    | some hinfo =>
      simp only [hinfo.isModule, hasked, ne_eq, superclass_eq_iff hparent hinfo.superclass]
      split
      · exact .failAsked fun _ _ p => p.mismatch_eq hexisting "Class"
      · split
        · exact .fail _
        · exact .pure hexisting
  | none =>
    have hroot : K (parent.getD Handle.objectClass) (parent'.getD Handle.objectClass) := by
      cases hparent with
      | some hparent => exact hparent
      | none => exact K.builtin _ (by decide)
    refine .askData (fun _ _ p => p.isProperClass_eq hroot) fun proper => ?_
    split
    · refine .bind (.newClass name hroot) fun L c c' _ hc => ?_
      exact .bind (.setConstant name hc) fun M _ _ hM _ => .pure (hM _ _ hc)
    · exact .failAsked fun _ _ p => p.mismatch_eq hroot "Class"

theorem openModule (name : String) :
    Twins ρ start start' K Pairing.rel (Action.openModule name) (Action.openModule name) := by
  refine .ask (fun _ _ p => p.constant? name) fun existing existing' hexisting => ?_
  cases hexisting with
  | some hexisting =>
    refine .ask (fun _ _ p => p.classInfo? hexisting) fun info info' hinfo => ?_
    cases hinfo with
    | none => exact .failAsked fun _ _ p => p.mismatch_eq hexisting "Module"
    | some hinfo =>
      simp only [hinfo.isModule]
      split
      · exact .pure hexisting
      · exact .failAsked fun _ _ p => p.mismatch_eq hexisting "Module"
  | none =>
    refine .bind (.newModule name) fun L c c' _ hc => ?_
    exact .bind (.setConstant name hc) fun M _ _ hM _ => .pure (hM _ _ hc)

theorem defineMethod {c c' : Handle} (hc : K c c') (name : String) {method method' : Method}
    (hmethod : Method.Paired ρ method method') :
    Twins ρ start start' K Equal (Action.defineMethod c name method)
      (Action.defineMethod c' name method') := by
  refine .askData (fun _ _ p => p.isClass_eq hc) fun isClass => ?_
  split
  · exact .changeObject hc fun _ _ ho => ho.mapMethods fun _ _ ht => ht.insert hmethod name
  · exact .failAsked fun _ _ p => p.mismatch_eq hc "Class"

theorem undefMethod {c c' : Handle} (hc : K c c') (name : String) :
    Twins ρ start start' K Equal (Action.undefMethod c name) (Action.undefMethod c' name) := by
  refine .askData (fun _ _ p => p.ownsMethod_eq hc name) fun owned => ?_
  split
  · exact .changeObject hc fun _ _ ho => ho.mapMethods fun _ _ ht => ht.erase name
  · exact .failAsked fun _ _ p => p.missing_eq hc name

/-! ### Hashes and output -/

theorem hashSet {h h' key key' value value' : Handle} (hh : K h h') (hkey : K key key')
    (hvalue : K value value') :
    Twins ρ start start' K Equal (Action.hashSet h key value) (Action.hashSet h' key' value') := by
  intro m m' t
  unfold Action.hashSet Action.changeHeap Heap.hashSet
  dsimp only
  have hpairs : Option.Rel _ (m.heap.get h).hash? (m'.heap.get h').hash? := (t.object hh).hash?
  obtain ⟨hx, hy⟩ | ⟨pairs, pairs', hx, hy, hi⟩ := rel_cases hpairs <;> rw [hx, hy]
  · exact .ok le_rfl t rfl
  · refine .ok le_rfl (t.modify hh fun ho => ho.mapPairs ?_) rfl
    exact t.toPaired.insertPair hkey hvalue hi

theorem writeOut (text : String) :
    Twins ρ start start' K Equal (Action.writeOut text) (Action.writeOut text) := by
  intro m m' t
  have hwritten : Machine.Twin ρ start start' K { m with out := m.out.accept text }
      { m' with out := m'.out.accept text } :=
    ⟨⟨t.object, t.globals, t.constants, t.inspecting, t.maxClassDepth⟩, t.valid, t.limits, t.depth,
      t.out.accept text, t.err⟩
  unfold Action.writeOut
  rw [t.out.fits_eq]
  dsimp only
  split
  · exact .ok le_rfl hwritten rfl
  · exact .error le_rfl hwritten

theorem writeErr (text : String) :
    Twins ρ start start' K Equal (Action.writeErr text) (Action.writeErr text) := by
  intro m m' t
  have hwritten : Machine.Twin ρ start start' K { m with err := m.err.accept text }
      { m' with err := m'.err.accept text } :=
    ⟨⟨t.object, t.globals, t.constants, t.inspecting, t.maxClassDepth⟩, t.valid, t.limits, t.depth,
      t.out, t.err.accept text⟩
  unfold Action.writeErr
  rw [t.err.fits_eq]
  dsimp only
  split
  · exact .ok le_rfl hwritten rfl
  · exact .error le_rfl hwritten

/-- Whether the sinks can be flushed does not change on the way. -/
theorem flush (hout : start.out.failsFlush = start'.out.failsFlush)
    (herr : start.err.failsFlush = start'.err.failsFlush) :
    Twins ρ start start' K Equal Action.flush Action.flush := by
  intro m m' t
  unfold Action.flush
  rw [t.out.flush, t.out.flush', t.err.flush, t.err.flush', hout, herr]
  split
  · exact .error le_rfl t
  · exact .ok le_rfl t rfl

end Twins

/-- **Every effect keeps twins.** -/
theorem Effect.twins {π : Permit} {V : Pairing → α → α → Prop} {a a' : Action α}
    (h : Effect ρ π K a a' V) : Twins ρ start start' K V a a' := by
  cases h with
  | allocate hc _ h _ =>
    have hindex := Payload.index_lt_of_builtinClass? hc
    exact .allocate (.fresh (K.builtin _ (by omega)) h)
  | instantiate hc => exact .instantiate hc
  | singletonClassOf hh => exact .singletonClassOf hh
  | openClass name h => exact .openClass name h
  | openModule name => exact .openModule name
  | defineMethod hc name h _ => exact .defineMethod hc name h
  | undefMethod hc name => exact .undefMethod hc name
  | setIvar hh name hvalue => exact .changeObject hh fun _ _ ho => ho.setIvar name hvalue
  | setGlobal name hvalue =>
    exact fun _ _ t => .ok le_rfl (t.setGlobals (t.globals.insert hvalue name)) rfl
  | setConstant name hvalue => exact .setConstant name hvalue
  | appendItems hh hitems =>
    refine .changeObject hh fun _ _ ho => ho.mapItems fun items items' hrow => ?_
    simp only [Array.toList_appendList]
    exact hrow.append hitems
  | putItem hh place hvalue =>
    exact .changeObject hh fun _ _ ho => ho.mapItems fun _ _ hrow => hrow.put place hvalue
  | appendText hh text _ => exact .changeObject hh fun _ _ ho => ho.mapText (· ++ text)
  | hashSet hh hkey hvalue => exact .hashSet hh hkey hvalue
  | writeOut text => exact .writeOut text
  | writeErr text => exact .writeErr text

/-! ## Programs in step -/

variable (ρ start start') in
/-- Two engines whose calls and evaluations go in step. -/
structure TwinEngine (e e' : Engine) : Prop where
  fuel : e.fuel ≤ e'.fuel
  call : ∀ {K receiver receiver' found found' args args'} (name : String),
    K.rel receiver receiver' → Found.Paired ρ K found found' → PairedRow K args args' →
    Twins ρ start start' K Pairing.rel (e.call receiver found name args)
      (e'.call receiver' found' name args')
  evaluate : ∀ {K record record' context context' args args'}, ρ record record' →
    Context.Paired K context context' → PairedRow K args args' →
    Twins ρ start start' K Pairing.rel (e.evaluate record context args)
      (e'.evaluate record' context' args')

/-- **What is alike goes in step.**  The induction is on how the two actions are built; at a call and
at an evaluation it rests on the engines. -/
theorem Alike.twins {π : Permit} {e e' : Engine} (he : TwinEngine ρ start start' e e')
    {V : Pairing → α → α → Prop} {a a' : Action α} (h : Alike ρ π e e' K a a' V) :
    Twins ρ start start' K V a a' := by
  induction h with
  | pure hx => exact .pure hx
  | bind _ _ iha ihf => exact .bind iha ihf
  | question hq _ _ ih => exact .demand hq ih
  | fail f => exact .fail f
  | overrun request => exact .overrun request
  | exhausted _ a' => exact .exhausted a'
  | effect heffect => exact heffect.twins
  | inspecting hh _ ih => exact .inspecting hh ih
  | call name hreceiver hfound hargs => exact he.call name hreceiver hfound hargs
  | evaluate hrecord hcontext hargs => exact he.evaluate hrecord hcontext hargs

variable {fuel fuel' : Nat}

/-- Engines go in step, the one on the left having no more fuel than the other. -/
theorem twinEngine (hρ : SameCode ρ) (hfuel : fuel ≤ fuel') :
    TwinEngine ρ start start' (Run.engine fuel) (Run.engine fuel') := by
  induction fuel generalizing fuel' with
  | zero =>
    refine ⟨hfuel, fun _ _ _ _ => ?_, fun _ _ _ => ?_⟩
    · simp only [Run.engine, Run.call]
      exact .exhausted _
    · simp only [Run.engine, Run.evaluate]
      exact .exhausted _
  | succ fuel ih =>
    obtain ⟨fuel', rfl⟩ : ∃ n, fuel' = n + 1 := ⟨fuel' - 1, by omega⟩
    have he := ih (Nat.le_of_succ_le_succ hfuel)
    refine ⟨hfuel, fun name hreceiver hfound hargs => ?_, fun hrecord hcontext hargs => ?_⟩
    · have hbody := Found.alike_body (π := .full) trivial (fun _ => trivial) he.fuel name hfound hreceiver hargs
      simp only [Run.engine, Run.call, Found.call]
      exact (hbody.twins he).nested
    · have hbody := Frame.alike_evaluate .full trivial hρ he.fuel hrecord hcontext hargs
      simp only [Run.engine, Run.evaluate]
      exact hbody.twins he

theorem twins_record (hρ : SameCode ρ) (hfuel : fuel ≤ fuel') {r r' : Record} (hr : ρ r r') :
    Twins ρ start start' K Pairing.rel (Run.record fuel r) (Run.record fuel' r') :=
  (twinEngine hρ hfuel).evaluate hr
    ⟨K.builtin _ (by decide), K.builtin _ (by decide), .none⟩ .nil

theorem twins_records (hρ : SameCode ρ) (hfuel : fuel ≤ fuel') {last last' : Handle}
    (hlast : K last last') {rs rs' : List Record} (hrs : List.Forall₂ ρ rs rs') :
    Twins ρ start start' K Pairing.rel (Run.records fuel last rs) (Run.records fuel' last' rs') := by
  induction hrs generalizing K last last' with
  | nil => exact .pure hlast
  | cons hr _ ih => exact .bind (twins_record hρ hfuel hr) fun L _ _ _ hvalue => ih hvalue

/-- **Images with the same code go in step on twins.** -/
theorem twins_image (hρ : SameCode ρ) (hfuel : fuel ≤ fuel') {i i' : Image}
    (hi : List.Forall₂ ρ i.records i'.records) :
    Twins ρ start start' K Pairing.rel (Run.image fuel i) (Run.image fuel' i') :=
  twins_records hρ hfuel K.nil hi

end Simulation

end Rite
