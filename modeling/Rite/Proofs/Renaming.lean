import Rite.Proofs.Simulation
import Rite.Proofs.Visited

/-!
# Handle numbers do not matter

What a program does depends on the objects that can be reached and not on their numbers.  A `Renaming`
is a bijection between the handles that can be reached in two machines, from the builtin objects,
globals and constants, under which all objects and bindings correspond; either heap may hold other
objects besides.

Two machines at rest that are renamings of each other are twins, so an image goes in step on them.  In
the end the pairing holds handles that are not reachable any more; confined to those that are, it is a
renaming again.  That a confined pairing misses nothing on either side is `Reaches.partner`, by
induction on how a handle is reached, used once as it stands and once the other way round.
-/

namespace Rite

variable {α : Type}

/-! ## Reachable handles -/

/-- The handles that can be reached in a machine: the builtin objects, the handles that are held from
outside, the values of globals and constants, and what reachable objects hold. -/
inductive Machine.Reaches (m : Machine) (held : List Handle) : Handle → Prop
  | builtin {h : Handle} (hh : h.index < 17) : Reaches m held h
  | held {h : Handle} (hh : h ∈ held) : Reaches m held h
  | global {x : String × Handle} (hx : x ∈ m.globals.entries) : Reaches m held x.2
  | constant {x : String × Handle} (hx : x ∈ m.constants.entries) : Reaches m held x.2
  | object {h x : Handle} (hh : Reaches m held h) (hx : x ∈ (m.object h).handles) : Reaches m held x

/-- Two machines that differ in the numbers of their reachable objects only.  The pairing is a
bijection between the handles that are reachable on either side, with the `held` handles in hand; it
keeps the builtin objects, and objects, bindings and limits correspond under it. -/
structure Machine.Renaming (held held' : List Handle) (K : Pairing) (m m' : Machine) : Prop where
  left : ∀ h, (∃ h', K h h') ↔ m.Reaches held h
  right : ∀ h', (∃ h, K h h') ↔ m'.Reaches held' h'
  object : ∀ {h h'}, K h h' → Object.Paired Eq K (m.object h) (m'.object h')
  globals : Table.Paired K.rel m.globals m'.globals
  constants : Table.Paired K.rel m.constants m'.constants
  limits : m.limits = m'.limits

namespace Machine.Reaches

variable {m : Machine} {held : List Handle} {h : Handle}

theorem mono {more : List Handle} (hsub : held ⊆ more) (hh : m.Reaches held h) :
    m.Reaches more h := by
  induction hh with
  | builtin hh => exact .builtin hh
  | held hh => exact .held (hsub hh)
  | global hx => exact .global hx
  | constant hx => exact .constant hx
  | object _ hx ih => exact .object ih hx

/-- What can be reached from valid handles is valid. -/
theorem valid (hm : m.WellFormed) (hheld : ∀ h ∈ held, m.Valid h) (hh : m.Reaches held h) :
    m.Valid h := by
  induction hh with
  | builtin hh => exact Nat.lt_of_lt_of_le hh hm.rooted.size
  | held hh => exact hheld _ hh
  | global hx => exact hm.closed.globals _ hx
  | constant hx => exact hm.closed.constants _ hx
  | object _ hx ih => exact hm.closed.object _ ih _ hx

end Machine.Reaches

/-! ## Partners -/

section Partners

variable {ρ : Record → Record → Prop} {K : Pairing}

theorem forall₂_partner {R : α → α → Prop} {row row' : List α} (h : List.Forall₂ R row row') {x : α}
    (hx : x ∈ row) : ∃ y ∈ row', R x y := by
  induction h with
  | nil => cases hx
  | @cons a b _ _ hab _ ih =>
    rcases List.mem_cons.mp hx with rfl | hx
    · exact ⟨b, List.mem_cons_self, hab⟩
    · obtain ⟨y, hy, hxy⟩ := ih hx
      exact ⟨y, List.mem_cons_of_mem b hy, hxy⟩

theorem Table.Paired.partner {R : α → α → Prop} {t t' : Table α} (h : Table.Paired R t t')
    {x : String × α} (hx : x ∈ t.entries) : ∃ y ∈ t'.entries, R x.2 y.2 := by
  obtain ⟨name, value⟩ := x
  obtain ⟨value', hvalue', hR⟩ := forall₂_partner (h name) (Table.mem_rowOf.mpr hx)
  exact ⟨(name, value'), Table.mem_rowOf.mp hvalue', hR⟩

theorem rel_partner {R : α → α → Prop} {x y : Option α} (h : Option.Rel R x y) {a : α}
    (ha : a ∈ x.toList) : ∃ b ∈ y.toList, R a b := by
  cases h with
  | none => cases ha
  | @some c d hcd =>
    obtain rfl : a = c := List.mem_singleton.mp ha
    exact ⟨d, List.mem_singleton.mpr rfl, hcd⟩

theorem Payload.Paired.partner {payload payload' : Payload} (h : Payload.Paired ρ K payload payload')
    {x : Handle} (hx : x ∈ payload.handles) : ∃ x' ∈ payload'.handles, K x x' := by
  cases h with
  | array hitems => exact forall₂_partner hitems hx
  | hash hpairs =>
    simp only [Payload.handles, List.mem_append, List.mem_map] at hx ⊢
    rcases hx with ⟨p, hp, rfl⟩ | ⟨p, hp, rfl⟩
    · obtain ⟨p', hp', hpair⟩ := forall₂_partner hpairs hp
      exact ⟨p'.1, .inl ⟨p', hp', rfl⟩, hpair.1⟩
    · obtain ⟨p', hp', hpair⟩ := forall₂_partner hpairs hp
      exact ⟨p'.2, .inr ⟨p', hp', rfl⟩, hpair.2⟩
  | range exclusive hfirst hlast =>
    exact forall₂_partner (.cons hfirst (.cons hlast .nil)) hx
  | ofClass hi => exact rel_partner hi.superclass hx
  | _ => cases hx

/-- Every handle that an object holds has a partner that the paired object holds. -/
theorem Object.Paired.partner {o o' : Object} (h : Object.Paired ρ K o o') {x : Handle}
    (hx : x ∈ o.handles) : ∃ x' ∈ o'.handles, K x x' := by
  simp only [Object.handles, List.mem_cons, List.mem_append, List.mem_map] at hx ⊢
  rcases hx with rfl | (hx | ⟨entry, hentry, rfl⟩) | hx
  · exact ⟨o'.isa, .inl rfl, h.isa⟩
  · obtain ⟨s, hs, hxs⟩ := rel_partner h.singleton hx
    exact ⟨s, .inr (.inl (.inl hs)), hxs⟩
  · obtain ⟨entry', hentry', hvalue⟩ := h.ivars.partner hentry
    exact ⟨entry'.2, .inr (.inl (.inr ⟨entry', hentry', rfl⟩)), hvalue⟩
  · obtain ⟨x', hx', hxx'⟩ := h.payload.partner hx
    exact ⟨x', .inr (.inr hx'), hxx'⟩

/-- Every reachable handle has a partner, which is reachable too. -/
theorem Machine.Reaches.partner {m m' : Machine} {held held' : List Handle}
    (p : Machine.Paired ρ K m m') (hheld : PairedRow K held held') {h : Handle}
    (hh : m.Reaches held h) : ∃ h', K h h' ∧ m'.Reaches held' h' := by
  induction hh with
  | builtin hh => exact ⟨_, K.builtin _ hh, .builtin hh⟩
  | held hh =>
    obtain ⟨h', hh', hK⟩ := forall₂_partner hheld hh
    exact ⟨h', hK, .held hh'⟩
  | global hx =>
    obtain ⟨y, hy, hK⟩ := p.globals.partner hx
    exact ⟨y.2, hK, .global hy⟩
  | constant hx =>
    obtain ⟨y, hy, hK⟩ := p.constants.partner hx
    exact ⟨y.2, hK, .constant hy⟩
  | object _ hx ih =>
    obtain ⟨h', hK, hreached⟩ := ih
    obtain ⟨x', hx', hKx⟩ := (p.object hK).partner hx
    exact ⟨x', hKx, .object hreached hx'⟩

end Partners

/-! ## The other way round -/

/-- The pairing read from right to left. -/
def Pairing.flip (K : Pairing) : Pairing where
  rel h h' := K h' h
  builtin h hh := K.builtin h hh
  unique ha hb := (K.unique ha hb).symm

section Flip

variable {ρ : Record → Record → Prop} (hρ : ∀ {r r'}, ρ r r' → ρ r' r) {K : Pairing}

theorem rel_flip {R : α → α → Prop} {x y : Option α} (h : Option.Rel R x y) :
    Option.Rel (fun a b => R b a) y x := by
  cases h with
  | none => exact .none
  | some hab => exact .some hab

include hρ

theorem Method.Paired.flip {method method' : Method} (h : Method.Paired ρ method method') :
    Method.Paired ρ method' method := by
  cases h with
  | native method => exact .native method
  | bytecode h => exact .bytecode (hρ h)
  | attrReader ivar => exact .attrReader ivar
  | attrWriter ivar => exact .attrWriter ivar

theorem Payload.Paired.flip {payload payload' : Payload} (h : Payload.Paired ρ K payload payload') :
    Payload.Paired ρ K.flip payload' payload := by
  cases h with
  | plain => exact .plain
  | integer value => exact .integer value
  | string text => exact .string text
  | symbol name => exact .symbol name
  | array hitems => exact .array hitems.flip
  | hash hpairs => exact .hash hpairs.flip
  | range exclusive hfirst hlast => exact .range exclusive hfirst hlast
  | ofClass hi =>
    refine .ofClass ⟨hi.name.symm, rel_flip hi.superclass, ?_, hi.isModule.symm⟩
    exact hi.methods.flip.imp fun _ _ _ hmethod => hmethod.flip hρ
  | method hmethod => exact .method (hmethod.flip hρ)

theorem Object.Paired.flip {o o' : Object} (h : Object.Paired ρ K o o') :
    Object.Paired ρ K.flip o' o :=
  ⟨h.isa, h.ivars.flip, rel_flip h.singleton, h.payload.flip hρ⟩

theorem Machine.Paired.flip {m m' : Machine} (p : Machine.Paired ρ K m m') :
    Machine.Paired ρ K.flip m' m :=
  ⟨fun hh => (p.object hh).flip hρ, p.globals.flip, p.constants.flip, p.inspecting.flip,
    p.maxClassDepth.symm⟩

omit hρ in
theorem Sink.Twin.flip {start start' sink sink' : Sink} (h : Sink.Twin start start' sink sink') :
    Sink.Twin start' start sink' sink := by
  obtain ⟨added, hbytes, hbytes'⟩ := h.written
  exact ⟨⟨added, hbytes', hbytes⟩, h.spare.symm, h.flush', h.flush⟩

theorem Machine.Twin.flip {start start' m m' : Machine} (t : Machine.Twin ρ start start' K m m') :
    Machine.Twin ρ start' start K.flip m' m :=
  ⟨t.toPaired.flip hρ, fun hx => (t.valid hx).symm, t.limits.symm, t.depth.symm, t.out.flip,
    t.err.flip⟩

end Flip

/-! ## From pairings to renamings -/

/-- The pairing confined to some of the handles on the left. -/
def Pairing.confine (K : Pairing) (P : Handle → Prop) (hP : ∀ h, h.index < 17 → P h) : Pairing where
  rel h h' := K h h' ∧ P h
  builtin h hh := ⟨K.builtin h hh, hP h hh⟩
  unique ha hb := K.unique ha.1 hb.1

namespace Machine

variable {m m' : Machine} {K : Pairing} {held held' : List Handle}

/-- The pairing confined to the handles that are reachable on the left. -/
def reachedPairing (m : Machine) (held : List Handle) (K : Pairing) : Pairing :=
  K.confine (m.Reaches held) fun _ hh => .builtin hh

/-- **Paired machines are renamings of each other**, once the pairing is confined to the handles that
are reachable. -/
theorem Paired.renaming (p : Machine.Paired Eq K m m') (hlimits : m.limits = m'.limits)
    (hheld : PairedRow K held held') : Renaming held held' (m.reachedPairing held K) m m' where
  left h := by
    constructor
    · rintro ⟨_, _, hreached⟩
      exact hreached
    · intro hreached
      obtain ⟨h', hK, _⟩ := hreached.partner p hheld
      exact ⟨h', hK, hreached⟩
  right h' := by
    constructor
    · rintro ⟨h, hK, hreached⟩
      obtain ⟨h'', hK', hreached'⟩ := hreached.partner p hheld
      -- A handle has one partner, so the reachable one is `h'`.
      rwa [(K.unique hK hK').mp rfl]
    · intro hreached
      obtain ⟨h, hK, hreached⟩ := hreached.partner (p.flip Eq.symm) hheld.flip
      exact ⟨h, hK, hreached⟩
  object hh := (p.object hh.1).imp fun _ hx _ hK => ⟨hK, .object hh.2 hx⟩
  globals := p.globals.imp fun _ hx _ hK => ⟨hK, .global hx⟩
  constants := p.constants.imp fun _ hx _ hK => ⟨hK, .constant hx⟩
  limits := hlimits

/-- A machine at rest is well-formed, and no call and no inspection is in progress. -/
theorem Reachable.atRest (h : m.Reachable) : m.WellFormed ∧ m.depth = 0 ∧ m.inspecting = [] := by
  refine ⟨h.wellFormed, ?_⟩
  induction h with
  | boot limits out err => exact ⟨rfl, rfl⟩
  | @executed m _ fuel i _ ih =>
    obtain ⟨hdepth, hinspecting⟩ := ih
    have hnesting := (follows_records (fun _ _ => rfl : ∀ s : Machine, _ → (fun _ => true) s = true)
      fuel Handle.nil i.records).leaves (hdepth ▸ Nat.zero_le m.limits.maxCallDepth)
    exact ⟨hnesting.depth.trans hdepth, hnesting.inspecting.trans hinspecting⟩

/-- What an image leaves behind that ended with a value is reachable again. -/
theorem Reachable.executed_of_ok (hm : m.Reachable) {fuel : Nat} {i : Image} {x : Handle}
    (hrun : Run.image fuel i m = .ok x m') : m'.Reachable := by
  have hends : (Run.image fuel i).Ends m := by
    intro n hn
    rw [hrun] at hn
    cases hn
  have hleaves : (Run.image fuel i).leaves m = m' := by
    unfold Action.leaves
    rw [hrun]
  exact hleaves ▸ .executed hm fuel i hends

/-- Machines at rest that are renamings of each other are twins, if their sinks have equally much
room. -/
theorem Renaming.twin (hK : Renaming [] [] K m m') (hm : m.Reachable) (hm' : m'.Reachable)
    (hout : m.out.spare = m'.out.spare) (herr : m.err.spare = m'.err.spare) :
    Twin Eq m m' K m m' := by
  obtain ⟨hwell, hdepth, hinspecting⟩ := hm.atRest
  obtain ⟨hwell', hdepth', hinspecting'⟩ := hm'.atRest
  refine ⟨⟨hK.object, hK.globals, hK.constants, ?_, congrArg _ hK.limits⟩, fun {h h'} hh => ⟨?_, ?_⟩,
    hK.limits, hdepth.trans hdepth'.symm, .refl hout, .refl herr⟩
  · rw [hinspecting, hinspecting']
    exact .nil
  · exact ((hK.left h).mp ⟨h', hh⟩).valid hwell (List.forall_mem_nil _)
  · exact ((hK.right h').mp ⟨h, hh⟩).valid hwell' (List.forall_mem_nil _)

end Machine

/-! ## Runs on renamed machines -/

/-- How one image ends on `m` and on `m'`: on neither side, or with the same halt, or with two
results.  The sinks took in the same bytes, and the two machines in the end are renamings of each
other; with the results in hand there is a renaming that leads from the one to the other. -/
inductive EndRenamed (m m' : Machine) :
    EStateM.Result Halt Machine Handle → EStateM.Result Halt Machine Handle → Prop
  | exhausted (n n' : Machine) : EndRenamed m m' (.error .exhausted n) (.error .exhausted n')
  | error {halt : Halt} (hends : halt ≠ .exhausted) {n n' : Machine} {K : Pairing}
      (hout : Sink.Twin m.out m'.out n.out n'.out) (herr : Sink.Twin m.err m'.err n.err n'.err)
      (hK : Machine.Renaming [] [] K n n') : EndRenamed m m' (.error halt n) (.error halt n')
  | value {x x' : Handle} {n n' : Machine} {K L : Pairing}
      (hout : Sink.Twin m.out m'.out n.out n'.out) (herr : Sink.Twin m.err m'.err n.err n'.err)
      (hK : Machine.Renaming [] [] K n n') (hL : Machine.Renaming [x] [x'] L n n') (hKL : K ≤ L)
      (hx : L x x') : EndRenamed m m' (.ok x n) (.ok x' n')

/-- Runs that go in step end in renamed machines. -/
theorem Twinned.endRenamed {m m' : Machine} {K K' : Pairing}
    {r r' : EStateM.Result Halt Machine Handle} (h : Twinned Eq m m' K Pairing.rel r r')
    (h' : Twinned Eq m' m K' Pairing.rel r' r) : EndRenamed m m' r r' := by
  cases h with
  | @ok L x x' n n' _ hn hx =>
    have hempty := hn.toPaired.renaming hn.limits .nil
    have hresult := hn.toPaired.renaming hn.limits (.cons hx .nil)
    exact .value hn.out hn.err hempty hresult
      (fun _ _ hh => ⟨hh.1, hh.2.mono (List.nil_subset _)⟩) ⟨hx, .held List.mem_cons_self⟩
  | @error _ halt n n' _ hn =>
    by_cases hends : halt = .exhausted
    · rw [hends]
      exact .exhausted n n'
    · exact .error hends hn.out hn.err (hn.toPaired.renaming hn.limits .nil)
  | exhausted n =>
    -- The left side is out of fuel, and so the right side cannot have ended either.
    cases h' with
    | exhausted n' => exact .exhausted n n'
    | error _ _ => exact .exhausted n _

/-- **Handle numbers do not matter.**  Take two machines that programs lead to and that are renamings
of each other, with sinks that accept equally many more bytes, as all sinks without a limit do.  For
any image and any amount of fuel, both runs are out of it, or both end: with the same halt or with a
result on either side, having written the same bytes to either sink, in machines that are renamings of
each other again, by a bijection that takes the one result to the other. -/
theorem execution_renamed (m m' : Machine) (hm : m.Reachable) (hm' : m'.Reachable) (K : Pairing)
    (hK : Machine.Renaming [] [] K m m') (hout : m.out.spare = m'.out.spare)
    (herr : m.err.spare = m'.err.spare) (i : Image) (fuel : Nat) :
    EndRenamed m m' (Run.image fuel i m) (Run.image fuel i m') := by
  have htwin := hK.twin hm hm' hout herr
  have hrecords : List.Forall₂ Eq i.records i.records := List.forall₂_same.mpr fun _ _ => rfl
  have hrun := twins_image sameCode_eq (Nat.le_refl fuel) hrecords _ _ htwin
  have hrun' := twins_image sameCode_eq (Nat.le_refl fuel) hrecords _ _ (htwin.flip Eq.symm)
  exact hrun.endRenamed hrun'

/-! ### Two machines with different numbers -/

/-- A well-formed machine is paired with its copy that holds one more object. -/
theorem Machine.WellFormed.paired_push {m : Machine} (hm : m.WellFormed) (o : Object) :
    Machine.Paired Eq hm.pairing m { m with heap := m.heap.push o } := by
  have hself : Machine.Paired Eq hm.pairing m m := hm.paired fun _ => rfl
  refine ⟨fun {h h'} hh => ?_, hself.globals, hself.constants, hself.inspecting, rfl⟩
  show Object.Paired Eq hm.pairing (m.heap.get h) ((m.heap.push o).get h')
  rw [Heap.get_push, if_neg (Nat.ne_of_lt (hh.1 ▸ hh.2))]
  exact hself.object hh

/-- A program that makes an array and forgets it. -/
def forgetArray : Image :=
  { (default : Image) with
    records := [{ code := { placed := #[⟨0, { op := .array, a := 1, b := 0 }⟩], size := 3 } }] }

/-- A program that makes an array and binds it to a global. -/
def keepArray : Image :=
  { (default : Image) with
    records :=
      [{ symbols := ["$kept"]
         code :=
          { placed :=
              #[⟨0, { op := .array, a := 1, b := 0 }⟩, ⟨3, { op := .setGlobal, a := 1, b := 0 }⟩]
            size := 6 } }] }

/-- A program that prints the value of that global and answers it. -/
def showKept : Image :=
  { (default : Image) with
    records :=
      [{ symbols := ["$kept", "p"]
         code :=
          { placed :=
              #[⟨0, { op := .getGlobal, a := 2, b := 0 }⟩,
                ⟨3, { op := .selfSend, a := 1, b := 1, c := 1 }⟩, ⟨7, { op := .ret, a := 2 }⟩]
            size := 9 } }] }

/-- An array without items. -/
def emptyArray : Object := { isa := Handle.arrayClass, payload := .array #[] }

/-- What `forgetArray` leaves of a machine at the start. -/
def littered : Machine := { Boot.machine with heap := Boot.machine.heap.push emptyArray }

/-- What `keepArray` leaves of a machine in which the next handle is the given one. -/
def Machine.keeping (m : Machine) (h : Handle) : Machine :=
  { m with heap := m.heap.push emptyArray, globals := ⟨[("$kept", h)]⟩ }

/-- The array that is kept has the number 18 in the one machine and 19 in the other, where 18 is the
array that was forgotten. -/
theorem execution_renamed_littered :
    (Boot.machine.keeping ⟨18⟩).Reachable ∧ (littered.keeping ⟨19⟩).Reachable ∧
    ((Run.image 20 showKept).leaves (Boot.machine.keeping ⟨18⟩)).out.contents = "[]\n" ∧
    ∃ K, Machine.Renaming [] [] K (Boot.machine.keeping ⟨18⟩) (littered.keeping ⟨19⟩) ∧
      K ⟨18⟩ ⟨19⟩ ∧
      EndRenamed (Boot.machine.keeping ⟨18⟩) (littered.keeping ⟨19⟩)
        (Run.image 20 showKept (Boot.machine.keeping ⟨18⟩))
        (Run.image 20 showKept (littered.keeping ⟨19⟩)) := by
  have hforget : Run.image 9 forgetArray Boot.machine = .ok Handle.nil littered := rfl
  have hkeep : Run.image 9 keepArray Boot.machine = .ok Handle.nil (Boot.machine.keeping ⟨18⟩) := rfl
  have hkeep' : Run.image 9 keepArray littered = .ok Handle.nil (littered.keeping ⟨19⟩) := rfl
  have hboot : Boot.machine.Reachable := .boot {} {} {}
  have hlittered : littered.Reachable := hboot.executed_of_ok hforget
  have hkept := hboot.executed_of_ok hkeep
  have hkept' := hlittered.executed_of_ok hkeep'
  have hpaired := (Machine.boot_wellFormed {} {} {}).paired_push emptyArray
  have hfirst := execution_renamed Boot.machine littered hboot hlittered _
    (hpaired.renaming rfl .nil) rfl rfl keepArray 9
  rw [hkeep, hkeep'] at hfirst
  refine ⟨hkept, hkept', by decide +kernel, ?_⟩
  cases hfirst with
  | @value _ _ _ _ K _ hout herr hK _ _ _ =>
    refine ⟨K, hK, ?_, execution_renamed _ _ hkept hkept' K hK hout.spare herr.spare showKept 20⟩
    have hglobals := hK.globals "$kept"
    exact (List.forall₂_cons.mp hglobals).1

end Rite
