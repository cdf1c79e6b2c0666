import Rite.Machine.Snapshot
import Rite.Proofs.ClassDepth
import Rite.Proofs.Pairing

/-!
# Actions that are alike

`Alike ρ π e e' K a a' V` says that `a` and `a'` are the same program text, carried out with the
engine `e` on the one side and with `e'` on the other, on data that `K` pairs; when both end with a
value, `V` relates the values.  It is a statement about how the two actions are built and not about
what they do: every question to a machine is one that paired machines answer alike, every change is
one of the listed effects, and all else is left to the engines.  `π` says which of four things that
some facts cannot stand are done at all.

All builtin methods and all instructions are alike with themselves (`Rite.Proofs.AlikeBuiltin`,
`Rite.Proofs.AlikeFrame`).  A fact about all programs is then an induction on `Alike`: it has to be
checked for a question, for each effect, for the mark of an inspection in progress, and for a call
and an evaluation, where it is the induction hypothesis on fuel.
-/

namespace Rite

variable {α β : Type}

/-- The values of two alike actions are equal. -/
def Equal (_ : Pairing) (x x' : α) : Prop := x = x'

/-- Two rows of handles are paired one by one. -/
def PairedRow (K : Pairing) (row row' : List Handle) : Prop := List.Forall₂ K.rel row row'

/-- Rows stay paired when more handles are. -/
theorem PairedRow.mono {K L : Pairing} (hKL : K ≤ L) {row row' : List Handle}
    (h : PairedRow K row row') : PairedRow L row row' :=
  List.Forall₂.imp hKL h

theorem PairedPair.mono {K L : Pairing} (hKL : K ≤ L) {p p' : Handle × Handle}
    (h : PairedPair K p p') : PairedPair L p p' :=
  ⟨hKL _ _ h.1, hKL _ _ h.2⟩

/-! ## Questions and the class limit -/

/-- Two machines that are paired but for their class limits. -/
def Machine.Matched (ρ : Record → Record → Prop) (K : Pairing) (m m' : Machine) : Prop :=
  Machine.Paired ρ K (m.withClassLimit m'.limits.maxClassDepth) m'

theorem Machine.Paired.matched {ρ : Record → Record → Prop} {K : Pairing} {m m' : Machine}
    (p : Machine.Paired ρ K m m') : Machine.Matched ρ K m m' := by
  unfold Machine.Matched
  rw [← p.maxClassDepth]
  exact p

/-- A question that matched machines answer alike, unless the lower limit was in the way. -/
def Lasting (ρ : Record → Record → Prop) (K : Pairing) (Q : α → α → Prop)
    (q q' : Machine → Except Fault α) : Prop :=
  ∀ m m', Machine.Matched ρ K m m' → m.limits.maxClassDepth ≤ m'.limits.maxClassDepth →
    PairedOutcome Q (q m) (q' m') ∨ ∃ name, q m = .error (.classChainTooDeep name)

/-- What endures a higher limit, and is answered alike under one limit, lasts. -/
theorem Enduring.lasting {ρ : Record → Record → Prop} {K : Pairing} {Q : α → α → Prop}
    {q q' : Machine → Except Fault α} (h : Enduring q)
    (hq : ∀ m m', Machine.Paired ρ K m m' → PairedOutcome Q (q m) (q' m')) :
    Lasting ρ K Q q q' := by
  intro m m' p hle
  obtain hsame | hdeep := h m m'.limits.maxClassDepth hle
  · exact .inl (hsame ▸ hq _ _ p)
  · exact .inr hdeep

/-! ## Running a question -/

theorem Action.ask_bind (q : Machine → α) (f : α → Action β) (m : Machine) :
    (Action.ask q >>= f) m = f (q m) m := rfl

theorem Action.reserve_of_le {bytes : Nat} (h : bytes ≤ largestPiece) :
    Action.reserve bytes = pure () :=
  dif_neg (Nat.not_lt.mpr h)

theorem Action.reserve_of_lt {bytes : Nat} (h : largestPiece < bytes) :
    Action.reserve bytes = Action.overrun ⟨bytes, h⟩ :=
  dif_pos h

theorem Action.demand_bind_of_ok {q : Machine → Except Fault α} {f : α → Action β} {m : Machine}
    {x : α} (hq : q m = .ok x) : (Action.demand q >>= f) m = f x m := by
  change EStateM.bind (Action.demand q) f m = f x m
  simp only [EStateM.bind, Action.demand, hq]

theorem Action.demand_bind_of_error {q : Machine → Except Fault α} {f : α → Action β} {m : Machine}
    {fault : Fault} (hq : q m = .error fault) :
    (Action.demand q >>= f) m = .error (.fault fault) m := by
  change EStateM.bind (Action.demand q) f m = .error (.fault fault) m
  simp only [EStateM.bind, Action.demand, hq]

/-- A new instance of `c`, which is not set up: what `Classes.new` does before it sends
`initialize`. -/
def Classes.instantiate (c : Handle) : Action Handle := do
  if ← Action.ask (·.isProperClass c) then
    let payload ← Action.demand (·.freshPayload c)
    Action.allocate { isa := c, payload }
  else
    Action.fail (← Action.ask (·.missing "new" c))

theorem Classes.new_eq (e : Engine) (receiver : Handle) (args : List Handle) :
    Classes.new e receiver args = do
      let instance_ ← Classes.instantiate receiver
      discard (e.send instance_ "initialize" args)
      return instance_ := by
  simp only [Classes.new, Classes.instantiate, bind_assoc]
  congr 1
  funext proper
  -- Without a class there is no instance, and what follows the fault is not carried out.
  cases proper
  · simp only [Bool.false_eq_true, if_false, bind_assoc]
    rfl
  · simp only [if_true, bind_assoc]

/-! ## Effects -/

/-- What alike actions may do beyond the ordinary.  A fact that holds only where texts stay as they
are, or where every loop comes to its end, is a fact about actions without that permission. -/
structure Permit where
  /-- A loop may run out of rounds. -/
  giveUp : Prop
  /-- A string may be continued. -/
  appendText : Prop
  /-- Method bodies may be made, and be put into method tables. -/
  installBody : Prop
  /-- A question may be answered otherwise under a higher class limit, without a complaint about the
  lower one. -/
  revealLimit : Prop

/-- Everything is permitted. -/
def Permit.full : Permit := ⟨True, True, True, True⟩

/-- What a new object can hold: it is no class, and a hash starts out empty. -/
def Payload.Fresh : Payload → Prop
  | .ofClass _ => False
  | .hash pairs => pairs = []
  | _ => True

theorem Payload.index_lt_of_builtinClass? {payload : Payload} {c : Handle}
    (h : payload.builtinClass? = some c) : c.index < 13 := by
  cases payload with
  | ofClass info =>
    cases h
    split <;> decide
  | plain => cases h
  | _ =>
    cases h
    decide

/-- The methods that read or set an instance variable. -/
def Method.IsAccessor : Method → Prop
  | .attrReader _ | .attrWriter _ => True
  | _ => False

theorem Payload.Fresh.ne_ofClass {payload : Payload} (h : payload.Fresh) (info : ClassInfo) :
    payload ≠ .ofClass info := by
  rintro rfl
  exact h

section

variable (ρ : Record → Record → Prop) (π : Permit)

/-- The changes a program can make to a machine, on paired data.  All of them are either a new
object, a change to one object, a binding or a piece of output. -/
inductive Effect : {α : Type} → Pairing → Action α → Action α → (Pairing → α → α → Prop) → Prop
  /-- A new object of a builtin class that is no class itself. -/
  | allocate {K c payload payload'} (hc : payload.builtinClass? = some c) (hfresh : payload.Fresh)
      (h : Payload.Paired ρ K payload payload')
      (hmethod : ∀ method, payload = .method method → π.installBody) :
      Effect K (Action.allocate { isa := c, payload })
        (Action.allocate { isa := c, payload := payload' }) Pairing.rel
  | instantiate {K c c'} (hc : K.rel c c') :
      Effect K (Classes.instantiate c) (Classes.instantiate c') Pairing.rel
  | singletonClassOf {K h h'} (hh : K.rel h h') :
      Effect K (Action.singletonClassOf h) (Action.singletonClassOf h') Pairing.rel
  | openClass {K parent parent'} (name : String) (h : Option.Rel K.rel parent parent') :
      Effect K (Action.openClass name parent) (Action.openClass name parent') Pairing.rel
  | openModule {K} (name : String) :
      Effect K (Action.openModule name) (Action.openModule name) Pairing.rel
  | defineMethod {K c c' method method'} (hc : K.rel c c') (name : String)
      (h : Method.Paired ρ method method') (hmethod : π.installBody ∨ method.IsAccessor) :
      Effect K (Action.defineMethod c name method) (Action.defineMethod c' name method') Equal
  | undefMethod {K c c'} (hc : K.rel c c') (name : String) :
      Effect K (Action.undefMethod c name) (Action.undefMethod c' name) Equal
  | setIvar {K h h' value value'} (hh : K.rel h h') (name : String) (hvalue : K.rel value value') :
      Effect K (Action.setIvar h name value) (Action.setIvar h' name value') Equal
  | setGlobal {K value value'} (name : String) (hvalue : K.rel value value') :
      Effect K (Action.setGlobal name value) (Action.setGlobal name value') Equal
  | setConstant {K value value'} (name : String) (hvalue : K.rel value value') :
      Effect K (Action.setConstant name value) (Action.setConstant name value') Equal
  | appendItems {K h h' items items'} (hh : K.rel h h') (hitems : PairedRow K items items') :
      Effect K (Action.changeObject h (·.mapItems (· ++ items)))
        (Action.changeObject h' (·.mapItems (· ++ items'))) Equal
  | putItem {K h h' value value'} (hh : K.rel h h') (place : Nat) (hvalue : K.rel value value') :
      Effect K (Action.changeObject h (·.mapItems (Items.put · place value)))
        (Action.changeObject h' (·.mapItems (Items.put · place value'))) Equal
  | appendText {K h h'} (hh : K.rel h h') (text : String) (htext : π.appendText) :
      Effect K (Action.changeObject h (·.mapText (· ++ text)))
        (Action.changeObject h' (·.mapText (· ++ text))) Equal
  | hashSet {K h h' key key' value value'} (hh : K.rel h h') (hkey : K.rel key key')
      (hvalue : K.rel value value') :
      Effect K (Action.hashSet h key value) (Action.hashSet h' key' value') Equal
  | writeOut {K} (text : String) : Effect K (Action.writeOut text) (Action.writeOut text) Equal
  | writeErr {K} (text : String) : Effect K (Action.writeErr text) (Action.writeErr text) Equal

/-! ## Alike actions -/

variable (e e' : Engine)

/-- Two actions of the same text, on the engines `e` and `e'` and on data that the pairing pairs.
A pairing may grow while the actions go on, as new objects are paired with each other. -/
inductive Alike : {α : Type} → Pairing → Action α → Action α → (Pairing → α → α → Prop) → Prop
  | pure {α : Type} {K V} {x x' : α} (h : V K x x') : Alike K (pure x) (pure x') V
  | bind {α β : Type} {K V W} {a a' : Action α} {f f' : α → Action β} (ha : Alike K a a' V)
      (hf : ∀ L x x', K ≤ L → V L x x' → Alike L (f x) (f' x') W) :
      Alike K (a >>= f) (a' >>= f') W
  /-- A question, which changes nothing and so keeps the pairing. -/
  | question {α β : Type} {K} {Q : α → α → Prop} {W} {q q' : Machine → Except Fault α}
      {f f' : α → Action β}
      (hq : ∀ m m', Machine.Paired ρ K m m' → PairedOutcome Q (q m) (q' m'))
      (hlimit : π.revealLimit ∨ Lasting ρ K Q q q')
      (hf : ∀ x x', Q x x' → Alike K (f x) (f' x') W) :
      Alike K (Action.demand q >>= f) (Action.demand q' >>= f') W
  | fail {α : Type} {K} {V : Pairing → α → α → Prop} (f : Fault) :
      Alike K (Action.fail f) (Action.fail f) V
  | overrun {α : Type} {K} {V : Pairing → α → α → Prop} (request : Overlong) :
      Alike K (Action.overrun request) (Action.overrun request) V
  /-- The side with less fuel may give up while the other goes on. -/
  | exhausted {α : Type} {K} {V : Pairing → α → α → Prop} (hgive : π.giveUp) (a' : Action α) :
      Alike K Action.exhausted a' V
  | effect {α : Type} {K V} {a a' : Action α} (h : Effect ρ π K a a' V) : Alike K a a' V
  | inspecting {α : Type} {K V h h'} {a a' : Action α} (hh : K.rel h h') (ha : Alike K a a' V) :
      Alike K (Action.inspecting h a) (Action.inspecting h' a') V
  | call {K receiver receiver' found found' args args'} (name : String)
      (hreceiver : K.rel receiver receiver') (hfound : Found.Paired ρ K found found')
      (hargs : PairedRow K args args') :
      Alike K (e.call receiver found name args) (e'.call receiver' found' name args') Pairing.rel
  | evaluate {K record record' context context' args args'} (hrecord : ρ record record')
      (hcontext : Context.Paired K context context') (hargs : PairedRow K args args') :
      Alike K (e.evaluate record context args) (e'.evaluate record' context' args') Pairing.rel

end

namespace Alike

variable {ρ : Record → Record → Prop} {π : Permit} {e e' : Engine} {K : Pairing}
  {V : Pairing → α → α → Prop} {h h' : Handle}

/-! ## Questions and answers -/

/-- A question that does not look at the class limit. -/
theorem demand {K : Pairing} {Q : α → α → Prop} {W : Pairing → β → β → Prop}
    {q q' : Machine → Except Fault α} {f f' : α → Action β}
    (hq : ∀ m m', Machine.Matched ρ K m m' → PairedOutcome Q (q m) (q' m'))
    (hf : ∀ x x', Q x x' → Alike ρ π e e' K (f x) (f' x') W) :
    Alike ρ π e e' K (Action.demand q >>= f) (Action.demand q' >>= f') W :=
  .question (fun m m' p => hq m m' p.matched) (.inr fun m m' p _ => .inl (hq m m' p)) hf

/-- A question that is answered by a walk up a superclass chain. -/
theorem lookup {K : Pairing} {Q : α → α → Prop} {W : Pairing → β → β → Prop}
    {q q' : Machine → Except Fault α} {f f' : α → Action β} (hlimit : Enduring q)
    (hq : ∀ m m', Machine.Paired ρ K m m' → PairedOutcome Q (q m) (q' m'))
    (hf : ∀ x x', Q x x' → Alike ρ π e e' K (f x) (f' x') W) :
    Alike ρ π e e' K (Action.demand q >>= f) (Action.demand q' >>= f') W :=
  .question hq (.inr (hlimit.lasting hq)) hf

/-- A question whose answers are equal. -/
theorem data {K : Pairing} {W : Pairing → β → β → Prop} {q q' : Machine → Except Fault α}
    {f f' : α → Action β} (hq : ∀ m m', Machine.Matched ρ K m m' → q m = q' m')
    (hf : ∀ x, Alike ρ π e e' K (f x) (f' x) W) :
    Alike ρ π e e' K (Action.demand q >>= f) (Action.demand q' >>= f') W := by
  refine .demand (Q := Eq) (fun m m' p => .of_eq (hq m m' p)) fun x x' hx => ?_
  rw [← hx]
  exact hf x

/-- A question that is never at fault. -/
theorem ask {K : Pairing} {Q : α → α → Prop} {W : Pairing → β → β → Prop} {q q' : Machine → α}
    {f f' : α → Action β} (hq : ∀ m m', Machine.Matched ρ K m m' → Q (q m) (q' m'))
    (hf : ∀ x x', Q x x' → Alike ρ π e e' K (f x) (f' x') W) :
    Alike ρ π e e' K (Action.ask q >>= f) (Action.ask q' >>= f') W := by
  change Alike ρ π e e' K (Action.demand (fun m => .ok (q m)) >>= f)
    (Action.demand (fun m => .ok (q' m)) >>= f') W
  exact .demand (fun m m' p => .ok (hq m m' p)) hf

theorem askData {K : Pairing} {W : Pairing → β → β → Prop} {q q' : Machine → α}
    {f f' : α → Action β} (hq : ∀ m m', Machine.Matched ρ K m m' → q m = q' m')
    (hf : ∀ x, Alike ρ π e e' K (f x) (f' x) W) :
    Alike ρ π e e' K (Action.ask q >>= f) (Action.ask q' >>= f') W :=
  .ask (Q := Eq) hq fun x _ hx => hx ▸ hf x

/-- A question that ends an action. -/
theorem asked {q q' : Machine → α} (hq : ∀ m m', Machine.Matched ρ K m m' → V K (q m) (q' m')) :
    Alike ρ π e e' K (Action.ask q) (Action.ask q') V := by
  have hbind : Alike ρ π e e' K (Action.ask q >>= Pure.pure) (Action.ask q' >>= Pure.pure) V :=
    .ask hq fun _ _ hx => .pure hx
  simpa only [bind_pure] using hbind

theorem argument {W : Pairing → β → β → Prop} {args args' : List Handle} {index : Nat}
    {f f' : Handle → Action β} (hargs : PairedRow K args args')
    (hf : ∀ x x', K x x' → Alike ρ π e e' K (f x) (f' x') W) :
    Alike ρ π e e' K (Action.argument args index >>= f) (Action.argument args' index >>= f') W := by
  have hlength : args.length = args'.length := List.Forall₂.length_eq hargs
  unfold Action.argument
  by_cases hi : index < args.length
  · rw [List.getElem?_eq_getElem hi, List.getElem?_eq_getElem (hlength ▸ hi)]
    simp only [pure_bind]
    exact hf _ _ (List.Forall₂.get hargs hi (hlength ▸ hi))
  · rw [List.getElem?_eq_none (by omega), List.getElem?_eq_none (by omega), hlength]
    exact .fail _

/-- Both sides ask for equally much memory. -/
theorem reserve {W : Pairing → β → β → Prop} (bytes : Nat) {f f' : Unit → Action β}
    (hf : Alike ρ π e e' K (f ()) (f' ()) W) :
    Alike ρ π e e' K (Action.reserve bytes >>= f) (Action.reserve bytes >>= f') W := by
  rcases Nat.lt_or_ge largestPiece bytes with hbeyond | hfits
  · rw [Action.reserve_of_lt hbeyond]
    exact .overrun _
  · rw [Action.reserve_of_le hfits]
    exact hf

theorem answer (b : Bool) : Alike ρ π e e' K (Action.answer b) (Action.answer b) Pairing.rel :=
  .pure (K.ofBool b)

theorem nil : Alike ρ π e e' K (Pure.pure Handle.nil) (Pure.pure Handle.nil) Pairing.rel :=
  .pure K.nil

/-- A computation that does not look at the machine. -/
theorem ofExcept {W : Pairing → β → β → Prop} {x : Except Fault α} {f f' : α → Action β}
    (hf : ∀ x, Alike ρ π e e' K (f x) (f' x) W) :
    Alike ρ π e e' K (Action.ofExcept x >>= f) (Action.ofExcept x >>= f') W := by
  cases x with
  | ok x => exact hf x
  | error fault => exact .fail fault

theorem discard {a a' : Action α} (ha : Alike ρ π e e' K a a' V) :
    Alike ρ π e e' K (discard a) (discard a') Equal := by
  change Alike ρ π e e' K (a >>= fun _ => Pure.pure ()) (a' >>= fun _ => Pure.pure ()) Equal
  exact ha.bind fun _ _ _ _ _ => .pure rfl

/-- An action that is left out on both sides or on neither. -/
theorem optional {W : Pairing → β → β → Prop} (b : Bool) {a a' : Action α} {f f' : Action β}
    (ha : Alike ρ π e e' K a a' V) (hf : ∀ L, K ≤ L → Alike ρ π e e' L f f' W) :
    Alike ρ π e e' K (if b then a >>= fun _ => f else f) (if b then a' >>= fun _ => f' else f') W := by
  cases b
  · exact hf K le_rfl
  · exact ha.bind fun L _ _ hL _ => hf L hL

/-- A check on the machine whose result is not used. -/
theorem discardDemand {Q : α → α → Prop} {q q' : Machine → Except Fault α}
    (hq : ∀ m m', Machine.Matched ρ K m m' → PairedOutcome Q (q m) (q' m')) :
    Alike ρ π e e' K (Functor.discard (Action.demand q)) (Functor.discard (Action.demand q')) Equal := by
  have hbind : Alike ρ π e e' K (Action.demand q >>= Pure.pure) (Action.demand q' >>= Pure.pure)
      (fun _ => Q) := .demand hq fun _ _ hx => .pure hx
  rw [bind_pure, bind_pure] at hbind
  exact .discard hbind

theorem discardData {q q' : Machine → Except Fault α}
    (hq : ∀ m m', Machine.Matched ρ K m m' → q m = q' m') :
    Alike ρ π e e' K (Functor.discard (Action.demand q)) (Functor.discard (Action.demand q')) Equal :=
  .discardDemand fun m m' p => .of_eq (hq m m' p)

/-! ## New objects -/

theorem newInteger (value : Int64) :
    Alike ρ π e e' K (Action.newInteger value) (Action.newInteger value) Pairing.rel :=
  .effect (.allocate rfl trivial (.integer value) nofun)

theorem newString (text : String) :
    Alike ρ π e e' K (Action.newString text) (Action.newString text) Pairing.rel :=
  .effect (.allocate rfl trivial (.string text) nofun)

theorem newSymbol (name : String) :
    Alike ρ π e e' K (Action.newSymbol name) (Action.newSymbol name) Pairing.rel :=
  .effect (.allocate rfl trivial (.symbol name) nofun)

theorem newArray {items items' : List Handle} (hitems : PairedRow K items items') :
    Alike ρ π e e' K (Action.newArray items) (Action.newArray items') Pairing.rel :=
  .effect (.allocate rfl trivial (.array hitems) nofun)

theorem newRange {first first' last last' : Handle} (hfirst : K first first') (hlast : K last last')
    (exclusive : Bool) :
    Alike ρ π e e' K (Action.newRange first last exclusive) (Action.newRange first' last' exclusive)
      Pairing.rel :=
  .effect (.allocate rfl trivial (.range exclusive hfirst hlast) nofun)

theorem newMethod {method method' : Method} (hbody : π.installBody)
    (hmethod : Method.Paired ρ method method') :
    Alike ρ π e e' K (Action.newMethod method) (Action.newMethod method') Pairing.rel :=
  .effect (.allocate rfl trivial (.method hmethod) fun _ _ => hbody)

theorem hashSetAll {pairs pairs' : List (Handle × Handle)} (hh : K h h')
    (hpairs : List.Forall₂ (PairedPair K) pairs pairs') :
    Alike ρ π e e' K (Action.hashSetAll h pairs) (Action.hashSetAll h' pairs') Equal := by
  -- Each write may let the pairing grow, so the induction is over all pairings above `K`.
  suffices hall : ∀ L, K ≤ L →
      Alike ρ π e e' L (Action.hashSetAll h pairs) (Action.hashSetAll h' pairs') Equal from
    hall K le_rfl
  induction hpairs with
  | nil => exact fun L _ => .pure rfl
  | cons hp _ ih =>
    intro L hL
    have hp := hp.mono hL
    exact .bind (.effect (.hashSet (hL _ _ hh) hp.1 hp.2)) fun M _ _ hM _ => ih M (hL.trans hM)

theorem newHash {pairs pairs' : List (Handle × Handle)}
    (hpairs : List.Forall₂ (PairedPair K) pairs pairs') :
    Alike ρ π e e' K (Action.newHash pairs) (Action.newHash pairs') Pairing.rel := by
  have hempty : Payload.Paired ρ K (.hash []) (.hash []) := .hash .nil
  refine .bind (.effect (.allocate rfl rfl hempty nofun)) fun L h h' hL hh => ?_
  have hpairs : List.Forall₂ (PairedPair L) pairs pairs' := hpairs.imp fun _ _ hp => hp.mono hL
  exact .bind (.hashSetAll hh hpairs) fun M _ _ hM _ => .pure (hM _ _ hh)

/-! ## Messages and texts -/

theorem constant (name : String) :
    Alike ρ π e e' K (Action.constant name) (Action.constant name) Pairing.rel := by
  refine .ask (fun _ _ p => p.constant? name) fun x x' hx => ?_
  cases hx with
  | some hx => exact .pure hx
  | none => exact .fail _

theorem send {args args' : List Handle} (hh : K h h') (name : String)
    (hargs : PairedRow K args args') :
    Alike ρ π e e' K (e.send h name args) (e'.send h' name args') Pairing.rel :=
  .lookup (Machine.enduring_lookupMethod h name) (fun _ _ p => p.lookupMethod hh name)
    fun _ _ hfound => .call name hh hfound hargs

theorem textBy (name : String) (hh : K h h') :
    Alike ρ π e e' K (e.textBy name h) (e'.textBy name h') Equal := by
  refine .bind (.send hh name .nil) fun L x x' hL hx => .asked fun m m' p => ?_
  have htext : (m.object x).string? = (m'.object x').string? := (p.object hx).string?_eq
  have hplain : m.plainText h = m'.plainText h' := p.plainText_eq (hL _ _ hh)
  change _ = _
  rw [htext, hplain]

theorem toText (hh : K h h') : Alike ρ π e e' K (e.toText h) (e'.toText h') Equal :=
  .textBy "to_s" hh

theorem inspect (hh : K h h') : Alike ρ π e e' K (e.inspect h) (e'.inspect h') Equal :=
  .textBy "inspect" hh

/-- The literal form of a collection, with or without the ellipsis. -/
theorem inspectGuarded {a a' : Action String} (hh : K h h') (ellipsis : String)
    (ha : Alike ρ π e e' K a a' Equal) :
    Alike ρ π e e' K (Action.inspectGuarded h ellipsis a) (Action.inspectGuarded h' ellipsis a')
      Pairing.rel := by
  refine .askData (fun _ _ p => Pairing.contains_eq hh p.inspecting) fun shown => ?_
  split
  · exact .newString ellipsis
  · exact .bind (.inspecting hh ha) fun L text _ _ htext => htext ▸ .newString text

theorem checkArity (arity : Arity) (given : Nat) :
    Alike ρ π e e' K (arity.check given) (arity.check given) Equal := by
  unfold Arity.check
  cases arity with
  | any => exact .pure rfl
  | exactly n =>
    dsimp only
    split
    · exact .pure rfl
    · exact .fail _

/-! ## Rounds over lists -/

section Lists

variable {R : Pairing → β → β → Prop} {xs xs' : List β}

/-- Texts gathered from paired data. -/
theorem mapM {f f' : β → Action α} (hxs : List.Forall₂ (R K) xs xs')
    (hR : ∀ {L M : Pairing} {x x'}, L ≤ M → R L x x' → R M x x')
    (hf : ∀ L x x', K ≤ L → R L x x' → Alike ρ π e e' L (f x) (f' x') Equal) :
    Alike ρ π e e' K (xs.mapM f) (xs'.mapM f') Equal := by
  suffices hall : ∀ L, K ≤ L → Alike ρ π e e' L (xs.mapM f) (xs'.mapM f') Equal from hall K le_rfl
  induction hxs with
  | nil => exact fun L _ => .pure rfl
  | cons hx _ ih =>
    intro L hL
    rw [List.mapM_cons, List.mapM_cons]
    refine .bind (hf L _ _ hL (hR hL hx)) fun M y _ hM hy => ?_
    cases hy
    exact .bind (ih M (hL.trans hM)) fun N ys _ _ hys => hys ▸ .pure rfl

/-- A text built up along paired data. -/
theorem foldlM {f f' : α → β → Action α} (hxs : List.Forall₂ (R K) xs xs')
    (hR : ∀ {L M : Pairing} {x x'}, L ≤ M → R L x x' → R M x x')
    (hf : ∀ L acc x x', K ≤ L → R L x x' → Alike ρ π e e' L (f acc x) (f' acc x') Equal) (acc : α) :
    Alike ρ π e e' K (xs.foldlM f acc) (xs'.foldlM f' acc) Equal := by
  suffices hall : ∀ L acc, K ≤ L → Alike ρ π e e' L (xs.foldlM f acc) (xs'.foldlM f' acc) Equal from
    hall K acc le_rfl
  induction hxs with
  | nil => exact fun L acc _ => .pure rfl
  | cons hx _ ih =>
    intro L acc hL
    rw [List.foldlM_cons, List.foldlM_cons]
    refine .bind (hf L acc _ _ hL (hR hL hx)) fun M y _ hM hy => ?_
    cases hy
    exact ih M y (hL.trans hM)

theorem forM {f f' : β → Action PUnit} (hxs : List.Forall₂ (R K) xs xs')
    (hR : ∀ {L M : Pairing} {x x'}, L ≤ M → R L x x' → R M x x')
    (hf : ∀ L x x', K ≤ L → R L x x' → Alike ρ π e e' L (f x) (f' x') Equal) :
    Alike ρ π e e' K (xs.forM f) (xs'.forM f') Equal := by
  suffices hall : ∀ L, K ≤ L → Alike ρ π e e' L (xs.forM f) (xs'.forM f') Equal from hall K le_rfl
  induction hxs with
  | nil => exact fun L _ => .pure rfl
  | cons hx _ ih =>
    intro L hL
    exact .bind (hf L _ _ hL (hR hL hx)) fun M _ _ hM _ => ih M (hL.trans hM)

theorem inspectAll {row row' : List Handle} (hrow : PairedRow K row row') :
    Alike ρ π e e' K (e.inspectAll row) (e'.inspectAll row') Equal :=
  .mapM (R := Pairing.rel) hrow (fun hLM hx => hLM _ _ hx) fun _ _ _ _ => .inspect

end Lists

end Alike

end Rite
