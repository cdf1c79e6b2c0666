import Mathlib.Data.Finset.Card
import Rite.Proofs.Additions
import Rite.Proofs.Renaming

/-!
# The literal form of collections

`Heap.rendering` says what `inspect` shows of an object: the items of an array between brackets, the
pairs of a hash between braces, everything else by its own literal form, and an ellipsis for a
collection that is open already, that is one whose items or pairs are just being shown.  Arrays and
hashes may contain each other and themselves; since a collection is never opened twice on one path,
the recursion comes to an end.

The methods do the same with different means.  They send `inspect` to the items and pairs, one call
deeper each time, and keep the open collections in a list that the whole machine shares.  That they
agree with the rendering (`inspect_rendering`) means in particular that the list is at all times the
path to the object at hand, and not the collections seen so far: a collection that comes up twice side
by side is shown in full both times.
-/

namespace Rite

open Relation (ReflTransGen)

/-! ## Renderings -/

/-- What is shown of an object: the text, and how many calls are nested in finding it. -/
structure Rendering where
  text : String
  levels : Nat
  deriving DecidableEq

namespace Rendering

/-- A text that is found by one call. -/
def plain (text : String) : Rendering := ⟨text, 1⟩

/-- How many levels the parts take, one after the other. -/
def levelsOf (parts : List Rendering) : Nat := (parts.map (·.levels)).foldr max 0

/-- The parts between two brackets, found by a call that takes one level more than they. -/
def enclosed (opening closing : String) (parts : List Rendering) : Rendering :=
  ⟨opening ++ String.intercalate ", " (parts.map (·.text)) ++ closing, levelsOf parts + 1⟩

/-- A pair of a hash. -/
def pair (key value : Rendering) : Rendering :=
  ⟨key.text ++ "=>" ++ value.text, max key.levels value.levels⟩

end Rendering

/-- The literal form of an object that is no collection, given what it holds. -/
def Payload.literal (h : Handle) : Payload → String
  | .integer value => toString value.toInt
  | .string text => Text.quote text
  | .symbol name => Text.symbolLiteral name
  | _ => if h = Handle.nil then "nil" else if h = Handle.yes then "true" else "false"

namespace Heap

/-- How many objects of the heap are not among `opened`. -/
def unopened (heap : Heap) (opened : List Handle) : Nat :=
  ((Finset.range heap.size).filter fun i => (⟨i⟩ : Handle) ∉ opened).card

/-- One object fewer is left when another one is opened. -/
theorem unopened_cons_lt {heap : Heap} {opened : List Handle} {h : Handle}
    (hh : h.index < heap.size) (hfree : h ∉ opened) :
    heap.unopened (h :: opened) < heap.unopened opened := by
  refine Finset.card_lt_card (Finset.ssubset_iff_of_subset ?_ |>.mpr ⟨h.index, ?_, ?_⟩)
  · intro i hi
    simp only [Finset.mem_filter, List.mem_cons, not_or] at hi ⊢
    exact ⟨hi.1, hi.2.2⟩
  · simpa using ⟨hh, hfree⟩
  · simp

/-- What `inspect` shows of `h` when the collections `opened` are open. -/
def rendering (heap : Heap) (opened : List Handle) (h : Handle) : Rendering :=
  match _hp : (heap.get h).payload with
  | .array items =>
    if _hopen : h ∈ opened then .plain "[...]"
    else .enclosed "[" "]" (items.toList.map fun item => heap.rendering (h :: opened) item)
  | .hash pairs =>
    if _hopen : h ∈ opened then .plain "\x7b...\x7d"
    else .enclosed "\x7b" "\x7d" (pairs.map fun p =>
      .pair (heap.rendering (h :: opened) p.1) (heap.rendering (h :: opened) p.2))
  | payload => .plain (payload.literal h)
termination_by heap.unopened opened
decreasing_by
  all_goals exact unopened_cons_lt (index_lt_of_payload (by rw [_hp]; nofun)) _hopen

section Equations

variable {heap : Heap} {opened : List Handle} {h : Handle}

theorem rendering_array {items : Array Handle} (hread : (heap.get h).array? = some items) :
    heap.rendering opened h =
      if h ∈ opened then .plain "[...]"
      else .enclosed "[" "]" (items.toList.map fun item => heap.rendering (h :: opened) item) := by
  rw [rendering]
  split <;> simp_all [Object.array?]

theorem rendering_hash {pairs : List (Handle × Handle)} (hread : (heap.get h).hash? = some pairs) :
    heap.rendering opened h =
      if h ∈ opened then .plain "\x7b...\x7d"
      else .enclosed "\x7b" "\x7d" (pairs.map fun p =>
        .pair (heap.rendering (h :: opened) p.1) (heap.rendering (h :: opened) p.2)) := by
  rw [rendering]
  split <;> simp_all [Object.hash?]

theorem rendering_leaf (harray : (heap.get h).array? = none) (hhash : (heap.get h).hash? = none) :
    heap.rendering opened h = .plain ((heap.get h).payload.literal h) := by
  rw [rendering]
  split <;> simp_all [Object.array?, Object.hash?]

end Equations

end Heap

/-! ## Literals -/

/-- The items of an array, the keys and values of a hash. -/
def Payload.parts : Payload → List Handle
  | .array items => items.toList
  | .hash pairs => pairs.flatMap fun p => [p.1, p.2]
  | _ => []

namespace Machine

/-- The handle `x` is an item, a key or a value of the collection `h`. -/
def Holds (m : Machine) (h x : Handle) : Prop := x ∈ (m.object h).payload.parts

/-- What is closed under taking parts holds everything that can be reached from its members. -/
theorem mem_of_reached {m : Machine} {closed : List Handle} {h x : Handle}
    (hclosed : ∀ y ∈ closed, (m.object y).payload.parts ⊆ closed) (hh : h ∈ closed)
    (hx : ReflTransGen m.Holds h x) : x ∈ closed := by
  induction hx with
  | refl => exact hh
  | tail _ hpart ih => exact hclosed _ ih hpart

/-- The object is `nil`, `true` or `false`, or an instance of one of the given classes. -/
def IsOneOf (m : Machine) (classes : List Handle) (h : Handle) : Prop :=
  h ∈ [Handle.nil, Handle.yes, Handle.no] ∨ m.classOf h ∈ classes

instance (m : Machine) (classes : List Handle) (h : Handle) : Decidable (m.IsOneOf classes h) :=
  inferInstanceAs (Decidable (_ ∨ _))

/-- The classes of the collections and of the objects that have literals. -/
def literalClasses : List Handle :=
  [Handle.arrayClass, Handle.hashClass, Handle.integerClass, Handle.stringClass,
   Handle.symbolClass]

end Machine

/-- The class and the payload that go together in an object `h` with literals. -/
inductive Literal (h : Handle) : Handle → Payload → Prop
  | array (items : Array Handle) : Literal h Handle.arrayClass (.array items)
  | hash (pairs : List (Handle × Handle)) : Literal h Handle.hashClass (.hash pairs)
  | integer (value : Int64) : Literal h Handle.integerClass (.integer value)
  | string (text : String) : Literal h Handle.stringClass (.string text)
  | symbol (name : String) : Literal h Handle.symbolClass (.symbol name)
  | nil (hh : h = Handle.nil) : Literal h Handle.nilClass .plain
  | yes (hh : h = Handle.yes) : Literal h Handle.trueClass .plain
  | no (hh : h = Handle.no) : Literal h Handle.falseClass .plain

theorem Literal.class_eq_of_array {h c : Handle} {items : Array Handle}
    (hliteral : Literal h c (.array items)) : c = Handle.arrayClass := by
  cases hliteral
  rfl

theorem Literal.class_eq_of_hash {h c : Handle} {pairs : List (Handle × Handle)}
    (hliteral : Literal h c (.hash pairs)) : c = Handle.hashClass := by
  cases hliteral
  rfl

namespace Machine

variable {m : Machine} {h : Handle} {classes : List Handle}

/-- The objects at hand are in the heap. -/
theorem IsOneOf.valid (hm : m.Rooted) (hclasses : classes ⊆ literalClasses)
    (h' : m.IsOneOf classes h) : m.Valid h := by
  rcases h' with hmem | hclass
  · have hindex : ∀ x ∈ [Handle.nil, Handle.yes, Handle.no], x.index < 17 := by decide
    exact Nat.lt_of_lt_of_le (hindex h hmem) hm.size
  · by_contra hout
    have hobject : m.object h = Heap.nothing := Heap.get_of_size_le _ (Nat.le_of_not_lt hout)
    unfold classOf at hclass
    rw [hobject] at hclass
    exact absurd (hclasses hclass) (by decide)

theorem IsOneOf.literal (hm : m.Rooted) (hb : m.BuiltinInstances)
    (hclasses : classes ⊆ literalClasses) (h' : m.IsOneOf classes h) :
    Literal h (m.classOf h) (m.object h).payload := by
  have hvalid := h'.valid hm hclasses
  rcases h' with hmem | hclass
  · simp only [List.mem_cons, List.not_mem_nil, or_false] at hmem
    rcases hmem with rfl | rfl | rfl
    · obtain ⟨hclass, hpayload⟩ := hb.singular (Handle.nil, Handle.nilClass) (by decide)
      exact hclass ▸ hpayload ▸ .nil rfl
    · obtain ⟨hclass, hpayload⟩ := hb.singular (Handle.yes, Handle.trueClass) (by decide)
      exact hclass ▸ hpayload ▸ .yes rfl
    · obtain ⟨hclass, hpayload⟩ := hb.singular (Handle.no, Handle.falseClass) (by decide)
      exact hclass ▸ hpayload ▸ .no rfl
  · have hmem := hclasses hclass
    have hsub : literalClasses ⊆ Handle.valueClasses := by decide
    have hbuiltin := hb.payload h hvalid (hsub hmem)
    generalize m.classOf h = c, (m.object h).payload = payload at hmem hbuiltin
    cases payload with
    | array items => exact Option.some.inj hbuiltin ▸ .array items
    | hash pairs => exact Option.some.inj hbuiltin ▸ .hash pairs
    | integer value => exact Option.some.inj hbuiltin ▸ .integer value
    | string text => exact Option.some.inj hbuiltin ▸ .string text
    | symbol name => exact Option.some.inj hbuiltin ▸ .symbol name
    | plain => cases hbuiltin
    | range | method =>
      cases hbuiltin
      exact absurd hmem (by decide)
    | ofClass info =>
      cases hbuiltin
      exact absurd hmem (by cases info.isModule <;> decide)

end Machine

/-! ## What the methods show -/

namespace Takes

variable {α β : Type} {m : Machine} {levels : Nat}

theorem mapM {xs : List β} {f : Nat → β → Action String} {g : β → Rendering}
    (hf : ∀ x ∈ xs, ∀ m₁, m.Gains m₁ →
      Takes (g x).levels (fun fuel => f fuel x) m₁ fun text _ => text = (g x).text) :
    Takes (Rendering.levelsOf (xs.map g)) (fun fuel => xs.mapM (f fuel)) m
      fun texts _ => texts = (xs.map g).map (·.text) := by
  induction xs generalizing m with
  | nil => exact .pure rfl
  | cons x xs ih =>
    simp only [List.mapM_cons]
    refine .bind (hf x List.mem_cons_self m (.refl m)) fun text m₁ hgain htext => ?_
    refine (ih fun y hy m₂ hgain₂ => ?_).finish fun texts m₂ _ htexts => .pure ?_
    · exact hf y (List.mem_cons_of_mem _ hy) m₂ (hgain.trans hgain₂)
    · rw [htext, htexts]
      rfl

/-- A collection that is open is shown as an ellipsis. -/
theorem inspectGuarded_open {h : Handle} (hopen : h ∈ m.inspecting) (ellipsis : String)
    (a : Nat → Action String) :
    Takes 0 (fun fuel => Action.inspectGuarded h ellipsis (a fuel)) m
      fun x heap => (heap.get x).string? = some ellipsis := by
  refine .ask ?_
  simp only [List.contains_iff_mem.mpr hopen, if_true]
  exact .newString ellipsis

/-- Any other one is opened. -/
theorem inspectGuarded_closed {h : Handle} (hfree : h ∉ m.inspecting) (ellipsis : String)
    {a : Nat → Action String} {text : String}
    (ha : Takes levels a { m with inspecting := h :: m.inspecting } fun x _ => x = text) :
    Takes levels (fun fuel => Action.inspectGuarded h ellipsis (a fuel)) m
      fun x heap => (heap.get x).string? = some text := by
  refine .ask ?_
  have hcontains : m.inspecting.contains h = false := by simpa using hfree
  simp only [hcontains, Bool.false_eq_true, if_false]
  refine ha.inspecting.finish fun shown _ _ hshown => ?_
  rw [hshown]
  exact .newString text

end Takes

/-- What `inspect` answers for an object that is no collection. -/
theorem Literal.takes_inspect {m : Machine} {h : Handle}
    (hliteral : Literal h (m.classOf h) (m.object h).payload)
    (harray : (m.object h).array? = none) (hhash : (m.object h).hash? = none)
    (hkeeps : m.KeepsBuiltin "inspect" h) :
    Takes 1 (fun fuel => (Run.engine fuel).inspect h) m
      fun text _ => text = (m.object h).payload.literal h := by
  have htext : ∀ {op : Primitive} {text : String},
      Machine.builtinMethod? (m.classOf h) "inspect" = some (Catalogue.fixed "inspect" 0 op) →
      Takes 0 (fun fuel => op.perform (Run.engine fuel) h []) { m with depth := m.depth + 1 }
        (fun x heap => (heap.get x).string? = some text) →
      Takes 1 (fun fuel => (Run.engine fuel).inspect h) m fun x _ => x = text :=
    fun hmethod hop => .textBy hkeeps hmethod hop
  unfold Object.array? at harray
  unfold Object.hash? at hhash
  generalize hp : (m.object h).payload = payload at hliteral harray hhash ⊢
  generalize m.classOf h = c at hliteral htext
  cases hliteral with
  | array items => cases harray
  | hash pairs => cases hhash
  | integer value =>
    have hread : (m.object h).integer? = some value := by rw [Object.integer?, hp]
    exact @htext (.ofInteger .toS) _ (by decide +kernel) (.expect hread (.newString _))
  | string text =>
    have hread : (m.object h).string? = some text := by rw [Object.string?, hp]
    exact @htext (.ofString .inspect) _ (by decide +kernel) (.expect hread (.newString _))
  | symbol name =>
    have hread : (m.object h).symbol? = some name := by rw [Object.symbol?, hp]
    exact @htext (.ofSymbol .inspect) _ (by decide +kernel) (.expect hread (.newString _))
  | nil hh =>
    subst hh
    exact @htext (.text "nil") _ (by decide +kernel) (.newString _)
  | yes hh =>
    subst hh
    exact @htext (.text "true") _ (by decide +kernel) (.newString _)
  | no hh =>
    subst hh
    exact @htext (.text "false") _ (by decide +kernel) (.newString _)

section Inspect

variable {m₀ m : Machine} {h : Handle}

/-- What `inspect` answers for a collection, given what comes of showing its parts. -/
theorem takes_inspect_collection {op : Primitive} {opening closing ellipsis : String}
    {a : Nat → Action (List String)} {parts : List Rendering} (hkeeps : m.KeepsBuiltin "inspect" h)
    (hmethod : Machine.builtinMethod? (m.classOf h) "inspect" =
      some (Catalogue.fixed "inspect" 0 op))
    (hop : ∀ fuel, op.perform (Run.engine fuel) h [] { m with depth := m.depth + 1 } =
      Action.inspectGuarded h ellipsis (do
        let texts ← a fuel
        return opening ++ String.intercalate ", " texts ++ closing) { m with depth := m.depth + 1 })
    (hparts : h ∉ m.inspecting → Takes (Rendering.levelsOf parts) a
      { m with depth := m.depth + 1, inspecting := h :: m.inspecting }
      fun texts _ => texts = parts.map (·.text))
    {r : Rendering}
    (hr : r = if h ∈ m.inspecting then .plain ellipsis else .enclosed opening closing parts) :
    Takes r.levels (fun fuel => (Run.engine fuel).inspect h) m fun text _ => text = r.text := by
  by_cases hopen : h ∈ m.inspecting
  · rw [hr, if_pos hopen]
    have hinside : h ∈ Machine.inspecting { m with depth := m.depth + 1 } := hopen
    exact .textBy hkeeps hmethod ((Takes.inspectGuarded_open hinside ellipsis _).congr hop)
  · rw [hr, if_neg hopen]
    have hinside : h ∉ Machine.inspecting { m with depth := m.depth + 1 } := hopen
    refine .textBy hkeeps hmethod ((Takes.inspectGuarded_closed hinside ellipsis ?_).congr hop)
    refine (hparts hopen).finish fun texts m₁ _ htexts => .pure ?_
    rw [htexts]
    rfl

/-- The parts of an array are shown one after the other. -/
theorem takes_inspect_array {items : Array Handle} {g : Handle → Rendering}
    (hclass : m.classOf h = Handle.arrayClass) (hread : (m.object h).array? = some items)
    (hkeeps : m.KeepsBuiltin "inspect" h)
    (hpart : h ∉ m.inspecting → ∀ x ∈ items.toList, ∀ m₁,
      Machine.Gains { m with depth := m.depth + 1, inspecting := h :: m.inspecting } m₁ →
      Takes (g x).levels (fun fuel => (Run.engine fuel).inspect x) m₁ fun text _ => text = (g x).text)
    {r : Rendering} (hr : r = if h ∈ m.inspecting then .plain "[...]"
      else .enclosed "[" "]" (items.toList.map g)) :
    Takes r.levels (fun fuel => (Run.engine fuel).inspect h) m fun text _ => text = r.text := by
  have hmethod : Machine.builtinMethod? (m.classOf h) "inspect" =
      some (Catalogue.fixed "inspect" 0 (.ofArray .inspect)) := by
    rw [hclass]
    decide +kernel
  refine takes_inspect_collection hkeeps hmethod (fun fuel => Action.demand_bind_of_ok ?_)
    (fun hfree => .mapM (hpart hfree)) hr
  exact Machine.expect_of_some hread

/-- The parts of a hash are its pairs. -/
theorem takes_inspect_hash {pairs : List (Handle × Handle)} {g : Handle → Rendering}
    (hclass : m.classOf h = Handle.hashClass) (hread : (m.object h).hash? = some pairs)
    (hkeeps : m.KeepsBuiltin "inspect" h)
    (hpart : h ∉ m.inspecting → ∀ x ∈ (Payload.hash pairs).parts, ∀ m₁,
      Machine.Gains { m with depth := m.depth + 1, inspecting := h :: m.inspecting } m₁ →
      Takes (g x).levels (fun fuel => (Run.engine fuel).inspect x) m₁ fun text _ => text = (g x).text)
    {r : Rendering} (hr : r = if h ∈ m.inspecting then .plain "\x7b...\x7d"
      else .enclosed "\x7b" "\x7d" (pairs.map fun p => .pair (g p.1) (g p.2))) :
    Takes r.levels (fun fuel => (Run.engine fuel).inspect h) m fun text _ => text = r.text := by
  have hmethod : Machine.builtinMethod? (m.classOf h) "inspect" =
      some (Catalogue.fixed "inspect" 0 (.ofHash .inspect)) := by
    rw [hclass]
    decide +kernel
  refine takes_inspect_collection hkeeps hmethod (fun fuel => Action.demand_bind_of_ok ?_)
    (fun hfree => .mapM fun p hp m₁ hgain => ?_) hr
  · exact Machine.expect_of_some hread
  · -- The key comes first, and the value is shown on what that leaves behind.
    have hparts : [p.1, p.2] ⊆ (Payload.hash pairs).parts :=
      fun x hx => List.mem_flatMap.mpr ⟨p, hp, hx⟩
    refine .bind (hpart hfree p.1 (hparts (by simp)) m₁ hgain) fun key m₂ hgain₂ hkey => ?_
    refine (hpart hfree p.2 (hparts (by simp)) m₂ (hgain.trans hgain₂)).finish
      fun value m₃ _ hvalue => .pure ?_
    rw [hkey, hvalue]
    rfl

/-- Everything that can be reached from `h` has literals, and its `inspect` is the builtin one. -/
def Machine.Inspectable (m : Machine) (h : Handle) : Prop :=
  ∀ x, ReflTransGen m.Holds h x → m.IsOneOf Machine.literalClasses x ∧ m.KeepsBuiltin "inspect" x

theorem Machine.Inspectable.part {x : Handle} (hh : m.Inspectable h) (hx : m.Holds h x) :
    m.Inspectable x :=
  fun y hy => hh y (.head hx hy)

/-- **The methods show the rendering.**  The list of open collections is the one of the machine. -/
theorem takes_inspect (hm₀ : m₀.WellFormed) (hb : m₀.BuiltinInstances) (hh : m₀.Inspectable h)
    (hw : m₀.heap.Within m.heap) :
    Takes (m₀.heap.rendering m.inspecting h).levels (fun fuel => (Run.engine fuel).inspect h) m
      fun text _ => text = (m₀.heap.rendering m.inspecting h).text := by
  -- Every collection that is opened leaves fewer that can still be opened.
  induction hleft : m₀.heap.unopened m.inspecting using Nat.strong_induction_on
    generalizing h m with
  | _ left ih =>
    obtain ⟨hone, hkeeps⟩ := hh h .refl
    have hvalid := hone.valid hm₀.rooted (List.Subset.refl _)
    have hliteral := hone.literal hm₀.rooted hb (List.Subset.refl _)
    have hobject : m.object h = m₀.object h := hw.get h hvalid
    have hkeeps := hkeeps.within hm₀ hvalid hw
    have hclass : m.classOf h = m₀.classOf h := congrArg Object.isa hobject
    -- The parts are shown with `h` on the list.
    have hpart : h ∉ m.inspecting → ∀ x, m₀.Holds h x → ∀ m₁,
        Machine.Gains { m with depth := m.depth + 1, inspecting := h :: m.inspecting } m₁ →
        Takes (m₀.heap.rendering (h :: m.inspecting) x).levels
          (fun fuel => (Run.engine fuel).inspect x) m₁
          fun text _ => text = (m₀.heap.rendering (h :: m.inspecting) x).text := by
      intro hfree x hx m₁ hgain
      have hfewer : m₀.heap.unopened m₁.inspecting < left := by
        rw [hgain.inspecting_eq, ← hleft]
        exact Heap.unopened_cons_lt hvalid hfree
      have hshown := ih _ hfewer (hh.part hx) (hw.trans hgain.heap) rfl
      rwa [hgain.inspecting_eq] at hshown
    unfold Machine.Holds at hpart
    cases hp : (m₀.object h).payload with
    | array items =>
      rw [hp] at hliteral hpart
      have hread : (m₀.object h).array? = some items := by rw [Object.array?, hp]
      exact takes_inspect_array (hclass.trans hliteral.class_eq_of_array) (hobject ▸ hread) hkeeps hpart
        (Heap.rendering_array hread)
    | hash pairs =>
      rw [hp] at hliteral hpart
      have hread : (m₀.object h).hash? = some pairs := by rw [Object.hash?, hp]
      exact takes_inspect_hash (hclass.trans hliteral.class_eq_of_hash) (hobject ▸ hread) hkeeps hpart
        (Heap.rendering_hash hread)
    | _ =>
      have harray : (m₀.object h).array? = none := by rw [Object.array?, hp]
      have hhash : (m₀.object h).hash? = none := by rw [Object.hash?, hp]
      rw [Heap.rendering_leaf harray hhash]
      change Takes 1 _ m fun text _ => text = (m₀.object h).payload.literal h
      rw [← hobject] at harray hhash hliteral ⊢
      rw [← hclass] at hliteral
      exact hliteral.takes_inspect harray hhash hkeeps

/-- **Showing collections.**  From some amount of fuel on, `inspect` answers the rendering of the
object if there is room for as many calls as that is nested, and fails for want of room if there is
not.  Whatever comes of it, objects were added and nothing else has changed.  Between runs no
collection is open. -/
theorem inspect_rendering (m : Machine) (hm : m.Visited) (o : Handle) (ho : m.Inspectable o) :
    (m.Reachable → m.inspecting = []) ∧
    ∃ enough m₁, m.Gains m₁ ∧ ∀ fuel, enough ≤ fuel →
      (Run.engine fuel).inspect o m =
        if (m.heap.rendering m.inspecting o).levels ≤ m.room then
          .ok (m.heap.rendering m.inspecting o).text m₁
        else .error (.fault .stackTooDeep) m₁ := by
  obtain ⟨hwell, hbuiltin⟩ := builtinInstances_invariant.visited Boot.builtinInstances hm
  refine ⟨fun h => h.atRest.2.2, ?_⟩
  obtain ⟨enough, r, hr, hcompleted⟩ := takes_inspect hwell hbuiltin ho (.refl m.heap)
  cases hcompleted with
  | @ok text m₁ hroom hgain htext =>
    refine ⟨enough, m₁, hgain, fun fuel hfuel => ?_⟩
    rw [if_pos hroom, ← htext]
    exact hr fuel hfuel
  | @tooDeep m₁ hroom hgain =>
    refine ⟨enough, m₁, hgain, fun fuel hfuel => ?_⟩
    rw [if_neg (Nat.not_le_of_lt hroom)]
    exact hr fuel hfuel

end Inspect

/-- A script that makes an array and a hash in which the array is the value of `:k`, and puts the
number 1 and, twice, the hash into the array. -/
def loopScript : Record where
  symbols := ["k"]
  code :=
    { placed :=
        #[⟨0, { op := .array, a := 1, b := 0 }⟩, ⟨3, { op := .loadSym, a := 3, b := 0 }⟩,
          ⟨6, { op := .move, a := 4, b := 1 }⟩, ⟨9, { op := .hash, a := 3, b := 1 }⟩,
          ⟨12, { op := .load1, a := 2 }⟩, ⟨14, { op := .move, a := 4, b := 3 }⟩,
          ⟨17, { op := .arrayPush, a := 1, b := 3 }⟩]
      size := 20 }

/-- The machine that the script leaves behind. -/
@[irreducible] def afterLoopScript : Machine :=
  (Run.image 20 { (default : Image) with records := [loopScript] }).leaves Boot.machine

theorem reachable_afterLoopScript : afterLoopScript.Reachable := by
  have hends : (Run.image 20 { (default : Image) with records := [loopScript] }).Ends
      Boot.machine := .of_succeeds (by decide +kernel)
  unfold afterLoopScript
  exact .executed (.boot {} {} {}) 20 _ hends

/-- The array has the handle 18, the hash the handle 20. -/
theorem rendering_afterLoopScript :
    afterLoopScript.heap.rendering [] ⟨18⟩ =
      ⟨"[1, \x7b:k=>[...]\x7d, \x7b:k=>[...]\x7d]", 3⟩ := by
  obtain ⟨hloop, hhash, hkey, hone, htexts⟩ :
      (afterLoopScript.heap.get ⟨18⟩).array? = some #[⟨21⟩, ⟨20⟩, ⟨20⟩] ∧
      (afterLoopScript.heap.get ⟨20⟩).hash? = some [(⟨19⟩, ⟨18⟩)] ∧
      ((afterLoopScript.heap.get ⟨19⟩).array? = none ∧
        (afterLoopScript.heap.get ⟨19⟩).hash? = none) ∧
      ((afterLoopScript.heap.get ⟨21⟩).array? = none ∧
        (afterLoopScript.heap.get ⟨21⟩).hash? = none) ∧
      (afterLoopScript.heap.get ⟨19⟩).payload.literal ⟨19⟩ = ":k" ∧
      (afterLoopScript.heap.get ⟨21⟩).payload.literal ⟨21⟩ = "1" := by decide +kernel
  have hagain : afterLoopScript.heap.rendering [⟨20⟩, ⟨18⟩] ⟨18⟩ = .plain "[...]" := by
    rw [Heap.rendering_array hloop, if_pos (by decide)]
  have hpair : afterLoopScript.heap.rendering [⟨18⟩] ⟨20⟩ = ⟨"\x7b:k=>[...]\x7d", 2⟩ := by
    rw [Heap.rendering_hash hhash, if_neg (by decide)]
    simp only [List.map_cons, List.map_nil, hagain, Heap.rendering_leaf hkey.1 hkey.2, htexts]
    decide
  rw [Heap.rendering_array hloop, if_neg (by decide)]
  simp only [List.map_cons, List.map_nil, hpair, Heap.rendering_leaf hone.1 hone.2, htexts]
  decide

/-- The hash is shown in full both times, and the array is not shown again in it. -/
theorem inspect_rendering_afterLoopScript :
    afterLoopScript.Visited ∧ afterLoopScript.Inspectable ⟨18⟩ ∧
    ∃ enough m₁, afterLoopScript.Gains m₁ ∧ ∀ fuel, enough ≤ fuel →
      (Run.engine fuel).inspect ⟨18⟩ afterLoopScript =
        .ok "[1, \x7b:k=>[...]\x7d, \x7b:k=>[...]\x7d]" m₁ := by
  obtain ⟨hclosed, hparts, hroom⟩ :
      (∀ x ∈ [⟨18⟩, ⟨19⟩, ⟨20⟩, ⟨21⟩],
        (afterLoopScript.object x).payload.parts ⊆ [⟨18⟩, ⟨19⟩, ⟨20⟩, ⟨21⟩]) ∧
      (∀ x ∈ [⟨18⟩, ⟨19⟩, ⟨20⟩, ⟨21⟩],
        afterLoopScript.IsOneOf Machine.literalClasses x ∧
          afterLoopScript.KeepsBuiltin "inspect" x) ∧
      3 ≤ afterLoopScript.room := by decide +kernel
  have hvisited : afterLoopScript.Visited := .resting reachable_afterLoopScript
  have hinspectable : afterLoopScript.Inspectable ⟨18⟩ := fun x hx =>
    hparts x (Machine.mem_of_reached hclosed (by decide) hx)
  obtain ⟨hempty, enough, m₁, hgain, hrun⟩ :=
    inspect_rendering afterLoopScript hvisited ⟨18⟩ hinspectable
  rw [hempty reachable_afterLoopScript, rendering_afterLoopScript] at hrun
  refine ⟨hvisited, hinspectable, enough, m₁, hgain, fun fuel hfuel => ?_⟩
  rw [hrun fuel hfuel, if_pos hroom]

end Rite
