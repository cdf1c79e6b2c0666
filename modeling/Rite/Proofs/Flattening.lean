import Rite.Proofs.Rendering
import Rite.Proofs.SinkLimit

/-!
# The lines of arrays

`puts` writes the text of each argument as a line.  An array stands for its items, and items that are
arrays for theirs: `Heap.flattened` says which lines come of that, with an ellipsis for an array that
is open already.  An argument without any lines, such as an empty array, makes an empty line.

The lines are collected first and written at once.  Arrays are gone into without a call, so that one
further call, the one that asks for the text of an item, is all the room that is ever needed, and
nesting alone never makes `puts` fail (`puts_flattened`).
-/

namespace Rite

open Relation (ReflTransGen)

/-- The text of an object that is no collection, given what it holds. -/
def Payload.toText (h : Handle) : Payload → String
  | .integer value => toString value.toInt
  | .string text => text
  | .symbol name => name
  | _ => if h = Handle.nil then "" else if h = Handle.yes then "true" else "false"

namespace Heap

variable {heap : Heap} {opened : List Handle} {h : Handle}

/-- The lines of `h` when the arrays `opened` are open.  What is no array is one line: its text, and a
line feed unless the text ends with one. -/
def flattened (heap : Heap) (opened : List Handle) (h : Handle) : String :=
  match _hread : (heap.get h).array? with
  | some items =>
    if _hopen : h ∈ opened then "[...]\n"
    else String.join (items.toList.map fun item => heap.flattened (h :: opened) item)
  | none =>
    let text := (heap.get h).payload.toText h
    if ['\n'] <:+ text.toList then text else text ++ "\n"
termination_by heap.unopened opened
decreasing_by exact unopened_cons_lt (index_lt_of_array _hread) _hopen

theorem flattened_array {items : Array Handle} (hread : (heap.get h).array? = some items) :
    heap.flattened opened h =
      if h ∈ opened then "[...]\n"
      else String.join (items.toList.map fun item => heap.flattened (h :: opened) item) := by
  rw [flattened]
  split <;> simp_all

theorem flattened_leaf {text : String} (hread : (heap.get h).array? = none)
    (htext : (heap.get h).payload.toText h = text) :
    heap.flattened opened h = if ['\n'] <:+ text.toList then text else text ++ "\n" := by
  rw [flattened]
  split <;> simp_all

/-- The lines of one argument: at least one. -/
def argumentLines (heap : Heap) (h : Handle) : String :=
  if heap.flattened [] h = "" then "\n" else heap.flattened [] h

/-- What is written for the arguments. -/
def putsText (heap : Heap) (args : List Handle) : String :=
  if args = [] then "\n" else String.join (args.map heap.argumentLines)

end Heap

/-- The last character decides whether a text is a line already. -/
theorem Objects.asLine_eq (text : String) :
    Objects.asLine text = if ['\n'] <:+ text.toList then text else text ++ "\n" := by
  have hends : Objects.endsLine text = true ↔ ['\n'] <:+ text.toList := by
    unfold Objects.endsLine
    rw [beq_iff_eq, List.singleton_suffix_iff_getLast?_eq_some]
  unfold Objects.asLine
  simp only [hends]

/-- A text that fits is accepted whole. -/
theorem Sink.bytes_accept_of_fits {sink : Sink} {text : String} (hfits : sink.fits text = true) :
    (sink.accept text).bytes = sink.bytes ++ Utf8.encode text := by
  have hroom : sink.room text.utf8ByteSize = text.utf8ByteSize := of_decide_eq_true hfits
  rw [bytes_accept, hroom, ← length_encode, List.take_length]

/-! ## What the method collects -/

/-- The classes of the objects that have lines. -/
def Machine.lineClasses : List Handle :=
  [Handle.arrayClass, Handle.integerClass, Handle.stringClass, Handle.symbolClass]

/-- Everything that can be reached from `h` has lines, and the `to_s` of what is no array is the
builtin one. -/
def Machine.Flattenable (m : Machine) (h : Handle) : Prop :=
  ∀ x, ReflTransGen m.Holds h x →
    m.IsOneOf Machine.lineClasses x ∧ ((m.object x).array? = none → m.KeepsBuiltin "to_s" x)

theorem Machine.Flattenable.part {m : Machine} {h x : Handle} (hh : m.Flattenable h)
    (hx : m.Holds h x) : m.Flattenable x :=
  fun y hy => hh y (.head hx hy)

/-- Texts put together one after the other. -/
theorem Takes.foldlM_append {β : Type} {m : Machine} {xs : List β} {f : Nat → β → Action String}
    {g : β → String}
    (hf : ∀ x ∈ xs, ∀ m₁, m.Gains m₁ →
      Takes 0 (fun fuel => f fuel x) m₁ fun text _ => text = g x) :
    Takes 0 (fun fuel => xs.foldlM (fun text x => do return text ++ (← f fuel x)) "") m
      fun text _ => text = String.join (xs.map g) := by
  suffices hfrom : ∀ start, Takes 0
      (fun fuel => xs.foldlM (fun text x => do return text ++ (← f fuel x)) start) m
      fun text _ => text = (xs.map g).foldl (· ++ ·) start from hfrom ""
  intro start
  induction xs generalizing m start with
  | nil => exact .pure rfl
  | cons x xs ih =>
    simp only [List.foldlM_cons, bind_assoc, pure_bind]
    refine (hf x List.mem_cons_self m (.refl m)).finish fun text m₁ hgain htext => ?_
    rw [htext]
    exact ih (fun y hy m₂ hgain₂ => hf y (List.mem_cons_of_mem _ hy) m₂ (hgain.trans hgain₂)) _

/-- What `to_s` answers for an object that is no collection. -/
theorem Literal.takes_toText {m : Machine} {h : Handle}
    (hliteral : Literal h (m.classOf h) (m.object h).payload)
    (harray : (m.object h).array? = none) (hhash : (m.object h).hash? = none)
    (hkeeps : m.KeepsBuiltin "to_s" h) :
    Takes 1 (fun fuel => (Run.engine fuel).toText h) m
      fun text _ => text = (m.object h).payload.toText h := by
  have htext : ∀ {op : Primitive} {text : String},
      Machine.builtinMethod? (m.classOf h) "to_s" = some (Catalogue.fixed "to_s" 0 op) →
      Takes 0 (fun fuel => op.perform (Run.engine fuel) h []) { m with depth := m.depth + 1 }
        (fun x heap => (heap.get x).string? = some text) →
      Takes 1 (fun fuel => (Run.engine fuel).toText h) m fun x _ => x = text :=
    fun hmethod hop => .textBy hkeeps hmethod hop
  unfold Object.array? at harray
  unfold Object.hash? at hhash
  generalize hp : (m.object h).payload = payload at hliteral harray hhash ⊢
  generalize m.classOf h = c at hliteral htext
  cases hliteral with
  | array items => cases harray
  | hash pairs => cases hhash
  | integer value =>
    have hread : (m.object h).integer? = some value := by rw [Object.integer?, hp]
    exact @htext (.ofInteger .toS) _ (by decide +kernel) (.expect hread (.newString _))
  | string text =>
    -- A string is its own text.
    have hread : (m.object h).string? = some text := by rw [Object.string?, hp]
    exact @htext (.ofString .toS) _ (by decide +kernel)
      (.check (Machine.expect_of_some hread) (.pure hread))
  | symbol name =>
    have hread : (m.object h).symbol? = some name := by rw [Object.symbol?, hp]
    exact @htext (.ofSymbol .toS) _ (by decide +kernel) (.expect hread (.newString _))
  | nil hh =>
    subst hh
    exact @htext (.text "") _ (by decide +kernel) (.newString _)
  | yes hh =>
    subst hh
    exact @htext (.text "true") _ (by decide +kernel) (.newString _)
  | no hh =>
    subst hh
    exact @htext (.text "false") _ (by decide +kernel) (.newString _)

section Lines

variable {m₀ m : Machine} {h : Handle}

theorem Machine.holds_of_array {x : Handle} {items : Array Handle}
    (hread : (m.object h).array? = some items) (hx : x ∈ items.toList) : m.Holds h x := by
  unfold Machine.Holds
  unfold Object.array? at hread
  generalize (m.object h).payload = payload at hread ⊢
  cases payload <;> cases hread
  exact hx

/-- What has lines is no hash. -/
theorem Machine.IsOneOf.hash?_eq_none (hm : m.Rooted) (hb : m.BuiltinInstances)
    (hh : m.IsOneOf lineClasses h) : (m.object h).hash? = none := by
  have hliteral := hh.literal hm hb (by decide)
  have hclass : m.classOf h ≠ Handle.hashClass := by
    rcases hh with hmem | hmem
    · have hsingular : ∀ x ∈ Handle.singular, x.2 ≠ Handle.hashClass := by decide
      obtain ⟨x, hx, rfl⟩ := List.mem_map.mp (show h ∈ Handle.singular.map (·.1) from hmem)
      rw [(hb.singular x hx).1]
      exact hsingular x hx
    · intro hc
      rw [hc] at hmem
      exact absurd hmem (by decide)
  unfold Object.hash?
  generalize m.classOf h = c, (m.object h).payload = payload at hliteral hclass ⊢
  cases hliteral <;> first | rfl | exact absurd rfl hclass

/-- **The lines that the loop finds.**  Each round goes one array deeper, and none of the arrays on
the path is gone into again. -/
theorem takes_linesWithin (hm₀ : m₀.WellFormed) (hb : m₀.BuiltinInstances) (hh : m₀.Flattenable h)
    (hw : m₀.heap.Within m.heap) (hroom : 1 ≤ m.room) (path : List Handle) :
    Takes 0 (fun fuel => Objects.linesWithin (Run.engine fuel) (fuel - path.length) path h) m
      fun text _ => text = m₀.heap.flattened path h := by
  induction hleft : m₀.heap.unopened path using Nat.strong_induction_on
    generalizing h m path with
  | _ left ih =>
    obtain ⟨hone, hkeeps⟩ := hh h .refl
    have hvalid := hone.valid hm₀.rooted (by decide)
    have hobject : m.object h = m₀.object h := hw.get h hvalid
    refine Takes.round (b := fun fuel rounds =>
      Objects.linesWithin (Run.engine fuel) rounds path h) ?_
    simp only [Objects.linesWithin]
    refine .ask ?_
    rw [hobject]
    cases hread : (m₀.object h).array? with
    | none =>
      rw [Heap.flattened_leaf hread rfl]
      have hliteral := hone.literal hm₀.rooted hb (by decide)
      have hhash := hone.hash?_eq_none hm₀.rooted hb
      have hclass : m.classOf h = m₀.classOf h := congrArg Object.isa hobject
      rw [← hclass, ← hobject] at hliteral
      rw [← hobject] at hhash hread
      have htext := hliteral.takes_toText hread hhash ((hkeeps (hobject ▸ hread)).within hm₀ hvalid hw)
      refine (htext.spare hroom).finish fun text _ _ htext => .pure ?_
      rw [htext, hobject, Objects.asLine_eq]
      rfl
    | some items =>
      rw [Heap.flattened_array hread]
      by_cases hopen : h ∈ path
      · simp only [List.contains_iff_mem.mpr hopen, hopen, if_true]
        exact .pure rfl
      · have hcontains : path.contains h = false := by simpa using hopen
        simp only [hcontains, hopen, Bool.false_eq_true, if_false]
        refine .foldlM_append fun item hitem m₁ hgain => ?_
        have hfewer : m₀.heap.unopened (h :: path) < left :=
          hleft ▸ Heap.unopened_cons_lt hvalid hopen
        exact ih _ hfewer (hh.part (Machine.holds_of_array hread hitem)) (hw.trans hgain.heap)
          (hgain.room_eq ▸ hroom) (h :: path) rfl

/-- What is collected for all arguments. -/
theorem takes_lines (hm₀ : m₀.WellFormed) (hb : m₀.BuiltinInstances) {args : List Handle}
    (hargs : ∀ h ∈ args, m₀.Flattenable h) (hw : m₀.heap.Within m.heap) (hroom : 1 ≤ m.room) :
    Takes 0 (fun fuel => args.foldlM
        (fun text h => do return text ++ (← Objects.lines (Run.engine fuel) h)) "") m
      fun text _ => text = String.join (args.map m₀.heap.argumentLines) := by
  refine .foldlM_append fun h hmem m₁ hgain => ?_
  have hfound := takes_linesWithin hm₀ hb (hargs h hmem) (hw.trans hgain.heap)
    (hgain.room_eq ▸ hroom) []
  refine hfound.finish fun text _ _ htext => .pure ?_
  rw [htext, Heap.argumentLines]
  simp only [String.isEmpty_iff]

end Lines

/-! ## What the method writes -/

/-- Write a text and answer `nil`. -/
def Action.writeAndReturn (text : String) : Action Handle := do
  writeOut text
  return Handle.nil

theorem Action.writeAndReturn_eq (text : String) (m : Machine) :
    writeAndReturn text m =
      if m.out.fits text then .ok Handle.nil { m with out := m.out.accept text }
      else .error (.fault sinkFull) { m with out := m.out.accept text } := by
  show EStateM.bind (writeOut text) (fun _ => Pure.pure Handle.nil) m = _
  unfold EStateM.bind writeOut
  dsimp only
  cases m.out.fits text <;> rfl

/-- It makes no difference whether a write comes just before the end of a call or just after it. -/
theorem Action.nested_writeAndReturn {m m₁ : Machine} {body : Action Handle} {text : String}
    (hdepth : m.depth < m.limits.maxCallDepth)
    (hbody : body { m with depth := m.depth + 1 } = writeAndReturn text m₁) :
    nested body m = writeAndReturn text { m₁ with depth := m₁.depth - 1 } := by
  unfold nested
  rw [if_neg (Nat.not_le_of_lt hdepth), hbody, writeAndReturn_eq, writeAndReturn_eq]
  dsimp only
  cases m₁.out.fits text <;> rfl

theorem Objects.puts_of_lines {e : Engine} {args : List Handle} {m m₁ : Machine} {text : String}
    (hlines : (args.foldlM (fun text h => do return text ++ (← lines e h)) "" : Action String) m =
      .ok text m₁) :
    Objects.puts e args m = Action.writeAndReturn (if args.isEmpty then "\n" else text) m₁ := by
  show EStateM.bind _ _ m = _
  unfold EStateM.bind
  rw [hlines]
  rfl

/-- **`puts` writes the lines of its arguments, at once.**  From some amount of fuel on it comes to a
single write, after nothing but added objects, and if the sink accepts what is written it answers
`nil`. -/
theorem puts_flattened (m : Machine) (hm : m.Visited) (receiver owner : Handle)
    (hputs : m.lookupMethod receiver "puts" =
      .ok ⟨owner, .native (Catalogue.variadic "puts" (.ofObject .puts))⟩)
    (args : List Handle) (hargs : ∀ h ∈ args, m.Flattenable h) (hroom : 2 ≤ m.room) :
    ∃ enough m₁, m.Gains m₁ ∧
      (∀ fuel, enough ≤ fuel → (Run.engine fuel).send receiver "puts" args m =
        Action.writeAndReturn (m.heap.putsText args) m₁) ∧
      (m.out.fits (m.heap.putsText args) = true →
        (m.out.accept (m.heap.putsText args)).bytes =
          m.out.bytes ++ Utf8.encode (m.heap.putsText args) ∧
        ∀ fuel, enough ≤ fuel → (Run.engine fuel).send receiver "puts" args m =
          .ok Handle.nil { m₁ with out := m.out.accept (m.heap.putsText args) }) := by
  obtain ⟨hwell, hbuiltin⟩ := builtinInstances_invariant.visited Boot.builtinInstances hm
  have hdepth : m.depth + 2 ≤ m.limits.maxCallDepth := by
    unfold Machine.room at hroom
    omega
  have hinside : 1 ≤ Machine.room { m with depth := m.depth + 1 } := by
    unfold Machine.room
    dsimp only
    omega
  obtain ⟨enough, r, hr, hcompleted⟩ := takes_lines (m := { m with depth := m.depth + 1 })
    hwell hbuiltin hargs (.refl m.heap) hinside
  cases hcompleted with
  | tooDeep hnone => exact absurd hnone (Nat.not_lt_zero _)
  | @ok text m₁ _ hgain htext =>
    have hsend : ∀ fuel, enough + 1 ≤ fuel → (Run.engine fuel).send receiver "puts" args m =
        Action.writeAndReturn (m.heap.putsText args) { m₁ with depth := m₁.depth - 1 } := by
      intro fuel hfuel
      obtain ⟨fuel, rfl⟩ : ∃ n, fuel = n + 1 := ⟨fuel - 1, by omega⟩
      have hbody : Objects.puts (Run.engine fuel) args { m with depth := m.depth + 1 } =
          Action.writeAndReturn (m.heap.putsText args) m₁ := by
        rw [Objects.puts_of_lines (hr fuel (by omega)), htext, Heap.putsText]
        simp only [List.isEmpty_iff]
      exact (send_native hputs rfl fuel).trans (Action.nested_writeAndReturn (by omega) hbody)
    refine ⟨enough + 1, { m₁ with depth := m₁.depth - 1 }, hgain.leave, hsend, fun hfits =>
      ⟨Sink.bytes_accept_of_fits hfits, fun fuel hfuel => ?_⟩⟩
    have hout : m₁.out = m.out := by rw [hgain.rest]
    rw [hsend fuel hfuel, Action.writeAndReturn_eq, if_pos (hout ▸ hfits), ← hout]

/-- A script that makes an array of the string `"a"`, the array itself, the symbol `:b` and a string that
ends with a line feed, and another array that is empty. -/
def nestScript : Record where
  literals := ["a", "c\n"]
  symbols := ["b"]
  code :=
    { placed :=
        #[⟨0, { op := .array, a := 1, b := 0 }⟩, ⟨3, { op := .string, a := 2, b := 0 }⟩,
          ⟨6, { op := .move, a := 3, b := 1 }⟩, ⟨9, { op := .loadSym, a := 4, b := 0 }⟩,
          ⟨12, { op := .string, a := 5, b := 1 }⟩, ⟨15, { op := .arrayPush, a := 1, b := 4 }⟩,
          ⟨18, { op := .array, a := 2, b := 0 }⟩]
      size := 21 }

/-- The machine that the script leaves behind. -/
@[irreducible] def afterNestScript : Machine :=
  (Run.image 20 { (default : Image) with records := [nestScript] }).leaves Boot.machine

theorem visited_afterNestScript : afterNestScript.Visited := by
  have hends : (Run.image 20 { (default : Image) with records := [nestScript] }).Ends
      Boot.machine := .of_succeeds (by decide +kernel)
  unfold afterNestScript
  exact .resting (.executed (.boot {} {} {}) 20 _ hends)

/-- The arrays have the handles 18 and 22. -/
theorem putsText_afterNestScript :
    afterNestScript.heap.putsText [⟨18⟩, ⟨22⟩, Handle.nil] = "a\n[...]\nb\nc\n\n\n" := by
  obtain ⟨hloop, hempty, ⟨ha, hatext⟩, ⟨hb, hbtext⟩, ⟨hc, hctext⟩, hnil, hniltext⟩ :
      (afterNestScript.heap.get ⟨18⟩).array? = some #[⟨19⟩, ⟨18⟩, ⟨20⟩, ⟨21⟩] ∧
      (afterNestScript.heap.get ⟨22⟩).array? = some #[] ∧
      ((afterNestScript.heap.get ⟨19⟩).array? = none ∧
        (afterNestScript.heap.get ⟨19⟩).payload.toText ⟨19⟩ = "a") ∧
      ((afterNestScript.heap.get ⟨20⟩).array? = none ∧
        (afterNestScript.heap.get ⟨20⟩).payload.toText ⟨20⟩ = "b") ∧
      ((afterNestScript.heap.get ⟨21⟩).array? = none ∧
        (afterNestScript.heap.get ⟨21⟩).payload.toText ⟨21⟩ = "c\n") ∧
      (afterNestScript.heap.get Handle.nil).array? = none ∧
        (afterNestScript.heap.get Handle.nil).payload.toText Handle.nil = "" := by decide +kernel
  have hagain : afterNestScript.heap.flattened [⟨18⟩] ⟨18⟩ = "[...]\n" := by
    rw [Heap.flattened_array hloop, if_pos (by decide)]
  have hfirst : afterNestScript.heap.flattened [] ⟨18⟩ = "a\n[...]\nb\nc\n" := by
    rw [Heap.flattened_array hloop, if_neg (by decide)]
    simp only [List.map_cons, List.map_nil, hagain, Heap.flattened_leaf ha hatext,
      Heap.flattened_leaf hb hbtext, Heap.flattened_leaf hc hctext]
    decide
  have hsecond : afterNestScript.heap.flattened [] ⟨22⟩ = "" := by
    rw [Heap.flattened_array hempty, if_neg (by decide)]
    rfl
  have hthird : afterNestScript.heap.flattened [] Handle.nil = "\n" := by
    rw [Heap.flattened_leaf hnil hniltext]
    decide
  unfold Heap.putsText
  simp only [List.map_cons, List.map_nil, Heap.argumentLines, hfirst, hsecond, hthird]
  decide

/-- The text that ends with a line feed is given no second one.  The empty array makes an empty line, as
`nil` does. -/
theorem puts_flattened_afterNestScript :
    afterNestScript.Visited ∧
    (∀ h ∈ [⟨18⟩, ⟨22⟩, Handle.nil], afterNestScript.Flattenable h) ∧ 2 ≤ afterNestScript.room ∧
    ∃ enough m₁ sink, afterNestScript.Gains m₁ ∧
      sink = afterNestScript.out.accept "a\n[...]\nb\nc\n\n\n" ∧
      sink.bytes = Utf8.encode "a\n[...]\nb\nc\n\n\n" ∧
      ∀ fuel, enough ≤ fuel →
        (Run.engine fuel).send Handle.mainObject "puts" [⟨18⟩, ⟨22⟩, Handle.nil] afterNestScript =
          .ok Handle.nil { m₁ with out := sink } := by
  obtain ⟨hclosed, hparts, hkeeps, hclass, hroom, hout, hfits⟩ :
      (∀ x ∈ [⟨18⟩, ⟨19⟩, ⟨20⟩, ⟨21⟩, ⟨22⟩, Handle.nil],
        (afterNestScript.object x).payload.parts ⊆ [⟨18⟩, ⟨19⟩, ⟨20⟩, ⟨21⟩, ⟨22⟩, Handle.nil]) ∧
      (∀ x ∈ [⟨18⟩, ⟨19⟩, ⟨20⟩, ⟨21⟩, ⟨22⟩, Handle.nil],
        afterNestScript.IsOneOf Machine.lineClasses x ∧
          ((afterNestScript.object x).array? = none → afterNestScript.KeepsBuiltin "to_s" x)) ∧
      afterNestScript.KeepsBuiltin "puts" Handle.mainObject ∧
      afterNestScript.classOf Handle.mainObject = Handle.objectClass ∧
      2 ≤ afterNestScript.room ∧ afterNestScript.out.bytes = [] ∧
      afterNestScript.out.fits "a\n[...]\nb\nc\n\n\n" = true := by decide +kernel
  have hargs : ∀ h ∈ [⟨18⟩, ⟨22⟩, Handle.nil], afterNestScript.Flattenable h := by
    intro h hh x hx
    have hsub : [⟨18⟩, ⟨22⟩, Handle.nil] ⊆ [⟨18⟩, ⟨19⟩, ⟨20⟩, ⟨21⟩, ⟨22⟩, Handle.nil] := by decide
    exact hparts x (Machine.mem_of_reached hclosed (hsub hh) hx)
  have hmethod : Machine.builtinMethod? (afterNestScript.classOf Handle.mainObject) "puts" =
      some (Catalogue.variadic "puts" (.ofObject .puts)) := by
    rw [hclass]
    decide +kernel
  obtain ⟨enough, m₁, hgain, _, hwritten⟩ := puts_flattened afterNestScript visited_afterNestScript
    Handle.mainObject _ (hkeeps.lookupMethod_eq hmethod) [⟨18⟩, ⟨22⟩, Handle.nil] hargs hroom
  rw [putsText_afterNestScript] at hwritten
  obtain ⟨hbytes, hrun⟩ := hwritten hfits
  rw [hout, List.nil_append] at hbytes
  exact ⟨visited_afterNestScript, hargs, hroom, enough, m₁, _, hgain, rfl, hbytes, hrun⟩

end Rite
