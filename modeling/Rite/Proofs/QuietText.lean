import Rite.Proofs.ForwardCode

/-!
# Turning objects into text

In a tame heap the methods `to_s` and `inspect` are builtin or read an instance variable.  They send
each other to the parts of an object, one call deeper each time, so the limit on calls brings them to
an end whatever cycles the objects form (`settles_textBy`).  They make strings and leave all arrays
alone.

That is what the lines of an array rest on.  They are found by going down into the arrays that are
items of arrays, without a call and hence without a limit; what ends it is that no array is entered
twice on one path, and that the arrays are the same all the time (`settles_linesWithin`).
-/

namespace Rite

/-- How many more calls can be nested. -/
def Machine.room (m : Machine) : Nat := m.limits.maxCallDepth - m.depth

theorem Machine.SameNesting.room {m m₁ : Machine} (h : m.SameNesting m₁) : m₁.room = m.room := by
  unfold Machine.room
  rw [h.depth, h.limits]

/-- A call takes away room. -/
theorem Machine.room_deeper {m : Machine} (h : m.depth < m.limits.maxCallDepth) :
    Machine.room { m with depth := m.depth + 1 } < m.room := by
  unfold Machine.room
  dsimp only
  omega

/-- A tame heap that holds these arrays and no others. -/
structure Heap.Quiet (arrays : Handle → Option (Array Handle)) (heap : Heap) : Prop where
  tame : heap.Tame
  arrays : ∀ h, (heap.get h).array? = arrays h

namespace Heap.Quiet

variable {arrays : Handle → Option (Array Handle)} {heap : Heap}

theorem of_tame (h : heap.Tame) : heap.Quiet fun x => (heap.get x).array? := ⟨h, fun _ => rfl⟩

theorem pushString (hheap : heap.Quiet arrays) (c : Handle) (text : String) :
    (heap.push { isa := c, payload := .string text }).Quiet arrays := by
  refine ⟨hheap.tame.push trivial, fun h => ?_⟩
  rw [← hheap.arrays, Heap.get_push]
  split
  · next hlast =>
    rw [Heap.get_of_size_le _ (Nat.le_of_eq hlast.symm)]
    rfl
  · rfl

theorem setIvar (hheap : heap.Quiet arrays) (h : Handle) (name : String) (value : Handle) :
    (heap.modify h (·.setIvar name value)).Quiet arrays := by
  refine ⟨hheap.tame.modify fun _ ho => ho, fun x => ?_⟩
  rw [← hheap.arrays, Heap.get_modify]
  split
  · next heq =>
    rw [heq.1]
    rfl
  · rfl

end Heap.Quiet

/-- A call takes one unit of fuel for itself. -/
theorem settles_call {I : Heap → Prop} {m : Machine} {V : Handle → Prop} {receiver : Handle}
    {found : Found} {name : String} {args : List Handle}
    (h : m.depth < m.limits.maxCallDepth →
      Settles I (fun fuel => found.body (Run.engine fuel) receiver name args)
        { m with depth := m.depth + 1 } V) :
    Settles I (fun fuel => Run.call fuel receiver found name args) m V := by
  refine (Settles.nested h).delay 1 fun fuel hfuel => ?_
  obtain ⟨fuel, rfl⟩ : ∃ n, fuel = n + 1 := ⟨fuel - 1, by omega⟩
  rw [Run.call]
  rfl

/-- A message is sent by looking the method up and calling it. -/
theorem settles_send {I : Heap → Prop} {m : Machine} {V : Handle → Prop} {receiver : Handle}
    {name : String} {args : List Handle}
    (h : ∀ found, m.lookupMethod receiver name = .ok found → m.depth < m.limits.maxCallDepth →
      Settles I (fun fuel => found.body (Run.engine fuel) receiver name args)
        { m with depth := m.depth + 1 } V) :
    Settles I (fun fuel => (Run.engine fuel).send receiver name args) m V :=
  .demand fun found hfound => settles_call (h found hfound)

section Texts

variable {arrays : Handle → Option (Array Handle)} {m : Machine} {bound : Nat}

/-- With room for `bound` more calls, objects can be turned into text. -/
def TextsSettle (bound : Nat) : Prop :=
  ∀ (arrays : Handle → Option (Array Handle)) (m : Machine), m.heap.Quiet arrays →
    m.room ≤ bound → ∀ name ∈ textMethods, ∀ h,
      Settles (Heap.Quiet arrays) (fun fuel => (Run.engine fuel).textBy name h) m Anything

theorem settles_newString (hm : m.heap.Quiet arrays) (text : String) :
    Settles (Heap.Quiet arrays) (fun _ => Action.newString text) m Anything :=
  .allocate (hm.pushString _ text)

theorem settles_inspectGuarded (hm : m.heap.Quiet arrays) (hroom : m.room ≤ bound)
    {a : Nat → Action String} (receiver : Handle) (ellipsis : String)
    (ha : ∀ m₁ : Machine, m₁.heap.Quiet arrays → m₁.room ≤ bound →
      Settles (Heap.Quiet arrays) a m₁ Anything) :
    Settles (Heap.Quiet arrays) (fun fuel => Action.inspectGuarded receiver ellipsis (a fuel)) m
      Anything := by
  unfold Action.inspectGuarded
  refine .ask ?_
  cases m.inspecting.contains receiver
  · simp only [Bool.false_eq_true, if_false]
    refine .bind (.inspecting (ha _ hm hroom)) fun text m₁ hm₁ _ _ => settles_newString hm₁ text
  · simp only [if_true]
    exact settles_newString hm ellipsis

namespace TextsSettle

variable (htexts : TextsSettle bound) (hm : m.heap.Quiet arrays) (hroom : m.room ≤ bound)

include htexts hm hroom

theorem inspect (h : Handle) :
    Settles (Heap.Quiet arrays) (fun fuel => (Run.engine fuel).inspect h) m Anything :=
  htexts arrays m hm hroom "inspect" (by decide) h

theorem objectInspect (receiver : Handle) :
    Settles (Heap.Quiet arrays) (fun fuel => Objects.inspect (Run.engine fuel) receiver) m
      Anything := by
  unfold Objects.inspect
  refine .ask (.ask ?_)
  split
  · exact .ask (settles_newString hm _)
  · refine .bind (V := Anything) (.mapM (V := Anything) hm fun ivar _ m₁ hm₁ hsame => ?_) ?_
    · refine .bind (htexts.inspect hm₁ (hsame.room ▸ hroom) ivar.2) fun text m₂ hm₂ _ _ => ?_
      exact .pure hm₂ trivial
    · exact fun parts m₁ hm₁ _ _ => .ask (settles_newString hm₁ _)

theorem arrayInspect (receiver : Handle) :
    Settles (Heap.Quiet arrays) (fun fuel => Arrays.inspect (Run.engine fuel) receiver) m
      Anything := by
  unfold Arrays.inspect
  refine .demand fun items _ => settles_inspectGuarded hm hroom receiver _ fun m₁ hm₁ hroom₁ => ?_
  refine .bind (V := Anything) (.mapM (V := Anything) hm₁ fun item _ m₂ hm₂ hsame => ?_) ?_
  · exact htexts.inspect hm₂ (hsame.room ▸ hroom₁) item
  · exact fun parts m₂ hm₂ _ _ => .pure hm₂ trivial

theorem hashInspect (receiver : Handle) :
    Settles (Heap.Quiet arrays) (fun fuel => Hashes.inspect (Run.engine fuel) receiver) m
      Anything := by
  unfold Hashes.inspect
  refine .demand fun pairs _ => settles_inspectGuarded hm hroom receiver _ fun m₁ hm₁ hroom₁ => ?_
  refine .bind (V := Anything) (.mapM (V := Anything) hm₁ fun pair _ m₂ hm₂ hsame => ?_) ?_
  · have hroom₂ : m₂.room ≤ bound := hsame.room ▸ hroom₁
    refine .bind (htexts.inspect hm₂ hroom₂ pair.1) fun key m₃ hm₃ hsame₃ _ => ?_
    refine .bind (htexts.inspect hm₃ (hsame₃.room ▸ hroom₂) pair.2) fun value m₄ hm₄ _ _ => ?_
    exact .pure hm₄ trivial
  · exact fun parts m₂ hm₂ _ _ => .pure hm₂ trivial

theorem rangeRendered {name : String} (hname : name ∈ textMethods) (receiver : Handle) :
    Settles (Heap.Quiet arrays)
      (fun fuel => Ranges.rendered ((Run.engine fuel).textBy name) receiver) m Anything := by
  unfold Ranges.rendered
  refine .demand fun bounds _ => ?_
  obtain ⟨first, last, exclusive⟩ := bounds
  refine .bind (htexts arrays m hm hroom name hname first) fun a m₁ hm₁ hsame _ => ?_
  refine .bind (htexts arrays m₁ hm₁ (hsame.room ▸ hroom) name hname last) fun b m₂ hm₂ _ _ => ?_
  exact settles_newString hm₂ _

/-- The quiet builtin methods. -/
theorem perform {op : Primitive} (hop : op.isQuiet = true) (receiver : Handle)
    (args : List Handle) :
    Settles (Heap.Quiet arrays) (fun fuel => op.perform (Run.engine fuel) receiver args) m
      Anything := by
  unfold Primitive.isQuiet at hop
  split at hop
  · exact settles_newString hm _
  · exact htexts.objectInspect hm hroom receiver
  · exact .ask (settles_newString hm _)
  · exact .demand fun info _ => settles_newString hm _
  · exact .demand fun value _ => settles_newString hm _
  · exact .bind (.discard (.demanded hm)) fun _ _ hm₁ _ _ => .pure hm₁ trivial
  · exact .demand fun text _ => settles_newString hm _
  · exact .demand fun name _ => settles_newString hm _
  · exact .demand fun name _ => settles_newString hm _
  · exact htexts.arrayInspect hm hroom receiver
  · exact htexts.hashInspect hm hroom receiver
  · exact htexts.rangeRendered hm hroom (by decide) receiver
  · exact htexts.rangeRendered hm hroom (by decide) receiver
  · cases hop

/-- The methods that stand under the two names. -/
theorem body {found : Found} {name : String} (hname : name ∈ textMethods)
    (hfound : found.method.Tame name) (receiver : Handle) (args : List Handle) :
    Settles (Heap.Quiet arrays) (fun fuel => found.body (Run.engine fuel) receiver name args) m
      Anything := by
  unfold Found.body
  cases hmethod : found.method with
  | native builtin =>
    rw [hmethod] at hfound
    refine .bind (.checkArity hm builtin.arity args.length) fun _ m₁ hm₁ hsame _ => ?_
    exact htexts.perform hm₁ (hsame.room ▸ hroom) (hfound hname) receiver args
  | bytecode record =>
    -- This is where the names that records may define matter.
    rw [hmethod] at hfound
    exact absurd hname hfound.2
  | attrReader ivar =>
    exact .bind (.checkArity hm _ args.length) fun _ _ hm₁ _ _ => .asked hm₁ trivial
  | attrWriter ivar =>
    refine .bind (.checkArity hm _ args.length) fun _ m₁ hm₁ _ _ => .argument fun value => ?_
    exact .bind (.changeObject (hm₁.setIvar _ _ _)) fun _ _ hm₂ _ _ => .pure hm₂ trivial

end TextsSettle

/-- The induction is on the room for calls, which every call diminishes. -/
theorem textsSettle (bound : Nat) : TextsSettle bound := by
  induction bound using Nat.strong_induction_on with
  | _ bound ih =>
    intro arrays m hm hroom name hname h
    refine .bind (V := Anything) (settles_send fun found hfound hlt => ?_) fun _ _ hm₁ _ _ =>
      .asked hm₁ trivial
    have hdeeper := Machine.room_deeper hlt
    exact (ih _ (by omega)).body (m := { m with depth := m.depth + 1 }) hm (Nat.le_refl _) hname
      (Machine.tame_of_lookupMethod hm.tame hfound) h []

/-- **Every object can be turned into text.** -/
theorem settles_textBy (hm : m.heap.Quiet arrays) {name : String} (hname : name ∈ textMethods)
    (h : Handle) :
    Settles (Heap.Quiet arrays) (fun fuel => (Run.engine fuel).textBy name h) m Anything :=
  textsSettle m.room arrays m hm (Nat.le_refl _) name hname h

end Texts

/-! ## Lines -/

section Lines

variable {arrays : Handle → Option (Array Handle)} {m : Machine}

/-- Different handles below a bound are no more than the bound. -/
theorem Handle.length_le_of_nodup {row : List Handle} {bound : Nat} (hnodup : row.Nodup)
    (hrow : ∀ x ∈ row, x.index < bound) : row.length ≤ bound := by
  have hinjective : Function.Injective Handle.index := fun x y h => by
    cases x
    cases y
    simpa using h
  have hsub : row.map Handle.index ⊆ List.range bound := by
    intro i hi
    obtain ⟨x, hx, rfl⟩ := List.mem_map.mp hi
    exact List.mem_range.mpr (hrow x hx)
  have hle := ((List.nodup_map_iff hinjective).mpr hnodup).subperm hsub |>.length_le
  simpa using hle

/-- The lines of `h` take a round for each array on the path and one more.  The arrays on the path are
different from each other, so there are no more than `bound` of them. -/
theorem settles_linesWithin {bound : Nat} (hbound : ∀ x, (arrays x).isSome → x.index < bound)
    {path : List Handle} (hnodup : path.Nodup) (hpath : ∀ x ∈ path, x.index < bound) (h : Handle)
    (hm : m.heap.Quiet arrays) :
    Settles (Heap.Quiet arrays)
      (fun fuel => Objects.linesWithin (Run.engine fuel) (fuel - path.length) path h) m Anything := by
  induction hleft : bound - path.length using Nat.strong_induction_on generalizing path h m with
  | _ left ih =>
    refine Settles.round (b := fun fuel rounds =>
      Objects.linesWithin (Run.engine fuel) rounds path h) ?_
    simp only [Objects.linesWithin]
    refine .ask ?_
    cases hitems : (m.object h).array? with
    | none =>
      exact .bind (settles_textBy hm (by decide) h) fun _ _ hm₁ _ _ => .pure hm₁ trivial
    | some items =>
      dsimp only
      by_cases hseen : path.contains h = true
      · simp only [hseen, if_true]
        exact .pure hm trivial
      · simp only [hseen]
        -- The path grows by an array that was not on it, so fewer arrays are left to enter.
        have harray : (arrays h).isSome := by
          rw [← hm.arrays, show (m.heap.get h).array? = some items from hitems]
          rfl
        have hfresh : (h :: path).Nodup := List.nodup_cons.mpr ⟨by simpa using hseen, hnodup⟩
        have hindices : ∀ x ∈ h :: path, x.index < bound :=
          List.forall_mem_cons.mpr ⟨hbound h harray, hpath⟩
        have hlength : path.length + 1 ≤ bound := Handle.length_le_of_nodup hfresh hindices
        refine .foldlM (V := Anything) hm "" fun text item _ m₁ hm₁ _ => ?_
        refine .bind (V := Anything) ?_ fun _ _ hm₂ _ _ => .pure hm₂ trivial
        exact ih (bound - (path.length + 1)) (by omega) hfresh hindices item hm₁ rfl

/-- **The lines of any object are found**, whatever arrays contain each other. -/
theorem settles_lines (hm : m.heap.Quiet arrays) (h : Handle) :
    Settles (Heap.Quiet arrays) (fun fuel => Objects.lines (Run.engine fuel) h) m Anything := by
  have hbound : ∀ x, (arrays x).isSome → x.index < m.heap.size := by
    intro x hx
    by_contra hge
    rw [← hm.arrays, Heap.get_of_size_le _ (Nat.le_of_not_lt hge)] at hx
    cases hx
  have hpath : ∀ x ∈ ([] : List Handle), x.index < m.heap.size := fun _ hx => nomatch hx
  refine .bind (settles_linesWithin hbound List.nodup_nil hpath h hm) fun _ _ hm₁ _ _ => ?_
  exact .pure hm₁ trivial

end Lines

end Rite
