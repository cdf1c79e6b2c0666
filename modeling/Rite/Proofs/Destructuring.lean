import Rite.Proofs.Additions
import Rite.Proofs.Shorthands

/-!
# Taking arrays apart

An assignment to several variables of which one takes what the others leave is compiled to an
instruction that splits a row of items: so many are passed over in front, so many go to registers of
their own, and what lies between makes a new array.  If there are too few items, the registers take all
there are and are filled up with `nil`.

Nothing gets lost in this: the new array and the registers together are the items that were not passed
over (`Destructures`).  The registers are counted in words of 16 bits, and as many of them are written
as a word can count at most, so none of them is written twice, even where counting wraps around.
-/

namespace Rite

/-! ## Rows of items -/

/-- The object `h` is read as a row: an array as its items, `nil` as no items and anything else as the
only item. -/
inductive Machine.ReadsAs (m : Machine) : Handle → List Handle → Prop
  | array {h : Handle} {items : Array Handle} (hread : (m.object h).array? = some items) :
      ReadsAs m h items.toList
  | nil (hread : (m.object Handle.nil).array? = none) : ReadsAs m Handle.nil []
  | single {h : Handle} (hread : (m.object h).array? = none) (hne : h ≠ Handle.nil) :
      ReadsAs m h [h]

theorem Machine.readsAs_splat (m : Machine) (h : Handle) : m.ReadsAs h (m.splat h) := by
  unfold splat
  split
  · next hread => exact .array hread
  · next hread =>
    split
    · next hnil =>
      subst hnil
      exact .nil hread
    · next hne => exact .single hread hne

/-- The items behind the first `pre` are shared out to `rest` and `tail`, of which `tail` gets `post`. -/
structure Destructures (items rest tail : List Handle) (pre post : Nat) : Prop where
  count : tail.length = post
  whole : rest ++ tail =
    items.drop pre ++ List.replicate (post - (items.drop pre).length) Handle.nil
  short : items.length ≤ pre + post → rest = []

theorem Step.destructures_splitPost (items : List Handle) (pre post : Nat) :
    Destructures items (splitPost items pre post).1 (splitPost items pre post).2 pre post := by
  have hlength : (items.drop pre).length = items.length - pre := List.length_drop
  unfold splitPost
  dsimp only
  split
  · next hmore =>
    refine ⟨?_, ?_, fun hshort => by omega⟩
    · rw [List.length_drop]
      omega
    · rw [List.take_append_drop, Nat.sub_eq_zero_of_le (Nat.le_of_lt hmore), List.replicate_zero,
        List.append_nil]
  · next hfew =>
    refine ⟨?_, List.nil_append _, fun _ => rfl⟩
    rw [List.length_append, List.length_replicate]
    omega

/-! ## Rows of registers -/

namespace Frame

variable {f : Frame} {first r : UInt16} {values : List Handle}

/-- The frame with `values` in the registers from `first` on. -/
def setAll (f : Frame) (first : UInt16) : List Handle → Frame
  | [] => f
  | value :: values => (f.set first value).setAll (first + 1) values

theorem next_add_ofNat (first : UInt16) (i : Nat) :
    first + 1 + UInt16.ofNat i = first + UInt16.ofNat (i + 1) := by
  rw [UInt16.add_assoc, UInt16.add_comm 1, UInt16.ofNat_add]
  rfl

/-- Counting on from a register does not come back to it too soon. -/
theorem add_ofNat_ne (first : UInt16) {i : Nat} (hpos : 0 < i) (hi : i < 2 ^ 16) :
    first + UInt16.ofNat i ≠ first := by
  intro h
  have htoNat := congrArg UInt16.toNat h
  have hfirst := first.toNat_lt
  rw [UInt16.toNat_add, UInt16.toNat_ofNat'] at htoNat
  omega

theorem setAll_eq (f : Frame) (first : UInt16) (values : List Handle) :
    f.setAll first values = { f with registers := (f.setAll first values).registers } := by
  induction values generalizing f first with
  | nil => rfl
  | cons value values ih =>
    rw [setAll, ih]
    rfl

theorem get_setAll_of_ne (h : ∀ i < values.length, first + UInt16.ofNat i ≠ r) :
    (f.setAll first values).get r = f.get r := by
  induction values generalizing f first with
  | nil => rfl
  | cons value values ih =>
    have hfirst : r ≠ first := by simpa [eq_comm] using h 0 (by simp)
    rw [setAll, ih, get_set, if_neg hfirst]
    intro i hi
    rw [next_add_ofNat]
    exact h (i + 1) (by simpa using hi)

theorem get_setAll {i : Nat} {value : Handle} (hlength : values.length ≤ 2 ^ 16)
    (hvalue : values[i]? = some value) :
    (f.setAll first values).get (first + UInt16.ofNat i) = value := by
  induction values generalizing f first i with
  | nil => simp at hvalue
  | cons head values ih =>
    rw [List.length_cons] at hlength
    rw [setAll]
    cases i with
    | zero =>
      -- The registers behind the first one are others, for there are not too many.
      have hbehind : ∀ j < values.length, first + 1 + UInt16.ofNat j ≠ first := by
        intro j hj
        rw [next_add_ofNat]
        exact add_ofNat_ne first (Nat.succ_pos j) (by omega)
      rw [show first + UInt16.ofNat 0 = first by simp, get_setAll_of_ne hbehind, get_set_self]
      exact Option.some.inj hvalue
    | succ i =>
      rw [← next_add_ofNat]
      exact ih (by omega) hvalue

theorem span_setAll {count : UInt16} (hcount : values.length = count.toNat) :
    (f.setAll first values).span first count = values := by
  have hfew : values.length ≤ 2 ^ 16 := hcount ▸ Nat.le_of_lt count.toNat_lt
  refine List.ext_getElem (by simp [span, hcount]) fun i _ hi => ?_
  simp only [span, List.getElem_map, List.getElem_range]
  exact get_setAll hfew (List.getElem?_eq_getElem hi)

end Frame

/-! ## The instruction -/

namespace Step

theorem writeAll_eq (f : Frame) (m : Machine) (first : UInt16) (values : List Handle) :
    writeAll first values ⟨f, m⟩ = .ok () ⟨f.setAll first values, m⟩ := by
  induction values generalizing f first with
  | nil => rfl
  | cons value values ih => exact ih (f.set first value) (first + 1)

end Step

/-- The machine with one more array. -/
def Machine.withArray (m : Machine) (items : List Handle) : Machine :=
  { m with heap := m.heap.push { isa := Handle.arrayClass, payload := .array items.toArray } }

theorem Step.take_arrayPost (e : Engine) (offset : Nat) (f : Frame) (m : Machine) (a b c : UInt16)
    {rest tail : List Handle}
    (hsplit : splitPost (m.splat (f.get a)) b.toNat c.toNat = (rest, tail)) :
    take e ⟨offset, { op := .arrayPost, a, b, c }⟩ ⟨f, m⟩ =
      .ok .next ⟨(f.set a m.heap.next).setAll (a + 1) tail, m.withArray rest⟩ := by
  have hexecute : arrayPost { op := .arrayPost, a, b, c } ⟨f, m⟩ =
      .ok () ⟨(f.set a m.heap.next).setAll (a + 1) tail, m.withArray rest⟩ := by
    have hread : read a ⟨f, m⟩ = .ok (f.get a) ⟨f, m⟩ := rfl
    have hask : act (Action.ask (·.splat (f.get a))) ⟨f, m⟩ = .ok (m.splat (f.get a)) ⟨f, m⟩ := rfl
    have hwrite : writeResult a (Action.newArray rest) ⟨f, m⟩ =
        .ok () ⟨f.set a m.heap.next, m.withArray rest⟩ := rfl
    unfold arrayPost
    rw [carryOn_of_ok hread, carryOn_of_ok hask]
    dsimp only
    rw [hsplit]
    dsimp only
    rw [carryOn_of_ok hwrite, writeAll_eq]
  exact carryOn_of_ok hexecute

/-- **Taking a row apart loses nothing.**  The instruction always succeeds.  Register `a` then holds a
new array, and that array and the `c` registers behind it share out the items that were there behind the
first `b`, filled up with `nil` if they are fewer than `c`.  All other registers and all objects that
there were, the array that was taken apart among them, are as they were. -/
theorem post_destructures (e : Engine) (offset : Nat) (f : Frame) (m : Machine) (a b c : UInt16) :
    ∃ items f₁ m₁ rest, m.ReadsAs (f.get a) items ∧
      Step.take e ⟨offset, { op := .arrayPost, a, b, c }⟩ ⟨f, m⟩ = .ok .next ⟨f₁, m₁⟩ ∧
      Destructures items rest (f₁.span (a + 1) c) b.toNat c.toNat ∧
      (¬ m.Valid (f₁.get a) ∧ m₁.object (f₁.get a) =
        { isa := Handle.arrayClass, payload := .array rest.toArray }) ∧
      m.Gains m₁ ∧ m₁.heap.size = m.heap.size + 1 ∧
      f₁ = { f with registers := f₁.registers } ∧
      ∀ r, (∀ i ≤ c.toNat, a + UInt16.ofNat i ≠ r) → f₁.get r = f.get r := by
  have hdestructures := Step.destructures_splitPost (m.splat (f.get a)) b.toNat c.toNat
  rcases hsplit : Step.splitPost (m.splat (f.get a)) b.toNat c.toNat with ⟨rest, tail⟩
  rw [hsplit] at hdestructures
  have hcount : tail.length = c.toNat := hdestructures.count
  have hnew : ((f.set a m.heap.next).setAll (a + 1) tail).get a = m.heap.next := by
    rw [Frame.get_setAll_of_ne fun i hi => ?_, Frame.get_set_self]
    rw [Frame.next_add_ofNat]
    have hc := c.toNat_lt
    exact Frame.add_ofNat_ne a (Nat.succ_pos i) (by omega)
  refine ⟨_, _, _, rest, m.readsAs_splat (f.get a), Step.take_arrayPost e offset f m a b c hsplit,
    ?_, ⟨?_, ?_⟩, .allocate m _, by simp [Machine.withArray], ?_, fun r hr => ?_⟩
  · rw [Frame.span_setAll hcount]
    exact hdestructures
  · rw [hnew]
    exact Nat.lt_irrefl _
  · rw [hnew]
    exact (m.heap.get_push _ _).trans (if_pos rfl)
  · rw [Frame.setAll_eq]
    rfl
  · have hne : r ≠ a := by simpa [eq_comm] using hr 0 (Nat.zero_le _)
    rw [Frame.get_setAll_of_ne fun i hi => ?_, Frame.get_set, if_neg hne]
    rw [Frame.next_add_ofNat]
    exact hr (i + 1) (by omega)

end Rite
