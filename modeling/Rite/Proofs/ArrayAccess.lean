import Mathlib.Algebra.Group.Nat.Defs
import Rite.Machine.Boot
import Rite.Proofs.FailedSteps
import Rite.Proofs.HeapInvariant

/-!
# Access to the items of arrays

An index counts from the start of an array or, if it is negative, from the end.  The two are told apart
in words of 64 bits, where counting from the end could go wrong; for rows of at most 2^63 items it does
not (`Items.place?_of_neg`), and an array that is written through an index never gets longer than that.

Beyond the end of an array, an index of 2^61 - 1 or more asks for a row that no memory can hold, and a
write with such an index breaks off (`Arrays.store_overruns`).  Every other one fills the gap.

Items are read and written by the methods `[]` and `[]=` and by two instructions of their own, which
know no negative indices.  `Items.Puts` says what a write makes of the row of items and
`Machine.Stores` what it makes of the machine, for both.
-/

namespace Rite

namespace Items

/-! ## Places -/

/-- Counting from the end does not leave the range of words. -/
theorem toInt_add_ofNat {size : Nat} (hsize : size ≤ 2 ^ 63) {index : Int64} (hi : index.toInt < 0) :
    (index + Int64.ofNat size).toInt = size + index.toInt := by
  have hlow := index.le_toInt
  have hwords : Int64.size = 2 ^ 64 := rfl
  rw [Int64.toInt_add, Int64.toInt_ofNat', hwords, Int.add_bmod_bmod, Int.add_comm]
  apply Int.bmod_eq_of_le <;> omega

theorem lt_zero_iff (index : Int64) : index < 0 ↔ index.toInt < 0 := Int64.lt_iff_toInt_lt

theorem place?_of_nonneg {index : Int64} (hi : 0 ≤ index.toInt) (size : Nat) :
    place? index size = some index.toInt.toNat := by
  have hpos : ¬ index < 0 := fun h => by
    have := (lt_zero_iff index).mp h
    omega
  unfold place?
  dsimp only
  rw [if_neg hpos, if_neg hpos]

theorem place?_of_neg {index : Int64} {size : Nat} (hsize : size ≤ 2 ^ 63) (hi : index.toInt < 0) :
    place? index size =
      if index.toInt < -size then none else some (size + index.toInt).toNat := by
  have hplace := toInt_add_ofNat hsize hi
  have hbefore : index + Int64.ofNat size < 0 ↔ index.toInt < -size := by
    rw [lt_zero_iff, hplace]
    omega
  unfold place?
  dsimp only
  rw [if_pos ((lt_zero_iff index).mpr hi), hplace]
  simp only [hbefore]

/-- The place that an index means in a row of `size` items. -/
def Means (index : Int64) (size place : Nat) : Prop :=
  (place : Int) = if 0 ≤ index.toInt then index.toInt else size + index.toInt

variable {index : Int64} {size place : Nat}

theorem exists_means (hi : -size ≤ index.toInt) : ∃ place, Means index size place := by
  unfold Means
  split
  · exact ⟨index.toInt.toNat, by omega⟩
  · exact ⟨(size + index.toInt).toNat, by omega⟩

theorem Means.place?_eq (h : Means index size place) (hsize : size ≤ 2 ^ 63) :
    place? index size = some place := by
  unfold Means at h
  by_cases hi : 0 ≤ index.toInt
  · rw [if_pos hi] at h
    rw [place?_of_nonneg hi, ← h, Int.toNat_natCast]
  · rw [if_neg hi] at h
    rw [place?_of_neg hsize (by omega), if_neg (by omega), ← h, Int.toNat_natCast]

theorem Means.eq_of_toInt {i : Nat} (h : Means index size place) (hi : (i : Int) = index.toInt) :
    place = i := by
  have hnonneg : 0 ≤ index.toInt := by omega
  unfold Means at h
  rw [if_pos hnonneg] at h
  omega

theorem Means.lt (h : Means index size place) (hsize : size ≤ 2 ^ 63) : place < 2 ^ 63 := by
  have hhigh := index.toInt_lt
  unfold Means at h
  split at h <;> omega

/-- The place that an index means does not move when the row grows to reach it. -/
theorem Means.grown (h : Means index size place) : Means index (max size (place + 1)) place := by
  unfold Means at h ⊢
  split at h <;> split <;> omega

theorem place?_eq_none (hsize : size ≤ 2 ^ 63) (hi : index.toInt < -size) :
    place? index size = none := by
  rw [place?_of_neg hsize (by omega), if_pos hi]

/-! ## Rows -/

/-- A row of four bytes an item can have fewer than 2^61 items. -/
theorem growth_le_iff (size place : Nat) :
    growth size place ≤ largestPiece ↔ place < size ∨ place < 2 ^ 61 - 1 := by
  unfold growth Handle.storedBytes largestPiece
  split <;> omega

/-- What a write makes of a row of items. -/
structure Puts (items items₁ : Array Handle) (place : Nat) (value : Handle) : Prop where
  size : items₁.size = max items.size (place + 1)
  written : items₁[place]? = some value
  gap : ∀ i, items.size ≤ i → i < place → items₁[i]? = some Handle.nil
  kept : ∀ i, i < items.size → i ≠ place → items₁[i]? = items[i]?

theorem puts_put (items : Array Handle) (place : Nat) (value : Handle) :
    Puts items (put items place value) place value where
  size := size_put items place value
  written := by rw [getElem?_put, if_pos rfl]
  gap i hsize hplace := by rw [getElem?_put, if_neg (Nat.ne_of_lt hplace), if_pos ⟨hsize, hplace⟩]
  kept i hi hne := by rw [getElem?_put, if_neg hne, if_neg fun h => Nat.not_lt.mpr h.1 hi]

end Items

/-! ## Machines -/

theorem Object.mapItems_of_array? {o : Object} {items : Array Handle} (hitems : o.array? = some items)
    (f : Array Handle → Array Handle) :
    o.mapItems f = o.mapItems (fun _ => f items) ∧ (o.mapItems f).array? = some (f items) := by
  obtain ⟨isa, ivars, singleton, payload⟩ := o
  cases payload <;> cases hitems
  exact ⟨rfl, rfl⟩

namespace Machine

variable {m m₁ : Machine} {receiver value h : Handle} {items : Array Handle} {place : Nat}

/-- What a write to the array `receiver` makes of the machine. -/
structure Stores (m m₁ : Machine) (receiver : Handle) (items : Array Handle) (place : Nat)
    (value : Handle) : Prop where
  array : ∃ items₁, m₁.object receiver = (m.object receiver).mapItems (fun _ => items₁) ∧
    (m₁.object receiver).array? = some items₁ ∧ Items.Puts items items₁ place value
  others : ∀ x, x ≠ receiver → m₁.object x = m.object x
  size : m₁.heap.size = m.heap.size
  rest : m₁ = { m with heap := m₁.heap }

/-- The machine with `value` at a place of an array. -/
def store (m : Machine) (receiver : Handle) (place : Nat) (value : Handle) : Machine :=
  { m with heap := m.heap.modify receiver (·.mapItems (Items.put · place value)) }

theorem object_store_self (hitems : (m.object receiver).array? = some items) :
    (m.store receiver place value).object receiver =
        (m.object receiver).mapItems (fun _ => Items.put items place value) ∧
      ((m.store receiver place value).object receiver).array? = some (Items.put items place value) := by
  have hvalid := Heap.index_lt_of_array hitems
  have hget : (m.store receiver place value).object receiver =
      (m.object receiver).mapItems (Items.put · place value) :=
    (m.heap.get_modify receiver receiver _).trans (if_pos ⟨rfl, hvalid⟩)
  rw [hget]
  exact Object.mapItems_of_array? hitems _

theorem size_of_array? (hitems : (m.object receiver).array? = some items) :
    (m.array receiver).map (·.size) = .ok items.size := by
  unfold array
  rw [expect_of_some hitems]
  rfl

theorem object_store_of_ne (hx : h ≠ receiver) :
    (m.store receiver place value).object h = m.object h :=
  (m.heap.get_modify receiver h _).trans (if_neg fun hboth => hx hboth.1)

theorem ne_of_integer_of_array {index : Int64} (hindex : (m.object h).integer? = some index)
    (hitems : (m.object receiver).array? = some items) : h ≠ receiver := by
  rintro rfl
  unfold Object.integer? at hindex
  unfold Object.array? at hitems
  cases hpayload : (m.object h).payload <;> simp [hpayload] at hindex hitems

theorem stores_store (hitems : (m.object receiver).array? = some items) :
    m.Stores (m.store receiver place value) receiver items place value where
  array := ⟨_, (object_store_self hitems).1, (object_store_self hitems).2,
    Items.puts_put items place value⟩
  others _ hx := object_store_of_ne hx
  size := m.heap.size_modify receiver _
  rest := rfl

end Machine

/-! ## Methods -/

namespace Arrays

variable {m : Machine} {receiver h : Handle} {items : Array Handle} {index : Int64}

theorem fetch_eq (hitems : (m.object receiver).array? = some items)
    (hindex : (m.object h).integer? = some index) :
    fetch receiver [h] m =
      .ok ((Items.place? index items.size).elim Handle.nil (items.getD · Handle.nil)) m := by
  have hfirst : Action.argument [h] 0 m = .ok h m := rfl
  unfold fetch
  rw [carryOn_of_ok hfirst, Action.demand_bind_of_ok (Machine.expect_of_some hindex),
    Action.demand_bind_of_ok (Machine.expect_of_some hitems)]
  cases Items.place? index items.size <;> rfl

section Store

variable {place : Nat} (hitems : (m.object receiver).array? = some items)
  (hindex : (m.object h).integer? = some index) (value : Handle)

include hitems hindex

/-- What is asked for first is the index, then the value, then the array, and then the memory. -/
theorem store_eq :
    store receiver [h, value] m =
      ((Items.place? index items.size).elim
        (Action.fail (.indexOutOfRange "array" index.toInt items.size))
        fun place => do
          Action.reserve (Items.growth items.size place)
          Action.changeObject receiver (·.mapItems (Items.put · place value))
          return value) m := by
  have hfirst : Action.argument [h, value] 0 m = .ok h m := rfl
  have hsecond : Action.argument [h, value] 1 m = .ok value m := rfl
  unfold store
  rw [carryOn_of_ok hfirst, Action.demand_bind_of_ok (Machine.expect_of_some hindex),
    carryOn_of_ok hsecond, Action.demand_bind_of_ok (Machine.size_of_array? hitems)]
  cases Items.place? index items.size <;> rfl

theorem store_before (hplace : Items.place? index items.size = none) :
    store receiver [h, value] m =
      .error (.fault (.indexOutOfRange "array" index.toInt items.size)) m := by
  rw [store_eq hitems hindex, hplace]
  rfl

theorem store_of_le (hplace : Items.place? index items.size = some place)
    (hfits : Items.growth items.size place ≤ largestPiece) :
    store receiver [h, value] m = .ok value (m.store receiver place value) := by
  rw [store_eq hitems hindex, hplace, Option.elim_some, Action.reserve_of_le hfits]
  rfl

/-- A write that would need too long a row changes nothing and is not at fault: it breaks off. -/
theorem store_overruns (hplace : Items.place? index items.size = some place)
    (hbeyond : largestPiece < Items.growth items.size place) :
    store receiver [h, value] m = .error (.overrun ⟨_, hbeyond⟩) m := by
  rw [store_eq hitems hindex, hplace, Option.elim_some, Action.reserve_of_lt hbeyond]
  rfl

end Store

/-- What was written with an index is read with it. -/
theorem fetch_store {place : Nat} {value : Handle} (hitems : (m.object receiver).array? = some items)
    (hindex : (m.object h).integer? = some index) (hmeans : Items.Means index items.size place)
    (hsize : items.size ≤ 2 ^ 63) :
    fetch receiver [h] (m.store receiver place value) = .ok value (m.store receiver place value) := by
  have hkept : ((m.store receiver place value).object h).integer? = some index := by
    rw [Machine.object_store_of_ne (Machine.ne_of_integer_of_array hindex hitems)]
    exact hindex
  have hgrown : Items.Means index (Items.put items place value).size place := by
    rw [Items.size_put]
    exact hmeans.grown
  have hfits : (Items.put items place value).size ≤ 2 ^ 63 := by
    have hplace := hmeans.lt hsize
    rw [Items.size_put]
    omega
  rw [fetch_eq (Machine.object_store_self hitems).2 hkept, hgrown.place?_eq hfits, Option.elim_some,
    Items.getD_put, if_pos rfl]

end Arrays

/-! ## Instructions -/

namespace Step

variable (e : Engine) (offset : Nat) {f : Frame} {m : Machine} {a b c : UInt16} {items : Array Handle}

theorem take_arrayRef (hitems : (m.object (f.get b)).array? = some items) :
    take e ⟨offset, { op := .arrayRef, a, b, c }⟩ ⟨f, m⟩ =
      .ok .next ⟨f.set a (items.getD c.toNat Handle.nil), m⟩ := by
  have hask : act (Action.ask fun m => (m.object (f.get b)).array?) ⟨f, m⟩ =
      .ok (some items) ⟨f, m⟩ := by
    rw [← hitems]
    rfl
  have hexecute : arrayRef { op := .arrayRef, a, b, c } ⟨f, m⟩ =
      .ok () ⟨f.set a (items.getD c.toNat Handle.nil), m⟩ := by
    have hread : read b ⟨f, m⟩ = .ok (f.get b) ⟨f, m⟩ := rfl
    unfold arrayRef
    rw [carryOn_of_ok hread, carryOn_of_ok hask]
    rfl
  exact carryOn_of_ok hexecute

theorem take_arraySet (hitems : (m.object (f.get b)).array? = some items) :
    take e ⟨offset, { op := .arraySet, a, b, c }⟩ ⟨f, m⟩ =
      .ok .next ⟨f, m.store (f.get b) c.toNat (f.get a)⟩ := by
  have hexecute : arraySet { op := .arraySet, a, b, c } ⟨f, m⟩ =
      .ok () ⟨f, m.store (f.get b) c.toNat (f.get a)⟩ := by
    have hread : read a ⟨f, m⟩ = .ok (f.get a) ⟨f, m⟩ := rfl
    have htarget : read b ⟨f, m⟩ = .ok (f.get b) ⟨f, m⟩ := rfl
    have hcheck : discard (act (Action.demand fun m => (m.array (f.get b)).map (·.size))) ⟨f, m⟩ =
        .ok () ⟨f, m⟩ := carryOn_of_ok (demand_of_ok (Machine.size_of_array? hitems))
    unfold arraySet
    rw [carryOn_of_ok hread, carryOn_of_ok htarget, carryOn_of_ok hcheck]
    rfl
  exact carryOn_of_ok hexecute

end Step

open Arrays

/-- **Access to the items of an array.**  Writing is refused exactly if the index is before the start,
and changes nothing then.  Otherwise the index means a place.  If that is inside of the array or below
2^61 - 1, the value is put there, and reading with the same index finds it; if it is not, the row to be
made is longer than any piece of memory, and the write breaks off and changes nothing.  Reading finds
`nil` where there is no item.  The two instructions do the same as the methods do with their operand as
the index, and never break off.  The bound on the size is no restriction on what a machine can hold: an
array of 2^63 items does not fit into any memory. -/
theorem array_access_laws (e : Engine) (m : Machine) (receiver h value : Handle) (items : Array Handle)
    (index : Int64) (hitems : (m.object receiver).array? = some items)
    (hindex : (m.object h).integer? = some index) (hsize : items.size ≤ 2 ^ 63) :
    (index.toInt < -items.size →
      perform e .atPut receiver [h, value] m =
        .error (.fault (.indexOutOfRange "array" index.toInt items.size)) m ∧
      perform e .at receiver [h] m = .ok Handle.nil m) ∧
    (-items.size ≤ index.toInt → ∃ place, Items.Means index items.size place ∧
      perform e .at receiver [h] m = .ok (items.getD place Handle.nil) m ∧
      (place < items.size ∨ place < 2 ^ 61 - 1 → ∃ m₁,
        perform e .atPut receiver [h, value] m = .ok value m₁ ∧
        m.Stores m₁ receiver items place value ∧
        perform e .at receiver [h] m₁ = .ok value m₁) ∧
      (items.size ≤ place → 2 ^ 61 - 1 ≤ place → ∃ request,
        perform e .atPut receiver [h, value] m = .error (.overrun request) m) ∧
      ∀ (offset : Nat) (f : Frame) (a b c : UInt16), (c.toNat : Int) = index.toInt → f.get b = receiver →
        (f.get a = value → ∃ m₁, perform e .atPut receiver [h, value] m = .ok value m₁ ∧
          Step.take e ⟨offset, { op := .arraySet, a, b, c }⟩ ⟨f, m⟩ = .ok .next ⟨f, m₁⟩) ∧
        Step.take e ⟨offset, { op := .arrayRef, a, b, c }⟩ ⟨f, m⟩ =
          .ok .next ⟨f.set a (items.getD place Handle.nil), m⟩) := by
  have hfetch := fetch_eq hitems hindex
  refine ⟨fun hi => ?_, fun hi => ?_⟩
  · have hplace := Items.place?_eq_none hsize hi
    rw [hplace] at hfetch
    exact ⟨store_before hitems hindex value hplace, hfetch⟩
  · obtain ⟨place, hmeans⟩ := Items.exists_means hi
    have hplace := hmeans.place?_eq hsize
    rw [hplace] at hfetch
    have hstore : place < items.size ∨ place < 2 ^ 61 - 1 →
        store receiver [h, value] m = .ok value (m.store receiver place value) := fun hfits =>
      store_of_le hitems hindex value hplace ((Items.growth_le_iff _ _).mpr hfits)
    refine ⟨place, hmeans, hfetch, fun hfits => ?_, fun hend hfar => ?_, ?_⟩
    · exact ⟨m.store receiver place value, hstore hfits, Machine.stores_store hitems,
        fetch_store hitems hindex hmeans hsize⟩
    · have hbeyond : largestPiece < Items.growth items.size place := by
        rw [← Nat.not_le, Items.growth_le_iff]
        omega
      exact ⟨_, store_overruns hitems hindex value hplace hbeyond⟩
    · rintro offset f a b c hc rfl
      obtain rfl := hmeans.eq_of_toInt hc
      refine ⟨?_, Step.take_arrayRef e offset hitems⟩
      rintro rfl
      -- An operand has 16 bits, so its place is far below the bound.
      have hnear : c.toNat < 2 ^ 61 - 1 := Nat.lt_of_lt_of_le c.toNat_lt (by decide)
      exact ⟨_, hstore (.inr hnear), Step.take_arraySet e offset hitems⟩

/-- A fresh machine with an array of two items, which has the handle 18, and an integer behind it. -/
@[irreducible] def indexMachine (index : Int64) : Machine :=
  { Machine.boot with
    heap := (Machine.boot.heap.push
        { isa := Handle.arrayClass, payload := .array #[Handle.yes, Handle.no] }).push
      { isa := Handle.integerClass, payload := .integer index } }

theorem array?_indexMachine (index : Int64) :
    ((indexMachine index).object ⟨18⟩).array? = some #[Handle.yes, Handle.no] := by
  delta indexMachine
  rfl

theorem integer?_indexMachine (index : Int64) :
    ((indexMachine index).object ⟨19⟩).integer? = some index := by
  delta indexMachine
  rfl

/-- The index -3 is before the start of the two items, -2 is the first of them, and 4 leaves a gap. -/
theorem array_access_laws_indexMachine :
    perform (Run.engine 0) .atPut ⟨18⟩ [⟨19⟩, Handle.nil] (indexMachine (-3)) =
      .error (.fault (.indexOutOfRange "array" (-3) 2)) (indexMachine (-3)) ∧
    (∃ m₁, perform (Run.engine 0) .atPut ⟨18⟩ [⟨19⟩, Handle.nil] (indexMachine (-2)) =
        .ok Handle.nil m₁ ∧
      (indexMachine (-2)).Stores m₁ ⟨18⟩ #[Handle.yes, Handle.no] 0 Handle.nil) ∧
    ∃ m₁, perform (Run.engine 0) .atPut ⟨18⟩ [⟨19⟩, Handle.yes] (indexMachine 4) = .ok Handle.yes m₁ ∧
      (indexMachine 4).Stores m₁ ⟨18⟩ #[Handle.yes, Handle.no] 4 Handle.yes ∧
      perform (Run.engine 0) .at ⟨18⟩ [⟨19⟩] m₁ = .ok Handle.yes m₁ := by
  have laws := fun (value : Handle) (index : Int64) =>
    array_access_laws (Run.engine 0) (indexMachine index) ⟨18⟩ ⟨19⟩ value #[Handle.yes, Handle.no] index
      (array?_indexMachine index) (integer?_indexMachine index) (by decide)
  refine ⟨((laws Handle.nil (-3)).1 (by decide)).1, ?_, ?_⟩
  · obtain ⟨place, hmeans, _, hwrite, _⟩ := (laws Handle.nil (-2)).2 (by decide)
    have hplace : (place : Int) = 0 := hmeans
    cases Int.ofNat_inj.mp hplace
    obtain ⟨m₁, hstore, hstores, _⟩ := hwrite (by decide)
    exact ⟨m₁, hstore, hstores⟩
  · obtain ⟨place, hmeans, _, hwrite, _⟩ := (laws Handle.yes 4).2 (by decide)
    have hplace : (place : Int) = 4 := hmeans
    cases Int.ofNat_inj.mp hplace
    exact hwrite (by decide)

/-- The index 2^62 is not before the start of the two items, and writing with it does not fill a gap:
it breaks off. -/
theorem far_write_overruns : ∃ request,
    perform (Run.engine 0) .atPut ⟨18⟩ [⟨19⟩, Handle.nil] (indexMachine 0x4000000000000000) =
      .error (.overrun request) (indexMachine 0x4000000000000000) := by
  have hplace : Items.place? 0x4000000000000000 2 = some 0x4000000000000000 := by decide
  exact ⟨_, store_overruns (array?_indexMachine _) (integer?_indexMachine _) Handle.nil hplace
    (by decide)⟩

end Rite
