import Rite.Image.Load
import Rite.Proofs.Reading

/-!
# Headers

The headers of an image, of a section and of a record are read by layouts.  A layout that is too wide
for its window is refused before any byte is read.  The layouts of the format are as wide as their
windows, so this never happens to them, and each of the three readings comes down to taking the window
and cutting it up at fixed places.
-/

namespace Rite

open BigEndian

/-- The numbers and tags of a record header, by where they stand. -/
theorem Layout.values_recordHeader (window : Bytes) :
    values Format.recordHeader window =
      [.int (slice window 0 4), .int (slice window 4 2), .int (slice window 6 2),
        .int (slice window 8 2), .int (slice window 10 2), .int (slice window 12 4)] := by
  simp only [Format.recordHeader, values, Field.value, Field.width, slice, List.drop_drop, List.drop_zero]

theorem Layout.values_sectionHeader (window : Bytes) :
    values Format.sectionHeader window = [.bytes (window.take 4), .int (slice window 4 4)] := rfl

theorem Layout.values_headerTail (window : Bytes) :
    values Format.headerTail window =
      [.int (slice window 0 2), .int (slice window 2 2), .int (slice window 4 4),
        .bytes ((window.drop 8).take 4), .bytes ((window.drop 12).take 4)] := by
  simp only [Format.headerTail, values, Field.value, Field.width, slice, List.drop_drop, List.drop_zero]

namespace Reading

/-- A layout that fits into its window is read from it. -/
theorem layout_of_fits {n : Nat} {fields : List Field} (h : Layout.width fields ≤ n) :
    layout n fields = do return Layout.values fields (← take n) := by
  unfold layout
  rw [if_neg (Nat.not_lt_of_le h)]

theorem recordHead_eq :
    recordHead = do
      let window ← take Format.recordHeaderSize
      return {
        declared := slice window 0 4
        localCount := UInt16.ofNat (slice window 4 2)
        registerCount := UInt16.ofNat (slice window 6 2)
        childCount := slice window 8 2
        catchCount := UInt16.ofNat (slice window 10 2)
        codeSize := slice window 12 4 } := by
  unfold recordHead
  rw [layout_of_fits (by decide)]
  simp only [bind_assoc, pure_bind, Layout.values_recordHeader]
  rfl

theorem sectionHead_eq :
    sectionHead = do
      let window ← take Format.sectionHeaderSize
      return { name := window.take 4, declared := slice window 4 4 } := by
  unfold sectionHead
  rw [layout_of_fits (by decide)]
  simp only [bind_assoc, pure_bind, Layout.values_sectionHeader]
  rfl

/-- What the sixteen bytes behind the magic number say. -/
def ImageHead.ofWindow (window : Bytes) : ImageHead where
  major := UInt16.ofNat (slice window 0 2)
  minor := UInt16.ofNat (slice window 2 2)
  declared := slice window 4 4
  compiler := (window.drop 8).take 4
  compilerVersion := (window.drop 12).take 4

theorem imageHead_eq :
    imageHead = do return ImageHead.ofWindow (← take (Format.headerSize - 4)) := by
  unfold imageHead
  rw [layout_of_fits (by decide)]
  simp only [bind_assoc, pure_bind, Layout.values_headerTail]
  rfl

end Reading

end Rite
