import Rite.Code.Section

/-!
# Instruction records

A record is one compiled unit: a script, a class body or a method body.  Its code refers to string
literals, to symbols and to nested records by index; the indices are resolved when an instruction
needs them, so a record may well hold indices that lead nowhere.
-/

namespace Rite

/-- One compiled unit with the units nested in it. -/
structure Record where
  localCount : UInt16 := 0
  registerCount : UInt16 := 0
  catchCount : UInt16 := 0
  code : Code := {}
  literals : List String := []
  symbols : List String := []
  children : List Record := []
  deriving Inhabited

mutual

/-- Number of records in a tree, the root included. -/
def Record.treeSize : Record → Nat
  | ⟨_, _, _, _, _, _, children⟩ => 1 + Record.forestSize children

/-- Number of records in a list of trees. -/
def Record.forestSize : List Record → Nat
  | [] => 0
  | record :: records => record.treeSize + Record.forestSize records

end

end Rite
