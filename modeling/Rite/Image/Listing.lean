import Rite.Image.Basic
import Rite.Text.Digits
import Rite.Text.Shown
import Rite.Text.Utf8

/-!
# Listings of images

A listing shows the header of an image, its discrepancies and every record with its instructions,
literals and symbols.  Nested records are indented below the record they belong to.
-/

namespace Rite

/-- Lines numbered in brackets. -/
def numberedLines (pad : String) (entries : List String) : List String :=
  entries.mapIdx fun i entry => pad ++ "[" ++ toString i ++ "] " ++ entry

/-- Numbered lines under a heading, or nothing if there are none. -/
def listingSection (pad heading : String) (entries : List String) : List String :=
  if entries.isEmpty then []
  else (pad ++ "-- " ++ heading ++ " --") :: numberedLines pad entries

/-- The line of an instruction: its offset and its text. -/
def Placed.line (pad : String) (p : Placed) : String :=
  pad ++ Digits.padLeft '0' 4 (toString p.offset) ++ " " ++ p.instruction.text

/-- The lines of a record without the nested ones. -/
def Record.ownLines (pad : String) (r : Record) : List String :=
  (pad ++ "locals " ++ toString r.localCount ++ " registers " ++ toString r.registerCount ++
      " catch handlers " ++ toString r.catchCount) ::
    (r.code.placed.toList.map (·.line pad) ++
      listingSection pad "pool" (r.literals.map Text.shown) ++
      listingSection pad "symbols" (r.symbols.map (":" ++ ·)))

mutual

/-- The lines of a record, indented by `indent` columns. -/
def Record.lines (indent : Nat) : Record → List String
  | ⟨localCount, registerCount, catchCount, code, literals, symbols, children⟩ =>
    let pad := "".pushn ' ' indent
    Record.ownLines pad ⟨localCount, registerCount, catchCount, code, literals, symbols, []⟩ ++
      Record.childLines indent 0 children

/-- The lines of the records nested in a record, numbered from `index` on. -/
def Record.childLines (indent index : Nat) : List Record → List String
  | [] => []
  | child :: rest =>
    ("".pushn ' ' indent ++ "  >> child " ++ toString index) ::
      (Record.lines (indent + 4) child ++ Record.childLines indent (index + 1) rest)

end

/-- The lines of an image. -/
def Image.lines (i : Image) : List String :=
  ("RITE " ++ toString i.major ++ "." ++ toString i.minor ++ " compiler " ++
      Utf8.decode i.compiler ++ " " ++ Utf8.decode i.compilerVersion ++ " (" ++
      toString i.totalSize ++ " bytes)") ::
    (i.diagnostics.map ("!! " ++ ·.message) ++
      (i.records.mapIdx fun index r =>
        ("-- record " ++ toString index ++ " --") :: r.lines 0).flatten)

/-- The listing of an image: its lines, each ended. -/
def Image.listing (i : Image) : String := String.join (i.lines.map (· ++ "\n"))

end Rite
