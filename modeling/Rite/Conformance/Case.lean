/-!
# Conformance cases

A case is a source file in a directory, known by its name.  Its compiled image lies beside it under
the same name with another extension, and reports are filed under the name of the image.
-/

namespace Rite.Conformance

/-- A name cut at its last dot, into stem and extension.  A name that starts with its only dot has
no extension. -/
def splitExtension (name : String) : Option (String × String) :=
  let backwards := name.toList.reverse
  match backwards.dropWhile (· ≠ '.') with
  | _dot :: c :: stem =>
    some (String.ofList (c :: stem).reverse,
      String.ofList (backwards.takeWhile (· ≠ '.')).reverse)
  | _ => none

/-- The stem of a case's name, if the name is that of a case. -/
def caseStem? (name : String) : Option String :=
  match splitExtension name with
  | some (stem, extension) => if extension = "rb" then some stem else none
  | none => none

/-- Whether `part` occurs in a text, as lists of characters. -/
def occursIn (part : List Char) : List Char → Bool
  | [] => part.isEmpty
  | c :: rest => part.isPrefixOf (c :: rest) || occursIn part rest

/-- Whether a name passes the filter, which it does if the filter occurs in it. -/
def passes (filter : Option String) (name : String) : Bool :=
  match filter with
  | some part => occursIn part.toList name.toList
  | none => true

/-- Whether a file is a case that passes the filter. -/
def isWanted (filter : Option String) (name : String) : Bool :=
  (caseStem? name).isSome && passes filter name

/-- The order of names by code point. -/
def nameLE (x y : String) : Bool := !decide (y < x)

/-- The cases among the files of a directory that pass the filter, in the order of their names. -/
def discover (names : List String) (filter : Option String) : List String :=
  (names.filter (isWanted filter)).mergeSort nameLE

/-- The name of the compiled image of a case. -/
def imageName (name : String) : String := (caseStem? name).getD name ++ ".mrb"

/-- The path of a file in a directory. -/
def join (dir name : String) : String :=
  if dir.isEmpty || dir.toList.getLast? = some '/' then dir ++ name else dir ++ "/" ++ name

end Rite.Conformance
