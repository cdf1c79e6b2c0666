import Rite.Heap.Handle
import Rite.Heap.Native

/-!
# The builtin methods

Which builtin methods each builtin class starts with, in the order they are installed.  `Class` and
`Module` share the methods that concern names and accessors; the top-level object has two methods of
its own.
-/

namespace Rite.Catalogue

/-- An entry for a method that takes exactly `n` arguments. -/
def fixed (name : String) (n : Nat) (primitive : Primitive) : Native := ⟨name, .exactly n, primitive⟩

/-- An entry for a method that takes any number of arguments. -/
def variadic (name : String) (primitive : Primitive) : Native := ⟨name, .any, primitive⟩

/-- Methods of `Object`. -/
def object : List Native :=
  [variadic "puts" (.ofObject .puts), variadic "print" (.ofObject .print),
   variadic "p" (.ofObject .p), variadic "warn" (.ofObject .warn),
   fixed "inspect" 0 (.ofObject .inspect), fixed "to_s" 0 (.ofObject .toS),
   fixed "class" 0 (.ofObject .classOf), fixed "==" 1 (.ofObject .same),
   fixed "equal?" 1 (.ofObject .same), fixed "!=" 1 (.ofObject .differs),
   fixed "!" 0 (.ofObject .negate), fixed "nil?" 0 (.answer false),
   fixed "respond_to?" 1 (.ofObject .respondTo), fixed "initialize" 0 (.ofObject .setUp),
   fixed "instance_variable_get" 1 (.ofObject .ivarGet),
   fixed "instance_variable_set" 2 (.ofObject .ivarSet)]

/-- Methods of `NilClass`. -/
def nil : List Native :=
  [fixed "to_s" 0 (.text ""), fixed "inspect" 0 (.text "nil"), fixed "nil?" 0 (.answer true),
   fixed "&" 1 (.answer false), fixed "|" 1 .argumentTruth]

/-- Methods of `TrueClass`. -/
def yes : List Native :=
  [fixed "to_s" 0 (.text "true"), fixed "inspect" 0 (.text "true"), fixed "&" 1 .argumentTruth,
   fixed "|" 1 (.answer true)]

/-- Methods of `FalseClass`. -/
def no : List Native :=
  [fixed "to_s" 0 (.text "false"), fixed "inspect" 0 (.text "false"), fixed "&" 1 (.answer false),
   fixed "|" 1 .argumentTruth]

/-- Methods of classes that modules do not have. -/
def properClass : List Native :=
  [variadic "new" (.ofClass .new), fixed "superclass" 0 (.ofClass .superclass)]

/-- Methods of classes and modules alike. -/
def anyClass : List Native :=
  [fixed "name" 0 (.ofClass .name), fixed "to_s" 0 (.ofClass .name),
   fixed "inspect" 0 (.ofClass .name), variadic "attr_reader" (.ofClass .attrReader),
   variadic "attr_writer" (.ofClass .attrWriter), variadic "attr_accessor" (.ofClass .attrAccessor)]

/-- Methods of `Integer`. -/
def integer : List Native :=
  [fixed "+" 1 (.ofInteger .add), fixed "-" 1 (.ofInteger .sub), fixed "*" 1 (.ofInteger .mul),
   fixed "/" 1 (.ofInteger .div), fixed "%" 1 (.ofInteger .mod), fixed "**" 1 (.ofInteger .pow),
   fixed "-@" 0 (.ofInteger .neg), fixed "==" 1 (.ofInteger .eq), fixed "<" 1 (.ofInteger .lt),
   fixed "<=" 1 (.ofInteger .le), fixed ">" 1 (.ofInteger .gt), fixed ">=" 1 (.ofInteger .ge),
   fixed "<=>" 1 (.ofInteger .cmp), fixed "to_s" 0 (.ofInteger .toS),
   fixed "inspect" 0 (.ofInteger .toS), fixed "zero?" 0 (.ofInteger .isZero)]

/-- Methods of `String`. -/
def string : List Native :=
  [fixed "+" 1 (.ofString .concat), fixed "*" 1 (.ofString .times), fixed "==" 1 (.ofString .eq),
   fixed "<" 1 (.ofString .lt), fixed "<=" 1 (.ofString .le), fixed ">" 1 (.ofString .gt),
   fixed ">=" 1 (.ofString .ge), fixed "length" 0 (.ofString .length),
   fixed "size" 0 (.ofString .length), fixed "empty?" 0 (.ofString .isEmpty),
   fixed "to_s" 0 (.ofString .toS), fixed "to_sym" 0 (.ofString .toSym),
   fixed "inspect" 0 (.ofString .inspect), fixed "upcase" 0 (.ofString .upcase),
   fixed "downcase" 0 (.ofString .downcase)]

/-- Methods of `Symbol`. -/
def symbol : List Native :=
  [fixed "to_s" 0 (.ofSymbol .toS), fixed "to_sym" 0 (.ofSymbol .toSym),
   fixed "inspect" 0 (.ofSymbol .inspect), fixed "==" 1 (.ofSymbol .eq),
   fixed "length" 0 (.ofSymbol .length)]

/-- Methods of `Array`. -/
def array : List Native :=
  [fixed "[]" 1 (.ofArray .at), fixed "[]=" 2 (.ofArray .atPut), fixed "length" 0 (.ofArray .length),
   fixed "size" 0 (.ofArray .length), variadic "push" (.ofArray .push),
   fixed "<<" 1 (.ofArray .push), fixed "first" 0 (.ofArray .first), fixed "last" 0 (.ofArray .last),
   fixed "+" 1 (.ofArray .concat), fixed "==" 1 (.ofArray .eq),
   fixed "inspect" 0 (.ofArray .inspect), fixed "to_s" 0 (.ofArray .inspect),
   fixed "empty?" 0 (.ofArray .isEmpty)]

/-- Methods of `Hash`. -/
def hash : List Native :=
  [fixed "[]" 1 (.ofHash .at), fixed "[]=" 2 (.ofHash .atPut), fixed "length" 0 (.ofHash .length),
   fixed "size" 0 (.ofHash .length), fixed "key?" 1 (.ofHash .hasKey), fixed "keys" 0 (.ofHash .keys),
   fixed "values" 0 (.ofHash .values), fixed "empty?" 0 (.ofHash .isEmpty),
   fixed "inspect" 0 (.ofHash .inspect), fixed "to_s" 0 (.ofHash .inspect)]

/-- Methods of `Range`. -/
def range : List Native :=
  [fixed "first" 0 (.ofRange .first), fixed "last" 0 (.ofRange .last),
   fixed "exclude_end?" 0 (.ofRange .excludesEnd), fixed "to_a" 0 (.ofRange .toA),
   fixed "inspect" 0 (.ofRange .inspect), fixed "to_s" 0 (.ofRange .toS)]

/-- Methods of the top-level object alone. -/
def topLevel : List Native :=
  [fixed "to_s" 0 (.text "main"), fixed "inspect" 0 (.text "main")]

/-- The builtin methods of a builtin class. -/
def ofClass (c : Handle) : List Native :=
  if c = Handle.objectClass then object
  else if c = Handle.classClass then properClass ++ anyClass
  else if c = Handle.moduleClass then anyClass
  else if c = Handle.integerClass then integer
  else if c = Handle.stringClass then string
  else if c = Handle.symbolClass then symbol
  else if c = Handle.arrayClass then array
  else if c = Handle.hashClass then hash
  else if c = Handle.rangeClass then range
  else if c = Handle.nilClass then nil
  else if c = Handle.trueClass then yes
  else if c = Handle.falseClass then no
  else []

end Rite.Catalogue
