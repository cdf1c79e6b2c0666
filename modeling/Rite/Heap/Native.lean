/-!
# Builtin methods as data

A builtin method is stored in a method table as a description: its name, how many arguments it takes
and which primitive it stands for.  What a primitive does is defined with the machine; here they are
only told apart.
-/

namespace Rite

/-- How many arguments a builtin method takes. -/
inductive Arity where
  | exactly (n : Nat)
  | any
  deriving DecidableEq

/-- What every object can do. -/
inductive ObjectPrimitive where
  | puts | print | p | warn | inspect | toS | classOf | same | differs | negate | respondTo
  | ivarGet | ivarSet
  /-- The constructor hook, which does nothing. -/
  | setUp
  deriving DecidableEq

/-- What classes and modules can do. -/
inductive ClassPrimitive where
  | new | superclass | name | attrReader | attrWriter | attrAccessor
  deriving DecidableEq

/-- What integers can do. -/
inductive IntegerPrimitive where
  | add | sub | mul | div | mod | pow | neg | eq | lt | le | gt | ge | cmp | toS | isZero
  deriving DecidableEq

/-- What strings can do. -/
inductive StringPrimitive where
  | concat | times | eq | lt | le | gt | ge | length | isEmpty | toS | toSym | inspect | upcase
  | downcase
  deriving DecidableEq

/-- What symbols can do. -/
inductive SymbolPrimitive where
  | toS | toSym | inspect | eq | length
  deriving DecidableEq

/-- What arrays can do. -/
inductive ArrayPrimitive where
  | at | atPut | length | push | first | last | concat | eq | inspect | isEmpty
  deriving DecidableEq

/-- What hashes can do. -/
inductive HashPrimitive where
  | at | atPut | length | hasKey | keys | values | isEmpty | inspect
  deriving DecidableEq

/-- What ranges can do. -/
inductive RangePrimitive where
  | first | last | excludesEnd | toA | inspect | toS
  deriving DecidableEq

/-- Everything that is done by the machine itself and not by instructions. -/
inductive Primitive where
  /-- Answer a new string with this text. -/
  | text (s : String)
  /-- Answer this truth value, whatever the arguments. -/
  | answer (b : Bool)
  /-- Answer whether the argument counts as true. -/
  | argumentTruth
  | ofObject (op : ObjectPrimitive)
  | ofClass (op : ClassPrimitive)
  | ofInteger (op : IntegerPrimitive)
  | ofString (op : StringPrimitive)
  | ofSymbol (op : SymbolPrimitive)
  | ofArray (op : ArrayPrimitive)
  | ofHash (op : HashPrimitive)
  | ofRange (op : RangePrimitive)
  deriving DecidableEq

/-- A builtin method. -/
structure Native where
  name : String
  arity : Arity
  primitive : Primitive
  deriving DecidableEq

end Rite
