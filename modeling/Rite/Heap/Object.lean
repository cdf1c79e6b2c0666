import Rite.Heap.Handle
import Rite.Heap.Native
import Rite.Heap.Table
import Rite.Image.Record

/-!
# Objects

Every value is an object: a class, instance variables, perhaps a singleton class, and a payload that
says what kind of thing it is.  A class is an object too; its payload holds its name, its superclass
and its own methods.
-/

namespace Rite

/-- An entry of a method table. -/
inductive Method where
  | native (method : Native)
  /-- A body of instructions. -/
  | bytecode (body : Record)
  /-- Reads the named instance variable. -/
  | attrReader (ivar : String)
  /-- Sets the named instance variable. -/
  | attrWriter (ivar : String)
  deriving Inhabited

/-- How a method is shown: its kind, and a name or size. -/
def Method.text : Method → String
  | .native method => "Native(" ++ method.name ++ ")"
  | .bytecode body => "Bytecode(" ++ toString body.code.length ++ " instructions)"
  | .attrReader ivar => "AttrReader(" ++ ivar ++ ")"
  | .attrWriter ivar => "AttrWriter(" ++ ivar ++ ")"

/-- What makes an object a class or a module. -/
structure ClassInfo where
  name : String
  superclass : Option Handle := none
  methods : Table Method := {}
  isModule : Bool := false
  deriving Inhabited

/-- What an object holds by virtue of its kind. -/
inductive Payload where
  | plain
  | integer (value : Int64)
  | string (text : String)
  | symbol (name : String)
  | array (items : Array Handle)
  /-- Pairs of key and value, in insertion order. -/
  | hash (pairs : List (Handle × Handle))
  | range (first last : Handle) (exclusive : Bool)
  | ofClass (info : ClassInfo)
  /-- A method body on its way into a method table. -/
  | method (method : Method)
  deriving Inhabited

/-- An object of the heap. -/
structure Object where
  /-- The class of the object. -/
  isa : Handle
  ivars : Table Handle := {}
  /-- The object's own class of methods, made when first asked for. -/
  singleton : Option Handle := none
  payload : Payload := .plain
  deriving Inhabited

namespace Object

/-- The class data, if the object is a class or a module. -/
def classInfo? (o : Object) : Option ClassInfo :=
  match o.payload with
  | .ofClass info => some info
  | _ => none

/-- The value of an integer. -/
def integer? (o : Object) : Option Int64 :=
  match o.payload with
  | .integer value => some value
  | _ => none

/-- The text of a string. -/
def string? (o : Object) : Option String :=
  match o.payload with
  | .string text => some text
  | _ => none

/-- The name of a symbol. -/
def symbol? (o : Object) : Option String :=
  match o.payload with
  | .symbol name => some name
  | _ => none

/-- The items of an array. -/
def array? (o : Object) : Option (Array Handle) :=
  match o.payload with
  | .array items => some items
  | _ => none

/-- The pairs of a hash. -/
def hash? (o : Object) : Option (List (Handle × Handle)) :=
  match o.payload with
  | .hash pairs => some pairs
  | _ => none

/-- Bounds of a range, and whether the upper one is left out. -/
def range? (o : Object) : Option (Handle × Handle × Bool) :=
  match o.payload with
  | .range first last exclusive => some (first, last, exclusive)
  | _ => none

/-- The body of a method object. -/
def method? (o : Object) : Option Method :=
  match o.payload with
  | .method method => some method
  | _ => none

/-- The object with `value` as instance variable `name`. -/
def setIvar (o : Object) (name : String) (value : Handle) : Object :=
  { o with ivars := o.ivars.insert name value }

/-- The object with its items changed, if it is an array. -/
def mapItems (f : Array Handle → Array Handle) (o : Object) : Object :=
  match o with
  | ⟨isa, ivars, singleton, .array items⟩ => ⟨isa, ivars, singleton, .array (f items)⟩
  | o => o

/-- The object with its pairs changed, if it is a hash. -/
def mapPairs (f : List (Handle × Handle) → List (Handle × Handle)) (o : Object) : Object :=
  match o with
  | ⟨isa, ivars, singleton, .hash pairs⟩ => ⟨isa, ivars, singleton, .hash (f pairs)⟩
  | o => o

/-- The object with its text changed, if it is a string. -/
def mapText (f : String → String) (o : Object) : Object :=
  match o with
  | ⟨isa, ivars, singleton, .string text⟩ => ⟨isa, ivars, singleton, .string (f text)⟩
  | o => o

/-- The object with its own methods changed, if it is a class or a module. -/
def mapMethods (f : Table Method → Table Method) (o : Object) : Object :=
  match o with
  | ⟨isa, ivars, singleton, .ofClass info⟩ =>
    ⟨isa, ivars, singleton, .ofClass { info with methods := f info.methods }⟩
  | o => o

end Object

end Rite
