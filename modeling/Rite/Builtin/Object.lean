import Rite.Machine.Engine

/-!
# Methods of every object

Output, conversion to text, identity, and access to instance variables by name.  `puts` puts all of
its output into one write; `print`, `p` and `warn` write once for each argument, so what earlier
arguments wrote stays when a later one fails.
-/

namespace Rite.Objects

open Rite.Action

variable (e : Engine)

/-! ## Lines -/

/-- Whether a text ends with a line feed. -/
def endsLine (text : String) : Bool := text.toList.getLast? == some '\n'

/-- The text as a line: with a line feed at its end. -/
def asLine (text : String) : String := if endsLine text then text else text ++ "\n"

/-- The lines of `h`.  An array gives the lines of its items in order; one that is being written
already, `path` says which, gives `[...]`.  `rounds` bounds the nesting. -/
def linesWithin : (rounds : Nat) → (path : List Handle) → Handle → Action String
  | 0, _, _ => exhausted
  | rounds + 1, path, h => do
    match ← ask fun m => (m.object h).array? with
    | some items =>
      if path.contains h then return "[...]\n"
      else
        items.toList.foldlM (fun text item => do
          return text ++ (← linesWithin rounds (h :: path) item)) ""
    | none => return asLine (← e.toText h)

/-- The lines of one argument of `puts`: at least one. -/
def lines (h : Handle) : Action String := do
  let text ← linesWithin e e.fuel [] h
  return if text.isEmpty then "\n" else text

/-- Write the lines of the arguments, or an empty line if there is no argument. -/
def puts (args : List Handle) : Action Handle := do
  let text ← args.foldlM (fun text h => do return text ++ (← lines e h)) ""
  writeOut (if args.isEmpty then "\n" else text)
  return Handle.nil

/-- Write the texts of the arguments. -/
def print (args : List Handle) : Action Handle := do
  args.forM fun h => do writeOut (← e.toText h)
  return Handle.nil

/-- Write the literal forms of the arguments, each on a line.  Answers the argument, or an array if
there are several. -/
def p (args : List Handle) : Action Handle := do
  args.forM fun h => do writeOut ((← e.inspect h) ++ "\n")
  match args with
  | [] => return Handle.nil
  | [h] => return h
  | _ => newArray args

/-- Write the texts of the arguments to the error sink, each as a line. -/
def warn (args : List Handle) : Action Handle := do
  args.forM fun h => do writeErr (asLine (← e.toText h))
  return Handle.nil

/-! ## Texts -/

/-- `#<Name>` as a string. -/
def toS (receiver : Handle) : Action Handle := do newString (← ask (·.plainText receiver))

/-- `name=value` for an instance variable. -/
def inspectIvar (ivar : String × Handle) : Action String := do
  return ivar.1 ++ "=" ++ (← e.inspect ivar.2)

/-- `#<Name @a=1, @b=2>`, with the instance variables in the order of their names.  Without any, and
for classes, the plain text. -/
def inspect (receiver : Handle) : Action Handle := do
  let ivars ← ask fun m => (m.object receiver).ivars
  if ivars.isEmpty || (← ask (·.isClass receiver)) then
    toS receiver
  else
    let parts ← ivars.sorted.mapM (inspectIvar e)
    let name ← ask fun m => m.className (m.classOf receiver)
    newString ("#<" ++ name ++ " " ++ String.intercalate ", " parts ++ ">")

/-! ## Identity and instance variables -/

/-- Whether the argument is the receiver itself. -/
def same (receiver : Handle) (args : List Handle) : Action Handle := do
  answer (receiver = (← argument args 0))

/-- The opposite of what `==` answers. -/
def differs (receiver : Handle) (args : List Handle) : Action Handle := do
  let equal ← e.send receiver "==" [← argument args 0]
  answer (!equal.truthy)

/-- Whether the receiver has the named method. -/
def respondTo (receiver : Handle) (args : List Handle) : Action Handle := do
  let h ← argument args 0
  let name ← demand (·.name h)
  answer (← ask (·.respondsTo receiver name))

/-- The named instance variable. -/
def ivarGet (receiver : Handle) (args : List Handle) : Action Handle := do
  let h ← argument args 0
  let name ← demand (·.name h)
  ask (·.ivar receiver name)

/-- Set the named instance variable; answers the value. -/
def ivarSet (receiver : Handle) (args : List Handle) : Action Handle := do
  let h ← argument args 0
  let name ← demand (·.name h)
  let value ← argument args 1
  setIvar receiver name value
  return value

/-- What each method does. -/
def perform : ObjectPrimitive → Handle → List Handle → Action Handle
  | .puts, _, args => puts e args
  | .print, _, args => print e args
  | .p, _, args => p e args
  | .warn, _, args => warn e args
  | .inspect, receiver, _ => inspect e receiver
  | .toS, receiver, _ => toS receiver
  | .classOf, receiver, _ => ask (·.classOf receiver)
  | .same, receiver, args => same receiver args
  | .differs, receiver, args => differs e receiver args
  | .negate, receiver, _ => answer (!receiver.truthy)
  | .respondTo, receiver, args => respondTo receiver args
  | .ivarGet, receiver, args => ivarGet receiver args
  | .ivarSet, receiver, args => ivarSet receiver args
  | .setUp, _, _ => return Handle.nil

end Rite.Objects
