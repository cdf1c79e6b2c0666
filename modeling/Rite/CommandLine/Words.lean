/-!
# The words of the command line

A command takes options and positional words, in any order.  An option is written `--name value`,
`--name=value` or, with a short name, `-n value`, `-nvalue` or `-n=value`; short flags can be run
together.  After `--` every word is positional.  A word that begins with a hyphen is never taken for
the value of the option before it.
-/

namespace Rite.CommandLine

/-- The options there are. -/
inductive Flag where
  | verbose
  | maxCallDepth
  | filter
  | compiler
  | interpreter
  | jobs
  deriving DecidableEq

namespace Flag

/-- The long name of an option. -/
def longName : Flag → String
  | .verbose => "verbose"
  | .maxCallDepth => "max-call-depth"
  | .filter => "filter"
  | .compiler => "mrbc"
  | .interpreter => "mruby"
  | .jobs => "jobs"

/-- The short name of an option. -/
def shortName? : Flag → Option Char
  | .verbose => some 'v'
  | .jobs => some 'j'
  | _ => none

/-- Whether the option has a value.  One that has none may be repeated. -/
def takesValue : Flag → Bool
  | .verbose => false
  | _ => true

/-- The options that every command takes. -/
def everywhere : List Flag := [.verbose, .maxCallDepth]

/-- The options of a check. -/
def ofCheck : List Flag := everywhere ++ [.filter, .compiler, .interpreter, .jobs]

end Flag

/-- Why the command line cannot be understood. -/
inductive UsageError where
  | unknownOption (word : String)
  | missingValue (flag : Flag)
  | unexpectedValue (flag : Flag)
  | repeated (flag : Flag)
  | invalidValue (flag : Flag) (value : String)
  | missingCommand
  | unknownCommand (word : String)
  | missingArgument (name : String)
  | unexpectedArgument (word : String)
  deriving DecidableEq

/-- The text of a usage error. -/
def UsageError.message : UsageError → String
  | .unknownOption word => "unexpected argument " ++ word
  | .missingValue flag => "a value is required for --" ++ flag.longName
  | .unexpectedValue flag => "no value is allowed for --" ++ flag.longName
  | .repeated flag => "--" ++ flag.longName ++ " cannot be used multiple times"
  | .invalidValue flag value => "invalid value " ++ value ++ " for --" ++ flag.longName
  | .missingCommand => "a command is required: run, dump or check"
  | .unknownCommand word => "unrecognized command " ++ word
  | .missingArgument name => "a value is required for " ++ name
  | .unexpectedArgument word => "unexpected argument " ++ word

/-- What is found on the command line: options with their values, and positional words. -/
structure Words where
  options : List (Flag × String) := []
  positional : List String := []
  deriving DecidableEq

namespace Words

/-- Add a positional word in front. -/
def word (text : String) (w : Words) : Words := { w with positional := text :: w.positional }

/-- Whether a word looks like an option: it begins with a hyphen and is more than that. -/
def isOption (text : String) : Bool :=
  match text.toList with
  | '-' :: _ :: _ => true
  | _ => false

/-- A word cut at its first equals sign. -/
def cutValue (chars : List Char) : String × Option String :=
  let name := String.ofList (chars.takeWhile (· ≠ '='))
  match chars.dropWhile (· ≠ '=') with
  | [] => (name, none)
  | _equals :: value => (name, some (String.ofList value))

/-- Take a value that stands in a word of its own. -/
def nextValue (flag : Flag) : List String → Except UsageError (String × List String)
  | [] => .error (.missingValue flag)
  | value :: rest =>
    if isOption value then .error (.missingValue flag) else .ok (value, rest)

/-- The option with a long name among those allowed. -/
def longFlag (allowed : List Flag) (name : String) : Except UsageError Flag :=
  match allowed.find? (·.longName = name) with
  | some flag => .ok flag
  | none => .error (.unknownOption ("--" ++ name))

/-- The option with a short name among those allowed. -/
def shortFlag (allowed : List Flag) (name : Char) : Except UsageError Flag :=
  match allowed.find? (·.shortName? = some name) with
  | some flag => .ok flag
  | none => .error (.unknownOption (String.ofList ['-', name]))

/-- Options that a word holds by themselves, and an option whose value is still to come. -/
structure Opened where
  options : List (Flag × String) := []
  pending : Option Flag := none

/-- Read a word with a long option, without its hyphens. -/
def openLong (allowed : List Flag) (chars : List Char) : Except UsageError Opened := do
  let (name, value) := cutValue chars
  let flag ← longFlag allowed name
  match flag.takesValue, value with
  | true, some value => return { options := [(flag, value)] }
  | true, none => return { pending := some flag }
  | false, none => return { options := [(flag, "")] }
  | false, some _ => .error (.unexpectedValue flag)

/-- Read a word with short options, without its hyphen. -/
def openShort (allowed : List Flag) : List Char → Except UsageError Opened
  | [] => return {}
  | c :: rest => do
    let flag ← shortFlag allowed c
    if flag.takesValue then
      match rest with
      | [] => return { pending := some flag }
      | '=' :: value => return { options := [(flag, String.ofList value)] }
      | value => return { options := [(flag, String.ofList value)] }
    else
      let more ← openShort allowed rest
      return { more with options := (flag, "") :: more.options }

/-- Read a word that looks like an option. -/
def openOption (allowed : List Flag) (text : String) : Except UsageError Opened :=
  match text.toList with
  | '-' :: '-' :: name => openLong allowed name
  | _hyphen :: names => openShort allowed names
  | [] => return {}

/-- Read the words of a command.  `fuel` bounds their number. -/
def scanWithin (allowed : List Flag) : (fuel : Nat) → List String → Except UsageError Words
  | 0, _ => return {}
  | _, [] => return {}
  | fuel + 1, text :: rest => do
    if text = "--" then
      return { positional := rest }
    else if isOption text then
      let opened ← openOption allowed text
      match opened.pending with
      | none =>
        let w ← scanWithin allowed fuel rest
        return { w with options := opened.options ++ w.options }
      | some flag =>
        let (value, rest) ← nextValue flag rest
        let w ← scanWithin allowed fuel rest
        return { w with options := opened.options ++ (flag, value) :: w.options }
    else
      return (← scanWithin allowed fuel rest).word text

/-- Read the words of a command. -/
def scan (allowed : List Flag) (words : List String) : Except UsageError Words :=
  scanWithin allowed words.length words

/-- Read options up to the first positional word, which is given with the words behind it.  `fuel`
bounds the number of words. -/
def scanFrontWithin (allowed : List Flag) :
    (fuel : Nat) → List String → Except UsageError (List (Flag × String) × String × List String)
  | 0, _ => .error .missingCommand
  | _, [] => .error .missingCommand
  | fuel + 1, text :: rest => do
    if text = "--" then
      match rest with
      | [] => .error .missingCommand
      | other :: _ => .error (.unexpectedArgument other)
    else if isOption text then
      let opened ← openOption allowed text
      match opened.pending with
      | none =>
        let (options, word, rest) ← scanFrontWithin allowed fuel rest
        return (opened.options ++ options, word, rest)
      | some flag =>
        let (value, rest) ← nextValue flag rest
        let (options, word, rest) ← scanFrontWithin allowed fuel rest
        return (opened.options ++ (flag, value) :: options, word, rest)
    else
      return ([], text, rest)

/-- Read options up to the first positional word. -/
def scanFront (allowed : List Flag) (words : List String) :
    Except UsageError (List (Flag × String) × String × List String) :=
  scanFrontWithin allowed words.length words

end Words

/-! ## Values of options -/

/-- The value of an option, which may be given at most once. -/
def optionValue (flag : Flag) (options : List (Flag × String)) :
    Except UsageError (Option String) :=
  match options.filter (·.1 = flag) with
  | [] => .ok none
  | [(_, value)] => .ok (some value)
  | _ => .error (.repeated flag)

/-- The number that a text of decimal digits stands for; a plus sign may come first, and the number
must fit into 64 bits. -/
def number? (text : String) : Option Nat :=
  let digits := match text.toList with
    | '+' :: rest => rest
    | chars => chars
  if digits.isEmpty || !digits.all (·.isDigit) then none
  else
    let n := digits.foldl (fun n c => n * 10 + (c.toNat - '0'.toNat)) 0
    if n < 0x10000000000000000 then some n else none

/-- The number given as the value of an option. -/
def numberValue (flag : Flag) (options : List (Flag × String)) :
    Except UsageError (Option Nat) := do
  match ← optionValue flag options with
  | none => return none
  | some text =>
    match number? text with
    | some n => return some n
    | none => .error (.invalidValue flag text)

/-- The path given as the value of an option, which must not be empty. -/
def pathValue (flag : Flag) (default : String) (options : List (Flag × String)) :
    Except UsageError String := do
  match ← optionValue flag options with
  | none => return default
  | some "" => .error (.missingValue flag)
  | some path => return path

end Rite.CommandLine
