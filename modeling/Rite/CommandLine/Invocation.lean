import Rite.CommandLine.Words
import Rite.Conformance.Check

/-!
# Invocations

What a command line asks for, once it is understood: a command, and the limits it runs under.  An
option that every command takes can stand before or behind the command's name; of two the one behind
counts.
-/

namespace Rite.CommandLine

/-- What can be asked for. -/
inductive Command where
  /-- Run images, one after the other. -/
  | run (files : List String)
  /-- List images instead of running them. -/
  | dump (files : List String)
  /-- Check a directory of cases against the reference tools. -/
  | check (dir : String) (filter : Option String) (tools : Conformance.Toolchain)
  deriving DecidableEq

/-- A command and the limits it runs under. -/
structure Invocation where
  limits : Limits := {}
  command : Command
  deriving DecidableEq

namespace Invocation

/-- The files of a command, at least one, none without a name. -/
def files : List String → Except UsageError (List String)
  | [] => .error (.missingArgument "<FILES>...")
  | paths => if paths.contains "" then .error (.missingArgument "<FILES>...") else .ok paths

/-- The directory of a check. -/
def directory : List String → Except UsageError String
  | [] | [""] => .error (.missingArgument "<DIR>")
  | [dir] => .ok dir
  | _ :: word :: _ => .error (.unexpectedArgument word)

/-- The command with a given name, and the options found behind it. -/
def commandNamed (name : String) (words : List String) :
    Except UsageError (Command × List (Flag × String)) := do
  match name with
  | "run" =>
    let w ← Words.scan Flag.everywhere words
    return (.run (← files w.positional), w.options)
  | "dump" =>
    let w ← Words.scan Flag.everywhere words
    return (.dump (← files w.positional), w.options)
  | "check" =>
    let w ← Words.scan Flag.ofCheck words
    let dir ← directory w.positional
    let filter ← optionValue .filter w.options
    let compiler ← pathValue .compiler "mrbc" w.options
    let interpreter ← pathValue .interpreter "mruby" w.options
    discard (numberValue .jobs w.options)
    return (.check dir filter { compiler, interpreter }, w.options)
  | other => .error (.unknownCommand other)

/-- Understand a command line. -/
def parse (words : List String) : Except UsageError Invocation := do
  let (before, name, rest) ← Words.scanFront Flag.everywhere words
  let (command, behind) ← commandNamed name rest
  let outer ← numberValue .maxCallDepth before
  let inner ← numberValue .maxCallDepth behind
  let default : Limits := {}
  return { command, limits := { maxCallDepth := (inner <|> outer).getD default.maxCallDepth } }

end Invocation

end Rite.CommandLine
