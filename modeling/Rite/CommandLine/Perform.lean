import Rite.CommandLine.Invocation
import Rite.Image.Listing

/-!
# Carrying out an invocation

Every command has an outcome: what it writes to either stream, and an exit code.  Files are taken in
order, and the first that cannot be read, loaded or run ends the command; what was written before
stays.
-/

namespace Rite.CommandLine

/-- What a command leaves behind. -/
structure Outcome where
  exitCode : Nat := 0
  out : String := ""
  err : String := ""
  deriving DecidableEq

namespace Outcome

/-- An outcome after something has been written already. -/
def after (out err : String) (o : Outcome) : Outcome :=
  { o with out := out ++ o.out, err := err ++ o.err }

/-- A failure with a message. -/
def failure (exitCode : Nat) (message : String) : Outcome := { exitCode, err := message ++ "\n" }

end Outcome

/-- The image in a file, or the message that there is none. -/
def loadFile (host : Host) (path : String) : Except String Image :=
  match host.read path with
  | .error reason => .error ("Error reading file '" ++ path ++ "': " ++ reason)
  | .ok bytes =>
    match Image.ofBytes bytes with
    | .error e => .error ("Error loading '" ++ path ++ "': " ++ e.message)
    | .ok image => .ok image

/-- What is left to say when the run of a file comes to a halt.  A run that breaks off takes the
command with it. -/
def haltedRun (path : String) : Halt → Outcome
  | .overrun request => .failure 101 (Halt.overrun request).message
  | h => .failure 1 ("Error running '" ++ path ++ "': " ++ h.message)

/-- Run images in order, each on a machine of its own. -/
def runFiles (host : Host) (limits : Limits) : List String → Outcome
  | [] => {}
  | path :: rest =>
    match loadFile host path with
    | .error message => .failure 1 message
    | .ok image =>
      let run := image.capture limits
      match run.halt with
      | some h => (haltedRun path h).after run.out run.err
      | none => (runFiles host limits rest).after run.out run.err

/-- List images in order. -/
def dumpFiles (host : Host) : List String → Outcome
  | [] => {}
  | path :: rest =>
    match loadFile host path with
    | .error message => .failure 1 message
    | .ok image => (dumpFiles host rest).after ("== " ++ path ++ " ==\n" ++ image.listing) ""

/-- The outcome of a check, given its reports: every report on a line, then the totals. -/
def summarize (reports : List Conformance.Report) : Outcome :=
  let failed := (reports.filter (!·.passed)).length
  let totals := toString (reports.length - failed) ++ " passed, " ++ toString failed ++ " failed\n"
  { exitCode := if failed = 0 then 0 else 1
    out := String.join (reports.map (·.text ++ "\n")) ++ totals }

/-- Carry out a command. -/
def Command.perform (host : Host) (limits : Limits) : Command → Outcome
  | .run files => runFiles host limits files
  | .dump files => dumpFiles host files
  | .check dir filter tools =>
    match Conformance.check host tools limits dir filter with
    | .error reason => .failure 1 ("Error reading cases in '" ++ dir ++ "': " ++ reason)
    | .ok reports => summarize reports

/-- Carry out an invocation, unless its limits make no sense. -/
def Invocation.perform (host : Host) (i : Invocation) : Outcome :=
  match i.limits.problem? with
  | some problem => .failure 2 ("Error: invalid configuration: " ++ problem)
  | none => i.command.perform host i.limits

/-- Carry out a command line. -/
def perform (host : Host) (words : List String) : Outcome :=
  match Invocation.parse words with
  | .error e => .failure 2 ("error: " ++ e.message)
  | .ok i => i.perform host

end Rite.CommandLine
