import Rite.Conformance.Case
import Rite.Conformance.Report
import Rite.Host
import Rite.Image.Load

/-!
# Checking a directory of cases

A case is compiled by a reference compiler and run both by a reference interpreter and by the
machine of this library; the two outputs are compared.  Every case of the directory that passes the
filter gets one report, and the reports come in the order of their names.
-/

namespace Rite.Conformance

/-- The reference tools. -/
structure Toolchain where
  compiler : String := "mrbc"
  interpreter : String := "mruby"
  deriving DecidableEq

/-- The output of a tool, or why there is none. -/
def toolOutput (host : Host) (words : List String) : Except String String :=
  match host.launch words with
  | .error reason => .error ("cannot run " ++ Text.shownCommand words ++ ": " ++ reason)
  | .ok result =>
    if result.exitCode = 0 then .ok result.out
    else
      .error (Text.shownCommand words ++ " exited with exit status: " ++
        toString result.exitCode ++ ": " ++ Text.trimEnd result.err)

/-- Compile the case at `source`, and give the expected output and the image. -/
def prepare (host : Host) (tools : Toolchain) (source target : String) :
    Except String (String × Image) := do
  discard (toolOutput host [tools.compiler, "-o", target, source])
  let expected ← toolOutput host [tools.interpreter, "-b", target]
  match host.read target with
  | .error reason => .error ("cannot read " ++ target ++ ": " ++ reason)
  | .ok bytes =>
    match Image.ofBytes bytes with
    | .error e => .error ("load failed: " ++ e.message)
    | .ok image => .ok (expected, image)

/-- The report on the case `name` of a directory. -/
def runCase (host : Host) (tools : Toolchain) (limits : Limits) (dir name : String) : Report :=
  match prepare host tools (join dir name) (join dir (imageName name)) with
  | .error reason => { name := imageName name, verdict := .failed reason }
  | .ok (expected, image) => .ofRun (imageName name) expected (image.capture limits)

/-- The order of reports by name. -/
def reportLE (x y : Report) : Bool := nameLE x.name y.name

/-- The reports on all wanted cases of a directory, or the reason why it cannot be listed. -/
def check (host : Host) (tools : Toolchain) (limits : Limits) (dir : String)
    (filter : Option String) : Except String (List Report) :=
  match host.list dir with
  | .error reason => .error reason
  | .ok names =>
    .ok (((discover names filter).map (runCase host tools limits dir)).mergeSort reportLE)

end Rite.Conformance
