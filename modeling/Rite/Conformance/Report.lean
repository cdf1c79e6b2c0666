import Rite.Machine.Capture
import Rite.Text.Blank
import Rite.Text.Shown

/-!
# Verdicts and reports

A run is judged against the output that a reference produced.  Only the output counts; what a run
writes to its error sink is reported and does not change the verdict.
-/

namespace Rite.Conformance

/-- The judgement on one case. -/
inductive Verdict where
  | pass
  /-- The run succeeded with other output than expected. -/
  | mismatch (expected given : String)
  /-- The case could not be compiled, loaded or run to its end. -/
  | failed (reason : String)
  deriving DecidableEq

/-- Judge a run against the expected output.  A run that breaks off counts as failed. -/
def judge (expected : String) (run : Captured) : Verdict :=
  match run.halt with
  | some h => .failed (h.message ++ " (after output " ++ Text.shown run.out ++ ")")
  | none => if run.out = expected then .pass else .mismatch expected run.out

/-- What is reported about one case. -/
structure Report where
  name : String
  /-- What the run wrote to its error sink. -/
  err : String := ""
  verdict : Verdict
  deriving DecidableEq

namespace Report

/-- Whether the case passed. -/
def passed (r : Report) : Bool := r.verdict = .pass

/-- The report on a run. -/
def ofRun (name expected : String) (run : Captured) : Report :=
  { name, err := run.err, verdict := judge expected run }

/-- The text of a verdict. -/
def verdictText : Verdict → String
  | .pass => "ok"
  | .mismatch expected given =>
    "given_out: " ++ Text.shown given ++ ", expected: " ++ Text.shown expected
  | .failed reason => reason

/-- The text of a report: error output first, if there is any, then the verdict. -/
def text (r : Report) : String :=
  let label := "[" ++ r.name ++ "] "
  let errors := if r.err.isEmpty then "" else label ++ "stderr: " ++ Text.trimEnd r.err ++ "\n"
  errors ++ label ++ verdictText r.verdict

end Report

end Rite.Conformance
