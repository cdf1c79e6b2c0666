import Rite.Code.Opcode

/-!
# Faults

A fault is what ends a run: every cause is one constructor with the data that its message names.
Nothing catches a fault inside a program, so the first one is the outcome of the whole run.
-/

namespace Rite

/-- The causes for which a run fails. -/
inductive Fault where
  /-- No class of the receiver's line of descent has the method. -/
  | methodNotFound (name receiver : String)
  /-- An instruction that exists and cannot be executed. -/
  | notImplemented (op : Opcode)
  /-- A value of the wrong kind. -/
  | typeMismatch (expected got : String)
  | zeroDivision
  | integerOverflow
  /-- An index outside a table of a record, or before the start of an array. -/
  | indexOutOfRange (kind : String) (index : Int) (size : Nat)
  | uninitializedConstant (name : String)
  | uninitializedClassVariable (name : String)
  /-- A class was reopened with another superclass. -/
  | superclassMismatch (name : String)
  /-- A jump to an offset at which no instruction starts. -/
  | invalidJumpTarget (offset : Int)
  | argumentCount (expected given : Nat)
  /-- A jump that the compiler found to have no target; the message is a literal of the record. -/
  | localJump (text : String)
  /-- More nested calls than the limit allows. -/
  | stackTooDeep
  /-- A longer superclass chain than the limit allows. -/
  | classChainTooDeep (name : String)
  | superOutsideMethod
  /-- A sink refused a write or a flush. -/
  | outputFailed (reason : String)
  deriving DecidableEq

/-- The text of a fault. -/
def Fault.message : Fault → String
  | .methodNotFound name receiver => s!"undefined method '{name}' for {receiver}"
  | .notImplemented op => "opcode " ++ op.mnemonic ++ " is not supported"
  | .typeMismatch expected got => s!"wrong argument type {got} (expected {expected})"
  | .zeroDivision => "divided by 0"
  | .integerOverflow => "integer overflow"
  | .indexOutOfRange kind index size => s!"index {index} out of {kind} (size {size})"
  | .uninitializedConstant name => "uninitialized constant " ++ name
  | .uninitializedClassVariable name => "uninitialized class variable " ++ name
  | .superclassMismatch name => "superclass mismatch for class " ++ name
  | .invalidJumpTarget offset => s!"jump to offset {offset} does not land on an instruction"
  | .argumentCount expected given =>
    s!"wrong number of arguments (given {given}, expected {expected})"
  | .localJump text => text
  | .stackTooDeep => "stack level too deep"
  | .classChainTooDeep name => s!"superclass chain of {name} is too deep"
  | .superOutsideMethod => "super called outside of method"
  | .outputFailed reason => "output failed: " ++ reason

end Rite
