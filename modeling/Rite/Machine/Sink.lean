import Rite.Machine.Fault
import Rite.Text.Utf8

/-!
# Output sinks

A sink collects the bytes a program writes.  It may have a limit: it then accepts bytes up to the
limit and refuses every byte beyond, so a write that does not fit is accepted in part and fails.  An
empty write always succeeds.
-/

namespace Rite

/-- Where a program's output goes. -/
structure Sink where
  /-- Everything accepted so far. -/
  written : ByteArray := ByteArray.empty
  /-- How many bytes are accepted in total; unlimited if absent. -/
  limit : Option Nat := none
  /-- Whether flushing fails. -/
  failsFlush : Bool := false
  deriving Inhabited

namespace Sink

/-- How many of `n` further bytes are accepted. -/
def room (sink : Sink) (n : Nat) : Nat :=
  match sink.limit with
  | some limit => min n (limit - sink.written.size)
  | none => n

/-- The sink after accepting what it can of `text`. -/
def accept (sink : Sink) (text : String) : Sink :=
  let bytes := text.toUTF8
  { sink with written := sink.written ++ bytes.extract 0 (sink.room bytes.size) }

/-- Whether `text` fits. -/
def fits (sink : Sink) (text : String) : Bool := sink.room text.utf8ByteSize = text.utf8ByteSize

/-- Everything written so far, as bytes. -/
def bytes (sink : Sink) : Bytes := sink.written.data.toList

/-- Everything written so far, as text. -/
def contents (sink : Sink) : String := Utf8.decode sink.bytes

/-- The text written after the first `start` bytes. -/
def contentsFrom (sink : Sink) (start : Nat) : String :=
  Utf8.decode (sink.written.extract start sink.written.size).data.toList

/-- How many bytes were written. -/
def size (sink : Sink) : Nat := sink.written.size

/-- Bytes added as they are, without regard to a limit. -/
def appendBytes (sink : Sink) (bytes : Bytes) : Sink :=
  { sink with written := sink.written ++ ByteArray.mk bytes.toArray }

/-- The sink with nothing in it. -/
def clear (sink : Sink) : Sink := { sink with written := ByteArray.empty }

end Sink

end Rite
