import Lox.Diagnostic
/-! Where output goes. A sink keeps the bytes it is given, up to its capacity if it
has one: of a text that does not fit it keeps the bytes that do. -/

namespace Lox

structure Sink where
  written : ByteArray
  capacity : Option Nat
  failsToFlush : Bool

namespace Sink

/-- A sink that takes everything. -/
def unlimited : Sink := ⟨ByteArray.empty, none, false⟩

/-- The bytes of a text that still fit. -/
def fitting (sink : Sink) (bytes : ByteArray) : ByteArray :=
  match sink.capacity with
  | none => bytes
  | some capacity => bytes.extract 0 (capacity - sink.written.size)

def fits (sink : Sink) (bytes : ByteArray) : Bool :=
  match sink.capacity with
  | none => true
  | some capacity => sink.written.size + bytes.size ≤ capacity

/-- Write as much of a text as fits. -/
def write (sink : Sink) (text : String) : Sink :=
  let bytes := sink.fitting text.toUTF8
  { sink with written := sink.written ++ bytes }

/-- What is wrong with writing a text, if anything is. -/
def writeFault? (sink : Sink) (text : String) : Option SinkFault :=
  if sink.fits text.toUTF8 then none else some .full

def flushFault? (sink : Sink) : Option SinkFault :=
  if sink.failsToFlush then some .flushFailed else none

end Sink

end Lox
