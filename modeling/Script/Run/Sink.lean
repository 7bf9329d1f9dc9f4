/-!
# Sinks

A sink takes the bytes of the output.  It may have a capacity: then it takes bytes up to this
number and no more.
-/

namespace Script

structure Sink where
  capacity : Option Nat
  written : ByteArray

namespace Sink

def empty (capacity : Option Nat) : Sink := ⟨capacity, .empty⟩

def accepts (sink : Sink) (bytes : ByteArray) : Bool :=
  match sink.capacity with
  | none => true
  | some capacity => sink.written.size + bytes.size ≤ capacity

def write (sink : Sink) (bytes : ByteArray) : Sink :=
  match sink.capacity with
  | none => { sink with written := sink.written ++ bytes }
  | some capacity =>
    { sink with written := sink.written ++ bytes.extract 0 (capacity - sink.written.size) }

end Sink

end Script
