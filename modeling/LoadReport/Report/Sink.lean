import LoadReport.Fault
import LoadReport.Utf8

/-! # Sinks

Reports are written to a sink piece by piece. A limited sink accepts a number of bytes in all, part
of a piece if need be, and then fails; the first failure ends the writing. With a buffer, bytes wait
until there are enough of them, and what still waits in the end has to be flushed.
-/

namespace LoadReport.Report

def taken : Option Limit → List UInt8 → List UInt8
  | none, bytes => bytes
  | some l, bytes => bytes.take l.room

def left (limit : Option Limit) (n : Nat) : Option Limit :=
  limit.map fun l => { l with room := l.room - n }

def verdict : Option Limit → Nat → Except Fault Unit
  | none, _ => .ok ()
  | some l, n => if n ≤ l.room then .ok () else .error l.fault

structure Buffer where
  capacity : Nat
  pending : Array UInt8 := #[]

structure Sink where
  accepted : Array UInt8 := #[]
  limit : Option Limit := none
  buffer : Option Buffer := none

/-- Writing to a sink. What was accepted before a fault stays accepted. -/
abbrev Writer := ExceptT Fault (StateM Sink)

/-- Hands bytes on, past the buffer. -/
def accept (bytes : List UInt8) : Writer Unit := fun sink =>
  (verdict sink.limit bytes.length,
    { sink with
      accepted := sink.accepted ++ taken sink.limit bytes
      limit := left sink.limit bytes.length })

def hold (bytes : List UInt8) : Writer Unit :=
  modify fun sink =>
    { sink with buffer := sink.buffer.map fun b => { b with pending := b.pending ++ bytes } }

/-- Hands on what waits in the buffer. What is not accepted goes on waiting. -/
def flush : Writer Unit := fun sink =>
  match sink.buffer with
  | none => (.ok (), sink)
  | some b =>
    let bytes := b.pending.toList
    let waiting := (bytes.drop (taken sink.limit bytes).length).toArray
    accept bytes { sink with buffer := some { b with pending := waiting } }

def put (piece : String) : Writer Unit := fun sink =>
  let bytes := Utf8.encode piece
  match sink.buffer with
  | none => accept bytes sink
  | some b =>
    if bytes.length < b.capacity then
      if b.pending.size + bytes.length ≤ b.capacity then hold bytes sink
      else (do flush; hold bytes : Writer Unit) sink
    else (do flush; accept bytes : Writer Unit) sink

def putAll : List String → Writer Unit
  | [] => pure ()
  | p :: ps => do
    put p
    putAll ps

def Sink.text (s : Sink) : String := String.ofList (Utf8.decodeLossy s.accepted.toList)

end LoadReport.Report
