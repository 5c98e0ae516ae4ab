import ExpressionLanguage.Conversation.Transcript

namespace ExpressionLanguage

/-- An output. A flush fails when `failingFlush` has counted down to it; no flush is number zero. -/
structure Sink where
  room : Option Nat
  failingFlush : Option Nat
deriving DecidableEq, Repr

namespace Sink

def unlimited : Sink :=
  ⟨none, none⟩

def write (sink : Sink) (bytes : List UInt8) : List UInt8 × Option Sink :=
  match sink.room with
  | none => (bytes, some sink)
  | some room =>
      if bytes.length ≤ room then (bytes, some { sink with room := some (room - bytes.length) })
      else (bytes.take room, none)

def flush (sink : Sink) : Option Sink :=
  match sink.failingFlush with
  | some 1 => none
  | some n => some { sink with failingFlush := some (n - 1) }
  | none => some sink

end Sink

structure Delivery where
  bytes : List UInt8
  journal : List Entry
  result : Except StreamError Unit
deriving Repr

def encode (text : String) : List UInt8 :=
  text.toUTF8.data.toList

namespace Delivery

def perform (result : Except StreamError Unit) : Sink → List Action → Delivery
  | _, [] => ⟨[], [], result⟩
  | sink, .write text :: rest =>
      match sink.write (encode text) with
      | (taken, none) => ⟨taken, [], .error .outputLimit⟩
      | (taken, some next) =>
          let later := perform result next rest
          { later with bytes := taken ++ later.bytes }
  | sink, .flush :: rest =>
      match sink.flush with
      | none => ⟨[], [], .error .flushFailed⟩
      | some next => perform result next rest
  | sink, .log entry :: rest =>
      let later := perform result sink rest
      { later with journal := entry :: later.journal }

end Delivery

def Transcript.deliver (t : Transcript) (sink : Sink) : Delivery :=
  .perform t.result sink t.actions

end ExpressionLanguage
