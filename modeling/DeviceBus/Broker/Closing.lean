import DeviceBus.Broker.Connection

/-! How a disconnection goes on. Its request is queued first, as any other one is. Then the connection is polled until that
fails, which is how a connection shows that it is closed, and no longer than the time given to it. Times are in
milliseconds. -/
namespace DeviceBus.Broker

def flushLimit : Nat := 1000

structure Pull where
  delay : Nat
  succeeds : Bool
deriving DecidableEq, Repr

structure Flush where
  elapsed : Nat
  closed : Bool
deriving DecidableEq, Repr

def Flush.later (ms : Nat) (f : Flush) : Flush := { f with elapsed := ms + f.elapsed }

def flush (left : Nat) : List Pull → Flush
  | [] => ⟨left, false⟩
  | pull :: rest =>
    if pull.delay ≤ left then
      if pull.succeeds then (flush (left - pull.delay) rest).later pull.delay else ⟨pull.delay, true⟩
    else ⟨left, false⟩

inductive Closing
  | idle
  | refused
  | stuck
  | flushed (flush : Flush)
deriving DecidableEq, Repr

namespace Closing

def answer : Closing → Answer
  | idle | flushed _ => .done
  | refused => .refused .refusedRequest
  | stuck => .waiting

def time? : Closing → Option Nat
  | idle | refused => some 0
  | stuck => none
  | flushed flush => some flush.elapsed

def warning? : Closing → Option String
  | flushed flush => if flush.closed then none else some "The broker did not close the connection in time"
  | idle | refused | stuck => none

end Closing

namespace Connection

/-- The same as `disconnectIn`, with what comes after the last request is queued. -/
def closeIn (traffic : Traffic) (pulls : List Pull) (c : Connection) : Closing × Connection :=
  match c.session with
  | none => (.idle, c)
  | some queue =>
    (if traffic.accepts then (if queue.length < capacity then .flushed (flush flushLimit pulls) else .stuck) else .refused,
      { c with session := none, disconnected := true })

end Connection
end DeviceBus.Broker
