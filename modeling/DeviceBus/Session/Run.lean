import DeviceBus.Session.Turn

/-! Whole sessions. A session polls its transport and hands what it decodes to a channel. The channel holds a
bounded number of deliveries when nobody takes them, and then suspends the session for good when it is
full; a reader that takes every delivery never lets it fill up; and once the receiver is gone, the
first delivery ends the session. -/
namespace DeviceBus.Session

inductive Channel
  /-- Nobody takes deliveries, and there is room for so many more. -/
  | unread (room : Nat)
  | drained
  | closed
deriving DecidableEq, Repr

inductive Sent
  | all (channel : Channel)
  | stuck
  | refused
deriving DecidableEq, Repr

def Channel.send : Channel → List Delivery → List Delivery × Sent
  | channel, [] => ([], .all channel)
  | .closed, _ :: _ => ([], .refused)
  | .unread 0, _ :: _ => ([], .stuck)
  | .unread (room + 1), d :: rest =>
    let (taken, sent) := Channel.send (.unread room) rest
    (d :: taken, sent)
  | .drained, d :: rest =>
    let (taken, sent) := Channel.send .drained rest
    (d :: taken, sent)

/-- What is known of a session once it has ended, or waits for ever and has no exit. -/
structure Report where
  entries : List Entry
  deliveries : List Delivery
  phase : Phase
  exit : Option Exit

namespace Report

def after (entries : List Entry) (deliveries : List Delivery) (rest : Report) : Report :=
  { rest with entries := entries ++ rest.entries, deliveries := deliveries ++ rest.deliveries }

def pending (phase : Phase) : Report := ⟨[], [], phase, none⟩

def ended (entries : List Entry) (phase : Phase) (exit : Exit) : Report := ⟨entries, [], phase, some exit⟩

def closing (failures : Failures) (notice : Notice) : Report :=
  ended (.log notice :: leave failures) .disconnected .disconnected

end Report

def follow (setup : Setup) (phase : Phase) (channel : Channel) : List Step → Report
  | [] => .pending phase
  | .wait _ :: rest => follow setup phase channel rest
  | .dropReceiver :: rest => follow setup phase .closed rest
  | .cancel :: _ => .closing setup.failures .cancelled
  | .event event :: rest =>
    let turn := turn setup phase event
    let (taken, sent) := channel.send turn.deliveries
    .after (.poll event :: turn.entries) taken
      (match sent with
        | .stuck => .pending phase
        | .refused => .closing setup.failures .receiverDropped
        | .all channel =>
          match turn.next with
          | .stay phase => follow setup phase channel rest
          | .finish phase exit => .ended [] phase exit)

def run (setup : Setup) (channel : Channel) (cancelled : Bool) (script : List Step) : Report :=
  .after [.call .connect] []
    (match setup.failures.connect with
      | some info =>
        .ended [.log (.cannotConnect (callError info))] .faulted (.faulted Broker.noConnection)
      | none =>
        if cancelled then .closing setup.failures .cancelled
        else follow setup .connecting channel script)

def phases (setup : Setup) (channel : Channel) (cancelled : Bool) (script : List Step) : List Phase :=
  (List.range (script.length + 1)).map fun n => (run setup channel cancelled (script.take n)).phase

end DeviceBus.Session
