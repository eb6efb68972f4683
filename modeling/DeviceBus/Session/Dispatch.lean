import DeviceBus.Notice
import DeviceBus.Notification

/-! What becomes of one message. Its topic decides: notifications are decoded record by record, responses to
control requests are passed on untouched, all else is ignored. A record that cannot be decoded does not
keep the others from being decoded. -/
namespace DeviceBus.Session

inductive Delivery
  | notification (n : Notification)
  | controlResponse (topic : Topic) (body : Bytes)
deriving DecidableEq, Repr

structure Dispatch where
  deliveries : List Delivery
  errors : List ClientError
  notices : List Notice

inductive RecordOutcome
  | skipped (path : String)
  | decoded (n : Notification)
  | failed (e : ClientError)

namespace RecordOutcome

def ofRecord (context : CipherContext) (record : Record) : RecordOutcome :=
  if record.payload = "" then skipped record.resourcePath
  else match Notification.ofRecord context record with
    | .ok n => decoded n
    | .error flaw => failed (.ofData flaw.error)

def delivery? : RecordOutcome → Option Delivery
  | decoded n => some (.notification n)
  | skipped _ | failed _ => none

def error? : RecordOutcome → Option ClientError
  | failed e => some e
  | skipped _ | decoded _ => none

def notice? : RecordOutcome → Option Notice
  | skipped path => some (.recordWithoutPayload path)
  | decoded _ | failed _ => none

end RecordOutcome

namespace Dispatch

def ofRecords (context : CipherContext) (records : List Record) : Dispatch :=
  let outcomes := records.map (RecordOutcome.ofRecord context)
  ⟨outcomes.filterMap RecordOutcome.delivery?, outcomes.filterMap RecordOutcome.error?,
    outcomes.filterMap RecordOutcome.notice?⟩

def ofMessage (context : CipherContext) (topic : String) (body : Bytes) : Dispatch :=
  match (Topic.mk topic).classify with
  | .other => ⟨[], [], [.messageIgnored topic]⟩
  | .controlResponse => ⟨[.controlResponse ⟨topic⟩ body], [], []⟩
  | .notification =>
    match Envelope.read body with
    | .ok records => ofRecords context records
    | .error flaw => ⟨[], [.ofData flaw.error], []⟩

end Dispatch
end DeviceBus.Session
