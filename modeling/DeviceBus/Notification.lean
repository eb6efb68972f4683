import DeviceBus.Envelope
import DeviceBus.Payload
import DeviceBus.Reading

/-! Notifications: the plaintexts of records, with the paths of the resources that gave them. -/
namespace DeviceBus

structure Notification where
  resourcePath : String
  plaintext : Bytes
deriving DecidableEq, Repr

namespace Notification

def ofRecord (context : CipherContext) (record : Record) : Except PayloadFlaw Notification :=
  (context.decrypt record.payload).map fun plaintext => ⟨record.resourcePath, plaintext⟩

def text? (n : Notification) : Option String := Utf8.toString? n.plaintext

def reading (n : Notification) : Reading := Reading.ofPlaintext n.plaintext

def display (n : Notification) : String :=
  (if n.resourcePath = "" then "<unknown resource>" else n.resourcePath) ++ ": " ++ n.reading.display

end Notification
end DeviceBus
