import DeviceBus.CommandLine.Connecting
import DeviceBus.Session.Run

/-! The listener: subscribes to the notifications of a bus and prints what they say, until the session ends.
Its status is the code of the session. -/
namespace DeviceBus.CommandLine.Listener
open Broker Session

def program : String := "secure-listener"

def largestBuffer : Nat := 0x1FFFFFFFFFFFFFFF

def buffer? (value : String) : Option Nat :=
  (Decimal.readNat? 0x10000000000000000 value.toList).filter (0 < ·)

def grammar : Grammar where
  options := connectionRules ++
    [⟨"key", some "DMBUS_KEY", anything⟩, ⟨"iv", some "DMBUS_IV", anything⟩,
      ⟨"buffer", none, fun value => (buffer? value).isSome⟩]
  flags := [verboseRule]
  commands := []
  places := 0
  versioned := true

structure Options where
  target : Target
  key : String
  iv : String
  buffer : Nat
deriving DecidableEq, Repr

def Options.ofFound (found : Found) : Except Stop Options := do
  let target ← Target.ofFound found
  let key ← found.required "key"
  let iv ← found.required "iv"
  return ⟨target, key, iv, ((found.option? "buffer").bind buffer?).getD 16⟩

inductive SetupFlaw
  | settings (flaw : SettingsFlaw)
  | keyNotHex (fault : Hex.Fault)
  | ivNotHex (fault : Hex.Fault)
  | cipher (flaw : CipherSetupFlaw)
deriving DecidableEq, Repr

def notHex (name : String) (fault : Hex.Fault) : ClientError :=
  ⟨.config, "The " ++ name ++ " is not a valid hexadecimal string: " ++ fault.message⟩

def SetupFlaw.error : SetupFlaw → ClientError
  | .settings flaw => flaw.error
  | .keyNotHex fault => notHex "key" fault
  | .ivNotHex fault => notHex "initialization vector" fault
  | .cipher flaw => .ofData flaw.error

def decodeHex (value : String) : Except Hex.Fault Bytes :=
  Hex.decode (String.ofList (Blank.trim value.toList))

def setup (o : Options) : Except SetupFlaw (Settings × CipherContext) := do
  let settings ← o.target.settings.mapError .settings
  let key ← (decodeHex o.key).mapError .keyNotHex
  let iv ← (decodeHex o.iv).mapError .ivNotHex
  let context ← (CipherContext.ofBytes key iv).mapError .cipher
  return (settings, context)

/-- A session code as the status of a process: as it is where a byte holds it, else a failure. -/
def status (code : Int) : Nat := if 0 ≤ code ∧ code ≤ 255 then code.toNat else Outcome.failureStatus

def deliveryText : Delivery → String
  | .notification n => n.display
  | .controlResponse topic body => topic.text ++ ": " ++ String.ofList (Utf8.decodeLossy body)

def deliveryLines (d : Delivery) : List String :=
  (Segments.pieces '\n' (deliveryText d).toList).map String.ofList

def listen (w : World) (buffer : Nat) (settings : Settings) (context : CipherContext) : Outcome :=
  let start := Notice.listeningOn settings.host (toString settings.port.toNat) context.algorithm
  if largestBuffer < buffer then .aborted [start]
  else match settings.checkKeepAlive with
    | .error flaw =>
      ⟨status protocolError, [], [start, .taskFailed flaw.message, .sessionEnded protocolError], []⟩
    | .ok () =>
      let arrivals := (w.listening settings.port).map Server.toListener
      let script := (arrivals.map (·.map Arrival.step)).getD [dialStep .refused]
      let report := Session.run ⟨context, .none⟩ .drained false script
      let code := (report.exit.map Exit.code).getD 0
      let seen := sights (w.send settings) arrivals.isSome report.entries (arrivals.getD [])
      .ofSights (status code) (report.deliveries.flatMap deliveryLines) [start] seen [.sessionEnded code]

def run (w : World) (arguments : List String) : Outcome :=
  match grammar.read w.environment arguments >>= Options.ofFound with
  | .error stop => stopped program stop
  | .ok o =>
    match setup o with
    | .error flaw => .failed flaw.error
    | .ok (settings, context) => listen w o.buffer settings context

end DeviceBus.CommandLine.Listener
