import DeviceBus.Broker.Connection
import DeviceBus.CommandLine.Arguments
import DeviceBus.CommandLine.Server

/-! What both commands share: the options that name a broker, and a run against it. -/
namespace DeviceBus.CommandLine
open Broker Session

def anything (_ : String) : Bool := true

def isWord (value : String) : Bool := (Found.word? value).isSome

def connectionRules : List OptionRule :=
  [⟨"host", some "DMBUS_HOST", anything⟩, ⟨"port", some "DMBUS_PORT", isWord⟩,
    ⟨"keep-alive", some "DMBUS_KEEP_ALIVE", isWord⟩, ⟨"client-id", some "DMBUS_CLIENT_ID", anything⟩]

def verboseRule : FlagRule := ⟨"verbose", some 'v'⟩

structure Target where
  host : String
  port : UInt16
  keepAlive : UInt16
  clientId : Option String
deriving DecidableEq, Repr

def Target.ofFound (found : Found) : Except Stop Target := do
  let host ← found.required "host"
  return ⟨host, found.word "port" Settings.defaultPort,
    found.word "keep-alive" Settings.defaultKeepAlive, found.option? "client-id"⟩

def Target.settings (t : Target) : Except SettingsFlaw Settings := do
  let settings ← Settings.ofHost t.host
  let settings := (settings.withPort t.port).withKeepAlive t.keepAlive
  match t.clientId with
  | some clientId => settings.withClientId clientId
  | none => return settings

/-- The world of a command: the number of its process, the variables it sees, and which ports a broker
listens at. -/
structure World where
  process : String
  environment : List (String × String)
  listening : UInt16 → Option Server

def World.send (w : World) (s : Settings) : Call → Sending :=
  sendingOf (s.identifier w.process) s.keepAlive.toNat

def versionLine (program : String) : Outcome := ⟨0, [program ++ " 0.1.0"], [], []⟩

def stopped (program : String) : Stop → Outcome
  | .usage => .usageError
  | .version => versionLine program
  | .help => ⟨0, [], [], []⟩

end DeviceBus.CommandLine
