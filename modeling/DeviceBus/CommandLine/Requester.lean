import DeviceBus.CommandLine.Connecting
import DeviceBus.Publication

/-! The requester: publishes one control request and disconnects. -/
namespace DeviceBus.CommandLine.Requester
open Broker Session

def program : String := "control-request"

def grammar : Grammar where
  options := connectionRules
  flags := [verboseRule]
  commands := ["discover", "read", "subscribe", "unsubscribe"]
  places := 0
  versioned := true

def discoverGrammar : Grammar where
  options := [⟨"type", none, anything⟩]
  flags := [⟨"stale", none⟩]
  commands := []
  places := 0
  versioned := false

def resourceGrammar : Grammar where
  options := []
  flags := []
  commands := []
  places := 2
  versioned := false

def defaultType : String := "mbed-eth-device"

inductive Command
  | discover (endpointType : String) (stale : Bool)
  | resource (verb : Verb) (endpoint path : String)
deriving DecidableEq, Repr

def readDiscover (arguments : List String) : Except Stop Command := do
  let found ← discoverGrammar.read [] arguments
  return .discover ((found.option? "type").getD defaultType) (found.flags.contains "stale")

def readResource (verb : Verb) (arguments : List String) : Except Stop Command := do
  let found ← resourceGrammar.read [] arguments
  match found.places with
  | [endpoint, path] => return .resource verb endpoint path
  | _ => .error .usage

def Command.read : String → List String → Except Stop Command
  | "discover", arguments => readDiscover arguments
  | "read", arguments => readResource .read arguments
  | "subscribe", arguments => readResource .subscribe arguments
  | "unsubscribe", arguments => readResource .unsubscribe arguments
  | _, _ => .error .usage

def Command.request : Command → Except AddressFlaw Request
  | discover endpointType stale => .ok (.discover endpointType stale)
  | resource verb endpoint path => (Address.ofPath endpoint path).map (Request.ofVerb verb)

structure Options where
  target : Target
  command : Command
deriving DecidableEq, Repr

def readOptions (w : World) (arguments : List String) : Except Stop Options := do
  let found ← grammar.readFrom .nothing arguments
  match found.command with
  | none => .error .usage
  | some (name, rest) =>
    let command ← Command.read name rest
    let found ← grammar.complete w.environment found
    let target ← Target.ofFound found
    return ⟨target, command⟩

def setup (o : Options) : Except ClientError (Settings × Request) := do
  let settings ← o.target.settings.mapError SettingsFlaw.error
  let request ← o.command.request.mapError fun flaw => .ofData flaw.error
  return (settings, request)

def publish (w : World) (settings : Settings) (request : Request) : Outcome :=
  match settings.checkKeepAlive with
  | .error _ => .aborted []
  | .ok () =>
    let arrivals := (w.listening settings.port).map Server.toPublisher
    let script := (arrivals.map (·.map Arrival.step)).getD [dialStep .refused]
    let result := Publication.run .none request script
    let seen := sights (w.send settings) arrivals.isSome result.entries (arrivals.getD [])
    match result.outcome with
    | .ok () => .ofSights 0 [] [] seen []
    | .error e => .ofSights Outcome.failureStatus [] [] seen [.failed e]

def run (w : World) (arguments : List String) : Outcome :=
  match readOptions w arguments with
  | .error stop => stopped program stop
  | .ok o =>
    match setup o with
    | .error e => .failed e
    | .ok (settings, request) => publish w settings request

end DeviceBus.CommandLine.Requester
