import DeviceBus.ClientError
import DeviceBus.Text.Blank

/-! Where a broker is and how a client presents itself to it. -/
namespace DeviceBus.Broker

/-- Without a chosen identifier, a client is named after its process. -/
structure Settings where
  host : String
  port : UInt16
  keepAlive : UInt16
  clientId : Option String
deriving DecidableEq, Repr

inductive SettingsFlaw
  | blankHost
  | emptyClientId
deriving DecidableEq, Repr

def SettingsFlaw.message : SettingsFlaw → String
  | .blankHost => "The broker host is empty"
  | .emptyClientId => "The client identifier is empty"

def SettingsFlaw.error (flaw : SettingsFlaw) : ClientError := ⟨.config, flaw.message⟩

namespace Settings

def defaultPort : UInt16 := 1883

def defaultKeepAlive : UInt16 := 60

def ofHost (host : String) : Except SettingsFlaw Settings :=
  if (Blank.trim host.toList).isEmpty then .error .blankHost
  else .ok ⟨host, defaultPort, defaultKeepAlive, none⟩

def withPort (s : Settings) (port : UInt16) : Settings := { s with port }

def withKeepAlive (s : Settings) (seconds : UInt16) : Settings := { s with keepAlive := seconds }

def withClientId (s : Settings) (clientId : String) : Except SettingsFlaw Settings :=
  if clientId = "" then .error .emptyClientId else .ok { s with clientId := some clientId }

def identifier (s : Settings) (process : String) : String := s.clientId.getD ("dmbus-" ++ process)

end Settings
end DeviceBus.Broker
