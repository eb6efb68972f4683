/-! The phases of a session, and how it ends. -/
namespace DeviceBus.Session

inductive Phase
  | disconnected
  | connecting
  | subscribing
  | listening
  | faulted
deriving DecidableEq, Repr

def Phase.label : Phase → String
  | disconnected => "Disconnected"
  | connecting => "Connecting"
  | subscribing => "Subscribing"
  | listening => "Listening"
  | faulted => "Faulted"

inductive Exit
  | disconnected
  | faulted (code : Int)
deriving DecidableEq, Repr

def Exit.code : Exit → Int
  | disconnected => 0
  | faulted code => code

end DeviceBus.Session
