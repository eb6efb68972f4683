import DeviceBus.Broker.Packet
import DeviceBus.ClientError
import DeviceBus.Session.Phase
import DeviceBus.Topic

/-! Log lines. Each notice is named for what it reports; its level and its wording are functions of it. -/
namespace DeviceBus

inductive Level
  | error
  | warn
  | info
  | debug
deriving DecidableEq, Repr

def Level.label : Level → String
  | error => "ERROR"
  | warn => "WARN"
  | info => "INFO"
  | debug => "DEBUG"

inductive Notice
  -- a session
  | cannotConnect (e : ClientError)
  | connected
  | cannotSubscribe (e : ClientError)
  | subscriptionRefused
  | listening
  | messageIgnored (topic : String)
  | recordWithoutPayload (path : String)
  | notDecoded (topic : String) (e : ClientError)
  | receiverDropped
  | cancelled
  | disconnected
  | transportFailed (code : Int) (reason : String)
  | eventIgnored (phase : Session.Phase) (event : Broker.Event)
  | cannotDisconnect (e : ClientError)
  -- a publication
  | published (topic : Topic)
  | stillWaiting (awaited event : Broker.Event)
  -- packets
  | filtersRefused (answers : List Broker.SubscribeAnswer)
  | topicNotUtf8 (fault : Utf8.Fault)
  -- a command line
  | listeningOn (host port algorithm : String)
  | interrupted
  | taskFailed (panic : String)
  | sessionEnded (code : Int)
  | failed (e : ClientError)
deriving DecidableEq, Repr

namespace Notice

def level : Notice → Level
  | cannotConnect _ | cannotSubscribe _ | subscriptionRefused | transportFailed .. | taskFailed _
  | failed _ => .error
  | notDecoded .. | cannotDisconnect _ | filtersRefused _ | topicNotUtf8 _ => .warn
  | connected | listening | receiverDropped | cancelled | disconnected | published _ | listeningOn ..
  | interrupted | sessionEnded _ => .info
  | messageIgnored _ | recordWithoutPayload _ | eventIgnored .. | stillWaiting .. => .debug

def text : Notice → String
  | cannotConnect e => "Impossible to connect to the broker: " ++ e.text
  | connected => "Connected, subscribing to `" ++ Topic.wildcard ++ "`"
  | cannotSubscribe e => "Impossible to subscribe to `" ++ Topic.wildcard ++ "`: " ++ e.text
  | subscriptionRefused => "The broker refused the subscription to `" ++ Topic.wildcard ++ "`"
  | listening => "Listening for notifications"
  | messageIgnored topic => "Message on `" ++ topic ++ "` ignored"
  | recordWithoutPayload path => "Record of `" ++ path ++ "` without payload"
  | notDecoded topic e => "Message on `" ++ topic ++ "` not decoded: " ++ e.text
  | receiverDropped => "Event receiver dropped, closing the session"
  | cancelled => "Subscriber cancelled"
  | disconnected => "Disconnected from the broker"
  | transportFailed code reason =>
    "Transport failure with code " ++ Decimal.intText code ++ ": " ++ reason
  | eventIgnored phase event => "Event ignored in state " ++ phase.label ++ ": " ++ event.inspect
  | cannotDisconnect e => "Impossible to disconnect cleanly: " ++ e.text
  | published topic => "Request published on `" ++ topic.text ++ "`"
  | stillWaiting awaited event =>
    "Waiting for " ++ awaited.inspect ++ ", event ignored: " ++ event.inspect
  | filtersRefused answers =>
    "Subscription refused: [" ++ ", ".intercalate (answers.map Broker.SubscribeAnswer.inspect) ++ "]"
  | topicNotUtf8 fault => "Publish with a non UTF-8 topic, discard it: " ++ fault.message
  | listeningOn host port algorithm => "Listening on " ++ host ++ ":" ++ port ++ " with " ++ algorithm
  | interrupted => "Interrupted, closing the session"
  | taskFailed panic =>
    "The subscriber task failed: task 1 panicked with message " ++ Quoted.text panic
  | sessionEnded code => "Session ended with code " ++ Decimal.intText code
  | failed e => e.text

end Notice
end DeviceBus
