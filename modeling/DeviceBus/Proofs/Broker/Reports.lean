import DeviceBus.Broker.Connection
import DeviceBus.Broker.Packet

/-! The codes of failures that a transport over a network reports. None of them is zero, which stands for a clean end. -/
namespace DeviceBus.Broker

/-- What a transport over a network reports: an error of the connection, a packet of the broker, or what polling brings
where no broker is reached or no session was opened. -/
inductive Reported : Event → Prop
  | failure (failure : Failure) : Reported failure.event
  | packet (connecting : Bool) (packet : Packet) : Reported (packet.event connecting)
  | poll {event : Event} (connection : Connection) (dial : DialFault)
      (brings : (connection.pollIn (.unreachable dial)).1 = .polled event) : Reported event

def Coded (event : Event) : Prop := ∀ code reason, event = .failed code reason → code ∈ ([2, 4, 5, 7] : List Int)

private theorem Failure.event_coded (failure : Failure) : Coded failure.event := by
  intro code reason same
  cases same
  cases failure <;> simp [Failure.code, connectionRefused, connectionLost, protocolError]

private theorem Packet.event_coded (connecting : Bool) (packet : Packet) : Coded (packet.event connecting) := by
  unfold Packet.event
  split
  · exact Failure.event_coded _
  · split
    · exact Failure.event_coded _
    · cases packet with
      | connAck code =>
        rw [dueEvent]
        split
        · nofun
        · exact Failure.event_coded _
      | publish topic body qos =>
        rw [dueEvent]
        split <;> nofun
      | disconnect reason text => exact Failure.event_coded _
      | close => exact Failure.event_coded _
      | subAck | pubAck | pingResp | unsubAck => nofun

private theorem Connection.poll_coded {connection : Connection} {dial : DialFault} {event : Event}
    (brings : (connection.pollIn (.unreachable dial)).1 = .polled event) : Coded event := by
  unfold pollIn at brings
  split at brings
  · cases brings
    exact Failure.event_coded _
  · cases brings
    split
    · nofun
    · intro code reason same
      cases same
      decide

theorem Reported.coded {event : Event} (reported : Reported event) : Coded event := by
  cases reported with
  | failure failure => exact failure.event_coded
  | packet connecting packet => exact packet.event_coded connecting
  | poll connection dial brings => exact Connection.poll_coded brings

end DeviceBus.Broker
