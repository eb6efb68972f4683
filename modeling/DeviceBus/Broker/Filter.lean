import DeviceBus.Text.Segments
import DeviceBus.Text.Utf8

/-! Which topics can be published on and which filters can be subscribed to. A wildcard stands alone in its
level, and the one that covers all deeper levels stands last. -/
namespace DeviceBus.Broker

def isWildcard (c : Char) : Bool := c == '+' || c == '#'

def canPublish (topic : String) : Bool := !topic.toList.any isWildcard

def innerLevel (level : List Char) : Bool :=
  !level.contains '#' && (Utf8.size level ≤ 1 || !level.contains '+')

def lastLevel (level : List Char) : Bool := Utf8.size level = 1 || !level.any isWildcard

def levelsValid : List (List Char) → Bool
  | [] => true
  | [level] => lastLevel level
  | level :: next :: rest => innerLevel level && levelsValid (next :: rest)

def canSubscribe (filter : String) : Bool :=
  filter != "" && levelsValid (Segments.pieces '/' filter.toList)

end DeviceBus.Broker
