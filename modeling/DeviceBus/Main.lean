import DeviceBus.CommandLine.Listener
import DeviceBus.CommandLine.Requester

/-! The two commands as one program, whose first argument names the command. What the broker does is told on
standard input, one thing a line: the code of its answer to a connection, to a publication and to a
subscription, its messages as hexadecimal topic and body, and what it does in the end. Without such lines
nothing listens. -/
namespace DeviceBus.CommandLine

def silent : Server := ⟨none, none, [], [], .close⟩

def describe (s : Server) (line : String) : Server :=
  match (line.trimAscii.toString.splitOn " ") with
  | ["connack", code] => { s with connAck := code.toNat? }
  | ["puback", reason] => { s with pubAck := reason.toNat? }
  | "suback" :: codes => { s with subAck := codes.filterMap String.toNat? }
  | ["message", topic, body] =>
    match Hex.decode topic, Hex.decode body with
    | .ok topic, .ok body => { s with messages := s.messages ++ [(topic, body)] }
    | _, _ => s
  | ["end", "disconnect"] => { s with finish := .disconnect }
  | ["end", "interrupt"] => { s with finish := .interrupt }
  | _ => s

def serverOf? (lines : List String) : Option Server :=
  if lines.isEmpty then none else some (lines.foldl describe silent)

def environmentNames : List String :=
  ["DMBUS_HOST", "DMBUS_PORT", "DMBUS_KEEP_ALIVE", "DMBUS_CLIENT_ID", "DMBUS_KEY", "DMBUS_IV"]

def runProgram (w : World) : List String → Outcome
  | "secure-listener" :: arguments => Listener.run w arguments
  | "control-request" :: arguments => Requester.run w arguments
  | _ => .usageError

partial def readLines (input : IO.FS.Stream) (read : List String) : IO (List String) := do
  let line ← input.getLine
  if line.isEmpty then return read.reverse else readLines input (line :: read)

end DeviceBus.CommandLine

open DeviceBus.CommandLine in
def main (arguments : List String) : IO UInt32 := do
  let values ← environmentNames.mapM fun name => do return (← IO.getEnv name).map (name, ·)
  let server := serverOf? (← readLines (← IO.getStdin) [])
  let process := toString (← IO.monoMsNow)
  let outcome := runProgram ⟨process, values.filterMap id, fun _ => server⟩ arguments
  for notice in outcome.notices do
    IO.eprintln (notice.level.label ++ " " ++ notice.text)
  for line in outcome.lines do
    IO.println line
  return outcome.status.toUInt32
