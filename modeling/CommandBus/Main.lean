import CommandBus.Demo.App
import CommandBus.Uuid.Timed
import Std.Time.DateTime.Timestamp

/-! # Command line

The demo application as a process: it is configured by its environment, reads requests from the
standard input, one a line, and writes the responses to the standard output.  What goes wrong
outside of a request ends it with a message and the exit code 1. -/

namespace CommandBus.Demo

/-- The variables that the application looks at. -/
def settingNames : List String :=
  ["RUST_LOG", "SWITCHBOARD_LOG_FORMAT", "SWITCHBOARD_NAMESPACE", "SWITCHBOARD_PROTOCOL_VERSION",
    "SWITCHBOARD_TOKEN_SECRET", "SWITCHBOARD_TOKEN_VALIDITY_SECS",
    "SWITCHBOARD_TOKEN_REMEMBER_ME_SECS", "SWITCHBOARD_USERS"]

/-- The environment of this process. -/
def readEnvironment : IO Environment := do
  let values ← settingNames.mapM fun name => return (name, ← IO.getEnv name)
  return fun name => (values.lookup name).bind id

/-- The time by the clock of this machine. -/
def readClock : IO Instant := do
  let nanos := (← Std.Time.Timestamp.now).toNanosecondsSinceUnixEpoch.toInt
  return (Instant.ofParts? (nanos / 1000000000) (nanos % 1000000000).toNat).getD Instant.epoch

/-- An identifier that no other response has. -/
def freshId : IO String := do
  let random ← IO.getRandomBytes 10
  let bits := random.toList.foldl (fun n b => n * 256 + b.toNat) 0
  return (Uuid.timed (← readClock).toMillis.toNat bits).text

/-- A salt that nobody can foresee. -/
def drawSalt : IO Salt := do
  let random ← IO.getRandomBytes 16
  return .ofFn fun i => random.toList.getD i 0

/-- Read a line with its line feed, or what is left of the input. -/
partial def readLine (input : IO.FS.Stream) (line : ByteArray) : IO ByteArray := do
  let byte ← input.read 1
  if byte.isEmpty then return line
  else if byte.toList = [10] then return line ++ byte
  else readLine input (line ++ byte)

/-- Tell of the error that ends the process. -/
def fatal (message : String) : IO UInt32 := do
  IO.eprintln (App.fatalText message)
  return 1

/-- Answer the lines of the input until it ends. -/
partial def serveLines (d : Dispatcher Instant) (input output : IO.FS.Stream)
    (r : Runtime Instant) : IO UInt32 := do
  let line ← readLine input ByteArray.empty
  if line.isEmpty then return 0
  let id ← freshId
  let (served, complete, r) := d.serveBytes (fun _ => id) line.toList { r with world := ← readClock }
  for response in served.lines do
    output.putStrLn response
    output.flush
  if complete then serveLines d input output r else fatal Dispatcher.notTextMessage

/-- Configure the application and serve the input. -/
def run : IO UInt32 := do
  let env ← readEnvironment
  for warning in (LogSettings.ofEnvironment env).2 do
    IO.eprintln warning
  -- no user text has more records than pieces
  let salts ← (UserRecord.pieces ';' (AppSettings.usersText env).toList).mapM fun _ => drawSalt
  match App.ofEnvironment (fun i => salts.getD i (.replicate 16 0)) env with
  | .error e => fatal e.message
  | .ok d => serveLines d (← IO.getStdin) (← IO.getStdout) { world := ← readClock }

end CommandBus.Demo

def main : IO UInt32 := CommandBus.Demo.run
