import ScenarioServer.Command.Run
import ScenarioServer.Files
import ScenarioServer.Wire.Connection

/-!
# The program

Reads files and the standard input, hands them to `Command.run` and `Wire.Connection.receiveText`,
and writes what these return. Files are read before they are needed: `Command.pathsFor` and
`Connection.pathsFor` tell which.
-/

namespace ScenarioServer

namespace Program

/-- The cause that a number of the operating system stands for, given as it is or negated. -/
def causeOfCode (code : UInt32) (text : String) : FileError := .ofCode code.toInt32.toInt.natAbs text

def causeOf : IO.Error → FileError
  | .noFileOrDirectory _ code text | .inappropriateType _ code text | .permissionDenied _ code text
  | .invalidArgument _ code text | .noSuchThing _ code text | .resourceExhausted _ code text
  | .alreadyExists _ code text | .interrupted _ code text => causeOfCode code text
  | .otherError code text | .resourceBusy code text | .resourceVanished code text
  | .unsupportedOperation code text | .hardwareFault code text | .unsatisfiedConstraints code text
  | .illegalOperation code text | .protocolError code text | .timeExpired code text =>
    causeOfCode code text
  | .unexpectedEof => .other 0 "unexpected end of file"
  | .userError text => .other 0 text

/-- The result of a file operation, with the cause if it failed. -/
def attempt {α : Type} (action : IO α) : IO (Except FileError α) := do
  match ← action.toBaseIO with
  | .ok result => return .ok result
  | .error e => return .error (causeOf e)

def look (path : String) : IO Sighting := do
  if path.toList.contains (Char.ofNat 0) then
    return { path, content := .error .zeroInName, resolved := .error .zeroInName }
  else
    let content ← attempt (IO.FS.readBinFile path)
    let resolved ← attempt (IO.FS.realPath path)
    return { path, content, resolved := resolved.map fun found => found.toString }

def filesAt (paths : List String) : IO FileSystem := do
  return FileSystem.ofSightings (← paths.mapM look)

/-- The header lines up to an empty line; none at the end of the input. -/
partial def readHeaders (input : IO.FS.Stream) (found : List String) : IO (Option (List String)) := do
  let line ← input.getLine
  if line.isEmpty then return none
  else
    let text := line.trimAscii.toString
    if text.isEmpty then return some found.reverse else readHeaders input (text :: found)

/-- Exactly `count` bytes behind those found so far, or fewer at the end of the input. -/
partial def readBytes (input : IO.FS.Stream) (count : Nat) (found : ByteArray) : IO ByteArray := do
  if found.size ≥ count then return found
  else
    let bytes ← input.read (count - found.size).toUSize
    if bytes.isEmpty then return found else readBytes input count (found ++ bytes)

/-- Serves messages until the input or the session ends. -/
partial def serve (input output : IO.FS.Stream) (connection : Wire.Connection) : IO Unit := do
  match ← readHeaders input [] with
  | none => return
  | some headers =>
    match Wire.contentLength? headers with
    | none => serve input output connection
    | some count =>
      let bytes ← readBytes input count ByteArray.empty
      let text := (String.fromUTF8? bytes).getD ""
      let files ← filesAt (connection.pathsFor text)
      let (connection, messages) := connection.receiveText files text
      for message in messages do
        output.putStr (Wire.frame message)
      output.flush
      if connection.stage = .ended then return else serve input output connection

end Program

end ScenarioServer

open ScenarioServer in
def main (arguments : List String) : IO UInt32 := do
  let known ← Program.filesAt (Command.pathsFor .empty arguments)
  let files ← Program.filesAt (Command.pathsFor known arguments)
  match Command.run files arguments with
  | .finished output =>
    (← IO.getStdout).putStr output.stdout
    (← IO.getStderr).putStr output.stderr
    return output.code.toUInt32
  | .serving server =>
    Program.serve (← IO.getStdin) (← IO.getStdout) { server }
    return 0
