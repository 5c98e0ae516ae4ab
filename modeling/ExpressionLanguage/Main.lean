import ExpressionLanguage.CommandLine.Response
import Std.Time.DateTime.Timestamp

namespace ExpressionLanguage

def padded (width n : Nat) : String :=
  String.ofList (List.replicate (width - (Numeral.digits n).length) '0') ++ Numeral.text n

def timeOfDay : IO String := do
  let now ← Std.Time.Timestamp.now
  let total := now.toMillisecondsSinceUnixEpoch.val.toNat
  let seconds := total / 1000
  return padded 2 (seconds / 3600 % 24) ++ ":" ++ padded 2 (seconds / 60 % 60) ++ ":" ++
    padded 2 (seconds % 60) ++ "." ++ padded 3 (total % 1000)

def writeEntry (verbosity : Nat) (entry : Entry) : IO Unit := do
  if entry.isShown verbosity then
    (← IO.getStderr).putStr (entry.logLine (← timeOfDay))

def perform (verbosity : Nat) : Action → IO Unit
  | .write text => do (← IO.getStdout).putStr text
  | .flush => do (← IO.getStdout).flush
  | .log entry => writeEntry verbosity entry

partial def lineBytes (stream : IO.FS.Stream) (taken : List UInt8) : IO (List UInt8) := do
  match (← stream.read 1).data.toList with
  | [] => return taken.reverse
  | b :: _ => if b = 10 then return (b :: taken).reverse else lineBytes stream (b :: taken)

def nextLine : IO (Option InputLine) := do
  match ← lineBytes (← IO.getStdin) [] with
  | [] => return none
  | bytes => return some (.ofBytes bytes)

/-- Holds the conversation line by line, so that a prompt comes before its line is read. -/
partial def converse (verbosity : Nat) : IO (Except StreamError Unit) := do
  Transcript.prompt.forM (perform verbosity)
  match ← nextLine with
  | none =>
      Transcript.farewell.forM (perform verbosity)
      return .ok ()
  | some line =>
      match Transcript.turn line with
      | .more actions =>
          actions.forM (perform verbosity)
          converse verbosity
      | .done actions result =>
          actions.forM (perform verbosity)
          return result

def readSource (path : String) : IO (Except ReadFailure String) := do
  try
    return decodeFile (← IO.FS.readBinFile path).data.toList
  catch
    | .noFileOrDirectory .. => return .error .missing
    | .inappropriateType .. => return .error .directory
    | e => return .error (.other e.toString)

def print (verbosity : Nat) (r : Response) : IO UInt32 := do
  r.journal.forM (writeEntry verbosity)
  (← IO.getStdout).putStr r.output
  (← IO.getStderr).putStr r.complaints
  return r.exitCode.toUInt32

def runOptions (o : Options) : IO UInt32 := do
  match o.contents with
  | none =>
      perform o.verbosity (.write (Transcript.banner ++ "\n"))
      print o.verbosity (.ofTranscript ⟨[], ← converse o.verbosity⟩)
  | some contents =>
      let file ← if o.file then readSource contents else pure (.error .missing)
      print o.verbosity (.ofOptions o (fun _ => file) [])

def runArguments (arguments : List String) : IO UInt32 :=
  match Command.ofArguments arguments with
  | .version => print 0 .version
  | .usageError => print 0 .usage
  | .run o => runOptions o

end ExpressionLanguage

def main (arguments : List String) : IO UInt32 :=
  ExpressionLanguage.runArguments arguments
