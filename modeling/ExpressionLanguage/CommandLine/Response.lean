import ExpressionLanguage.CommandLine.Options
import ExpressionLanguage.Conversation.Transcript

namespace ExpressionLanguage

inductive ReadFailure where
  | missing
  | directory
  | invalidText
  | other (description : String)
deriving DecidableEq, Repr

def ReadFailure.message : ReadFailure → String
  | missing => "No such file or directory (os error 2)"
  | directory => "Is a directory (os error 21)"
  | invalidText => StreamError.invalidText.message
  | other description => description

def decodeFile (bytes : List UInt8) : Except ReadFailure String :=
  match String.fromUTF8? ⟨bytes.toArray⟩ with
  | some s => .ok s
  | none => .error .invalidText

structure Response where
  exitCode : Nat
  output : String
  complaints : String
  journal : List Entry
deriving Repr

namespace Response

def errorOutput (r : Response) (verbosity : Nat) (time : String) : String :=
  String.join ((r.journal.filter (·.isShown verbosity)).map (·.logLine time)) ++ r.complaints

def line (text : String) : String :=
  text ++ "\n"

def success (output : String) (journal : List Entry) : Response :=
  ⟨0, output, "", journal⟩

def failed (complaints : String) (journal : List Entry) : Response :=
  ⟨1, "", complaints, journal⟩

def ofRun {α : Type} (display : α → String) (run : Run α) : Response :=
  match run.result with
  | .ok a => success (line (display a)) run.journal
  | .error failure => failed (line failure.message) run.journal

def ofScan (scanned : Scan) : Response :=
  { exitCode := if scanned.errors.isEmpty then 0 else 1
    output := String.join (scanned.tokens.map fun t => line t.display)
    complaints := String.join (scanned.errors.map fun e => line e.message)
    journal := scanned.journal }

def ofTree (source : String) : Response :=
  let scanned := scan source
  if scanned.errors.isEmpty then
    match (Cursor.start scanned.tokens).parseAll with
    | (.ok expr, final) => success (line expr.render) (scanned.journal ++ final.journal)
    | (.error errors, final) =>
        failed (line (Failure.parse errors).message) (scanned.journal ++ final.journal)
  else failed (line (Failure.scan scanned.errors).message) scanned.journal

def ofSource (source : String) : Emit → Response
  | .value => ofRun Value.display (execute source)
  | .tokens => ofScan (scan source)
  | .tree => ofTree source

def ofTranscript (t : Transcript) : Response :=
  match t.result with
  | .ok () => success t.text t.journal
  | .error e =>
      { exitCode := 1
        output := t.text
        complaints := ""
        journal := t.journal ++ [stageEntry .error ("REPL stopped: " ++ e.message)] }

def readingEntry (path : String) : Entry :=
  stageEntry .info ("reading source from '" ++ path ++ "'")

def unreadable (path : String) (failure : ReadFailure) : Response :=
  failed (line ("Failed to read the input file '" ++ path ++
    "'. Perhaps this file does not exist? (" ++ failure.message ++ ")")) []

def ofFile (path : String) (contents : Except ReadFailure String) (emit : Emit) : Response :=
  let r :=
    match contents with
    | .ok source => ofSource source emit
    | .error failure => unreadable path failure
  { r with journal := readingEntry path :: r.journal }

def version : Response :=
  success (line (programName ++ " " ++ programVersion)) []

def usage : Response :=
  { exitCode := 2
    output := ""
    complaints := line ("Usage: " ++ programName ++ " [-f] [-v] [-e value|tokens|ast] [CONTENTS]")
    journal := [] }

def ofOptions (o : Options) (files : String → Except ReadFailure String)
    (lines : List InputLine) : Response :=
  let emit := o.emit.getD .value
  match o.contents with
  | none => ofTranscript (.ofLines lines)
  | some contents =>
      if o.file then ofFile contents (files contents) emit else ofSource contents emit

end Response

end ExpressionLanguage
