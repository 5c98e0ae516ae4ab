import ExpressionLanguage.Conversation.InputLine
import ExpressionLanguage.Execute

/-!
The conversation: a banner, then a prompt and a reply for each line of input. It is laid down as a
list of actions first, so that what is said does not depend on where it goes.
-/

namespace ExpressionLanguage

inductive Action where
  | write (text : String)
  | flush
  | log (entry : Entry)
deriving DecidableEq, Repr

inductive StreamError where
  | invalidText
  | outputLimit
  | flushFailed
deriving DecidableEq, Repr

def StreamError.message : StreamError → String
  | invalidText => "stream did not contain valid UTF-8"
  | outputLimit => "output limit reached"
  | flushFailed => "flush failed"

structure Transcript where
  actions : List Action
  result : Except StreamError Unit
deriving Repr

def programName : String := "fredlang"

def programVersion : String := "0.1.0"

namespace Transcript

def banner : String :=
  programName ++ " " ++ programVersion ++ " REPL. Type an expression, or `exit` to quit."

def prompt : List Action :=
  [.write "> ", .flush]

def ended : Action :=
  .log ⟨.info, .conversation, "REPL session ended"⟩

def answer : Except Failure Value → String
  | .ok v => v.display
  | .error failure => failure.message

def reply (line : String) : List Action :=
  if line = "" then []
  else (execute line).journal.map .log ++ [.write (answer (execute line).result ++ "\n")]

inductive Turn where
  | more (actions : List Action)
  | done (actions : List Action) (result : Except StreamError Unit)

def turn : InputLine → Turn
  | .invalid => .done [] (.error .invalidText)
  | .text s =>
      let line := String.ofList (Text.trim s.toList)
      if line = "exit" then .done [ended] (.ok ()) else .more (reply line)

def farewell : List Action :=
  [.write "\n", ended]

def converse : List InputLine → Transcript
  | [] => ⟨prompt ++ farewell, .ok ()⟩
  | line :: rest =>
      match turn line with
      | .more actions => ⟨prompt ++ actions ++ (converse rest).actions, (converse rest).result⟩
      | .done actions result => ⟨prompt ++ actions, result⟩

def ofLines (lines : List InputLine) : Transcript :=
  ⟨.write (banner ++ "\n") :: (converse lines).actions, (converse lines).result⟩

def text (t : Transcript) : String :=
  String.join (t.actions.filterMap fun
    | .write text => some text
    | _ => none)

def journal (t : Transcript) : List Entry :=
  t.actions.filterMap fun
    | .log entry => some entry
    | _ => none

end Transcript

end ExpressionLanguage
