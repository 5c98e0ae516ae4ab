import ExpressionLanguage.Numeral.Integer

namespace ExpressionLanguage

inductive Severity where
  | error | warn | info | debug | trace
deriving DecidableEq, Repr

namespace Severity

def rank : Severity → Nat
  | error => 0
  | warn => 1
  | info => 2
  | debug => 3
  | trace => 4

def name : Severity → String
  | error => "ERROR"
  | warn => "WARN"
  | info => "INFO"
  | debug => "DEBUG"
  | trace => "TRACE"

def label : Severity → String
  | warn => "WARN "
  | info => "INFO "
  | s => s.name

def threshold : Nat → Severity
  | 0 => warn
  | 1 => info
  | 2 => debug
  | _ => trace

end Severity

inductive Component where
  | program | scanner | parser | conversation
deriving DecidableEq, Repr

def Component.path : Component → String
  | .program => "fredlang"
  | .scanner => "fredlang::interpreter::lexer"
  | .parser => "fredlang::interpreter::parser::core"
  | .conversation => "fredlang::repl"

structure Entry where
  severity : Severity
  component : Component
  message : String
deriving DecidableEq, Repr

namespace Entry

def logLine (time : String) (e : Entry) : String :=
  "[" ++ time ++ "] [" ++ e.severity.label ++ "] [" ++ e.component.path ++ "] " ++ e.message ++ "\n"

def isShown (verbosity : Nat) (e : Entry) : Bool :=
  e.severity.rank ≤ (Severity.threshold verbosity).rank

end Entry

end ExpressionLanguage
