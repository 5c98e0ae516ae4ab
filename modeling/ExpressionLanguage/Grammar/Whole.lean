import ExpressionLanguage.Grammar.Parse

namespace ExpressionLanguage

structure Parsed where
  expr : Expr
  errors : List ParseError
deriving Repr

def Parsed.isClean (p : Parsed) : Bool :=
  p.errors.isEmpty

namespace Cursor

def checkTrailing (c : Cursor) : Cursor :=
  match c.errors, c.tokens with
  | [], t :: _ =>
      if t.kind = .endOfInput then c
      else c.record (.unexpectedTrailingToken t.lexeme t.line)
  | _, _ => c

def parse (c : Cursor) : Except ParseError Parsed :=
  match Level.expression.parse c with
  | (.error e, _) => .error e
  | (.ok expr, rest) => .ok ⟨expr, rest.checkTrailing.errors⟩

def parseAll (c : Cursor) : Except (List ParseError) Expr × Cursor :=
  match Level.expression.parse c with
  | (.error e, stopped) =>
      let final := stopped.record e
      (.error final.errors, final)
  | (.ok expr, rest) =>
      let final := rest.checkTrailing
      (if final.errors.isEmpty then .ok expr else .error final.errors, final)

end Cursor

inductive Call where
  | level (l : Level)
  | literal
deriving DecidableEq, Repr

def Call.run : Call → Cursor → Outcome
  | level l, c => l.parse c
  | literal, c => c.literal

def session : List Call → Cursor → List Outcome
  | [], _ => []
  | call :: calls, c => call.run c :: session calls (call.run c).2

end ExpressionLanguage
