import ExpressionLanguage.Expr.Eval
import ExpressionLanguage.Grammar.Whole
import ExpressionLanguage.Scan

namespace ExpressionLanguage

structure Run (α : Type) where
  result : Except Failure α
  journal : List Entry
deriving Repr

def stageEntry (severity : Severity) (message : String) : Entry :=
  ⟨severity, .program, message⟩

def treeOf (source : String) : Run Expr :=
  let scanned := scan source
  if scanned.errors.isEmpty then
    match (Cursor.start scanned.tokens).parseAll with
    | (.ok expr, final) => ⟨.ok expr, scanned.journal ++ final.journal⟩
    | (.error errors, final) => ⟨.error (.parse errors), scanned.journal ++ final.journal⟩
  else ⟨.error (.scan scanned.errors), scanned.journal⟩

def closingEntry : Except Failure Expr → List Entry
  | .ok expr => [stageEntry .trace ("evaluating " ++ expr.render)]
  | .error (.scan errors) =>
      [stageEntry .debug ("scanning failed with " ++ Numeral.text errors.length ++ " errors")]
  | .error (.parse errors) =>
      [stageEntry .debug ("parsing failed with " ++ Numeral.text errors.length ++ " errors")]
  | .error (.runtime _) => []

def evaluate (expr : Expr) : Except Failure Value :=
  expr.eval.mapError .runtime

def execute (source : String) : Run Value :=
  let tree := treeOf source
  ⟨tree.result.bind evaluate, tree.journal ++ closingEntry tree.result⟩

end ExpressionLanguage
