import ExpressionLanguage.Diagnostic
import ExpressionLanguage.Journal
import ExpressionLanguage.Segment.Basic

/-!
Scanning: the tokens and the lexical errors of a source, each on its line. Line feeds are counted
late, up to the segment at hand, and the cursor jumps over strings without counting.
-/

namespace ExpressionLanguage

namespace Segment

def wordKind (name : String) : Kind :=
  match Keyword.ofLexeme? name with
  | some k => .keyword k
  | none => .identifier

def token? (line : Nat) : Segment → Option Token
  | text body => some ⟨.string, String.ofList body, line⟩
  | integer digits => some ⟨.integer, String.ofList digits, line⟩
  | float whole fraction => some ⟨.float, String.ofList (whole ++ '.' :: fraction), line⟩
  | word name => some ⟨wordKind (String.ofList name), String.ofList name, line⟩
  | symbol s => some ⟨.symbol s, s.lexeme, line⟩
  | _ => none

def error? (line : Nat) : Segment → Option ScanError
  | openText _ => some (.unterminatedString line)
  | stray c => some (.unexpectedCharacter c line)
  | _ => none

theorem token?_isSome_iff (line : Nat) (s : Segment) :
    (s.token? line).isSome = true ↔ s.error? line = none ∧ ∀ run, s ≠ blank run := by
  cases s <;> simp [token?, error?]

def isString : Segment → Bool
  | text _ | openText _ => true
  | _ => false

end Segment

structure Scan where
  tokens : List Token
  errors : List ScanError
  journal : List Entry
deriving Repr

namespace Scan

def errorEntry (e : ScanError) : Entry :=
  ⟨.debug, .scanner, e.message⟩

def summary (tokens errors lines : Nat) : Entry :=
  ⟨.trace, .scanner, "scanned " ++ Numeral.text tokens ++ " tokens with " ++ Numeral.text errors ++
    " errors over " ++ Numeral.text lines ++ " lines"⟩

end Scan

/-- A scan under way. The line is that of the cursor, and `unread` is the source from there on. -/
structure Scanner where
  unread : List Char
  cursor : Nat
  line : Nat
  tokens : Array Token
  errors : Array ScanError
  journal : Array Entry
deriving Repr

namespace Scanner

def start (source : List Char) : Scanner :=
  ⟨source, 0, 1, #[], #[], #[]⟩

def moveTo (sc : Scanner) (offset : Nat) : Scanner :=
  { sc with unread := sc.unread.drop (offset - sc.cursor), cursor := offset }

def countTo (sc : Scanner) (offset : Nat) : Scanner :=
  if sc.cursor < offset then
    let passed := sc.unread.take (offset - sc.cursor)
    { sc.moveTo offset with line := sc.line + passed.count '\n' }
  else sc

def push (sc : Scanner) (t : Token) : Scanner :=
  { sc with tokens := sc.tokens.push t }

def fail (sc : Scanner) (e : ScanError) : Scanner :=
  { sc with errors := sc.errors.push e, journal := sc.journal.push (Scan.errorEntry e) }

def report (sc : Scanner) (s : Segment) : Scanner :=
  match s.token? sc.line, s.error? sc.line with
  | some t, _ => sc.push t
  | none, some e => sc.fail e
  | none, none => sc

/-- Reads the segment that starts at the offset. Blanks are left to the next count. -/
def step (sc : Scanner) (offset : Nat) (s : Segment) : Scanner :=
  match s with
  | .blank _ => sc
  | _ =>
      let behind := offset + s.chars.length
      let reported := (sc.countTo offset).report s
      (if s.isString then reported.moveTo behind else reported).countTo behind

def run (sc : Scanner) (offset : Nat) : List Segment → Scanner
  | [] => sc
  | s :: rest => (sc.step offset s).run (offset + s.chars.length) rest

def finish (sc : Scanner) (length : Nat) : Scan :=
  let counted := sc.countTo length
  let endLine := counted.line + 1
  let tokens := counted.tokens.push (.fixed .endOfInput endLine)
  let entry := Scan.summary tokens.size counted.errors.size endLine
  ⟨tokens.toList, counted.errors.toList, (counted.journal.push entry).toList⟩

end Scanner

def scan (source : String) : Scan :=
  let chars := source.toList
  ((Scanner.start chars).run 0 (segments chars)).finish chars.length

end ExpressionLanguage
