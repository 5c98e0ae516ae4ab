namespace ExpressionLanguage

inductive Symbol where
  | leftParen | rightParen | leftBrace | rightBrace
  | comma | dot | minus | plus | semicolon | slash | star
  | bang | bangEqual | equal | doubleEqual
  | greater | greaterEqual | less | lessEqual
deriving DecidableEq, Repr

namespace Symbol

def all : List Symbol :=
  [leftParen, rightParen, leftBrace, rightBrace, comma, dot, minus, plus, semicolon, slash, star,
    bang, bangEqual, equal, doubleEqual, greater, greaterEqual, less, lessEqual]

def lexeme : Symbol → String
  | leftParen => "("
  | rightParen => ")"
  | leftBrace => "\x7b"
  | rightBrace => "\x7d"
  | comma => ","
  | dot => "."
  | minus => "-"
  | plus => "+"
  | semicolon => ";"
  | slash => "/"
  | star => "*"
  | bang => "!"
  | bangEqual => "!="
  | equal => "="
  | doubleEqual => "=="
  | greater => ">"
  | greaterEqual => ">="
  | less => "<"
  | lessEqual => "<="

theorem lexeme_ne_empty (s : Symbol) : s.lexeme ≠ "" := by
  cases s <;> decide

def ofChars? (cs : List Char) : Option Symbol :=
  all.find? fun s => s.lexeme.toList == cs

theorem ofChars?_lexeme (s : Symbol) : ofChars? s.lexeme.toList = some s := by
  cases s <;> rfl

theorem ofChars?_eq_some_iff {cs : List Char} {s : Symbol} :
    ofChars? cs = some s ↔ s.lexeme.toList = cs := by
  constructor
  · intro h
    simpa using List.find?_some h
  · rintro rfl
    exact ofChars?_lexeme s

def name : Symbol → String
  | leftParen => "LParen"
  | rightParen => "RParen"
  | leftBrace => "LBrace"
  | rightBrace => "RBrace"
  | comma => "Comma"
  | dot => "Dot"
  | minus => "Minus"
  | plus => "Plus"
  | semicolon => "Semicolon"
  | slash => "Slash"
  | star => "Star"
  | bang => "Bang"
  | bangEqual => "BangEq"
  | equal => "Eq"
  | doubleEqual => "DoubleEq"
  | greater => "Greater"
  | greaterEqual => "GreaterEq"
  | less => "Less"
  | lessEqual => "LessEq"

end Symbol

inductive Keyword where
  | andWord | classWord | elseWord | falseWord | functionWord | forWord | ifWord | nullWord
  | orWord | printWord | returnWord | superWord | thisWord | trueWord | varWord | whileWord
deriving DecidableEq, Repr

namespace Keyword

def all : List Keyword :=
  [andWord, classWord, elseWord, falseWord, functionWord, forWord, ifWord, nullWord, orWord,
    printWord, returnWord, superWord, thisWord, trueWord, varWord, whileWord]

def lexeme : Keyword → String
  | andWord => "and"
  | classWord => "class"
  | elseWord => "else"
  | falseWord => "false"
  | functionWord => "function"
  | forWord => "for"
  | ifWord => "if"
  | nullWord => "null"
  | orWord => "or"
  | printWord => "print"
  | returnWord => "return"
  | superWord => "super"
  | thisWord => "this"
  | trueWord => "true"
  | varWord => "var"
  | whileWord => "while"

def name : Keyword → String
  | andWord => "And"
  | classWord => "Class"
  | elseWord => "Else"
  | falseWord => "False"
  | functionWord => "Function"
  | forWord => "For"
  | ifWord => "If"
  | nullWord => "Null"
  | orWord => "Or"
  | printWord => "Print"
  | returnWord => "Return"
  | superWord => "Super"
  | thisWord => "This"
  | trueWord => "True"
  | varWord => "Var"
  | whileWord => "While"

def ofLexeme? (text : String) : Option Keyword :=
  all.find? fun k => k.lexeme == text

theorem ofLexeme?_lexeme (k : Keyword) : ofLexeme? k.lexeme = some k := by
  cases k <;> rfl

theorem ofLexeme?_eq_some_iff {text : String} {k : Keyword} :
    ofLexeme? text = some k ↔ k.lexeme = text := by
  constructor
  · intro h
    simpa using List.find?_some h
  · rintro rfl
    exact ofLexeme?_lexeme k

end Keyword

inductive Kind where
  | symbol (s : Symbol)
  | keyword (k : Keyword)
  | string
  | integer
  | float
  | identifier
  | endOfInput
deriving DecidableEq, Repr

namespace Kind

def fixed : List Kind :=
  Symbol.all.map symbol ++ Keyword.all.map keyword

def all : List Kind :=
  fixed ++ [string, integer, float, identifier, endOfInput]

def lexeme? : Kind → Option String
  | symbol s => some s.lexeme
  | keyword k => some k.lexeme
  | _ => none

def name : Kind → String
  | symbol s => s.name
  | keyword k => k.name
  | string => "String"
  | integer => "Integer"
  | float => "Float"
  | identifier => "Identifier"
  | endOfInput => "Eof"

def display (kind : Kind) : String :=
  kind.lexeme?.getD kind.name

def ofLexeme? (text : String) : Option Kind :=
  fixed.find? fun kind => kind.lexeme? == some text

def char? (kind : Kind) : Option Char :=
  match kind.lexeme?.map String.toList with
  | some [c] => some c
  | _ => none

def ofChar? (c : Char) : Option Kind :=
  fixed.find? fun kind => kind.char? == some c

def isOneOf (symbols : List Symbol) : Kind → Bool
  | symbol s => symbols.contains s
  | _ => false

theorem isOneOf_iff {symbols : List Symbol} {kind : Kind} :
    kind.isOneOf symbols = true ↔ ∃ s ∈ symbols, kind = symbol s := by
  cases kind <;> simp [isOneOf]

def isKeyword : Kind → Bool
  | keyword _ => true
  | _ => false

def isLiteral : Kind → Bool
  | string | integer | float => true
  | keyword .trueWord | keyword .falseWord | keyword .nullWord => true
  | _ => false

end Kind

end ExpressionLanguage
