import ExpressionLanguage.Proofs.Expr.Inference
import ExpressionLanguage.Proofs.Grammar.Recovery

namespace ExpressionLanguage

def Value.integer? : Value → Option Int64
  | integer n => some n
  | _ => none

def Expr.integers (e : Expr) : List Int64 :=
  e.literals.filterMap Value.integer?

namespace Token

def integer? (t : Token) : Option Int64 :=
  t.meaning.toOption.bind Value.integer?

theorem integer?_eq_some_iff {t : Token} {n : Int64} :
    t.integer? = some n ↔ t.meaning = .ok (.integer n) := by
  unfold integer?
  cases t.meaning with
  | error fault => simp [Except.toOption]
  | ok v => cases v <;> simp [Except.toOption, Value.integer?]

def isOversized (t : Token) : Bool :=
  match t.meaning with
  | .error .tooLarge => true
  | _ => false

theorem isOversized_iff {t : Token} : t.isOversized = true ↔ t.meaning = .error .tooLarge := by
  unfold isOversized
  split
  · rename_i h
    simp [h]
  · rename_i h
    simpa using h

theorem meaning_of_isLiteral_eq_false {t : Token} (h : t.kind.isLiteral = false) :
    t.meaning = .error .malformed := by
  obtain ⟨kind, lexeme, line⟩ := t
  cases kind with
  | keyword k => cases k <;> simp_all [meaning, Kind.isLiteral]
  | _ => simp_all [meaning, Kind.isLiteral]

theorem meaning_of_symbol {t : Token} {s : Symbol} (h : t.kind = .symbol s) :
    t.meaning = .error .malformed :=
  meaning_of_isLiteral_eq_false (by rw [h]; rfl)

end Token

theorem Derives.literals_eq {level : Level} {w : List Token} {e : Expr} (h : Derives level w e) :
    e.literals = w.filterMap fun t => t.meaning.toOption := by
  induction h with
  | literal hvalue => simp [Expr.literals, Token.standsFor_iff.mp hvalue, Except.toOption]
  | group hopen _ hclose ih =>
    simp [Expr.literals, ih, Token.meaning_of_symbol hopen, Token.meaning_of_symbol hclose,
      Except.toOption]
  | primary _ ih => exact ih
  | unary hop _ ih =>
    have hmeaning := hop.elim Token.meaning_of_symbol Token.meaning_of_symbol
    simp [Expr.literals, ih, hmeaning, Except.toOption]
  | operand _ _ ih => exact ih
  | chain _ _ _ hop _ ihleft ihright =>
    simp [Expr.literals, ihleft, ihright, Token.meaning_of_symbol hop, Except.toOption]

theorem Derives.integers_eq {level : Level} {w : List Token} {e : Expr} (h : Derives level w e) :
    e.integers = w.filterMap Token.integer? := by
  rw [Expr.integers, h.literals_eq, List.filterMap_filterMap]
  rfl

theorem Repair.filterMap_integer? {null : Token} {rs : List Repair}
    (hnull : null.kind = .keyword .nullWord)
    (hlarge : ∀ t, .replace t ∈ rs → t.meaning = .error .tooLarge) :
    (rs.flatMap (repaired null)).filterMap Token.integer? =
      (rs.flatMap tokens).filterMap Token.integer? := by
  have hnone : null.integer? = none := by
    simp [Token.integer?, Token.meaning_null hnull, Except.toOption, Value.integer?]
  induction rs with
  | nil => rfl
  | cons r rs ih =>
    have hrest := ih fun t ht => hlarge t (by simp [ht])
    rw [List.flatMap_cons, List.flatMap_cons, List.filterMap_append, List.filterMap_append, hrest]
    congr 1
    cases r with
    | keep t => rfl
    | insert => simp [repaired, tokens, hnone]
    | replace t =>
      have ht : t.integer? = none := by
        simp [Token.integer?, hlarge t (by simp), Except.toOption]
      simp [repaired, tokens, hnone, ht]

theorem Level.integers_of_parse {level : Level} {c d : Cursor} {e : Expr} {w : List Token}
    (h : level.parse c = (.ok e, d)) (hw : c.tokens = w ++ d.tokens) :
    e.integers = w.filterMap Token.integer? := by
  obtain ⟨rs, hrs, hderives, -⟩ := recovers level c e d h
  obtain rfl : w = rs.flatMap Repair.tokens := List.append_cancel_right (hw.symm.trans hrs.tokens)
  have hnull : (Token.fixed (.keyword .nullWord) 1).kind = .keyword .nullWord := rfl
  rw [(hderives _ hnull).integers_eq, Repair.filterMap_integer? hnull hrs.tooLarge]

def ParseError.oversized? : ParseError → Option Token
  | literalTooLarge lexeme line => some ⟨.integer, lexeme, line⟩
  | _ => none

theorem ParseError.oversized?_eq_some_iff {err : ParseError} {t : Token} :
    err.oversized? = some t ↔ t.kind = .integer ∧ err = .literalTooLarge t.lexeme t.line := by
  obtain ⟨kind, lexeme, line⟩ := t
  cases err <;> simp [oversized?, eq_comm]

/-- Reading on from `c` to `d` consumes the tokens `w` and records the errors `errs`, which report
those of the tokens that are too large. -/
structure Consumes (c d : Cursor) (w : List Token) (errs : List ParseError) : Prop where
  tokens : c.tokens = w ++ d.tokens
  errors : d.errors = c.errors ++ errs
  recoverable : ∀ err ∈ errs, err.isFatal = false
  oversized : errs.filterMap ParseError.oversized? = w.filter Token.isOversized

namespace Consumes

theorem mem_tokens {c d : Cursor} {w : List Token} {errs : List ParseError}
    (h : Consumes c d w errs) {t : Token} (ht : t ∈ w) : t ∈ c.tokens := by
  rw [h.tokens]
  exact List.mem_append_left _ ht

theorem refl (c : Cursor) : Consumes c c [] [] :=
  ⟨rfl, by simp, by simp, rfl⟩

theorem trans {c d e : Cursor} {v w : List Token} {xs ys : List ParseError} (h : Consumes c d v xs)
    (h' : Consumes d e w ys) : Consumes c e (v ++ w) (xs ++ ys) where
  tokens := by rw [h.tokens, h'.tokens, List.append_assoc]
  errors := by rw [h'.errors, h.errors, List.append_assoc]
  recoverable := by
    intro err herr
    rcases List.mem_append.mp herr with herr | herr
    · exact h.recoverable err herr
    · exact h'.recoverable err herr
  oversized := by rw [List.filterMap_append, List.filter_append, h.oversized, h'.oversized]

theorem of_step? {c d : Cursor} {t : Token} (h : c.step? = some (t, d))
    (ht : t.isOversized = false) : Consumes c d [t] [] := by
  obtain ⟨htokens, herrors, -, -⟩ := Cursor.step?_eq_some_iff.mp h
  exact ⟨htokens, by simp [herrors], by simp, by simp [ht]⟩

theorem of_take? {c d : Cursor} {t : Token} {symbols : List Symbol}
    (h : c.take? symbols = some (t, d)) : Consumes c d [t] [] := by
  obtain ⟨hstep, hkind⟩ := Cursor.take?_eq_some_iff.mp h
  refine of_step? hstep ?_
  obtain ⟨s, -, hsymbol⟩ := Kind.isOneOf_iff.mp hkind
  simp [Token.isOversized, Token.meaning_of_symbol hsymbol]

theorem of_tooLarge {c d : Cursor} {t : Token} (h : c.step? = some (t, d))
    (ht : t.meaning = .error .tooLarge) :
    Consumes c (d.record (.literalTooLarge t.lexeme t.line)) [t]
      [.literalTooLarge t.lexeme t.line] := by
  obtain ⟨htokens, herrors, -, -⟩ := Cursor.step?_eq_some_iff.mp h
  have hreport : (ParseError.literalTooLarge t.lexeme t.line).oversized? = some t :=
    ParseError.oversized?_eq_some_iff.mpr ⟨Token.kind_of_tooLarge ht, rfl⟩
  exact ⟨htokens, by simp [herrors], by simp [ParseError.isFatal],
    by simp [hreport, Token.isOversized_iff.mpr ht]⟩

theorem of_missing (c : Cursor) : Consumes c c.missing.2 [] [c.missingError] := by
  obtain ⟨found, line, herr⟩ := Repair.expected_eq c.lastLine c.tokens
  rw [← c.missingError_eq] at herr
  exact ⟨rfl, rfl, by simp [herr, ParseError.isFatal], by simp [herr, ParseError.oversized?]⟩

end Consumes

structure Accounts (c : Cursor) (o : Outcome) (w : List Token) (errs : List ParseError) : Prop
    extends Consumes c o.2 w errs where
  fatal : ∀ err, o.1 = .error err → (∃ line, err = .unterminatedGroup line) ∨
    ∃ t ∈ w, t.kind.isLiteral = true ∧ t.meaning = .error .malformed

def Accounted (c : Cursor) (o : Outcome) : Prop :=
  ∃ w errs, Accounts c o w errs

namespace Accounted

variable {c d : Cursor} {o : Outcome}

theorem of_consumes {e : Expr} {w : List Token} {errs : List ParseError} (h : Consumes c d w errs) :
    Accounted c (.ok e, d) :=
  ⟨w, errs, h, fun _ herr => nomatch herr⟩

theorem after_consumes {v : List Token} {xs : List ParseError} (h : Consumes c d v xs)
    (h' : Accounted d o) : Accounted c o := by
  obtain ⟨w, errs, hconsumes, hfatal⟩ := h'
  refine ⟨v ++ w, xs ++ errs, h.trans hconsumes, ?_⟩
  intro err herr
  rcases hfatal err herr with hgroup | ⟨t, ht, hfault⟩
  · exact .inl hgroup
  · exact .inr ⟨t, List.mem_append_right v ht, hfault⟩

theorem andThen {next : Expr → Cursor → Outcome} (h : Accounted c o)
    (hnext : ∀ e d, o = (.ok e, d) → Accounted d (next e d)) : Accounted c (o.andThen next) := by
  obtain ⟨w, errs, hconsumes, hfatal⟩ := h
  obtain ⟨result, d⟩ := o
  cases result with
  | error err => exact ⟨w, errs, hconsumes, hfatal⟩
  | ok e => exact (hnext e d rfl).after_consumes hconsumes

theorem missing (c : Cursor) : Accounted c c.missing :=
  of_consumes (Consumes.of_missing c)

theorem literal {t : Token} {rest : List Token} (htokens : c.tokens = t :: rest)
    (hliteral : t.kind.isLiteral = true) : Accounted c c.literal := by
  have hstep := Cursor.step?_of_tokens htokens
  simp only [Cursor.literal, hstep]
  split
  · rename_i v hmeaning
    exact of_consumes (.of_step? hstep (by simp [Token.isOversized, hmeaning]))
  · rename_i hmeaning
    exact of_consumes (.of_tooLarge hstep hmeaning)
  · rename_i hmeaning
    refine ⟨[t], [], .of_step? hstep (by simp [Token.isOversized, hmeaning]), ?_⟩
    intro err _
    exact .inr ⟨t, by simp, hliteral, hmeaning⟩

end Accounted

theorem accounted_parse (level : Level) (c : Cursor) : Accounted c (level.parse c) := by
  have hjudgement : ReadingJudgement Accounted :=
    { done := fun _ c => .of_consumes (.refl c)
      unclosed := by
        intro line c
        refine ⟨[], [], .refl c, ?_⟩
        rintro err herr
        exact .inl ⟨line, (Except.error.inj herr).symm⟩
      missing := .missing
      literal := fun _ _ _ htokens hliteral => .literal htokens hliteral
      take := fun _ _ _ _ _ hop h => h.after_consumes (.of_take? hop)
      andThen := fun _ _ _ h hnext => h.andThen hnext }
  exact hjudgement.parse level c

end ExpressionLanguage
