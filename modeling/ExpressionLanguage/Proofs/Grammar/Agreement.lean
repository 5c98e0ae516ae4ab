import ExpressionLanguage.Proofs.Grammar.Exactness
import ExpressionLanguage.Proofs.Grammar.Operators
import ExpressionLanguage.Proofs.Grammar.Session

namespace ExpressionLanguage

inductive ParseError.Recovered : ParseError → Prop
  | missing (found : String) (line : Nat) : Recovered (.expectedExpression found line)
  | oversized (lexeme : String) (line : Nat) : Recovered (.literalTooLarge lexeme line)

namespace ParseError.Recovered

variable {err : ParseError}

theorem isFatal_eq_false (h : err.Recovered) : err.isFatal = false := by
  cases h with
  | missing found line => rfl
  | oversized lexeme line => rfl

theorem ne_trailing (h : err.Recovered) (lexeme : String) (line : Nat) :
    err ≠ .unexpectedTrailingToken lexeme line := by
  rintro rfl
  cases h

end ParseError.Recovered

theorem Repaired.recovered {c d : Cursor} {rs : List Repair} (h : Repaired c d rs)
    (hc : ∀ err ∈ c.errors, err.Recovered) : ∀ err ∈ d.errors, err.Recovered := by
  intro err herr
  rw [h.errors] at herr
  rcases List.mem_append.mp herr with herr | herr
  · exact hc err herr
  · rcases Repair.mem_complaints herr with ⟨found, line, rfl⟩ | ⟨lexeme, line, rfl⟩
    · exact .missing found line
    · exact .oversized lexeme line

theorem Cursor.recovered_after (tokens : List Token) (calls : List Call) :
    ∀ err ∈ ((start tokens).after calls).errors, err.Recovered := by
  obtain ⟨rs, hrs⟩ := repaired_after calls (start tokens)
  exact hrs.recovered (by simp [start])

/-- How the two results of reading a whole expression from `c` go together. -/
inductive WholeReading (c : Cursor) :
    Except ParseError Parsed → Except (List ParseError) Expr → Prop
  | stopped {f : ParseError} {d : Cursor} (hparse : Level.expression.parse c = (.error f, d))
      (hfatal : f.isFatal = true) (hrecovered : ∀ err ∈ d.errors, err.Recovered) :
      WholeReading c (.error f) (.error (d.errors ++ [f]))
  | mended {e : Expr} {d : Cursor} (hparse : Level.expression.parse c = (.ok e, d))
      (hne : d.errors ≠ []) (hrecovered : ∀ err ∈ d.errors, err.Recovered) :
      WholeReading c (.ok ⟨e, d.errors⟩) (.error d.errors)
  | followed {e : Expr} {d : Cursor} {t : Token} {rest : List Token}
      (hparse : Level.expression.parse c = (.ok e, d)) (herrors : d.errors = [])
      (htokens : d.tokens = t :: rest) (hkind : t.kind ≠ .endOfInput) :
      WholeReading c (.ok ⟨e, [.unexpectedTrailingToken t.lexeme t.line]⟩)
        (.error [.unexpectedTrailingToken t.lexeme t.line])
  | clean {e : Expr} {d : Cursor} (hparse : Level.expression.parse c = (.ok e, d))
      (herrors : d.errors = []) (hend : AtEnd d.tokens) :
      WholeReading c (.ok ⟨e, []⟩) (.ok e)

theorem wholeReading_of_recovered {c : Cursor} (hc : ∀ err ∈ c.errors, err.Recovered) :
    WholeReading c c.parse c.parseAll.1 := by
  obtain ⟨⟨rs, hrs⟩, hfatal⟩ := Reaches.parse .expression c
  have hrecovered := hrs.recovered hc
  unfold Cursor.parse Cursor.parseAll
  rcases hparse : Level.expression.parse c with ⟨result, d⟩
  rw [hparse] at hrecovered hfatal
  cases result with
  | error f => exact .stopped hparse (hfatal f rfl) hrecovered
  | ok e =>
    cases herrors : d.errors with
    | cons err errors =>
      have hchecked : d.checkTrailing = d := by simp [Cursor.checkTrailing, herrors]
      have hne : d.errors ≠ [] := by simp [herrors]
      simpa [hchecked, herrors] using WholeReading.mended hparse hne hrecovered
    | nil =>
      cases htokens : d.tokens with
      | nil =>
        have hchecked : d.checkTrailing = d := by simp [Cursor.checkTrailing, herrors, htokens]
        simpa [hchecked, herrors] using
          WholeReading.clean hparse herrors (by simp [AtEnd, htokens])
      | cons t rest =>
        by_cases hkind : t.kind = .endOfInput
        · have hchecked : d.checkTrailing = d := by
            simp [Cursor.checkTrailing, herrors, htokens, hkind]
          simpa [hchecked, herrors] using
            WholeReading.clean hparse herrors (by simpa [AtEnd, htokens] using hkind)
        · have hchecked :
              d.checkTrailing.errors = [.unexpectedTrailingToken t.lexeme t.line] := by
            simp [Cursor.checkTrailing, herrors, htokens, hkind]
          simpa [hchecked] using WholeReading.followed hparse herrors htokens hkind

theorem wholeReading_start (tokens : List Token) :
    WholeReading (.start tokens) (Cursor.start tokens).parse (Cursor.start tokens).parseAll.1 :=
  wholeReading_of_recovered (by simp [Cursor.start])

namespace WholeReading

variable {c : Cursor} {p : Except ParseError Parsed} {a : Except (List ParseError) Expr}

theorem ok_iff (h : WholeReading c p a) (e : Expr) : a = .ok e ↔ p = .ok ⟨e, []⟩ := by
  cases h with
  | stopped _ _ _ => simp
  | mended _ hne _ => simp [hne]
  | followed _ _ _ _ => simp
  | clean _ _ _ => simp

theorem recoverable_iff (h : WholeReading c p a) (es : List ParseError) :
    (a = .error es ∧ ∀ err ∈ es, err.isFatal = false) ↔ es ≠ [] ∧ ∃ e, p = .ok ⟨e, es⟩ := by
  cases h with
  | @stopped f d _ hfatal _ =>
    constructor
    · rintro ⟨hes, hall⟩
      obtain rfl := Except.error.inj hes
      simp [hall f (by simp)] at hfatal
    · rintro ⟨-, e, he⟩
      cases he
  | @mended e d _ hne hrecovered =>
    constructor
    · rintro ⟨hes, -⟩
      obtain rfl := Except.error.inj hes
      exact ⟨hne, e, rfl⟩
    · rintro ⟨-, e', he⟩
      obtain ⟨-, rfl⟩ := Parsed.mk.inj (Except.ok.inj he)
      exact ⟨rfl, fun err herr => (hrecovered err herr).isFatal_eq_false⟩
  | @followed e d t rest _ _ _ _ =>
    constructor
    · rintro ⟨hes, -⟩
      obtain rfl := Except.error.inj hes
      exact ⟨by simp, e, rfl⟩
    · rintro ⟨-, e', he⟩
      obtain ⟨-, rfl⟩ := Parsed.mk.inj (Except.ok.inj he)
      exact ⟨rfl, by simp [ParseError.isFatal]⟩
  | clean _ _ _ =>
    constructor
    · rintro ⟨hes, -⟩
      cases hes
    · rintro ⟨hne, e', he⟩
      obtain ⟨-, rfl⟩ := Parsed.mk.inj (Except.ok.inj he)
      exact absurd rfl hne

theorem fatal_iff (h : WholeReading c p a) (f : ParseError) :
    p = .error f ↔
      a = .error ((Level.expression.parse c).2.errors ++ [f]) ∧ f.isFatal = true ∧
        ∀ err ∈ (Level.expression.parse c).2.errors, err.isFatal = false := by
  cases h with
  | @stopped f' d hparse hfatal hrecovered =>
    simp only [hparse]
    constructor
    · intro hf
      obtain rfl := Except.error.inj hf
      exact ⟨rfl, hfatal, fun err herr => (hrecovered err herr).isFatal_eq_false⟩
    · rintro ⟨hes, -, -⟩
      obtain rfl : f' = f := by simpa using hes
      rfl
  | @mended e d hparse _ hrecovered =>
    simp [hparse]
  | @followed e d t rest hparse herrors _ _ =>
    simp only [hparse, herrors]
    constructor
    · intro hf
      cases hf
    · rintro ⟨hes, hfatal, -⟩
      obtain rfl : .unexpectedTrailingToken t.lexeme t.line = f := by simpa using hes
      cases hfatal
  | clean _ _ _ => simp

theorem returned_cases (h : WholeReading c p a) {es : List ParseError}
    (hes : a = .error es ∨ ∃ e, p = .ok ⟨e, es⟩) :
    (∀ err ∈ es, err.Recovered) ∨
    (∃ before f, es = before ++ [f] ∧ f.isFatal = true ∧ ∀ err ∈ before, err.Recovered) ∨
    ∃ lexeme line, es = [.unexpectedTrailingToken lexeme line] := by
  cases h with
  | @stopped f d _ hfatal hrecovered =>
    obtain rfl : d.errors ++ [f] = es := by simpa using hes
    exact .inr (.inl ⟨d.errors, f, rfl, hfatal, hrecovered⟩)
  | @mended e d _ _ hrecovered =>
    obtain rfl : d.errors = es := by simpa using hes
    exact .inl hrecovered
  | @followed e d t rest _ _ _ _ =>
    obtain rfl : [.unexpectedTrailingToken t.lexeme t.line] = es := by simpa using hes
    exact .inr (.inr ⟨t.lexeme, t.line, rfl⟩)
  | clean _ _ _ =>
    obtain rfl : [] = es := by simpa using hes
    exact .inl (by simp)

theorem fatal_last (h : WholeReading c p a) {es : List ParseError}
    (hes : a = .error es ∨ ∃ e, p = .ok ⟨e, es⟩) {xs ys : List ParseError} {f : ParseError}
    (hsplit : es = xs ++ f :: ys) (hfatal : f.isFatal = true) : ys = [] := by
  have hmem : f ∈ es := by simp [hsplit]
  rcases h.returned_cases hes with hrecovered | ⟨before, last, rfl, -, hrecovered⟩ |
    ⟨lexeme, line, rfl⟩
  · have hf := (hrecovered f hmem).isFatal_eq_false
    simp [hf] at hfatal
  · rcases List.eq_nil_or_concat ys with rfl | ⟨zs, y, rfl⟩
    · rfl
    · have hsplit' : before ++ [last] = xs ++ f :: zs ++ [y] := by simpa using hsplit
      obtain ⟨hbefore, -⟩ := List.append_inj' hsplit' rfl
      have hf := (hrecovered f (by simp [hbefore])).isFatal_eq_false
      simp [hf] at hfatal
  · obtain rfl := List.mem_singleton.mp hmem
    cases hfatal

theorem trailing_alone (h : WholeReading c p a) {es : List ParseError}
    (hes : a = .error es ∨ ∃ e, p = .ok ⟨e, es⟩) {lexeme : String} {line : Nat}
    (hmem : .unexpectedTrailingToken lexeme line ∈ es) :
    es = [.unexpectedTrailingToken lexeme line] := by
  rcases h.returned_cases hes with hrecovered | ⟨before, last, rfl, hfatal, hrecovered⟩ |
    ⟨lexeme', line', rfl⟩
  · exact absurd rfl ((hrecovered _ hmem).ne_trailing lexeme line)
  · rcases List.mem_append.mp hmem with hmem | hmem
    · exact absurd rfl ((hrecovered _ hmem).ne_trailing lexeme line)
    · obtain rfl := List.mem_singleton.mp hmem
      cases hfatal
  · rw [List.mem_singleton.mp hmem]

theorem trailing_iff (h : WholeReading c p a) (lexeme : String) (line : Nat) :
    a = .error [.unexpectedTrailingToken lexeme line] ↔
      c.errors = [] ∧ ∃ w e t rest, c.tokens = w ++ t :: rest ∧ Derives .expression w e ∧
        ¬ Level.expression.Extends t ∧ t.kind ≠ .endOfInput ∧ t.lexeme = lexeme ∧
        t.line = line := by
  constructor
  · intro ha
    have hmem : .unexpectedTrailingToken lexeme line ∈
        [ParseError.unexpectedTrailingToken lexeme line] := by simp
    cases h with
    | @stopped f d _ hfatal _ =>
      have hlast : d.errors ++ [f] = [] ++ [.unexpectedTrailingToken lexeme line] :=
        Except.error.inj ha
      obtain ⟨-, hf⟩ := List.append_inj' hlast rfl
      obtain rfl := List.singleton_inj.mp hf
      cases hfatal
    | @mended e d _ _ hrecovered =>
      rw [← Except.error.inj ha] at hmem
      exact absurd rfl ((hrecovered _ hmem).ne_trailing lexeme line)
    | @followed e d t rest hparse herrors htokens hkind =>
      obtain ⟨hlexeme, hline⟩ : t.lexeme = lexeme ∧ t.line = line := by simpa using ha
      obtain ⟨⟨rs, hrs⟩, -⟩ := Reaches.parse .expression c
      rw [hparse] at hrs
      have hc : c.errors = [] := (List.append_eq_nil_iff.mp (hrs.errors.symm.trans herrors)).1
      obtain ⟨w, hw, hderives, hstops⟩ := derives_of_parse hparse (herrors.trans hc.symm)
      rw [htokens] at hw hstops
      exact ⟨hc, w, e, t, rest, hw, hderives, Level.stops_cons.mp hstops, hkind, hlexeme, hline⟩
    | clean _ _ _ => cases ha
  · rintro ⟨hc, w, e, t, rest, hw, hderives, hstops, hkind, rfl, rfl⟩
    obtain ⟨d, hd, hderrors, hdtokens⟩ :=
      parse_clean_iff.mpr ⟨w, hw, hderives, Level.stops_cons.mpr hstops⟩
    cases h with
    | stopped hparse _ _ => simp [hparse] at hd
    | mended hparse hne _ =>
      obtain ⟨-, rfl⟩ := Prod.mk.inj (hparse.symm.trans hd)
      exact absurd (hderrors.trans hc) hne
    | @followed _ _ t' rest' hparse _ htokens _ =>
      obtain ⟨-, rfl⟩ := Prod.mk.inj (hparse.symm.trans hd)
      obtain ⟨rfl, -⟩ := List.cons.inj (htokens.symm.trans hdtokens)
      rfl
    | clean hparse _ hend =>
      obtain ⟨-, rfl⟩ := Prod.mk.inj (hparse.symm.trans hd)
      exact absurd (hend t (by simp [hdtokens])) hkind

end WholeReading

/-- The list behind an error of the reading that takes no errors is that of the other reading; a
fatal error, which the other reading returns alone, comes last in it. -/
theorem whole_readings_agree (tokens : List Token) (calls : List Call) :
    let c := (Cursor.start tokens).after calls
    (∀ e, c.parseAll.1 = .ok e ↔ c.parse = .ok ⟨e, []⟩) ∧
    (∀ es, (c.parseAll.1 = .error es ∧ ∀ err ∈ es, err.isFatal = false) ↔
      es ≠ [] ∧ ∃ e, c.parse = .ok ⟨e, es⟩) ∧
    (∀ f, c.parse = .error f ↔
      c.parseAll.1 = .error ((Level.expression.parse c).2.errors ++ [f]) ∧ f.isFatal = true ∧
        ∀ err ∈ (Level.expression.parse c).2.errors, err.isFatal = false) ∧
    (∀ es, (c.parseAll.1 = .error es ∨ ∃ e, c.parse = .ok ⟨e, es⟩) →
      (∀ xs f ys, es = xs ++ f :: ys → f.isFatal = true → ys = []) ∧
      ∀ lexeme line, .unexpectedTrailingToken lexeme line ∈ es →
        es = [.unexpectedTrailingToken lexeme line]) ∧
    ∀ lexeme line, c.parseAll.1 = .error [.unexpectedTrailingToken lexeme line] ↔
      c.errors = [] ∧ ∃ w e t rest, c.tokens = w ++ t :: rest ∧ Derives .expression w e ∧
        ¬ Level.expression.Extends t ∧ t.kind ≠ .endOfInput ∧ t.lexeme = lexeme ∧
        t.line = line := by
  intro c
  have h : WholeReading c c.parse c.parseAll.1 :=
    wholeReading_of_recovered (Cursor.recovered_after tokens calls)
  refine ⟨h.ok_iff, h.recoverable_iff, h.fatal_iff, ?_, h.trailing_iff⟩
  intro es hes
  refine ⟨?_, ?_⟩
  · intro xs f ys hsplit hfatal
    exact h.fatal_last hes hsplit hfatal
  · intro lexeme line hmem
    exact h.trailing_alone hes hmem

def openGroup : List Token :=
  [⟨.symbol .minus, "-", 3⟩, ⟨.symbol .leftParen, "(", 4⟩]

def twoNumbers : List Token :=
  [⟨.integer, "1", 1⟩, ⟨.integer, "2", 1⟩]

theorem whole_readings_agree_openGroup :
    let c := (Cursor.start openGroup).after [.literal]
    let errors : List ParseError := [.expectedExpression "end of input" 4, .unterminatedGroup 4]
    let trailing : List ParseError := [.unexpectedTrailingToken "2" 1]
    c.parse = .error (.unterminatedGroup 4) ∧ c.parseAll.1 = .error errors ∧
    (∀ xs f ys, errors = xs ++ f :: ys → f.isFatal = true → ys = []) ∧
    (Cursor.start twoNumbers).parseAll.1 = .error trailing ∧
    ∃ e, (Cursor.start twoNumbers).parse = .ok ⟨e, trailing⟩ := by
  intro c errors trailing
  obtain ⟨d, hparse, herrors⟩ : ∃ d, Level.expression.parse c = (.error (.unterminatedGroup 4), d) ∧
      d.errors = [.expectedExpression "end of input" 4] :=
    Level.parse_loneOpening c ⟨.symbol .leftParen, "(", 4⟩ rfl rfl
  have hfails : c.parse = .error (.unterminatedGroup 4) := by
    rw [Cursor.parse, hparse]
  obtain ⟨-, -, hfatal, hlist, -⟩ := whole_readings_agree openGroup [.literal]
  have hall : c.parseAll.1 = .error errors := by
    rw [((hfatal _).mp hfails).1, hparse, herrors]
    rfl
  obtain ⟨-, hrecoverable, -, -, htrailing⟩ := whole_readings_agree twoNumbers []
  have htwo : (Cursor.start twoNumbers).parseAll.1 = .error trailing := by
    refine (htrailing "2" 1).mpr ⟨rfl, [⟨.integer, "1", 1⟩], .literal (.integer 1),
      ⟨.integer, "2", 1⟩, [], rfl, ?_, ?_, by decide, rfl, rfl⟩
    · have hone : Derives .unary [⟨.integer, "1", 1⟩] (.literal (.integer 1)) :=
        .primary (.of_meaning rfl)
      exact hone.expression_of_unary
    · intro hextends
      obtain ⟨s, -, hkind⟩ := hextends.mem_binaryOperators
      cases hkind
  have hnone : ∀ err ∈ trailing, err.isFatal = false := by simp [trailing, ParseError.isFatal]
  exact ⟨hfails, hall, (hlist errors (.inl hall)).1, htwo,
    ((hrecoverable trailing).mp ⟨htwo, hnone⟩).2⟩

end ExpressionLanguage
