import ExpressionLanguage.Grammar.Whole
import ExpressionLanguage.Proofs.Grammar.Recovery

namespace ExpressionLanguage

namespace Level

def resume : Level → Expr → Cursor → Outcome
  | binary tier, e, c => tier.chain e c
  | _, e, c => (.ok e, c)

def StopsParts : Level → List Token → Prop
  | binary tier, rest => tier.operand.Stops rest
  | _, _ => True

theorem resume_of_stops {level : Level} {e : Expr} {c : Cursor} (h : level.Stops c.tokens) :
    level.resume e c = (.ok e, c) := by
  cases level with
  | binary tier =>
    have hop := Cursor.take?_eq_none_iff.mpr (stops_binary_iff.mp h).1
    rw [resume, Tier.chain_eq, hop]
  | unary => rfl
  | primary => rfl

theorem parse_binary_of_stops (tier : Tier) {c d : Cursor} {e : Expr}
    (h : tier.operand.parse c = (.ok e, d)) (hstops : (binary tier).Stops d.tokens) :
    (binary tier).parse c = (.ok e, d) := by
  rw [parse_binary, h]
  exact resume_of_stops hstops

theorem expression_parse_of_unary {c d : Cursor} {e : Expr} (h : unary.parse c = (.ok e, d))
    (hend : AtEnd d.tokens) : expression.parse c = (.ok e, d) := by
  have hfactor := parse_binary_of_stops .factor h (hend.stops _)
  have hterm := parse_binary_of_stops .term hfactor (hend.stops _)
  have hcomparison := parse_binary_of_stops .comparison hterm (hend.stops _)
  exact parse_binary_of_stops .equality hcomparison (hend.stops _)

theorem parse_loneOpening (c : Cursor) (opening : Token) (htokens : c.tokens = [opening])
    (hkind : opening.kind = .symbol .leftParen) :
    ∃ d, expression.parse c = (.error (.unterminatedGroup opening.line), d) ∧
      d.errors = c.errors ++ [.expectedExpression "end of input" opening.line] := by
  let inside : Cursor := c.past [opening] []
  have hmissing : unary.parse inside = inside.missing := by
    rw [parse_unary, parse_primary]
    rfl
  have hinside : expression.parse inside = inside.missing :=
    expression_parse_of_unary hmissing (by simp [AtEnd, inside])
  have hop : c.take? unaryOperators = none :=
    Cursor.take?_eq_none_iff.mpr (by simp [htokens, hkind, unaryOperators, Kind.isOneOf])
  have hopen : c.take? [.leftParen] = some (opening, inside) :=
    Cursor.take?_of_tokens htokens (by simp [hkind, Kind.isOneOf])
  have hunary : unary.parse c =
      (.error (.unterminatedGroup opening.line), inside.missing.2) := by
    rw [parse_unary, hop, parse_primary, hopen]
    simp only [hinside]
    rfl
  refine ⟨inside.missing.2, ?_, rfl⟩
  simp [expression, parse_binary, Tier.operand, hunary, Outcome.andThen]

theorem StopsParts.of_stops {level : Level} {rest : List Token} (h : level.Stops rest) :
    level.StopsParts rest := by
  cases level with
  | binary tier => exact (stops_binary_iff.mp h).2
  | unary => trivial
  | primary => trivial

end Level

theorem Token.isOneOf_of_isLiteral {t : Token} (h : t.kind.isLiteral = true)
    (symbols : List Symbol) : t.kind.isOneOf symbols = false := by
  cases hkind : t.kind <;> simp_all [Kind.isLiteral, Kind.isOneOf]

theorem Derives.head_isOneOf {w rest : List Token} {e : Expr} (h : Derives .primary w e) :
    ∀ t ∈ (w ++ rest).head?, t.kind.isOneOf Level.unaryOperators = false := by
  intro t ht
  cases h with
  | literal hvalue =>
    obtain rfl : _ = t := by simpa using ht
    exact Token.isOneOf_of_isLiteral (Kind.mem_literals_iff.mp hvalue.mem_literals) _
  | group hopen _ _ =>
    obtain rfl : _ = t := by simpa using ht
    simp [hopen, Kind.isOneOf, Level.unaryOperators]

/-- The parser follows a derivation to its end and then goes on as its level does. -/
theorem parse_of_derives {level : Level} {w : List Token} {e : Expr} (h : Derives level w e)
    (c : Cursor) (rest : List Token) (htokens : c.tokens = w ++ rest)
    (hstops : level.StopsParts rest) :
    level.parse c = level.resume e (c.past w rest) := by
  induction h generalizing c rest with
  | @literal t v hvalue =>
    have hmeaning := Token.standsFor_iff.mp hvalue
    have hliteral := Kind.mem_literals_iff.mp hvalue.mem_literals
    have hop : c.take? [.leftParen] = none := by
      rw [Cursor.take?_eq_none_iff, htokens]
      simpa using Token.isOneOf_of_isLiteral hliteral _
    rw [Level.parse_primary, hop]
    simp [Cursor.atom, htokens, hliteral, Cursor.literal,
      Cursor.step?_of_tokens (show c.tokens = t :: rest from htokens), hmeaning, Level.resume]
  | @group opening w e closing hopen _ hclose ih =>
    have htokens' : c.tokens = opening :: (w ++ closing :: rest) := by simpa using htokens
    let inside := c.past [opening] (w ++ closing :: rest)
    have hop : c.take? [.leftParen] = some (opening, inside) :=
      Cursor.take?_of_tokens htokens' (by simp [hopen, Kind.isOneOf])
    have hinside : Level.expression.parse inside = _ :=
      ih inside (closing :: rest) rfl (.of_stops (Level.stops_rightParen hclose))
    rw [Level.resume_of_stops (Level.stops_rightParen hclose)] at hinside
    have hcloses : (inside.past w (closing :: rest)).take? [.rightParen] =
        some (closing, (inside.past w (closing :: rest)).past [closing] rest) :=
      Cursor.take?_of_tokens rfl (by simp [hclose, Kind.isOneOf])
    rw [Level.parse_primary, hop]
    simp only [hinside, Outcome.andThen, hcloses, Level.resume]
    simp [inside]
  | @primary w e hprimary ih =>
    have hop : c.take? Level.unaryOperators = none := by
      rw [Cursor.take?_eq_none_iff, htokens]
      exact hprimary.head_isOneOf
    rw [Level.parse_unary, hop]
    exact ih c rest htokens trivial
  | @unary op w e hkind _ ih =>
    have htokens' : c.tokens = op :: (w ++ rest) := htokens
    have hop := Cursor.take?_of_tokens htokens' (Kind.isOneOf_unaryOperators_iff.mpr hkind)
    have hoperand := ih (c.past [op] (w ++ rest)) rest rfl trivial
    rw [Level.parse_unary, hop]
    simp only [hoperand, Level.resume, Outcome.andThen, Cursor.past_past, List.singleton_append]
  | @operand tier ops level w e hrule _ ih =>
    obtain rfl := hrule.operand_eq
    have hoperand : tier.operand.Stops rest := hstops
    rw [Level.parse_binary, ih c rest htokens (.of_stops hoperand),
      Level.resume_of_stops (c := c.past w rest) hoperand]
    rfl
  | @chain tier ops level v left s op w right hrule _ hs hkind _ ihleft ihright =>
    obtain rfl := hrule.operators_eq
    obtain rfl := hrule.operand_eq
    have hoperator := Kind.isOneOf_iff.mpr ⟨s, hs, hkind⟩
    have hoperand : tier.operand.Stops rest := hstops
    have htokens' : c.tokens = v ++ op :: (w ++ rest) := by simpa using htokens
    have hleft := ihleft c (op :: (w ++ rest)) htokens'
      (Level.stops_cons.mpr (Level.not_extends_operand _ hoperator))
    have hop := Cursor.take?_of_tokens (Cursor.past_tokens c v (op :: (w ++ rest))) hoperator
    have hright := ihright (c.past (v ++ [op]) (w ++ rest)) rest rfl (.of_stops hoperand)
    rw [Level.resume_of_stops hoperand] at hright
    rw [hleft, Level.resume, Tier.chain_eq, hop]
    simp only [Cursor.past_past, hright, Outcome.andThen, Level.resume]
    simp

theorem parse_of_stops {level : Level} {w : List Token} {e : Expr} (h : Derives level w e)
    (c : Cursor) (rest : List Token) (htokens : c.tokens = w ++ rest) (hstops : level.Stops rest) :
    level.parse c = (.ok e, c.past w rest) :=
  (parse_of_derives h c rest htokens (.of_stops hstops)).trans (Level.resume_of_stops hstops)

theorem Derives.unique {level : Level} {w : List Token} {e e' : Expr} (h : Derives level w e)
    (h' : Derives level w e') : e = e' := by
  have hparse := parse_of_stops h (.start w) [] (by simp [Cursor.start]) level.stops_nil
  have hparse' := parse_of_stops h' (.start w) [] (by simp [Cursor.start]) level.stops_nil
  simpa [hparse] using hparse'

theorem derives_of_parse {level : Level} {c d : Cursor} {e : Expr}
    (h : level.parse c = (.ok e, d)) (herrors : d.errors = c.errors) :
    ∃ w, c.tokens = w ++ d.tokens ∧ Derives level w e ∧ level.Stops d.tokens := by
  obtain ⟨rs, hrs, hd, hstops⟩ := recovers level c e d h
  have hnone : Repair.complaints d.tokens c.lastLine rs = [] := by
    simpa [herrors] using hrs.errors
  have hderives := hd (.fixed (.keyword .nullWord) 1) rfl
  rw [Repair.repaired_of_complaints_nil hnone] at hderives
  exact ⟨_, hrs.tokens, hderives, hstops⟩

theorem parse_clean_iff {level : Level} {c : Cursor} {e : Expr} {rest : List Token} :
    (∃ d, level.parse c = (.ok e, d) ∧ d.errors = c.errors ∧ d.tokens = rest) ↔
      ∃ w, c.tokens = w ++ rest ∧ Derives level w e ∧ level.Stops rest := by
  constructor
  · rintro ⟨d, h, herrors, rfl⟩
    exact derives_of_parse h herrors
  · rintro ⟨w, htokens, h, hstops⟩
    exact ⟨c.past w rest, parse_of_stops h c rest htokens hstops, rfl, rfl⟩

namespace Cursor

theorem checkTrailing_errors_eq_nil_iff {c : Cursor} :
    c.checkTrailing.errors = [] ↔ c.errors = [] ∧ AtEnd c.tokens := by
  obtain ⟨tokens, errors, lastLine, journal⟩ := c
  cases errors with
  | cons err errors => simp [checkTrailing]
  | nil =>
    cases tokens with
    | nil => simp [checkTrailing, AtEnd]
    | cons t rest =>
      by_cases ht : t.kind = .endOfInput
      · simp [checkTrailing, AtEnd, ht]
      · simp [checkTrailing, AtEnd, ht]

theorem parseAll_eq_ok_iff {c : Cursor} {e : Expr} :
    c.parseAll.1 = .ok e ↔
      ∃ d, Level.expression.parse c = (.ok e, d) ∧ d.errors = [] ∧ AtEnd d.tokens := by
  unfold parseAll
  split
  · rename_i err stopped h
    simp [h]
  · rename_i e' d h
    have hend : d.checkTrailing.errors.isEmpty = true ↔ d.errors = [] ∧ AtEnd d.tokens := by
      rw [List.isEmpty_iff, checkTrailing_errors_eq_nil_iff]
    simp only [h, Prod.mk.injEq, Except.ok.injEq]
    constructor
    · intro hok
      split at hok
      · rename_i hclean
        exact ⟨d, ⟨Except.ok.inj hok, rfl⟩, hend.mp hclean⟩
      · simp at hok
    · rintro ⟨d', ⟨rfl, rfl⟩, hclean⟩
      rw [if_pos (hend.mpr hclean)]

theorem parse_eq_clean_iff {c : Cursor} {e : Expr} :
    c.parse = .ok ⟨e, []⟩ ↔ c.parseAll.1 = .ok e := by
  rw [parseAll_eq_ok_iff]
  unfold parse
  split
  · rename_i err stopped h
    simp [h]
  · rename_i e' d h
    simp only [h, Except.ok.injEq, Parsed.mk.injEq, checkTrailing_errors_eq_nil_iff,
      Prod.mk.injEq]
    constructor
    · rintro ⟨rfl, hd⟩
      exact ⟨d, ⟨rfl, rfl⟩, hd⟩
    · rintro ⟨d', ⟨rfl, rfl⟩, hd⟩
      exact ⟨rfl, hd⟩

theorem parseAll_start_iff {tokens : List Token} {e : Expr} :
    (start tokens).parseAll.1 = .ok e ↔ Derives .expression (beforeEnd tokens) e := by
  rw [parseAll_eq_ok_iff, derives_beforeEnd_iff]
  constructor
  · rintro ⟨d, h, herrors, hend⟩
    obtain ⟨w, htokens, hw, -⟩ := derives_of_parse h herrors
    exact ⟨w, d.tokens, htokens, hw, hend⟩
  · rintro ⟨w, rest, htokens, hw, hend⟩
    obtain ⟨d, h, herrors, rfl⟩ :=
      parse_clean_iff (c := start tokens).mpr ⟨w, htokens, hw, hend.stops _⟩
    exact ⟨d, h, herrors, hend⟩

end Cursor

theorem parse_exact :
    (∀ (level : Level) (c : Cursor) (e : Expr) (rest : List Token),
      (∃ d, level.parse c = (.ok e, d) ∧ d.errors = c.errors ∧ d.tokens = rest) ↔
        ∃ w, c.tokens = w ++ rest ∧ Derives level w e ∧
          ∀ t ∈ rest.head?, ¬ level.Extends t) ∧
    (∀ (level : Level) (w : List Token) (e e' : Expr),
      Derives level w e → Derives level w e' → e = e') ∧
    (∀ (tokens : List Token) (e : Expr),
      (Cursor.start tokens).parseAll.1 = .ok e ↔
        Derives (.binary .equality) (beforeEnd tokens) e) ∧
    ∀ (tokens : List Token) (e : Expr),
      (Cursor.start tokens).parse = .ok ⟨e, []⟩ ↔
        Derives (.binary .equality) (beforeEnd tokens) e := by
  refine ⟨fun _ _ _ _ => parse_clean_iff, fun _ _ _ _ => Derives.unique,
    fun _ _ => Cursor.parseAll_start_iff, ?_⟩
  intro tokens e
  rw [Cursor.parse_eq_clean_iff, Cursor.parseAll_start_iff]
  rfl

end ExpressionLanguage
