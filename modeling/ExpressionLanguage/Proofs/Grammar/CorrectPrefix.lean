import ExpressionLanguage.Proofs.Grammar.Awaiting

namespace ExpressionLanguage

def Outcome.report (o : Outcome) : List ParseError :=
  match o.1 with
  | .ok _ => o.2.errors
  | .error err => o.2.errors ++ [err]

structure Clean (s s' : Awaiting) (c : Cursor) (o : Outcome) (e : Expr) (w : List Token) :
    Prop where
  result : o.1 = .ok e
  tokens : c.tokens = w ++ o.2.tokens
  errors : o.2.errors = c.errors
  lastLine : o.2.lastLine = lineAfter c.lastLine w
  run : s.run w = some s'

/-- The first error `err` arises behind the tokens `w`, where `rest` cannot go on. -/
structure Fault (s : Awaiting) (c : Cursor) (o : Outcome) (w rest : List Token) (s' : Awaiting)
    (err : ParseError) : Prop where
  tokens : c.tokens = w ++ rest
  run : s.run w = some s'
  report : ∃ errs, o.report = c.errors ++ err :: errs
  unfinished : s' ≠ .operator 0
  blocked : ∀ t ∈ rest.head?, s'.step t = none
  cause : err = Repair.expected (lineAfter c.lastLine w) rest ∨
    (o.1 = .error err ∧ o.2.tokens = rest ∧ ∃ line, err = .unterminatedGroup line) ∨
    ∃ t ∈ rest.head?, t.kind.isLiteral = true ∧ ∀ v, t.meaning ≠ .ok v

def Tracks (s s' : Awaiting) (c : Cursor) (o : Outcome) : Prop :=
  (∃ e w, Clean s s' c o e w) ∨ ∃ w rest s'' err, Fault s c o w rest s'' err

namespace Tracks

variable {s s' s'' : Awaiting} {c : Cursor} {o : Outcome}

theorem report (h : Tracks s s' c o) : ∃ errs, o.report = c.errors ++ errs := by
  rcases h with ⟨e, w, hclean⟩ | ⟨w, rest, s₁, err, hfault⟩
  · exact ⟨[], by simp [Outcome.report, hclean.result, hclean.errors]⟩
  · obtain ⟨errs, herrs⟩ := hfault.report
    exact ⟨_, herrs⟩

theorem after_clean {d : Cursor} {w : List Token} {e : Expr} (hclean : Clean s s' c (.ok e, d) e w)
    (h : Tracks s' s'' d o) : Tracks s s'' c o := by
  rcases h with ⟨e', v, hnext⟩ | ⟨v, rest, s₁, err, hfault⟩
  · refine .inl ⟨e', w ++ v, hnext.result, ?_, ?_, ?_, ?_⟩
    · rw [hclean.tokens, hnext.tokens, List.append_assoc]
    · rw [hnext.errors, hclean.errors]
    · rw [hnext.lastLine, hclean.lastLine, lineAfter_append]
    · simp [Awaiting.run_append, hclean.run, hnext.run]
  · refine .inr ⟨w ++ v, rest, s₁, err, ?_, ?_, ?_, hfault.unfinished, hfault.blocked, ?_⟩
    · rw [hclean.tokens, hfault.tokens, List.append_assoc]
    · simp [Awaiting.run_append, hclean.run, hfault.run]
    · rw [← hclean.errors]
      exact hfault.report
    · have hcause := hfault.cause
      rwa [hclean.lastLine, ← lineAfter_append] at hcause

theorem andThen {next : Expr → Cursor → Outcome} (h : Tracks s s' c o)
    (hnext : ∀ e d, o = (.ok e, d) → Tracks s' s'' d (next e d)) :
    Tracks s s'' c (o.andThen next) := by
  obtain ⟨result, d⟩ := o
  rcases h with ⟨e, w, hclean⟩ | ⟨w, rest, s₁, err, hfault⟩
  · obtain rfl : result = .ok e := hclean.result
    exact after_clean hclean (hnext e d rfl)
  · refine .inr ⟨w, rest, s₁, err, ?_⟩
    cases result with
    | error fatal => exact ⟨hfault.tokens, hfault.run, hfault.report, hfault.unfinished,
        hfault.blocked, hfault.cause⟩
    | ok e =>
      -- a later part only adds to the errors, and a fatal one would have ended the first part
      obtain ⟨errs, herrs⟩ := hfault.report
      obtain ⟨more, hmore⟩ := (hnext e d rfl).report
      have hd : d.errors = c.errors ++ err :: errs := herrs
      refine ⟨hfault.tokens, hfault.run, ⟨errs ++ more, ?_⟩, hfault.unfinished,
        hfault.blocked, ?_⟩
      · rw [Outcome.andThen, hmore, hd]
        simp
      · rcases hfault.cause with hexpected | ⟨hfatal, -⟩ | hliteral
        · exact .inl hexpected
        · simp at hfatal
        · exact .inr (.inr hliteral)

theorem of_take? {d : Cursor} {t : Token} {symbols : List Symbol}
    (hop : c.take? symbols = some (t, d)) (hstep : s.step t = some s') (h : Tracks s' s'' d o) :
    Tracks s s'' c o := by
  obtain ⟨htokens, hpast, -⟩ := Cursor.take?_eq_past hop
  have hclean : Clean s s' c (.ok (.literal .null), d) (.literal .null) [t] := by
    refine ⟨rfl, htokens, ?_, ?_, by simp [hstep]⟩
    · rw [hpast]
      rfl
    · rw [hpast]
      rfl
  exact after_clean hclean h

theorem refl (s : Awaiting) (c : Cursor) (e : Expr) : Tracks s s c (.ok e, c) :=
  .inl ⟨e, [], rfl, rfl, rfl, rfl, rfl⟩

theorem of_missing {n : Nat} (hblocked : ∀ t ∈ c.tokens.head?, (Awaiting.operand n).step t = none) :
    Tracks (.operand n) s' c c.missing := by
  refine .inr ⟨[], c.tokens, .operand n, c.missingError, rfl, rfl, ⟨[], ?_⟩, by simp, hblocked,
    .inl c.missingError_eq⟩
  rfl

theorem of_literal {n : Nat} {t : Token} {rest : List Token} (htokens : c.tokens = t :: rest)
    (hliteral : t.kind.isLiteral = true) : Tracks (.operand n) (.operator n) c c.literal := by
  have hparen : t.kind ≠ .symbol .leftParen := by
    intro hkind
    simp [hkind, Kind.isLiteral] at hliteral
  have hunary := Token.isOneOf_of_isLiteral hliteral Level.unaryOperators
  have hfault : ∀ (o : Outcome) (err : ParseError), (∀ v, t.meaning ≠ .ok v) →
      o.report = c.errors ++ [err] → Tracks (.operand n) (.operator n) c o := by
    intro o err hmeaning hreport
    refine .inr ⟨[], t :: rest, .operand n, err, htokens, rfl, ⟨[], hreport⟩, by simp, ?_,
      .inr (.inr ⟨t, rfl, hliteral, hmeaning⟩)⟩
    rintro u ⟨⟩
    exact Awaiting.step_operand_eq_none hparen hunary hmeaning
  simp only [Cursor.literal, Cursor.step?_of_tokens htokens]
  cases hmeaning : t.meaning with
  | ok v =>
    refine .inl ⟨.literal v, [t], rfl, htokens, rfl, rfl, ?_⟩
    simp [Awaiting.step_literal hmeaning]
  | error fault =>
    cases fault with
    | tooLarge => exact hfault _ (.literalTooLarge t.lexeme t.line) (by simp [hmeaning]) rfl
    | malformed =>
      exact hfault _ (.malformedLiteral t.kind t.lexeme t.line) (by simp [hmeaning]) rfl

theorem of_atom {n : Nat} (hparen : c.take? [.leftParen] = none)
    (hunary : c.take? Level.unaryOperators = none) :
    Tracks (.operand n) (.operator n) c c.atom := by
  rw [Cursor.take?_eq_none_iff] at hparen hunary
  unfold Cursor.atom
  split
  · rename_i htokens
    exact of_missing (by simp [htokens])
  · rename_i t rest htokens
    split
    · rename_i hliteral
      exact of_literal htokens hliteral
    · rename_i hliteral
      rw [htokens] at hparen hunary
      refine of_missing ?_
      rw [htokens]
      rintro u ⟨⟩
      refine Awaiting.step_operand_eq_none ?_ (hunary t rfl) ?_
      · intro hkind
        simpa [hkind, Kind.isOneOf] using hparen t rfl
      · intro v hv
        exact hliteral (Token.isLiteral_of_meaning hv)

theorem of_close {n line : Nat} {inner : Expr} (hstops : Level.expression.Stops c.tokens) :
    Tracks (.operator (n + 1)) (.operator n) c
      (match c.take? [.rightParen] with
      | none => (.error (.unterminatedGroup line), c)
      | some (_, after) => (.ok (.group inner), after)) := by
  cases hclose : c.take? [.rightParen] with
  | none =>
    rw [Cursor.take?_eq_none_iff] at hclose
    refine .inr ⟨[], c.tokens, .operator (n + 1), .unterminatedGroup line, rfl, rfl, ⟨[], rfl⟩,
      by simp, ?_, .inr (.inl ⟨rfl, rfl, line, rfl⟩)⟩
    intro t ht
    refine Awaiting.step_operator_eq_none (hstops t ht) ?_
    intro hkind
    simpa [hkind, Kind.isOneOf] using hclose t ht
  | some p =>
    have hkind := (Cursor.take?_eq_past hclose).2.2
    have hstep : (Awaiting.operator (n + 1)).step p.1 = some (.operator n) :=
      Awaiting.step_rightParen (by simpa [Kind.isOneOf_iff] using hkind)
    exact of_take? hclose hstep (.refl _ _ _)

end Tracks

def TracksLevel (level : Level) (c : Cursor) : Prop :=
  (level = .primary → c.take? Level.unaryOperators = none) →
    ∀ n, Tracks (.operand n) (.operator n) c (level.parse c)

def TracksChain (tier : Tier) (left : Expr) (c : Cursor) : Prop :=
  ∀ n, Tracks (.operator n) (.operator n) c (tier.chain left c)

theorem tracks_group {c inside : Cursor} {opening : Token}
    (hop : c.take? [.leftParen] = some (opening, inside)) (ih : TracksLevel .expression inside) :
    TracksLevel .primary c := by
  intro _ n
  have hkind := (Cursor.take?_eq_past hop).2.2
  have hstep : (Awaiting.operand n).step opening = some (.operand (n + 1)) :=
    Awaiting.step_leftParen (by simpa [Kind.isOneOf_iff] using hkind)
  rw [Level.parse_primary, hop]
  refine Tracks.of_take? hop hstep (Tracks.andThen (ih (by simp [Level.expression]) (n + 1)) ?_)
  intro inner closing hinner
  obtain ⟨-, -, -, hstops⟩ := recovers _ _ _ _ hinner
  exact .of_close hstops

theorem tracks_unary {c after : Cursor} {op : Token}
    (hop : c.take? Level.unaryOperators = some (op, after)) (ih : TracksLevel .unary after) :
    TracksLevel .unary c := by
  intro _ n
  have hstep := Awaiting.step_unary (n := n) (Cursor.take?_eq_past hop).2.2
  rw [Level.parse_unary, hop]
  refine Tracks.of_take? hop hstep (Tracks.andThen (ih (by simp) n) ?_)
  intro operand rest _
  exact .refl _ _ _

theorem tracks_binary {tier : Tier} {c : Cursor} (ih : TracksLevel tier.operand c)
    (ihchain : ∀ left rest, tier.operand.parse c = (.ok left, rest) → TracksChain tier left rest) :
    TracksLevel (.binary tier) c := by
  intro _ n
  have hoperand : tier.operand ≠ .primary := by cases tier <;> simp [Tier.operand]
  rw [Level.parse_binary]
  exact Tracks.andThen (ih (absurd · hoperand) n) fun left rest h => ihchain left rest h n

theorem tracks_link {tier : Tier} {left : Expr} {c after : Cursor} {op : Token}
    (hop : c.take? tier.operators = some (op, after)) (ih : TracksLevel tier.operand after)
    (ihchain : ∀ right rest, tier.operand.parse after = (.ok right, rest) →
      TracksChain tier (.binary left op right) rest) : TracksChain tier left c := by
  intro n
  have hoperand : tier.operand ≠ .primary := by cases tier <;> simp [Tier.operand]
  have hstep := Awaiting.step_binary (n := n) (Cursor.take?_eq_past hop).2.2
  rw [Tier.chain_eq, hop]
  refine Tracks.of_take? hop hstep (Tracks.andThen (ih (absurd · hoperand) n) ?_)
  intro right rest h
  exact ihchain right rest h n

theorem tracks_expression (c : Cursor) (n : Nat) :
    Tracks (.operand n) (.operator n) c (Level.expression.parse c) := by
  have hrules : ReadingRules TracksLevel TracksChain :=
    { atom := by
        intro c hop hunary n
        rw [Level.parse_primary, hop]
        exact .of_atom hop (hunary rfl)
      group := fun _ _ _ hop ih => tracks_group hop ih
      primary := by
        intro c hop ih _ n
        rw [Level.parse_unary, hop]
        exact ih (fun _ => hop) n
      unary := fun _ _ _ hop ih => tracks_unary hop ih
      binary := fun _ _ ih ihchain => tracks_binary ih ihchain
      stop := by
        intro tier left c hop n
        rw [Tier.chain_eq, hop]
        exact .refl _ _ _
      link := fun _ _ _ _ _ hop ih ihchain => tracks_link hop ih ihchain }
  exact hrules.holds.1 .expression c (by simp [Level.expression]) n

theorem Awaiting.run_eq_none {s s' : Awaiting} {w : List Token} {t : Token}
    (h : s.run w = some s') (hblocked : s'.step t = none) (rest : List Token) :
    s.run (w ++ t :: rest) = none := by
  simp [run_append, h, hblocked]

theorem sentence_of_run {w : List Token}
    (h : (Awaiting.operand 0).run w = some (.operator 0)) : Sentence w := by
  rcases tracks_expression (.start w) 0 with ⟨e, v, hclean⟩ | ⟨v, rest, s, err, hfault⟩
  · obtain ⟨v', htokens, hderives, hstops⟩ := derives_of_parse
      (Prod.ext hclean.result rfl : Level.expression.parse (.start w) = (.ok e, _)) hclean.errors
    have hrun := Awaiting.run_of_derives hderives 0
    revert htokens hstops
    generalize (Level.expression.parse (.start w)).2.tokens = rest
    intro htokens hstops
    have hw : w = v' ++ rest := htokens
    cases rest with
    | nil =>
      rw [hw, List.append_nil]
      exact ⟨e, hderives⟩
    | cons t rest =>
      have hblocked := Awaiting.step_operator_eq_none (n := 0) (hstops t rfl) (fun _ => rfl)
      rw [hw, Awaiting.run_eq_none hrun hblocked] at h
      simp at h
  · have hw : w = v ++ rest := hfault.tokens
    cases rest with
    | nil =>
      rw [hw, List.append_nil, hfault.run] at h
      exact absurd (Option.some.inj h) hfault.unfinished
    | cons t rest =>
      rw [hw, Awaiting.run_eq_none hfault.run (hfault.blocked t rfl)] at h
      simp at h

def Viable (w : List Token) : Prop :=
  ∃ v, Sentence (w ++ v)

theorem viable_of_run {w : List Token} {s : Awaiting} (h : (Awaiting.operand 0).run w = some s) :
    Viable w := by
  let close : Token := .fixed (.symbol .rightParen) 1
  let null : Token := .fixed (.keyword .nullWord) 1
  cases s with
  | operator n =>
    refine ⟨List.replicate n close, sentence_of_run ?_⟩
    simp [Awaiting.run_append, h, Awaiting.run_replicate_rightParen (t := close) rfl]
  | operand n =>
    refine ⟨null :: List.replicate n close, sentence_of_run ?_⟩
    have hnull : (Awaiting.operand n).step null = some (.operator n) := Awaiting.step_literal rfl
    simp [Awaiting.run_append, h, hnull, Awaiting.run_replicate_rightParen (t := close) rfl]

theorem not_viable_of_blocked {w : List Token} {t : Token} {s : Awaiting}
    (h : (Awaiting.operand 0).run w = some s) (hblocked : s.step t = none) :
    ¬ Viable (w ++ [t]) := by
  rintro ⟨v, hv⟩
  have hrun := Awaiting.run_of_sentence hv
  rw [List.append_assoc, List.singleton_append, Awaiting.run_eq_none h hblocked] at hrun
  simp at hrun

theorem Cursor.parseAll_eq_error {c : Cursor} {errs : List ParseError}
    (h : c.parseAll.1 = .error errs) :
    (errs ≠ [] ∧ errs = (Level.expression.parse c).report ∧
      c.parseAll.2.tokens = (Level.expression.parse c).2.tokens) ∨
    ∃ e d t rest, Level.expression.parse c = (.ok e, d) ∧ d.errors = [] ∧ d.tokens = t :: rest ∧
      t.kind ≠ .endOfInput ∧ errs = [.unexpectedTrailingToken t.lexeme t.line] := by
  unfold parseAll at h ⊢
  split at h
  · rename_i fatal stopped hparse
    obtain rfl : stopped.errors ++ [fatal] = errs := by simpa using h
    left
    simp [hparse, Outcome.report]
  · rename_i e d hparse
    simp only [List.isEmpty_iff] at h
    split at h
    · simp at h
    · rename_i hne
      obtain rfl : d.checkTrailing.errors = errs := by simpa using h
      cases herrors : d.errors with
      | cons err errors =>
        left
        have hsame : d.checkTrailing = d := by simp [checkTrailing, herrors]
        simp [hparse, hsame, Outcome.report, herrors]
      | nil =>
        right
        have hend : ¬ AtEnd d.tokens := by
          intro hend
          exact hne (checkTrailing_errors_eq_nil_iff.mpr ⟨herrors, hend⟩)
        cases htokens : d.tokens with
        | nil => simp [htokens, AtEnd] at hend
        | cons t rest =>
          have ht : t.kind ≠ .endOfInput := by simpa [htokens, AtEnd] using hend
          refine ⟨e, d, t, rest, hparse, herrors, htokens, ht, ?_⟩
          simp [checkTrailing, herrors, htokens, ht]

/-- What the first error tells about a token list of which `left` was not consumed. -/
def EarliestError (tokens left : List Token) : ParseError → Prop
  | .expectedExpression found line =>
      (∃ w t v, beforeEnd tokens = w ++ t :: v ∧ found = "'" ++ t.lexeme ++ "'" ∧ line = t.line ∧
        Viable w ∧ ¬ Viable (w ++ [t])) ∨
      (found = "end of input" ∧ line = lineAfter 1 (beforeEnd tokens) ∧
        Viable (beforeEnd tokens) ∧ ¬ Sentence (beforeEnd tokens))
  | .unexpectedTrailingToken lexeme line =>
      ∃ w t v, beforeEnd tokens = w ++ t :: v ∧ lexeme = t.lexeme ∧ line = t.line ∧
        Sentence w ∧ ¬ Viable (w ++ [t])
  | .unterminatedGroup _ =>
      ∃ w, tokens = w ++ left ∧ Viable w ∧
        (w = beforeEnd tokens ∨ ∃ t v, beforeEnd tokens = w ++ t :: v ∧ ¬ Viable (w ++ [t]))
  | .literalTooLarge _ _ => False
  | .malformedLiteral _ _ _ => False

theorem beforeEnd_of_blocked {tokens w rest : List Token} {s : Awaiting}
    (htokens : tokens = w ++ rest) (hrun : (Awaiting.operand 0).run w = some s)
    (hblocked : ∀ t ∈ rest.head?, s.step t = none) :
    (AtEnd rest ∧ beforeEnd tokens = w) ∨
      ∃ t v, rest.head? = some t ∧ t.kind ≠ .endOfInput ∧ beforeEnd tokens = w ++ t :: v ∧
        ¬ Viable (w ++ [t]) := by
  have hw := Awaiting.kind_ne_endOfInput_of_run hrun
  rw [htokens, beforeEnd_append hw]
  by_cases hend : AtEnd rest
  · exact .inl ⟨hend, by rw [hend.beforeEnd_eq_nil, List.append_nil]⟩
  · right
    cases rest with
    | nil => simp [AtEnd] at hend
    | cons t rest =>
      have ht : t.kind ≠ .endOfInput := by simpa [AtEnd] using hend
      refine ⟨t, beforeEnd rest, rfl, ht, by rw [beforeEnd_cons ht], ?_⟩
      exact not_viable_of_blocked hrun (hblocked t rfl)

theorem Repair.expected_of_atEnd {line : Nat} {rest : List Token} (h : AtEnd rest) :
    expected line rest = .expectedExpression "end of input" line := by
  cases rest with
  | nil => rfl
  | cons t rest =>
    have ht := h t rfl
    simp [expected, ht]

theorem Repair.expected_of_head {line : Nat} {rest : List Token} {t : Token}
    (hhead : rest.head? = some t) (ht : t.kind ≠ .endOfInput) :
    expected line rest = .expectedExpression ("'" ++ t.lexeme ++ "'") t.line := by
  obtain ⟨tail, rfl⟩ := List.head?_eq_some_iff.mp hhead
  simp [expected, ht]

theorem Fault.earliestError {tokens w rest : List Token} {o : Outcome} {s : Awaiting}
    {err : ParseError} (h : Fault (.operand 0) (.start tokens) o w rest s err)
    (hliterals : ∀ t ∈ tokens, t.kind ∈ Kind.literals → ∃ v, t.StandsFor v) :
    EarliestError tokens o.2.tokens err := by
  have htokens : tokens = w ++ rest := h.tokens
  have hviable := viable_of_run h.run
  have hsplit := beforeEnd_of_blocked htokens h.run h.blocked
  rcases h.cause with hexpected | ⟨-, hleft, line, hgroup⟩ | ⟨t, ht, hliteral, hmeaning⟩
  · rw [hexpected]
    rcases hsplit with ⟨hend, hbefore⟩ | ⟨t, v, hhead, ht, hbefore, hnot⟩
    · rw [Repair.expected_of_atEnd hend]
      refine .inr ⟨rfl, by rw [hbefore]; rfl, by rw [hbefore]; exact hviable, ?_⟩
      rw [hbefore]
      intro hsentence
      have hrun := Awaiting.run_of_sentence hsentence
      rw [h.run] at hrun
      exact h.unfinished (Option.some.inj hrun)
    · rw [Repair.expected_of_head hhead ht]
      exact .inl ⟨w, t, v, hbefore, rfl, rfl, hviable, hnot⟩
  · subst hgroup
    refine ⟨w, by rw [hleft, htokens], hviable, ?_⟩
    rcases hsplit with ⟨-, hbefore⟩ | ⟨t, v, -, -, hbefore, hnot⟩
    · exact .inl hbefore.symm
    · exact .inr ⟨t, v, hbefore, hnot⟩
  · have hmem : t ∈ tokens := by
      rw [htokens]
      exact List.mem_append_right w (List.mem_of_mem_head? ht)
    obtain ⟨v, hv⟩ := hliterals t hmem (Kind.mem_literals_iff.mpr hliteral)
    exact absurd (Token.standsFor_iff.mp hv) (hmeaning v)

/-- If all literals can be read, the first error of a parse stands at the first token that no
sentence has there, or at the end of a list that is no sentence yet. -/
theorem parseAll_first_error_earliest (tokens : List Token) (errs : List ParseError)
    (hliterals : ∀ t ∈ tokens, t.kind ∈ Kind.literals → ∃ v, t.StandsFor v)
    (h : (Cursor.start tokens).parseAll.1 = .error errs) :
    ∃ first others, errs = first :: others ∧
      EarliestError tokens (Cursor.start tokens).parseAll.2.tokens first := by
  rcases Cursor.parseAll_eq_error h with ⟨hne, hreport, hleft⟩ | htrailing
  · rcases tracks_expression (.start tokens) 0 with ⟨e, w, hclean⟩ | ⟨w, rest, s, err, hfault⟩
    · rw [Outcome.report, hclean.result] at hreport
      exact absurd (hreport.trans hclean.errors) hne
    · obtain ⟨others, hothers⟩ := hfault.report
      refine ⟨err, others, hreport.trans hothers, ?_⟩
      rw [hleft]
      exact hfault.earliestError hliterals
  · obtain ⟨e, d, t, rest, hparse, herrors, htokens, ht, rfl⟩ := htrailing
    obtain ⟨w, hw, hderives, hstops⟩ := derives_of_parse hparse herrors
    have hrun := Awaiting.run_of_derives hderives 0
    rw [htokens] at hw hstops
    have hblocked := Awaiting.step_operator_eq_none (n := 0) (hstops t rfl) (fun _ => rfl)
    refine ⟨_, [], rfl, w, t, beforeEnd rest, ?_, rfl, rfl, ⟨e, hderives⟩,
      not_viable_of_blocked hrun hblocked⟩
    have htokens' : tokens = w ++ t :: rest := hw
    rw [htokens', beforeEnd_append hderives.kind_ne_endOfInput, beforeEnd_cons ht]

def unbalancedSum : List Token :=
  [⟨.symbol .leftParen, "(", 1⟩, ⟨.integer, "1", 1⟩, ⟨.symbol .plus, "+", 1⟩,
    ⟨.symbol .rightParen, ")", 2⟩, .fixed .endOfInput 3]

theorem parseAll_unbalancedSum :
    (Cursor.start unbalancedSum).parseAll.1 = .error [.expectedExpression "')'" 2] := by
  let c := Cursor.start unbalancedSum
  let behindOne : List Token :=
    [⟨.symbol .plus, "+", 1⟩, ⟨.symbol .rightParen, ")", 2⟩, .fixed .endOfInput 3]
  let inside : Cursor := c.past [⟨.symbol .leftParen, "(", 1⟩] (⟨.integer, "1", 1⟩ :: behindOne)
  let operator : Cursor := inside.past [⟨.integer, "1", 1⟩] behindOne
  let operand : Cursor := operator.past [⟨.symbol .plus, "+", 1⟩] behindOne.tail
  let missed : Cursor := operand.record (.expectedExpression "')'" 2)
  let sum : Expr :=
    .binary (.literal (.integer 1)) ⟨.symbol .plus, "+", 1⟩ (.literal .null)
  have hclosing (level : Level) : level.Stops missed.tokens := Level.stops_rightParen rfl
  have hleft : (Level.binary .factor).parse inside = (.ok (.literal (.integer 1)), operator) := by
    have hone : Derives (.binary .factor) [⟨.integer, "1", 1⟩] (.literal (.integer 1)) :=
      .operand .factor (.primary (.of_meaning rfl))
    exact parse_of_stops hone inside behindOne rfl
      (Level.stops_cons.mpr (Level.not_extends_operand .term rfl))
  have hright : (Level.binary .factor).parse operand = (.ok (.literal .null), missed) := by
    refine Level.parse_binary_of_stops .factor ?_ (hclosing _)
    rw [Tier.operand, Level.parse_unary, Level.parse_primary]
    rfl
  have hop : operator.take? Tier.term.operators = some (⟨.symbol .plus, "+", 1⟩, operand) := rfl
  have hterm : (Level.binary .term).parse inside = (.ok sum, missed) :=
    Level.parse_binary_of_pair hleft hop hright rfl
  have hinside : Level.expression.parse inside = (.ok sum, missed) :=
    Level.parse_binary_of_stops .equality
      (Level.parse_binary_of_stops .comparison hterm (hclosing _)) (hclosing _)
  have hgroup : Level.unary.parse c =
      (.ok (.group sum), missed.past [⟨.symbol .rightParen, ")", 2⟩] missed.tokens.tail) := by
    have hop : c.take? Level.unaryOperators = none := rfl
    have hopen : c.take? [.leftParen] = some (⟨.symbol .leftParen, "(", 1⟩, inside) := rfl
    rw [Level.parse_unary, hop, Level.parse_primary, hopen]
    simp only [hinside]
    rfl
  have hparse := Level.expression_parse_of_unary hgroup (by rintro t ⟨⟩; rfl)
  rw [Cursor.parseAll, hparse]
  rfl

theorem parseAll_first_error_earliest_unbalancedSum :
    (Cursor.start unbalancedSum).parseAll.1 = .error [.expectedExpression "')'" 2] ∧
    (∀ t ∈ unbalancedSum, t.kind ∈ Kind.literals → ∃ v, t.StandsFor v) ∧
    ∃ w v, beforeEnd unbalancedSum = w ++ ⟨.symbol .rightParen, ")", 2⟩ :: v ∧
      Viable w ∧ ¬ Viable (w ++ [⟨.symbol .rightParen, ")", 2⟩]) := by
  have hliterals : ∀ t ∈ unbalancedSum, t.kind ∈ Kind.literals → ∃ v, t.StandsFor v := by
    simp only [unbalancedSum, List.forall_mem_cons]
    exact ⟨by simp [Kind.literals], fun _ => ⟨.integer 1, Token.standsFor_iff.mpr rfl⟩,
      by simp [Kind.literals], by simp [Kind.literals], by simp [Kind.literals, Token.fixed],
      by simp⟩
  refine ⟨parseAll_unbalancedSum, hliterals, ?_⟩
  obtain ⟨first, others, herrs, hfirst⟩ :=
    parseAll_first_error_earliest unbalancedSum _ hliterals parseAll_unbalancedSum
  obtain ⟨rfl, -⟩ := List.cons.inj herrs
  rcases hfirst with ⟨w, t, v, hsplit, -, hline, hviable, hnot⟩ | ⟨hend, -⟩
  · have hlines : ∀ u ∈ beforeEnd unbalancedSum,
        u.line = 2 → u = ⟨.symbol .rightParen, ")", 2⟩ := by decide
    obtain rfl := hlines t (by simp [hsplit]) hline.symm
    exact ⟨w, v, hsplit, hviable, hnot⟩
  · exact absurd hend (by decide)

end ExpressionLanguage
