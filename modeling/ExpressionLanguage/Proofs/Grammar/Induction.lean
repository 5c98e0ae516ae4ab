import ExpressionLanguage.Grammar.Parse

namespace ExpressionLanguage

theorem Outcome.andThen_eq_ok_iff {o : Outcome} {next : Expr → Cursor → Outcome} {e : Expr}
    {d : Cursor} :
    o.andThen next = (.ok e, d) ↔ ∃ e' c', o = (.ok e', c') ∧ next e' c' = (.ok e, d) := by
  obtain ⟨result, c⟩ := o
  cases result with
  | error err => simp [Outcome.andThen]
  | ok e' =>
    constructor
    · intro h
      exact ⟨e', c, rfl, h⟩
    · rintro ⟨e'', c', heq, h⟩
      cases heq
      exact h

def lineAfter (line : Nat) (w : List Token) : Nat :=
  w.foldl (fun _ t => t.line) line

@[simp] theorem lineAfter_nil (line : Nat) : lineAfter line [] = line := rfl

@[simp] theorem lineAfter_cons (line : Nat) (t : Token) (w : List Token) :
    lineAfter line (t :: w) = lineAfter t.line w := rfl

@[simp] theorem lineAfter_append (line : Nat) (v w : List Token) :
    lineAfter line (v ++ w) = lineAfter (lineAfter line v) w :=
  List.foldl_append

namespace Cursor

def past (c : Cursor) (w rest : List Token) : Cursor :=
  { c with tokens := rest, lastLine := lineAfter c.lastLine w }

@[simp] theorem past_tokens (c : Cursor) (w rest : List Token) : (c.past w rest).tokens = rest :=
  rfl

@[simp] theorem past_errors (c : Cursor) (w rest : List Token) :
    (c.past w rest).errors = c.errors := rfl

@[simp] theorem past_lastLine (c : Cursor) (w rest : List Token) :
    (c.past w rest).lastLine = lineAfter c.lastLine w := rfl

@[simp] theorem past_past (c : Cursor) (v w rest rest' : List Token) :
    (c.past v rest).past w rest' = c.past (v ++ w) rest' := by
  simp [past]

@[simp] theorem record_tokens (c : Cursor) (e : ParseError) : (c.record e).tokens = c.tokens := rfl

@[simp] theorem record_errors (c : Cursor) (e : ParseError) :
    (c.record e).errors = c.errors ++ [e] := rfl

@[simp] theorem record_lastLine (c : Cursor) (e : ParseError) :
    (c.record e).lastLine = c.lastLine := rfl

theorem step?_of_tokens {c : Cursor} {t : Token} {rest : List Token} (h : c.tokens = t :: rest) :
    c.step? = some (t, c.past [t] rest) := by
  simp [step?, h, past]

theorem take?_of_tokens {c : Cursor} {t : Token} {rest : List Token} {symbols : List Symbol}
    (h : c.tokens = t :: rest) (ht : t.kind.isOneOf symbols = true) :
    c.take? symbols = some (t, c.past [t] rest) :=
  take?_eq_some_iff.mpr ⟨step?_of_tokens h, ht⟩

theorem take?_eq_none_iff {c : Cursor} {symbols : List Symbol} :
    c.take? symbols = none ↔ ∀ t ∈ c.tokens.head?, t.kind.isOneOf symbols = false := by
  cases h : c.tokens with
  | nil => simp [take?, step?, h]
  | cons t rest => simp [take?, step?, h]

theorem step?_eq_past {c d : Cursor} {t : Token} (h : c.step? = some (t, d)) :
    c.tokens = t :: d.tokens ∧ d = c.past [t] d.tokens := by
  have htokens := (step?_eq_some_iff.mp h).1
  have hpast := step?_of_tokens htokens
  rw [h] at hpast
  exact ⟨htokens, congrArg Prod.snd (Option.some.inj hpast)⟩

theorem take?_eq_past {c d : Cursor} {t : Token} {symbols : List Symbol}
    (h : c.take? symbols = some (t, d)) :
    c.tokens = t :: d.tokens ∧ d = c.past [t] d.tokens ∧ t.kind.isOneOf symbols = true := by
  obtain ⟨hstep, hkind⟩ := take?_eq_some_iff.mp h
  obtain ⟨htokens, hpast⟩ := step?_eq_past hstep
  exact ⟨htokens, hpast, hkind⟩

end Cursor

/-- What each rule of the grammar has to keep for a property of levels and chains. -/
structure ReadingRules (P : Level → Cursor → Prop) (Q : Tier → Expr → Cursor → Prop) : Prop where
  atom : ∀ c, c.take? [.leftParen] = none → P .primary c
  group : ∀ c opening inside, c.take? [.leftParen] = some (opening, inside) →
    P .expression inside → P .primary c
  primary : ∀ c, c.take? Level.unaryOperators = none → P .primary c → P .unary c
  unary : ∀ c op after, c.take? Level.unaryOperators = some (op, after) →
    P .unary after → P .unary c
  binary : ∀ tier c, P tier.operand c →
    (∀ left rest, tier.operand.parse c = (.ok left, rest) → Q tier left rest) →
    P (.binary tier) c
  stop : ∀ tier left c, c.take? tier.operators = none → Q tier left c
  link : ∀ tier left c op after, c.take? tier.operators = some (op, after) →
    P tier.operand after →
    (∀ right rest, tier.operand.parse after = (.ok right, rest) →
      Q tier (.binary left op right) rest) → Q tier left c

namespace ReadingRules

variable {P : Level → Cursor → Prop} {Q : Tier → Expr → Cursor → Prop}

theorem chain_of_shorter (r : ReadingRules P Q) {n : Nat}
    (hP : ∀ level c, c.tokens.length < n → P level c)
    (hQ : ∀ tier left c, c.tokens.length < n → Q tier left c)
    (tier : Tier) (left : Expr) (c : Cursor) (hc : c.tokens.length ≤ n) : Q tier left c := by
  cases hop : c.take? tier.operators with
  | none => exact r.stop tier left c hop
  | some p =>
    obtain ⟨op, after⟩ := p
    have hafter : after.tokens.length < n :=
      Nat.lt_of_lt_of_le (Cursor.length_of_take? hop) hc
    refine r.link tier left c op after hop (hP _ _ hafter) ?_
    intro right rest hparse
    have hrest := tier.operand.length_parse after
    rw [hparse] at hrest
    exact hQ _ _ _ (Nat.lt_of_le_of_lt hrest hafter)

theorem level_of_shorter (r : ReadingRules P Q) {n : Nat}
    (hP : ∀ level c, c.tokens.length < n → P level c)
    (hQ : ∀ tier left c, c.tokens.length ≤ n → Q tier left c)
    (level : Level) (c : Cursor) (hc : c.tokens.length ≤ n) : P level c := by
  have hprimary : P .primary c := by
    cases hop : c.take? [.leftParen] with
    | none => exact r.atom c hop
    | some p =>
      refine r.group c p.1 p.2 hop (hP _ _ ?_)
      exact Nat.lt_of_lt_of_le (Cursor.length_of_take? hop) hc
  have hunary : P .unary c := by
    cases hop : c.take? Level.unaryOperators with
    | none => exact r.primary c hop hprimary
    | some p =>
      refine r.unary c p.1 p.2 hop (hP _ _ ?_)
      exact Nat.lt_of_lt_of_le (Cursor.length_of_take? hop) hc
  have hbinary : ∀ tier : Tier, P tier.operand c → P (.binary tier) c := by
    intro tier hoperand
    refine r.binary tier c hoperand ?_
    intro left rest hparse
    have hrest := tier.operand.length_parse c
    rw [hparse] at hrest
    exact hQ _ _ _ (Nat.le_trans hrest hc)
  -- the tiers rest on each other, so they are built from the tightest up
  have hfactor := hbinary .factor hunary
  have hterm := hbinary .term hfactor
  have hcomparison := hbinary .comparison hterm
  cases level with
  | primary => exact hprimary
  | unary => exact hunary
  | binary tier =>
    cases tier with
    | factor => exact hfactor
    | term => exact hterm
    | comparison => exact hcomparison
    | equality => exact hbinary .equality hcomparison

theorem holds (r : ReadingRules P Q) :
    (∀ level c, P level c) ∧ ∀ tier left c, Q tier left c := by
  have hmain : ∀ n, (∀ level c, c.tokens.length < n → P level c) ∧
      ∀ tier left c, c.tokens.length < n → Q tier left c := by
    intro n
    induction n with
    | zero => simp
    | succ n ih =>
      obtain ⟨hP, hQ⟩ := ih
      have hchain := r.chain_of_shorter hP hQ
      have hlevel := r.level_of_shorter hP hchain
      exact ⟨fun level c hc => hlevel level c (Nat.le_of_lt_succ hc),
        fun tier left c hc => hchain tier left c (Nat.le_of_lt_succ hc)⟩
  exact ⟨fun level c => (hmain _).1 level c (Nat.lt_succ_self _),
    fun tier left c => (hmain _).2 tier left c (Nat.lt_succ_self _)⟩

end ReadingRules

/-- A judgement about outcomes and the cursors that they are reached from: it holds of each single
step, and it holds of steps made one after another. -/
structure ReadingJudgement (R : Cursor → Outcome → Prop) : Prop where
  done : ∀ e c, R c (.ok e, c)
  unclosed : ∀ line c, R c (.error (.unterminatedGroup line), c)
  missing : ∀ c, R c c.missing
  literal : ∀ c t rest, c.tokens = t :: rest → t.kind.isLiteral = true → R c c.literal
  take : ∀ c t d symbols o, c.take? symbols = some (t, d) → R d o → R c o
  andThen : ∀ c o next, R c o → (∀ e d, o = (.ok e, d) → R d (next e d)) → R c (o.andThen next)

namespace ReadingJudgement

variable {R : Cursor → Outcome → Prop}

theorem atom (j : ReadingJudgement R) (c : Cursor) : R c c.atom := by
  unfold Cursor.atom
  split
  · exact j.missing c
  · rename_i t rest htokens
    split
    · rename_i hliteral
      exact j.literal c t rest htokens hliteral
    · exact j.missing c

theorem close (j : ReadingJudgement R) (line : Nat) (inner : Expr) (c : Cursor) :
    R c
      (match c.take? [.rightParen] with
      | none => (.error (.unterminatedGroup line), c)
      | some (_, after) => (.ok (.group inner), after)) := by
  split
  · exact j.unclosed line c
  · rename_i after hclose
    exact j.take c _ after _ _ hclose (j.done (.group inner) after)

theorem parse (j : ReadingJudgement R) (level : Level) (c : Cursor) : R c (level.parse c) := by
  have hrules : ReadingRules (fun level c => R c (level.parse c))
      (fun tier left c => R c (tier.chain left c)) :=
    { atom := by
        intro c hop
        rw [Level.parse_primary, hop]
        exact j.atom c
      group := by
        intro c opening inside hop ih
        rw [Level.parse_primary, hop]
        refine j.take _ _ _ _ _ hop (j.andThen _ _ _ ih ?_)
        intro inner closing _
        exact j.close opening.line inner closing
      primary := by
        intro c hop ih
        rwa [Level.parse_unary, hop]
      unary := by
        intro c op after hop ih
        rw [Level.parse_unary, hop]
        refine j.take _ _ _ _ _ hop (j.andThen _ _ _ ih ?_)
        intro operand rest _
        exact j.done (.unary op operand) rest
      binary := by
        intro tier c ih ihchain
        rw [Level.parse_binary]
        exact j.andThen _ _ _ ih ihchain
      stop := by
        intro tier left c hop
        rw [Tier.chain_eq, hop]
        exact j.done left c
      link := by
        intro tier left c op after hop ih ihchain
        rw [Tier.chain_eq, hop]
        exact j.take _ _ _ _ _ hop (j.andThen _ _ _ ih ihchain) }
  exact hrules.holds.1 level c

end ReadingJudgement

end ExpressionLanguage
