import ExpressionLanguage.Proofs.Grammar.Accounting
import ExpressionLanguage.Proofs.Grammar.Session

/-!
The places where a reading comes to an atom: to a literal, or to the spot where an operand is
missing. Every error that is recorded is recorded at such a place, and between two of them an
operator is consumed, so the places move forward.
-/

namespace ExpressionLanguage

-- the rules are those of the parser, and a parse that fails ends the list
mutual

def atomsOf (level : Level) (c : Cursor) : List Cursor :=
  match level with
  | .primary =>
      match hopen : c.take? [.leftParen] with
      | none => [c]
      | some (_, inside) =>
          have := Cursor.length_of_take? hopen
          atomsOf .expression inside
  | .unary =>
      match hop : c.take? Level.unaryOperators with
      | none => atomsOf .primary c
      | some (_, after) =>
          have := Cursor.length_of_take? hop
          atomsOf .unary after
  | .binary tier =>
      atomsOf tier.operand c ++
        match hleft : tier.operand.parse c with
        | (.error _, _) => []
        | (.ok _, rest) =>
            have := Level.length_of_parse hleft
            chainAtoms tier rest
termination_by (c.tokens.length, level.rank + 1)
decreasing_by
  · exact Prod.Lex.left _ _ this
  · exact Prod.Lex.right _ (by decide)
  · exact Prod.Lex.left _ _ this
  · exact Prod.Lex.right _ (Nat.succ_lt_succ (Level.rank_operand tier))
  · rcases Nat.lt_or_eq_of_le this with hlt | heq
    · exact Prod.Lex.left _ _ hlt
    · rw [heq]
      exact Prod.Lex.right _ (Nat.succ_pos _)

def chainAtoms (tier : Tier) (c : Cursor) : List Cursor :=
  match hop : c.take? tier.operators with
  | none => []
  | some (_, after) =>
      have hafter := Cursor.length_of_take? hop
      atomsOf tier.operand after ++
        match hright : tier.operand.parse after with
        | (.error _, _) => []
        | (.ok _, rest) =>
            have := Nat.lt_of_le_of_lt (Level.length_of_parse hright) hafter
            chainAtoms tier rest
termination_by (c.tokens.length, 0)
decreasing_by
  · exact Prod.Lex.left _ _ hafter
  · exact Prod.Lex.left _ _ this

end

theorem atomsOf_primary (c : Cursor) :
    atomsOf .primary c =
      match c.take? [.leftParen] with
      | none => [c]
      | some (_, inside) => atomsOf .expression inside := by
  conv => lhs; rw [atomsOf]
  split <;> simp_all

theorem atomsOf_unary (c : Cursor) :
    atomsOf .unary c =
      match c.take? Level.unaryOperators with
      | none => atomsOf .primary c
      | some (_, after) => atomsOf .unary after := by
  conv => lhs; rw [atomsOf]
  split <;> simp_all

theorem atomsOf_binary (tier : Tier) (c : Cursor) :
    atomsOf (.binary tier) c =
      atomsOf tier.operand c ++
        match tier.operand.parse c with
        | (.error _, _) => []
        | (.ok _, rest) => chainAtoms tier rest := by
  conv => lhs; rw [atomsOf]
  split <;> simp_all

theorem chainAtoms_eq (tier : Tier) (c : Cursor) :
    chainAtoms tier c =
      match c.take? tier.operators with
      | none => []
      | some (_, after) =>
          atomsOf tier.operand after ++
            match tier.operand.parse after with
            | (.error _, _) => []
            | (.ok _, rest) => chainAtoms tier rest := by
  conv => lhs; rw [chainAtoms]
  split
  · simp_all
  · split <;> simp_all

namespace Cursor

def fault? (c : Cursor) : Option ParseError :=
  match c.tokens with
  | [] => some c.missingError
  | t :: _ =>
      if t.kind.isLiteral then
        if t.isOversized then some (.literalTooLarge t.lexeme t.line) else none
      else some c.missingError

theorem errors_literal {c : Cursor} {t : Token} {rest : List Token} (h : c.tokens = t :: rest) :
    c.literal.2.errors =
      if t.isOversized then c.errors ++ [.literalTooLarge t.lexeme t.line] else c.errors := by
  simp only [literal, step?_of_tokens h, Token.isOversized]
  split <;> simp_all

theorem errors_atom (c : Cursor) : c.atom.2.errors = c.errors ++ c.fault?.toList := by
  cases h : c.tokens with
  | nil => simp [atom, fault?, h, missing]
  | cons t rest =>
    cases hliteral : t.kind.isLiteral with
    | false => simp [atom, fault?, h, hliteral, missing]
    | true =>
      simp only [atom, fault?, h, hliteral, if_true, errors_literal h]
      split <;> simp

structure Crosses (c : Cursor) (w : List Token) (d : Cursor) : Prop where
  tokens : c.tokens = w ++ d.tokens
  kinds : ∀ t ∈ w, t.kind ≠ .endOfInput
  lastLine : d.lastLine = lineAfter c.lastLine w

namespace Crosses

variable {c d e : Cursor} {t : Token} {v w : List Token}

theorem refl (c : Cursor) : c.Crosses [] c :=
  ⟨rfl, by simp, rfl⟩

theorem trans (h : c.Crosses v d) (h' : d.Crosses w e) : c.Crosses (v ++ w) e where
  tokens := by rw [h.tokens, h'.tokens, List.append_assoc]
  kinds := List.forall_mem_append.mpr ⟨h.kinds, h'.kinds⟩
  lastLine := by rw [h'.lastLine, h.lastLine, lineAfter_append]

theorem length_le (h : c.Crosses w d) : d.tokens.length ≤ c.tokens.length := by
  rw [h.tokens, List.length_append]
  omega

theorem of_take? {symbols : List Symbol} (h : c.take? symbols = some (t, d)) :
    c.Crosses [t] d := by
  obtain ⟨hstep, hkind⟩ := take?_eq_some_iff.mp h
  obtain ⟨htokens, -, hline, -⟩ := step?_eq_some_iff.mp hstep
  refine ⟨htokens, ?_, hline⟩
  intro u hu hend
  obtain rfl := List.mem_singleton.mp hu
  simp [hend, Kind.isOneOf] at hkind

theorem of_literal {rest : List Token} (h : c.tokens = t :: rest) (ht : t.kind.isLiteral = true) :
    c.Crosses [t] c.literal.2 := by
  have hcursor : c.literal.2.tokens = rest ∧ c.literal.2.lastLine = t.line := by
    simp only [literal, step?_of_tokens h]
    split <;> simp
  refine ⟨by rw [hcursor.1, h, List.singleton_append], ?_, hcursor.2⟩
  intro u hu hend
  obtain rfl := List.mem_singleton.mp hu
  simp [hend, Kind.isLiteral] at ht

theorem parse (level : Level) (c : Cursor) : ∃ w, c.Crosses w (level.parse c).2 := by
  have hjudgement : ReadingJudgement fun c o => ∃ w, c.Crosses w o.2 :=
    { done := fun _ c => ⟨[], refl c⟩
      unclosed := fun _ c => ⟨[], refl c⟩
      missing := fun c => ⟨[], rfl, by simp, rfl⟩
      literal := fun _ t _ htokens hliteral => ⟨[t], of_literal htokens hliteral⟩
      take := by
        rintro c t d symbols o hop ⟨w, hw⟩
        exact ⟨[t] ++ w, (of_take? hop).trans hw⟩
      andThen := by
        rintro c ⟨result, d⟩ next ⟨v, hv⟩ hnext
        cases result with
        | error err => exact ⟨v, hv⟩
        | ok e =>
          obtain ⟨w, hw⟩ := hnext e d rfl
          exact ⟨v ++ w, hv.trans hw⟩ }
  exact hjudgement.parse level c

end Crosses

end Cursor

/-- Reading on from `c` to the outcome `o` comes to the atoms `ds`, one behind the other, and
records what is at fault with them. -/
structure Visits (c : Cursor) (o : Outcome) (ds : List Cursor) : Prop where
  errors : o.2.errors = c.errors ++ ds.filterMap Cursor.fault?
  crosses : ∀ d ∈ ds, ∃ w, c.Crosses w d
  forward : ds.Pairwise fun d e => e.tokens.length < d.tokens.length
  passed : ∀ d ∈ ds, o.2.tokens.length ≤ d.tokens.length
  length_le : o.2.tokens.length ≤ c.tokens.length

namespace Visits

variable {c d : Cursor} {o : Outcome} {ds es : List Cursor}

theorem nil (e : Expr) (c : Cursor) : Visits c (.ok e, c) [] :=
  ⟨by simp, by simp, .nil, by simp, Nat.le_refl _⟩

theorem atom (c : Cursor) : Visits c c.atom [c] where
  errors := by
    rw [c.errors_atom]
    cases h : c.fault? <;> simp [h]
  crosses := by
    intro d hd
    obtain rfl := List.mem_singleton.mp hd
    exact ⟨[], .refl d⟩
  forward := List.pairwise_singleton _ _
  passed := by
    intro d hd
    obtain rfl := List.mem_singleton.mp hd
    exact d.length_atom
  length_le := c.length_atom

theorem after_take {t : Token} {symbols : List Symbol} (hop : c.take? symbols = some (t, d))
    (h : Visits d o ds) : Visits c o ds where
  errors := by
    obtain ⟨hstep, -⟩ := Cursor.take?_eq_some_iff.mp hop
    obtain ⟨-, herrors, -, -⟩ := Cursor.step?_eq_some_iff.mp hstep
    rw [h.errors, herrors]
  crosses := by
    intro e he
    obtain ⟨w, hw⟩ := h.crosses e he
    exact ⟨[t] ++ w, (Cursor.Crosses.of_take? hop).trans hw⟩
  forward := h.forward
  passed := h.passed
  length_le := Nat.le_trans h.length_le (Nat.le_of_lt (Cursor.length_of_take? hop))

theorem length_lt_of_take {t : Token} {symbols : List Symbol}
    (hop : c.take? symbols = some (t, d)) (h : Visits d o ds) :
    ∀ e ∈ ds, e.tokens.length < c.tokens.length := by
  intro e he
  obtain ⟨w, hw⟩ := h.crosses e he
  exact Nat.lt_of_le_of_lt hw.length_le (Cursor.length_of_take? hop)

theorem andThen {next : Expr → Cursor → Outcome} (h : Visits c o ds)
    (hnext : ∀ e d, (next e d).2.errors = d.errors ∧
      (next e d).2.tokens.length ≤ d.tokens.length) : Visits c (o.andThen next) ds := by
  obtain ⟨result, d⟩ := o
  cases result with
  | error err => exact h
  | ok e =>
    obtain ⟨herrors, hle⟩ := hnext e d
    exact ⟨herrors.trans h.errors, h.crosses, h.forward,
      fun m hm => Nat.le_trans hle (h.passed m hm), Nat.le_trans hle h.length_le⟩

theorem append {w : List Token} {e : Expr} (h : Visits c (.ok e, d) ds) (hd : c.Crosses w d)
    (h' : Visits d o es) (hlt : ∀ m ∈ es, m.tokens.length < d.tokens.length) :
    Visits c o (ds ++ es) where
  errors := by rw [h'.errors, h.errors, List.filterMap_append, List.append_assoc]
  crosses := by
    refine List.forall_mem_append.mpr ⟨h.crosses, ?_⟩
    intro m hm
    obtain ⟨v, hv⟩ := h'.crosses m hm
    exact ⟨w ++ v, hd.trans hv⟩
  forward := by
    refine List.pairwise_append.mpr ⟨h.forward, h'.forward, ?_⟩
    intro m hm n hn
    exact Nat.lt_of_lt_of_le (hlt n hn) (h.passed m hm)
  passed := by
    refine List.forall_mem_append.mpr ⟨?_, h'.passed⟩
    intro m hm
    exact Nat.le_trans h'.length_le (h.passed m hm)
  length_le := Nat.le_trans h'.length_le h.length_le

end Visits

def VisitsLevel (level : Level) (c : Cursor) : Prop :=
  Visits c (level.parse c) (atomsOf level c)

-- a chain starts behind an operand, so its own atoms lie behind an operator
structure VisitsChain (tier : Tier) (left : Expr) (c : Cursor) : Prop where
  visits : Visits c (tier.chain left c) (chainAtoms tier c)
  length_lt : ∀ d ∈ chainAtoms tier c, d.tokens.length < c.tokens.length

theorem visits_operand {tier : Tier} {c : Cursor} (grow : Expr → Expr)
    (h : VisitsLevel tier.operand c)
    (hchain : ∀ e d, tier.operand.parse c = (.ok e, d) → VisitsChain tier (grow e) d) :
    Visits c ((tier.operand.parse c).andThen fun e d => tier.chain (grow e) d)
      (atomsOf tier.operand c ++
        match tier.operand.parse c with
        | (.error _, _) => []
        | (.ok _, rest) => chainAtoms tier rest) := by
  obtain ⟨w, hw⟩ := Cursor.Crosses.parse tier.operand c
  rw [VisitsLevel] at h
  rcases hparse : tier.operand.parse c with ⟨result, d⟩
  rw [hparse] at h hw
  cases result with
  | error err => simpa [Outcome.andThen] using h
  | ok e =>
    have hd := hchain e d hparse
    exact h.append hw hd.visits hd.length_lt

theorem visits_close (opening : Token) (inner : Expr) (closing : Cursor) :
    let o : Outcome :=
      match closing.take? [.rightParen] with
      | none => (.error (.unterminatedGroup opening.line), closing)
      | some (_, after) => (.ok (.group inner), after)
    o.2.errors = closing.errors ∧ o.2.tokens.length ≤ closing.tokens.length := by
  cases hclose : closing.take? [.rightParen] with
  | none => simp
  | some p =>
    obtain ⟨hstep, -⟩ := Cursor.take?_eq_some_iff.mp hclose
    exact ⟨(Cursor.step?_eq_some_iff.mp hstep).2.1, Nat.le_of_lt (Cursor.length_of_take? hclose)⟩

theorem visits_level (level : Level) (c : Cursor) : VisitsLevel level c := by
  have hrules : ReadingRules VisitsLevel VisitsChain :=
    { atom := by
        intro c hop
        rw [VisitsLevel, Level.parse_primary, atomsOf_primary, hop]
        exact .atom c
      group := by
        intro c opening inside hop ih
        rw [VisitsLevel, Level.parse_primary, atomsOf_primary, hop]
        exact .after_take hop (ih.andThen (visits_close opening))
      primary := by
        intro c hop ih
        rwa [VisitsLevel, Level.parse_unary, atomsOf_unary, hop]
      unary := by
        intro c op after hop ih
        rw [VisitsLevel, Level.parse_unary, atomsOf_unary, hop]
        exact .after_take hop (ih.andThen fun _ _ => ⟨rfl, Nat.le_refl _⟩)
      binary := by
        intro tier c ih ihchain
        rw [VisitsLevel, Level.parse_binary, atomsOf_binary]
        exact visits_operand id ih ihchain
      stop := by
        intro tier left c hop
        have hatoms : chainAtoms tier c = [] := by rw [chainAtoms_eq, hop]
        have hchain : tier.chain left c = (.ok left, c) := by rw [Tier.chain_eq, hop]
        exact ⟨by rw [hatoms, hchain]; exact .nil left c, by simp [hatoms]⟩
      link := by
        intro tier left c op after hop ih ihchain
        have hvisits := visits_operand (.binary left op) ih ihchain
        constructor
        · rw [Tier.chain_eq, chainAtoms_eq, hop]
          exact hvisits.after_take hop
        · rw [chainAtoms_eq, hop]
          exact hvisits.length_lt_of_take hop }
  exact hrules.holds.1 level c

end ExpressionLanguage
