import ExpressionLanguage.Proofs.Grammar.Derivation
import ExpressionLanguage.Proofs.Grammar.Induction

/-!
Recovery from errors. What a parse reads is laid out as a list of repairs: a token is kept, a null
is put in where an expression is missing, or a null replaces an integer that is too large. The
repaired tokens derive the tree that was built, and the repairs are the errors, one by one.
-/

namespace ExpressionLanguage

theorem Token.meaning_of_kind_ne {t : Token} (h : t.kind ≠ .integer) :
    t.meaning ≠ .error .tooLarge ∧ ∀ n, t.meaning ≠ .ok (.integer n) := by
  obtain ⟨kind, lexeme, line⟩ := t
  cases kind with
  | integer => exact absurd rfl h
  | float =>
    simp only [meaning]
    split <;> simp
  | keyword k =>
    have hboolean (u : Token) (b : Bool) :
        u.boolean b ≠ .error .tooLarge ∧ ∀ n, u.boolean b ≠ .ok (.integer n) := by
      unfold boolean
      split <;> simp
    cases k <;> simp [meaning, hboolean]
  | _ => simp [meaning]

theorem Token.kind_of_tooLarge {t : Token} (h : t.meaning = .error .tooLarge) :
    t.kind = .integer :=
  Decidable.byContradiction fun hne => (meaning_of_kind_ne hne).1 h

theorem Token.kind_of_integer {t : Token} {n : Int64} (h : t.meaning = .ok (.integer n)) :
    t.kind = .integer :=
  Decidable.byContradiction fun hne => (meaning_of_kind_ne hne).2 n h

theorem Token.meaning_null {t : Token} (h : t.kind = .keyword .nullWord) :
    t.meaning = .ok .null := by
  simp [meaning, h]

inductive Repair where
  | keep (t : Token)
  | insert
  | replace (t : Token)
deriving DecidableEq, Repr

namespace Repair

def tokens : Repair → List Token
  | keep t => [t]
  | insert => []
  | replace t => [t]

def repaired (null : Token) : Repair → List Token
  | keep t => [t]
  | insert => [null]
  | replace _ => [null]

def expected (line : Nat) : List Token → ParseError
  | [] => .expectedExpression "end of input" line
  | t :: _ =>
      if t.kind = .endOfInput then .expectedExpression "end of input" line
      else .expectedExpression ("'" ++ t.lexeme ++ "'") t.line

theorem expected_eq (line : Nat) (rest : List Token) :
    ∃ found line', expected line rest = .expectedExpression found line' := by
  unfold expected
  split
  · exact ⟨_, _, rfl⟩
  · split
    · exact ⟨_, _, rfl⟩
    · exact ⟨_, _, rfl⟩

/-- The complaints that repairs answer to, in front of the tokens `rest`. The line is that of the
token read last. -/
def complaints (rest : List Token) : Nat → List Repair → List ParseError
  | _, [] => []
  | _, keep t :: rs => complaints rest t.line rs
  | line, insert :: rs => expected line (rs.flatMap tokens ++ rest) :: complaints rest line rs
  | _, replace t :: rs => .literalTooLarge t.lexeme t.line :: complaints rest t.line rs

theorem complaints_append (rest : List Token) (line : Nat) (rs ss : List Repair) :
    complaints rest line (rs ++ ss) =
      complaints (ss.flatMap tokens ++ rest) line rs ++
        complaints rest (lineAfter line (rs.flatMap tokens)) ss := by
  induction rs generalizing line with
  | nil => simp [complaints]
  | cons r rs ih =>
    cases r with
    | keep t => simp [complaints, tokens, ih]
    | insert => simp [complaints, tokens, ih]
    | replace t => simp [complaints, tokens, ih]

theorem mem_complaints {rest : List Token} {line : Nat} {rs : List Repair} {err : ParseError}
    (h : err ∈ complaints rest line rs) :
    (∃ found line, err = .expectedExpression found line) ∨
      ∃ lexeme line, err = .literalTooLarge lexeme line := by
  induction rs generalizing line with
  | nil => simp [complaints] at h
  | cons r rs ih =>
    cases r with
    | keep t => exact ih h
    | insert =>
      rcases List.mem_cons.mp h with rfl | h
      · exact .inl (expected_eq _ _)
      · exact ih h
    | replace t =>
      rcases List.mem_cons.mp h with rfl | h
      · exact .inr ⟨_, _, rfl⟩
      · exact ih h

theorem repaired_of_complaints_nil {rest : List Token} {line : Nat} {rs : List Repair}
    (h : complaints rest line rs = []) (null : Token) :
    rs.flatMap (repaired null) = rs.flatMap tokens := by
  induction rs generalizing line with
  | nil => rfl
  | cons r rs ih =>
    cases r with
    | keep t => simp [tokens, repaired, ih h]
    | insert => simp [complaints] at h
    | replace t => simp [complaints] at h

end Repair

theorem Cursor.missingError_eq (c : Cursor) :
    c.missingError = Repair.expected c.lastLine c.tokens := by
  unfold Cursor.missingError Repair.expected
  split <;> simp_all

structure Repaired (c d : Cursor) (rs : List Repair) : Prop where
  tokens : c.tokens = rs.flatMap Repair.tokens ++ d.tokens
  errors : d.errors = c.errors ++ Repair.complaints d.tokens c.lastLine rs
  lastLine : d.lastLine = lineAfter c.lastLine (rs.flatMap Repair.tokens)
  tooLarge : ∀ t, .replace t ∈ rs → t.meaning = .error .tooLarge

namespace Repaired

theorem refl (c : Cursor) : Repaired c c [] where
  tokens := rfl
  errors := by simp [Repair.complaints]
  lastLine := rfl
  tooLarge := by simp

theorem trans {c d e : Cursor} {rs ss : List Repair} (h : Repaired c d rs)
    (h' : Repaired d e ss) : Repaired c e (rs ++ ss) where
  tokens := by
    rw [h.tokens, h'.tokens, List.flatMap_append, List.append_assoc]
  errors := by
    rw [h'.errors, h.errors, h.lastLine, Repair.complaints_append, h'.tokens, List.append_assoc]
  lastLine := by
    rw [h'.lastLine, h.lastLine, List.flatMap_append, lineAfter_append]
  tooLarge := by
    intro t ht
    rcases List.mem_append.mp ht with ht | ht
    · exact h.tooLarge t ht
    · exact h'.tooLarge t ht

theorem of_step? {c d : Cursor} {t : Token} (h : c.step? = some (t, d)) :
    Repaired c d [.keep t] := by
  obtain ⟨htokens, herrors, hline, -⟩ := Cursor.step?_eq_some_iff.mp h
  exact ⟨by simpa [Repair.tokens] using htokens, by simp [Repair.complaints, herrors],
    by simp [Repair.tokens, hline], by simp⟩

theorem of_take? {c d : Cursor} {t : Token} {symbols : List Symbol}
    (h : c.take? symbols = some (t, d)) : Repaired c d [.keep t] :=
  of_step? (Cursor.take?_eq_some_iff.mp h).1

theorem of_missing (c : Cursor) : Repaired c (c.record c.missingError) [.insert] where
  tokens := rfl
  errors := by simp [Cursor.missingError_eq, Repair.complaints]
  lastLine := rfl
  tooLarge := by simp

theorem of_tooLarge {c d : Cursor} {t : Token} (h : c.step? = some (t, d))
    (ht : t.meaning = .error .tooLarge) :
    Repaired c (d.record (.literalTooLarge t.lexeme t.line)) [.replace t] := by
  obtain ⟨htokens, herrors, hline, -⟩ := Cursor.step?_eq_some_iff.mp h
  exact ⟨by simpa [Repair.tokens] using htokens,
    by simp [Repair.complaints, herrors], by simp [Repair.tokens, hline], by simpa using ht⟩

end Repaired

def DerivesRepaired (level : Level) (rs : List Repair) (e : Expr) : Prop :=
  ∀ null : Token, null.kind = .keyword .nullWord →
    Derives level (rs.flatMap (Repair.repaired null)) e

def Recovers (level : Level) (c : Cursor) : Prop :=
  ∀ e d, level.parse c = (.ok e, d) →
    ∃ rs, Repaired c d rs ∧ DerivesRepaired level rs e ∧ level.Stops d.tokens

def RecoversChain (tier : Tier) (left : Expr) (c : Cursor) : Prop :=
  ∀ e d, tier.chain left c = (.ok e, d) → tier.operand.Stops c.tokens →
    ∃ rs, Repaired c d rs ∧ (Level.binary tier).Stops d.tokens ∧
      ∀ ls, DerivesRepaired (.binary tier) ls left → DerivesRepaired (.binary tier) (ls ++ rs) e

namespace Recovers

theorem of_atom {c : Cursor} (hop : c.take? [.leftParen] = none) : Recovers .primary c := by
  intro e d h
  rw [Level.parse_primary, hop] at h
  have hmissing : c.missing = (.ok e, d) →
      ∃ rs, Repaired c d rs ∧ DerivesRepaired .primary rs e := by
    intro h
    obtain ⟨rfl, rfl⟩ : .literal .null = e ∧ c.record c.missingError = d := by
      simpa [Cursor.missing] using h
    refine ⟨[.insert], .of_missing c, ?_⟩
    intro null hnull
    exact .literal (.nullWord hnull)
  have hread : ∃ rs, Repaired c d rs ∧ DerivesRepaired .primary rs e := by
    simp only [Cursor.atom] at h
    split at h
    · exact hmissing h
    · rename_i t rest htokens
      split at h
      · simp only [Cursor.literal, Cursor.step?_of_tokens htokens] at h
        have hstep := Cursor.step?_of_tokens htokens
        split at h
        · rename_i v hmeaning
          obtain ⟨rfl, rfl⟩ : .literal v = e ∧ c.past [t] rest = d := by simpa using h
          refine ⟨[.keep t], .of_step? hstep, ?_⟩
          intro null _
          exact .of_meaning hmeaning
        · rename_i hmeaning
          obtain ⟨rfl, rfl⟩ : .literal .null = e ∧
              (c.past [t] rest).record (.literalTooLarge t.lexeme t.line) = d := by simpa using h
          refine ⟨[.replace t], .of_tooLarge hstep hmeaning, ?_⟩
          intro null hnull
          exact .literal (.nullWord hnull)
        · simp at h
      · exact hmissing h
  obtain ⟨rs, hrs, hd⟩ := hread
  exact ⟨rs, hrs, hd, fun t _ => Level.not_extends_primary t⟩

theorem of_group {c inside : Cursor} {opening : Token}
    (hop : c.take? [.leftParen] = some (opening, inside))
    (ih : Recovers .expression inside) : Recovers .primary c := by
  intro e d h
  rw [Level.parse_primary, hop] at h
  obtain ⟨inner, closing, hinner, hclose⟩ := Outcome.andThen_eq_ok_iff.mp h
  obtain ⟨rs, hrs, hd, -⟩ := ih inner closing hinner
  cases hclosing : closing.take? [.rightParen] with
  | none => simp [hclosing] at hclose
  | some p =>
    obtain ⟨close, after⟩ := p
    obtain ⟨rfl, rfl⟩ : .group inner = e ∧ after = d := by simpa [hclosing] using hclose
    have hopen := (Cursor.take?_eq_past hop).2.2
    have hclosed := (Cursor.take?_eq_past hclosing).2.2
    refine ⟨.keep opening :: rs ++ [.keep close], ?_, ?_, fun t _ => Level.not_extends_primary t⟩
    · exact ((Repaired.of_take? hop).trans hrs).trans (.of_take? hclosing)
    · intro null hnull
      have hgroup := Derives.group (by simpa [Kind.isOneOf_iff] using hopen) (hd null hnull)
        (by simpa [Kind.isOneOf_iff] using hclosed)
      simpa [Repair.repaired] using hgroup

theorem of_primary {c : Cursor} (hop : c.take? Level.unaryOperators = none)
    (ih : Recovers .primary c) : Recovers .unary c := by
  intro e d h
  rw [Level.parse_unary, hop] at h
  obtain ⟨rs, hrs, hd, -⟩ := ih e d h
  exact ⟨rs, hrs, fun null hnull => .primary (hd null hnull),
    fun t _ => Level.not_extends_unary t⟩

theorem of_unary {c after : Cursor} {op : Token}
    (hop : c.take? Level.unaryOperators = some (op, after)) (ih : Recovers .unary after) :
    Recovers .unary c := by
  intro e d h
  rw [Level.parse_unary, hop] at h
  obtain ⟨operand, rest, hoperand, hrest⟩ := Outcome.andThen_eq_ok_iff.mp h
  obtain ⟨rfl, rfl⟩ : .unary op operand = e ∧ rest = d := by simpa using hrest
  obtain ⟨rs, hrs, hd, hstops⟩ := ih operand rest hoperand
  refine ⟨.keep op :: rs, (Repaired.of_take? hop).trans hrs, ?_, hstops⟩
  intro null hnull
  exact .of_unary (Cursor.take?_eq_past hop).2.2 (hd null hnull)

theorem of_binary {tier : Tier} {c : Cursor} (ih : Recovers tier.operand c)
    (ihchain : ∀ left rest, tier.operand.parse c = (.ok left, rest) →
      RecoversChain tier left rest) : Recovers (.binary tier) c := by
  intro e d h
  rw [Level.parse_binary] at h
  obtain ⟨left, rest, hleft, hchain⟩ := Outcome.andThen_eq_ok_iff.mp h
  obtain ⟨ls, hls, hd, hstops⟩ := ih left rest hleft
  obtain ⟨rs, hrs, hstops', hderives⟩ := ihchain left rest hleft e d hchain hstops
  exact ⟨ls ++ rs, hls.trans hrs, hderives ls fun null hnull => .of_operand (hd null hnull),
    hstops'⟩

end Recovers

namespace RecoversChain

theorem of_stop {tier : Tier} {left : Expr} {c : Cursor} (hop : c.take? tier.operators = none) :
    RecoversChain tier left c := by
  intro e d h hstops
  rw [Tier.chain_eq, hop] at h
  obtain ⟨rfl, rfl⟩ : left = e ∧ c = d := by simpa using h
  refine ⟨[], .refl c, Level.stops_binary_iff.mpr ⟨Cursor.take?_eq_none_iff.mp hop, hstops⟩, ?_⟩
  intro ls hls
  simpa using hls

theorem of_link {tier : Tier} {left : Expr} {c after : Cursor} {op : Token}
    (hop : c.take? tier.operators = some (op, after)) (ih : Recovers tier.operand after)
    (ihchain : ∀ right rest, tier.operand.parse after = (.ok right, rest) →
      RecoversChain tier (.binary left op right) rest) : RecoversChain tier left c := by
  intro e d h _
  rw [Tier.chain_eq, hop] at h
  obtain ⟨right, rest, hright, hchain⟩ := Outcome.andThen_eq_ok_iff.mp h
  obtain ⟨rs, hrs, hd, hstops⟩ := ih right rest hright
  obtain ⟨ss, hss, hstops', hderives⟩ := ihchain right rest hright e d hchain hstops
  refine ⟨.keep op :: rs ++ ss, ((Repaired.of_take? hop).trans hrs).trans hss, hstops', ?_⟩
  intro ls hls
  have hlink : DerivesRepaired (.binary tier) (ls ++ .keep op :: rs) (.binary left op right) := by
    intro null hnull
    have hchain := Derives.of_chain (hls null hnull) (Cursor.take?_eq_past hop).2.2 (hd null hnull)
    simpa [Repair.repaired] using hchain
  simpa using hderives _ hlink

end RecoversChain

theorem recovers (level : Level) (c : Cursor) : Recovers level c := by
  have hrules : ReadingRules Recovers RecoversChain :=
    { atom := fun _ hop => .of_atom hop
      group := fun _ _ _ hop ih => .of_group hop ih
      primary := fun _ hop ih => .of_primary hop ih
      unary := fun _ _ _ hop ih => .of_unary hop ih
      binary := fun _ _ ih ihchain => .of_binary ih ihchain
      stop := fun _ _ _ hop => .of_stop hop
      link := fun _ _ _ _ _ hop ih ihchain => .of_link hop ih ihchain }
  exact hrules.holds.1 level c

theorem parse_ok_derives_repaired (level : Level) (c d : Cursor) (e : Expr)
    (h : level.parse c = (.ok e, d)) :
    ∃ (w : List Token) (errs : List ParseError) (rs : List Repair),
      c.tokens = w ++ d.tokens ∧ d.errors = c.errors ++ errs ∧
      (∀ err ∈ errs, (∃ found line, err = .expectedExpression found line) ∨
        ∃ lexeme line, err = .literalTooLarge lexeme line) ∧
      rs.flatMap Repair.tokens = w ∧ Repair.complaints d.tokens c.lastLine rs = errs ∧
      (∀ t, .replace t ∈ rs → t.kind = .integer ∧ t.meaning = .error .tooLarge) ∧
      ∀ null : Token, null.kind = .keyword .nullWord →
        Derives level (rs.flatMap (Repair.repaired null)) e := by
  obtain ⟨rs, hrs, hd, -⟩ := recovers level c e d h
  refine ⟨_, _, rs, hrs.tokens, hrs.errors, fun err => Repair.mem_complaints, rfl, rfl, ?_, hd⟩
  intro t ht
  have hlarge := hrs.tooLarge t ht
  exact ⟨Token.kind_of_tooLarge hlarge, hlarge⟩

def faultyProduct : Cursor :=
  .start [⟨.symbol .star, "*", 1⟩, ⟨.integer, "9223372036854775808", 2⟩,
    ⟨.symbol .rightParen, ")", 3⟩]

theorem parse_ok_derives_repaired_faultyProduct :
    ∃ (d : Cursor) (rs : List Repair),
      (Level.binary .factor).parse faultyProduct =
        (.ok (.binary (.literal .null) ⟨.symbol .star, "*", 1⟩ (.literal .null)), d) ∧
      d.errors = [.expectedExpression "'*'" 1, .literalTooLarge "9223372036854775808" 2] ∧
      faultyProduct.tokens = rs.flatMap Repair.tokens ++ d.tokens ∧
      Repair.complaints d.tokens 1 rs = d.errors ∧
      Derives (.binary .factor) (rs.flatMap (Repair.repaired (.fixed (.keyword .nullWord) 1)))
        (.binary (.literal .null) ⟨.symbol .star, "*", 1⟩ (.literal .null)) := by
  let missed := faultyProduct.record (.expectedExpression "'*'" 1)
  let after : Cursor := missed.past [⟨.symbol .star, "*", 1⟩] missed.tokens.tail
  let behind : Cursor := after.past [⟨.integer, "9223372036854775808", 2⟩] after.tokens.tail
  let d := behind.record (.literalTooLarge "9223372036854775808" 2)
  have hleft : Level.unary.parse faultyProduct = (.ok (.literal .null), missed) := by
    rw [Level.parse_unary, Level.parse_primary]
    rfl
  have hright : Level.unary.parse after = (.ok (.literal .null), d) := by
    rw [Level.parse_unary, Level.parse_primary]
    rfl
  have hop : missed.take? Tier.factor.operators = some (⟨.symbol .star, "*", 1⟩, after) := rfl
  have hparse : (Level.binary .factor).parse faultyProduct =
      (.ok (.binary (.literal .null) ⟨.symbol .star, "*", 1⟩ (.literal .null)), d) :=
    Level.parse_binary_of_pair hleft hop hright rfl
  obtain ⟨w, errs, rs, htokens, herrors, -, rfl, rfl, -, hderives⟩ :=
    parse_ok_derives_repaired _ _ _ _ hparse
  exact ⟨d, rs, hparse, rfl, htokens, herrors.symm, hderives _ rfl⟩

end ExpressionLanguage
