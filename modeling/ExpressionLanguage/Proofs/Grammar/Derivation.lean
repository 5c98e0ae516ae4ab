import ExpressionLanguage.Expr.Basic
import ExpressionLanguage.Grammar.Level
import ExpressionLanguage.Proofs.Grammar.Literal

namespace ExpressionLanguage

variable {tier : Tier} {ops : List Symbol} {level : Level}

def Level.binaryOperators : List Symbol :=
  [.plus, .minus, .star, .slash, .greater, .greaterEqual, .less, .lessEqual, .doubleEqual,
    .bangEqual]

/-- `operand (operator operand)*`, for each level of binary operators. -/
inductive Rule : Tier → List Symbol → Level → Prop
  | equality : Rule .equality [.doubleEqual, .bangEqual] (.binary .comparison)
  | comparison : Rule .comparison [.greater, .greaterEqual, .less, .lessEqual] (.binary .term)
  | term : Rule .term [.plus, .minus] (.binary .factor)
  | factor : Rule .factor [.star, .slash] .unary

namespace Rule

theorem of_tables (tier : Tier) : Rule tier tier.operators tier.operand := by
  cases tier with
  | equality => exact .equality
  | comparison => exact .comparison
  | term => exact .term
  | factor => exact .factor

theorem operators_eq (h : Rule tier ops level) : ops = tier.operators := by
  cases h <;> rfl

theorem operand_eq (h : Rule tier ops level) : level = tier.operand := by
  cases h <;> rfl

theorem mem_binaryOperators {s : Symbol} (h : Rule tier ops level) (hs : s ∈ ops) :
    s ∈ Level.binaryOperators := by
  revert hs
  cases h <;> cases s <;> decide

theorem exists_of_mem {s : Symbol} (hs : s ∈ Level.binaryOperators) :
    ∃ tier ops level, Rule tier ops level ∧ s ∈ ops := by
  cases s with
  | doubleEqual | bangEqual => exact ⟨_, _, _, .equality, by decide⟩
  | greater | greaterEqual | less | lessEqual => exact ⟨_, _, _, .comparison, by decide⟩
  | plus | minus => exact ⟨_, _, _, .term, by decide⟩
  | star | slash => exact ⟨_, _, _, .factor, by decide⟩
  | _ => exact absurd hs (by decide)

end Rule

/-- A repetition grows to the right and its tree to the left. -/
inductive Derives : Level → List Token → Expr → Prop
  | literal {t v} : t.StandsFor v → Derives .primary [t] (.literal v)
  | group {opening w e closing} : opening.kind = .symbol .leftParen →
      Derives (.binary .equality) w e → closing.kind = .symbol .rightParen →
      Derives .primary (opening :: w ++ [closing]) (.group e)
  | primary {w e} : Derives .primary w e → Derives .unary w e
  | unary {op w e} : op.kind = .symbol .minus ∨ op.kind = .symbol .bang → Derives .unary w e →
      Derives .unary (op :: w) (.unary op e)
  | operand {tier ops level w e} : Rule tier ops level → Derives level w e →
      Derives (.binary tier) w e
  | chain {tier ops level v left s op w right} : Rule tier ops level →
      Derives (.binary tier) v left → s ∈ ops → op.kind = .symbol s → Derives level w right →
      Derives (.binary tier) (v ++ op :: w) (.binary left op right)

def Sentence (w : List Token) : Prop :=
  ∃ e, Derives (.binary .equality) w e

theorem Kind.isOneOf_unaryOperators_iff {kind : Kind} :
    kind.isOneOf Level.unaryOperators = true ↔ kind = .symbol .minus ∨ kind = .symbol .bang := by
  simp [isOneOf_iff, Level.unaryOperators]

namespace Derives

variable {v w : List Token} {e left right : Expr} {t op : Token}

theorem of_meaning {v : Value} (h : t.meaning = .ok v) : Derives .primary [t] (.literal v) :=
  .literal (Token.standsFor_iff.mpr h)

theorem of_unary (hop : op.kind.isOneOf Level.unaryOperators = true) (h : Derives .unary w e) :
    Derives .unary (op :: w) (.unary op e) :=
  .unary (Kind.isOneOf_unaryOperators_iff.mp hop) h

theorem of_operand (h : Derives tier.operand w e) : Derives (.binary tier) w e :=
  .operand (.of_tables tier) h

theorem of_chain (hleft : Derives (.binary tier) v left)
    (hop : op.kind.isOneOf tier.operators = true) (hright : Derives tier.operand w right) :
    Derives (.binary tier) (v ++ op :: w) (.binary left op right) := by
  obtain ⟨s, hs, hkind⟩ := Kind.isOneOf_iff.mp hop
  exact .chain (.of_tables tier) hleft hs hkind hright

end Derives

namespace Level

inductive Extends : Level → Token → Prop
  | here {tier ops level t s} : Rule tier ops level → s ∈ ops → t.kind = .symbol s →
      Extends (.binary tier) t
  | tighter {tier ops level t} : Rule tier ops level → Extends level t → Extends (.binary tier) t

def Stops (level : Level) (rest : List Token) : Prop :=
  ∀ t ∈ rest.head?, ¬ level.Extends t

variable {t : Token} {rest : List Token} {s : Symbol}

theorem not_extends_primary (t : Token) : ¬ primary.Extends t := by
  rintro ⟨⟩

theorem not_extends_unary (t : Token) : ¬ unary.Extends t := by
  rintro ⟨⟩

theorem extends_binary_iff :
    (binary tier).Extends t ↔
      t.kind.isOneOf tier.operators = true ∨ tier.operand.Extends t := by
  rw [Kind.isOneOf_iff]
  constructor
  · intro h
    cases h with
    | here hrule hs hkind => exact .inl ⟨_, hrule.operators_eq ▸ hs, hkind⟩
    | tighter hrule h => exact .inr (hrule.operand_eq ▸ h)
  · rintro (⟨s, hs, hkind⟩ | h)
    · exact .here (.of_tables tier) hs hkind
    · exact .tighter (.of_tables tier) h

theorem Extends.mem_binaryOperators (h : level.Extends t) :
    ∃ s ∈ binaryOperators, t.kind = .symbol s := by
  induction h with
  | here hrule hs hkind => exact ⟨_, hrule.mem_binaryOperators hs, hkind⟩
  | tighter _ _ ih => exact ih

theorem extends_expression_iff :
    (binary .equality).Extends t ↔ ∃ s ∈ binaryOperators, t.kind = .symbol s := by
  constructor
  · exact Extends.mem_binaryOperators
  · rintro ⟨s, hs, hkind⟩
    obtain ⟨tier, ops, level, hrule, hop⟩ := Rule.exists_of_mem hs
    have hhere := Extends.here hrule hop hkind
    cases hrule with
    | equality => exact hhere
    | comparison => exact .tighter .equality hhere
    | term => exact .tighter .equality (.tighter .comparison hhere)
    | factor => exact .tighter .equality (.tighter .comparison (.tighter .term hhere))

theorem not_extends_of_kind (hkind : t.kind = .symbol s) (hs : s ∉ binaryOperators) :
    ¬ level.Extends t := by
  intro h
  obtain ⟨s', hs', hkind'⟩ := h.mem_binaryOperators
  obtain rfl : s = s' := by simpa [hkind] using hkind'
  exact hs hs'

theorem not_extends_operand (tier : Tier) (h : t.kind.isOneOf tier.operators = true) :
    ¬ tier.operand.Extends t := by
  obtain ⟨s, hs, hkind⟩ := Kind.isOneOf_iff.mp h
  revert hs
  cases tier <;> cases s <;>
    simp [Tier.operators, Tier.operand, extends_binary_iff, not_extends_unary, hkind, Kind.isOneOf]

theorem stops_nil (level : Level) : level.Stops [] := by
  simp [Stops]

theorem stops_cons : level.Stops (t :: rest) ↔ ¬ level.Extends t := by
  simp [Stops]

theorem stops_binary_iff :
    (binary tier).Stops rest ↔
      (∀ t ∈ rest.head?, t.kind.isOneOf tier.operators = false) ∧ tier.operand.Stops rest := by
  cases rest with
  | nil => simp [Stops]
  | cons t rest => simp [stops_cons, extends_binary_iff]

theorem stops_rightParen (h : t.kind = .symbol .rightParen) : level.Stops (t :: rest) :=
  stops_cons.mpr (not_extends_of_kind h (by decide))

end Level

def beforeEnd (tokens : List Token) : List Token :=
  tokens.takeWhile fun t => t.kind != .endOfInput

def AtEnd (tokens : List Token) : Prop :=
  ∀ t ∈ tokens.head?, t.kind = .endOfInput

theorem AtEnd.stops {rest : List Token} (h : AtEnd rest) (level : Level) : level.Stops rest := by
  intro t ht hextends
  obtain ⟨s, -, hkind⟩ := hextends.mem_binaryOperators
  simp [h t ht] at hkind

theorem AtEnd.beforeEnd_eq_nil {rest : List Token} (h : AtEnd rest) : beforeEnd rest = [] := by
  cases rest with
  | nil => rfl
  | cons t rest =>
    have ht := h t rfl
    simp [beforeEnd, ht]

theorem beforeEnd_cons {t : Token} (h : t.kind ≠ .endOfInput) (rest : List Token) :
    beforeEnd (t :: rest) = t :: beforeEnd rest := by
  simp [beforeEnd, h]

theorem beforeEnd_append {w : List Token} (h : ∀ t ∈ w, t.kind ≠ .endOfInput)
    (rest : List Token) : beforeEnd (w ++ rest) = w ++ beforeEnd rest := by
  induction w with
  | nil => rfl
  | cons t w ih =>
    rw [List.cons_append, beforeEnd_cons (h t (by simp)), ih fun u hu => h u (by simp [hu])]
    rfl

theorem exists_eq_beforeEnd_append (tokens : List Token) :
    ∃ rest, tokens = beforeEnd tokens ++ rest ∧ AtEnd rest := by
  refine ⟨tokens.dropWhile fun t => t.kind != .endOfInput, ?_, ?_⟩
  · exact (List.takeWhile_append_dropWhile).symm
  · intro t ht
    have hp := List.head?_dropWhile_not (p := fun t : Token => t.kind != .endOfInput) (l := tokens)
    rw [ht] at hp
    simpa using hp

theorem Derives.kind_ne_endOfInput {w : List Token} {e : Expr} (h : Derives level w e) :
    ∀ t ∈ w, t.kind ≠ .endOfInput := by
  induction h with
  | literal hvalue =>
    have hliteral := hvalue.mem_literals
    intro u hu hend
    obtain rfl := List.mem_singleton.mp hu
    simp [hend, Kind.literals] at hliteral
  | group hopen _ hclose ih =>
    simp only [List.cons_append, List.mem_cons, List.mem_append, List.not_mem_nil, or_false]
    rintro u (rfl | hu | rfl)
    · simp [hopen]
    · exact ih u hu
    · simp [hclose]
  | primary _ ih => exact ih
  | unary hop _ ih =>
    rintro u (_ | ⟨_, hu⟩)
    · rcases hop with hop | hop <;> simp [hop]
    · exact ih u hu
  | operand _ _ ih => exact ih
  | chain _ _ _ hop _ ihleft ihright =>
    simp only [List.mem_append, List.mem_cons]
    rintro u (hu | rfl | hu)
    · exact ihleft u hu
    · simp [hop]
    · exact ihright u hu

theorem derives_beforeEnd_iff {level : Level} {tokens : List Token} {e : Expr} :
    Derives level (beforeEnd tokens) e ↔
      ∃ w rest, tokens = w ++ rest ∧ Derives level w e ∧ AtEnd rest := by
  constructor
  · intro h
    obtain ⟨rest, htokens, hrest⟩ := exists_eq_beforeEnd_append tokens
    exact ⟨beforeEnd tokens, rest, htokens, h, hrest⟩
  · rintro ⟨w, rest, rfl, h, hrest⟩
    rw [beforeEnd_append h.kind_ne_endOfInput, hrest.beforeEnd_eq_nil, List.append_nil]
    exact h

end ExpressionLanguage
