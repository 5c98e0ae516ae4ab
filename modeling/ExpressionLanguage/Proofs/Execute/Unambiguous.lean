import ExpressionLanguage.Proofs.Execute.Consistency
import ExpressionLanguage.Proofs.Execute.Rendering
import ExpressionLanguage.Proofs.Scan.Writing

namespace ExpressionLanguage

structure Expr.Unsigned (e : Expr) : Prop where
  plain : e.Plain
  nonneg : ∀ n, .integer n ∈ e.literals → 0 ≤ n.toInt

theorem Reads.unique {text : String} {level : Level} {ss ss' : List Segment} {e e' : Expr}
    (h : Reads text level ss e) (h' : Reads text level ss' e') : e = e' := by
  have hsegments : segments text.toList = ss := segments_eq_iff.mpr ⟨h.legible, h.written⟩
  have hsegments' : segments text.toList = ss' := segments_eq_iff.mpr ⟨h'.legible, h'.written⟩
  obtain rfl : ss = ss' := hsegments.symm.trans hsegments'
  exact h.derives.unique h'.derives

namespace Expr

def ungrouped : Expr → Expr
  | literal value => literal value
  | group (unary operator operand) => unary operator operand.ungrouped
  | group (binary left operator right) => binary left.ungrouped operator right.ungrouped
  | group inner => group inner.ungrouped
  | unary operator operand => unary operator operand
  | binary left operator right => binary left operator right

theorem render_mapLines (f : Nat → Nat) (e : Expr) : (e.mapLines f).render = e.render := by
  induction e with
  | literal value => rfl
  | group inner ih => rw [mapLines, render, render, ih]
  | unary operator operand ih => rw [mapLines, render, render, ih, Token.mapLine]
  | binary left operator right ihleft ihright =>
    rw [mapLines, render, render, ihleft, ihright, Token.mapLine]

theorem reread_literal {v : Value} (h : ∀ n, v = .integer n → 0 ≤ n.toInt) :
    (literal v).reread = literal v := by
  cases v with
  | integer n =>
    have hn : ¬ n.toInt < 0 := Int.not_lt.mpr (h n rfl)
    rw [reread, if_neg hn]
  | _ => rfl

theorem operator?_reread {e : Expr} (h : ∀ n, .integer n ∈ e.literals → 0 ≤ n.toInt) :
    e.reread.operator? = none := by
  cases e with
  | literal value =>
    rw [reread_literal (by simpa [literals, eq_comm] using h)]
    rfl
  | _ => rfl

theorem ungrouped_group {e : Expr} (h : e.operator? = none) :
    (group e).ungrouped = group e.ungrouped := by
  cases e with
  | literal | group => rfl
  | unary | binary => cases h

theorem ungrouped_reread {e : Expr} (h : ∀ n, .integer n ∈ e.literals → 0 ≤ n.toInt) :
    e.reread.ungrouped = e.mapLines fun _ => 1 := by
  induction e with
  | literal value =>
    rw [reread_literal (by simpa [literals, eq_comm] using h)]
    rfl
  | group inner ih => rw [reread, ungrouped_group (operator?_reread (e := inner) h), ih h, mapLines]
  | unary operator operand ih => rw [reread, ungrouped, ih h, mapLines]
  | binary left operator right ihleft ihright =>
    have hleft := ihleft fun n hn => h n (List.mem_append_left _ hn)
    have hright := ihright fun n hn => h n (List.mem_append_right _ hn)
    rw [reread, ungrouped, hleft, hright, mapLines]

theorem Unsigned.mapLines_of_render {e e' : Expr} (h : e.Unsigned) (h' : e'.Unsigned)
    (htext : e.render = e'.render) : (e.mapLines fun _ => 1) = e'.mapLines fun _ => 1 := by
  obtain ⟨ss, hss⟩ := h.plain.reads
  obtain ⟨ss', hss'⟩ := h'.plain.reads
  rw [← htext] at hss'
  rw [← ungrouped_reread h.nonneg, ← ungrouped_reread h'.nonneg, hss.unique hss']

end Expr

theorem Token.kind_of_meaning {t : Token} {v : Value} (h : t.meaning = .ok v) :
    t.kind = .string ∨ t.kind = .float ∨
      v.type = .integer ∨ v.type = .boolean ∨ v.type = .null := by
  have hboolean {b : Bool} (hb : t.boolean b = .ok v) : v.type = .boolean := by
    unfold boolean at hb
    split at hb
    · obtain rfl := Except.ok.inj hb
      rfl
    · cases hb
  unfold meaning at h
  split at h
  · exact .inl ‹_›
  · cases hread : Numeral.readInteger t.lexeme.toList with
    | error fault => simp [hread, Except.map] at h
    | ok n =>
      obtain rfl : .integer n = v := by simpa [hread, Except.map] using h
      simp [Value.type]
  · exact .inr (.inl ‹_›)
  · simp [hboolean h]
  · simp [hboolean h]
  · obtain rfl := Except.ok.inj h
    simp [Value.type]
  · cases h

section Spelled

variable {t : Token} (hspelled : t.kind.Admits t.lexeme)

include hspelled

theorem Token.isOperator_of_admits {symbols : List Symbol}
    (h : t.kind.isOneOf symbols = true) : t.IsOperator symbols := by
  obtain ⟨s, hs, hkind⟩ := Kind.isOneOf_iff.mp h
  rw [hkind] at hspelled
  exact ⟨s, hs, hkind, hspelled⟩

theorem Token.nonneg_of_meaning {n : Int64} (h : t.meaning = .ok (.integer n)) : 0 ≤ n.toInt := by
  have hkind := kind_of_integer h
  rw [hkind] at hspelled
  have hnumeral : t.IsNumeral := ⟨hkind, hspelled.1, hspelled.2⟩
  rcases Nat.lt_or_ge 9223372036854775807 t.denoted with hlt | hle
  · rw [hnumeral.meaning_of_lt hlt] at h
    cases h
  · rw [hnumeral.meaning_of_le hle] at h
    obtain rfl : Int64.ofNat t.denoted = n := by simpa using h
    rw [Numeral.toInt_ofNat_of_le hle]
    exact Int.natCast_nonneg _

theorem Token.plain_of_meaning {v : Value} (hstring : t.kind ≠ .string) (hfloat : t.kind ≠ .float)
    (h : t.meaning = .ok v) : v.Plain := by
  rcases kind_of_meaning h with hkind | hkind | htype
  · exact absurd hkind hstring
  · exact absurd hkind hfloat
  · cases v with
    | string | float => simp [Value.type] at htype
    | integer n =>
      have hn := nonneg_of_meaning hspelled h
      rintro rfl
      revert hn
      decide
    | boolean | null => trivial

end Spelled

section Source

variable {w : List Token}
  (hw : ∀ t ∈ w, t.kind.Admits t.lexeme ∧ t.kind ≠ .string ∧ t.kind ≠ .float)

include hw

theorem Derives.plain {level : Level} {e : Expr} (h : Derives level w e) : e.Plain := by
  induction h with
  | @literal t v hvalue =>
    obtain ⟨hspelled, hstring, hfloat⟩ := hw t List.mem_cons_self
    exact Token.plain_of_meaning hspelled hstring hfloat (Token.standsFor_iff.mp hvalue)
  | group _ _ _ ih => exact ih fun t ht => hw t (by simp [ht])
  | primary _ ih => exact ih hw
  | @unary op w e hop _ ih =>
    have hoperator := Token.isOperator_of_admits (hw op List.mem_cons_self).1
      (Kind.isOneOf_unaryOperators_iff.mpr hop)
    exact ⟨hoperator, ih fun t ht => hw t (List.mem_cons_of_mem _ ht)⟩
  | operand _ _ ih => exact ih hw
  | @chain _ _ _ v _ s op w _ hrule _ hs hop _ ihleft ihright =>
    have hoperator := Token.isOperator_of_admits (hw op (by simp)).1
      (Kind.isOneOf_iff.mpr ⟨s, hrule.mem_binaryOperators hs, hop⟩)
    exact ⟨ihleft fun t ht => hw t (by simp [ht]), hoperator,
      ihright fun t ht => hw t (by simp [ht])⟩

theorem Derives.unsigned {level : Level} {e : Expr} (h : Derives level w e) : e.Unsigned := by
  refine ⟨h.plain hw, ?_⟩
  intro n hn
  obtain ⟨t, ht, hmeaning⟩ := h.literals _ hn
  exact Token.nonneg_of_meaning (hw t ht).1 hmeaning

end Source

theorem unsigned_of_treeOf {source : String} {e : Expr} (h : (treeOf source).result = .ok e)
    (hkinds : ∀ t ∈ (scan source).tokens, t.kind ≠ .string ∧ t.kind ≠ .float) : e.Unsigned := by
  obtain ⟨-, hderives⟩ := treeOf_eq_ok_iff.mp h
  refine hderives.unsigned ?_
  intro t ht
  obtain ⟨s, hs, line, htoken⟩ := mem_tokensFrom ht
  have hwellFormed := (legible_segments source.toList).wellFormed s hs
  refine ⟨Segment.admits_of_token? hwellFormed htoken, hkinds t ?_⟩
  rw [scan_tokens]
  exact List.mem_append_left _ ht

theorem render_unambiguous :
    (∀ e e' : Expr, e.Unsigned → e'.Unsigned →
      (e.render = e'.render ↔ (e.mapLines fun _ => 1) = e'.mapLines fun _ => 1)) ∧
    ∀ (source : String) (e : Expr), (treeOf source).result = .ok e →
      (∀ t ∈ (scan source).tokens, t.kind ≠ .string ∧ t.kind ≠ .float) → e.Unsigned := by
  refine ⟨?_, fun _ _ => unsigned_of_treeOf⟩
  intro e e' he he'
  constructor
  · exact he.mapLines_of_render he'
  · intro hlines
    rw [← e.render_mapLines fun _ => 1, hlines, e'.render_mapLines]

def minusOn (line : Nat) : Token :=
  ⟨.symbol .minus, "-", line⟩

def negatedGroup (line : Nat) : Expr :=
  .unary (minusOn line) (.group (.literal (.integer 1)))

def groupedNegation (line : Nat) : Expr :=
  .group (.unary (minusOn line) (.literal (.integer 1)))

theorem treeOf_negatedGroup :
    (treeOf "-(1)").result = .ok (negatedGroup 1) ∧
      ∀ t ∈ (scan "-(1)").tokens, t.kind ≠ .string ∧ t.kind ≠ .float := by
  have hlegible : Legible
      [.symbol .minus, .symbol .leftParen, .integer ['1'], .symbol .rightParen] := by
    refine ⟨trivial, ?_, trivial, ?_, ⟨by simp, by simp⟩, ?_, trivial, ?_, trivial⟩
    · exact Segment.endsBefore_symbol rfl _
    · exact Segment.endsBefore_symbol rfl _
    · simp [Segment.EndsBefore, Segment.chars, Symbol.lexeme]
    · exact Segment.endsBefore_symbol rfl _
  have hsegments : segments "-(1)".toList = _ := segments_eq_iff.mpr ⟨hlegible, rfl⟩
  have hone : Derives .expression [⟨.integer, "1", 1⟩] (.literal (.integer 1)) :=
    (Derives.primary (.of_meaning rfl)).expression_of_unary
  have hgroup : Derives .unary _ (.group (.literal (.integer 1))) :=
    .primary (@Derives.group (.fixed (.symbol .leftParen) 1) _ _ (.fixed (.symbol .rightParen) 1)
      rfl hone rfl)
  constructor
  · rw [treeOf_eq_ok_iff, hsegments]
    exact ⟨by simp [Segment.isFault], (Derives.unary (.inl rfl) hgroup).expression_of_unary⟩
  · rw [scan_tokens, hsegments]
    decide

theorem render_unambiguous_groupMoved :
    (negatedGroup 2).Unsigned ∧ (negatedGroup 5).Unsigned ∧ (groupedNegation 2).Unsigned ∧
    ((negatedGroup 2).mapLines fun _ => 1) = (negatedGroup 5).mapLines (fun _ => 1) ∧
    (negatedGroup 2).render = "(-(1))" ∧ (groupedNegation 2).render = "((-1))" ∧
    (negatedGroup 2).render ≠ (groupedNegation 2).render ∧
    (treeOf "-(1)").result = .ok (negatedGroup 1) ∧ (negatedGroup 1).Unsigned := by
  obtain ⟨htext, hsource⟩ := render_unambiguous
  obtain ⟨htree, hkinds⟩ := treeOf_negatedGroup
  have hone : (1 : Int64) ≠ Int64.minValue := by decide
  have hnonneg : ∀ n, .integer n ∈ [Value.integer 1] → 0 ≤ n.toInt := by
    simp
  have hnegated (line : Nat) : (negatedGroup line).Unsigned :=
    ⟨⟨⟨.minus, by decide, rfl, rfl⟩, hone⟩, hnonneg⟩
  have hgrouped (line : Nat) : (groupedNegation line).Unsigned :=
    ⟨⟨⟨.minus, by decide, rfl, rfl⟩, hone⟩, hnonneg⟩
  refine ⟨hnegated 2, hnegated 5, hgrouped 2, ?_, by decide +kernel, by decide +kernel, ?_, htree,
    hsource _ _ htree hkinds⟩
  · exact (htext _ _ (hnegated 2) (hnegated 5)).mp rfl
  · intro hsame
    have hlines := (htext _ _ (hnegated 2) (hgrouped 2)).mp hsame
    cases hlines

end ExpressionLanguage
