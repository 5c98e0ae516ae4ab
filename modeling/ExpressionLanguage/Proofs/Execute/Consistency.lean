import ExpressionLanguage.Proofs.Execute.Stages
import ExpressionLanguage.Proofs.Expr.Failure
import ExpressionLanguage.Proofs.Grammar.Accounting
import ExpressionLanguage.Proofs.Scan.Literals

namespace ExpressionLanguage

inductive Cursor.Returns (c : Cursor) : Expr → Prop
  | level {level e d} : Level.parse level c = (.ok e, d) → c.Returns e
  | literal {e d} : c.literal = (.ok e, d) → c.Returns e
  | parse {p} : c.parse = .ok p → c.Returns p.expr
  | parseAll {e} : c.parseAll.1 = .ok e → c.Returns e

theorem Derives.supported {level : Level} {w : List Token} {e : Expr} (h : Derives level w e) :
    e.Supported := by
  induction h with
  | literal _ => trivial
  | group _ _ _ ih => exact ih
  | primary _ ih => exact ih
  | unary hop _ ih => exact ⟨Kind.isOneOf_unaryOperators_iff.mpr hop, ih⟩
  | operand _ _ ih => exact ih
  | chain hrule _ hs hop _ ihleft ihright =>
    exact ⟨ihleft, Kind.isOneOf_iff.mpr ⟨_, hrule.mem_binaryOperators hs, hop⟩, ihright⟩

theorem Derives.literals {level : Level} {w : List Token} {e : Expr} (h : Derives level w e) :
    ∀ v ∈ e.literals, ∃ t ∈ w, t.meaning = .ok v := by
  intro v hv
  rw [h.literals_eq] at hv
  obtain ⟨t, ht, hvalue⟩ := List.mem_filterMap.mp hv
  cases hmeaning : t.meaning with
  | error fault => simp [hmeaning, Except.toOption] at hvalue
  | ok u =>
    obtain rfl : u = v := by simpa [hmeaning, Except.toOption] using hvalue
    exact ⟨t, ht, hmeaning⟩

theorem Repair.mem_repaired {null t : Token} {rs : List Repair}
    (h : t ∈ rs.flatMap (Repair.repaired null)) : t = null ∨ t ∈ rs.flatMap Repair.tokens := by
  simp only [List.mem_flatMap] at h ⊢
  obtain ⟨r, hr, ht⟩ := h
  cases r with
  | keep u => exact .inr ⟨.keep u, hr, ht⟩
  | insert => exact .inl (by simpa [repaired] using ht)
  | replace u => exact .inl (by simpa [repaired] using ht)

structure Expr.Founded (tokens : List Token) (e : Expr) : Prop where
  supported : e.Supported
  literals : ∀ v ∈ e.literals, v = .null ∨ ∃ t ∈ tokens, t.meaning = .ok v

theorem Level.founded {level : Level} {c d : Cursor} {e : Expr} (h : level.parse c = (.ok e, d)) :
    e.Founded c.tokens := by
  obtain ⟨rs, hrs, hd, -⟩ := recovers level c e d h
  have hderives := hd (.fixed (.keyword .nullWord) 1) rfl
  refine ⟨hderives.supported, ?_⟩
  intro v hv
  obtain ⟨t, ht, hmeaning⟩ := hderives.literals v hv
  rcases Repair.mem_repaired ht with rfl | ht
  · rw [Token.meaning_null rfl] at hmeaning
    exact .inl (Except.ok.inj hmeaning).symm
  · exact .inr ⟨t, by simp [hrs.tokens, ht], hmeaning⟩

theorem Cursor.founded_literal {c d : Cursor} {e : Expr} (h : c.literal = (.ok e, d)) :
    e.Founded c.tokens := by
  have hnull : (Expr.literal .null).Founded c.tokens := ⟨trivial, by simp [Expr.literals]⟩
  unfold literal at h
  split at h
  · obtain rfl : .literal .null = e := by simpa [missing] using congrArg Prod.fst h
    exact hnull
  · rename_i t after hstep
    split at h
    · rename_i v hmeaning
      obtain rfl : .literal v = e := by simpa using congrArg Prod.fst h
      refine ⟨trivial, ?_⟩
      intro u hu
      obtain rfl : u = v := by simpa [Expr.literals] using hu
      exact .inr ⟨t, by simp [(step?_eq_some_iff.mp hstep).1], hmeaning⟩
    · obtain rfl : .literal .null = e := by simpa using congrArg Prod.fst h
      exact hnull
    · simp at h

theorem Cursor.Returns.founded {c : Cursor} {e : Expr} (h : c.Returns e) : e.Founded c.tokens := by
  cases h with
  | level h => exact Level.founded h
  | literal h => exact founded_literal h
  | parse h =>
    unfold Cursor.parse at h
    split at h
    · cases h
    · rename_i hparse
      cases h
      exact Level.founded hparse
  | parseAll h =>
    obtain ⟨d, hparse, -⟩ := parseAll_eq_ok_iff.mp h
    exact Level.founded hparse

theorem scan_negatable {source : String} {t : Token} {v : Value} (ht : t ∈ (scan source).tokens)
    (hv : t.meaning = .ok v) : v.Negatable := by
  rintro rfl
  have hkind := Token.kind_of_integer hv
  have hdigits := ((scan_wellSpelled ht).numeral hkind).isDigit
  cases hread : Numeral.readInteger t.lexeme.toList with
  | error fault => simp [Token.meaning, hkind, hread, Except.map] at hv
  | ok n =>
    have hn : n = Int64.minValue := by simpa [Token.meaning, hkind, hread, Except.map] using hv
    exact Numeral.readInteger_ne_minValue hdigits hread hn

theorem Cursor.Returns.negatable {source : String} {c : Cursor} {e : Expr}
    (hc : ∀ t ∈ c.tokens, t ∈ (scan source).tokens) (h : c.Returns e) :
    ∀ v ∈ e.literals, v.Negatable := by
  intro v hv
  rcases h.founded.literals v hv with rfl | ⟨t, ht, hmeaning⟩
  · simp [Value.Negatable]
  · exact scan_negatable (hc t ht) hmeaning

theorem returns_of_execute {source : String} {r : RuntimeError}
    (h : (execute source).result = .error (.runtime r)) :
    ∃ e, (Cursor.start (scan source).tokens).Returns e ∧ e.eval = .error r := by
  obtain ⟨e, htree, heval⟩ := execute_eq_runtime_iff.mp h
  exact ⟨e, .parseAll (treeOf_eq_ok_iff_parseAll.mp htree).2, heval⟩

theorem parsed_trees_consistent :
    (∀ (c : Cursor) (e : Expr), c.Returns e →
      ∀ operator line, e.eval ≠ .error (.unsupportedOperator operator line)) ∧
    (∀ (source : String) (c : Cursor) (e : Expr), (∀ t ∈ c.tokens, t ∈ (scan source).tokens) →
      c.Returns e →
      (∀ line, e.eval ≠ .error (.overflow line)) ∧
      ∀ e' ∈ e.subtrees, ∀ n, e'.eval = .ok (.integer n) →
        -9223372036854775807 ≤ n.toInt ∧ n.toInt ≤ 9223372036854775807) ∧
    ∀ (source : String) (line : Nat),
      (∀ operator,
        (execute source).result ≠ .error (.runtime (.unsupportedOperator operator line))) ∧
      (execute source).result ≠ .error (.runtime (.overflow line)) := by
  have hsupported : ∀ (c : Cursor) (e : Expr), c.Returns e →
      ∀ operator line, e.eval ≠ .error (.unsupportedOperator operator line) :=
    fun c e h => h.founded.supported.eval_ne_unsupported
  refine ⟨hsupported, ?_, ?_⟩
  · intro source c e hc h
    have hnegatable := h.negatable hc
    refine ⟨Expr.eval_ne_overflow hnegatable, ?_⟩
    intro e' he' n hn
    exact (Expr.eval_negatable hn (Expr.literals_subtrees hnegatable e' he')).bounds
  · intro source line
    constructor
    · intro operator h
      obtain ⟨e, hreturns, heval⟩ := returns_of_execute h
      exact hsupported _ e hreturns operator line heval
    · intro h
      obtain ⟨e, hreturns, heval⟩ := returns_of_execute h
      exact Expr.eval_ne_overflow (hreturns.negatable fun _ ht => ht) line heval

def greatestNegated : Cursor :=
  .start (scan "-9223372036854775807").tokens

theorem parsed_trees_consistent_greatestNegated :
    ∃ e, greatestNegated.Returns e ∧ e.eval = .ok (.integer (-9223372036854775807)) ∧
      (∀ operator line, e.eval ≠ .error (.unsupportedOperator operator line)) ∧
      (∀ line, e.eval ≠ .error (.overflow line)) ∧
      -9223372036854775807 ≤ (-9223372036854775807 : Int64).toInt := by
  let minus : Token := ⟨.symbol .minus, "-", 1⟩
  let greatest : Token := ⟨.integer, "9223372036854775807", 1⟩
  let e : Expr := .unary minus (.literal (.integer 9223372036854775807))
  have hlegible : Legible [.symbol .minus, .integer "9223372036854775807".toList] := by
    refine ⟨trivial, ?_, ⟨by decide, List.all_eq_true.mp (by decide)⟩, ?_, trivial⟩
    · simp [Segment.EndsBefore, Segment.chars, Symbol.ofChars?_append_eq_none]
    · simp [Segment.EndsBefore]
  have hsegments : segments "-9223372036854775807".toList =
      [.symbol .minus, .integer "9223372036854775807".toList] :=
    segments_eq_iff.mpr ⟨hlegible, rfl⟩
  have htokens : greatestNegated.tokens = [minus, greatest] ++ [⟨.endOfInput, "", 2⟩] := by
    rw [greatestNegated, Cursor.start, scan_tokens, hsegments]
    rfl
  have hread : Numeral.readInteger greatest.lexeme.toList = .ok 9223372036854775807 := by
    decide +kernel
  have hmeaning : greatest.meaning = .ok (.integer 9223372036854775807) :=
    congrArg (Except.map Value.integer) hread
  have hderives : Derives .unary [minus, greatest] e :=
    .unary (.inl rfl) (.primary (.of_meaning hmeaning))
  have hreturns : greatestNegated.Returns e :=
    .level (parse_of_derives hderives _ _ htokens trivial)
  have heval : e.eval = .ok (.integer (-9223372036854775807)) := by rfl
  obtain ⟨hsupported, hscanned, -⟩ := parsed_trees_consistent
  obtain ⟨hoverflow, hbounds⟩ := hscanned _ _ e (fun _ ht => ht) hreturns
  have hself : e ∈ e.subtrees := by simp [e, Expr.subtrees]
  exact ⟨e, hreturns, heval, hsupported _ _ hreturns, hoverflow, (hbounds e hself _ heval).1⟩

end ExpressionLanguage
