import ExpressionLanguage.Proofs.Grammar.Agreement
import ExpressionLanguage.Proofs.Grammar.Atoms
import ExpressionLanguage.Proofs.Scan.Placement
import Mathlib.Data.List.Perm.Subperm

/-!
The errors of one reading and the tokens that they are about. An error is told by the index of the
token in front of which it was recorded, and these indices only grow: no token is complained about
twice, and nothing comes behind a complaint about the end of input.
-/

namespace ExpressionLanguage

-- the first end of input stands at the index that the tokens before it leave to it
inductive ParseError.About (tokens : List Token) : Nat → ParseError → Prop
  | misplaced {i t} : (beforeEnd tokens)[i]? = some t → t.kind.isLiteral = false →
      About tokens i (.expectedExpression ("'" ++ t.lexeme ++ "'") t.line)
  | atEnd : About tokens (beforeEnd tokens).length
      (.expectedExpression "end of input" (((beforeEnd tokens).getLast?.map Token.line).getD 1))
  | oversized {i t} : (beforeEnd tokens)[i]? = some t → t.kind = .integer →
      t.meaning = .error .tooLarge → About tokens i (.literalTooLarge t.lexeme t.line)

def diagnosed (tokens : List Token) : List (Nat × ParseError) :=
  (atomsOf .expression (.start tokens)).filterMap fun d =>
    d.fault?.map fun err => (tokens.length - d.tokens.length, err)

section

variable {tokens w : List Token} {d : Cursor} {t : Token} {rest : List Token}

theorem Cursor.Crosses.index (h : (Cursor.start tokens).Crosses w d) :
    tokens.length - d.tokens.length = w.length := by
  have htokens : tokens = w ++ d.tokens := h.tokens
  rw [htokens, List.length_append]
  omega

theorem Cursor.Crosses.beforeEnd_of_atEnd (h : (Cursor.start tokens).Crosses w d)
    (hend : AtEnd d.tokens) : beforeEnd tokens = w := by
  have htokens : tokens = w ++ d.tokens := h.tokens
  rw [htokens, beforeEnd_append h.kinds, hend.beforeEnd_eq_nil, List.append_nil]

theorem Cursor.Crosses.about_atEnd (h : (Cursor.start tokens).Crosses w d)
    (hend : AtEnd d.tokens) :
    ParseError.About tokens w.length (.expectedExpression "end of input" d.lastLine) := by
  have hline : d.lastLine = (w.getLast?.map Token.line).getD 1 := by
    rw [h.lastLine, lineAfter_eq_getLast?]
    rfl
  have habout : ParseError.About tokens _ _ := .atEnd
  rwa [h.beforeEnd_of_atEnd hend, ← hline] at habout

theorem Cursor.Crosses.getElem?_beforeEnd (h : (Cursor.start tokens).Crosses w d)
    (hd : d.tokens = t :: rest) (ht : t.kind ≠ .endOfInput) :
    (beforeEnd tokens)[w.length]? = some t := by
  have htokens : tokens = w ++ d.tokens := h.tokens
  rw [htokens, beforeEnd_append h.kinds, hd, beforeEnd_cons ht]
  simp

theorem Cursor.Crosses.about (h : (Cursor.start tokens).Crosses w d) {err : ParseError}
    (hfault : d.fault? = some err) : err.About tokens w.length := by
  cases hd : d.tokens with
  | nil =>
    obtain rfl : .expectedExpression "end of input" d.lastLine = err := by
      simpa [fault?, missingError, hd] using hfault
    exact h.about_atEnd (by simp [AtEnd, hd])
  | cons t rest =>
    by_cases hend : t.kind = .endOfInput
    · obtain rfl : .expectedExpression "end of input" d.lastLine = err := by
        simpa [fault?, missingError, hd, hend, Kind.isLiteral] using hfault
      exact h.about_atEnd (by simpa [AtEnd, hd] using hend)
    · have hget := h.getElem?_beforeEnd hd hend
      cases hliteral : t.kind.isLiteral with
      | false =>
        obtain rfl : .expectedExpression ("'" ++ t.lexeme ++ "'") t.line = err := by
          simpa [fault?, missingError, hd, hend, hliteral] using hfault
        exact .misplaced hget hliteral
      | true =>
        obtain ⟨hlarge, rfl⟩ :
            t.isOversized = true ∧ .literalTooLarge t.lexeme t.line = err := by
          simpa [fault?, hd, hliteral] using hfault
        have hmeaning := Token.isOversized_iff.mp hlarge
        exact .oversized hget (Token.kind_of_tooLarge hmeaning) hmeaning

end

namespace ParseError.About

variable {tokens : List Token} {i : Nat} {err : ParseError}

theorem le_length (h : err.About tokens i) : i ≤ (beforeEnd tokens).length := by
  cases h with
  | misplaced hget _ => exact Nat.le_of_lt (List.getElem?_eq_some_iff.mp hget).1
  | atEnd => exact Nat.le_refl _
  | oversized hget _ _ => exact Nat.le_of_lt (List.getElem?_eq_some_iff.mp hget).1

theorem eq_of_atEnd {line : Nat} (h : About tokens i (.expectedExpression "end of input" line)) :
    i = (beforeEnd tokens).length ∧
      line = ((beforeEnd tokens).getLast?.map Token.line).getD 1 := by
  generalize herr : ParseError.expectedExpression "end of input" line = err at h
  cases h with
  | @misplaced _ t _ _ =>
    -- a token that was found is quoted, the end of input is not
    have htext : "end of input".toList = ("'" ++ t.lexeme ++ "'").toList :=
      congrArg String.toList (ParseError.expectedExpression.inj herr).1
    simp at htext
  | atEnd => exact ⟨rfl, (ParseError.expectedExpression.inj herr).2⟩
  | oversized _ _ _ => cases herr

theorem exists_token (h : err.About tokens i) (hne : beforeEnd tokens ≠ []) :
    ∃ j t, (beforeEnd tokens)[j]? = some t ∧ err.line = t.line ∧
      (i = j ∨ i = j + 1 ∧ i = (beforeEnd tokens).length) := by
  cases h with
  | @misplaced _ t hget _ => exact ⟨i, t, hget, rfl, .inl rfl⟩
  | @oversized _ t hget _ _ => exact ⟨i, t, hget, rfl, .inl rfl⟩
  | atEnd =>
    have hpos := List.length_pos_iff.mpr hne
    have hlast := List.getLast?_eq_some_getLast hne
    refine ⟨_, _, List.getLast?_eq_getElem?.symm.trans hlast, by simp [line, hlast], .inr ?_⟩
    exact ⟨by omega, rfl⟩

end ParseError.About

theorem map_snd_diagnosed (tokens : List Token) :
    (diagnosed tokens).map Prod.snd = (Level.expression.parse (.start tokens)).2.errors := by
  rw [(visits_level .expression (.start tokens)).errors, diagnosed, List.map_filterMap]
  simp [Cursor.start, Function.comp_def]

theorem about_of_mem_diagnosed {tokens : List Token} {p : Nat × ParseError}
    (h : p ∈ diagnosed tokens) : p.2.About tokens p.1 := by
  obtain ⟨d, hd, hp⟩ := List.mem_filterMap.mp h
  obtain ⟨err, hfault, rfl⟩ := Option.map_eq_some_iff.mp hp
  obtain ⟨w, hw⟩ := (visits_level .expression (.start tokens)).crosses d hd
  rw [hw.index]
  exact hw.about hfault

theorem pairwise_diagnosed (tokens : List Token) :
    (diagnosed tokens).Pairwise fun p q => p.1 < q.1 := by
  have hvisits := visits_level .expression (.start tokens)
  have hindex : (atomsOf .expression (.start tokens)).Pairwise fun d e =>
      tokens.length - d.tokens.length < tokens.length - e.tokens.length := by
    refine hvisits.forward.imp_of_mem ?_
    intro d e hd _ hlt
    obtain ⟨w, hw⟩ := hvisits.crosses d hd
    have hle : d.tokens.length ≤ tokens.length := hw.length_le
    omega
  refine hindex.filterMap _ ?_
  intro d e hlt p hp q hq
  obtain ⟨_, -, rfl⟩ := Option.map_eq_some_iff.mp hp
  obtain ⟨_, -, rfl⟩ := Option.map_eq_some_iff.mp hq
  exact hlt

theorem length_diagnosed (tokens : List Token) :
    (diagnosed tokens).length ≤ (beforeEnd tokens).length + 1 := by
  have hnodup : ((diagnosed tokens).map Prod.fst).Nodup :=
    List.pairwise_map.mpr ((pairwise_diagnosed tokens).imp Nat.ne_of_lt)
  have hsubset : (diagnosed tokens).map Prod.fst ⊆ List.range ((beforeEnd tokens).length + 1) := by
    intro i hi
    obtain ⟨p, hp, rfl⟩ := List.mem_map.mp hi
    exact List.mem_range.mpr (Nat.lt_succ_of_le (about_of_mem_diagnosed hp).le_length)
  simpa using (hnodup.subperm hsubset).length_le

theorem atEnd_last {tokens : List Token} {xs ys : List ParseError} {line : Nat}
    (h : (Level.expression.parse (.start tokens)).2.errors =
      xs ++ .expectedExpression "end of input" line :: ys) :
    ys = [] ∧ line = ((beforeEnd tokens).getLast?.map Token.line).getD 1 := by
  rw [← map_snd_diagnosed] at h
  obtain ⟨ps, qs, hdiagnosed, rfl, hqs⟩ := List.map_eq_append_iff.mp h
  obtain ⟨p, rs, rfl, hp, rfl⟩ := List.map_eq_cons_iff.mp hqs
  have hmem : p ∈ diagnosed tokens := by
    rw [hdiagnosed]
    exact List.mem_append_right ps List.mem_cons_self
  have habout := about_of_mem_diagnosed hmem
  rw [hp] at habout
  obtain ⟨hindex, hline⟩ := habout.eq_of_atEnd
  refine ⟨?_, hline⟩
  rw [List.map_eq_nil_iff, List.eq_nil_iff_forall_not_mem]
  intro q hq
  have hpairwise := pairwise_diagnosed tokens
  rw [hdiagnosed, List.pairwise_append, List.pairwise_cons] at hpairwise
  have hlt := hpairwise.2.1.1 q hq
  have hmem : q ∈ diagnosed tokens := by
    rw [hdiagnosed]
    exact List.mem_append_right ps (List.mem_cons_of_mem p hq)
  have hle := (about_of_mem_diagnosed hmem).le_length
  omega

theorem line_le_of_getElem? {ts : List Token} (h : ts.Pairwise fun t u => t.line ≤ u.line)
    {i j : Nat} {t u : Token} (hij : i ≤ j) (ht : ts[i]? = some t) (hu : ts[j]? = some u) :
    t.line ≤ u.line := by
  rcases Nat.lt_or_eq_of_le hij with hlt | rfl
  · obtain ⟨hi, rfl⟩ := List.getElem?_eq_some_iff.mp ht
    obtain ⟨hj, rfl⟩ := List.getElem?_eq_some_iff.mp hu
    exact List.pairwise_iff_getElem.mp h i j hi hj hlt
  · rw [ht] at hu
    obtain rfl := Option.some.inj hu
    exact Nat.le_refl _

theorem pairwise_line_errors {tokens : List Token}
    (h : (beforeEnd tokens).Pairwise fun t u => t.line ≤ u.line) :
    (Level.expression.parse (.start tokens)).2.errors.Pairwise fun e f => e.line ≤ f.line := by
  rw [← map_snd_diagnosed, List.pairwise_map]
  refine (pairwise_diagnosed tokens).imp_of_mem ?_
  intro p q hp hq hlt
  have hle := (about_of_mem_diagnosed hq).le_length
  have hne : beforeEnd tokens ≠ [] := List.ne_nil_of_length_pos (by omega)
  obtain ⟨i, t, ht, hpline, hi⟩ := (about_of_mem_diagnosed hp).exists_token hne
  obtain ⟨j, u, hu, hqline, hj⟩ := (about_of_mem_diagnosed hq).exists_token hne
  rw [hpline, hqline]
  exact line_le_of_getElem? h (by omega) ht hu

theorem line_errors_scan {source : String} {err : ParseError}
    (h : err ∈ (Level.expression.parse (.start (scan source).tokens)).2.errors) :
    err.line ≤ lastLine 1 (segments source.toList) := by
  rw [← map_snd_diagnosed] at h
  obtain ⟨⟨i, err⟩, hp, rfl⟩ := List.mem_map.mp h
  have habout : err.About (scan source).tokens i := about_of_mem_diagnosed hp
  by_cases hne : beforeEnd (scan source).tokens = []
  · cases habout with
    | misplaced hget _ => simp [hne] at hget
    | atEnd => simpa [ParseError.line, hne] using le_lastLine 1 (segments source.toList)
    | oversized hget _ _ => simp [hne] at hget
  · obtain ⟨j, t, hget, hline, -⟩ := habout.exists_token hne
    have hmem := List.mem_of_getElem? hget
    rw [beforeEnd_scan] at hmem
    rw [hline]
    exact line_le_of_mem_tokensFrom hmem

/-- What is returned holds the errors that were recorded on the way. If there were none, a trailing
token may still be reported. -/
theorem WholeReading.recorded {c : Cursor} {p : Except ParseError Parsed}
    {a : Except (List ParseError) Expr} (h : WholeReading c p a) {es : List ParseError}
    (hes : a = .error es ∨ ∃ e, p = .ok ⟨e, es⟩) :
    es.filter (fun err => !err.isFatal) = (Level.expression.parse c).2.errors ∨
      (Level.expression.parse c).2.errors = [] ∧
        ∃ lexeme line, es = [.unexpectedTrailingToken lexeme line] := by
  have hkept {errs : List ParseError} (hrecovered : ∀ err ∈ errs, err.Recovered) :
      errs.filter (fun err => !err.isFatal) = errs := by
    rw [List.filter_eq_self]
    intro err herr
    rw [(hrecovered err herr).isFatal_eq_false]
    rfl
  cases h with
  | @stopped f d hparse hfatal hrecovered =>
    obtain rfl : d.errors ++ [f] = es := by simpa using hes
    rw [List.filter_append, hkept hrecovered, hparse]
    simp [hfatal]
  | @mended e d hparse _ hrecovered =>
    obtain rfl : d.errors = es := by simpa using hes
    exact .inl (by rw [hkept hrecovered, hparse])
  | @followed e d t rest hparse herrors _ _ =>
    obtain rfl : [.unexpectedTrailingToken t.lexeme t.line] = es := by simpa using hes
    exact .inr ⟨by rw [hparse, herrors], t.lexeme, t.line, rfl⟩
  | clean hparse herrors _ =>
    obtain rfl : [] = es := by simpa using hes
    exact .inl (by rw [hparse, herrors]; rfl)

theorem diagnostics_move_forward :
    (∀ tokens : List Token,
      let errors := (Level.expression.parse (.start tokens)).2.errors
      (diagnosed tokens).map Prod.snd = errors ∧
      (∀ p ∈ diagnosed tokens, p.2.About tokens p.1) ∧
      (diagnosed tokens).Pairwise (fun p q => p.1 < q.1) ∧
      (∀ xs line ys, errors = xs ++ .expectedExpression "end of input" line :: ys →
        ys = [] ∧ line = ((beforeEnd tokens).getLast?.map Token.line).getD 1) ∧
      errors.length ≤ (beforeEnd tokens).length + 1 ∧
      ∀ es, ((Cursor.start tokens).parseAll.1 = .error es ∨
          ∃ e, (Cursor.start tokens).parse = .ok ⟨e, es⟩) →
        es.filter (fun err => !err.isFatal) = errors ∨
          errors = [] ∧ ∃ lexeme line, es = [.unexpectedTrailingToken lexeme line]) ∧
    ∀ source : String,
      let errors := (Level.expression.parse (.start (scan source).tokens)).2.errors
      errors.Pairwise (fun e f => e.line ≤ f.line) ∧
      ∀ err ∈ errors, ∀ t ∈ (scan source).tokens, t.kind = .endOfInput → err.line < t.line := by
  refine ⟨?_, ?_⟩
  · intro tokens errors
    refine ⟨map_snd_diagnosed tokens, fun _ => about_of_mem_diagnosed, pairwise_diagnosed tokens,
      fun _ _ _ => atEnd_last, ?_, fun _ => (wholeReading_start tokens).recorded⟩
    have hlength := length_diagnosed tokens
    rwa [← List.length_map (f := Prod.snd), map_snd_diagnosed] at hlength
  · intro source errors
    refine ⟨?_, ?_⟩
    · apply pairwise_line_errors
      rw [beforeEnd_scan]
      exact pairwise_tokensFrom 1 _
    · intro err herr t ht hend
      rw [scan_tokens, List.mem_append] at ht
      rcases ht with ht | ht
      · exact absurd hend ((reported_numbered 1 _).kind_ne_endOfInput t ht)
      · obtain rfl := List.mem_singleton.mp ht
        exact Nat.lt_succ_of_le (line_errors_scan herr)

-- two operators without an operand, and an end of input that stands on a line of its own
def bareOperators : List Token :=
  [⟨.symbol .star, "*", 2⟩, ⟨.symbol .minus, "-", 3⟩, ⟨.endOfInput, "", 9⟩]

theorem parse_bareOperators : ∃ e d, Level.expression.parse (.start bareOperators) = (.ok e, d) ∧
    d.errors = [.expectedExpression "'*'" 2, .expectedExpression "end of input" 3] := by
  let missed := (Cursor.start bareOperators).missing.2
  let after := missed.past [⟨.symbol .star, "*", 2⟩] missed.tokens.tail
  let behind := after.past [⟨.symbol .minus, "-", 3⟩] after.tokens.tail
  have hleft : Level.unary.parse (.start bareOperators) = (.ok (.literal .null), missed) := by
    rw [Level.parse_unary, Level.parse_primary]
    rfl
  have hright : Level.unary.parse after =
      (.ok (.unary ⟨.symbol .minus, "-", 3⟩ (.literal .null)), behind.missing.2) := by
    have hop : after.take? Level.unaryOperators = some (⟨.symbol .minus, "-", 3⟩, behind) := rfl
    have hnone : Level.unary.parse behind = behind.missing := by
      rw [Level.parse_unary, Level.parse_primary]
      rfl
    rw [Level.parse_unary, hop]
    simp only [hnone]
    rfl
  have hend : AtEnd behind.missing.2.tokens := by
    intro t ht
    obtain rfl := Option.some.inj ht
    rfl
  have hop : missed.take? Tier.factor.operators = some (⟨.symbol .star, "*", 2⟩, after) := rfl
  have hfactor : (Level.binary .factor).parse (.start bareOperators) = (.ok _, behind.missing.2) :=
    Level.parse_binary_of_pair hleft hop hright rfl
  have hterm := Level.parse_binary_of_stops .term hfactor (hend.stops _)
  have hcomparison := Level.parse_binary_of_stops .comparison hterm (hend.stops _)
  exact ⟨_, _, Level.parse_binary_of_stops .equality hcomparison (hend.stops _), rfl⟩

theorem diagnostics_move_forward_bareOperators :
    let first : ParseError := .expectedExpression "'*'" 2
    let second : ParseError := .expectedExpression "end of input" 3
    (Cursor.start bareOperators).parseAll.1 = .error [first, second] ∧
    (∃ i j, diagnosed bareOperators = [(i, first), (j, second)] ∧ i < j ∧
      first.About bareOperators i ∧ second.About bareOperators j) ∧
    3 = ((beforeEnd bareOperators).getLast?.map Token.line).getD 1 := by
  intro first second
  obtain ⟨e, d, hparse, herrors⟩ := parse_bareOperators
  obtain ⟨hall, -⟩ := diagnostics_move_forward
  obtain ⟨hsnd, habout, hforward, hlast, -, -⟩ := hall bareOperators
  rw [hparse] at hsnd hlast
  refine ⟨?_, ?_, (hlast [first] 3 [] herrors).2⟩
  · have hchecked : d.checkTrailing = d := by simp [Cursor.checkTrailing, herrors]
    simp [Cursor.parseAll, hparse, hchecked, herrors, first, second]
  · rw [herrors] at hsnd
    obtain ⟨⟨i, a⟩, ps, hps, rfl, hsnd⟩ := List.map_eq_cons_iff.mp hsnd
    obtain ⟨⟨j, b⟩, qs, rfl, rfl, hqs⟩ := List.map_eq_cons_iff.mp hsnd
    obtain rfl := List.map_eq_nil_iff.mp hqs
    rw [hps] at habout hforward
    exact ⟨i, j, hps, by simpa using hforward, habout (i, first) List.mem_cons_self,
      habout (j, second) (List.mem_cons_of_mem _ List.mem_cons_self)⟩

end ExpressionLanguage
