import ExpressionLanguage.Proofs.Grammar.Accounting
import ExpressionLanguage.Proofs.Grammar.Exactness
import ExpressionLanguage.Proofs.Grammar.Session
import ExpressionLanguage.Proofs.Scan.Literals

namespace ExpressionLanguage

namespace Token

theorem WellSpelled.isOversized_eq {t : Token} (h : t.WellSpelled) :
    t.isOversized = decide (t.kind = .integer ∧ 9223372036854775807 < t.denoted) := by
  rw [Bool.eq_iff_iff, isOversized_iff, decide_eq_true_iff]
  constructor
  · intro hlarge
    have hkind := kind_of_tooLarge hlarge
    refine ⟨hkind, Nat.lt_of_not_le ?_⟩
    intro hle
    simp [(h.numeral hkind).meaning_of_le hle] at hlarge
  · rintro ⟨hkind, hlt⟩
    exact (h.numeral hkind).meaning_of_lt hlt

theorem WellSpelled.integer?_eq {t : Token} (h : t.WellSpelled) :
    t.integer? =
      if t.kind = .integer ∧ t.denoted ≤ 9223372036854775807 then some (Int64.ofNat t.denoted)
      else none := by
  split
  · rename_i hnumeral
    have hmeaning := (h.numeral hnumeral.1).meaning_of_le hnumeral.2
    simp [integer?, hmeaning, Except.toOption, Value.integer?]
  · rename_i hother
    rw [Option.eq_none_iff_forall_ne_some]
    intro n hn
    have hmeaning := integer?_eq_some_iff.mp hn
    have hkind := kind_of_integer hmeaning
    refine hother ⟨hkind, Nat.le_of_not_lt ?_⟩
    intro hlt
    simp [(h.numeral hkind).meaning_of_lt hlt] at hmeaning

theorem toInt_integers {w : List Token} (h : ∀ t ∈ w, t.WellSpelled) :
    (w.filterMap integer?).map Int64.toInt =
      (w.filter fun t => t.kind = .integer ∧ t.denoted ≤ 9223372036854775807).map
        fun t => (t.denoted : Int) := by
  induction w with
  | nil => rfl
  | cons t w ih =>
    have hrest := ih fun u hu => h u (List.mem_cons_of_mem t hu)
    have ht := (h t List.mem_cons_self).integer?_eq
    by_cases hnumeral : t.kind = .integer ∧ t.denoted ≤ 9223372036854775807
    · rw [if_pos hnumeral] at ht
      rw [List.filterMap_cons_some ht, List.filter_cons_of_pos (by simpa using hnumeral),
        List.map_cons, List.map_cons, hrest, Numeral.toInt_ofNat_of_le hnumeral.2]
    · rw [if_neg hnumeral] at ht
      rw [List.filterMap_cons_none ht, List.filter_cons_of_neg (by simpa using hnumeral), hrest]

end Token

namespace Cursor

inductive Raises (c : Cursor) (calls : List Call) (err : ParseError) : Prop
  | returned {o} : o ∈ session calls c → o.1 = .error err → c.Raises calls err
  | recorded {o} : o ∈ session calls c → err ∈ o.2.errors → c.Raises calls err
  | fatal : (c.after calls).parse = .error err → c.Raises calls err
  | parse {p} : (c.after calls).parse = .ok p → err ∈ p.errors → c.Raises calls err
  | parseAll {errs} : (c.after calls).parseAll.1 = .error errs → err ∈ errs → c.Raises calls err

theorem mem_checkTrailing {c : Cursor} {err : ParseError} (h : err ∈ c.checkTrailing.errors) :
    err ∈ c.errors ∨ ∃ lexeme line, err = .unexpectedTrailingToken lexeme line := by
  unfold checkTrailing at h
  split at h
  · rename_i t _ herrors _
    split at h
    · exact .inl h
    · rw [record_errors, herrors] at h
      exact .inr ⟨t.lexeme, t.line, by simpa using h⟩
  · exact .inl h

theorem accounted_run {call : Call} (h : .literal ≠ call) (c : Cursor) :
    Accounted c (call.run c) := by
  cases call with
  | level level => exact accounted_parse level c
  | literal => exact absurd rfl h

theorem accounted_session {calls : List Call} (hcalls : .literal ∉ calls) {c : Cursor} :
    ∀ o ∈ session calls c, Accounted c o := by
  induction calls generalizing c with
  | nil => simp [session]
  | cons call calls ih =>
    obtain ⟨hcall, hrest⟩ := not_or.mp (mt List.mem_cons.mpr hcalls)
    have hfirst := accounted_run hcall c
    intro o ho
    rcases List.mem_cons.mp ho with rfl | ho
    · exact hfirst
    · obtain ⟨w, errs, hconsumes, -⟩ := hfirst
      exact (ih hrest o ho).after_consumes hconsumes

theorem consumes_after {calls : List Call} (hcalls : .literal ∉ calls) (c : Cursor) :
    ∃ w errs, Consumes c (c.after calls) w errs := by
  induction calls generalizing c with
  | nil => exact ⟨[], [], .refl c⟩
  | cons call calls ih =>
    obtain ⟨hcall, hrest⟩ := not_or.mp (mt List.mem_cons.mpr hcalls)
    obtain ⟨v, xs, hfirst, -⟩ := accounted_run hcall c
    obtain ⟨w, errs, hlater⟩ := ih hrest (call.run c).2
    exact ⟨v ++ w, xs ++ errs, hfirst.trans hlater⟩

end Cursor

structure ParseError.Justified (source : String) (err : ParseError) : Prop where
  fatal : err.isFatal = true → ∃ line, err = .unterminatedGroup line
  oversized : ∀ t, err.oversized? = some t →
    t ∈ (scan source).tokens ∧ t.IsNumeral ∧ 9223372036854775807 < t.denoted

section

variable {source : String} {o : Outcome} {err : ParseError}

theorem Accounted.justified_of_error (h : Accounted (.start (scan source).tokens) o)
    (herr : o.1 = .error err) : err.Justified source := by
  obtain ⟨w, errs, hconsumes, hfatal⟩ := h
  rcases hfatal err herr with ⟨line, rfl⟩ | ⟨t, ht, hliteral, hmalformed⟩
  · exact ⟨fun _ => ⟨line, rfl⟩, by simp [ParseError.oversized?]⟩
  · exact absurd hmalformed ((scan_wellSpelled (hconsumes.mem_tokens ht)).readable hliteral)

theorem Accounted.justified_of_mem (h : Accounted (.start (scan source).tokens) o)
    (herr : err ∈ o.2.errors) : err.Justified source := by
  obtain ⟨w, errs, hconsumes, -⟩ := h
  have herrors : o.2.errors = errs := hconsumes.errors
  rw [herrors] at herr
  refine ⟨?_, ?_⟩
  · intro hfatal
    simp [hconsumes.recoverable err herr] at hfatal
  · intro t ht
    have hmem : t ∈ w.filter Token.isOversized := by
      rw [← hconsumes.oversized]
      exact List.mem_filterMap.mpr ⟨err, herr, ht⟩
    obtain ⟨hw, hlarge⟩ := List.mem_filter.mp hmem
    have hscanned : t ∈ (scan source).tokens := hconsumes.mem_tokens hw
    have hspelled := scan_wellSpelled hscanned
    rw [hspelled.isOversized_eq, decide_eq_true_iff] at hlarge
    exact ⟨hscanned, hspelled.numeral hlarge.1, hlarge.2⟩

theorem Cursor.justified_checkTrailing {c : Cursor} (h : ∀ err ∈ c.errors, err.Justified source) :
    ∀ err ∈ c.checkTrailing.errors, err.Justified source := by
  intro err herr
  rcases mem_checkTrailing herr with herr | ⟨lexeme, line, rfl⟩
  · exact h err herr
  · exact ⟨by simp [ParseError.isFatal], by simp [ParseError.oversized?]⟩

theorem Cursor.Raises.justified {calls : List Call} (hcalls : .literal ∉ calls)
    (h : (Cursor.start (scan source).tokens).Raises calls err) : err.Justified source := by
  have hwhole : Accounted (.start (scan source).tokens)
      (Level.expression.parse ((Cursor.start (scan source).tokens).after calls)) := by
    obtain ⟨w, errs, hconsumes⟩ := consumes_after hcalls (.start (scan source).tokens)
    exact (accounted_parse .expression _).after_consumes hconsumes
  rcases hparse : Level.expression.parse ((Cursor.start (scan source).tokens).after calls) with
    ⟨result, d⟩
  rw [hparse] at hwhole
  have hrecorded : ∀ err ∈ d.errors, err.Justified source := fun _ => hwhole.justified_of_mem
  cases h with
  | returned ho herr => exact (accounted_session hcalls _ ho).justified_of_error herr
  | recorded ho herr => exact (accounted_session hcalls _ ho).justified_of_mem herr
  | fatal h =>
    simp only [Cursor.parse, hparse] at h
    cases result with
    | error fault =>
      obtain rfl := Except.error.inj h
      exact hwhole.justified_of_error rfl
    | ok e => cases h
  | parse h herr =>
    simp only [Cursor.parse, hparse] at h
    cases result with
    | error fault => cases h
    | ok e =>
      obtain rfl := Except.ok.inj h
      exact justified_checkTrailing hrecorded err herr
  | parseAll h herr =>
    simp only [Cursor.parseAll, hparse] at h
    cases result with
    | error fault =>
      obtain rfl := Except.error.inj h
      rcases List.mem_append.mp herr with herr | herr
      · exact hrecorded err herr
      · obtain rfl := List.mem_singleton.mp herr
        exact hwhole.justified_of_error rfl
    | ok e =>
      simp only at h
      split at h
      · cases h
      · obtain rfl := Except.error.inj h
        exact justified_checkTrailing hrecorded err herr

end

theorem Cursor.expr_of_parse {c : Cursor} {p : Parsed} (h : c.parse = .ok p) :
    (Level.expression.parse c).1 = .ok p.expr := by
  unfold Cursor.parse at h
  split at h
  · cases h
  · rename_i hparse
    obtain rfl := Except.ok.inj h
    rw [hparse]

theorem Cursor.expr_of_parseAll {c : Cursor} {e : Expr} (h : c.parseAll.1 = .ok e) :
    (Level.expression.parse c).1 = .ok e := by
  obtain ⟨d, hparse, -⟩ := parseAll_eq_ok_iff.mp h
  rw [hparse]

/-- After any calls but those that read one token as a literal, a further call complains of a
literal only if it is too large, and each other integer that it consumes is one of the tree. -/
theorem scanned_literals_convert (source : String) (calls : List Call) (hcalls : .literal ∉ calls) :
    let start := Cursor.start (scan source).tokens
    let c := start.after calls
    (∀ err, start.Raises calls err →
      (∀ kind lexeme line, err ≠ .malformedLiteral kind lexeme line) ∧
      (err.isFatal = true → ∃ line, err = .unterminatedGroup line) ∧
      ∀ lexeme line, err = .literalTooLarge lexeme line →
        ∃ t ∈ (scan source).tokens, t = ⟨.integer, lexeme, line⟩ ∧ t.IsNumeral ∧
          9223372036854775807 < t.denoted) ∧
    (∀ level : Level, ∃ w errs,
      c.tokens = w ++ (level.parse c).2.tokens ∧
      (level.parse c).2.errors = c.errors ++ errs ∧
      (∀ t ∈ w, t.kind = .integer → t.IsNumeral) ∧
      errs.filterMap ParseError.oversized? =
        w.filter (fun t => t.kind = .integer ∧ 9223372036854775807 < t.denoted) ∧
      ∀ e, (level.parse c).1 = .ok e →
        e.integers.map Int64.toInt =
          (w.filter fun t => t.kind = .integer ∧ t.denoted ≤ 9223372036854775807).map
            fun t => (t.denoted : Int)) ∧
    (∀ p, c.parse = .ok p → (Level.expression.parse c).1 = .ok p.expr) ∧
    ∀ e, c.parseAll.1 = .ok e → (Level.expression.parse c).1 = .ok e := by
  intro start c
  refine ⟨?_, ?_, fun p => Cursor.expr_of_parse, fun e => Cursor.expr_of_parseAll⟩
  · intro err herr
    obtain ⟨hfatal, hoversized⟩ := herr.justified hcalls
    refine ⟨?_, hfatal, ?_⟩
    · rintro kind lexeme line rfl
      obtain ⟨line', heq⟩ := hfatal rfl
      cases heq
    · rintro lexeme line rfl
      obtain ⟨hmem, hnumeral, hlarge⟩ := hoversized ⟨.integer, lexeme, line⟩ rfl
      exact ⟨_, hmem, rfl, hnumeral, hlarge⟩
  · intro level
    obtain ⟨v, xs, hbefore⟩ := Cursor.consumes_after hcalls start
    obtain ⟨w, errs, hconsumes, -⟩ := accounted_parse level c
    have hspelled : ∀ t ∈ w, t.WellSpelled := by
      intro t ht
      have hscanned : t ∈ (scan source).tokens :=
        (hbefore.trans hconsumes).mem_tokens (List.mem_append_right v ht)
      exact scan_wellSpelled hscanned
    have hnumeral : ∀ t ∈ w, t.kind = .integer → t.IsNumeral := fun t ht => (hspelled t ht).numeral
    refine ⟨w, errs, hconsumes.tokens, hconsumes.errors, hnumeral, ?_, ?_⟩
    · rw [hconsumes.oversized]
      exact List.filter_congr fun t ht => (hspelled t ht).isOversized_eq
    · intro e he
      rw [Level.integers_of_parse (Prod.ext he rfl) hconsumes.tokens]
      exact Token.toInt_integers hspelled

def oversizedFirst : List Token :=
  [⟨.integer, "9223372036854775808", 1⟩, ⟨.integer, "7", 1⟩, ⟨.endOfInput, "", 2⟩]

theorem scan_oversizedFirst : (scan "9223372036854775808 7").tokens = oversizedFirst := by
  have hlegible :
      Legible [.integer "9223372036854775808".toList, .blank [' '], .integer ['7']] := by
    refine ⟨⟨by decide, List.all_eq_true.mp (by decide)⟩, ?_, ?_, ?_, ?_, ?_, trivial⟩
    · simp [Segment.EndsBefore, Segment.chars]
    · exact ⟨by decide, List.all_eq_true.mp (by decide)⟩
    · intro c hc
      obtain rfl : '7' = c := by simpa [Segment.chars] using hc
      decide
    · exact ⟨by decide, List.all_eq_true.mp (by decide)⟩
    · simp [Segment.EndsBefore]
  have hsegments : segments "9223372036854775808 7".toList = _ :=
    segments_eq_iff.mpr ⟨hlegible, rfl⟩
  rw [scan_tokens, hsegments]
  rfl

theorem scanned_literals_convert_oversizedFirst :
    .literal ∉ [Call.level .unary] ∧
    (Cursor.start (scan "9223372036854775808 7").tokens).Raises [.level .unary]
      (.literalTooLarge "9223372036854775808" 1) ∧
    (∃ t ∈ (scan "9223372036854775808 7").tokens, t = ⟨.integer, "9223372036854775808", 1⟩ ∧
      t.IsNumeral ∧ 9223372036854775807 < t.denoted) ∧
    ∃ e, (Level.unary.parse
        ((Cursor.start (scan "9223372036854775808 7").tokens).after [.level .unary])).1 = .ok e ∧
      e.integers.map Int64.toInt = [7] := by
  let behind : Cursor := ((Cursor.start oversizedFirst).past
    [⟨.integer, "9223372036854775808", 1⟩] oversizedFirst.tail).record
      (.literalTooLarge "9223372036854775808" 1)
  have hfirst : Level.unary.parse (.start oversizedFirst) = (.ok (.literal .null), behind) := by
    rw [Level.parse_unary, Level.parse_primary]
    rfl
  have hsecond : Level.unary.parse behind = (.ok (.literal (.integer 7)),
      behind.past [⟨.integer, "7", 1⟩] [⟨.endOfInput, "", 2⟩]) := by
    rw [Level.parse_unary, Level.parse_primary]
    rfl
  have hafter : (Cursor.start oversizedFirst).after [.level .unary] = behind :=
    congrArg Prod.snd hfirst
  have hcalls : Call.literal ∉ [Call.level .unary] := by decide
  have hraises : (Cursor.start oversizedFirst).Raises [.level .unary]
      (.literalTooLarge "9223372036854775808" 1) := by
    have ho : Level.unary.parse (.start oversizedFirst) ∈
        session [.level .unary] (.start oversizedFirst) := List.mem_cons_self
    exact .recorded ho (by simp [hfirst, behind])
  obtain ⟨herror, hlevel, -⟩ := scanned_literals_convert "9223372036854775808 7" _ hcalls
  obtain ⟨w, errs, hw, -, -, -, hintegers⟩ := hlevel .unary
  rw [scan_oversizedFirst] at herror hw hintegers ⊢
  rw [hafter, hsecond] at hw hintegers
  obtain rfl : [⟨.integer, "7", 1⟩] = w := List.append_cancel_right hw
  refine ⟨hcalls, hraises, (herror _ hraises).2.2 _ _ rfl, .literal (.integer 7), ?_, ?_⟩
  · rw [hafter, hsecond]
  · rw [hintegers _ rfl]
    decide

end ExpressionLanguage
