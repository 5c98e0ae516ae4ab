import ExpressionLanguage.Proofs.Expr.Relining
import ExpressionLanguage.Proofs.Scan.Tokenisation

namespace ExpressionLanguage

open Text

theorem tokensFrom_blank (line : Nat) (run : List Char) (ss : List Segment) :
    tokensFrom line (.blank run :: ss) = tokensFrom (line + run.count '\n') ss :=
  tokensFrom_cons line (.blank run) ss

@[simp] theorem tokensFrom_append (line : Nat) (xs ys : List Segment) :
    tokensFrom line (xs ++ ys) = tokensFrom line xs ++ tokensFrom (lastLine line xs) ys := by
  simp [tokensFrom, numbered_append]

@[simp] theorem lastLine_append (line : Nat) (xs ys : List Segment) :
    lastLine line (xs ++ ys) = lastLine (lastLine line xs) ys := by
  induction xs generalizing line with
  | nil => rfl
  | cons s xs ih => exact ih (line + s.lineFeeds)

theorem tokensFrom_add (line d : Nat) (ss : List Segment) :
    tokensFrom (line + d) ss = (tokensFrom line ss).map (Token.mapLine (· + d)) := by
  induction ss generalizing line with
  | nil => rfl
  | cons s ss ih =>
    have hline : line + d + s.lineFeeds = line + s.lineFeeds + d := by omega
    rw [tokensFrom_cons, tokensFrom_cons, hline, ih, List.map_append]
    cases s <;> rfl

theorem lastLine_add (line d : Nat) (ss : List Segment) :
    lastLine (line + d) ss = lastLine line ss + d := by
  induction ss generalizing line with
  | nil => rfl
  | cons s ss ih =>
    have hline : line + d + s.lineFeeds = line + s.lineFeeds + d := by omega
    rw [lastLine, lastLine, hline, ih]

theorem le_lastLine (line : Nat) (ss : List Segment) : line ≤ lastLine line ss := by
  induction ss generalizing line with
  | nil => exact Nat.le_refl _
  | cons s ss ih => exact Nat.le_trans (Nat.le_add_right _ _) (ih (line + s.lineFeeds))

theorem mem_of_mem_numbered {line : Nat} {ss : List Segment} {p : Nat × Segment}
    (h : p ∈ numbered line ss) : p.2 ∈ ss := by
  induction ss generalizing line with
  | nil => cases h
  | cons s ss ih =>
    rcases List.mem_cons.mp h with rfl | h
    · exact List.mem_cons_self
    · exact List.mem_cons_of_mem s (ih h)

theorem mem_tokensFrom {line : Nat} {ss : List Segment} {t : Token} (h : t ∈ tokensFrom line ss) :
    ∃ s ∈ ss, ∃ l, s.token? l = some t := by
  obtain ⟨p, hp, ht⟩ := List.mem_filterMap.mp h
  exact ⟨p.2, mem_of_mem_numbered hp, p.1, ht⟩

theorem scan_tokens (source : String) :
    (scan source).tokens = tokensFrom 1 (segments source.toList) ++
      [.fixed .endOfInput (lastLine 1 (segments source.toList) + 1)] :=
  (scan_reads source).1

theorem beforeEnd_scan (source : String) :
    beforeEnd (scan source).tokens = tokensFrom 1 (segments source.toList) := by
  have hkinds : ∀ t ∈ tokensFrom 1 (segments source.toList), t.kind ≠ .endOfInput :=
    (reported_numbered 1 (segments source.toList)).kind_ne_endOfInput
  have hend : AtEnd [Token.fixed .endOfInput (lastLine 1 (segments source.toList) + 1)] := by
    simp [AtEnd, Token.fixed]
  rw [scan_tokens, beforeEnd_append hkinds, hend.beforeEnd_eq_nil, List.append_nil]

def Segment.isFault : Segment → Bool
  | openText _ | stray _ => true
  | _ => false

theorem Segment.error?_eq_none_iff {line : Nat} {s : Segment} :
    s.error? line = none ↔ s.isFault = false := by
  cases s <;> simp [error?, isFault]

theorem errorsFrom_blank (line : Nat) (run : List Char) (ss : List Segment) :
    errorsFrom line (.blank run :: ss) = errorsFrom (line + run.count '\n') ss :=
  errorsFrom_cons line (.blank run) ss

@[simp] theorem errorsFrom_append (line : Nat) (xs ys : List Segment) :
    errorsFrom line (xs ++ ys) = errorsFrom line xs ++ errorsFrom (lastLine line xs) ys := by
  simp [errorsFrom, numbered_append]

theorem mem_errorsFrom {line : Nat} {ss : List Segment} {err : ScanError}
    (h : err ∈ errorsFrom line ss) : ∃ s ∈ ss, ∃ l, s.error? l = some err := by
  obtain ⟨p, hp, herr⟩ := List.mem_filterMap.mp h
  exact ⟨p.2, mem_of_mem_numbered hp, p.1, herr⟩

theorem errorsFrom_add (line d : Nat) (ss : List Segment) :
    errorsFrom (line + d) ss = (errorsFrom line ss).map (ScanError.mapLine (· + d)) := by
  induction ss generalizing line with
  | nil => rfl
  | cons s ss ih =>
    have hline : line + d + s.lineFeeds = line + s.lineFeeds + d := by omega
    rw [errorsFrom_cons, errorsFrom_cons, hline, ih, List.map_append]
    cases s <;> rfl

theorem errorsFrom_eq_nil_iff {line : Nat} {ss : List Segment} :
    errorsFrom line ss = [] ↔ ∀ s ∈ ss, s.isFault = false := by
  induction ss generalizing line with
  | nil => simp
  | cons s ss ih =>
    rw [errorsFrom_cons, List.append_eq_nil_iff, ih, Option.toList_eq_nil_iff,
      Segment.error?_eq_none_iff, List.forall_mem_cons]

theorem scan_errors (source : String) :
    (scan source).errors = errorsFrom 1 (segments source.toList) :=
  (scan_reads source).2.1

theorem scan_errors_eq_nil_iff {source : String} :
    (scan source).errors = [] ↔ ∀ s ∈ segments source.toList, s.isFault = false := by
  rw [scan_errors, errorsFrom_eq_nil_iff]

/-- The line feeds of a text outside strings. The flag tells whether a string is open. -/
def outerLineFeeds : Bool → List Char → Nat
  | _, [] => 0
  | inString, c :: cs =>
      if c = '"' then outerLineFeeds (!inString) cs
      else if c = '\n' ∧ inString = false then outerLineFeeds inString cs + 1
      else outerLineFeeds inString cs

theorem outerLineFeeds_quote (inString : Bool) (rest : List Char) :
    outerLineFeeds inString ('"' :: rest) = outerLineFeeds (!inString) rest := by
  simp [outerLineFeeds]

theorem outerLineFeeds_outside {w : List Char} (h : '"' ∉ w) (rest : List Char) :
    outerLineFeeds false (w ++ rest) = w.count '\n' + outerLineFeeds false rest := by
  induction w with
  | nil => simp
  | cons c w ih =>
    simp only [List.mem_cons, not_or] at h
    rw [List.cons_append, outerLineFeeds, if_neg (Ne.symm h.1), ih h.2]
    by_cases hc : c = '\n'
    · simp only [hc, and_self, if_true, List.count_cons_self]
      omega
    · simp [hc, List.count_cons_of_ne]

theorem outerLineFeeds_inside {w : List Char} (h : '"' ∉ w) (rest : List Char) :
    outerLineFeeds true (w ++ rest) = outerLineFeeds true rest := by
  induction w with
  | nil => rfl
  | cons c w ih =>
    simp only [List.mem_cons, not_or] at h
    rw [List.cons_append, outerLineFeeds, if_neg (Ne.symm h.1), if_neg (by simp), ih h.2]

namespace Segment

theorem outerLineFeeds_chars {s : Segment} {rest : List Char} (hs : s.WellFormed)
    (hends : s.EndsBefore rest) :
    outerLineFeeds false (s.chars ++ rest) = s.lineFeeds + outerLineFeeds false rest := by
  cases s with
  | blank run => exact outerLineFeeds_outside (quote_not_mem (ne_quote_of_isBlank hs.2)) rest
  | text body =>
    rw [chars, List.cons_append, List.cons_append, outerLineFeeds_quote, List.append_assoc,
      Bool.not_false, outerLineFeeds_inside (quote_not_mem hs), List.singleton_append,
      outerLineFeeds_quote]
    simp [lineFeeds]
  | openText body =>
    obtain rfl : rest = [] := hends
    rw [chars, List.cons_append, outerLineFeeds_quote, Bool.not_false,
      outerLineFeeds_inside (quote_not_mem hs)]
    rfl
  | _ =>
    obtain ⟨hquote, hfeed⟩ := not_mem_lexeme hs (by simp) (by simp) (by simp)
    rw [outerLineFeeds_outside hquote, List.count_eq_zero.mpr hfeed]
    rfl

end Segment

theorem Legible.lastLine {ss : List Segment} (h : Legible ss) (line : Nat) :
    lastLine line ss = line + outerLineFeeds false (written ss) := by
  induction ss generalizing line with
  | nil => rfl
  | cons s ss ih =>
    obtain ⟨hs, hends, hss⟩ := h
    rw [ExpressionLanguage.lastLine, ih hss, written_cons, Segment.outerLineFeeds_chars hs hends]
    omega

theorem lastLine_segments (line : Nat) (source : List Char) :
    lastLine line (segments source) = line + outerLineFeeds false source := by
  rw [(legible_segments source).lastLine, written_segments]

end ExpressionLanguage
