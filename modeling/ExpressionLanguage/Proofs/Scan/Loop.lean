import ExpressionLanguage.Proofs.Scan.Legible
import ExpressionLanguage.Scan

/-!
The scanning loop. Outside strings only blanks have line feeds, so counting them late and jumping
over strings puts each segment on the line that the blanks in front of it lead to.
-/

namespace ExpressionLanguage

open Text

theorem ne_quote_of_isBlank {t : List Char} (ht : ∀ c ∈ t, isBlank c = true) :
    ∀ c ∈ t, (c != '"') = true := by
  intro c hc
  have hblank := ht c hc
  rw [bne_iff_ne]
  rintro rfl
  revert hblank
  decide

namespace Segment

def lineFeeds : Segment → Nat
  | blank run => run.count '\n'
  | _ => 0

theorem quote_not_mem {body : List Char} (h : ∀ c ∈ body, (c != '"') = true) : '"' ∉ body := by
  intro hquote
  simpa using h '"' hquote

theorem not_mem_lexeme {s : Segment} (hs : s.WellFormed) (hblank : ∀ run, s ≠ blank run)
    (htext : ∀ body, s ≠ text body) (hopen : ∀ body, s ≠ openText body) :
    '"' ∉ s.chars ∧ '\n' ∉ s.chars := by
  have hclass {p : Char → Bool} {cs : List Char} (hcs : ∀ c ∈ cs, p c = true)
      (hquote : p '"' = false) (hfeed : p '\n' = false) : '"' ∉ cs ∧ '\n' ∉ cs := by
    constructor
    · intro h
      simp [hcs _ h] at hquote
    · intro h
      simp [hcs _ h] at hfeed
  cases s with
  | blank run => exact absurd rfl (hblank run)
  | text body => exact absurd rfl (htext body)
  | openText body => exact absurd rfl (hopen body)
  | integer digits => exact hclass hs.2 (by decide) (by decide)
  | float whole fraction =>
    obtain ⟨⟨-, hwhole⟩, -, hfraction⟩ := hs
    have hw := hclass hwhole (by decide) (by decide)
    have hf := hclass hfraction (by decide) (by decide)
    simp [chars, hw, hf]
  | word name =>
    obtain ⟨c, cs, rfl, hc, hcs⟩ := hs
    refine hclass (p := isWordPart) ?_ (by decide) (by decide)
    intro x hx
    rcases List.mem_cons.mp hx with rfl | hx
    · simp [isWordPart, hc]
    · exact hcs x hx
  | symbol s => cases s <;> decide
  | stray c =>
    obtain ⟨⟨hblank, hquote, -⟩, -⟩ := hs
    have hfeed : c ≠ '\n' := by
      rintro rfl
      simp [isBlank_lineFeed] at hblank
    simp [chars, Ne.symm hquote, Ne.symm hfeed]

variable {s : Segment}

theorem count_lineFeeds (hs : s.WellFormed) (hstring : s.isString = false) :
    s.chars.count '\n' = s.lineFeeds := by
  cases s with
  | blank run => rfl
  | text body | openText body => simp [isString] at hstring
  | _ => exact List.count_eq_zero.mpr (not_mem_lexeme hs (by simp) (by simp) (by simp)).2

theorem lineFeeds_of_isString (h : s.isString = true) : s.lineFeeds = 0 := by
  cases s <;> simp_all [isString, lineFeeds]

theorem lineFeeds_of_ne_blank (h : ∀ run, s ≠ blank run) : s.lineFeeds = 0 := by
  cases s with
  | blank run => exact absurd rfl (h run)
  | _ => rfl

end Segment

def numbered : Nat → List Segment → List (Nat × Segment)
  | _, [] => []
  | line, s :: rest => (line, s) :: numbered (line + s.lineFeeds) rest

def lastLine : Nat → List Segment → Nat
  | line, [] => line
  | line, s :: rest => lastLine (line + s.lineFeeds) rest

theorem numbered_append (line : Nat) (xs ys : List Segment) :
    numbered line (xs ++ ys) = numbered line xs ++ numbered (lastLine line xs) ys := by
  induction xs generalizing line with
  | nil => rfl
  | cons s xs ih => simp [numbered, lastLine, ih]

def tokensFrom (line : Nat) (ss : List Segment) : List Token :=
  (numbered line ss).filterMap fun (line, s) => s.token? line

def errorsFrom (line : Nat) (ss : List Segment) : List ScanError :=
  (numbered line ss).filterMap fun (line, s) => s.error? line

@[simp] theorem tokensFrom_nil (line : Nat) : tokensFrom line [] = [] := rfl

@[simp] theorem errorsFrom_nil (line : Nat) : errorsFrom line [] = [] := rfl

@[simp] theorem tokensFrom_cons (line : Nat) (s : Segment) (ss : List Segment) :
    tokensFrom line (s :: ss) = (s.token? line).toList ++ tokensFrom (line + s.lineFeeds) ss := by
  cases h : s.token? line <;> simp [tokensFrom, numbered, h]

@[simp] theorem errorsFrom_cons (line : Nat) (s : Segment) (ss : List Segment) :
    errorsFrom line (s :: ss) = (s.error? line).toList ++ errorsFrom (line + s.lineFeeds) ss := by
  cases h : s.error? line <;> simp [errorsFrom, numbered, h]

namespace Scanner

variable {sc : Scanner} {gap rest : List Char}

/-- The scanner with its cursor behind the characters `gap` and in front of `rest`. -/
def past (sc : Scanner) (gap rest : List Char) (line : Nat) : Scanner :=
  { sc with unread := rest, cursor := sc.cursor + gap.length, line }

theorem moveTo_eq (h : sc.unread = gap ++ rest) :
    sc.moveTo (sc.cursor + gap.length) = sc.past gap rest sc.line := by
  simp [moveTo, past, h]

theorem countTo_eq (h : sc.unread = gap ++ rest) :
    sc.countTo (sc.cursor + gap.length) = sc.past gap rest (sc.line + gap.count '\n') := by
  unfold countTo
  split
  · simp [moveTo, past, h]
  · rename_i hle
    obtain rfl : gap = [] := List.length_eq_zero_iff.mp (by omega)
    obtain ⟨unread, cursor, line, tokens, errors, journal⟩ := sc
    obtain rfl : unread = rest := h
    rfl

theorem countTo_self (sc : Scanner) : sc.countTo sc.cursor = sc :=
  if_neg (Nat.lt_irrefl _)

theorem report_eq (sc : Scanner) (s : Segment) :
    sc.report s = { sc with
      tokens := sc.tokens ++ (s.token? sc.line).toArray
      errors := sc.errors ++ (s.error? sc.line).toArray
      journal := sc.journal ++ (s.error? sc.line).toArray.map Scan.errorEntry } := by
  cases s <;> simp [report, Segment.token?, Segment.error?, push, fail]

theorem step_of_ne {s : Segment} (h : ∀ run, s ≠ .blank run) (sc : Scanner) (offset : Nat) :
    sc.step offset s =
      (if s.isString then ((sc.countTo offset).report s).moveTo (offset + s.chars.length)
        else (sc.countTo offset).report s).countTo (offset + s.chars.length) := by
  cases s with
  | blank run => exact absurd rfl (h run)
  | _ => rfl

theorem step_eq {s : Segment} (hs : s.WellFormed) (hblank : ∀ run, s ≠ .blank run)
    (h : sc.unread = gap ++ (s.chars ++ rest)) :
    sc.step (sc.cursor + gap.length) s =
      ((sc.past gap (s.chars ++ rest) (sc.line + gap.count '\n')).report s).past s.chars rest
        (sc.line + gap.count '\n') := by
  let reported := (sc.past gap (s.chars ++ rest) (sc.line + gap.count '\n')).report s
  have hunread : reported.unread = s.chars ++ rest := by simp [reported, report_eq, past]
  have hcursor : reported.cursor = sc.cursor + gap.length := by simp [reported, report_eq, past]
  have hline : reported.line = sc.line + gap.count '\n' := by simp [reported, report_eq, past]
  rw [step_of_ne hblank, countTo_eq h, ← hcursor]
  split
  · rw [moveTo_eq hunread, hline]
    exact countTo_self _
  · rename_i hstring
    have hfeeds := Segment.count_lineFeeds hs (by simpa using hstring)
    rw [countTo_eq hunread, hline, hfeeds, Segment.lineFeeds_of_ne_blank hblank, Nat.add_zero]

/-- Between the two scanners the segments were read, the first one on the given line. -/
structure Reads (sc : Scanner) (line : Nat) (ss : List Segment) (sc' : Scanner) : Prop where
  tokens : sc'.tokens.toList = sc.tokens.toList ++ tokensFrom line ss
  errors : sc'.errors.toList = sc.errors.toList ++ errorsFrom line ss
  journal : sc'.journal.toList = sc.journal.toList ++ (errorsFrom line ss).map Scan.errorEntry
  line : sc'.line = lastLine line ss

theorem Reads.cons {sc' : Scanner} {s : Segment} {ss : List Segment} {line : Nat}
    (hblank : ∀ run, s ≠ .blank run)
    (h : Reads (((sc.past gap (s.chars ++ rest) line).report s).past s.chars rest line) line ss
      sc') : Reads sc line (s :: ss) sc' := by
  have hfeeds := Segment.lineFeeds_of_ne_blank hblank
  obtain ⟨htokens, herrors, hjournal, hline⟩ := h
  simp only [report_eq, past, Array.toList_append, Option.toList_toArray, Array.toList_map,
    List.append_assoc] at htokens herrors hjournal
  refine ⟨?_, ?_, ?_, ?_⟩
  · rw [htokens, tokensFrom_cons, hfeeds, Nat.add_zero]
  · rw [herrors, errorsFrom_cons, hfeeds, Nat.add_zero]
  · rw [hjournal, errorsFrom_cons, hfeeds, Nat.add_zero, List.map_append]
  · rw [hline, lastLine, hfeeds, Nat.add_zero]

theorem Reads.blank {sc' : Scanner} {ss : List Segment} {line : Nat} {run : List Char}
    (h : Reads sc (line + run.count '\n') ss sc') : Reads sc line (.blank run :: ss) sc' :=
  ⟨h.tokens, h.errors, h.journal, h.line⟩

theorem run_reads {ss : List Segment} (hss : ∀ s ∈ ss, s.WellFormed) {offset line : Nat}
    (h : sc.unread = gap ++ written ss) (hoffset : offset = sc.cursor + gap.length)
    (hline : line = sc.line + gap.count '\n') :
    Reads sc line ss ((sc.run offset ss).countTo (offset + (written ss).length)) := by
  induction ss generalizing sc gap offset line with
  | nil =>
    have hunread : sc.unread = gap ++ [] := h
    rw [run, written_nil, List.length_nil, Nat.add_zero, hoffset, countTo_eq hunread, hline]
    exact ⟨by simp [past], by simp [past], by simp [past], rfl⟩
  | cons s ss ih =>
    obtain ⟨hs, hrest⟩ := List.forall_mem_cons.mp hss
    rw [written_cons] at h ⊢
    rw [run, List.length_append, ← Nat.add_assoc]
    by_cases hblank : ∃ run, s = .blank run
    · obtain ⟨run, rfl⟩ := hblank
      -- a blank moves nothing yet: it joins the gap that the next count takes
      have hunread : sc.unread = (gap ++ run) ++ written ss := by simpa [Segment.chars] using h
      refine .blank (ih hrest hunread ?_ ?_)
      · simp [Segment.chars, hoffset, Nat.add_assoc]
      · simp [hline, Nat.add_assoc]
    · have hne : ∀ run, s ≠ .blank run := fun run hrun => hblank ⟨run, hrun⟩
      rw [hoffset, step_eq hs hne h, ← hline]
      have hunread (before : Scanner) : (before.past s.chars (written ss) line).unread =
          [] ++ written ss := rfl
      refine .cons hne (ih hrest (hunread _) ?_ rfl)
      simp [report_eq, past]

end Scanner

theorem scan_reads (source : String) :
    (scan source).tokens = tokensFrom 1 (segments source.toList) ++
        [.fixed .endOfInput (lastLine 1 (segments source.toList) + 1)] ∧
    (scan source).errors = errorsFrom 1 (segments source.toList) ∧
    (scan source).journal = (scan source).errors.map Scan.errorEntry ++
      [Scan.summary (scan source).tokens.length (scan source).errors.length
        (lastLine 1 (segments source.toList) + 1)] := by
  let done := ((Scanner.start source.toList).run 0 (segments source.toList)).countTo
    source.toList.length
  have hreads : (Scanner.start source.toList).Reads 1 (segments source.toList) done := by
    have hunread : (Scanner.start source.toList).unread =
        [] ++ written (segments source.toList) := (written_segments source.toList).symm
    have hrun := Scanner.run_reads (legible_segments source.toList).wellFormed hunread
      (rfl : 0 = _) (rfl : 1 = _)
    rwa [written_segments, Nat.zero_add] at hrun
  have htokens : done.tokens.toList = tokensFrom 1 (segments source.toList) := hreads.tokens
  have herrors : done.errors.toList = errorsFrom 1 (segments source.toList) := hreads.errors
  have hjournal : done.journal.toList =
      (errorsFrom 1 (segments source.toList)).map Scan.errorEntry := hreads.journal
  have hscan : scan source = ⟨done.tokens.toList ++ [.fixed .endOfInput (done.line + 1)],
      done.errors.toList, done.journal.toList ++ [Scan.summary (done.tokens.toList.length + 1)
        done.errors.toList.length (done.line + 1)]⟩ := by
    simp [scan, Scanner.finish, done]
  rw [hscan, htokens, herrors, hjournal, hreads.line]
  refine ⟨rfl, rfl, ?_⟩
  rw [List.length_append]
  rfl

end ExpressionLanguage
