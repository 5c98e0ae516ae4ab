import ExpressionLanguage.Conversation.Transcript
import ExpressionLanguage.Proofs.Execute.Stages
import ExpressionLanguage.Proofs.Grammar.EndOfInput
import ExpressionLanguage.Proofs.Scan.Spacing

namespace ExpressionLanguage

open Text

def SameReports (xs ys : List Segment) : Prop :=
  ∀ line, tokensFrom line xs = tokensFrom line ys ∧ errorsFrom line xs = errorsFrom line ys

theorem execute_congr {a b : String}
    (h : SameReports (segments a.toList) (segments b.toList)) :
    (execute a).result = (execute b).result := by
  obtain ⟨htokens, herrors⟩ := h 1
  have hbefore : beforeEnd (scan a).tokens = beforeEnd (scan b).tokens := by
    rw [beforeEnd_scan, beforeEnd_scan, htokens]
  rw [execute, execute, treeOf_result, treeOf_result, Cursor.parseAll_start_congr hbefore,
    scan_errors, scan_errors, herrors]

theorem Spaced.sameReports {ss : List Segment} (h : Spaced ss) :
    SameReports (segments (written ss)) ss := by
  rw [h.segments_written]
  intro line
  exact ⟨(Alike.merged ss).tokens line, (Alike.merged ss).errors line⟩

theorem Legible.openText_last {ss : List Segment} {body : List Char} (h : Legible ss)
    (hmem : .openText body ∈ ss) : ∃ xs, ss = xs ++ [.openText body] := by
  induction ss with
  | nil => cases hmem
  | cons s ss ih =>
    obtain ⟨-, hends, hss⟩ := h
    rcases List.mem_cons.mp hmem with rfl | hmem
    · cases ss with
      | nil => exact ⟨[], rfl⟩
      | cons s' ss =>
        obtain ⟨hne, -⟩ : s'.chars = [] ∧ written ss = [] := by
          simpa [Segment.EndsBefore] using hends
        exact absurd hne hss.1.chars_ne_nil
    · obtain ⟨xs, rfl⟩ := ih hss hmem
      exact ⟨s :: xs, rfl⟩

theorem Legible.extend_openText {xs : List Segment} {body t : List Char}
    (h : Legible (xs ++ [.openText body])) (ht : ∀ c ∈ t, isBlank c = true) :
    Legible (xs ++ [.openText (body ++ t)]) := by
  induction xs with
  | nil =>
    obtain ⟨hbody, -⟩ := h
    exact ⟨List.forall_mem_append.mpr ⟨hbody, ne_quote_of_isBlank ht⟩, rfl, trivial⟩
  | cons s xs ih =>
    obtain ⟨hs, hends, hxs⟩ := h
    refine ⟨hs, ?_, ih hxs⟩
    have hdigit : ∀ c ∈ t.head?, c.isDigit = false := fun c hc =>
      isDigit_of_isBlank (ht c (List.mem_of_mem_head? hc))
    have happend := Segment.EndsBefore.append hends (by simp [Segment.chars]) hdigit
    simpa [Segment.chars] using happend

section

variable (source : List Char) {t : List Char} (ht : ∀ c ∈ t, isBlank c = true)

include ht

theorem sameReports_append_blank : SameReports (segments (source ++ t)) (segments source) := by
  by_cases hne : t = []
  · rw [hne, List.append_nil]
    exact fun _ => ⟨rfl, rfl⟩
  by_cases hopen : ∃ body, .openText body ∈ segments source
  · obtain ⟨body, hmem⟩ := hopen
    have hlegible := legible_segments source
    obtain ⟨xs, hxs⟩ := hlegible.openText_last hmem
    rw [hxs] at hlegible
    have hwritten : written (xs ++ [.openText (body ++ t)]) = source ++ t := by
      have hsource := written_segments source
      rw [hxs] at hsource
      simp [← hsource, Segment.chars]
    rw [segments_eq_iff.mpr ⟨hlegible.extend_openText ht, hwritten⟩, hxs]
    intro line
    simp [Segment.token?, Segment.error?]
  · have hspaced := spaced_segments_append (b := []) (not_exists.mp hopen) hne ht
    have hreports := hspaced.sameReports
    simp only [segments_nil, written_append, written_segments, written_cons, written_nil,
      Segment.chars, List.append_nil] at hreports
    intro line
    obtain ⟨htokens, herrors⟩ := hreports line
    rw [htokens, herrors, tokensFrom_append, errorsFrom_append, tokensFrom_blank, errorsFrom_blank]
    simp

theorem sameReports_blank_append (hfeed : '\n' ∉ t) :
    SameReports (segments (t ++ source)) (segments source) := by
  by_cases hne : t = []
  · rw [hne, List.nil_append]
    exact fun _ => ⟨rfl, rfl⟩
  have hspaced : Spaced (.blank t :: segments source) :=
    ⟨⟨hne, ht⟩, fun h => absurd rfl (h t), (legible_segments source).spaced⟩
  have hreports := hspaced.sameReports
  rw [written_cons, written_segments, Segment.chars] at hreports
  intro line
  obtain ⟨htokens, herrors⟩ := hreports line
  rw [htokens, herrors, tokensFrom_blank, errorsFrom_blank, List.count_eq_zero.mpr hfeed]
  exact ⟨rfl, rfl⟩

end

theorem trim_surrounded (text : List Char) :
    ∃ u v, text = u ++ trim text ++ v ∧ (∀ c ∈ u, isBlank c = true) ∧
      ∀ c ∈ v, isBlank c = true := by
  let core := text.dropWhile isBlank
  have hcore : core = trim text ++ (core.reverse.takeWhile isBlank).reverse :=
    calc core
      _ = (core.reverse.takeWhile isBlank ++ core.reverse.dropWhile isBlank).reverse := by
        rw [List.takeWhile_append_dropWhile, List.reverse_reverse]
      _ = trim text ++ (core.reverse.takeWhile isBlank).reverse := List.reverse_append
  refine ⟨text.takeWhile isBlank, (core.reverse.takeWhile isBlank).reverse, ?_, ?_, ?_⟩
  · rw [List.append_assoc, ← hcore]
    exact (List.takeWhile_append_dropWhile).symm
  · exact fun _ => List.mem_takeWhile_imp
  · intro c hc
    exact List.mem_takeWhile_imp (List.mem_reverse.mp hc)

theorem sameReports_trim {text : List Char} (h : '\n' ∉ text) :
    SameReports (segments (trim text)) (segments text) := by
  obtain ⟨u, v, htext, hu, hv⟩ := trim_surrounded text
  have hfeed : '\n' ∉ u := by
    intro hmem
    rw [htext, List.append_assoc] at h
    exact h (List.mem_append_left _ hmem)
  intro line
  obtain ⟨htokens, herrors⟩ := sameReports_append_blank (u ++ trim text) hv line
  obtain ⟨htokens', herrors'⟩ := sameReports_blank_append (trim text) hu hfeed line
  rw [← htext] at htokens herrors
  exact ⟨(htokens.trans htokens').symm, (herrors.trans herrors').symm⟩

theorem Transcript.turn_of_trimmed {line trimmed : String}
    (htrim : trimmed = String.ofList (trim line.toList)) (hexit : trimmed ≠ "exit")
    (hne : trimmed ≠ "") :
    turn (.text line) = .more ((execute trimmed).journal.map .log ++
      [.write (answer (execute trimmed).result ++ "\n")]) := by
  rw [turn, ← htrim]
  simp only [if_neg hexit, reply, if_neg hne]

theorem outer_blanks_ignored :
    (∀ source t : String, (∀ c ∈ t.toList, isBlank c = true) →
      (execute (source ++ t)).result = (execute source).result) ∧
    (∀ source t : String, (∀ c ∈ t.toList, isBlank c = true) → '\n' ∉ t.toList →
      (execute (t ++ source)).result = (execute source).result) ∧
    ∀ line : String, '\n' ∉ line.toList →
      let trimmed := String.ofList (trim line.toList)
      (execute trimmed).result = (execute line).result ∧
      (trimmed ≠ "exit" → trimmed ≠ "" →
        Transcript.turn (.text line) = .more ((execute trimmed).journal.map .log ++
          [.write (Transcript.answer (execute line).result ++ "\n")])) := by
  refine ⟨?_, ?_, ?_⟩
  · intro source t ht
    apply execute_congr
    rw [String.toList_append]
    exact sameReports_append_blank _ ht
  · intro source t ht hfeed
    apply execute_congr
    rw [String.toList_append]
    exact sameReports_blank_append _ ht hfeed
  · intro line hfeed trimmed
    have hresult : (execute trimmed).result = (execute line).result := by
      apply execute_congr
      rw [String.toList_ofList]
      exact sameReports_trim hfeed
    refine ⟨hresult, ?_⟩
    intro hexit hne
    rw [← hresult]
    exact Transcript.turn_of_trimmed rfl hexit hne

theorem execute_openString : (execute "\"a").result = .error (.scan [.unterminatedString 1]) := by
  have hlegible : Legible [.openText ['a']] := by
    simp [Legible, Segment.WellFormed, Segment.EndsBefore]
  have hsegments : segments "\"a".toList = _ := segments_eq_iff.mpr ⟨hlegible, rfl⟩
  have herrors : (scan "\"a").errors = [.unterminatedString 1] := by
    rw [scan_errors, hsegments]
    rfl
  rw [execute, treeOf_result, herrors]
  rfl

/-- The blanks behind the source are part of a string that is not closed. -/
theorem outer_blanks_ignored_openString :
    (∀ c ∈ " \n".toList, isBlank c = true) ∧
    (execute ("\"a" ++ " \n")).result = .error (.scan [.unterminatedString 1]) ∧
    (∀ c ∈ "\t".toList, isBlank c = true) ∧ '\n' ∉ "\t".toList ∧
    (execute ("\t" ++ "\"a")).result = .error (.scan [.unterminatedString 1]) ∧
    '\n' ∉ "\t\"a ".toList ∧ String.ofList (trim "\t\"a ".toList) = "\"a" ∧
    Transcript.turn (.text "\t\"a ") = .more ((execute "\"a").journal.map .log ++
      [.write "Error on line 1: unterminated string.\n"]) := by
  obtain ⟨hbehind, hfront, hline⟩ := outer_blanks_ignored
  have hblank : ∀ c ∈ " \n".toList, isBlank c = true := List.all_eq_true.mp (by decide)
  have htab : ∀ c ∈ "\t".toList, isBlank c = true := List.all_eq_true.mp (by decide)
  have htrim : String.ofList (trim "\t\"a ".toList) = "\"a" := by decide
  have hresult := hline "\t\"a " (by decide)
  rw [htrim] at hresult
  obtain ⟨hsame, hturn⟩ := hresult
  have hreply := hturn (by decide) (by decide)
  rw [← hsame, execute_openString] at hreply
  refine ⟨hblank, ?_, htab, by decide, ?_, by decide, htrim, hreply⟩
  · rw [hbehind _ _ hblank, execute_openString]
  · rw [hfront _ _ htab (by decide), execute_openString]

end ExpressionLanguage
