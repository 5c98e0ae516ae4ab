import ExpressionLanguage.Proofs.Scan.Lines

namespace ExpressionLanguage

open Text

namespace Segment

/-- A segment put in front of others; a blank is joined to the blank that follows it. -/
def join : Segment → List Segment → List Segment
  | blank run, blank run' :: ss => blank (run ++ run') :: ss
  | s, ss => s :: ss

theorem written_join (s : Segment) (ss : List Segment) :
    written (s.join ss) = s.chars ++ written ss := by
  unfold join
  split
  · simp [chars]
  · rfl

theorem WellFormed.isBlank_head {s : Segment} (h : s.WellFormed) (hblank : ∀ run, s ≠ blank run) :
    ∀ c ∈ s.chars.head?, isBlank c = false := by
  intro c hc
  cases s with
  | blank run => exact absurd rfl (hblank run)
  | text body | openText body =>
    obtain rfl : '"' = c := by simpa [chars] using hc
    decide
  | integer digits =>
    have hmem : c ∈ digits := List.mem_of_mem_head? hc
    exact isBlank_of_isDigit (h.2 c hmem)
  | float whole fraction =>
    obtain ⟨⟨hne, hwhole⟩, -⟩ := h
    obtain ⟨d, ds, rfl⟩ := List.exists_cons_of_ne_nil hne
    obtain rfl : d = c := by simpa [chars] using hc
    exact isBlank_of_isDigit (hwhole d (by simp))
  | word name =>
    obtain ⟨d, ds, rfl, hd, -⟩ := h
    obtain rfl : d = c := by simpa [chars] using hc
    exact isBlank_of_isLetter hd
  | symbol s =>
    obtain ⟨cs, hcs⟩ := List.head?_eq_some_iff.mp hc
    exact (Symbol.opensPunctuation hcs).1
  | stray d =>
    obtain rfl : d = c := by simpa [chars] using hc
    exact h.1.1

theorem isSeparator_of_isBlank {c : Char} (h : isBlank c = true) : isSeparator c = true := by
  have hne : c ≠ '_' ∧ c ≠ '.' ∧ c ≠ '=' := by
    refine ⟨?_, ?_, ?_⟩
    all_goals
      rintro rfl
      revert h
      decide
  simp [isSeparator, isWordPart, isLetter_of_isBlank h, isNumber_of_isBlank h, hne]

theorem EndsBefore.append_separated {s : Segment} {rest tail : List Char} (h : s.EndsBefore rest)
    (hblank : ∀ run, s ≠ blank run) (hopen : ∀ body, s ≠ openText body)
    (hsep : ∀ c ∈ tail.head?, isSeparator c = true) : s.EndsBefore (rest ++ tail) := by
  cases rest with
  | nil => exact endsBefore_of_separator hsep (fun run hs => absurd hs (hblank run)) hopen
  | cons c rest => exact h.append (by simp) fun c hc => isDigit_of_isSeparator (hsep c hc)

end Segment

theorem head?_written_cons {s : Segment} (h : s.chars ≠ []) (ss : List Segment) :
    (written (s :: ss)).head? = s.chars.head? := by
  obtain ⟨c, cs, hc⟩ := List.exists_cons_of_ne_nil h
  simp [hc]

def Spaced : List Segment → Prop
  | [] => True
  | s :: ss => s.WellFormed ∧ ((∀ run, s ≠ .blank run) → s.EndsBefore (written ss)) ∧ Spaced ss

theorem Legible.spaced {ss : List Segment} (h : Legible ss) : Spaced ss := by
  induction ss with
  | nil => trivial
  | cons s ss ih =>
    obtain ⟨hs, hends, hss⟩ := h
    exact ⟨hs, fun _ => hends, ih hss⟩

theorem Legible.join {s : Segment} {ss : List Segment} (h : Legible ss) (hs : s.WellFormed)
    (hends : (∀ run, s ≠ .blank run) → s.EndsBefore (written ss)) : Legible (s.join ss) := by
  unfold Segment.join
  split
  · obtain ⟨⟨hne, hrun'⟩, hends', hss⟩ := h
    refine ⟨⟨by simp [hne], ?_⟩, hends', hss⟩
    intro c hc
    rcases List.mem_append.mp hc with hc | hc
    · exact hs.2 c hc
    · exact hrun' c hc
  · rename_i hjoin
    refine ⟨hs, ?_, h⟩
    cases s with
    | blank run =>
      -- the next segment is no blank, or it would have been joined
      cases ss with
      | nil => simp [Segment.EndsBefore]
      | cons s' ss =>
        intro c hc
        rw [head?_written_cons h.1.chars_ne_nil] at hc
        refine h.1.isBlank_head ?_ c hc
        rintro run' rfl
        exact hjoin run run' ss rfl rfl
    | _ => exact hends (by simp)

def merged (ss : List Segment) : List Segment :=
  ss.foldr Segment.join []

theorem written_merged (ss : List Segment) : written (merged ss) = written ss := by
  induction ss with
  | nil => rfl
  | cons s ss ih =>
    rw [written_cons, ← ih]
    exact s.written_join (merged ss)

theorem Spaced.legible_merged {ss : List Segment} (h : Spaced ss) : Legible (merged ss) := by
  induction ss with
  | nil => trivial
  | cons s ss ih =>
    obtain ⟨hs, hends, hss⟩ := h
    rw [← written_merged] at hends
    exact (ih hss).join hs hends

theorem Spaced.segments_written {ss : List Segment} (h : Spaced ss) :
    segments (written ss) = merged ss := by
  rw [← written_merged]
  exact h.legible_merged.segments_written

structure Alike (xs ys : List Segment) : Prop where
  tokens : ∀ line, tokensFrom line xs = tokensFrom line ys
  errors : ∀ line, errorsFrom line xs = errorsFrom line ys
  lastLine : ∀ line, lastLine line xs = lastLine line ys

namespace Alike

theorem cons {xs ys : List Segment} (h : Alike xs ys) (s : Segment) :
    Alike (s :: xs) (s :: ys) where
  tokens line := by rw [tokensFrom_cons, tokensFrom_cons, h.tokens]
  errors line := by rw [errorsFrom_cons, errorsFrom_cons, h.errors]
  lastLine line := h.lastLine (line + s.lineFeeds)

theorem trans {xs ys zs : List Segment} (h : Alike xs ys) (h' : Alike ys zs) : Alike xs zs where
  tokens line := (h.tokens line).trans (h'.tokens line)
  errors line := (h.errors line).trans (h'.errors line)
  lastLine line := (h.lastLine line).trans (h'.lastLine line)

theorem join (s : Segment) (ss : List Segment) : Alike (s.join ss) (s :: ss) := by
  unfold Segment.join
  split
  · rename_i run run' ss
    have hline (line : Nat) : line + (Segment.blank (run ++ run')).lineFeeds =
        line + (Segment.blank run).lineFeeds + (Segment.blank run').lineFeeds := by
      simp [Segment.lineFeeds, Nat.add_assoc]
    refine ⟨?_, ?_, ?_⟩
    · intro line
      simp only [tokensFrom_cons, hline, Segment.token?, Option.toList_none, List.nil_append]
    · intro line
      simp only [errorsFrom_cons, hline, Segment.error?, Option.toList_none, List.nil_append]
    · intro line
      simp only [ExpressionLanguage.lastLine, hline]
  · exact ⟨fun _ => rfl, fun _ => rfl, fun _ => rfl⟩

theorem merged (ss : List Segment) : Alike (merged ss) ss := by
  induction ss with
  | nil => exact ⟨fun _ => rfl, fun _ => rfl, fun _ => rfl⟩
  | cons s ss ih => exact (join s (ExpressionLanguage.merged ss)).trans (ih.cons s)

end Alike

theorem scan_of_spaced (source : String) {ss : List Segment} (h : Spaced ss)
    (hsource : source.toList = written ss) :
    (scan source).tokens = tokensFrom 1 ss ++ [.fixed .endOfInput (lastLine 1 ss + 1)] ∧
      (scan source).errors = errorsFrom 1 ss := by
  have halike := Alike.merged ss
  rw [scan_tokens, scan_errors, hsource, h.segments_written, halike.tokens, halike.errors,
    halike.lastLine]
  exact ⟨rfl, rfl⟩

theorem Legible.spaced_append {xs ys : List Segment} (hx : Legible xs) (hy : Spaced ys)
    (hsep : ∀ c ∈ (written ys).head?, Segment.isSeparator c = true)
    (hopen : ∀ body, .openText body ∉ xs) : Spaced (xs ++ ys) := by
  induction xs with
  | nil => exact hy
  | cons s xs ih =>
    obtain ⟨hs, hends, hxs⟩ := hx
    refine ⟨hs, ?_, ih hxs fun body hbody => hopen body (by simp [hbody])⟩
    intro hblank
    change s.EndsBefore (written (xs ++ ys))
    rw [written_append]
    refine hends.append_separated hblank ?_ hsep
    rintro body rfl
    exact hopen body (by simp)

theorem openText_not_mem {line : Nat} {ss : List Segment}
    (h : ∀ line', .unterminatedString line' ∉ errorsFrom line ss) :
    ∀ body, .openText body ∉ ss := by
  induction ss generalizing line with
  | nil => simp
  | cons s ss ih =>
    intro body hbody
    rw [errorsFrom_cons] at h
    rcases List.mem_cons.mp hbody with rfl | hbody
    · exact h line (by simp [Segment.error?])
    · exact ih (fun line' hmem => h line' (List.mem_append_right _ hmem)) body hbody

theorem spaced_segments_append {a s b : List Char} (ha : ∀ body, .openText body ∉ segments a)
    (hne : s ≠ []) (hblank : ∀ c ∈ s, isBlank c = true) :
    Spaced (segments a ++ .blank s :: segments b) := by
  have hb : Spaced (.blank s :: segments b) :=
    ⟨⟨hne, hblank⟩, fun h => absurd rfl (h s), (legible_segments b).spaced⟩
  refine (legible_segments a).spaced_append hb ?_ ha
  intro c hc
  rw [head?_written_cons hb.1.chars_ne_nil] at hc
  exact Segment.isSeparator_of_isBlank (hblank c (List.mem_of_mem_head? hc))

theorem scan_separated (a s b : String) (ha : ∀ line, .unterminatedString line ∉ (scan a).errors)
    (hne : s ≠ "") (hblank : ∀ c ∈ s.toList, isBlank c = true) :
    ∃ (ta tb : List Token) (la lb d : Nat),
      (scan a).tokens = ta ++ [⟨.endOfInput, "", la⟩] ∧
      (scan b).tokens = tb ++ [⟨.endOfInput, "", lb⟩] ∧
      2 ≤ la ∧ d = la - 2 + s.toList.count '\n' ∧
      (scan (a ++ s ++ b)).tokens =
        ta ++ tb.map (Token.mapLine (· + d)) ++ [⟨.endOfInput, "", lb + d⟩] ∧
      (scan (a ++ s ++ b)).errors =
        (scan a).errors ++ (scan b).errors.map (ScanError.mapLine (· + d)) := by
  let xs := segments a.toList
  let ys := segments b.toList
  let d := lastLine 1 xs - 1 + s.toList.count '\n'
  have hspaced : Spaced (xs ++ .blank s.toList :: ys) :=
    spaced_segments_append (openText_not_mem (by rwa [← scan_errors])) (by simpa using hne) hblank
  have hsource : (a ++ s ++ b).toList = written (xs ++ .blank s.toList :: ys) := by
    simp [xs, ys, Segment.chars]
  -- the second source starts on this line instead of the first one
  have hline : lastLine 1 xs + s.toList.count '\n' = 1 + d := by
    have hle := le_lastLine 1 xs
    omega
  obtain ⟨htokens, herrors⟩ := scan_of_spaced _ hspaced hsource
  refine ⟨tokensFrom 1 xs, tokensFrom 1 ys, lastLine 1 xs + 1, lastLine 1 ys + 1, d,
    scan_tokens a, scan_tokens b, ?_, rfl, ?_, ?_⟩
  · exact Nat.succ_le_succ (le_lastLine 1 xs)
  · rw [htokens, tokensFrom_append, tokensFrom_cons, lastLine_append, lastLine]
    simp only [Segment.token?, Segment.lineFeeds, Option.toList_none, List.nil_append, hline,
      tokensFrom_add, lastLine_add]
    rw [Nat.add_right_comm]
    rfl
  · rw [herrors, scan_errors a, scan_errors b, errorsFrom_append, errorsFrom_cons]
    simp only [Segment.error?, Segment.lineFeeds, Option.toList_none, List.nil_append, hline,
      errorsFrom_add]
    rfl

/-- Without the blanks between them the two sources would start with the float 1.5. -/
theorem scan_separated_pointAfterDigit :
    (∀ line, .unterminatedString line ∉ (scan "1").errors) ∧ " \n" ≠ "" ∧
    (∀ c ∈ " \n".toList, isBlank c = true) ∧
    (scan ("1" ++ " \n" ++ ".5@\n")).tokens =
      [⟨.integer, "1", 1⟩, ⟨.symbol .dot, ".", 2⟩, ⟨.integer, "5", 2⟩, ⟨.endOfInput, "", 4⟩] ∧
    (scan ("1" ++ " \n" ++ ".5@\n")).errors = [.unexpectedCharacter '@' 2] := by
  have hdigit : Legible [.integer ['1']] := by
    simp [Legible, Segment.WellFormed, Segment.EndsBefore]
  have hpoint : Legible [.symbol .dot, .integer ['5'], .stray '@', .blank ['\n']] := by
    refine ⟨trivial, ?_, ?_, ?_, ?_, trivial, ?_, ?_, trivial⟩
    · simp [Segment.EndsBefore, Segment.chars, Symbol.ofChars?_append_eq_none]
    · exact ⟨by simp, by simp⟩
    · simp [Segment.EndsBefore, Segment.chars]
    · exact ⟨⟨by decide, by decide, by decide, by decide⟩, rfl⟩
    · simp [Segment.WellFormed, isBlank_lineFeed]
    · simp [Segment.EndsBefore]
  obtain ⟨htokens, herrors⟩ := scan_of_spaced "1" hdigit.spaced rfl
  obtain ⟨htokens', herrors'⟩ := scan_of_spaced ".5@\n" hpoint.spaced rfl
  have hclosed : ∀ line, .unterminatedString line ∉ (scan "1").errors := by
    simp [herrors, Segment.error?]
  have hblank : ∀ c ∈ " \n".toList, isBlank c = true := List.all_eq_true.mp (by decide)
  obtain ⟨ta, tb, la, lb, d, ha, hb, -, hd, hjoined, hfaults⟩ :=
    scan_separated "1" " \n" ".5@\n" hclosed (by decide) hblank
  obtain ⟨rfl, hla⟩ := List.append_inj' (ha.symm.trans htokens) rfl
  obtain ⟨rfl, hlb⟩ := List.append_inj' (hb.symm.trans htokens') rfl
  obtain rfl : la = 2 := congrArg Token.line (List.cons.inj hla).1
  obtain rfl : lb = 3 := congrArg Token.line (List.cons.inj hlb).1
  obtain rfl : d = 1 := hd
  rw [hjoined, hfaults, herrors, herrors']
  exact ⟨by simp [Segment.error?], by decide, hblank, rfl, rfl⟩

end ExpressionLanguage
