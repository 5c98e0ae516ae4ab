import ExpressionLanguage.Proofs.Scan.Blanking
import ExpressionLanguage.Proofs.Scan.Placement

namespace ExpressionLanguage

open Text

def everyOther {α : Type} : List α → List α
  | [] => []
  | [a] => [a]
  | a :: _ :: rest => a :: everyOther rest

def partsAtQuotes (source : String) : List String :=
  (source.toList.splitOn '"').map String.ofList

theorem everyOther_cons {α : Type} (a : α) (l : List α) :
    everyOther (a :: l) = a :: everyOther l.tail := by
  cases l <;> rfl

theorem everyOther_map {α β : Type} (f : α → β) (l : List α) :
    everyOther (l.map f) = (everyOther l).map f := by
  fun_induction everyOther l with
  | case1 => rfl
  | case2 a => rfl
  | case3 a b rest ih => simp only [List.map_cons, everyOther, ih]

/-- Induction over a text from string to string. -/
theorem quote_induction {P : List Char → Prop} (outside : ∀ s, '"' ∉ s → P s)
    (opened : ∀ s body, '"' ∉ s → '"' ∉ body → P (s ++ '"' :: body))
    (closed : ∀ s body rest, '"' ∉ s → '"' ∉ body → P rest → P (s ++ '"' :: (body ++ '"' :: rest)))
    (source : List Char) : P source := by
  induction hn : source.length using Nat.strongRecOn generalizing source with
  | ind n ih =>
    by_cases hquote : '"' ∈ source
    · obtain ⟨s, tail, rfl, hs⟩ := List.eq_append_cons_of_mem hquote
      by_cases hclose : '"' ∈ tail
      · obtain ⟨body, rest, rfl, hbody⟩ := List.eq_append_cons_of_mem hclose
        refine closed s body rest hs hbody (ih rest.length ?_ rest rfl)
        simp only [← hn, List.length_append, List.length_cons]
        omega
      · exact opened s tail hs hclose
    · exact outside source hquote

section Segments

variable {s body : List Char}

theorem leading_quote (rest : List Char) : Segment.leading '"' rest = Segment.quoted rest := by
  have hblank : isBlank '"' = false := by decide
  simp [Segment.leading, hblank]

theorem ne_quote_of_not_mem (h : '"' ∉ body) : ∀ c ∈ body, (c != '"') = true := by
  intro c hc
  rw [bne_iff_ne]
  rintro rfl
  exact h hc

theorem isString_of_quote_not_mem (h : '"' ∉ s) : ∀ x ∈ segments s, x.isString = false := by
  intro x hx
  have hwellFormed := (legible_segments s).wellFormed x hx
  rw [← Bool.not_eq_true]
  intro hstring
  obtain ⟨body, tail, hchars, -⟩ := Segment.quoted_of_isString hwellFormed hstring
  apply h
  rw [← flatMap_chars_segments s]
  exact List.mem_flatMap.mpr ⟨x, hx, by simp [hchars]⟩

theorem segments_append_quote (h : '"' ∉ s) (rest : List Char) :
    segments (s ++ '"' :: rest) = segments s ++ segments ('"' :: rest) := by
  have hhead : ∀ c ∈ (written (segments ('"' :: rest))).head?, c = '"' := by simp
  refine segments_eq_iff.mpr ⟨?_, by simp⟩
  refine (legible_segments s).append_separated (legible_segments _) ?_ ?_ ?_
  · intro c hc
    rw [hhead c hc]
    decide
  · intro run _ c hc
    rw [hhead c hc]
    decide
  · intro body hmem
    cases isString_of_quote_not_mem h _ hmem

theorem segments_opened (hs : '"' ∉ s) (hbody : '"' ∉ body) :
    segments (s ++ '"' :: body) = segments s ++ [.openText body] := by
  rw [segments_append_quote hs, segments_cons, leading_quote,
    Segment.quoted_openText (ne_quote_of_not_mem hbody), segments_nil]

theorem segments_closed (hs : '"' ∉ s) (hbody : '"' ∉ body) (rest : List Char) :
    segments (s ++ '"' :: (body ++ '"' :: rest)) = segments s ++ .text body :: segments rest := by
  rw [segments_append_quote hs, segments_cons, leading_quote,
    Segment.quoted_text (ne_quote_of_not_mem hbody)]

theorem splitOn_opened (hs : '"' ∉ s) (hbody : '"' ∉ body) :
    (s ++ '"' :: body).splitOn '"' = [s, body] := by
  rw [List.splitOn_append_cons_self_of_not_mem hs, List.splitOn_eq_singleton hbody]

theorem splitOn_closed (hs : '"' ∉ s) (hbody : '"' ∉ body) (rest : List Char) :
    (s ++ '"' :: (body ++ '"' :: rest)).splitOn '"' = s :: body :: rest.splitOn '"' := by
  rw [List.splitOn_append_cons_self_of_not_mem hs, List.splitOn_append_cons_self_of_not_mem hbody]

theorem count_opened (hs : '"' ∉ s) (hbody : '"' ∉ body) : (s ++ '"' :: body).count '"' = 1 := by
  simp [List.count_eq_zero.mpr hs, List.count_eq_zero.mpr hbody]

theorem count_closed (hs : '"' ∉ s) (hbody : '"' ∉ body) (rest : List Char) :
    (s ++ '"' :: (body ++ '"' :: rest)).count '"' = rest.count '"' + 2 := by
  simp [List.count_eq_zero.mpr hs, List.count_eq_zero.mpr hbody]

end Segments

theorem length_splitOn_quote (source : List Char) :
    (source.splitOn '"').length = source.count '"' + 1 := by
  induction source using quote_induction with
  | outside s hs => simp [List.splitOn_eq_singleton hs, List.count_eq_zero.mpr hs]
  | opened s body hs hbody => rw [splitOn_opened hs hbody, count_opened hs hbody]; rfl
  | closed s body rest hs hbody ih =>
    rw [splitOn_closed hs hbody, count_closed hs hbody, List.length_cons, List.length_cons, ih]

theorem segments_outside (source : List Char) :
    (segments source).filter (fun x => !x.isString) =
      (everyOther (source.splitOn '"')).flatMap segments := by
  have hkept {s : List Char} (hs : '"' ∉ s) :
      (segments s).filter (fun x => !x.isString) = segments s := by
    rw [List.filter_eq_self]
    intro x hx
    rw [isString_of_quote_not_mem hs x hx]
    rfl
  induction source using quote_induction with
  | outside s hs => simp [hkept hs, List.splitOn_eq_singleton hs, everyOther]
  | opened s body hs hbody =>
    rw [segments_opened hs hbody, splitOn_opened hs hbody, List.filter_append, hkept hs]
    simp [everyOther, Segment.isString]
  | closed s body rest hs hbody ih =>
    rw [segments_closed hs hbody, splitOn_closed hs hbody, List.filter_append, hkept hs,
      List.filter_cons_of_neg (by simp [Segment.isString]), ih]
    rfl

def Segment.body? : Segment → Option (List Char)
  | text body => some body
  | _ => none

theorem Segment.isString_of_body? {x : Segment} {body : List Char} (h : x.body? = some body) :
    x.isString = true := by
  cases x with
  | text body => rfl
  | _ => cases h

theorem segments_inside (source : List Char) :
    (segments source).filterMap Segment.body? =
      everyOther (source.splitOn '"').dropLast.tail := by
  have hnone {s : List Char} (hs : '"' ∉ s) : (segments s).filterMap Segment.body? = [] := by
    rw [List.filterMap_eq_nil_iff]
    intro x hx
    rw [Option.eq_none_iff_forall_ne_some]
    intro body hbody
    have hstring := isString_of_quote_not_mem hs x hx
    rw [Segment.isString_of_body? hbody] at hstring
    cases hstring
  induction source using quote_induction with
  | outside s hs => simp [hnone hs, List.splitOn_eq_singleton hs, everyOther]
  | opened s body hs hbody =>
    simp [segments_opened hs hbody, splitOn_opened hs hbody, hnone hs, everyOther, Segment.body?]
  | closed s body rest hs hbody ih =>
    have hbody? : (Segment.text body).body? = some body := rfl
    rw [segments_closed hs hbody, splitOn_closed hs hbody, List.filterMap_append, hnone hs,
      List.filterMap_cons_some hbody?, ih, List.dropLast_cons_of_ne_nil (by simp),
      List.dropLast_cons_of_ne_nil (by simp), List.tail_cons, everyOther_cons, List.nil_append]

theorem openText_not_mem_of_even {source : List Char} (h : source.count '"' % 2 = 0) :
    ∀ body, .openText body ∉ segments source := by
  have hnone {s : List Char} (hs : '"' ∉ s) : ∀ body, .openText body ∉ segments s := by
    intro body hmem
    cases isString_of_quote_not_mem hs _ hmem
  induction source using quote_induction with
  | outside s hs => exact hnone hs
  | opened s body hs hbody => simp [count_opened hs hbody] at h
  | closed s body rest hs hbody ih =>
    rw [count_closed hs hbody, Nat.add_mod_right] at h
    intro body' hmem
    rw [segments_closed hs hbody] at hmem
    simp [hnone hs body', ih h body'] at hmem

theorem openText_of_odd {source : List Char} (h : source.count '"' % 2 = 1) :
    ∃ before body, source = before ++ '"' :: body ∧ '"' ∉ body ∧
      segments source = segments before ++ [.openText body] := by
  induction source using quote_induction with
  | outside s hs => simp [List.count_eq_zero.mpr hs] at h
  | opened s body hs hbody => exact ⟨s, body, rfl, hbody, segments_opened hs hbody⟩
  | closed s body rest hs hbody ih =>
    rw [count_closed hs hbody, Nat.add_mod_right] at h
    obtain ⟨before, last, rfl, hlast, hsegments⟩ := ih h
    refine ⟨s ++ '"' :: (body ++ '"' :: before), last, by simp, hlast, ?_⟩
    rw [segments_closed hs hbody, segments_closed hs hbody, hsegments, List.append_assoc,
      List.cons_append]

section Lines

variable (line : Nat) (ss : List Segment)

theorem unlined_tokensFrom :
    (tokensFrom line ss).map (Token.mapLine fun _ => 1) = ss.filterMap (Segment.token? 1) := by
  induction ss generalizing line with
  | nil => rfl
  | cons s ss ih =>
    rw [tokensFrom_cons, List.map_append, ih]
    cases s <;> rfl

theorem unlined_errorsFrom :
    (errorsFrom line ss).map (ScanError.mapLine fun _ => 1) =
      ss.filterMap (Segment.error? 1) := by
  induction ss generalizing line with
  | nil => rfl
  | cons s ss ih =>
    rw [errorsFrom_cons, List.map_append, ih]
    cases s <;> rfl

theorem wordKind_ne_string (name : String) : Segment.wordKind name ≠ .string := by
  unfold Segment.wordKind
  split <;> simp

theorem strings_tokensFrom :
    ((tokensFrom line ss).filter fun t => t.kind = .string).map Token.lexeme =
      (ss.filterMap Segment.body?).map String.ofList := by
  induction ss generalizing line with
  | nil => rfl
  | cons s ss ih =>
    rw [tokensFrom_cons, List.filter_append, List.map_append, ih]
    cases s with
    | word name =>
      rw [List.filterMap_cons_none rfl]
      simp [Segment.token?, wordKind_ne_string]
    | _ => rfl

theorem others_tokensFrom :
    ((tokensFrom line ss).filter fun t => t.kind ≠ .string).map (Token.mapLine fun _ => 1) =
      (ss.filter fun x => !x.isString).filterMap (Segment.token? 1) := by
  induction ss generalizing line with
  | nil => rfl
  | cons s ss ih =>
    rw [tokensFrom_cons, List.filter_append, List.map_append, ih]
    cases s with
    | word name =>
      rw [List.filter_cons_of_pos rfl]
      simp [Segment.token?, wordKind_ne_string, Token.mapLine]
    | _ => rfl

theorem strays_errorsFrom :
    ((errorsFrom line ss).filter ScanError.isUnexpected).map (ScanError.mapLine fun _ => 1) =
      (ss.filter fun x => !x.isString).filterMap (Segment.error? 1) := by
  induction ss generalizing line with
  | nil => rfl
  | cons s ss ih =>
    rw [errorsFrom_cons, List.filter_append, List.map_append, ih]
    cases s <;> rfl

theorem isUnexpected_errorsFrom (h : ∀ body, .openText body ∉ ss) :
    ∀ err ∈ errorsFrom line ss, err.isUnexpected = true := by
  intro err herr
  obtain ⟨s, hs, l, hl⟩ := mem_errorsFrom herr
  cases s with
  | openText body => exact absurd hs (h body)
  | stray c =>
    obtain rfl := Option.some.inj hl
    rfl
  | _ => cases hl

end Lines

theorem unterminated_of_odd {source : String} (h : source.toList.count '"' % 2 = 1) :
    ∃ before body line, source = before ++ "\"" ++ body ∧ '"' ∉ body.toList ∧
      (scan source).tokens = (scan before).tokens ∧
      (scan source).errors = (scan before).errors ++ [.unterminatedString line] := by
  obtain ⟨before, body, hsource, hbody, hsegments⟩ := openText_of_odd h
  refine ⟨String.ofList before, String.ofList body, lastLine 1 (segments before), ?_, ?_, ?_, ?_⟩
  · rw [← String.toList_inj, hsource]
    simp
  · rwa [String.toList_ofList]
  · rw [scan_tokens, scan_tokens, String.toList_ofList, hsegments, tokensFrom_append,
      lastLine_append]
    simp [Segment.token?, lastLine, Segment.lineFeeds]
  · rw [scan_errors, scan_errors, String.toList_ofList, hsegments, errorsFrom_append]
    rfl

theorem length_unterminated (source : String) :
    ((scan source).errors.filter fun err => !err.isUnexpected).length =
      source.toList.count '"' % 2 := by
  have heven {s : String} (hs : s.toList.count '"' % 2 = 0) :
      ((scan s).errors.filter fun err => !err.isUnexpected) = [] := by
    rw [scan_errors, List.filter_eq_nil_iff]
    intro err herr
    simp [isUnexpected_errorsFrom 1 _ (openText_not_mem_of_even hs) err herr]
  rcases Nat.mod_two_eq_zero_or_one (source.toList.count '"') with hq | hq
  · rw [hq, heven hq, List.length_nil]
  · obtain ⟨before, body, line, hsource, hbody, -, herrors⟩ := unterminated_of_odd hq
    have hbefore : before.toList.count '"' % 2 = 0 := by
      have hcount : source.toList.count '"' = before.toList.count '"' + 1 := by
        simp [hsource, List.count_eq_zero.mpr hbody]
      omega
    rw [hq, herrors, List.filter_append, heven hbefore]
    rfl

theorem scan_quotation (source : String) :
    (partsAtQuotes source).length = source.toList.count '"' + 1 ∧
    ((scan source).tokens.filter fun t => t.kind = .string).map Token.lexeme =
      everyOther (partsAtQuotes source).dropLast.tail ∧
    ((scan source).errors.filter fun err => !err.isUnexpected).length =
      source.toList.count '"' % 2 ∧
    (source.toList.count '"' % 2 = 1 →
      ∃ before body line, source = before ++ "\"" ++ body ∧ '"' ∉ body.toList ∧
        (scan source).tokens = (scan before).tokens ∧
        (scan source).errors = (scan before).errors ++ [.unterminatedString line]) ∧
    ((scan source).tokens.filter fun t => t.kind ≠ .string).map (Token.mapLine fun _ => 1) =
      (everyOther (partsAtQuotes source)).flatMap (fun part =>
        (beforeEnd (scan part).tokens).map (Token.mapLine fun _ => 1)) ++
      [.fixed .endOfInput 1] ∧
    ((scan source).errors.filter ScanError.isUnexpected).map (ScanError.mapLine fun _ => 1) =
      (everyOther (partsAtQuotes source)).flatMap fun part =>
        (scan part).errors.map (ScanError.mapLine fun _ => 1) := by
  refine ⟨?_, ?_, length_unterminated source, unterminated_of_odd, ?_, ?_⟩
  · rw [partsAtQuotes, List.length_map, length_splitOn_quote]
  · rw [scan_tokens, List.filter_append, List.map_append, strings_tokensFrom, segments_inside,
      partsAtQuotes, ← List.map_dropLast, ← List.map_tail, everyOther_map]
    exact List.append_nil _
  · rw [scan_tokens, List.filter_append, List.map_append, others_tokensFrom, segments_outside,
      List.filterMap_flatMap, partsAtQuotes, everyOther_map, List.flatMap_map]
    simp only [beforeEnd_scan, String.toList_ofList, unlined_tokensFrom]
    rfl
  · rw [scan_errors, strays_errorsFrom, segments_outside, List.filterMap_flatMap, partsAtQuotes,
      everyOther_map, List.flatMap_map]
    simp only [scan_errors, String.toList_ofList, unlined_errorsFrom]

def oddlyQuoted : String :=
  "1\"2 +\"@\"3"

theorem scan_quotation_oddlyQuoted :
    ((scan oddlyQuoted).tokens.filter fun t => t.kind = .string).map Token.lexeme = ["2 +"] ∧
    ((scan oddlyQuoted).errors.filter fun err => !err.isUnexpected).length = 1 ∧
    (∃ before body line, oddlyQuoted = before ++ "\"" ++ body ∧ '"' ∉ body.toList ∧
      (scan oddlyQuoted).tokens = (scan before).tokens ∧
      (scan oddlyQuoted).errors = (scan before).errors ++ [.unterminatedString line]) ∧
    ((scan oddlyQuoted).tokens.filter fun t => t.kind ≠ .string).map (Token.mapLine fun _ => 1) =
      [⟨.integer, "1", 1⟩, .fixed .endOfInput 1] ∧
    ((scan oddlyQuoted).errors.filter ScanError.isUnexpected).map (ScanError.mapLine fun _ => 1) =
      [.unexpectedCharacter '@' 1] := by
  have hparts : partsAtQuotes oddlyQuoted = ["1", "2 +", "@", "3"] := by decide
  have hquotes : oddlyQuoted.toList.count '"' % 2 = 1 := by decide
  have hdigit : segments ['1'] = [.integer ['1']] := by
    refine segments_eq_iff.mpr ⟨⟨?_, ?_, trivial⟩, rfl⟩
    · simp [Segment.WellFormed]
    · simp [Segment.EndsBefore]
  have hstray : segments ['@'] = [.stray '@'] := by
    refine segments_eq_iff.mpr ⟨⟨?_, trivial, trivial⟩, rfl⟩
    exact ⟨⟨by decide, by decide, by decide, by decide⟩, rfl⟩
  obtain ⟨-, hstrings, hopen, hlast, hothers, hstrays⟩ := scan_quotation oddlyQuoted
  rw [hquotes] at hopen
  rw [hparts] at hstrings hothers hstrays
  refine ⟨hstrings, hopen, hlast hquotes, ?_, ?_⟩
  · rw [hothers]
    simp [everyOther, beforeEnd_scan, hdigit, hstray, Segment.token?, Token.mapLine]
  · rw [hstrays]
    simp [everyOther, scan_errors, hdigit, hstray, Segment.error?, ScanError.mapLine]

end ExpressionLanguage
