import ExpressionLanguage.Proofs.Scan.Lines

namespace ExpressionLanguage

def placedFrom : Nat → List Segment → List (Nat × Segment)
  | _, [] => []
  | offset, s :: ss => (offset, s) :: placedFrom (offset + s.chars.length) ss

/-- Tells whether the character at an offset belongs to a string. Its quotes do so too. -/
def inString : List Segment → Nat → Bool
  | [], _ => false
  | s :: ss, j => if j < s.chars.length then s.isString else inString ss (j - s.chars.length)

def outerFeeds (ss : List Segment) (n : Nat) : Nat :=
  (List.range n).countP fun j => (written ss)[j]? == some '\n' && !inString ss j

theorem placedFrom_add (d offset : Nat) (ss : List Segment) :
    placedFrom (d + offset) ss = (placedFrom offset ss).map fun p => (d + p.1, p.2) := by
  induction ss generalizing offset with
  | nil => rfl
  | cons s ss ih =>
    rw [placedFrom, placedFrom, Nat.add_assoc, ih, List.map_cons]

theorem isPrefix_of_mem_placedFrom {ss : List Segment} {p : Nat × Segment}
    (h : p ∈ placedFrom 0 ss) : p.2.chars <+: (written ss).drop p.1 := by
  induction ss generalizing p with
  | nil => simp [placedFrom] at h
  | cons s ss ih =>
    rcases List.mem_cons.mp h with rfl | h
    · exact List.prefix_append _ _
    · rw [Nat.add_comm, placedFrom_add] at h
      obtain ⟨q, hq, rfl⟩ := List.mem_map.mp h
      rw [written_cons, List.drop_append, List.drop_eq_nil_of_le (Nat.le_add_right _ _)]
      simpa using ih hq

theorem countP_range_getElem? {α : Type} (p : Option α → Bool) (l : List α) :
    (List.range l.length).countP (fun j => p l[j]?) = l.countP fun x => p (some x) := by
  induction l with
  | nil => rfl
  | cons x l ih =>
    rw [List.length_cons, List.range_succ_eq_map, List.countP_cons, List.countP_map,
      List.countP_cons, ← ih]
    rfl

namespace Segment

variable {s : Segment}

theorem quote_not_mem_chars (hs : s.WellFormed) (hstring : s.isString = false) : '"' ∉ s.chars := by
  cases s with
  | blank run => exact quote_not_mem (ne_quote_of_isBlank hs.2)
  | text body | openText body => simp [isString] at hstring
  | _ => exact (not_mem_lexeme hs (by simp) (by simp) (by simp)).1

theorem quoted_of_isString (hs : s.WellFormed) (h : s.isString = true) :
    ∃ body tail, s.chars = '"' :: body ++ tail ∧ '"' ∉ body ∧ tail.length ≤ 1 := by
  cases s with
  | text body => exact ⟨body, ['"'], rfl, quote_not_mem hs, Nat.le_refl 1⟩
  | openText body => exact ⟨body, [], by simp [chars], quote_not_mem hs, Nat.zero_le 1⟩
  | _ => simp [isString] at h

theorem count_quote_take {body : List Char} (h : '"' ∉ body) (tail : List Char) {j : Nat}
    (hj : j ≤ body.length) : (('"' :: body ++ tail).take (j + 1)).count '"' = 1 := by
  have htake : '"' ∉ body.take j := fun hquote => h (List.mem_of_mem_take hquote)
  rw [List.cons_append, List.take_succ_cons, List.take_append_of_le_length hj, List.count_cons_self,
    List.count_eq_zero.mpr htake]

theorem isString_iff_quotes (hs : s.WellFormed) {j : Nat} (hj : j < s.chars.length) :
    s.isString = true ↔ (s.chars.take j).count '"' % 2 = 1 ∨ s.chars[j]? = some '"' := by
  cases hstring : s.isString with
  | false =>
    have hquote := quote_not_mem_chars hs hstring
    have htake : '"' ∉ s.chars.take j := fun h => hquote (List.mem_of_mem_take h)
    have hget : s.chars[j]? ≠ some '"' := fun h => hquote (List.mem_of_getElem? h)
    simp [List.count_eq_zero.mpr htake, hget]
  | true =>
    refine iff_of_true rfl ?_
    obtain ⟨body, tail, hchars, hbody, htail⟩ := quoted_of_isString hs hstring
    cases j with
    | zero => exact .inr (by simp [hchars])
    | succ j =>
      have hle : j ≤ body.length := by
        simp only [hchars, List.length_append, List.length_cons] at hj
        omega
      rw [hchars, count_quote_take hbody tail hle]
      exact .inl rfl

theorem count_quote_chars (hs : s.WellFormed) (hopen : ∀ body, s ≠ openText body) :
    s.chars.count '"' % 2 = 0 := by
  cases hstring : s.isString with
  | false => rw [List.count_eq_zero.mpr (quote_not_mem_chars hs hstring)]
  | true =>
    cases s with
    | text body => simp [chars, List.count_eq_zero.mpr (quote_not_mem hs)]
    | openText body => exact absurd rfl (hopen body)
    | _ => simp [isString] at hstring

end Segment

theorem outerFeeds_segment {s : Segment} (hs : s.WellFormed) (ss : List Segment) :
    outerFeeds (s :: ss) s.chars.length = s.lineFeeds := by
  have hinside : outerFeeds (s :: ss) s.chars.length =
      (List.range s.chars.length).countP fun j => s.chars[j]? == some '\n' && !s.isString := by
    refine List.countP_congr ?_
    intro j hj
    have hlt : j < s.chars.length := List.mem_range.mp hj
    simp [inString, hlt, List.getElem?_append_left]
  rw [hinside]
  cases hstring : s.isString with
  | true => simp [Segment.lineFeeds_of_isString hstring]
  | false =>
    have hcount := countP_range_getElem? (fun c => c == some '\n' && !false) s.chars
    rw [hcount, ← Segment.count_lineFeeds hs hstring]
    simp [List.count_eq_countP]

theorem outerFeeds_cons {s : Segment} (hs : s.WellFormed) (ss : List Segment) (n : Nat) :
    outerFeeds (s :: ss) (s.chars.length + n) = s.lineFeeds + outerFeeds ss n := by
  rw [← outerFeeds_segment hs ss, outerFeeds, List.range_add, List.countP_append, List.countP_map]
  congr 1
  refine List.countP_congr ?_
  intro j _
  have hpast : ¬ s.chars.length + j < s.chars.length := Nat.not_lt.mpr (Nat.le_add_right _ _)
  simp [inString, hpast, List.getElem?_append_right]

theorem numbered_eq_placed {ss : List Segment} (h : ∀ s ∈ ss, s.WellFormed) (line : Nat) :
    numbered line ss = (placedFrom 0 ss).map fun p => (line + outerFeeds ss p.1, p.2) := by
  induction ss generalizing line with
  | nil => rfl
  | cons s ss ih =>
    have hs := h s List.mem_cons_self
    have hrest := ih fun s' hs' => h s' (List.mem_cons_of_mem s hs')
    rw [numbered, hrest, placedFrom, Nat.add_comm 0, placedFrom_add, List.map_cons, List.map_map]
    congr 1
    refine List.map_congr_left ?_
    intro p _
    simp [outerFeeds_cons hs, Nat.add_assoc]

theorem lastLine_eq_outerFeeds {ss : List Segment} (h : ∀ s ∈ ss, s.WellFormed) (line : Nat) :
    lastLine line ss = line + outerFeeds ss (written ss).length := by
  induction ss generalizing line with
  | nil => rfl
  | cons s ss ih =>
    rw [lastLine, ih fun s' hs' => h s' (List.mem_cons_of_mem s hs'), written_cons,
      List.length_append, outerFeeds_cons (h s List.mem_cons_self), Nat.add_assoc]

theorem Legible.inString_iff {ss : List Segment} (h : Legible ss) {j : Nat}
    (hj : j < (written ss).length) : inString ss j = true ↔
      ((written ss).take j).count '"' % 2 = 1 ∨ (written ss)[j]? = some '"' := by
  induction ss generalizing j with
  | nil => simp at hj
  | cons s ss ih =>
    obtain ⟨hs, hends, hss⟩ := h
    rw [written_cons] at hj ⊢
    by_cases hlt : j < s.chars.length
    · rw [inString, if_pos hlt, List.take_append_of_le_length (Nat.le_of_lt hlt),
        List.getElem?_append_left hlt]
      exact Segment.isString_iff_quotes hs hlt
    · have hle : s.chars.length ≤ j := Nat.not_lt.mp hlt
      -- an open string is the last segment, and any other one has its quotes in pairs
      have hopen : ∀ body, s ≠ .openText body := by
        rintro body rfl
        have hnil : written ss = [] := hends
        rw [hnil, List.append_nil] at hj
        exact hlt hj
      have hcount := Segment.count_quote_chars hs hopen
      have hrest : j - s.chars.length < (written ss).length := by
        rw [List.length_append] at hj
        omega
      rw [inString, if_neg hlt, ih hss hrest, List.take_append, List.take_of_length_le hle,
        List.count_append, List.getElem?_append_right hle, Nat.add_mod, hcount]
      simp

theorem outerFeeds_succ {ss : List Segment} {i : Nat} (h : (written ss)[i]? ≠ some '\n') :
    outerFeeds ss (i + 1) = outerFeeds ss i := by
  simp [outerFeeds, List.range_succ, h]

theorem le_of_mem_numbered {line : Nat} {ss : List Segment} {p : Nat × Segment}
    (h : p ∈ numbered line ss) : line ≤ p.1 ∧ p.1 ≤ lastLine line ss := by
  induction ss generalizing line with
  | nil => simp [numbered] at h
  | cons s ss ih =>
    rcases List.mem_cons.mp h with rfl | h
    · exact ⟨Nat.le_refl _, le_lastLine line (s :: ss)⟩
    · obtain ⟨hlo, hhi⟩ := ih h
      exact ⟨Nat.le_trans (Nat.le_add_right _ _) hlo, hhi⟩

theorem pairwise_numbered (line : Nat) (ss : List Segment) :
    (numbered line ss).Pairwise fun p q => p.1 ≤ q.1 := by
  induction ss generalizing line with
  | nil => exact .nil
  | cons s ss ih =>
    refine .cons ?_ (ih (line + s.lineFeeds))
    intro p hp
    exact Nat.le_trans (Nat.le_add_right _ _) (le_of_mem_numbered hp).1

theorem Segment.line_of_token? {s : Segment} {line : Nat} {t : Token}
    (h : s.token? line = some t) : t.line = line := by
  cases s with
  | blank | openText | stray => cases h
  | _ =>
    obtain rfl := Option.some.inj h
    rfl

theorem Segment.line_of_error? {s : Segment} {line : Nat} {err : ScanError}
    (h : s.error? line = some err) : err.line = line := by
  cases s with
  | openText | stray =>
    obtain rfl := Option.some.inj h
    rfl
  | _ => cases h

theorem pairwise_tokensFrom (line : Nat) (ss : List Segment) :
    (tokensFrom line ss).Pairwise fun t u => t.line ≤ u.line := by
  refine (pairwise_numbered line ss).filterMap _ ?_
  intro p q hpq t ht u hu
  rw [Segment.line_of_token? ht, Segment.line_of_token? hu]
  exact hpq

theorem pairwise_errorsFrom (line : Nat) (ss : List Segment) :
    (errorsFrom line ss).Pairwise fun e f => e.line ≤ f.line := by
  refine (pairwise_numbered line ss).filterMap _ ?_
  intro p q hpq e he f hf
  rw [Segment.line_of_error? he, Segment.line_of_error? hf]
  exact hpq

theorem line_le_of_mem_tokensFrom {line : Nat} {ss : List Segment} {t : Token}
    (h : t ∈ tokensFrom line ss) : t.line ≤ lastLine line ss := by
  obtain ⟨p, hp, ht⟩ := List.mem_filterMap.mp h
  rw [Segment.line_of_token? ht]
  exact (le_of_mem_numbered hp).2

theorem Segment.reports_on (s : Segment) (line : Nat) :
    (∀ t, s.token? line = some t → t.line = line) ∧
    (∀ e, s.error? line = some e → e.line = line) ∧
    ((∃ run, s = .blank run) ∨ (s.token? line).isSome = true ∨ (s.error? line).isSome = true) := by
  refine ⟨fun _ => line_of_token?, fun _ => line_of_error?, ?_⟩
  cases s <;> simp [token?, error?]

theorem scan_lines_counted (source : String) :
    (scan source).tokens =
      ((placedFrom 0 (segments source.toList)).filterMap fun (i, s) =>
        s.token? (1 + outerFeeds (segments source.toList) i)) ++
        [⟨.endOfInput, "", 2 + outerFeeds (segments source.toList) source.length⟩] ∧
    (scan source).errors =
      ((placedFrom 0 (segments source.toList)).filterMap fun (i, s) =>
        s.error? (1 + outerFeeds (segments source.toList) i)) ∧
    (∀ p ∈ placedFrom 0 (segments source.toList),
      (∀ t, p.2.token? (1 + outerFeeds (segments source.toList) p.1) = some t →
        t.line = 1 + outerFeeds (segments source.toList) p.1) ∧
      (∀ e, p.2.error? (1 + outerFeeds (segments source.toList) p.1) = some e →
        e.line = 1 + outerFeeds (segments source.toList) p.1) ∧
      ((∃ run, p.2 = .blank run) ∨
        (p.2.token? (1 + outerFeeds (segments source.toList) p.1)).isSome = true ∨
        (p.2.error? (1 + outerFeeds (segments source.toList) p.1)).isSome = true)) ∧
    (∀ p ∈ placedFrom 0 (segments source.toList), p.2.chars <+: source.toList.drop p.1) ∧
    (∀ j < source.length, inString (segments source.toList) j = true ↔
      (source.toList.take j).count '"' % 2 = 1 ∨ source.toList[j]? = some '"') ∧
    (scan source).tokens.Pairwise (fun t u => t.line ≤ u.line) ∧
    (scan source).errors.Pairwise (fun e f => e.line ≤ f.line) ∧
    ∀ i, source.toList[i]? ≠ some '\n' →
      outerFeeds (segments source.toList) (i + 1) = outerFeeds (segments source.toList) i := by
  have hlegible := legible_segments source.toList
  have hwritten := written_segments source.toList
  have hplaced := numbered_eq_placed hlegible.wellFormed 1
  have hend : lastLine 1 (segments source.toList) + 1 =
      2 + outerFeeds (segments source.toList) source.length := by
    rw [lastLine_eq_outerFeeds hlegible.wellFormed, hwritten, String.length_toList]
    omega
  refine ⟨?_, ?_, fun p _ => p.2.reports_on _, ?_, ?_, ?_, ?_, ?_⟩
  · rw [scan_tokens, tokensFrom, hplaced, List.filterMap_map, hend]
    rfl
  · rw [scan_errors, errorsFrom, hplaced, List.filterMap_map]
    rfl
  · intro p hp
    have hprefix := isPrefix_of_mem_placedFrom hp
    rwa [hwritten] at hprefix
  · intro j hj
    have hlt : j < (written (segments source.toList)).length := by
      rwa [hwritten, String.length_toList]
    have hquotes := hlegible.inString_iff hlt
    rwa [hwritten] at hquotes
  · rw [scan_tokens]
    refine List.pairwise_append.mpr ⟨pairwise_tokensFrom 1 _, List.pairwise_singleton _ _, ?_⟩
    intro t ht u hu
    obtain rfl := List.mem_singleton.mp hu
    exact Nat.le_succ_of_le (line_le_of_mem_tokensFrom ht)
  · rw [scan_errors]
    exact pairwise_errorsFrom 1 _
  · intro i hi
    apply outerFeeds_succ
    rwa [hwritten]

end ExpressionLanguage
