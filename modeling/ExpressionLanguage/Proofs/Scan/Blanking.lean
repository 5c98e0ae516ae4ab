import ExpressionLanguage.Proofs.Scan.Spacing
import Mathlib.Data.List.Forall2

namespace ExpressionLanguage

open Text

def ScanError.isUnexpected : ScanError → Bool
  | unexpectedCharacter _ _ => true
  | unterminatedString _ => false

def faultsFrom : Nat → Nat → List Segment → List (Nat × ScanError)
  | _, _, [] => []
  | offset, line, s :: ss =>
      (s.error? line).toList.map (fun err => (offset, err)) ++
        faultsFrom (offset + s.chars.length) (line + s.lineFeeds) ss

def straysFrom (offset line : Nat) (ss : List Segment) : List Nat :=
  ((faultsFrom offset line ss).filter fun fault => fault.2.isUnexpected).map Prod.fst

def faults (source : String) : List (Nat × ScanError) :=
  faultsFrom 0 1 (segments source.toList)

def blanked (source : String) : String :=
  let offsets := straysFrom 0 1 (segments source.toList)
  String.ofList (source.toList.mapIdx fun i c => if i ∈ offsets then ' ' else c)

theorem map_snd_faultsFrom (offset line : Nat) (ss : List Segment) :
    (faultsFrom offset line ss).map Prod.snd = errorsFrom line ss := by
  induction ss generalizing offset line with
  | nil => rfl
  | cons s ss ih => simp [faultsFrom, ih, Function.comp_def]

theorem mem_faultsFrom {offset line i : Nat} {ss : List Segment} {err : ScanError}
    (h : (i, err) ∈ faultsFrom offset line ss) :
    ∃ xs s ys l, ss = xs ++ s :: ys ∧ i = offset + (written xs).length ∧
      s.error? l = some err := by
  induction ss generalizing offset line with
  | nil => simp [faultsFrom] at h
  | cons s ss ih =>
    rcases List.mem_append.mp h with h | h
    · obtain ⟨herr, rfl⟩ : s.error? line = some err ∧ offset = i := by simpa using h
      exact ⟨[], s, ss, line, rfl, by simp, herr⟩
    · obtain ⟨xs, s', ys, l, rfl, rfl, herr⟩ := ih h
      exact ⟨s :: xs, s', ys, l, rfl, by simp [Nat.add_assoc], herr⟩

theorem Segment.eq_stray_of_error? {s : Segment} {line l : Nat} {c : Char}
    (h : s.error? line = some (.unexpectedCharacter c l)) : s = stray c := by
  cases s with
  | stray d =>
    obtain ⟨rfl, -⟩ : d = c ∧ line = l := by simpa [error?] using h
    rfl
  | _ => simp [error?] at h

theorem getElem?_of_mem_faultsFrom {i line l : Nat} {ss : List Segment} {c : Char}
    (h : (i, .unexpectedCharacter c l) ∈ faultsFrom 0 line ss) : (written ss)[i]? = some c := by
  obtain ⟨xs, s, ys, _, rfl, rfl, herr⟩ := mem_faultsFrom h
  obtain rfl := Segment.eq_stray_of_error? herr
  simp [Segment.chars]

theorem le_of_mem_straysFrom {offset line i : Nat} {ss : List Segment}
    (h : i ∈ straysFrom offset line ss) : offset ≤ i := by
  obtain ⟨⟨i', err⟩, hmem, rfl⟩ := List.mem_map.mp h
  obtain ⟨xs, -, -, -, -, rfl, -⟩ := mem_faultsFrom (List.mem_of_mem_filter hmem)
  exact Nat.le_add_right _ _

namespace Segment

def blanked : Segment → Segment
  | stray _ => blank [' ']
  | s => s

theorem token?_blanked (line : Nat) (s : Segment) : s.blanked.token? line = s.token? line := by
  cases s <;> rfl

theorem lineFeeds_blanked (s : Segment) : s.blanked.lineFeeds = s.lineFeeds := by
  cases s <;> rfl

theorem error?_blanked (line : Nat) (s : Segment) :
    (s.blanked.error? line).toList =
      (s.error? line).toList.filter fun err => !err.isUnexpected := by
  cases s <;> rfl

theorem WellFormed.blanked {s : Segment} (h : s.WellFormed) : s.blanked.WellFormed := by
  cases s with
  | stray c => simp [Segment.blanked, WellFormed, isBlank_space]
  | _ => exact h

end Segment

theorem straysFrom_stray (offset line : Nat) (c : Char) (ss : List Segment) :
    straysFrom offset line (.stray c :: ss) = offset :: straysFrom (offset + 1) line ss := by
  rfl

theorem straysFrom_cons {s : Segment} (h : ∀ c, s ≠ .stray c) (offset line : Nat)
    (ss : List Segment) :
    straysFrom offset line (s :: ss) =
      straysFrom (offset + s.chars.length) (line + s.lineFeeds) ss := by
  cases s with
  | stray c => exact absurd rfl (h c)
  | _ => rfl

theorem mapIdx_straysFrom (offset line : Nat) (ss : List Segment) :
    (written ss).mapIdx (fun i c => if offset + i ∈ straysFrom offset line ss then ' ' else c) =
      written (ss.map Segment.blanked) := by
  induction ss generalizing offset line with
  | nil => rfl
  | cons s ss ih =>
    rw [written_cons, List.mapIdx_append, List.map_cons, written_cons,
      ← ih (offset + s.chars.length) (line + s.lineFeeds)]
    have hshift (i : Nat) : offset + (i + s.chars.length) = offset + s.chars.length + i := by omega
    simp only [hshift]
    by_cases hstray : ∃ c, s = .stray c
    · obtain ⟨c, rfl⟩ := hstray
      have hlater (i : Nat) : offset + 1 + i ≠ offset := by omega
      simp [straysFrom_stray, Segment.chars, Segment.blanked, Segment.lineFeeds, hlater]
    · simp only [not_exists] at hstray
      have hsame : s.blanked = s := by
        cases s with
        | stray c => exact absurd rfl (hstray c)
        | _ => rfl
      rw [straysFrom_cons hstray, hsame]
      congr 1
      refine List.ext_getElem (by simp) ?_
      intro i hi hi'
      have hearlier :
          offset + i ∉ straysFrom (offset + s.chars.length) (line + s.lineFeeds) ss := by
        intro hmem
        have hle := le_of_mem_straysFrom hmem
        omega
      simp [hearlier]

theorem toList_blanked (source : String) :
    (blanked source).toList = written ((segments source.toList).map Segment.blanked) := by
  have hmap := mapIdx_straysFrom 0 1 (segments source.toList)
  simp only [written_segments, Nat.zero_add] at hmap
  rw [← hmap, blanked, String.toList_ofList]

theorem forall₂_blanked (ss : List Segment) :
    List.Forall₂ (fun c c' => c' = c ∨ c' = ' ') (written ss)
      (written (ss.map Segment.blanked)) := by
  induction ss with
  | nil => exact .nil
  | cons s ss ih =>
    refine List.rel_append ?_ ih
    cases s with
    | stray c => exact .cons (.inr rfl) .nil
    | _ => exact List.forall₂_same.mpr fun c _ => .inl rfl

theorem Segment.EndsBefore.replaced {s : Segment} {rest rest' : List Char}
    (h : s.EndsBefore rest) (hblank : ∀ run, s ≠ blank run)
    (hrest : List.Forall₂ (fun c c' => c' = c ∨ c' = ' ') rest rest') : s.EndsBefore rest' := by
  cases hrest with
  | nil => exact h
  | @cons c c' cs cs' hc hcs =>
    rcases hc with rfl | rfl
    · cases s with
      | blank run => exact absurd rfl (hblank run)
      | openText body => cases h
      | integer digits =>
        refine ⟨h.1, ?_⟩
        intro d after heq
        obtain ⟨rfl, rfl⟩ := List.cons.inj heq
        cases hcs with
        | cons hd _ =>
          rcases hd with rfl | rfl
          · exact h.2 _ _ rfl
          · decide
      | _ => exact h
    · refine endsBefore_of_separator ?_ (fun run hs => absurd hs (hblank run)) ?_
      · intro d hd
        obtain rfl : ' ' = d := by simpa using hd
        exact isSeparator_of_isBlank isBlank_space
      · rintro body rfl
        cases h

theorem Legible.spaced_blanked {ss : List Segment} (h : Legible ss) :
    Spaced (ss.map Segment.blanked) := by
  induction ss with
  | nil => trivial
  | cons s ss ih =>
    obtain ⟨hs, hends, hss⟩ := h
    refine ⟨hs.blanked, ?_, ih hss⟩
    intro hblank
    cases s with
    | stray c => exact absurd rfl (hblank [' '])
    | _ => exact hends.replaced hblank (forall₂_blanked ss)

theorem tokensFrom_blanked (line : Nat) (ss : List Segment) :
    tokensFrom line (ss.map Segment.blanked) = tokensFrom line ss := by
  induction ss generalizing line with
  | nil => rfl
  | cons s ss ih =>
    rw [List.map_cons, tokensFrom_cons, tokensFrom_cons, s.token?_blanked, s.lineFeeds_blanked, ih]

theorem lastLine_blanked (line : Nat) (ss : List Segment) :
    lastLine line (ss.map Segment.blanked) = lastLine line ss := by
  induction ss generalizing line with
  | nil => rfl
  | cons s ss ih => rw [List.map_cons, lastLine, lastLine, s.lineFeeds_blanked, ih]

theorem errorsFrom_blanked (line : Nat) (ss : List Segment) :
    errorsFrom line (ss.map Segment.blanked) =
      (errorsFrom line ss).filter fun err => !err.isUnexpected := by
  induction ss generalizing line with
  | nil => rfl
  | cons s ss ih =>
    rw [List.map_cons, errorsFrom_cons, errorsFrom_cons, List.filter_append, s.error?_blanked,
      s.lineFeeds_blanked, ih]

theorem scan_blanked (source : String) :
    (faults source).map Prod.snd = (scan source).errors ∧
    (∀ i c line, (i, .unexpectedCharacter c line) ∈ faults source →
      source.toList[i]? = some c) ∧
    (scan (blanked source)).tokens = (scan source).tokens ∧
    (scan (blanked source)).errors =
      (scan source).errors.filter fun err => !err.isUnexpected := by
  have hspaced := (legible_segments source.toList).spaced_blanked
  obtain ⟨htokens, herrors⟩ := scan_of_spaced _ hspaced (toList_blanked source)
  refine ⟨(map_snd_faultsFrom 0 1 _).trans (scan_errors source).symm, ?_, ?_, ?_⟩
  · intro i c line hmem
    simpa using getElem?_of_mem_faultsFrom hmem
  · rw [htokens, tokensFrom_blanked, lastLine_blanked, scan_tokens]
  · rw [herrors, errorsFrom_blanked, scan_errors]

theorem scan_blanked_amongStrings :
    (3, .unexpectedCharacter '@' 1) ∈ faults "\"@\"@\"@" ∧
    "\"@\"@\"@".toList[3]? = some '@' ∧
    blanked "\"@\"@\"@" = "\"@\" \"@" ∧
    (scan "\"@\" \"@").tokens = [⟨.string, "@", 1⟩, ⟨.endOfInput, "", 2⟩] ∧
    (scan "\"@\" \"@").errors = [.unterminatedString 1] := by
  have hlegible : Legible [.text ['@'], .stray '@', .openText ['@']] := by
    refine ⟨by simp [Segment.WellFormed], trivial, ?_, trivial, ?_, ?_, trivial⟩
    · exact ⟨⟨by decide, by decide, by decide, by decide⟩, rfl⟩
    · simp [Segment.WellFormed]
    · simp [Segment.EndsBefore]
  have hsegments : segments "\"@\"@\"@".toList = _ := segments_eq_iff.mpr ⟨hlegible, rfl⟩
  have hfault : (3, .unexpectedCharacter '@' 1) ∈ faults "\"@\"@\"@" := by
    rw [faults, hsegments]
    exact List.mem_cons_self
  have hblanked : blanked "\"@\"@\"@" = "\"@\" \"@" := by
    rw [blanked, hsegments]
    rfl
  obtain ⟨-, hplace, htokens, herrors⟩ := scan_blanked "\"@\"@\"@"
  rw [hblanked, scan_tokens "\"@\"@\"@", hsegments] at htokens
  rw [hblanked, scan_errors "\"@\"@\"@", hsegments] at herrors
  exact ⟨hfault, hplace 3 '@' 1 hfault, hblanked, htokens, herrors⟩

end ExpressionLanguage
