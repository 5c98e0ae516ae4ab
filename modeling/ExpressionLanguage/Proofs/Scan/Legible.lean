import ExpressionLanguage.Proofs.Scan.LongestMatch

/-!
Segments written side by side. A list of segments reads back from its own text if and only if each
segment has the shape of its kind and what follows cannot extend it; so two legible lists can be
joined where the last segment of the first one is complete.
-/

namespace ExpressionLanguage

open Text

section

variable {α : Type} {p : α → Bool} {run rest : List α}

theorem takeWhile_run (hrun : ∀ x ∈ run, p x = true) (hrest : ∀ x ∈ rest.head?, p x = false) :
    (run ++ rest).takeWhile p = run := by
  rw [List.takeWhile_append_of_pos hrun]
  cases rest with
  | nil => simp
  | cons x rest => simp [hrest x rfl]

theorem dropWhile_run (hrun : ∀ x ∈ run, p x = true) (hrest : ∀ x ∈ rest.head?, p x = false) :
    (run ++ rest).dropWhile p = rest := by
  rw [List.dropWhile_append_of_pos hrun]
  cases rest with
  | nil => rfl
  | cons x rest => simp [hrest x rfl]

theorem head_dropWhile (p : α → Bool) (l : List α) : ∀ x ∈ (l.dropWhile p).head?, p x = false := by
  intro x hx
  have hstop := List.head?_dropWhile_not (p := p) (l := l)
  rw [hx] at hstop
  simpa using hstop

end

/-- Neither a blank nor a string, a number or a word starts with such a character. -/
def OpensPunctuation (c : Char) : Prop :=
  isBlank c = false ∧ c ≠ '"' ∧ c.isDigit = false ∧ isLetter c = false

namespace Symbol

theorem opensPunctuation {s : Symbol} {c : Char} {cs : List Char}
    (h : s.lexeme.toList = c :: cs) : OpensPunctuation c := by
  apply Lexeme.class_of_marks
  revert h
  cases s <;> simp only [lexeme] <;> intro h <;> cases h <;> decide

theorem lexeme_cases (s : Symbol) :
    (∃ c, s.lexeme.toList = [c]) ∨ ∃ c, s.lexeme.toList = [c, '='] := by
  cases s <;> simp [lexeme]

theorem ofChars?_append_eq_none {s : Symbol} {c : Char} (h : c ≠ '=') :
    ofChars? (s.lexeme.toList ++ [c]) = none := by
  rw [Option.eq_none_iff_forall_ne_some]
  intro s' hs'
  have hchars := ofChars?_eq_some_iff.mp hs'
  rcases s.lexeme_cases with ⟨d, hd⟩ | ⟨d, hd⟩ <;>
    rcases s'.lexeme_cases with ⟨d', hd'⟩ | ⟨d', hd'⟩ <;>
    simp [hd, hd'] at hchars
  exact h hchars.2.symm

end Symbol

namespace Segment

def WellFormed : Segment → Prop
  | blank run => run ≠ [] ∧ ∀ c ∈ run, isBlank c = true
  | text body | openText body => ∀ c ∈ body, (c != '"') = true
  | integer digits => digits ≠ [] ∧ ∀ c ∈ digits, c.isDigit = true
  | float whole fraction => (whole ≠ [] ∧ ∀ c ∈ whole, c.isDigit = true) ∧
      fraction ≠ [] ∧ ∀ c ∈ fraction, c.isDigit = true
  | word name => ∃ c cs, name = c :: cs ∧ isLetter c = true ∧ ∀ x ∈ cs, isWordPart x = true
  | symbol _ => True
  | stray c => OpensPunctuation c ∧ Symbol.ofChars? [c] = none

def EndsBefore (rest : List Char) : Segment → Prop
  | blank _ => ∀ c ∈ rest.head?, isBlank c = false
  | openText _ => rest = []
  | integer _ => (∀ c ∈ rest.head?, c.isDigit = false) ∧
      ∀ d after, rest = '.' :: d :: after → d.isDigit = false
  | float _ _ => ∀ c ∈ rest.head?, c.isDigit = false
  | word _ => ∀ c ∈ rest.head?, isWordPart c = false
  | symbol s => ∀ c ∈ rest.head?, Symbol.ofChars? (s.lexeme.toList ++ [c]) = none
  | text _ | stray _ => True

theorem WellFormed.chars_ne_nil {s : Segment} (h : s.WellFormed) : s.chars ≠ [] := by
  cases s with
  | blank run => exact h.1
  | integer digits => exact h.1
  | word name =>
    obtain ⟨c, cs, rfl, -⟩ := h
    simp [chars]
  | symbol s => simpa [chars] using s.lexeme_ne_empty
  | _ => simp [chars]

theorem leading_digit {c : Char} (hc : c.isDigit = true) (rest : List Char) :
    leading c rest = numeric c rest := by
  have hquote : c ≠ '"' := by
    rintro rfl
    exact absurd hc (by decide)
  simp [leading, isBlank_of_isDigit hc, hquote, hc]

theorem leading_letter {c : Char} (hc : isLetter c = true) (rest : List Char) :
    leading c rest = (word (c :: rest.takeWhile isWordPart), rest.dropWhile isWordPart) := by
  have hquote : c ≠ '"' := by
    rintro rfl
    exact absurd hc (by decide)
  simp [leading, isBlank_of_isLetter hc, hquote, isDigit_of_isLetter hc, hc]

theorem leading_punctuation {c : Char} (h : OpensPunctuation c) (rest : List Char) :
    leading c rest = punctuation c rest := by
  obtain ⟨hblank, hquote, hdigit, hletter⟩ := h
  simp [leading, hblank, hquote, hdigit, hletter]

theorem punctuation_symbol {s : Symbol} {c : Char} {cs rest : List Char}
    (hchars : s.lexeme.toList = c :: cs) (hends : (symbol s).EndsBefore rest) :
    punctuation c (cs ++ rest) = (symbol s, rest) := by
  rcases s.lexeme_cases with ⟨d, hd⟩ | ⟨d, hd⟩
  · obtain ⟨rfl, rfl⟩ : d = c ∧ [] = cs := by simpa [hd] using hchars
    have hsymbol : Symbol.ofChars? [d] = some s := Symbol.ofChars?_eq_some_iff.mpr hd
    cases rest with
    | nil => simp [punctuation, punctuation.single, hsymbol]
    | cons x rest =>
      have hpair : Symbol.ofChars? [d, x] = none := by simpa [hd] using hends x rfl
      simp [punctuation, punctuation.single, hpair, hsymbol]
  · obtain ⟨rfl, rfl⟩ : d = c ∧ ['='] = cs := by simpa [hd] using hchars
    have hsymbol : Symbol.ofChars? [d, '='] = some s := Symbol.ofChars?_eq_some_iff.mpr hd
    simp [punctuation, hsymbol]

theorem punctuation_stray {c : Char} (h : Symbol.ofChars? [c] = none) (rest : List Char) :
    punctuation c rest = (stray c, rest) := by
  have hpair (d : Char) : Symbol.ofChars? [c, d] = none := by
    rw [Option.eq_none_iff_forall_ne_some]
    intro s hs
    obtain ⟨-, hc, -⟩ := symbol_pair (Symbol.ofChars?_eq_some_iff.mp hs)
    exact ofChars?_of_marks (Lexeme.marks_of_pairStarts hc) h
  cases rest with
  | nil => simp [punctuation, punctuation.single, h]
  | cons d rest => simp [punctuation, punctuation.single, hpair, h]

theorem numeric_integer {c : Char} {cs rest : List Char} (hcs : ∀ x ∈ cs, x.isDigit = true)
    (hends : (integer (c :: cs)).EndsBefore rest) :
    numeric c (cs ++ rest) = (integer (c :: cs), rest) := by
  obtain ⟨hdigit, hpoint⟩ := hends
  simp only [numeric, takeWhile_run hcs hdigit, dropWhile_run hcs hdigit]
  split
  · rename_i d after
    simp [hpoint d after rfl]
  · rfl

theorem numeric_float {c : Char} {cs fraction rest : List Char} (hcs : ∀ x ∈ cs, x.isDigit = true)
    (hne : fraction ≠ []) (hfraction : ∀ x ∈ fraction, x.isDigit = true)
    (hends : ∀ x ∈ rest.head?, x.isDigit = false) :
    numeric c (cs ++ '.' :: fraction ++ rest) = (float (c :: cs) fraction, rest) := by
  obtain ⟨d, after, rfl⟩ := List.exists_cons_of_ne_nil hne
  have hafter : ∀ x ∈ after, x.isDigit = true := fun x hx => hfraction x (by simp [hx])
  have hpoint : ∀ x ∈ ('.' :: d :: (after ++ rest)).head?, x.isDigit = false := by simp
  rw [List.append_assoc, List.cons_append, List.cons_append]
  simp only [numeric, takeWhile_run hcs hpoint, dropWhile_run hcs hpoint]
  simp [hfraction d (by simp), takeWhile_run hafter hends, dropWhile_run hafter hends]

theorem quoted_text {body : List Char} (h : ∀ c ∈ body, (c != '"') = true) (rest : List Char) :
    quoted (body ++ '"' :: rest) = (text body, rest) := by
  have hquote : ∀ c ∈ ('"' :: rest).head?, (c != '"') = false := by simp
  simp [quoted, takeWhile_run h hquote, dropWhile_run h hquote]

theorem quoted_openText {body : List Char} (h : ∀ c ∈ body, (c != '"') = true) :
    quoted body = (openText body, []) := by
  have hdrop : body.dropWhile (· != '"') = [] := List.dropWhile_eq_nil_iff.mpr h
  simp [quoted, hdrop]

theorem leading_of_endsBefore {s : Segment} {c : Char} {cs rest : List Char} (hs : s.WellFormed)
    (hends : s.EndsBefore rest) (hchars : s.chars = c :: cs) :
    leading c (cs ++ rest) = (s, rest) := by
  cases s with
  | blank run =>
    obtain rfl : run = c :: cs := hchars
    have hc : isBlank c = true := hs.2 c (by simp)
    have hcs : ∀ x ∈ cs, isBlank x = true := fun x hx => hs.2 x (by simp [hx])
    simp [leading, hc, takeWhile_run hcs hends, dropWhile_run hcs hends]
  | text body =>
    obtain ⟨rfl, rfl⟩ : '"' = c ∧ body ++ ['"'] = cs := by simpa [chars] using hchars
    have hblank : isBlank '"' = false := by decide
    simp [leading, hblank, quoted_text hs]
  | openText body =>
    obtain ⟨rfl, rfl⟩ : '"' = c ∧ body = cs := by simpa [chars] using hchars
    obtain rfl : rest = [] := hends
    have hblank : isBlank '"' = false := by decide
    simp [leading, hblank, quoted_openText hs]
  | integer digits =>
    obtain rfl : digits = c :: cs := hchars
    have hcs : ∀ x ∈ cs, x.isDigit = true := fun x hx => hs.2 x (by simp [hx])
    rw [leading_digit (hs.2 c (by simp)), numeric_integer hcs hends]
  | float whole fraction =>
    obtain ⟨⟨hne, hwhole⟩, hne', hfraction⟩ := hs
    obtain ⟨d, ds, rfl⟩ := List.exists_cons_of_ne_nil hne
    obtain ⟨rfl, rfl⟩ : d = c ∧ ds ++ '.' :: fraction = cs := by simpa [chars] using hchars
    have hds : ∀ x ∈ ds, x.isDigit = true := fun x hx => hwhole x (by simp [hx])
    rw [leading_digit (hwhole d (by simp)), numeric_float hds hne' hfraction hends]
  | word name =>
    obtain ⟨d, ds, rfl, hd, hds⟩ := hs
    obtain ⟨rfl, rfl⟩ : d = c ∧ ds = cs := by simpa [chars] using hchars
    rw [leading_letter hd, takeWhile_run hds hends, dropWhile_run hds hends]
  | symbol s =>
    rw [leading_punctuation (Symbol.opensPunctuation hchars), punctuation_symbol hchars hends]
  | stray d =>
    obtain ⟨rfl, rfl⟩ : d = c ∧ [] = cs := by simpa [chars] using hchars
    rw [leading_punctuation hs.1, List.nil_append, punctuation_stray hs.2]

theorem wellFormed_quoted (rest : List Char) :
    (quoted rest).1.WellFormed ∧ (quoted rest).1.EndsBefore (quoted rest).2 := by
  unfold quoted
  split
  · rename_i hdrop
    exact ⟨List.dropWhile_eq_nil_iff.mp hdrop, rfl⟩
  · exact ⟨fun _ => List.mem_takeWhile_imp, trivial⟩

theorem wellFormed_numeric {c : Char} (hc : c.isDigit = true) (rest : List Char) :
    (numeric c rest).1.WellFormed ∧ (numeric c rest).1.EndsBefore (numeric c rest).2 := by
  have hstop := head_dropWhile Char.isDigit rest
  unfold numeric
  split
  · rename_i d after hrest
    split
    · rename_i hd
      exact ⟨⟨⟨by simp, isDigit_of_mem_run hc⟩, by simp, isDigit_of_mem_run hd⟩,
        head_dropWhile _ _⟩
    · rename_i hd
      refine ⟨⟨by simp, isDigit_of_mem_run hc⟩, by simp, ?_⟩
      intro x after' heq
      obtain ⟨rfl, -⟩ : d = x ∧ after = after' := by simpa using heq
      simpa using hd
  · rename_i hpoint
    exact ⟨⟨by simp, isDigit_of_mem_run hc⟩, hstop, fun d after heq => absurd heq (hpoint d after)⟩

theorem wellFormed_single {c : Char} (h : OpensPunctuation c) {rest : List Char}
    (hpair : ∀ d ∈ rest.head?, Symbol.ofChars? [c, d] = none) :
    (punctuation.single c rest).1.WellFormed ∧
      (punctuation.single c rest).1.EndsBefore (punctuation.single c rest).2 := by
  unfold punctuation.single
  split
  · rename_i s hs
    refine ⟨trivial, ?_⟩
    intro d hd
    simpa [Symbol.ofChars?_eq_some_iff.mp hs] using hpair d hd
  · rename_i hnone
    exact ⟨⟨h, hnone⟩, trivial⟩

theorem wellFormed_punctuation {c : Char} (h : OpensPunctuation c) (rest : List Char) :
    (punctuation c rest).1.WellFormed ∧
      (punctuation c rest).1.EndsBefore (punctuation c rest).2 := by
  unfold punctuation
  split
  · rename_i d after
    split
    · rename_i s hs
      refine ⟨trivial, ?_⟩
      intro x _
      rw [Option.eq_none_iff_forall_ne_some]
      intro s' hs'
      have hlong := Symbol.ofChars?_eq_some_iff.mp hs'
      rw [Symbol.ofChars?_eq_some_iff.mp hs] at hlong
      rcases s'.lexeme_cases with ⟨e, he⟩ | ⟨e, he⟩ <;> simp [he] at hlong
    · rename_i hnone
      exact wellFormed_single h (by simpa using hnone)
  · exact wellFormed_single h (by simp)

theorem wellFormed_leading (c : Char) (rest : List Char) :
    (leading c rest).1.WellFormed ∧ (leading c rest).1.EndsBefore (leading c rest).2 := by
  unfold leading
  split
  · rename_i hblank
    refine ⟨⟨by simp, ?_⟩, head_dropWhile _ _⟩
    intro x hx
    rcases List.mem_cons.mp hx with rfl | hx
    · exact hblank
    · exact List.mem_takeWhile_imp hx
  · rename_i hblank
    split
    · exact wellFormed_quoted rest
    · rename_i hquote
      split
      · rename_i hdigit
        exact wellFormed_numeric hdigit rest
      · rename_i hdigit
        split
        · rename_i hletter
          exact ⟨⟨c, _, rfl, hletter, fun _ => List.mem_takeWhile_imp⟩, head_dropWhile _ _⟩
        · rename_i hletter
          exact wellFormed_punctuation (by simp_all [OpensPunctuation]) rest

end Segment

theorem Keyword.wellFormed_word (k : Keyword) : (Segment.word k.lexeme.toList).WellFormed := by
  cases k <;> exact ⟨_, _, rfl, by decide, List.all_eq_true.mp (by decide)⟩

def written (ss : List Segment) : List Char :=
  ss.flatMap Segment.chars

@[simp] theorem written_nil : written [] = [] := rfl

@[simp] theorem written_cons (s : Segment) (ss : List Segment) :
    written (s :: ss) = s.chars ++ written ss := rfl

@[simp] theorem written_append (xs ys : List Segment) :
    written (xs ++ ys) = written xs ++ written ys :=
  List.flatMap_append

theorem opensPunctuation_written (s : Symbol) (ss : List Segment) :
    ∀ c ∈ (written (.symbol s :: ss)).head?, OpensPunctuation c := by
  have hne : s.lexeme.toList ≠ [] := by simpa using s.lexeme_ne_empty
  obtain ⟨d, ds, hs⟩ := List.exists_cons_of_ne_nil hne
  intro c hc
  obtain rfl : d = c := by simpa [Segment.chars, hs] using hc
  exact Symbol.opensPunctuation hs

@[simp] theorem written_segments (source : List Char) : written (segments source) = source :=
  flatMap_chars_segments source

def Legible : List Segment → Prop
  | [] => True
  | s :: ss => s.WellFormed ∧ s.EndsBefore (written ss) ∧ Legible ss

theorem legible_segments (source : List Char) : Legible (segments source) := by
  fun_induction segments source with
  | case1 => trivial
  | case2 c rest ih =>
    obtain ⟨hs, hends⟩ := Segment.wellFormed_leading c rest
    refine ⟨hs, ?_, ih⟩
    rwa [written_segments]

theorem Legible.segments_written {ss : List Segment} (h : Legible ss) :
    segments (written ss) = ss := by
  induction ss with
  | nil => exact segments_nil
  | cons s ss ih =>
    obtain ⟨hs, hends, hss⟩ := h
    obtain ⟨c, cs, hchars⟩ := List.exists_cons_of_ne_nil hs.chars_ne_nil
    rw [written_cons, hchars, List.cons_append, segments_cons,
      Segment.leading_of_endsBefore hs hends hchars, ih hss]

theorem segments_eq_iff {source : List Char} {ss : List Segment} :
    segments source = ss ↔ Legible ss ∧ written ss = source := by
  constructor
  · rintro rfl
    exact ⟨legible_segments source, written_segments source⟩
  · rintro ⟨h, rfl⟩
    exact h.segments_written

theorem Legible.wellFormed {ss : List Segment} (h : Legible ss) : ∀ s ∈ ss, s.WellFormed := by
  induction ss with
  | nil => simp
  | cons s ss ih =>
    obtain ⟨hs, -, hss⟩ := h
    simpa [hs] using ih hss

namespace Segment

/-- Only a point can be taken back by what stands two characters behind a segment. -/
theorem EndsBefore.append {s : Segment} {rest tail : List Char} (h : s.EndsBefore rest)
    (hne : rest ≠ []) (htail : ∀ c ∈ tail.head?, c.isDigit = false) :
    s.EndsBefore (rest ++ tail) := by
  obtain ⟨x, rest, rfl⟩ := List.exists_cons_of_ne_nil hne
  cases s with
  | openText body => cases h
  | integer digits =>
    refine ⟨h.1, ?_⟩
    intro d after heq
    cases rest with
    | nil =>
      obtain ⟨-, rfl⟩ : x = '.' ∧ tail = d :: after := by simpa using heq
      exact htail d rfl
    | cons y rest =>
      obtain ⟨rfl, rfl, -⟩ : x = '.' ∧ y = d ∧ rest ++ tail = after := by simpa using heq
      exact h.2 y rest rfl
  | _ => exact h

def isSeparator (c : Char) : Bool :=
  !isWordPart c && c != '.' && c != '='

theorem isDigit_of_isSeparator {c : Char} (h : isSeparator c = true) : c.isDigit = false := by
  rw [← Bool.not_eq_true]
  intro hdigit
  have hascii : c.toNat < 128 := by
    rw [← contains_digits, CodePoints.contains_iff] at hdigit
    obtain ⟨r, hr, -, hhi⟩ := hdigit
    obtain rfl : r = (0x30, 0x39) := by simpa [digits] using hr
    simp only at hhi
    omega
  simp [isSeparator, isWordPart, isNumber_of_ascii hascii, hdigit] at h

theorem endsBefore_of_separator {s : Segment} {rest : List Char}
    (hsep : ∀ c ∈ rest.head?, isSeparator c = true)
    (hblank : ∀ run, s = blank run → ∀ c ∈ rest.head?, isBlank c = false)
    (hopen : ∀ body, s ≠ openText body) : s.EndsBefore rest := by
  cases s with
  | blank run => exact hblank run rfl
  | openText body => exact absurd rfl (hopen body)
  | integer digits =>
    refine ⟨fun c hc => isDigit_of_isSeparator (hsep c hc), ?_⟩
    rintro d after rfl
    have hpoint := hsep '.' rfl
    simp [isSeparator] at hpoint
  | float whole fraction => exact fun c hc => isDigit_of_isSeparator (hsep c hc)
  | word name =>
    intro c hc
    have hc := hsep c hc
    simp only [isSeparator, Bool.and_eq_true, Bool.not_eq_true'] at hc
    exact hc.1.1
  | symbol s =>
    intro c hc
    apply Symbol.ofChars?_append_eq_none
    rintro rfl
    simpa [isSeparator] using hsep '=' hc
  | text body => trivial
  | stray c => trivial

end Segment

theorem Legible.append {xs ys : List Segment} (hx : Legible xs) (hy : Legible ys)
    (hlast : ∀ s ∈ xs.getLast?, s.EndsBefore (written ys))
    (hdigit : ∀ c ∈ (written ys).head?, c.isDigit = false) : Legible (xs ++ ys) := by
  induction xs with
  | nil => exact hy
  | cons s xs ih =>
    obtain ⟨hs, hends, hxs⟩ := hx
    cases xs with
    | nil => exact ⟨hs, hlast s rfl, hy⟩
    | cons s' xs =>
      have hne : written (s' :: xs) ≠ [] := by simp [hxs.1.chars_ne_nil]
      have happend := hends.append hne hdigit
      rw [← written_append] at happend
      exact ⟨hs, happend, ih hxs (by simpa using hlast)⟩

theorem Legible.append_separated {xs ys : List Segment} (hx : Legible xs) (hy : Legible ys)
    (hsep : ∀ c ∈ (written ys).head?, Segment.isSeparator c = true)
    (hblank : ∀ run, .blank run ∈ xs.getLast? → ∀ c ∈ (written ys).head?, isBlank c = false)
    (hopen : ∀ body, .openText body ∉ xs) : Legible (xs ++ ys) := by
  refine hx.append hy ?_ fun c hc => Segment.isDigit_of_isSeparator (hsep c hc)
  intro s hs
  refine Segment.endsBefore_of_separator hsep ?_ ?_
  · rintro run rfl
    exact hblank run hs
  · rintro body rfl
    exact hopen body (List.mem_of_getLast? hs)

end ExpressionLanguage
