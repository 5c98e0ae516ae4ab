import ExpressionLanguage.Proofs.Scan.Pattern
import ExpressionLanguage.Segment.Basic
import Mathlib.Data.List.TakeWhile

namespace ExpressionLanguage

open Text

inductive Piece where
  | blank
  | lexeme (l : Lexeme)
  | stray
deriving DecidableEq, Repr

/-- The text `w` is the piece at the front of `w ++ rest`. -/
def Piece.Leads (w rest : List Char) : Piece → Prop
  | blank => w ≠ [] ∧ (∀ c ∈ w, isBlank c = true) ∧ ∀ c ∈ rest.head?, isBlank c = false
  | lexeme l => l.Matches w ∧
      (∀ (l' : Lexeme) (v : List Char), v <+: w ++ rest → l'.Matches v → v.length ≤ w.length) ∧
      ∀ l' : Lexeme, l'.Matches w → l' = l
  | stray => (∃ c, w = [c] ∧ isBlank c = false) ∧
      ∀ (l : Lexeme) (v : List Char), v <+: w ++ rest → ¬ l.Matches v

inductive Pieces : List Char → List (Piece × List Char) → Prop
  | nil : Pieces [] []
  | cons {piece w rest ps} : piece.Leads w rest → Pieces rest ps →
      Pieces (w ++ rest) ((piece, w) :: ps)

namespace Piece

variable {w w' rest rest' : List Char}

theorem Leads.ne_nil {piece : Piece} (h : piece.Leads w rest) : w ≠ [] := by
  cases piece with
  | blank => exact h.1
  | lexeme l =>
    obtain ⟨c, v, rfl, -⟩ := h.1.first_cons
    simp
  | stray =>
    obtain ⟨⟨c, rfl, -⟩, -⟩ := h
    simp

theorem Leads.eq_takeWhile (h : blank.Leads w rest) : w = (w ++ rest).takeWhile isBlank := by
  obtain ⟨-, hw, hrest⟩ := h
  rw [List.takeWhile_append_of_pos hw]
  cases rest with
  | nil => simp
  | cons c rest => simp [hrest c rfl]

theorem Leads.isBlank_head {piece : Piece} (h : piece.Leads w rest) :
    ∃ c v, w = c :: v ∧ (isBlank c = true ↔ piece = blank) := by
  cases piece with
  | blank =>
    obtain ⟨c, v, rfl⟩ := List.exists_cons_of_ne_nil h.1
    exact ⟨c, v, rfl, by simp [h.2.1]⟩
  | lexeme l =>
    obtain ⟨c, v, rfl, hfirst⟩ := h.1.first_cons
    refine ⟨c, v, rfl, ?_⟩
    simp only [reduceCtorEq, iff_false]
    intro hblank
    simp [Lexeme.first_of_isBlank hblank] at hfirst
  | stray =>
    obtain ⟨⟨c, rfl, hc⟩, -⟩ := h
    exact ⟨c, [], rfl, by simp [hc]⟩

theorem Leads.unique {piece piece' : Piece} (h : piece.Leads w rest) (h' : piece'.Leads w' rest')
    (hsource : w ++ rest = w' ++ rest') : piece = piece' ∧ w = w' ∧ rest = rest' := by
  obtain ⟨c, v, hw, hblank⟩ := h.isBlank_head
  obtain ⟨c', v', hw', hblank'⟩ := h'.isBlank_head
  obtain rfl : c = c' := by simpa [hw, hw'] using congrArg List.head? hsource
  have hsame : piece = blank ↔ piece' = blank := hblank.symm.trans hblank'
  have hfront : w <+: w' ++ rest' := hsource ▸ List.prefix_append w rest
  have hfront' : w' <+: w ++ rest := hsource ▸ List.prefix_append w' rest'
  cases piece with
  | blank =>
    obtain rfl : piece' = blank := hsame.mp rfl
    have heq : w = w' := by rw [h.eq_takeWhile, h'.eq_takeWhile, hsource]
    subst heq
    exact ⟨rfl, rfl, List.append_cancel_left hsource⟩
  | lexeme l =>
    cases piece' with
    | blank => simp at hsame
    | stray => exact absurd h.1 (h'.2 l w hfront)
    | lexeme l' =>
      have hle := h'.2.1 l w hfront h.1
      have hge := h.2.1 l' w' hfront' h'.1
      obtain ⟨rfl, hrest⟩ := List.append_inj hsource (Nat.le_antisymm hle hge)
      obtain rfl := h'.2.2 l h.1
      exact ⟨rfl, rfl, hrest⟩
  | stray =>
    cases piece' with
    | blank => simp at hsame
    | lexeme l' => exact absurd h'.1 (h.2 l' w' hfront')
    | stray =>
      obtain ⟨⟨d, rfl, -⟩, -⟩ := h
      obtain ⟨⟨d', rfl, -⟩, -⟩ := h'
      obtain ⟨hd, hrest⟩ := List.append_inj hsource rfl
      exact ⟨rfl, hd, hrest⟩

theorem leads_lexeme {l : Lexeme} (h : l.Matches w)
    (hbound : ∀ (l' : Lexeme) (v : List Char), v <+: w ++ rest → l'.Matches v →
      v.length < w.length ∨ l' = l ∧ v.length ≤ w.length) : (lexeme l).Leads w rest := by
  refine ⟨h, ?_, ?_⟩
  · intro l' v hv hmatch
    rcases hbound l' v hv hmatch with hlt | ⟨-, hle⟩
    · omega
    · exact hle
  · intro l' hmatch
    rcases hbound l' w (List.prefix_append w rest) hmatch with hlt | ⟨heq, -⟩
    · omega
    · exact heq

end Piece

theorem Pieces.unique {source : List Char} {ps qs : List (Piece × List Char)}
    (h : Pieces source ps) (h' : Pieces source qs) : qs = ps := by
  induction h generalizing qs with
  | nil =>
    generalize hsource : ([] : List Char) = source at h'
    cases h' with
    | nil => rfl
    | cons hlead _ =>
      have hne := hlead.ne_nil
      simp at hsource
      exact absurd hsource.1 hne
  | @cons piece w rest ps hlead _ ih =>
    generalize hsource : w ++ rest = source at h'
    cases h' with
    | nil =>
      have hne := hlead.ne_nil
      simp at hsource
      exact absurd hsource.1 hne
    | cons hlead' hrest' =>
      obtain ⟨rfl, rfl, rfl⟩ := hlead.unique hlead' hsource
      rw [ih hrest']

section

variable {α : Type} {p : α → Bool} {v l : List α}

theorem length_le_takeWhile (h : v <+: l) (hv : ∀ x ∈ v, p x = true) :
    v.length ≤ (l.takeWhile p).length := by
  obtain ⟨r, rfl⟩ := h
  simp [List.takeWhile_append_of_pos hv]

theorem takeWhile_eq_of_boundary {x : α} {tail : List α} (h : v ++ x :: tail <+: l)
    (hv : ∀ x ∈ v, p x = true) (hx : p x = false) :
    l.takeWhile p = v ∧ x :: tail <+: l.dropWhile p := by
  obtain ⟨r, rfl⟩ := h
  rw [List.append_assoc, List.takeWhile_append_of_pos hv, List.dropWhile_append_of_pos hv]
  simp [hx]

end

theorem Lexeme.Matches.first_head {l : Lexeme} {v rest : List Char} {c : Char}
    (h : l.Matches v) (hv : v <+: c :: rest) : l.first c = true := by
  obtain ⟨d, v', rfl, hfirst⟩ := h.first_cons
  obtain ⟨rfl, -⟩ := List.cons_prefix_cons.mp hv
  exact hfirst

namespace Segment

def piece : Segment → Piece
  | blank _ => .blank
  | text _ => .lexeme .text
  | openText _ => .lexeme .openText
  | integer _ => .lexeme .integer
  | float _ _ => .lexeme .float
  | word _ => .lexeme .word
  | symbol s => .lexeme (if s.lexeme.toList.length = 1 then .single else .pair)
  | stray _ => .stray

theorem leads_quoted (rest : List Char) :
    (quoted rest).1.piece.Leads (quoted rest).1.chars (quoted rest).2 := by
  have hchars := quoted_chars rest
  revert hchars
  unfold quoted
  split
  · rename_i hdrop
    intro hchars
    have hrest : ∀ c ∈ rest, (c != '"') = true := List.dropWhile_eq_nil_iff.mp hdrop
    refine Piece.leads_lexeme (Lexeme.matches_openText_iff.mpr ⟨rest, rfl, hrest⟩) ?_
    intro l v hv hmatch
    rw [hchars] at hv
    rcases Lexeme.eq_of_first_quote (hmatch.first_head hv) with rfl | rfl
    · obtain ⟨body, rfl, -⟩ := Lexeme.matches_text_iff.mp hmatch
      have hquote : '"' ∈ rest := by
        rw [List.cons_append, List.cons_prefix_cons] at hv
        exact hv.2.subset (by simp)
      simpa using hrest _ hquote
    · exact .inr ⟨rfl, hv.length_le⟩
  · rename_i q after hdrop
    intro hchars
    have hmatches := Lexeme.matches_text_iff.mpr
      ⟨rest.takeWhile (· != '"'), rfl, fun _ => List.mem_takeWhile_imp⟩
    refine Piece.leads_lexeme hmatches ?_
    intro l v hv hmatch
    rw [hchars] at hv
    rcases Lexeme.eq_of_first_quote (hmatch.first_head hv) with rfl | rfl
    · obtain ⟨body, rfl, hbody⟩ := Lexeme.matches_text_iff.mp hmatch
      rw [List.cons_append, List.cons_prefix_cons] at hv
      have hsame := (takeWhile_eq_of_boundary hv.2 hbody (by decide)).1
      exact .inr ⟨rfl, by simp [chars, hsame]⟩
    · obtain ⟨body, rfl, hbody⟩ := Lexeme.matches_openText_iff.mp hmatch
      rw [List.cons_prefix_cons] at hv
      have hle := length_le_takeWhile hv.2 hbody
      left
      simp only [chars, List.length_cons, List.length_append, List.length_nil]
      omega

theorem leads_word {c : Char} (hc : isLetter c = true) (rest : List Char) :
    (Piece.lexeme .word).Leads (c :: rest.takeWhile isWordPart) (rest.dropWhile isWordPart) := by
  have hmatch : Lexeme.word.Matches (c :: rest.takeWhile isWordPart) :=
    Lexeme.matches_word_iff.mpr ⟨c, _, rfl, hc, fun _ => List.mem_takeWhile_imp⟩
  refine Piece.leads_lexeme hmatch ?_
  intro l v hv hmatch
  rw [List.cons_append, List.takeWhile_append_dropWhile] at hv
  obtain rfl := Lexeme.eq_of_first_letter hc (hmatch.first_head hv)
  obtain ⟨d, cs, rfl, -, hcs⟩ := Lexeme.matches_word_iff.mp hmatch
  rw [List.cons_prefix_cons] at hv
  have hle := length_le_takeWhile (p := isWordPart) hv.2 hcs
  exact .inr ⟨rfl, by simpa using hle⟩

theorem isDigit_of_mem_run {c : Char} (hc : c.isDigit = true) {rest : List Char} :
    ∀ x ∈ c :: rest.takeWhile Char.isDigit, x.isDigit = true := by
  intro x hx
  rcases List.mem_cons.mp hx with rfl | hx
  · exact hc
  · exact List.mem_takeWhile_imp hx

theorem length_le_digits {c : Char} (hc : c.isDigit = true) {v rest : List Char}
    (hv : v <+: c :: rest) (hdigits : ∀ x ∈ v, x.isDigit = true) :
    v.length ≤ (c :: rest.takeWhile Char.isDigit).length := by
  have hle := length_le_takeWhile hv hdigits
  simpa [hc] using hle

theorem float_split {c : Char} (hc : c.isDigit = true) {v rest : List Char}
    (hv : v <+: c :: rest) (hmatch : Lexeme.float.Matches v) :
    ∃ d fraction, v = (c :: rest.takeWhile Char.isDigit) ++ '.' :: d :: fraction ∧
      '.' :: d :: fraction <+: rest.dropWhile Char.isDigit ∧
      ∀ x ∈ d :: fraction, x.isDigit = true := by
  obtain ⟨whole, fraction, rfl, ⟨-, hwhole⟩, hne, hfraction⟩ := Lexeme.matches_float_iff.mp hmatch
  obtain ⟨d, fraction, rfl⟩ := List.exists_cons_of_ne_nil hne
  obtain ⟨htake, hdrop⟩ := takeWhile_eq_of_boundary hv hwhole (by decide)
  simp only [List.takeWhile_cons_of_pos hc, List.dropWhile_cons_of_pos hc] at htake hdrop
  exact ⟨d, fraction, by rw [htake], hdrop, hfraction⟩

theorem leads_integer {c : Char} (hc : c.isDigit = true) (rest : List Char)
    (hpoint : ∀ d after, rest.dropWhile Char.isDigit = '.' :: d :: after → d.isDigit = false) :
    (Piece.lexeme .integer).Leads (c :: rest.takeWhile Char.isDigit)
      (rest.dropWhile Char.isDigit) := by
  refine Piece.leads_lexeme (Lexeme.matches_integer_iff.mpr ⟨by simp, isDigit_of_mem_run hc⟩) ?_
  intro l v hv hmatch
  rw [List.cons_append, List.takeWhile_append_dropWhile] at hv
  rcases Lexeme.eq_of_first_digit hc (hmatch.first_head hv) with rfl | rfl
  · exact .inr ⟨rfl, length_le_digits hc hv (Lexeme.matches_integer_iff.mp hmatch).2⟩
  · obtain ⟨d, fraction, -, ⟨after, hdrop⟩, hfraction⟩ := float_split hc hv hmatch
    have hd := hpoint d (fraction ++ after) (by simpa using hdrop.symm)
    simp [hfraction d (by simp)] at hd

theorem leads_float {c d : Char} (hc : c.isDigit = true) (hd : d.isDigit = true)
    {rest after : List Char} (hrest : rest.dropWhile Char.isDigit = '.' :: d :: after) :
    (Piece.lexeme .float).Leads
      ((c :: rest.takeWhile Char.isDigit) ++ '.' :: d :: after.takeWhile Char.isDigit)
      (after.dropWhile Char.isDigit) := by
  have hsource : (c :: rest.takeWhile Char.isDigit) ++ '.' :: d :: after.takeWhile Char.isDigit ++
      after.dropWhile Char.isDigit = c :: rest := by
    have hsplit := List.takeWhile_append_dropWhile (p := Char.isDigit) (l := rest)
    rw [hrest] at hsplit
    simpa using hsplit
  refine Piece.leads_lexeme (Lexeme.matches_float_iff.mpr
    ⟨_, _, rfl, ⟨by simp, isDigit_of_mem_run hc⟩, by simp, isDigit_of_mem_run hd⟩) ?_
  intro l v hv hmatch
  rw [hsource] at hv
  rcases Lexeme.eq_of_first_digit hc (hmatch.first_head hv) with rfl | rfl
  · have hle := length_le_digits hc hv (Lexeme.matches_integer_iff.mp hmatch).2
    left
    simp only [List.length_append, List.length_cons] at hle ⊢
    omega
  · obtain ⟨x, fraction, rfl, hdrop, hx⟩ := float_split hc hv hmatch
    rw [hrest, List.cons_prefix_cons] at hdrop
    have hle := length_le_digits hd hdrop.2 hx
    right
    refine ⟨rfl, ?_⟩
    simp only [List.length_append, List.length_cons] at hle ⊢
    omega

theorem leads_numeric {c : Char} (hc : c.isDigit = true) (rest : List Char) :
    (numeric c rest).1.piece.Leads (numeric c rest).1.chars (numeric c rest).2 := by
  unfold numeric
  split
  · rename_i d after hrest
    split
    · rename_i hd
      exact leads_float hc hd hrest
    · rename_i hd
      have hlead := leads_integer hc rest (by
        intro x after' heq
        obtain ⟨rfl, -⟩ : x = d ∧ after' = after := by simpa [hrest] using heq.symm
        simpa using hd)
      rwa [hrest] at hlead
  · rename_i hpoint
    exact leads_integer hc rest fun d after heq => absurd heq (hpoint d after)

theorem symbol_single {s : Symbol} {c : Char} (h : s.lexeme.toList = [c]) :
    (symbol s).piece = .lexeme .single ∧ Lexeme.marks.contains c = true := by
  refine ⟨by simp [piece, h], ?_⟩
  revert h
  cases s <;> simp [Symbol.lexeme] <;> rintro rfl <;> decide

theorem symbol_pair {s : Symbol} {c d : Char} (h : s.lexeme.toList = [c, d]) :
    (symbol s).piece = .lexeme .pair ∧ Lexeme.pairStarts.contains c = true ∧ d = '=' := by
  refine ⟨by simp [piece, h], ?_⟩
  revert h
  cases s <;> simp [Symbol.lexeme] <;> rintro rfl rfl <;> decide

theorem ofChars?_of_marks {c : Char} (h : Lexeme.marks.contains c = true) :
    Symbol.ofChars? [c] ≠ none := by
  have hall : Lexeme.marks.all (fun c => (Symbol.ofChars? [c]).isSome) = true := by decide
  have hc := List.all_eq_true.mp hall c (by simpa using h)
  intro hnone
  simp [hnone] at hc

theorem ofChars?_of_pairStarts {c : Char} (h : Lexeme.pairStarts.contains c = true) :
    Symbol.ofChars? [c, '='] ≠ none := by
  have hall : Lexeme.pairStarts.all (fun c => (Symbol.ofChars? [c, '=']).isSome) = true := by decide
  have hc := List.all_eq_true.mp hall c (by simpa using h)
  intro hnone
  simp [hnone] at hc

theorem leads_pair {c : Char} (hc : Lexeme.pairStarts.contains c = true) (after : List Char) :
    (Piece.lexeme .pair).Leads [c, '='] after := by
  obtain ⟨-, hquote, hdigit, hletter⟩ := Lexeme.class_of_marks (Lexeme.marks_of_pairStarts hc)
  refine Piece.leads_lexeme (Lexeme.matches_pair_iff.mpr ⟨c, rfl, hc⟩) ?_
  intro l v hv hmatch
  rcases Lexeme.eq_of_first_mark hquote hdigit hletter (hmatch.first_head hv) with rfl | rfl
  · obtain ⟨x, rfl, -⟩ := Lexeme.matches_pair_iff.mp hmatch
    exact .inr ⟨rfl, Nat.le_refl _⟩
  · obtain ⟨x, rfl, -⟩ := Lexeme.matches_single_iff.mp hmatch
    exact .inl (by simp)

theorem leads_single {c : Char} (hc : Lexeme.marks.contains c = true) {rest : List Char}
    (hpair : ∀ after, rest = '=' :: after → Lexeme.pairStarts.contains c = false) :
    (Piece.lexeme .single).Leads [c] rest := by
  obtain ⟨-, hquote, hdigit, hletter⟩ := Lexeme.class_of_marks hc
  refine Piece.leads_lexeme (Lexeme.matches_single_iff.mpr ⟨c, rfl, hc⟩) ?_
  intro l v hv hmatch
  rcases Lexeme.eq_of_first_mark hquote hdigit hletter (hmatch.first_head hv) with rfl | rfl
  · obtain ⟨x, rfl, hx⟩ := Lexeme.matches_pair_iff.mp hmatch
    obtain ⟨after, hafter⟩ := hv
    obtain ⟨rfl, rfl⟩ : x = c ∧ '=' :: after = rest := by simpa using hafter
    rw [hpair after rfl] at hx
    cases hx
  · obtain ⟨x, rfl, -⟩ := Lexeme.matches_single_iff.mp hmatch
    exact .inr ⟨rfl, Nat.le_refl _⟩

theorem leads_stray {c : Char} (hblank : isBlank c = false) (hquote : c ≠ '"')
    (hdigit : c.isDigit = false) (hletter : isLetter c = false)
    (hc : Lexeme.marks.contains c = false) (rest : List Char) : Piece.stray.Leads [c] rest := by
  refine ⟨⟨c, rfl, hblank⟩, ?_⟩
  intro l v hv hmatch
  have hfirst := hmatch.first_head hv
  rcases Lexeme.eq_of_first_mark hquote hdigit hletter hfirst with rfl | rfl
  · rw [Lexeme.marks_of_pairStarts hfirst] at hc
    cases hc
  · have hmark : Lexeme.marks.contains c = true := hfirst
    rw [hmark] at hc
    cases hc

theorem leads_punctuation_single {c : Char} (hblank : isBlank c = false) (hquote : c ≠ '"')
    (hdigit : c.isDigit = false) (hletter : isLetter c = false) {rest : List Char}
    (hpair : ∀ after, rest = '=' :: after → Lexeme.pairStarts.contains c = false) :
    (punctuation.single c rest).1.piece.Leads (punctuation.single c rest).1.chars
      (punctuation.single c rest).2 := by
  unfold punctuation.single
  split
  · rename_i s hs
    have hchars := Symbol.ofChars?_eq_some_iff.mp hs
    obtain ⟨hpiece, hmark⟩ := symbol_single hchars
    simp only [hpiece, chars, hchars]
    exact leads_single hmark hpair
  · rename_i hnone
    have hmark : Lexeme.marks.contains c = false := by
      rw [← Bool.not_eq_true]
      intro hmark
      exact ofChars?_of_marks hmark hnone
    exact leads_stray hblank hquote hdigit hletter hmark rest

theorem leads_punctuation {c : Char} (hblank : isBlank c = false) (hquote : c ≠ '"')
    (hdigit : c.isDigit = false) (hletter : isLetter c = false) (rest : List Char) :
    (punctuation c rest).1.piece.Leads (punctuation c rest).1.chars (punctuation c rest).2 := by
  unfold punctuation
  split
  · rename_i d after
    split
    · rename_i s hs
      have hchars := Symbol.ofChars?_eq_some_iff.mp hs
      obtain ⟨hpiece, hc, rfl⟩ := symbol_pair hchars
      simp only [hpiece, chars, hchars]
      exact leads_pair hc after
    · rename_i hnone
      refine leads_punctuation_single hblank hquote hdigit hletter ?_
      intro after' heq
      obtain ⟨rfl, -⟩ := List.cons.inj heq
      rw [← Bool.not_eq_true]
      intro hc
      exact ofChars?_of_pairStarts hc hnone
  · exact leads_punctuation_single hblank hquote hdigit hletter (by simp)

theorem leads_leading (c : Char) (rest : List Char) :
    (leading c rest).1.piece.Leads (leading c rest).1.chars (leading c rest).2 := by
  unfold leading
  split
  · rename_i hblank
    refine ⟨by simp [chars], ?_, ?_⟩
    · intro x hx
      rcases List.mem_cons.mp hx with rfl | hx
      · exact hblank
      · exact List.mem_takeWhile_imp hx
    · intro x hx
      have hstop := List.head?_dropWhile_not (p := isBlank) (l := rest)
      rw [hx] at hstop
      simpa using hstop
  · rename_i hblank
    split
    · exact leads_quoted rest
    · rename_i hquote
      split
      · rename_i hdigit
        exact leads_numeric hdigit rest
      · rename_i hdigit
        split
        · rename_i hletter
          exact leads_word hletter rest
        · rename_i hletter
          exact leads_punctuation (by simpa using hblank) hquote (by simpa using hdigit)
            (by simpa using hletter) rest

end Segment

def pieces (source : List Char) : List (Piece × List Char) :=
  (segments source).map fun s => (s.piece, s.chars)

theorem pieces_segments (source : List Char) : Pieces source (pieces source) := by
  unfold pieces
  fun_induction segments source with
  | case1 => exact .nil
  | case2 c rest ih =>
    have hpieces := Pieces.cons (Segment.leads_leading c rest) ih
    rwa [Segment.leading_chars] at hpieces

end ExpressionLanguage
