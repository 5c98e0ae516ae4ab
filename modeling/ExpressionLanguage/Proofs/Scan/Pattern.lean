import ExpressionLanguage.Proofs.Text.Classes
import ExpressionLanguage.Text.Number

namespace ExpressionLanguage

open Text

inductive Pattern where
  | one (p : Char → Bool)
  | seq (a b : Pattern)
  | star (a : Pattern)

namespace Pattern

inductive Matches : Pattern → List Char → Prop
  | one {p c} : p c = true → Matches (.one p) [c]
  | seq {a b v w} : Matches a v → Matches b w → Matches (.seq a b) (v ++ w)
  | nil {a} : Matches (.star a) []
  | cons {a v w} : Matches a v → Matches (.star a) w → Matches (.star a) (v ++ w)

def plus (a : Pattern) : Pattern :=
  .seq a (.star a)

theorem matches_one_iff {p : Char → Bool} {w : List Char} :
    Matches (.one p) w ↔ ∃ c, w = [c] ∧ p c = true := by
  constructor
  · rintro ⟨h⟩
    exact ⟨_, rfl, h⟩
  · rintro ⟨c, rfl, h⟩
    exact .one h

theorem matches_seq_iff {a b : Pattern} {w : List Char} :
    Matches (.seq a b) w ↔ ∃ u v, w = u ++ v ∧ Matches a u ∧ Matches b v := by
  constructor
  · intro h
    cases h with
    | seq ha hb => exact ⟨_, _, rfl, ha, hb⟩
  · rintro ⟨u, v, rfl, ha, hb⟩
    exact .seq ha hb

theorem matches_star_one_iff {p : Char → Bool} {w : List Char} :
    Matches (.star (.one p)) w ↔ ∀ c ∈ w, p c = true := by
  constructor
  · intro h
    generalize ha : Pattern.star (.one p) = a at h
    induction h with
    | one _ => cases ha
    | seq _ _ => cases ha
    | nil => simp
    | cons hv _ _ ih =>
      cases ha
      obtain ⟨c, rfl, hc⟩ := matches_one_iff.mp hv
      simpa [hc] using ih rfl
  · intro h
    induction w with
    | nil => exact .nil
    | cons c w ih =>
      have hw := ih fun x hx => h x (by simp [hx])
      exact .cons (.one (h c (by simp))) hw

theorem matches_one_seq_iff {p : Char → Bool} {b : Pattern} {w : List Char} :
    Matches (.seq (.one p) b) w ↔ ∃ c v, w = c :: v ∧ p c = true ∧ Matches b v := by
  rw [matches_seq_iff]
  constructor
  · rintro ⟨u, v, rfl, hu, hv⟩
    obtain ⟨c, rfl, hc⟩ := matches_one_iff.mp hu
    exact ⟨c, v, rfl, hc, hv⟩
  · rintro ⟨c, v, rfl, hc, hv⟩
    exact ⟨[c], v, rfl, .one hc, hv⟩

theorem matches_plus_one_iff {p : Char → Bool} {w : List Char} :
    Matches (plus (.one p)) w ↔ w ≠ [] ∧ ∀ c ∈ w, p c = true := by
  rw [plus, matches_one_seq_iff]
  constructor
  · rintro ⟨c, v, rfl, hc, hv⟩
    rw [matches_star_one_iff] at hv
    exact ⟨by simp, by simpa [hc] using hv⟩
  · rintro ⟨hne, hw⟩
    obtain ⟨c, v, rfl⟩ := List.exists_cons_of_ne_nil hne
    refine ⟨c, v, rfl, hw c (by simp), matches_star_one_iff.mpr ?_⟩
    intro x hx
    exact hw x (by simp [hx])

end Pattern

inductive Lexeme where
  | text | openText | integer | float | word | pair | single
deriving DecidableEq, Repr

namespace Lexeme

open Pattern

def pairStarts : List Char :=
  "!=<>".toList

def marks : List Char :=
  "()\x7b\x7d,.+;/*!=<>-".toList

def pattern : Lexeme → Pattern
  | text => .seq (.one (· == '"')) (.seq (.star (.one (· != '"'))) (.one (· == '"')))
  | openText => .seq (.one (· == '"')) (.star (.one (· != '"')))
  | integer => plus (.one Char.isDigit)
  | float => .seq (plus (.one Char.isDigit)) (.seq (.one (· == '.')) (plus (.one Char.isDigit)))
  | word => .seq (.one isLetter) (.star (.one fun c => isLetter c || isNumber c || c == '_'))
  | pair => .seq (.one pairStarts.contains) (.one (· == '='))
  | single => .one marks.contains

def Matches (l : Lexeme) (w : List Char) : Prop :=
  l.pattern.Matches w

variable {w : List Char}

theorem matches_text_iff :
    text.Matches w ↔ ∃ body, w = '"' :: body ++ ['"'] ∧ ∀ c ∈ body, (c != '"') = true := by
  simp only [Matches, pattern, matches_one_seq_iff, beq_iff_eq]
  constructor
  · rintro ⟨c, v, rfl, rfl, hv⟩
    obtain ⟨body, q, rfl, hbody, hq⟩ := matches_seq_iff.mp hv
    obtain ⟨c, rfl, hc⟩ := matches_one_iff.mp hq
    obtain rfl : c = '"' := by simpa using hc
    exact ⟨body, rfl, matches_star_one_iff.mp hbody⟩
  · rintro ⟨body, rfl, hbody⟩
    exact ⟨'"', body ++ ['"'], rfl, rfl, .seq (matches_star_one_iff.mpr hbody) (.one rfl)⟩

theorem matches_openText_iff :
    openText.Matches w ↔ ∃ body, w = '"' :: body ∧ ∀ c ∈ body, (c != '"') = true := by
  simp only [Matches, pattern, matches_one_seq_iff, beq_iff_eq, matches_star_one_iff]
  constructor
  · rintro ⟨c, body, rfl, rfl, hbody⟩
    exact ⟨body, rfl, hbody⟩
  · rintro ⟨body, rfl, hbody⟩
    exact ⟨'"', body, rfl, rfl, hbody⟩

theorem matches_integer_iff : integer.Matches w ↔ w ≠ [] ∧ ∀ c ∈ w, c.isDigit = true :=
  matches_plus_one_iff

theorem matches_float_iff :
    float.Matches w ↔ ∃ whole fraction, w = whole ++ '.' :: fraction ∧
      (whole ≠ [] ∧ ∀ c ∈ whole, c.isDigit = true) ∧
      (fraction ≠ [] ∧ ∀ c ∈ fraction, c.isDigit = true) := by
  simp only [Matches, pattern, matches_seq_iff (a := plus _), matches_one_seq_iff,
    matches_plus_one_iff, beq_iff_eq]
  constructor
  · rintro ⟨whole, v, rfl, hwhole, c, fraction, rfl, rfl, hfraction⟩
    exact ⟨whole, fraction, rfl, hwhole, hfraction⟩
  · rintro ⟨whole, fraction, rfl, hwhole, hfraction⟩
    exact ⟨whole, '.' :: fraction, rfl, hwhole, '.', fraction, rfl, rfl, hfraction⟩

theorem matches_word_iff :
    word.Matches w ↔ ∃ c cs, w = c :: cs ∧ isLetter c = true ∧
      ∀ x ∈ cs, (isLetter x || isNumber x || x == '_') = true := by
  simp only [Matches, pattern, matches_one_seq_iff, matches_star_one_iff]

theorem matches_pair_iff :
    pair.Matches w ↔ ∃ c, w = [c, '='] ∧ pairStarts.contains c = true := by
  simp only [Matches, pattern, matches_one_seq_iff, matches_one_iff, beq_iff_eq]
  constructor
  · rintro ⟨c, v, rfl, hc, d, rfl, rfl⟩
    exact ⟨c, rfl, hc⟩
  · rintro ⟨c, rfl, hc⟩
    exact ⟨c, ['='], rfl, hc, '=', rfl, rfl⟩

theorem matches_single_iff :
    single.Matches w ↔ ∃ c, w = [c] ∧ marks.contains c = true :=
  matches_one_iff

def first : Lexeme → Char → Bool
  | text, c | openText, c => c == '"'
  | integer, c | float, c => c.isDigit
  | word, c => isLetter c
  | pair, c => pairStarts.contains c
  | single, c => marks.contains c

theorem Matches.first_cons {l : Lexeme} (h : l.Matches w) :
    ∃ c v, w = c :: v ∧ l.first c = true := by
  cases l with
  | text =>
    obtain ⟨body, rfl, -⟩ := matches_text_iff.mp h
    exact ⟨_, _, rfl, rfl⟩
  | openText =>
    obtain ⟨body, rfl, -⟩ := matches_openText_iff.mp h
    exact ⟨_, _, rfl, rfl⟩
  | integer =>
    obtain ⟨hne, hw⟩ := matches_integer_iff.mp h
    obtain ⟨c, v, rfl⟩ := List.exists_cons_of_ne_nil hne
    exact ⟨c, v, rfl, hw c (by simp)⟩
  | float =>
    obtain ⟨whole, fraction, rfl, ⟨hne, hwhole⟩, -⟩ := matches_float_iff.mp h
    obtain ⟨c, v, rfl⟩ := List.exists_cons_of_ne_nil hne
    exact ⟨c, _, rfl, hwhole c (by simp)⟩
  | word =>
    obtain ⟨c, cs, rfl, hc, -⟩ := matches_word_iff.mp h
    exact ⟨c, cs, rfl, hc⟩
  | pair =>
    obtain ⟨c, rfl, hc⟩ := matches_pair_iff.mp h
    exact ⟨c, _, rfl, hc⟩
  | single =>
    obtain ⟨c, rfl, hc⟩ := matches_single_iff.mp h
    exact ⟨c, _, rfl, hc⟩

theorem class_of_marks {c : Char} (h : marks.contains c = true) :
    isBlank c = false ∧ c ≠ '"' ∧ c.isDigit = false ∧ isLetter c = false := by
  have hall : marks.all (fun c => !isBlank c && c != '"' && !c.isDigit && !isLetter c) = true := by
    decide
  simpa [and_assoc] using List.all_eq_true.mp hall c (by simpa using h)

theorem marks_of_pairStarts {c : Char} (h : pairStarts.contains c = true) :
    marks.contains c = true := by
  have hall : pairStarts.all marks.contains = true := by decide
  exact List.all_eq_true.mp hall c (by simpa using h)

variable {l : Lexeme} {c : Char}

theorem first_of_isBlank (h : isBlank c = true) : l.first c = false := by
  rw [← Bool.not_eq_true]
  intro hfirst
  cases l with
  | text | openText =>
    obtain rfl : c = '"' := by simpa [first] using hfirst
    revert h
    decide
  | integer | float => simp [first, isDigit_of_isBlank h] at hfirst
  | word => simp [first, isLetter_of_isBlank h] at hfirst
  | pair => simp [(class_of_marks (marks_of_pairStarts hfirst)).1] at h
  | single => simp [(class_of_marks hfirst).1] at h

theorem eq_of_first_quote (h : l.first '"' = true) : l = text ∨ l = openText := by
  revert h
  cases l <;> decide

theorem eq_of_first_digit (hc : c.isDigit = true) (h : l.first c = true) :
    l = integer ∨ l = float := by
  cases l with
  | integer => exact .inl rfl
  | float => exact .inr rfl
  | text | openText =>
    obtain rfl : c = '"' := by simpa [first] using h
    revert hc
    decide
  | word => simp [first, isLetter_of_isDigit hc] at h
  | pair => simp [(class_of_marks (marks_of_pairStarts h)).2.2.1] at hc
  | single => simp [(class_of_marks h).2.2.1] at hc

theorem eq_of_first_letter (hc : isLetter c = true) (h : l.first c = true) : l = word := by
  cases l with
  | word => rfl
  | text | openText =>
    obtain rfl : c = '"' := by simpa [first] using h
    revert hc
    decide
  | integer | float => simp [isLetter_of_isDigit h] at hc
  | pair => simp [(class_of_marks (marks_of_pairStarts h)).2.2.2] at hc
  | single => simp [(class_of_marks h).2.2.2] at hc

theorem eq_of_first_mark (hquote : c ≠ '"') (hdigit : c.isDigit = false)
    (hletter : isLetter c = false) (h : l.first c = true) : l = pair ∨ l = single := by
  cases l with
  | pair => exact .inl rfl
  | single => exact .inr rfl
  | text | openText => simp [first, hquote] at h
  | integer | float => simp [first, hdigit] at h
  | word => simp [first, hletter] at h

end Lexeme

end ExpressionLanguage
