import ExpressionLanguage.Text.Letter
import ExpressionLanguage.Text.Number
import ExpressionLanguage.Text.WhiteSpace

namespace ExpressionLanguage.Text

namespace CodePoints

def Apart (a b : CodePoints) : Prop :=
  ∀ r ∈ a.ranges, ∀ s ∈ b.ranges, r.2 < s.1 ∨ s.2 < r.1

instance (a b : CodePoints) : Decidable (a.Apart b) :=
  inferInstanceAs (Decidable (∀ r ∈ a.ranges, ∀ s ∈ b.ranges, r.2 < s.1 ∨ s.2 < r.1))

theorem Apart.contains_eq_false {a b : CodePoints} (h : a.Apart b) {c : Char}
    (hc : a.contains c = true) : b.contains c = false := by
  obtain ⟨r, hr, hlo, hhi⟩ := contains_iff.mp hc
  rw [← Bool.not_eq_true]
  intro hb
  obtain ⟨s, hs, hlo', hhi'⟩ := contains_iff.mp hb
  rcases h r hr s hs with hlt | hlt
  · omega
  · omega

end CodePoints

def digits : CodePoints :=
  ⟨[(0x30, 0x39)]⟩

def allLetters : CodePoints :=
  ⟨(0x41, 0x5A) :: (0x61, 0x7A) :: letters.ranges⟩

theorem contains_digits (c : Char) : digits.contains c = c.isDigit := by
  rw [Bool.eq_iff_iff, CodePoints.contains_iff]
  simp only [digits, List.mem_singleton, exists_eq_left, Char.isDigit, Bool.and_eq_true,
    decide_eq_true_eq, ge_iff_le, UInt32.le_iff_toNat_le]
  exact Iff.rfl

theorem isAlpha_iff (c : Char) : c.isAlpha = true ↔
    (0x41 ≤ c.toNat ∧ c.toNat ≤ 0x5A) ∨ (0x61 ≤ c.toNat ∧ c.toNat ≤ 0x7A) := by
  change (decide (c.val ≥ 'A'.val ∧ c.val ≤ 'Z'.val) || (c.val ≥ 'a'.val && c.val ≤ 'z'.val)) =
    true ↔ _
  simp only [Bool.or_eq_true, Bool.and_eq_true, decide_eq_true_eq, ge_iff_le,
    UInt32.le_iff_toNat_le]
  exact Iff.rfl

theorem contains_allLetters_of_isLetter {c : Char} (h : isLetter c = true) :
    allLetters.contains c = true := by
  rw [CodePoints.contains_iff]
  unfold isLetter at h
  split at h
  · rw [isAlpha_iff] at h
    rcases h with ⟨hlo, hhi⟩ | ⟨hlo, hhi⟩
    · exact ⟨(0x41, 0x5A), by simp [allLetters], hlo, hhi⟩
    · exact ⟨(0x61, 0x7A), by simp [allLetters], hlo, hhi⟩
  · obtain ⟨r, hr, hrange⟩ := CodePoints.contains_iff.mp h
    exact ⟨r, by simp [allLetters, hr], hrange⟩

theorem whiteSpace_apart_allLetters : whiteSpace.Apart allLetters := by
  decide +kernel

theorem whiteSpace_apart_digits : whiteSpace.Apart digits := by
  decide

theorem digits_apart_allLetters : digits.Apart allLetters := by
  decide +kernel

theorem isLetter_of_isBlank {c : Char} (h : isBlank c = true) : isLetter c = false := by
  rw [← Bool.not_eq_true]
  intro hletter
  have hapart := whiteSpace_apart_allLetters.contains_eq_false h
  simp [contains_allLetters_of_isLetter hletter] at hapart

theorem isDigit_of_isBlank {c : Char} (h : isBlank c = true) : c.isDigit = false := by
  rw [← contains_digits]
  exact whiteSpace_apart_digits.contains_eq_false h

theorem whiteSpace_apart_numbers : whiteSpace.Apart numbers := by
  decide +kernel

theorem isNumber_of_isBlank {c : Char} (h : isBlank c = true) : isNumber c = false := by
  unfold isNumber
  split
  · exact isDigit_of_isBlank h
  · exact whiteSpace_apart_numbers.contains_eq_false h

theorem isLetter_of_isDigit {c : Char} (h : c.isDigit = true) : isLetter c = false := by
  rw [← Bool.not_eq_true]
  intro hletter
  rw [← contains_digits] at h
  have hapart := digits_apart_allLetters.contains_eq_false h
  simp [contains_allLetters_of_isLetter hletter] at hapart

theorem isBlank_of_isDigit {c : Char} (h : c.isDigit = true) : isBlank c = false := by
  rw [← Bool.not_eq_true]
  intro hblank
  simp [isDigit_of_isBlank hblank] at h

theorem isBlank_of_isLetter {c : Char} (h : isLetter c = true) : isBlank c = false := by
  rw [← Bool.not_eq_true]
  intro hblank
  simp [isLetter_of_isBlank hblank] at h

theorem isDigit_of_isLetter {c : Char} (h : isLetter c = true) : c.isDigit = false := by
  rw [← Bool.not_eq_true]
  intro hdigit
  simp [isLetter_of_isDigit hdigit] at h

end ExpressionLanguage.Text
