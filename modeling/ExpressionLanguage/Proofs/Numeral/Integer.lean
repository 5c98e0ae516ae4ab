import ExpressionLanguage.Numeral.Integer

namespace ExpressionLanguage.Numeral

theorem readInteger_of_isDigit {ds : List Char} (h : ∀ c ∈ ds, c.isDigit = true) :
    readInteger ds = (readDigits positiveLimit ds).map Int64.ofNat := by
  unfold readInteger
  split
  · exact absurd (h '-' (by simp)) (by decide)
  · exact absurd (h '+' (by simp)) (by decide)
  · rfl

theorem accumulate_tooLarge {limit sum : Nat} {ds : List Char} (hd : ∀ c ∈ ds, c.isDigit = true)
    (hsum : sum ≤ limit) (hl : limit < Nat.ofDigitChars 10 ds sum) :
    accumulate limit sum ds = .error .tooLarge := by
  induction ds generalizing sum with
  | nil =>
    rw [Nat.ofDigitChars_nil] at hl
    omega
  | cons c rest ih =>
    rw [Nat.ofDigitChars_cons] at hl
    rw [accumulate, if_pos (hd c (by simp))]
    by_cases hnext : 10 * sum + (c.toNat - '0'.toNat) ≤ limit
    · rw [if_pos hnext]
      exact ih (fun x hx => hd x (by simp [hx])) hnext hl
    · rw [if_neg hnext]

section Digits

variable {ds : List Char} (hne : ds ≠ []) (hd : ∀ c ∈ ds, c.isDigit = true)

include hne hd

theorem readInteger_of_le (h : denoted ds ≤ positiveLimit) :
    readInteger ds = .ok (Int64.ofNat (denoted ds)) := by
  rw [readInteger_of_isDigit hd, readDigits, if_neg hne, accumulate_ofDigitChars hd h]
  rfl

theorem readInteger_of_lt (h : positiveLimit < denoted ds) :
    readInteger ds = .error .tooLarge := by
  rw [readInteger_of_isDigit hd, readDigits, if_neg hne,
    accumulate_tooLarge hd (Nat.zero_le _) h]
  rfl

end Digits

theorem toInt_ofNat_of_le {n : Nat} (h : n ≤ positiveLimit) : (Int64.ofNat n).toInt = n := by
  have hlimit : positiveLimit = 2 ^ 63 - 1 := rfl
  exact Int64.toInt_ofNat_of_lt (by omega)

theorem readInteger_digits {n : Nat} (h : n ≤ positiveLimit) :
    readInteger (digits n) = .ok (Int64.ofNat n) := by
  have hread := readInteger_of_le (digits_ne_nil n) (fun _ => isDigit_of_mem_digits)
    (by rwa [denoted_digits])
  rwa [denoted_digits] at hread

theorem readInteger_ne_minValue {ds : List Char} (h : ∀ c ∈ ds, c.isDigit = true) {n : Int64}
    (hn : readInteger ds = .ok n) : n ≠ Int64.minValue := by
  rw [readInteger_of_isDigit h] at hn
  cases hread : readDigits positiveLimit ds with
  | error fault => simp [hread, Except.map] at hn
  | ok m =>
    obtain rfl : Int64.ofNat m = n := by simpa [hread, Except.map] using hn
    have hle : m ≤ positiveLimit := by
      unfold readDigits at hread
      split at hread
      · cases hread
      · exact accumulate_le (Nat.zero_le _) hread
    have htoInt := toInt_ofNat_of_le hle
    intro heq
    rw [heq, Int64.toInt_minValue] at htoInt
    omega

theorem natAbs_le_positiveLimit {n : Int64} (h : n ≠ Int64.minValue) :
    n.toInt.natAbs ≤ positiveLimit := by
  have hne : n.toInt ≠ -2 ^ 63 := by
    intro heq
    exact h (Int64.toInt_inj.mp (heq.trans Int64.toInt_minValue.symm))
  have hlo := n.le_toInt
  have hhi := n.toInt_lt
  have hlimit : positiveLimit = 2 ^ 63 - 1 := rfl
  omega

theorem ofNat_natAbs_of_nonneg {n : Int64} (h : ¬ n.toInt < 0) :
    Int64.ofNat n.toInt.natAbs = n := by
  have habs : (n.toInt.natAbs : Int) = n.toInt := by omega
  rw [← Int64.ofInt_eq_ofNat, habs, Int64.ofInt_toInt]

theorem ofNat_natAbs_of_neg {n : Int64} (h : n.toInt < 0) :
    Int64.ofNat n.toInt.natAbs = -n := by
  have habs : (n.toInt.natAbs : Int) = -n.toInt := by omega
  rw [← Int64.ofInt_eq_ofNat, habs, Int64.ofInt_neg, Int64.ofInt_toInt]

end ExpressionLanguage.Numeral
