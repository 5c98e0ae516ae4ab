import ExpressionLanguage.Proofs.Numeral.Integer

namespace ExpressionLanguage.Numeral

section Accumulate

variable {limit sum n : Nat} {ds : List Char}

theorem accumulate_append (ds rest : List Char) :
    accumulate limit sum (ds ++ rest) =
      (accumulate limit sum ds).bind fun next => accumulate limit next rest := by
  fun_induction accumulate limit sum ds with
  | case1 => rfl
  | case2 sum c ds hc next hle ih =>
    rw [List.cons_append, accumulate, if_pos hc, if_pos hle]
    exact ih
  | case3 sum c ds hc next hlt =>
    rw [List.cons_append, accumulate, if_pos hc, if_neg hlt]
    rfl
  | case4 sum c ds hc =>
    rw [List.cons_append, accumulate, if_neg hc]
    rfl

theorem digits_of_accumulate (h : accumulate limit sum ds = .ok n) :
    (∀ c ∈ ds, c.isDigit = true) ∧ Nat.ofDigitChars 10 ds sum = n := by
  fun_induction accumulate limit sum ds with
  | case1 sum => exact ⟨by simp, Except.ok.inj h⟩
  | case2 sum c rest hc next _ ih =>
    obtain ⟨hrest, hvalue⟩ := ih h
    exact ⟨by simpa [hc] using hrest, by rwa [Nat.ofDigitChars_cons]⟩
  | case3 | case4 => cases h

theorem accumulate_eq_ok_iff (hsum : sum ≤ limit) :
    accumulate limit sum ds = .ok n ↔
      (∀ c ∈ ds, c.isDigit = true) ∧ Nat.ofDigitChars 10 ds sum = n ∧ n ≤ limit := by
  constructor
  · intro h
    obtain ⟨hd, hvalue⟩ := digits_of_accumulate h
    exact ⟨hd, hvalue, accumulate_le hsum h⟩
  · rintro ⟨hd, rfl, hle⟩
    exact accumulate_ofDigitChars hd hle

-- the run ends with the first digit that takes the sum over the limit
theorem run_of_accumulate (h : accumulate limit sum ds = .error .tooLarge) :
    ∃ run rest, run ++ rest = ds ∧ (∀ c ∈ run, c.isDigit = true) ∧
      limit < Nat.ofDigitChars 10 run sum := by
  fun_induction accumulate limit sum ds with
  | case1 | case4 => cases h
  | case2 sum c rest hc next _ ih =>
    obtain ⟨run, tail, rfl, hrun, hlt⟩ := ih h
    exact ⟨c :: run, tail, rfl, by simpa [hc] using hrun, by rwa [Nat.ofDigitChars_cons]⟩
  | case3 sum c rest hc next hlt =>
    refine ⟨[c], rest, rfl, by simpa using hc, ?_⟩
    rw [Nat.ofDigitChars_cons, Nat.ofDigitChars_nil]
    exact Nat.lt_of_not_le hlt

theorem accumulate_eq_tooLarge_iff (hsum : sum ≤ limit) :
    accumulate limit sum ds = .error .tooLarge ↔
      ∃ run rest, run ++ rest = ds ∧ (∀ c ∈ run, c.isDigit = true) ∧
        limit < Nat.ofDigitChars 10 run sum := by
  constructor
  · exact run_of_accumulate
  · rintro ⟨run, rest, rfl, hrun, hlt⟩
    rw [accumulate_append, accumulate_tooLarge hrun hsum hlt]
    rfl

end Accumulate

theorem readDigits_eq_ok_iff {limit n : Nat} {ds : List Char} :
    readDigits limit ds = .ok n ↔
      ds ≠ [] ∧ (∀ c ∈ ds, c.isDigit = true) ∧ denoted ds = n ∧ n ≤ limit := by
  unfold readDigits
  split
  · simp_all
  · rename_i hne
    rw [accumulate_eq_ok_iff (Nat.zero_le limit)]
    simp [hne, denoted]

theorem readDigits_eq_tooLarge_iff {limit : Nat} {ds : List Char} :
    readDigits limit ds = .error .tooLarge ↔
      ∃ run rest, run ++ rest = ds ∧ (∀ c ∈ run, c.isDigit = true) ∧ limit < denoted run := by
  unfold readDigits
  split
  · rename_i hnil
    subst hnil
    simp [denoted]
  · exact accumulate_eq_tooLarge_iff (Nat.zero_le limit)

inductive Sign where
  | unsigned | plus | minus
deriving DecidableEq, Repr

namespace Sign

def chars : Sign → List Char
  | unsigned => []
  | plus => ['+']
  | minus => ['-']

def apply : Sign → Nat → Int
  | minus, n => -n
  | _, n => n

def limit : Sign → Nat
  | minus => negativeLimit
  | _ => positiveLimit

def ofInt (z : Int) : Sign :=
  if z < 0 then minus else unsigned

theorem apply_ofInt (z : Int) : (ofInt z).apply z.natAbs = z := by
  unfold ofInt
  split <;> simp only [apply] <;> omega

def split : List Char → Sign × List Char
  | '-' :: rest => (minus, rest)
  | '+' :: rest => (plus, rest)
  | ds => (unsigned, ds)

theorem chars_split (text : List Char) : (split text).1.chars ++ (split text).2 = text := by
  unfold split
  split <;> rfl

theorem split_chars (sign : Sign) {ds : List Char} (hd : ∀ c ∈ ds.head?, c.isDigit = true) :
    split (sign.chars ++ ds) = (sign, ds) := by
  cases sign with
  | plus | minus => rfl
  | unsigned =>
    rw [chars, List.nil_append]
    unfold split
    split
    · exact absurd (hd '-' rfl) (by decide)
    · exact absurd (hd '+' rfl) (by decide)
    · rfl

end Sign

def Within (z : Int) : Prop :=
  -9223372036854775808 ≤ z ∧ z ≤ 9223372036854775807

instance : DecidablePred Within :=
  fun z => inferInstanceAs (Decidable (-9223372036854775808 ≤ z ∧ z ≤ 9223372036854775807))

theorem within_toInt (n : Int64) : Within n.toInt :=
  ⟨n.le_toInt, Int.le_sub_one_of_lt n.toInt_lt⟩

theorem toInt_ofInt_of_within {z : Int} (h : Within z) : (Int64.ofInt z).toInt = z :=
  Int64.toInt_ofInt_of_le h.1 (Int.lt_of_le_sub_one h.2)

theorem within_apply_iff (sign : Sign) (n : Nat) : Within (sign.apply n) ↔ n ≤ sign.limit := by
  have hpositive : positiveLimit = 2 ^ 63 - 1 := rfl
  have hnegative : negativeLimit = 2 ^ 63 := rfl
  cases sign <;> simp only [Within, Sign.apply, Sign.limit] <;> omega

structure Signed where
  sign : Sign
  digits : List Char
  ne_nil : digits ≠ []
  isDigit : ∀ c ∈ digits, c.isDigit = true

namespace Signed

def chars (w : Signed) : List Char :=
  w.sign.chars ++ w.digits

def value (w : Signed) : Int :=
  w.sign.apply (denoted w.digits)

theorem split_chars_append (w : Signed) (tail : List Char) :
    Sign.split (w.chars ++ tail) = (w.sign, w.digits ++ tail) := by
  rw [chars, List.append_assoc]
  apply Sign.split_chars
  obtain ⟨d, ds, hdigits⟩ := List.exists_cons_of_ne_nil w.ne_nil
  have hd := w.isDigit d (by simp [hdigits])
  simpa [hdigits] using hd

end Signed

def Denotes (text : List Char) (z : Int) : Prop :=
  ∃ w : Signed, w.chars = text ∧ w.value = z

/-- The text starts with a signed numeral that 64 bits cannot hold; anything may follow. -/
def Overflows (text : List Char) : Prop :=
  ∃ (w : Signed) (tail : List Char), w.chars ++ tail = text ∧ ¬ Within w.value

theorem readInteger_eq (text : List Char) :
    readInteger text =
      (readDigits (Sign.split text).1.limit (Sign.split text).2).map fun n =>
        Int64.ofInt ((Sign.split text).1.apply n) := by
  unfold readInteger Sign.split
  split
  · rename_i rest
    -- below zero the digits are cast to an `Int` before the function is mapped over them
    change _ = (readDigits negativeLimit rest).map fun n : Nat => Int64.ofInt (-n)
    cases readDigits negativeLimit rest <;> rfl
  · simp [Sign.limit, Sign.apply, Int64.ofInt_eq_ofNat]
  · simp [Sign.limit, Sign.apply, Int64.ofInt_eq_ofNat]

section Reading

variable {text : List Char}

theorem readInteger_eq_ok_iff {n : Int64} : readInteger text = .ok n ↔ Denotes text n.toInt := by
  constructor
  · intro h
    rw [readInteger_eq] at h
    cases hread : readDigits (Sign.split text).1.limit (Sign.split text).2 with
    | error fault => simp [hread, Except.map] at h
    | ok m =>
      obtain rfl : Int64.ofInt ((Sign.split text).1.apply m) = n := by
        simpa [hread, Except.map] using h
      obtain ⟨hne, hd, rfl, hle⟩ := readDigits_eq_ok_iff.mp hread
      have hwithin := (within_apply_iff _ _).mpr hle
      exact ⟨⟨_, _, hne, hd⟩, Sign.chars_split text, (toInt_ofInt_of_within hwithin).symm⟩
  · rintro ⟨w, rfl, hvalue⟩
    have hwithin : Within w.value := hvalue ▸ within_toInt n
    have hle := (within_apply_iff _ _).mp hwithin
    have hread := readDigits_eq_ok_iff.mpr ⟨w.ne_nil, w.isDigit, rfl, hle⟩
    have hsplit := w.split_chars_append []
    rw [List.append_nil, List.append_nil] at hsplit
    have hn : Int64.ofInt (w.sign.apply (denoted w.digits)) = n := by
      rw [← Int64.ofInt_toInt n, ← hvalue]
      rfl
    simp [readInteger_eq, hsplit, hread, Except.map, hn]

theorem readInteger_eq_tooLarge_iff : readInteger text = .error .tooLarge ↔ Overflows text := by
  constructor
  · intro h
    rw [readInteger_eq] at h
    cases hread : readDigits (Sign.split text).1.limit (Sign.split text).2 with
    | ok m => simp [hread, Except.map] at h
    | error fault =>
      obtain rfl : fault = .tooLarge := by simpa [hread, Except.map] using h
      obtain ⟨run, tail, hsplit, hrun, hlt⟩ := readDigits_eq_tooLarge_iff.mp hread
      have hne : run ≠ [] := by
        rintro rfl
        simp [denoted] at hlt
      refine ⟨⟨(Sign.split text).1, run, hne, hrun⟩, tail, ?_, ?_⟩
      · rw [Signed.chars, List.append_assoc, hsplit, Sign.chars_split]
      · rw [Signed.value, within_apply_iff]
        exact Nat.not_le_of_lt hlt
  · rintro ⟨w, tail, rfl, hbeyond⟩
    rw [Signed.value, within_apply_iff] at hbeyond
    have hread := readDigits_eq_tooLarge_iff.mpr
      ⟨w.digits, tail, rfl, w.isDigit, Nat.lt_of_not_le hbeyond⟩
    simp [readInteger_eq, w.split_chars_append tail, hread, Except.map]

theorem exists_denotes_within_iff :
    (∃ z, Denotes text z ∧ Within z) ↔ ∃ n, readInteger text = .ok n := by
  constructor
  · rintro ⟨z, hz, hwithin⟩
    refine ⟨Int64.ofInt z, readInteger_eq_ok_iff.mpr ?_⟩
    rwa [toInt_ofInt_of_within hwithin]
  · rintro ⟨n, hn⟩
    exact ⟨n.toInt, readInteger_eq_ok_iff.mp hn, within_toInt n⟩

theorem readInteger_eq_malformed_iff :
    readInteger text = .error .malformed ↔
      (¬ ∃ z, Denotes text z ∧ Within z) ∧ ¬ Overflows text := by
  rw [exists_denotes_within_iff, ← readInteger_eq_tooLarge_iff]
  cases readInteger text with
  | ok n => simp
  | error fault => cases fault <;> simp

end Reading

theorem denotes_digits (sign : Sign) (n : Nat) : Denotes (sign.chars ++ digits n) (sign.apply n) :=
  ⟨⟨sign, digits n, digits_ne_nil n, fun _ => isDigit_of_mem_digits⟩, rfl,
    congrArg sign.apply (denoted_digits n)⟩

theorem toList_integerText (n : Int64) :
    (integerText n).toList = (Sign.ofInt n.toInt).chars ++ digits n.toInt.natAbs := by
  unfold integerText Sign.ofInt
  split <;> simp [toList_text, Sign.chars]

theorem denotes_integerText (n : Int64) : Denotes (integerText n).toList n.toInt := by
  have hdenotes := denotes_digits (Sign.ofInt n.toInt) n.toInt.natAbs
  rwa [Sign.apply_ofInt, ← toList_integerText] at hdenotes

end ExpressionLanguage.Numeral
