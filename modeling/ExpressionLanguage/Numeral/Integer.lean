namespace ExpressionLanguage.Numeral

def digits (n : Nat) : List Char :=
  Nat.toDigits 10 n

theorem isDigit_of_mem_digits {n : Nat} {c : Char} (h : c ∈ digits n) : c.isDigit = true :=
  Nat.isDigit_of_mem_toDigits (by decide) (by decide) h

theorem digits_ne_nil (n : Nat) : digits n ≠ [] :=
  Nat.toDigits_ne_nil

def denoted (ds : List Char) : Nat :=
  Nat.ofDigitChars 10 ds 0

theorem denoted_digits (n : Nat) : denoted (digits n) = n :=
  Nat.ofDigitChars_ten_toDigits

def text (n : Nat) : String :=
  String.ofList (digits n)

theorem toList_text (n : Nat) : (text n).toList = digits n :=
  String.toList_ofList

def integerText (n : Int64) : String :=
  if n.toInt < 0 then "-" ++ text n.toInt.natAbs else text n.toInt.natAbs

inductive Fault where
  | tooLarge
  | malformed
deriving DecidableEq, Repr

def accumulate (limit : Nat) : Nat → List Char → Except Fault Nat
  | sum, [] => .ok sum
  | sum, c :: rest =>
      if c.isDigit then
        let next := 10 * sum + (c.toNat - '0'.toNat)
        if next ≤ limit then accumulate limit next rest else .error .tooLarge
      else .error .malformed

def readDigits (limit : Nat) (ds : List Char) : Except Fault Nat :=
  if ds = [] then .error .malformed else accumulate limit 0 ds

def positiveLimit : Nat := Nat.pow 2 63 - 1

def negativeLimit : Nat := Nat.pow 2 63

def readInteger : List Char → Except Fault Int64
  | '-' :: rest => (readDigits negativeLimit rest).map fun n => Int64.ofInt (-n)
  | '+' :: rest => (readDigits positiveLimit rest).map Int64.ofNat
  | ds => (readDigits positiveLimit ds).map Int64.ofNat

theorem accumulate_le {limit sum n : Nat} {ds : List Char} (hs : sum ≤ limit)
    (h : accumulate limit sum ds = .ok n) : n ≤ limit := by
  induction ds generalizing sum with
  | nil =>
      simp only [accumulate, Except.ok.injEq] at h
      omega
  | cons c rest ih =>
      simp only [accumulate] at h
      split at h
      · split at h
        · rename_i hle
          exact ih hle h
        · simp at h
      · simp at h

theorem accumulate_ofDigitChars {limit sum : Nat} {ds : List Char}
    (hd : ∀ c ∈ ds, c.isDigit = true) (hl : Nat.ofDigitChars 10 ds sum ≤ limit) :
    accumulate limit sum ds = .ok (Nat.ofDigitChars 10 ds sum) := by
  induction ds generalizing sum with
  | nil => simp [accumulate]
  | cons c rest ih =>
      rw [Nat.ofDigitChars_cons] at hl ⊢
      have hle : 10 * sum + (c.toNat - '0'.toNat) ≤ limit := by
        rw [Nat.ofDigitChars_eq_ofDigitChars_zero] at hl
        have hpos : 1 ≤ 10 ^ rest.length := Nat.pow_pos (by decide)
        calc 10 * sum + (c.toNat - '0'.toNat)
            = 1 * (10 * sum + (c.toNat - '0'.toNat)) := (Nat.one_mul _).symm
          _ ≤ 10 ^ rest.length * (10 * sum + (c.toNat - '0'.toNat)) := Nat.mul_le_mul_right _ hpos
          _ ≤ limit := Nat.le_trans (Nat.le_add_right _ _) hl
      rw [accumulate, if_pos (hd c (by simp)), if_pos hle]
      exact ih (fun x hx => hd x (by simp [hx])) hl

end ExpressionLanguage.Numeral
