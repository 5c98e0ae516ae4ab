import ExpressionLanguage.Numeral.Float
import ExpressionLanguage.Proofs.Numeral.Signed
import ExpressionLanguage.Proofs.Scan.Legible

namespace ExpressionLanguage

namespace Numeral

/-- A fraction as it is written, and its digits. -/
inductive Fraction : List Char → List Char → Prop
  | absent : Fraction [] []
  | point {ds} : (∀ c ∈ ds, c.isDigit = true) → Fraction ('.' :: ds) ds

/-- A power of ten as it is written, and its exponent. -/
inductive Power : List Char → Int → Prop
  | absent : Power [] 0
  | marked {mark text z} : mark = 'e' ∨ mark = 'E' → Denotes text z → Power (mark :: text) z

/-- A text without a sign, and the float that it stands for. -/
inductive Magnitude : List Char → Float → Prop
  | infinity {text} : text.map Char.toLower = "inf".toList ∨
      text.map Char.toLower = "infinity".toList → Magnitude text (.ofBits 0x7FF0000000000000)
  | notANumber {text} :
      text.map Char.toLower = "nan".toList → Magnitude text (.ofBits 0x7FF8000000000000)
  | decimal {whole point fraction power z} : (∀ c ∈ whole, c.isDigit = true) →
      Fraction point fraction → whole ++ fraction ≠ [] → Power power z →
      Magnitude (whole ++ point ++ power)
        (.ofScientific (denoted (whole ++ fraction)) (z - fraction.length < 0)
          (z - fraction.length).natAbs)

inductive DenotesFloat : List Char → Float → Prop
  | unsigned {text x} : Magnitude text x → DenotesFloat text x
  | plus {text x} : Magnitude text x → DenotesFloat ('+' :: text) x
  | minus {text x} : Magnitude text x → DenotesFloat ('-' :: text) x.neg

theorem Power.isDigit_head {power : List Char} {z : Int} (h : Power power z) :
    ∀ c ∈ power.head?, c.isDigit = false ∧ c ≠ '.' := by
  cases h with
  | absent => simp
  | marked hmark _ =>
    rintro c ⟨⟩
    rcases hmark with rfl | rfl <;> decide

end Numeral

namespace Decimal

open Numeral

theorem spanDigits_append {ds rest : List Char} (hds : ∀ c ∈ ds, c.isDigit = true)
    (hrest : ∀ c ∈ rest.head?, c.isDigit = false) : spanDigits (ds ++ rest) = (ds, rest) := by
  rw [spanDigits, takeWhile_run hds hrest, dropWhile_run hds hrest]

theorem isDigit_spanDigits (text : List Char) : ∀ c ∈ (spanDigits text).1, c.isDigit = true :=
  fun _ hc => List.mem_takeWhile_imp hc

theorem spanDigits_join (text : List Char) : (spanDigits text).1 ++ (spanDigits text).2 = text :=
  List.takeWhile_append_dropWhile

theorem spanFraction_append {point fraction rest : List Char} (h : Fraction point fraction)
    (hrest : ∀ c ∈ rest.head?, c.isDigit = false ∧ c ≠ '.') :
    spanFraction (point ++ rest) = (fraction, rest) := by
  cases h with
  | point hds => exact spanDigits_append hds fun c hc => (hrest c hc).1
  | absent =>
    rw [List.nil_append]
    unfold spanFraction
    split
    · exact absurd rfl (hrest '.' rfl).2
    · rfl

theorem exists_fraction (text : List Char) :
    ∃ point, Fraction point (spanFraction text).1 ∧ point ++ (spanFraction text).2 = text := by
  unfold spanFraction
  split
  · rename_i rest
    exact ⟨'.' :: (spanDigits rest).1, .point (isDigit_spanDigits rest),
      congrArg ('.' :: ·) (spanDigits_join rest)⟩
  · exact ⟨[], .absent, rfl⟩

theorem unsigned?_eq_some_iff {ds : List Char} {n : Nat} :
    readExponent?.unsigned? ds = some n ↔
      ds ≠ [] ∧ (∀ c ∈ ds, c.isDigit = true) ∧ denoted ds = n := by
  simp [readExponent?.unsigned?, and_assoc]

theorem readExponent?_marked {mark : Char} (h : mark = 'e' ∨ mark = 'E') (text : List Char) :
    readExponent? (mark :: text) =
      (readExponent?.unsigned? (Sign.split text).2).map (Sign.split text).1.apply := by
  simp only [readExponent?, if_pos h]
  fun_cases Sign.split text with
  | case1 | case2 => rfl
  | case3 _ hminus hplus =>
    split
    · exact (hminus _ rfl).elim
    · exact (hplus _ rfl).elim
    · rfl

theorem signed_iff {text : List Char} {z : Int} :
    (readExponent?.unsigned? (Sign.split text).2).map (Sign.split text).1.apply = some z ↔
      Denotes text z := by
  rw [Option.map_eq_some_iff]
  constructor
  · rintro ⟨n, hn, hz⟩
    obtain ⟨hne, hdigits, rfl⟩ := unsigned?_eq_some_iff.mp hn
    exact ⟨⟨(Sign.split text).1, _, hne, hdigits⟩, Sign.chars_split text, hz⟩
  · rintro ⟨w, rfl, rfl⟩
    have hsplit := w.split_chars_append []
    rw [List.append_nil, List.append_nil] at hsplit
    exact ⟨_, unsigned?_eq_some_iff.mpr (by rw [hsplit]; exact ⟨w.ne_nil, w.isDigit, rfl⟩),
      by rw [hsplit]; rfl⟩

theorem readExponent?_eq_some_iff {text : List Char} {z : Int} :
    readExponent? text = some z ↔ Power text z := by
  cases text with
  | nil =>
    constructor
    · rintro ⟨⟩
      exact .absent
    · rintro ⟨⟩
      rfl
  | cons mark text =>
    constructor
    · intro h
      by_cases hmark : mark = 'e' ∨ mark = 'E'
      · rw [readExponent?_marked hmark, signed_iff] at h
        exact .marked hmark h
      · simp [readExponent?, hmark] at h
    · rintro (_ | ⟨hmark, htext⟩)
      rw [readExponent?_marked hmark, signed_iff]
      exact htext

theorem read?_eq_some_iff {text : List Char} {d : Decimal} :
    read? text = some d ↔ ∃ whole point fraction power z, (∀ c ∈ whole, c.isDigit = true) ∧
      Fraction point fraction ∧ whole ++ fraction ≠ [] ∧ Power power z ∧
      whole ++ point ++ power = text ∧
      d = ⟨denoted (whole ++ fraction), z - fraction.length⟩ := by
  constructor
  · intro h
    obtain ⟨point, hpoint, hjoin⟩ := exists_fraction (spanDigits text).2
    simp only [read?] at h
    split at h
    · cases h
    · rename_i hne
      obtain ⟨z, hz, rfl⟩ := Option.map_eq_some_iff.mp h
      refine ⟨_, point, _, _, z, isDigit_spanDigits text, hpoint, ?_,
        readExponent?_eq_some_iff.mp hz, ?_, rfl⟩
      · simpa [List.append_eq_nil_iff] using hne
      · rw [List.append_assoc, hjoin, spanDigits_join]
  · rintro ⟨whole, point, fraction, power, z, hwhole, hpoint, hne, hpower, rfl, rfl⟩
    have hfraction := spanFraction_append hpoint hpower.isDigit_head
    have hrest : ∀ c ∈ (point ++ power).head?, c.isDigit = false := by
      cases hpoint with
      | absent => exact fun c hc => (hpower.isDigit_head c hc).1
      | point _ =>
        rintro c ⟨⟩
        decide
    rw [ne_eq, List.append_eq_nil_iff] at hne
    rw [List.append_assoc]
    simp [read?, spanDigits_append hwhole hrest, hfraction, hne,
      readExponent?_eq_some_iff.mpr hpower]

end Decimal

namespace Numeral

theorem toLower_eq_self {c : Char} (h : c.isDigit = true ∨ c = '.') : c.toLower = c := by
  rcases h with h | rfl
  · simp only [Char.isDigit, Bool.and_eq_true, decide_eq_true_eq, ge_iff_le] at h
    have hnine : ¬ 'A'.val ≤ '9'.val := by decide
    have hletter : ¬ (c.val ≥ 'A'.val ∧ c.val ≤ 'Z'.val) :=
      fun hc => hnine (UInt32.le_trans hc.1 h.2)
    exact dif_neg hletter
  · rfl

theorem decimal_head {whole point fraction : List Char} (hwhole : ∀ c ∈ whole, c.isDigit = true)
    (hpoint : Fraction point fraction) (hne : whole ++ fraction ≠ []) (power : List Char) :
    ∃ c rest, whole ++ point ++ power = c :: rest ∧ (c.isDigit = true ∨ c = '.') := by
  cases whole with
  | cons c whole => exact ⟨c, _, rfl, .inl (hwhole c (by simp))⟩
  | nil =>
    cases hpoint with
    | absent => exact absurd rfl hne
    | point _ => exact ⟨'.', _, rfl, .inr rfl⟩

theorem Magnitude.head {text : List Char} {x : Float} (h : Magnitude text x) :
    ∃ c rest, text = c :: rest ∧ c ≠ '-' ∧ c ≠ '+' := by
  have hnamed {c : Char} {name : List Char} (hc : c.isAlpha = true)
      (hname : text.map Char.toLower = c :: name) :
      ∃ c rest, text = c :: rest ∧ c ≠ '-' ∧ c ≠ '+' := by
    cases text with
    | nil => cases hname
    | cons d rest =>
      obtain ⟨rfl, -⟩ := List.cons.inj hname
      refine ⟨d, rest, rfl, ?_, ?_⟩ <;> rintro rfl <;> exact absurd hc (by decide)
  cases h with
  | infinity hname => exact hname.elim (hnamed rfl) (hnamed rfl)
  | notANumber hname => exact hnamed rfl hname
  | decimal hwhole hpoint hne _ =>
    obtain ⟨c, rest, htext, hc⟩ := decimal_head hwhole hpoint hne _
    refine ⟨c, rest, htext, ?_, ?_⟩ <;> rintro rfl <;> exact absurd hc (by decide)

theorem readUnsignedFloat?_eq_some_iff {text : List Char} {x : Float} :
    readUnsignedFloat? text = some x ↔ Magnitude text x := by
  simp only [readUnsignedFloat?]
  constructor
  · intro h
    split at h
    · rename_i hname
      obtain rfl := Option.some.inj h
      exact .infinity hname
    · split at h
      · rename_i hname
        obtain rfl := Option.some.inj h
        exact .notANumber hname
      · obtain ⟨d, hd, rfl⟩ := Option.map_eq_some_iff.mp h
        obtain ⟨whole, point, fraction, power, z, hwhole, hpoint, hne, hpower, rfl, rfl⟩ :=
          Decimal.read?_eq_some_iff.mp hd
        exact .decimal hwhole hpoint hne hpower
  · intro h
    cases h with
    | infinity hname => exact if_pos hname
    | notANumber hname => simp [hname, notANumber]
    | decimal hwhole hpoint hne hpower =>
      obtain ⟨c, rest, htext, hc⟩ := decimal_head hwhole hpoint hne _
      have hread := Decimal.read?_eq_some_iff.mpr
        ⟨_, _, _, _, _, hwhole, hpoint, hne, hpower, rfl, rfl⟩
      have hletter : ¬ (c = 'i' ∨ c = 'n') := by
        rintro (rfl | rfl) <;> exact absurd hc (by decide)
      rw [not_or] at hletter
      rw [hread]
      rw [htext, List.map_cons, toLower_eq_self hc]
      simp [hletter, Decimal.toFloat]

theorem readFloat?_eq_some_iff {text : List Char} {x : Float} :
    readFloat? text = some x ↔ DenotesFloat text x := by
  unfold readFloat?
  split
  · rename_i rest
    rw [Option.map_eq_some_iff]
    constructor
    · rintro ⟨y, hy, rfl⟩
      exact .minus (readUnsignedFloat?_eq_some_iff.mp hy)
    · intro h
      cases h with
      | minus h => exact ⟨_, readUnsignedFloat?_eq_some_iff.mpr h, rfl⟩
      | unsigned h =>
        obtain ⟨c, _, hc, hne, -⟩ := h.head
        exact absurd (List.cons.inj hc).1.symm hne
  · rename_i rest
    rw [readUnsignedFloat?_eq_some_iff]
    constructor
    · exact .plus
    · intro h
      cases h with
      | plus h => exact h
      | unsigned h =>
        obtain ⟨c, _, hc, -, hne⟩ := h.head
        exact absurd (List.cons.inj hc).1.symm hne
  · rename_i hminus hplus
    rw [readUnsignedFloat?_eq_some_iff]
    constructor
    · exact .unsigned
    · intro h
      cases h with
      | unsigned h => exact h
      | plus _ => exact (hplus _ rfl).elim
      | minus _ => exact (hminus _ rfl).elim

theorem readFloat?_point {whole fraction : List Char} (hne : whole ≠ [])
    (hwhole : ∀ c ∈ whole, c.isDigit = true) (hfraction : ∀ c ∈ fraction, c.isDigit = true) :
    (readFloat? (whole ++ '.' :: fraction)).isSome = true := by
  have hmagnitude := Magnitude.decimal hwhole (.point hfraction) (by simp [hne]) .absent
  rw [List.append_nil] at hmagnitude
  rw [readFloat?_eq_some_iff.mpr (.unsigned hmagnitude)]
  rfl

end Numeral

end ExpressionLanguage
