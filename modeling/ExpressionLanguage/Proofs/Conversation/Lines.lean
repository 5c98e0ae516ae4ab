import ExpressionLanguage.Conversation.Delivery
import Mathlib.Data.List.Forall2
import Mathlib.Data.List.TakeWhile

/-!
Lines of bytes and lines of text. Input comes as bytes that are cut at line feeds; no other
character has the byte of a line feed in its encoding, so the lines of an encoded text are the
encoded lines of the text, but for the carriage returns in front of line feeds, which are trimmed
anyway.
-/

namespace ExpressionLanguage

theorem encode_eq_flatMap (s : String) : encode s = s.toList.flatMap String.utf8EncodeChar := by
  rw [encode, String.toUTF8_eq_toByteArray, ← String.utf8Encode_toList, List.utf8Encode,
    List.toList_data_toByteArray]

@[simp] theorem encode_empty : encode "" = [] := by
  rw [encode_eq_flatMap]
  rfl

@[simp] theorem encode_append (a b : String) : encode (a ++ b) = encode a ++ encode b := by
  simp [encode_eq_flatMap]

theorem le_of_mem_utf8EncodeChar {c : Char} (h : 127 < c.toNat) :
    ∀ b ∈ String.utf8EncodeChar c, 128 ≤ b.toNat := by
  fun_cases String.utf8EncodeChar with
  | case1 v hv => exact absurd h (Nat.not_lt.mpr hv)
  | case2 v _ hv => simp; omega
  | case3 v _ _ hv => simp; omega
  | case4 v _ _ hv => simp; omega

theorem eq_lineFeed_of_mem {c : Char} (h : 10 ∈ String.utf8EncodeChar c) : c = '\n' := by
  by_cases hc : 127 < c.toNat
  · exact absurd (le_of_mem_utf8EncodeChar hc 10 h) (by decide)
  · have hle : c.toNat ≤ 127 := Nat.not_lt.mp hc
    have hmod : 10 = c.toNat % 256 := by
      simpa [String.utf8EncodeChar, hle, ← UInt8.toNat_inj] using h
    have hten : c.toNat = '\n'.toNat := (Nat.mod_eq_of_lt (by omega)).symm.trans hmod.symm
    exact Char.toNat_inj.mp hten

theorem lineFeed_not_mem_encode {s : String} (h : '\n' ∉ s.toList) : 10 ∉ encode s := by
  rw [encode_eq_flatMap]
  intro hmem
  obtain ⟨c, hc, hten⟩ := List.mem_flatMap.mp hmem
  exact h (eq_lineFeed_of_mem hten ▸ hc)

namespace Text

def extendFirst {α : Type} (xs : List α) : List (List α) → List (List α)
  | [] => [xs]
  | first :: later => (xs ++ first) :: later

theorem extendFirst_extendFirst {α : Type} (xs ys : List α) (lines : List (List α)) :
    extendFirst xs (extendFirst ys lines) = extendFirst (xs ++ ys) lines := by
  cases lines <;> simp [extendFirst]

def lines : List Char → List (List Char)
  | [] => []
  | '\n' :: rest => [] :: lines rest
  | '\r' :: '\n' :: rest => [] :: lines rest
  | c :: rest => extendFirst [c] (lines rest)

theorem lines_cons {c : Char} {rest : List Char} (hfeed : c ≠ '\n')
    (hreturn : c = '\r' → rest.head? ≠ some '\n') :
    lines (c :: rest) = extendFirst [c] (lines rest) := by
  rw [lines]
  · exact hfeed
  · rintro after rfl rfl
    exact hreturn rfl rfl

theorem lines_ne_nil {text : List Char} (h : text ≠ []) : lines text ≠ [] := by
  fun_cases lines text with
  | case1 => exact absurd rfl h
  | case2 rest => simp
  | case3 rest => simp
  | case4 c rest => cases lines rest <;> simp [extendFirst]

theorem lines_append {a : List Char} (h : ∀ c ∈ a.getLast?, c = '\n') (b : List Char) :
    lines (a ++ b) = lines a ++ lines b := by
  have hrest {c : Char} {rest : List Char} (h : ∀ x ∈ (c :: rest).getLast?, x = '\n') :
      ∀ x ∈ rest.getLast?, x = '\n' := by
    intro x hx
    refine h x ?_
    rw [List.getLast?_cons, Option.mem_def.mp hx]
    rfl
  fun_induction lines a with
  | case1 => rfl
  | case2 rest ih => rw [List.cons_append, lines, ih (hrest h), List.cons_append]
  | case3 rest ih =>
    rw [List.cons_append, List.cons_append, lines, ih (hrest (hrest h)), List.cons_append]
  | case4 c rest hfeed hreturn ih =>
    -- the text goes on behind `c`, since it ends with a line feed
    cases rest with
    | nil => exact absurd (h c rfl) hfeed
    | cons d rest =>
      rw [List.cons_append, lines_cons hfeed, ih (hrest h)]
      · cases hlines : lines (d :: rest) with
        | nil => exact absurd hlines (lines_ne_nil (by simp))
        | cons first later => rfl
      · intro hc hd
        obtain rfl : d = '\n' := by simpa using hd
        exact hreturn rest hc rfl

theorem lines_ended {line : List Char} (h : '\n' ∉ line) :
    ∃ kept, lines (line ++ ['\n']) = [kept] ∧ (line = kept ∨ line = kept ++ ['\r']) := by
  induction line with
  | nil => exact ⟨[], by simp [lines], .inl rfl⟩
  | cons c line ih =>
    obtain ⟨hc, hline⟩ := not_or.mp (mt List.mem_cons.mpr h)
    obtain ⟨kept, hkept, hends⟩ := ih hline
    by_cases hreturn : c = '\r' ∧ line = []
    · obtain ⟨rfl, rfl⟩ := hreturn
      exact ⟨[], by simp [lines], .inr rfl⟩
    · refine ⟨c :: kept, ?_, ?_⟩
      · rw [List.cons_append, lines_cons (Ne.symm hc), hkept]
        · rfl
        · intro hc' hhead
          cases line with
          | nil => exact hreturn ⟨hc', rfl⟩
          | cons d line =>
            obtain rfl : d = '\n' := by simpa using hhead
            exact hline (by simp)
      · rcases hends with rfl | rfl
        · exact .inl rfl
        · exact .inr rfl

theorem trim_append_blank (text : List Char) {blanks : List Char}
    (h : ∀ c ∈ blanks, isBlank c = true) : trim (text ++ blanks) = trim text := by
  have hreverse : ∀ c ∈ blanks.reverse, isBlank c = true := by simpa using h
  have hdrop : blanks.dropWhile isBlank = [] := List.dropWhile_eq_nil_iff.mpr h
  unfold trim
  rw [List.dropWhile_append]
  split
  · rename_i hempty
    rw [hdrop, List.isEmpty_iff.mp hempty]
  · rw [List.reverse_append, List.dropWhile_append_of_pos hreverse]

end Text

def linesOf (text : String) : List String :=
  (Text.lines text.toList).map String.ofList

theorem linesOf_append {a : String} (h : ∀ c ∈ a.toList.getLast?, c = '\n') (b : String) :
    linesOf (a ++ b) = linesOf a ++ linesOf b := by
  simp [linesOf, Text.lines_append h]

def trimmed (line : String) : String :=
  String.ofList (Text.trim line.toList)

theorem isBlank_return : ∀ c ∈ ['\r'], Text.isBlank c = true :=
  List.all_eq_true.mp (by decide)

theorem linesOf_ended {line : String} (h : '\n' ∉ line.toList) :
    ∃ kept, linesOf (line ++ "\n") = [kept] ∧ trimmed kept = trimmed line := by
  obtain ⟨kept, hlines, hends⟩ := Text.lines_ended h
  refine ⟨String.ofList kept, ?_, ?_⟩
  · have hfeed : "\n".toList = ['\n'] := rfl
    rw [linesOf, String.toList_append, hfeed, hlines]
    rfl
  · rw [trimmed, trimmed, String.toList_ofList]
    rcases hends with hline | hline
    · rw [hline]
    · rw [hline, Text.trim_append_blank _ isBlank_return]

namespace InputLine

open Text (extendFirst)

theorem ofBytes_eq_text_iff {bytes : List UInt8} {s : String} :
    ofBytes bytes = .text s ↔ encode s = bytes := by
  have hbytes : encode s = bytes ↔ s.toByteArray = ⟨bytes.toArray⟩ := by
    rw [encode, String.toUTF8_eq_toByteArray]
    constructor
    · rintro rfl
      rfl
    · intro h
      rw [h]
  rw [hbytes]
  unfold ofBytes String.fromUTF8?
  split
  · rename_i s' hs
    split at hs
    · obtain rfl := Option.some.inj hs
      rw [text.injEq, ← String.toByteArray_inj, String.fromUTF8]
      exact eq_comm
    · cases hs
  · rename_i hs
    split at hs
    · cases hs
    · rename_i hvalid
      refine ⟨nofun, ?_⟩
      intro h
      exact absurd (h ▸ s.isValidUTF8) hvalid

theorem ofBytes_encode (s : String) : ofBytes (encode s) = .text s :=
  ofBytes_eq_text_iff.mpr rfl

theorem encode_injective {a b : String} (h : encode a = encode b) : a = b := by
  have htext := ofBytes_encode a
  rw [h, ofBytes_encode] at htext
  exact (InputLine.text.inj htext).symm

theorem ofBytes_eq_invalid_iff {bytes : List UInt8} :
    ofBytes bytes = .invalid ↔ ∀ s, encode s ≠ bytes := by
  cases h : ofBytes bytes with
  | text s => simpa using ⟨s, ofBytes_eq_text_iff.mp h⟩
  | invalid =>
    refine ⟨?_, fun _ => rfl⟩
    intro _ s hs
    rw [ofBytes_eq_text_iff.mpr hs] at h
    cases h

theorem cut_cons_of_ne {b : UInt8} (h : b ≠ 10) (rest : List UInt8) :
    cut (b :: rest) = extendFirst [b] (cut rest) := by
  rw [cut, if_neg h]
  cases cut rest <;> rfl

theorem cut_append_of_not_mem {xs : List UInt8} (hne : xs ≠ []) (h : 10 ∉ xs)
    (rest : List UInt8) : cut (xs ++ rest) = extendFirst xs (cut rest) := by
  induction xs with
  | nil => exact absurd rfl hne
  | cons b xs ih =>
    obtain ⟨hb, hxs⟩ := not_or.mp (mt List.mem_cons.mpr h)
    rw [List.cons_append, cut_cons_of_ne (Ne.symm hb)]
    cases xs with
    | nil => rfl
    | cons x xs => rw [ih (by simp) hxs, Text.extendFirst_extendFirst, List.singleton_append]

theorem cut_append_ended {a : List UInt8} (h : ∀ x ∈ a.getLast?, x = 10) (b : List UInt8) :
    cut (a ++ b) = cut a ++ cut b := by
  induction a with
  | nil => rfl
  | cons x a ih =>
    have hrest : ∀ y ∈ a.getLast?, y = 10 := by
      intro y hy
      refine h y ?_
      rw [List.getLast?_cons, Option.mem_def.mp hy]
      rfl
    by_cases hx : x = 10
    · rw [hx, List.cons_append, cut_lineFeed, cut_lineFeed, ih hrest, List.cons_append]
    · rw [List.cons_append, cut_cons_of_ne hx, cut_cons_of_ne hx, ih hrest]
      cases a with
      | nil => exact absurd (h x rfl) hx
      | cons y a =>
        cases hcut : cut (y :: a) with
        | nil =>
          -- a byte always stands in some line
          unfold cut at hcut
          split at hcut
          · cases hcut
          · split at hcut <;> cases hcut
        | cons first later => rfl

def Spells (bytes : List UInt8) (line : List Char) : Prop :=
  bytes = line.flatMap String.utf8EncodeChar ∨
    bytes = (line ++ ['\r']).flatMap String.utf8EncodeChar

theorem Spells.cons {bytes : List UInt8} {line : List Char} (h : Spells bytes line) (c : Char) :
    Spells (String.utf8EncodeChar c ++ bytes) (c :: line) := by
  rcases h with rfl | rfl
  · exact .inl rfl
  · exact .inr rfl

theorem Spells.extendFirst {xs : List (List UInt8)} {ys : List (List Char)}
    (h : List.Forall₂ Spells xs ys) (c : Char) :
    List.Forall₂ Spells (extendFirst (String.utf8EncodeChar c) xs) (extendFirst [c] ys) := by
  cases h with
  | nil => exact .cons (.inl (by simp)) .nil
  | cons hfirst hlater => exact .cons (hfirst.cons c) hlater

theorem cut_encoded (text : List Char) :
    List.Forall₂ Spells (cut (text.flatMap String.utf8EncodeChar)) (Text.lines text) := by
  fun_induction Text.lines text with
  | case1 => exact .nil
  | case2 rest ih =>
    have hcut : cut (10 :: rest.flatMap String.utf8EncodeChar) = _ := cut_lineFeed _
    exact hcut ▸ .cons (.inl rfl) ih
  | case3 rest ih =>
    have hcut : cut ([13] ++ 10 :: rest.flatMap String.utf8EncodeChar) = _ :=
      cut_append (by simp) _
    exact hcut ▸ .cons (.inr rfl) ih
  | case4 c rest hfeed _ ih =>
    have hten : 10 ∉ String.utf8EncodeChar c := fun hmem => hfeed (eq_lineFeed_of_mem hmem)
    rw [List.flatMap_cons, cut_append_of_not_mem String.utf8EncodeChar_ne_nil hten]
    exact Spells.extendFirst ih c

end InputLine

namespace Transcript

def ofBytes (input : List UInt8) : Transcript :=
  ofLines (InputLine.split input)

theorem turn_eq_of_trim {a b : String} (h : Text.trim a.toList = Text.trim b.toList) :
    turn (.text a) = turn (.text b) := by
  simp only [turn, h]

theorem turn_of_spells {bytes : List UInt8} {line : List Char}
    (h : InputLine.Spells bytes line) :
    turn (.ofBytes bytes) = turn (.text (String.ofList line)) := by
  rcases h with rfl | rfl
  · have hbytes : encode (String.ofList line) = line.flatMap String.utf8EncodeChar := by
      rw [encode_eq_flatMap, String.toList_ofList]
    rw [← hbytes, InputLine.ofBytes_encode]
  · have hbytes : encode (String.ofList (line ++ ['\r'])) =
        (line ++ ['\r']).flatMap String.utf8EncodeChar := by
      rw [encode_eq_flatMap, String.toList_ofList]
    rw [← hbytes, InputLine.ofBytes_encode]
    refine turn_eq_of_trim ?_
    rw [String.toList_ofList, String.toList_ofList, Text.trim_append_blank _ isBlank_return]

theorem converse_congr {xs ys : List InputLine}
    (h : List.Forall₂ (fun a b => turn a = turn b) xs ys) : converse xs = converse ys := by
  induction h with
  | nil => rfl
  | cons hturn _ ih => simp only [converse, hturn, ih]

theorem ofBytes_encode (text : String) :
    ofBytes (encode text) = ofLines ((linesOf text).map .text) := by
  have hcut := InputLine.cut_encoded text.toList
  have hturns : List.Forall₂ (fun a b => turn a = turn b) (InputLine.split (encode text))
      ((linesOf text).map .text) := by
    rw [InputLine.split, linesOf, encode_eq_flatMap, List.map_map, List.forall₂_map_left_iff,
      List.forall₂_map_right_iff]
    exact hcut.imp fun _ _ => turn_of_spells
  simp only [ofBytes, ofLines, converse_congr hturns]

end Transcript

def Delivery.ofBytes (input : List UInt8) (sink : Sink) : Delivery :=
  (Transcript.ofBytes input).deliver sink

end ExpressionLanguage
