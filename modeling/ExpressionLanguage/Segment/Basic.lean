import ExpressionLanguage.Text.Letter
import ExpressionLanguage.Text.Number
import ExpressionLanguage.Text.WhiteSpace
import ExpressionLanguage.Token.Kind

namespace ExpressionLanguage

open Text

inductive Segment where
  | blank (run : List Char)
  | text (body : List Char)
  | openText (body : List Char)
  | integer (digits : List Char)
  | float (whole fraction : List Char)
  | word (name : List Char)
  | symbol (s : Symbol)
  | stray (c : Char)
deriving DecidableEq, Repr

namespace Segment

def chars : Segment → List Char
  | blank run => run
  | text body => '"' :: body ++ ['"']
  | openText body => '"' :: body
  | integer digits => digits
  | float whole fraction => whole ++ '.' :: fraction
  | word name => name
  | symbol s => s.lexeme.toList
  | stray c => [c]

def isWordPart (c : Char) : Bool :=
  isLetter c || isNumber c || c == '_'

def quoted (rest : List Char) : Segment × List Char :=
  match rest.dropWhile (· != '"') with
  | [] => (openText rest, [])
  | _ :: after => (text (rest.takeWhile (· != '"')), after)

def numeric (c : Char) (rest : List Char) : Segment × List Char :=
  let whole := c :: rest.takeWhile Char.isDigit
  match rest.dropWhile Char.isDigit with
  | '.' :: d :: after =>
      if d.isDigit then
        (float whole (d :: after.takeWhile Char.isDigit), after.dropWhile Char.isDigit)
      else (integer whole, '.' :: d :: after)
  | after => (integer whole, after)

def punctuation (c : Char) (rest : List Char) : Segment × List Char :=
  match rest with
  | d :: after =>
      match Symbol.ofChars? [c, d] with
      | some s => (symbol s, after)
      | none => single c rest
  | [] => single c rest
where
  single (c : Char) (rest : List Char) : Segment × List Char :=
    match Symbol.ofChars? [c] with
    | some s => (symbol s, rest)
    | none => (stray c, rest)

def leading (c : Char) (rest : List Char) : Segment × List Char :=
  if isBlank c then (blank (c :: rest.takeWhile isBlank), rest.dropWhile isBlank)
  else if c = '"' then quoted rest
  else if c.isDigit then numeric c rest
  else if isLetter c then (word (c :: rest.takeWhile isWordPart), rest.dropWhile isWordPart)
  else punctuation c rest

theorem quoted_chars (rest : List Char) :
    (quoted rest).1.chars ++ (quoted rest).2 = '"' :: rest := by
  have hsplit := List.takeWhile_append_dropWhile (p := (· != '"')) (l := rest)
  unfold quoted
  split
  · rename_i h
    simp [chars]
  · rename_i q after h
    have hq : q = '"' := by
      have hp := List.head?_dropWhile_not (p := (· != '"')) (l := rest)
      rw [h] at hp
      simpa using hp
    rw [h] at hsplit
    subst hq
    simpa [chars] using hsplit

theorem numeric_chars (c : Char) (rest : List Char) :
    (numeric c rest).1.chars ++ (numeric c rest).2 = c :: rest := by
  have hsplit := List.takeWhile_append_dropWhile (p := Char.isDigit) (l := rest)
  unfold numeric
  split
  · rename_i d after h
    rw [h] at hsplit
    split <;> simpa [chars] using hsplit
  · simp [chars]

theorem punctuation_single_chars (c : Char) (rest : List Char) :
    (punctuation.single c rest).1.chars ++ (punctuation.single c rest).2 = c :: rest := by
  unfold punctuation.single
  split
  · rename_i s h
    simp [chars, Symbol.ofChars?_eq_some_iff.mp h]
  · simp [chars]

theorem punctuation_chars (c : Char) (rest : List Char) :
    (punctuation c rest).1.chars ++ (punctuation c rest).2 = c :: rest := by
  unfold punctuation
  split
  · rename_i d after
    split
    · rename_i s h
      simp [chars, Symbol.ofChars?_eq_some_iff.mp h]
    · exact punctuation_single_chars c _
  · exact punctuation_single_chars c _

theorem leading_chars (c : Char) (rest : List Char) :
    (leading c rest).1.chars ++ (leading c rest).2 = c :: rest := by
  unfold leading
  split
  · simp [chars, List.takeWhile_append_dropWhile]
  · split
    · rename_i h
      subst h
      exact quoted_chars rest
    · split
      · exact numeric_chars c rest
      · split
        · simp [chars, List.takeWhile_append_dropWhile]
        · exact punctuation_chars c rest

theorem leading_chars_ne_nil (c : Char) (rest : List Char) : (leading c rest).1.chars ≠ [] := by
  simp only [leading, quoted, numeric, punctuation, punctuation.single]
  repeat' split
  all_goals simp [chars, Symbol.lexeme_ne_empty]

theorem length_leading (c : Char) (rest : List Char) :
    (leading c rest).2.length ≤ rest.length := by
  have hall := congrArg List.length (leading_chars c rest)
  have hpos := List.length_pos_iff.mpr (leading_chars_ne_nil c rest)
  simp only [List.length_append, List.length_cons] at hall
  omega

end Segment

def segments : List Char → List Segment
  | [] => []
  | c :: rest => (Segment.leading c rest).1 :: segments (Segment.leading c rest).2
termination_by source => source.length
decreasing_by
  have h := Segment.length_leading c rest
  simp only [List.length_cons]
  omega

theorem segments_nil : segments [] = [] := by
  rw [segments]

theorem segments_cons (c : Char) (rest : List Char) :
    segments (c :: rest) =
      (Segment.leading c rest).1 :: segments (Segment.leading c rest).2 := by
  rw [segments]

theorem flatMap_chars_segments (source : List Char) :
    (segments source).flatMap Segment.chars = source := by
  fun_induction segments source with
  | case1 => rfl
  | case2 c rest ih =>
      rw [List.flatMap_cons, ih]
      exact Segment.leading_chars c rest

end ExpressionLanguage
