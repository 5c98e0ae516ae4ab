/-!
Lines of input. Bytes are cut at line feeds first, so a line that is no text spoils only itself. A
carriage return before the line feed stays: it is a blank, and blanks are trimmed from a line.
-/

namespace ExpressionLanguage

inductive InputLine where
  | text (s : String)
  | invalid
deriving DecidableEq, Repr

namespace InputLine

def cut : List UInt8 → List (List UInt8)
  | [] => []
  | b :: rest =>
      if b = 10 then [] :: cut rest
      else
        match cut rest with
        | [] => [[b]]
        | line :: lines => (b :: line) :: lines

theorem cut_lineFeed (rest : List UInt8) : cut (10 :: rest) = [] :: cut rest := by
  simp [cut]

theorem cut_append {line : List UInt8} (h : ∀ b ∈ line, b ≠ 10) (rest : List UInt8) :
    cut (line ++ 10 :: rest) = line :: cut rest := by
  induction line with
  | nil => exact cut_lineFeed rest
  | cons b line ih =>
      have hb : b ≠ 10 := h b (by simp)
      have hline := ih fun x hx => h x (by simp [hx])
      simp [cut, hb, hline]

def ofBytes (line : List UInt8) : InputLine :=
  match String.fromUTF8? ⟨line.toArray⟩ with
  | some s => text s
  | none => invalid

def split (input : List UInt8) : List InputLine :=
  (cut input).map ofBytes

end InputLine

end ExpressionLanguage
