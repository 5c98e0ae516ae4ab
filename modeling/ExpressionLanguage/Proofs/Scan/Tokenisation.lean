import ExpressionLanguage.Proofs.Scan.Loop

namespace ExpressionLanguage

def Lexeme.Names (w : List Char) (kind : Kind) (text : String) : Lexeme → Prop
  | .text => kind = .string ∧ w = '"' :: text.toList ++ ['"']
  | .openText => False
  | .integer => kind = .integer ∧ w = text.toList
  | .float => kind = .float ∧ w = text.toList
  | .word => w = text.toList ∧ ((∃ k : Keyword, kind = .keyword k ∧ k.lexeme = text) ∨
      kind = .identifier ∧ ∀ k : Keyword, k.lexeme ≠ text)
  | .pair | .single => w = text.toList ∧ kind.lexeme? = some text

inductive Reported :
    Nat → List (Piece × List Char) → List Token → List ScanError → Nat → Prop
  | nil {line} : Reported line [] [] [] line
  | blank {line w ps ts es last} : Reported (line + w.count '\n') ps ts es last →
      Reported line ((.blank, w) :: ps) ts es last
  | token {line l w kind text ps ts es last} : l.Names w kind text →
      Reported line ps ts es last →
      Reported line ((.lexeme l, w) :: ps) (⟨kind, text, line⟩ :: ts) es last
  | openText {line w ps ts es last} : Reported line ps ts es last →
      Reported line ((.lexeme .openText, w) :: ps) ts (.unterminatedString line :: es) last
  | stray {line c ps ts es last} : Reported line ps ts es last →
      Reported line ((.stray, [c]) :: ps) ts (.unexpectedCharacter c line :: es) last

theorem Lexeme.Names.kind_ne_endOfInput {l : Lexeme} {w : List Char} {kind : Kind} {text : String}
    (h : l.Names w kind text) : kind ≠ .endOfInput := by
  rintro rfl
  cases l with
  | text | integer | float => simp [Names] at h
  | openText => exact h
  | word => simp [Names] at h
  | pair | single => simp [Names, Kind.lexeme?] at h

theorem Reported.kind_ne_endOfInput {line last : Nat} {ps : List (Piece × List Char)}
    {ts : List Token} {es : List ScanError} (h : Reported line ps ts es last) :
    ∀ t ∈ ts, t.kind ≠ .endOfInput := by
  induction h with
  | nil => simp
  | blank _ ih => exact ih
  | token hnames _ ih => simpa [hnames.kind_ne_endOfInput] using ih
  | openText _ ih => exact ih
  | stray _ ih => exact ih

theorem Pieces.flatMap {source : List Char} {ps : List (Piece × List Char)}
    (h : Pieces source ps) : ps.flatMap Prod.snd = source := by
  induction h with
  | nil => rfl
  | cons _ _ ih => rw [List.flatMap_cons, ih]

namespace Segment

theorem names_word (name : String) : Lexeme.word.Names name.toList (wordKind name) name := by
  refine ⟨rfl, ?_⟩
  unfold wordKind
  split
  · rename_i k hk
    exact .inl ⟨k, rfl, Keyword.ofLexeme?_eq_some_iff.mp hk⟩
  · rename_i hnone
    refine .inr ⟨rfl, ?_⟩
    rintro k rfl
    rw [Keyword.ofLexeme?_lexeme] at hnone
    cases hnone

theorem names_symbol (s : Symbol) :
    ∃ l : Lexeme, (symbol s).piece = .lexeme l ∧ l.Names s.lexeme.toList (.symbol s) s.lexeme := by
  refine ⟨if s.lexeme.toList.length = 1 then .single else .pair, rfl, ?_⟩
  split
  · exact ⟨rfl, rfl⟩
  · exact ⟨rfl, rfl⟩

theorem reported_cons {line last : Nat} {ps : List (Piece × List Char)} {ts : List Token}
    {es : List ScanError} (s : Segment) (h : Reported (line + s.lineFeeds) ps ts es last) :
    Reported line ((s.piece, s.chars) :: ps) ((s.token? line).toList ++ ts)
      ((s.error? line).toList ++ es) last := by
  cases s with
  | blank run => exact .blank h
  | text body => exact .token ⟨rfl, by simp [chars]⟩ h
  | openText body => exact .openText h
  | integer digits => exact .token ⟨rfl, by simp [chars]⟩ h
  | float whole fraction => exact .token ⟨rfl, by simp [chars]⟩ h
  | word name =>
    have hnames := names_word (String.ofList name)
    rw [String.toList_ofList] at hnames
    exact .token hnames h
  | symbol s =>
    obtain ⟨l, hl, hnames⟩ := names_symbol s
    rw [hl]
    exact .token hnames h
  | stray c => exact .stray h

end Segment

theorem reported_numbered (line : Nat) (ss : List Segment) :
    Reported line (ss.map fun s => (s.piece, s.chars)) (tokensFrom line ss) (errorsFrom line ss)
      (lastLine line ss) := by
  induction ss generalizing line with
  | nil => exact .nil
  | cons s ss ih =>
    rw [tokensFrom_cons, errorsFrom_cons]
    exact s.reported_cons (ih (line + s.lineFeeds))

theorem scan_longest_match (source : String) :
    ∃ (ps : List (Piece × List Char)) (ts : List Token) (last : Nat),
      Pieces source.toList ps ∧ (∀ qs, Pieces source.toList qs → qs = ps) ∧
      ps.flatMap Prod.snd = source.toList ∧
      Reported 1 ps ts (scan source).errors last ∧
      (scan source).tokens = ts ++ [⟨.endOfInput, "", last + 1⟩] ∧
      ∀ t ∈ ts, t.kind ≠ .endOfInput := by
  have hpieces := pieces_segments source.toList
  have hreported := reported_numbered 1 (segments source.toList)
  obtain ⟨htokens, herrors, -⟩ := scan_reads source
  refine ⟨pieces source.toList, _, _, hpieces, fun qs hqs => hpieces.unique hqs, hpieces.flatMap,
    ?_, htokens, hreported.kind_ne_endOfInput⟩
  rw [herrors]
  exact hreported

end ExpressionLanguage
