import ExpressionLanguage.Proofs.Scan.Spacing

namespace ExpressionLanguage

open Text

namespace Kind

def Admits (text : String) : Kind → Prop
  | symbol s => text = s.lexeme
  | keyword k => text = k.lexeme
  | string => '"' ∉ text.toList
  | integer => text.toList ≠ [] ∧ ∀ c ∈ text.toList, c.isDigit = true
  | float => ∃ whole fraction, text.toList = whole ++ '.' :: fraction ∧
      (whole ≠ [] ∧ ∀ c ∈ whole, c.isDigit = true) ∧
      fraction ≠ [] ∧ ∀ c ∈ fraction, c.isDigit = true
  | identifier => (∃ c cs, text.toList = c :: cs ∧ isLetter c = true ∧
      ∀ x ∈ cs, isLetter x = true ∨ isNumber x = true ∨ x = '_') ∧
      ∀ k : Keyword, text ≠ k.lexeme
  | endOfInput => False

def inWriting (text : String) : Kind → String
  | string => "\"" ++ text ++ "\""
  | _ => text

end Kind

def laidOut : (Nat → String) → List (Kind × String) → String
  | _, [] => ""
  | _, [p] => p.1.inWriting p.2
  | gap, p :: q :: ps => p.1.inWriting p.2 ++ gap 0 ++ laidOut (fun k => gap (k + 1)) (q :: ps)

def feedsBefore (gap : Nat → String) (k : Nat) : Nat :=
  ((List.range k).flatMap fun i => (gap i).toList).count '\n'

@[simp] theorem feedsBefore_zero (gap : Nat → String) : feedsBefore gap 0 = 0 := rfl

theorem feedsBefore_succ (gap : Nat → String) (k : Nat) :
    feedsBefore gap (k + 1) = (gap 0).toList.count '\n' + feedsBefore (fun i => gap (i + 1)) k := by
  rw [feedsBefore, List.range_succ_eq_map, List.flatMap_cons, List.count_append, List.flatMap_map]
  rfl

namespace Segment

variable {s : Segment} {kind : Kind} {text : String}

theorem isWordPart_iff {c : Char} :
    isWordPart c = true ↔ isLetter c = true ∨ isNumber c = true ∨ c = '_' := by
  simp [isWordPart, or_assoc]

theorem wordKind_lexeme (k : Keyword) : wordKind k.lexeme = .keyword k := by
  simp [wordKind, Keyword.ofLexeme?_lexeme]

theorem wordKind_of_ne (h : ∀ k : Keyword, text ≠ k.lexeme) : wordKind text = .identifier := by
  rcases (names_word text).2 with ⟨k, -, hk⟩ | ⟨hkind, -⟩
  · exact absurd hk.symm (h k)
  · exact hkind

structure Spells (kind : Kind) (text : String) (s : Segment) : Prop where
  wellFormed : s.WellFormed
  chars : s.chars = (kind.inWriting text).toList
  token : ∀ line, s.token? line = some ⟨kind, text, line⟩

theorem exists_spells (h : kind.Admits text) : ∃ s : Segment, s.Spells kind text := by
  cases kind with
  | symbol s =>
    obtain rfl : text = s.lexeme := h
    exact ⟨symbol s, trivial, rfl, fun _ => rfl⟩
  | keyword k =>
    obtain rfl : text = k.lexeme := h
    refine ⟨word k.lexeme.toList, k.wellFormed_word, rfl, ?_⟩
    simp [token?, wordKind_lexeme]
  | string =>
    refine ⟨.text text.toList, ?_, by simp [Segment.chars, Kind.inWriting], by simp [token?]⟩
    intro c hc
    have hne : c ≠ '"' := by
      rintro rfl
      exact h hc
    simpa using hne
  | integer => exact ⟨integer text.toList, h, rfl, by simp [token?]⟩
  | float =>
    obtain ⟨whole, fraction, htext, hdigits⟩ := h
    refine ⟨float whole fraction, hdigits, htext.symm, ?_⟩
    simp [token?, ← htext]
  | identifier =>
    obtain ⟨⟨c, cs, htext, hc, hcs⟩, hword⟩ := h
    refine ⟨word text.toList, ⟨c, cs, htext, hc, ?_⟩, rfl, ?_⟩
    · exact fun x hx => isWordPart_iff.mpr (hcs x hx)
    · simp [token?, wordKind_of_ne hword]
  | endOfInput => exact h.elim

theorem admits_of_token? {line : Nat} {t : Token} (hs : s.WellFormed)
    (h : s.token? line = some t) : t.kind.Admits t.lexeme := by
  cases s with
  | text body =>
    obtain rfl := Option.some.inj h
    simpa [Kind.Admits] using quote_not_mem hs
  | integer digits =>
    obtain rfl := Option.some.inj h
    exact ⟨by simpa using hs.1, by simpa using hs.2⟩
  | float whole fraction =>
    obtain rfl := Option.some.inj h
    exact ⟨whole, fraction, by simp, hs⟩
  | word name =>
    obtain rfl := Option.some.inj h
    obtain ⟨c, cs, hname, hc, hcs⟩ := hs
    rcases (names_word (String.ofList name)).2 with ⟨k, hkind, hk⟩ | ⟨hkind, hne⟩
    · simp only [hkind]
      exact hk.symm
    · simp only [hkind]
      refine ⟨⟨c, cs, by simpa using hname, hc, ?_⟩, fun k => (hne k).symm⟩
      exact fun x hx => isWordPart_iff.mp (hcs x hx)
  | symbol s =>
    obtain rfl := Option.some.inj h
    exact rfl
  | _ => cases h

namespace Spells

theorem error (h : s.Spells kind text) (line : Nat) : s.error? line = none :=
  ((token?_isSome_iff line s).mp (by simp [h.token])).1

theorem ne_blank (h : s.Spells kind text) : ∀ run, s ≠ blank run :=
  ((token?_isSome_iff 0 s).mp (by simp [h.token])).2

theorem lineFeeds (h : s.Spells kind text) : s.lineFeeds = 0 := by
  cases s with
  | blank run => exact absurd rfl (h.ne_blank run)
  | _ => rfl

theorem endsBefore (h : s.Spells kind text) {rest : List Char}
    (hrest : ∀ c ∈ rest.head?, isBlank c = true) : s.EndsBefore rest := by
  refine endsBefore_of_separator ?_ ?_ ?_
  · exact fun c hc => isSeparator_of_isBlank (hrest c hc)
  · exact fun run hs => absurd hs (h.ne_blank run)
  · rintro body rfl
    cases h.error 0

end Spells

end Segment

structure LaysOut (gap : Nat → String) (ps : List (Kind × String)) (ss : List Segment) : Prop where
  spaced : Spaced ss
  written : written ss = (laidOut gap ps).toList
  tokens : ∀ line, tokensFrom line ss =
    ps.mapIdx fun k p => ⟨p.1, p.2, line + feedsBefore gap k⟩
  errors : ∀ line, errorsFrom line ss = []
  lastLine : ∀ line, lastLine line ss = line + feedsBefore gap (ps.length - 1)

namespace LaysOut

variable {gap : Nat → String} {p q : Kind × String} {ps : List (Kind × String)}
  {s : Segment} {ss : List Segment}

theorem nil : LaysOut gap [] [] :=
  ⟨trivial, rfl, fun _ => rfl, fun _ => rfl, fun _ => rfl⟩

theorem single (h : s.Spells p.1 p.2) : LaysOut gap [p] [s] where
  spaced := ⟨h.wellFormed, fun _ => h.endsBefore (by simp), trivial⟩
  written := by simp [h.chars, laidOut]
  tokens line := by simp [h.token, feedsBefore]
  errors line := by simp [h.error]
  lastLine line := by simp [ExpressionLanguage.lastLine, h.lineFeeds, feedsBefore]

theorem cons (h : s.Spells p.1 p.2) (hne : gap 0 ≠ "")
    (hblank : ∀ c ∈ (gap 0).toList, isBlank c = true)
    (hss : LaysOut (fun k => gap (k + 1)) (q :: ps) ss) :
    LaysOut gap (p :: q :: ps) (s :: .blank (gap 0).toList :: ss) where
  spaced := by
    have hrun : (Segment.blank (gap 0).toList).WellFormed := ⟨by simpa using hne, hblank⟩
    refine ⟨h.wellFormed, fun _ => h.endsBefore ?_, hrun, fun hs => absurd rfl (hs _), hss.spaced⟩
    intro c hc
    rw [head?_written_cons hrun.chars_ne_nil] at hc
    exact hblank c (List.mem_of_mem_head? hc)
  written := by
    rw [written_cons, written_cons, h.chars, hss.written]
    simp [laidOut, Segment.chars]
  tokens line := by
    rw [tokensFrom_cons, h.token, h.lineFeeds, tokensFrom_blank, hss.tokens, List.mapIdx_cons]
    simp [feedsBefore_succ, feedsBefore_zero, Nat.add_assoc]
  errors line := by
    rw [errorsFrom_cons, h.error, errorsFrom_blank, hss.errors]
    rfl
  lastLine line := by
    rw [ExpressionLanguage.lastLine, ExpressionLanguage.lastLine, hss.lastLine, h.lineFeeds]
    simp [feedsBefore_succ, Segment.lineFeeds, Nat.add_assoc]

end LaysOut

theorem exists_laysOut {gap : Nat → String} {ps : List (Kind × String)}
    (h : ∀ p ∈ ps, p.1.Admits p.2)
    (hgap : ∀ k, k + 1 < ps.length → gap k ≠ "" ∧ ∀ c ∈ (gap k).toList, isBlank c = true) :
    ∃ ss, LaysOut gap ps ss := by
  fun_induction laidOut gap ps with
  | case1 gap => exact ⟨[], .nil⟩
  | case2 gap p =>
    obtain ⟨s, hs⟩ := Segment.exists_spells (h p (by simp))
    exact ⟨[s], .single hs⟩
  | case3 gap p q ps ih =>
    obtain ⟨s, hs⟩ := Segment.exists_spells (h p (by simp))
    obtain ⟨hne, hblank⟩ := hgap 0 (by simp)
    obtain ⟨ss, hss⟩ :=
      ih (fun r hr => h r (by simp [hr])) fun k hk => hgap (k + 1) (by simpa using hk)
    exact ⟨_, .cons hs hne hblank hss⟩

theorem scan_laidOut (gap : Nat → String) {ps : List (Kind × String)}
    (h : ∀ p ∈ ps, p.1.Admits p.2)
    (hgap : ∀ k, k + 1 < ps.length → gap k ≠ "" ∧ ∀ c ∈ (gap k).toList, isBlank c = true) :
    (scan (laidOut gap ps)).errors = [] ∧
      (scan (laidOut gap ps)).tokens =
        ps.mapIdx (fun k p => ⟨p.1, p.2, 1 + feedsBefore gap k⟩) ++
          [⟨.endOfInput, "", 2 + feedsBefore gap (ps.length - 1)⟩] := by
  obtain ⟨ss, hss⟩ := exists_laysOut h hgap
  obtain ⟨htokens, herrors⟩ := scan_of_spaced _ hss.spaced hss.written.symm
  have hend : lastLine 1 ss + 1 = 2 + feedsBefore gap (ps.length - 1) := by
    rw [hss.lastLine]
    omega
  rw [htokens, herrors, hss.errors, hss.tokens, hend]
  exact ⟨rfl, rfl⟩

theorem scan_admitted (source : String) :
    ∃ ts line, (scan source).tokens = ts ++ [⟨.endOfInput, "", line⟩] ∧
      ∀ t ∈ ts, t.kind.Admits t.lexeme := by
  refine ⟨_, _, scan_tokens source, ?_⟩
  intro t ht
  obtain ⟨s, hs, line, htoken⟩ := mem_tokensFrom ht
  exact Segment.admits_of_token? ((legible_segments source.toList).wellFormed s hs) htoken

theorem scan_inverts_writing (ps : List (Kind × String)) :
    ((∃ source, (scan source).errors = [] ∧
        (scan source).tokens.map (fun t => (t.kind, t.lexeme)) = ps ++ [(.endOfInput, "")]) ↔
      ∀ p ∈ ps, p.1.Admits p.2) ∧
    ((∀ p ∈ ps, p.1.Admits p.2) → ∀ gap : Nat → String,
      (∀ k, k + 1 < ps.length → gap k ≠ "" ∧ ∀ c ∈ (gap k).toList, isBlank c = true) →
      (scan (laidOut gap ps)).errors = [] ∧
      (scan (laidOut gap ps)).tokens =
        ps.mapIdx (fun k p => ⟨p.1, p.2, 1 + feedsBefore gap k⟩) ++
          [⟨.endOfInput, "", 2 + feedsBefore gap (ps.length - 1)⟩]) ∧
    ∀ source, ∃ ts line, (scan source).tokens = ts ++ [⟨.endOfInput, "", line⟩] ∧
      ∀ t ∈ ts, t.kind.Admits t.lexeme := by
  refine ⟨⟨?_, ?_⟩, fun h gap hgap => scan_laidOut gap h hgap, scan_admitted⟩
  · rintro ⟨source, -, hpairs⟩ p hp
    obtain ⟨ts, line, htokens, hts⟩ := scan_admitted source
    rw [htokens, List.map_append] at hpairs
    obtain ⟨rfl, -⟩ := List.append_inj' hpairs rfl
    obtain ⟨t, ht, rfl⟩ := List.mem_map.mp hp
    exact hts t ht
  · intro h
    have hspace : " " ≠ "" ∧ ∀ c ∈ " ".toList, isBlank c = true :=
      ⟨by decide, by simp [isBlank_space]⟩
    obtain ⟨herrors, htokens⟩ := scan_laidOut (fun _ => " ") h fun _ _ => hspace
    refine ⟨_, herrors, ?_⟩
    rw [htokens, List.map_append, List.mapIdx_eq_zipIdx_map, List.map_map]
    simp [Function.comp_def]

-- the point must not join the digits, nor the line feed of the string count
def pointAndWords : List (Kind × String) :=
  [(.integer, "1"), (.symbol .dot, "."), (.integer, "5"), (.string, "a\n"),
    (.keyword .orWord, "or"), (.identifier, "order")]

theorem admits_pointAndWords : ∀ p ∈ pointAndWords, p.1.Admits p.2 := by
  have hdigit (c : Char) (hc : c.isDigit = true) : Kind.integer.Admits (String.ofList [c]) :=
    ⟨by simp, by simpa using hc⟩
  have hname : Kind.identifier.Admits "order" := by
    refine ⟨⟨'o', "rder".toList, rfl, by decide, ?_⟩, ?_⟩
    · exact fun x hx => Segment.isWordPart_iff.mp (List.all_eq_true.mp (by decide) x hx)
    · intro k
      cases k <;> decide
  have hbody : Kind.string.Admits "a\n" := by
    simp [Kind.Admits]
  simp only [pointAndWords, List.forall_mem_cons]
  exact ⟨hdigit '1' rfl, rfl, hdigit '5' rfl, hbody, rfl, hname, by simp⟩

theorem scan_inverts_writing_pointAndWords :
    (∀ p ∈ pointAndWords, p.1.Admits p.2) ∧
    (scan "1\n.\n5\n\"a\n\"\nor\norder").errors = [] ∧
    (scan "1\n.\n5\n\"a\n\"\nor\norder").tokens =
      [⟨.integer, "1", 1⟩, ⟨.symbol .dot, ".", 2⟩, ⟨.integer, "5", 3⟩, ⟨.string, "a\n", 4⟩,
        ⟨.keyword .orWord, "or", 5⟩, ⟨.identifier, "order", 6⟩, ⟨.endOfInput, "", 7⟩] := by
  obtain ⟨-, hwriting, -⟩ := scan_inverts_writing pointAndWords
  have hgap : "\n" ≠ "" ∧ ∀ c ∈ "\n".toList, isBlank c = true :=
    ⟨by decide, by simp [isBlank_lineFeed]⟩
  obtain ⟨herrors, htokens⟩ := hwriting admits_pointAndWords (fun _ => "\n") fun _ _ => hgap
  exact ⟨admits_pointAndWords, herrors, htokens⟩

end ExpressionLanguage
