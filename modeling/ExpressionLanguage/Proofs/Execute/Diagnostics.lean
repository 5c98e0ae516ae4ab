import ExpressionLanguage.Proofs.Execute.Conversion
import ExpressionLanguage.Proofs.Execute.Journal
import ExpressionLanguage.Proofs.Expr.Failure
import ExpressionLanguage.Proofs.Grammar.Progress
import ExpressionLanguage.Proofs.Scan.Writing

/-!
Diagnostics on lines of their own. A diagnostic may quote the source, and of what can be quoted only
a string may hold a line feed. Strings are operands, so that one is quoted only where it follows a
whole expression; in all other failures the lines of the message are the diagnostics.
-/

namespace ExpressionLanguage

open Text

def OneLine (text : String) : Prop :=
  '\n' ∉ text.toList

instance : DecidablePred OneLine :=
  fun text => inferInstanceAs (Decidable ('\n' ∉ text.toList))

theorem oneLine_append {a b : String} : OneLine (a ++ b) ↔ OneLine a ∧ OneLine b := by
  simp [OneLine]

theorem OneLine.enclose {before quoted after : String} (hbefore : OneLine before)
    (hafter : OneLine after) : OneLine (before ++ quoted ++ after) ↔ OneLine quoted := by
  rw [oneLine_append, oneLine_append]
  exact ⟨fun h => h.1.2, fun hquoted => ⟨⟨hbefore, hquoted⟩, hafter⟩⟩

theorem ne_lineFeed_of_isDigit {c : Char} (h : c.isDigit = true) : c ≠ '\n' := by
  rintro rfl
  exact absurd h (by decide)

theorem oneLine_numeral (n : Nat) : OneLine (Numeral.text n) := by
  intro hmem
  rw [Numeral.toList_text] at hmem
  exact ne_lineFeed_of_isDigit (Numeral.isDigit_of_mem_digits hmem) rfl

theorem oneLine_located {line : Nat} {text : String} :
    OneLine (located line text) ↔ OneLine text := by
  have hopening : OneLine "Error on line " := by decide +kernel
  have hcolon : OneLine ": " := by decide
  show OneLine ("Error on line " ++ Numeral.text line ++ ": " ++ text) ↔ _
  rw [oneLine_append, oneLine_append, oneLine_append]
  exact ⟨And.right, fun htext => ⟨⟨⟨hopening, oneLine_numeral line⟩, hcolon⟩, htext⟩⟩

theorem oneLine_quoting {line : Nat} {before quoted after : String} (hbefore : OneLine before)
    (hafter : OneLine after) :
    OneLine (located line (before ++ quoted ++ after)) ↔ OneLine quoted :=
  oneLine_located.trans (hbefore.enclose hafter)

section Scanning

variable {source : String}

theorem Kind.Admits.oneLine {kind : Kind} {text : String} (h : kind.Admits text)
    (hkind : kind ≠ .string) : OneLine text := by
  cases kind with
  | symbol s =>
    obtain rfl : text = s.lexeme := h
    cases s <;> decide
  | keyword k =>
    obtain rfl : text = k.lexeme := h
    cases k <;> decide
  | string => exact absurd rfl hkind
  | integer =>
    intro hmem
    exact ne_lineFeed_of_isDigit (h.2 _ hmem) rfl
  | float =>
    obtain ⟨whole, fraction, htext, ⟨-, hwhole⟩, -, hfraction⟩ := h
    intro hmem
    rw [htext, List.mem_append, List.mem_cons] at hmem
    rcases hmem with hmem | hdot | hmem
    · exact ne_lineFeed_of_isDigit (hwhole _ hmem) rfl
    · exact absurd hdot (by decide)
    · exact ne_lineFeed_of_isDigit (hfraction _ hmem) rfl
  | identifier =>
    obtain ⟨⟨c, cs, htext, hc, hcs⟩, -⟩ := h
    intro hmem
    rw [htext, List.mem_cons] at hmem
    rcases hmem with rfl | hmem
    · exact absurd hc (by decide)
    · exact absurd (hcs _ hmem) (by decide)
  | endOfInput => exact h.elim

theorem oneLine_lexeme {t : Token} (ht : t ∈ (scan source).tokens) (hkind : t.kind ≠ .string) :
    OneLine t.lexeme := by
  obtain ⟨ts, line, htokens, hts⟩ := scan_admitted source
  rw [htokens, List.mem_append] at ht
  rcases ht with ht | ht
  · exact (hts t ht).oneLine hkind
  · obtain rfl := List.mem_singleton.mp ht
    exact List.not_mem_nil

theorem ScanError.oneLine {err : ScanError} (h : err ∈ (scan source).errors) :
    OneLine err.message := by
  obtain ⟨s, hs, line, herr⟩ := mem_errorsFrom (scan_errors source ▸ h)
  cases s with
  | openText body =>
    obtain rfl := Option.some.inj herr
    have htext : OneLine "unterminated string." := by decide +kernel
    exact oneLine_located.mpr htext
  | stray c =>
    obtain rfl := Option.some.inj herr
    have hstray : OpensPunctuation c ∧ _ := (legible_segments source.toList).wellFormed _ hs
    have hc : OneLine (String.singleton c) := by
      intro hmem
      obtain rfl : '\n' = c := by simpa using hmem
      exact absurd hstray.1.1 (by decide)
    exact (oneLine_quoting (by decide +kernel) (by decide +kernel)).mpr hc
  | _ => cases herr

end Scanning

section Parsing

variable {source : String} {err : ParseError}

theorem ParseError.About.oneLine {i : Nat} (h : err.About (scan source).tokens i) :
    OneLine err.message := by
  have hscanned {t : Token} (hget : (beforeEnd (scan source).tokens)[i]? = some t) :
      t ∈ (scan source).tokens :=
    List.takeWhile_subset _ (List.mem_of_getElem? hget)
  cases h with
  | @misplaced _ t hget hliteral =>
    have hlexeme : OneLine t.lexeme := by
      refine oneLine_lexeme (hscanned hget) ?_
      intro hkind
      simp [hkind, Kind.isLiteral] at hliteral
    have hquote : OneLine "'" := by decide
    have hquoted : OneLine ("'" ++ t.lexeme ++ "'") := (hquote.enclose hquote).mpr hlexeme
    exact (oneLine_quoting (by decide +kernel) (by decide +kernel)).mpr hquoted
  | atEnd =>
    have hfound : OneLine "end of input" := by decide +kernel
    exact (oneLine_quoting (by decide +kernel) (by decide +kernel)).mpr hfound
  | @oversized _ t hget hkind _ =>
    have hlexeme : OneLine t.lexeme := oneLine_lexeme (hscanned hget) (by simp [hkind])
    exact (oneLine_quoting (by decide +kernel) (by decide +kernel)).mpr hlexeme

theorem oneLine_of_recorded
    (h : err ∈ (Level.expression.parse (.start (scan source).tokens)).2.errors) :
    OneLine err.message := by
  rw [← map_snd_diagnosed] at h
  obtain ⟨p, hp, rfl⟩ := List.mem_map.mp h
  exact (about_of_mem_diagnosed hp).oneLine

theorem oneLine_of_fatal (hfatal : err.isFatal = true)
    (h : (Level.expression.parse (.start (scan source).tokens)).1 = .error err) :
    OneLine err.message := by
  obtain ⟨line, rfl⟩ := ((accounted_parse .expression _).justified_of_error h).fatal hfatal
  have htext : OneLine "Unterminated group expression, expected ')'." := by decide +kernel
  exact oneLine_located.mpr htext

theorem oneLine_or_trailing {errors : List ParseError}
    (h : (Cursor.start (scan source).tokens).parseAll.1 = .error errors) :
    (∀ err ∈ errors, OneLine err.message) ∨
      ∃ t ∈ (scan source).tokens, errors = [.unexpectedTrailingToken t.lexeme t.line] := by
  have hwhole := wholeReading_start (scan source).tokens
  rw [h] at hwhole
  generalize hp : (Cursor.start (scan source).tokens).parse = p at hwhole
  cases hwhole with
  | @stopped f d hparse hfatal _ =>
    left
    intro err herr
    rcases List.mem_append.mp herr with herr | herr
    · exact oneLine_of_recorded (by rwa [hparse])
    · obtain rfl := List.mem_singleton.mp herr
      exact oneLine_of_fatal hfatal (congrArg Prod.fst hparse)
  | mended hparse _ _ =>
    left
    intro err herr
    exact oneLine_of_recorded (by rwa [hparse])
  | @followed e d t rest hparse _ htokens _ =>
    obtain ⟨⟨rs, hrs⟩, -⟩ := Reaches.parse .expression (Cursor.start (scan source).tokens)
    rw [hparse] at hrs
    have hmem : t ∈ (scan source).tokens := by
      have hall : (scan source).tokens = _ := hrs.tokens
      simp [hall, htokens]
    exact .inr ⟨t, hmem, rfl⟩

end Parsing

section Evaluating

variable {source : String} {r : RuntimeError}

def Expr.operators : Expr → List Token
  | literal _ => []
  | group inner => inner.operators
  | unary operator operand => operator :: operand.operators
  | binary left operator right => left.operators ++ operator :: right.operators

theorem Derives.operators {level : Level} {w : List Token} {e : Expr} (h : Derives level w e) :
    ∀ op ∈ e.operators, op ∈ w ∧ op.kind ≠ .string := by
  induction h with
  | literal _ => simp [Expr.operators]
  | group _ _ _ ih =>
    intro op hop
    obtain ⟨hmem, hkind⟩ := ih op hop
    exact ⟨by simp [hmem], hkind⟩
  | primary _ ih => exact ih
  | @unary op' w e hop' _ ih =>
    intro op hop
    rcases List.mem_cons.mp hop with rfl | hop
    · refine ⟨List.mem_cons_self, ?_⟩
      rcases hop' with hkind | hkind <;> simp [hkind]
    · obtain ⟨hmem, hkind⟩ := ih op hop
      exact ⟨List.mem_cons_of_mem _ hmem, hkind⟩
  | operand _ _ ih => exact ih
  | chain _ _ _ hop' _ ihleft ihright =>
    intro op hop
    rcases List.mem_append.mp hop with hop | hop
    · obtain ⟨hmem, hkind⟩ := ihleft op hop
      exact ⟨by simp [hmem], hkind⟩
    · rcases List.mem_cons.mp hop with rfl | hop
      · exact ⟨by simp, by simp [hop']⟩
      · obtain ⟨hmem, hkind⟩ := ihright op hop
        exact ⟨by simp [hmem], hkind⟩

theorem oneLine_applyBinary {a b : Value} {operator : Token} (hop : OneLine operator.lexeme)
    (h : applyBinary a operator b = .error r) : OneLine r.message := by
  rcases applyBinary_error h with ⟨side, found, rfl⟩ | ⟨rfl, -⟩
  · have hside : OneLine (side.name ++ " operand of '") := by cases side <;> decide +kernel
    have hfound : OneLine found.name := by cases found <;> decide
    have hbefore : OneLine (side.name ++ " operand of '" ++ operator.lexeme ++
        "' is not a number (found ") := (hside.enclose (by decide +kernel)).mpr hop
    exact (oneLine_quoting hbefore (by decide)).mpr hfound
  · exact (oneLine_quoting (by decide +kernel) (by decide +kernel)).mpr hop

theorem oneLine_applyUnary {v : Value} {operator : Token} (hop : OneLine operator.lexeme)
    (h : applyUnary operator v = .error r) : OneLine r.message := by
  rcases applyUnary_error h with ⟨rfl, -⟩ | rfl | ⟨rfl, -⟩
  · have htext : OneLine "Integer overflow while trying to compute result." := by decide +kernel
    exact oneLine_located.mpr htext
  · have hfound : OneLine v.type.name := by cases v.type <;> decide
    have hbefore : OneLine ("Cannot evaluate unary '" ++ operator.lexeme ++ "' on ") :=
      (OneLine.enclose (by decide +kernel) (by decide +kernel)).mpr hop
    exact (oneLine_quoting hbefore (by decide)).mpr hfound
  · exact (oneLine_quoting (by decide +kernel) (by decide +kernel)).mpr hop

theorem Expr.oneLine_of_eval {e : Expr} (hops : ∀ op ∈ e.operators, OneLine op.lexeme)
    (h : e.eval = .error r) : OneLine r.message := by
  have hsubtrees : ∀ e' ∈ e.subtrees, ∀ op ∈ e'.operators, OneLine op.lexeme :=
    forall_subtrees (fun _ h => h) (fun _ _ h => (List.forall_mem_cons.mp h).2)
      (fun _ _ _ h => ⟨(List.forall_mem_append.mp h).1,
        (List.forall_mem_cons.mp (List.forall_mem_append.mp h).2).2⟩) hops
  obtain ⟨e', he', hfails⟩ := exists_failsAt h
  cases hfails with
  | unary _ happly => exact oneLine_applyUnary (hsubtrees _ he' _ (by simp [operators])) happly
  | binary _ _ happly => exact oneLine_applyBinary (hsubtrees _ he' _ (by simp [operators])) happly

theorem RuntimeError.oneLine (h : (execute source).result = .error (.runtime r)) :
    OneLine r.message := by
  obtain ⟨e, htree, heval⟩ := execute_eq_runtime_iff.mp h
  obtain ⟨-, hderives⟩ := treeOf_eq_ok_iff.mp htree
  refine Expr.oneLine_of_eval ?_ heval
  intro op hop
  obtain ⟨hmem, hkind⟩ := hderives.operators op hop
  have hscanned : op ∈ (scan source).tokens := by
    rw [scan_tokens]
    exact List.mem_append_left _ hmem
  exact oneLine_lexeme hscanned hkind

end Evaluating

namespace Failure

-- what a failure has to tell, each with the line that it is about
def diagnostics : Failure → List (Nat × String)
  | scan errors => errors.map fun err => (err.line, err.message)
  | parse errors => errors.map fun err => (err.line, err.message)
  | runtime error => [(error.line, error.message)]

variable {failure : Failure}

theorem map_snd_diagnostics (failure : Failure) :
    failure.diagnostics.map Prod.snd = failure.messages := by
  cases failure with
  | scan errors => simp [diagnostics, messages]
  | parse errors => simp [diagnostics, messages]
  | runtime error => rfl

theorem exists_located (failure : Failure) :
    ∀ p ∈ failure.diagnostics, ∃ text, p.2 = located p.1 text := by
  intro p hp
  cases failure with
  | scan errors =>
    obtain ⟨err, -, rfl⟩ := List.mem_map.mp hp
    exact ⟨err.text, rfl⟩
  | parse errors =>
    obtain ⟨err, -, rfl⟩ := List.mem_map.mp hp
    exact ⟨err.text, rfl⟩
  | runtime error =>
    obtain rfl := List.mem_singleton.mp hp
    exact ⟨error.text, rfl⟩

theorem splitOn_message (hne : failure.messages ≠ []) (h : ∀ m ∈ failure.messages, OneLine m) :
    failure.message.toList.splitOn '\n' = failure.messages.map String.toList := by
  rw [message, String.toList_intercalate]
  exact List.splitOn_intercalate '\n' (List.forall_mem_map.mpr h) (by simpa using hne)

theorem splitOn_message_ne {m : String} (hm : ¬ OneLine m) (h : failure.messages = [m]) :
    failure.message.toList.splitOn '\n' ≠ failure.messages.map String.toList := by
  have hmessage : failure.message = m := by
    rw [message, h]
    exact String.intercalate_singleton
  obtain ⟨xs, ys, hsplit⟩ := List.append_of_mem (not_not.mp hm)
  intro heq
  have hlength := congrArg List.length heq
  rw [hmessage, hsplit, List.splitOn_append_cons_self, List.length_append, h] at hlength
  have hxs := List.length_pos_iff.mpr (List.splitOn_ne_nil '\n' xs)
  have hys := List.length_pos_iff.mpr (List.splitOn_ne_nil '\n' ys)
  simp only [List.map_cons, List.map_nil, List.length_cons, List.length_nil] at hlength
  omega

end Failure

theorem messages_ne_nil {source : String} {failure : Failure}
    (h : (execute source).result = .error failure) : failure.messages ≠ [] := by
  cases failure with
  | scan errors => simpa [Failure.messages] using (execute_eq_scan_iff.mp h).2
  | parse errors =>
    rw [execute_eq_error_iff (by simp), treeOf_eq_parse_iff] at h
    simpa [Failure.messages] using (Cursor.errors_of_parseAll_error h.2).2
  | runtime r => simp [Failure.messages]

theorem oneLine_messages_or_trailing {source : String} {failure : Failure}
    (h : (execute source).result = .error failure) :
    (∀ m ∈ failure.messages, OneLine m) ∨
      ∃ t ∈ (scan source).tokens, failure = .parse [.unexpectedTrailingToken t.lexeme t.line] := by
  cases failure with
  | scan errors =>
    obtain ⟨rfl, -⟩ := execute_eq_scan_iff.mp h
    exact .inl (List.forall_mem_map.mpr fun _ => ScanError.oneLine)
  | parse errors =>
    rw [execute_eq_error_iff (by simp), treeOf_eq_parse_iff] at h
    rcases oneLine_or_trailing h.2 with hall | ⟨t, ht, rfl⟩
    · exact .inl (List.forall_mem_map.mpr hall)
    · exact .inr ⟨t, ht, rfl⟩
  | runtime r =>
    left
    intro m hm
    obtain rfl := List.mem_singleton.mp hm
    exact RuntimeError.oneLine h

theorem oneLine_trailing {lexeme : String} {line : Nat} :
    OneLine (ParseError.unexpectedTrailingToken lexeme line).message ↔ OneLine lexeme :=
  oneLine_quoting (by decide +kernel) (by decide)

/-- The lines of a message are the diagnostics, unless a string with a line feed in it is left
behind a whole expression. -/
theorem diagnostics_on_own_lines (source : String) (failure : Failure)
    (h : (execute source).result = .error failure) :
    (∀ p ∈ failure.diagnostics,
      ∃ text, p.2 = "Error on line " ++ Numeral.text p.1 ++ ": " ++ text) ∧
    (failure.message.toList.splitOn '\n' = failure.diagnostics.map (fun p => p.2.toList) ↔
      ¬ ∃ t ∈ (scan source).tokens, t.kind = .string ∧ '\n' ∈ t.lexeme.toList ∧
        failure = .parse [.unexpectedTrailingToken t.lexeme t.line]) := by
  have hmessages : failure.diagnostics.map (fun p => p.2.toList) =
      failure.messages.map String.toList := by
    rw [← Failure.map_snd_diagnostics, List.map_map]
    rfl
  refine ⟨failure.exists_located, ?_⟩
  rw [hmessages]
  constructor
  · rintro hsplit ⟨t, -, -, hfeed, rfl⟩
    exact Failure.splitOn_message_ne (mt oneLine_trailing.mp (not_not.mpr hfeed)) rfl hsplit
  · intro hnone
    refine Failure.splitOn_message (messages_ne_nil h) ?_
    rcases oneLine_messages_or_trailing h with hall | ⟨t, ht, rfl⟩
    · exact hall
    · intro m hm
      obtain rfl := List.mem_singleton.mp hm
      rw [oneLine_trailing]
      intro hfeed
      refine hnone ⟨t, ht, ?_, hfeed, rfl⟩
      exact Decidable.not_not.mp fun hkind => oneLine_lexeme ht hkind hfeed

theorem scan_trailingText : (scan "1 \"a\nb\"").errors = [] ∧ (scan "1 \"a\nb\"").tokens =
    [⟨.integer, "1", 1⟩, ⟨.string, "a\nb", 1⟩, ⟨.endOfInput, "", 2⟩] := by
  have hlegible : Legible [.integer ['1'], .blank [' '], .text ['a', '\n', 'b']] := by
    refine ⟨⟨by simp, by simp⟩, ?_, ⟨by simp, by simp [isBlank_space]⟩, ?_, ?_, trivial, trivial⟩
    · simp [Segment.EndsBefore, Segment.chars]
    · intro c hc
      obtain rfl : '"' = c := by simpa [Segment.chars] using hc
      decide
    · simp [Segment.WellFormed]
  have hsegments : segments "1 \"a\nb\"".toList = _ := segments_eq_iff.mpr ⟨hlegible, rfl⟩
  rw [scan_errors, scan_tokens, hsegments]
  exact ⟨rfl, rfl⟩

theorem execute_trailingText :
    (execute "1 \"a\nb\"").result = .error (.parse [.unexpectedTrailingToken "a\nb" 1]) := by
  obtain ⟨hclean, htokens⟩ := scan_trailingText
  have hwhole := wholeReading_start (scan "1 \"a\nb\"").tokens
  rw [execute_eq_error_iff (by simp), treeOf_eq_parse_iff]
  refine ⟨hclean, (hwhole.trailing_iff "a\nb" 1).mpr ⟨rfl, [⟨.integer, "1", 1⟩],
    .literal (.integer 1), ⟨.string, "a\nb", 1⟩, [⟨.endOfInput, "", 2⟩], htokens, ?_, ?_, by simp,
    rfl, rfl⟩⟩
  · exact (Derives.primary (.of_meaning rfl)).expression_of_unary
  · intro hextends
    obtain ⟨s, -, hkind⟩ := hextends.mem_binaryOperators
    cases hkind

theorem execute_straysOnLines : (execute "@\n#").result =
    .error (.scan [.unexpectedCharacter '@' 1, .unexpectedCharacter '#' 2]) := by
  have hlegible : Legible [.stray '@', .blank ['\n'], .stray '#'] := by
    refine ⟨⟨⟨by decide, by decide, by decide, by decide⟩, rfl⟩, trivial,
      ⟨by simp, by simp [isBlank_lineFeed]⟩, ?_,
      ⟨⟨by decide, by decide, by decide, by decide⟩, rfl⟩, trivial, trivial⟩
    intro c hc
    obtain rfl : '#' = c := by simpa [Segment.chars] using hc
    decide
  have hsegments : segments "@\n#".toList = _ := segments_eq_iff.mpr ⟨hlegible, rfl⟩
  rw [execute_eq_scan_iff, scan_errors, hsegments]
  exact ⟨rfl, by simp⟩

theorem diagnostics_on_own_lines_straysOnLines :
    ∃ failure trailing, (execute "@\n#").result = .error failure ∧
      failure.diagnostics.map Prod.fst = [1, 2] ∧
      failure.message.toList.splitOn '\n' = failure.diagnostics.map (fun p => p.2.toList) ∧
      (execute "1 \"a\nb\"").result = .error trailing ∧
      trailing.message.toList.splitOn '\n' ≠ trailing.diagnostics.map (fun p => p.2.toList) := by
  refine ⟨_, _, execute_straysOnLines, rfl, ?_, execute_trailingText, ?_⟩
  · refine (diagnostics_on_own_lines _ _ execute_straysOnLines).2.mpr ?_
    rintro ⟨t, -, -, -, hparse⟩
    cases hparse
  · refine mt (diagnostics_on_own_lines _ _ execute_trailingText).2.mp ?_
    exact not_not.mpr ⟨⟨.string, "a\nb", 1⟩, by simp [scan_trailingText], rfl, by decide, rfl⟩

theorem trailingText_on_two_lines :
    ∃ failure, (execute "1 \"a\nb\"").result = .error failure ∧
      failure.diagnostics.length = 1 ∧ (failure.message.toList.splitOn '\n').length = 2 := by
  refine ⟨_, execute_trailingText, rfl, ?_⟩
  decide +kernel

end ExpressionLanguage
