import ExpressionLanguage.CommandLine.Response
import ExpressionLanguage.Proofs.Execute.Stages
import ExpressionLanguage.Proofs.Grammar.Operators
import ExpressionLanguage.Proofs.Grammar.Reporting

namespace ExpressionLanguage

namespace Response

variable {α : Type} {display : α → String} {run : Run α}

theorem ofRun_of_ok {a : α} (h : run.result = .ok a) :
    ofRun display run = success (line (display a)) run.journal := by
  rw [ofRun, h]

theorem ofRun_of_error {failure : Failure} (h : run.result = .error failure) :
    ofRun display run = failed (line failure.message) run.journal := by
  rw [ofRun, h]

theorem exitCode_ofRun_eq_zero_iff :
    (ofRun display run).exitCode = 0 ↔ ∃ a, run.result = .ok a := by
  cases h : run.result with
  | ok a => simp [ofRun_of_ok h, success]
  | error failure => simp [ofRun_of_error h, failed]

theorem exitCode_ofScan_eq_zero_iff {scanned : Scan} :
    (ofScan scanned).exitCode = 0 ↔ scanned.errors = [] := by
  simp [ofScan]

theorem journal_ofRun : (ofRun display run).journal = run.journal := by
  cases h : run.result with
  | ok a => simp [ofRun_of_ok h, success]
  | error failure => simp [ofRun_of_error h, failed]

theorem ofTree_eq (source : String) : ofTree source = ofRun Expr.render (treeOf source) := by
  unfold ofTree treeOf
  simp only
  split
  · rcases (Cursor.start (scan source).tokens).parseAll with ⟨result, final⟩
    cases result <;> rfl
  · rfl

theorem join_line {texts : List String} (h : texts ≠ []) :
    String.join (texts.map line) = line ("\n".intercalate texts) := by
  induction texts with
  | nil => exact absurd rfl h
  | cons text texts ih =>
    cases texts with
    | nil => simp [line]
    | cons next texts =>
      rw [List.map_cons, String.join_cons, ih (by simp), String.intercalate_cons_cons]
      simp [line, String.append_assoc]

theorem complaints_ofScan {scanned : Scan} (h : scanned.errors ≠ []) :
    (ofScan scanned).complaints = line (Failure.scan scanned.errors).message := by
  have hmessages : (Failure.scan scanned.errors).messages ≠ [] := by
    simpa [Failure.messages] using h
  rw [Failure.message, ← join_line hmessages, Failure.messages, List.map_map]
  rfl

end Response

def Entry.Detailed (entry : Entry) : Prop :=
  ∀ verbosity ≤ 1, entry.isShown verbosity = false

theorem Entry.detailed_of_severity {entry : Entry}
    (h : entry.severity = .debug ∨ entry.severity = .trace) : entry.Detailed := by
  intro verbosity hle
  obtain rfl | rfl : verbosity = 0 ∨ verbosity = 1 := by omega
  · rcases h with h | h <;> simp [isShown, h, Severity.threshold, Severity.rank]
  · rcases h with h | h <;> simp [isShown, h, Severity.threshold, Severity.rank]

theorem scan_journal_detailed (source : String) :
    ∀ entry ∈ (scan source).journal, entry.Detailed := by
  intro entry hentry
  rw [(scan_reads source).2.2] at hentry
  rcases List.mem_append.mp hentry with hentry | hentry
  · obtain ⟨err, -, rfl⟩ := List.mem_map.mp hentry
    exact Entry.detailed_of_severity (.inl rfl)
  · obtain rfl := List.mem_singleton.mp hentry
    exact Entry.detailed_of_severity (.inr rfl)

theorem parseAll_journal_detailed (tokens : List Token) :
    ∀ entry ∈ (Cursor.start tokens).parseAll.2.journal, entry.Detailed := by
  intro entry hentry
  rw [Cursor.journal_parseAll_start] at hentry
  obtain ⟨err, -, rfl⟩ := List.mem_map.mp hentry
  exact Entry.detailed_of_severity (.inl rfl)

theorem treeOf_journal_detailed (source : String) :
    ∀ entry ∈ (treeOf source).journal, entry.Detailed := by
  have hscan := scan_journal_detailed source
  have hparse := parseAll_journal_detailed (scan source).tokens
  rw [treeOf_journal]
  split
  · exact List.forall_mem_append.mpr ⟨hscan, hparse⟩
  · exact hscan

theorem closingEntry_detailed (result : Except Failure Expr) :
    ∀ entry ∈ closingEntry result, entry.Detailed := by
  intro entry hentry
  unfold closingEntry at hentry
  split at hentry
  · obtain rfl := List.mem_singleton.mp hentry
    exact Entry.detailed_of_severity (.inr rfl)
  · obtain rfl := List.mem_singleton.mp hentry
    exact Entry.detailed_of_severity (.inl rfl)
  · obtain rfl := List.mem_singleton.mp hentry
    exact Entry.detailed_of_severity (.inl rfl)
  · cases hentry

theorem Response.ofSource_journal_detailed (source : String) (emit : Emit) :
    ∀ entry ∈ (ofSource source emit).journal, entry.Detailed := by
  cases emit with
  | value =>
    rw [ofSource, journal_ofRun]
    exact List.forall_mem_append.mpr ⟨treeOf_journal_detailed source, closingEntry_detailed _⟩
  | tokens => exact scan_journal_detailed source
  | tree =>
    rw [ofSource, ofTree_eq, journal_ofRun]
    exact treeOf_journal_detailed source

theorem Response.errorOutput_ofSource (source : String) (emit : Emit) {verbosity : Nat}
    (h : verbosity ≤ 1) (time : String) :
    (ofSource source emit).errorOutput verbosity time = (ofSource source emit).complaints := by
  have hnone : (ofSource source emit).journal.filter (·.isShown verbosity) = [] := by
    rw [List.filter_eq_nil_iff]
    intro entry hentry
    simp [ofSource_journal_detailed source emit entry hentry verbosity h]
  simp [errorOutput, hnone]

theorem scan_twoStrays :
    (scan "@#").errors = [.unexpectedCharacter '@' 1, .unexpectedCharacter '#' 1] := by
  have hlegible : Legible [.stray '@', .stray '#'] :=
    ⟨⟨⟨by decide, by decide, by decide, by decide⟩, rfl⟩, trivial,
      ⟨⟨by decide, by decide, by decide, by decide⟩, rfl⟩, trivial, trivial⟩
  have hsegments : segments "@#".toList = _ := segments_eq_iff.mpr ⟨hlegible, rfl⟩
  rw [scan_errors, hsegments]
  rfl

theorem treeOf_notNull :
    (treeOf "!null").result = .ok (.unary ⟨.symbol .bang, "!", 1⟩ (.literal .null)) := by
  have hlegible : Legible [.symbol .bang, .word "null".toList] := by
    refine ⟨trivial, ?_, Keyword.nullWord.wellFormed_word, by simp [Segment.EndsBefore], trivial⟩
    intro c hc
    obtain rfl : 'n' = c := by simpa [Segment.chars] using hc
    exact Symbol.ofChars?_append_eq_none (by decide)
  have hsegments : segments "!null".toList = _ := segments_eq_iff.mpr ⟨hlegible, rfl⟩
  rw [treeOf_eq_ok_iff, hsegments]
  exact ⟨by simp [Segment.isFault],
    (Derives.unary (.inr rfl) (.primary (.of_meaning rfl))).expression_of_unary⟩

namespace Response

variable {source : String}

theorem exitCode_tokens_eq_zero_iff :
    (ofSource source .tokens).exitCode = 0 ↔ (scan source).errors = [] :=
  exitCode_ofScan_eq_zero_iff

theorem tree_ok {e : Expr} (h : (treeOf source).result = .ok e) :
    ofSource source .tree = success (line e.render) (treeOf source).journal :=
  (ofTree_eq source).trans (ofRun_of_ok h)

theorem tree_error {failure : Failure} (h : (treeOf source).result = .error failure) :
    ofSource source .tree = failed (line failure.message) (treeOf source).journal :=
  (ofTree_eq source).trans (ofRun_of_error h)

theorem exitCode_tree_eq_zero_iff :
    (ofSource source .tree).exitCode = 0 ↔ ∃ e, (treeOf source).result = .ok e := by
  rw [ofSource, ofTree_eq]
  exact exitCode_ofRun_eq_zero_iff

theorem complaints_tree {failure : Failure} (h : (treeOf source).result = .error failure) :
    (ofSource source .tree).complaints = line failure.message :=
  congrArg complaints (tree_error h)

theorem complaints_value {failure : Failure} (h : (treeOf source).result = .error failure) :
    (ofSource source .value).complaints = line failure.message :=
  congrArg complaints (ofRun_of_error (execute_of_treeOf_error h))

theorem tokens_failed (h : (ofSource source .tokens).exitCode ≠ 0) :
    (ofSource source .tokens).complaints = (ofSource source .value).complaints ∧
      (ofSource source .tokens).complaints = (ofSource source .tree).complaints := by
  have herrors : (scan source).errors ≠ [] := mt exitCode_tokens_eq_zero_iff.mpr h
  have htree := treeOf_eq_scan_iff.mpr ⟨rfl, herrors⟩
  rw [complaints_value htree, complaints_tree htree]
  exact ⟨complaints_ofScan herrors, complaints_ofScan herrors⟩

theorem tree_failed (h : (ofSource source .tree).exitCode ≠ 0) :
    (ofSource source .tree).output = "" ∧
      (ofSource source .tree).complaints = (ofSource source .value).complaints := by
  cases htree : (treeOf source).result with
  | ok e => exact absurd (exitCode_tree_eq_zero_iff.mpr ⟨e, htree⟩) h
  | error failure =>
    refine ⟨congrArg output (tree_error htree), ?_⟩
    rw [complaints_tree htree, complaints_value htree]

theorem value_of_eval_ok {e : Expr} {v : Value} (h : (treeOf source).result = .ok e)
    (hv : e.eval = .ok v) :
    ofSource source .value = success (line v.display) (execute source).journal := by
  have hexecute := execute_of_treeOf_ok h
  rw [hv] at hexecute
  exact ofRun_of_ok hexecute

theorem value_of_eval_error {e : Expr} {r : RuntimeError} (h : (treeOf source).result = .ok e)
    (hr : e.eval = .error r) :
    ofSource source .value = failed (line r.message) (execute source).journal := by
  have hexecute := execute_of_treeOf_ok h
  rw [hr] at hexecute
  have hmessage : (Failure.runtime r).message = r.message := String.intercalate_singleton
  rw [← hmessage]
  exact ofRun_of_error hexecute

theorem emits_agree (source : String) :
    ((ofSource source .tokens).exitCode ≠ 0 ↔
      ∃ errors, (execute source).result = .error (.scan errors)) ∧
    ((ofSource source .tokens).exitCode ≠ 0 →
      (ofSource source .tokens).complaints = (ofSource source .value).complaints ∧
      (ofSource source .tokens).complaints = (ofSource source .tree).complaints) ∧
    ((ofSource source .tree).exitCode ≠ 0 ↔
      (∃ errors, (execute source).result = .error (.scan errors)) ∨
        ∃ errors, (execute source).result = .error (.parse errors)) ∧
    ((ofSource source .tree).exitCode ≠ 0 → (ofSource source .tree).output = "" ∧
      (ofSource source .tree).complaints = (ofSource source .value).complaints) ∧
    ((ofSource source .tree).exitCode = 0 → ∃ e, (scan source).errors = [] ∧
      (Cursor.start (scan source).tokens).parseAll.1 = .ok e ∧
      (ofSource source .tree).output = e.render ++ "\n" ∧
      (execute source).result = e.eval.mapError .runtime ∧
      (∀ v, e.eval = .ok v → (ofSource source .value).exitCode = 0 ∧
        (ofSource source .value).output = v.display ++ "\n" ∧
        (ofSource source .value).complaints = "") ∧
      ∀ r, e.eval = .error r → (ofSource source .value).exitCode ≠ 0 ∧
        (ofSource source .value).output = "" ∧
        (ofSource source .value).complaints = r.message ++ "\n") ∧
    ((ofSource source .value).exitCode = 0 → (ofSource source .tree).exitCode = 0) ∧
    ((ofSource source .tree).exitCode = 0 → (ofSource source .tokens).exitCode = 0) ∧
    ∀ emit, ∀ verbosity ≤ 1, ∀ time,
      (ofSource source emit).errorOutput verbosity time = (ofSource source emit).complaints := by
  refine ⟨?_, tokens_failed, ?_, tree_failed, ?_, ?_, ?_, ?_⟩
  · rw [Ne, exitCode_tokens_eq_zero_iff]
    simp [execute_eq_scan_iff]
  · rw [Ne, exitCode_tree_eq_zero_iff, treeOf_failed_iff]
  · intro hsucceeds
    obtain ⟨e, he⟩ := exitCode_tree_eq_zero_iff.mp hsucceeds
    obtain ⟨hclean, hparse⟩ := treeOf_eq_ok_iff_parseAll.mp he
    refine ⟨e, hclean, hparse, congrArg output (tree_ok he), execute_of_treeOf_ok he, ?_, ?_⟩
    · intro v hv
      rw [value_of_eval_ok he hv]
      exact ⟨rfl, rfl, rfl⟩
    · intro r hr
      rw [value_of_eval_error he hr]
      exact ⟨Nat.one_ne_zero, rfl, rfl⟩
  · intro hsucceeds
    obtain ⟨v, hv⟩ := exitCode_ofRun_eq_zero_iff.mp hsucceeds
    obtain ⟨e, he, -⟩ := execute_eq_ok_iff.mp hv
    exact exitCode_tree_eq_zero_iff.mpr ⟨e, he⟩
  · intro hsucceeds
    obtain ⟨e, he⟩ := exitCode_tree_eq_zero_iff.mp hsucceeds
    exact exitCode_tokens_eq_zero_iff.mpr (treeOf_eq_ok_iff_parseAll.mp he).1
  · intro emit verbosity hle time
    exact errorOutput_ofSource source emit hle time

theorem emits_agree_threeSources :
    let errors := "Error on line 1: Unexpected token '@'.\nError on line 1: Unexpected token '#'.\n"
    (ofSource "@#" .tokens).exitCode ≠ 0 ∧
    (ofSource "@#" .tokens).complaints = errors ∧
    (ofSource "@#" .value).complaints = errors ∧
    (ofSource "@#" .tree).complaints = errors ∧
    (ofSource "@#" .tree).exitCode ≠ 0 ∧ (ofSource "@#" .tree).output = "" ∧
    (ofSource "@#" .tokens).errorOutput 1 "12:00:00.000" = errors ∧
    (ofSource "!null" .tree).exitCode = 0 ∧
    (ofSource "!null" .tokens).exitCode = 0 ∧
    (ofSource "!null" .value).complaints =
      "Error on line 1: Cannot evaluate unary '!' on null.\n" ∧
    (ofSource "null" .value).exitCode = 0 ∧
    (ofSource "null" .tree).exitCode = 0 := by
  intro errors
  have hcomplaints : (ofSource "@#" .tokens).complaints = errors := by
    rw [ofSource, ofScan, scan_twoStrays]
    rfl
  obtain ⟨htokens, hfails, htree, hsilent, -, -, -, hquiet⟩ := emits_agree "@#"
  have hscan := execute_eq_scan_iff.mpr ⟨scan_twoStrays, by simp⟩
  have hfailed := htokens.mpr ⟨_, hscan⟩
  have htreeFailed := htree.mpr (.inl ⟨_, hscan⟩)
  obtain ⟨hvalue, hsame⟩ := hfails hfailed
  obtain ⟨-, -, -, -, hruns, -, hsteps, -⟩ := emits_agree "!null"
  have hshown := exitCode_tree_eq_zero_iff.mpr ⟨_, treeOf_notNull⟩
  obtain ⟨e, hclean, hparse, -, -, -, hruntime⟩ := hruns hshown
  obtain rfl : .unary ⟨.symbol .bang, "!", 1⟩ (.literal .null) = e := by
    have htree := treeOf_eq_ok_iff_parseAll.mpr ⟨hclean, hparse⟩
    exact Except.ok.inj (treeOf_notNull.symm.trans htree)
  obtain ⟨-, -, -, -, -, hevaluated, -, -⟩ := emits_agree "null"
  have hnull : (ofSource "null" .value).exitCode = 0 :=
    congrArg exitCode (value_of_eval_ok treeOf_null rfl)
  exact ⟨hfailed, hcomplaints, hvalue.symm.trans hcomplaints, hsame.symm.trans hcomplaints,
    htreeFailed, (hsilent htreeFailed).1, (hquiet .tokens 1 (Nat.le_refl 1) _).trans hcomplaints,
    hshown, hsteps hshown, (hruntime _ rfl).2.2, hnull, hevaluated hnull⟩

end Response

end ExpressionLanguage
