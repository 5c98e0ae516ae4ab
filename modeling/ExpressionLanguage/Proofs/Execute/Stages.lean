import ExpressionLanguage.Execute
import ExpressionLanguage.Proofs.Grammar.Exactness
import ExpressionLanguage.Proofs.Grammar.Operators
import ExpressionLanguage.Proofs.Scan.Lines

namespace ExpressionLanguage

variable {source : String} {e : Expr} {v : Value} {r : RuntimeError}

theorem treeOf_result (source : String) :
    (treeOf source).result =
      if (scan source).errors = [] then
        (Cursor.start (scan source).tokens).parseAll.1.mapError .parse
      else .error (.scan (scan source).errors) := by
  unfold treeOf
  simp only [List.isEmpty_iff]
  split
  · rcases (Cursor.start (scan source).tokens).parseAll with ⟨result, final⟩
    cases result <;> rfl
  · rfl

theorem treeOf_eq_ok_iff_parseAll :
    (treeOf source).result = .ok e ↔
      (scan source).errors = [] ∧ (Cursor.start (scan source).tokens).parseAll.1 = .ok e := by
  rw [treeOf_result]
  split
  · rename_i hclean
    cases (Cursor.start (scan source).tokens).parseAll.1 <;> simp [Except.mapError, hclean]
  · rename_i hfault
    simp [hfault]

theorem treeOf_eq_ok_iff :
    (treeOf source).result = .ok e ↔
      (∀ s ∈ segments source.toList, s.isFault = false) ∧
        Derives .expression (tokensFrom 1 (segments source.toList)) e := by
  rw [treeOf_eq_ok_iff_parseAll, scan_errors_eq_nil_iff, Cursor.parseAll_start_iff, beforeEnd_scan]

theorem treeOf_journal (source : String) :
    (treeOf source).journal =
      if (scan source).errors = [] then
        (scan source).journal ++ (Cursor.start (scan source).tokens).parseAll.2.journal
      else (scan source).journal := by
  unfold treeOf
  simp only [List.isEmpty_iff]
  split
  · rcases (Cursor.start (scan source).tokens).parseAll with ⟨result, final⟩
    cases result <;> rfl
  · rfl

theorem treeOf_ne_runtime (source : String) (r : RuntimeError) :
    (treeOf source).result ≠ .error (.runtime r) := by
  rw [treeOf_result]
  split
  · cases (Cursor.start (scan source).tokens).parseAll.1 <;> simp [Except.mapError]
  · simp

theorem execute_eq_ok_iff :
    (execute source).result = .ok v ↔ ∃ e, (treeOf source).result = .ok e ∧ e.eval = .ok v := by
  rw [execute]
  cases (treeOf source).result with
  | error failure => simp [Except.bind]
  | ok e => cases he : e.eval <;> simp [Except.bind, evaluate, he, Except.mapError]

theorem execute_eq_runtime_iff :
    (execute source).result = .error (.runtime r) ↔
      ∃ e, (treeOf source).result = .ok e ∧ e.eval = .error r := by
  have hruntime := treeOf_ne_runtime source r
  rw [execute]
  cases htree : (treeOf source).result with
  | error failure =>
    rw [htree] at hruntime
    simpa [Except.bind] using hruntime
  | ok e => cases he : e.eval <;> simp [Except.bind, evaluate, he, Except.mapError]

theorem treeOf_eq_scan_iff {errors : List ScanError} :
    (treeOf source).result = .error (.scan errors) ↔
      (scan source).errors = errors ∧ errors ≠ [] := by
  rw [treeOf_result]
  split
  · rename_i hclean
    rw [hclean]
    cases (Cursor.start (scan source).tokens).parseAll.1 with
    | ok e => simp [Except.mapError, eq_comm]
    | error errs => simp [Except.mapError, eq_comm]
  · rename_i hfault
    simp only [Except.error.injEq, Failure.scan.injEq]
    constructor
    · rintro rfl
      exact ⟨rfl, hfault⟩
    · rintro ⟨rfl, -⟩
      rfl

theorem treeOf_eq_parse_iff {errors : List ParseError} :
    (treeOf source).result = .error (.parse errors) ↔
      (scan source).errors = [] ∧
        (Cursor.start (scan source).tokens).parseAll.1 = .error errors := by
  rw [treeOf_result]
  split
  · rename_i hclean
    cases (Cursor.start (scan source).tokens).parseAll.1 <;> simp [Except.mapError, hclean]
  · rename_i hfault
    simp [hfault]

theorem execute_of_treeOf_ok (h : (treeOf source).result = .ok e) :
    (execute source).result = e.eval.mapError .runtime := by
  rw [execute, h]
  rfl

theorem execute_of_treeOf_error {failure : Failure} (h : (treeOf source).result = .error failure) :
    (execute source).result = .error failure := by
  rw [execute, h]
  rfl

theorem execute_eq_error_iff {failure : Failure} (hstage : ∀ r, failure ≠ .runtime r) :
    (execute source).result = .error failure ↔ (treeOf source).result = .error failure := by
  cases h : (treeOf source).result with
  | error failure' => simp [execute_of_treeOf_error h]
  | ok e =>
    rw [execute_of_treeOf_ok h]
    cases e.eval with
    | ok v => simp [Except.mapError]
    | error r => simpa [Except.mapError, eq_comm] using hstage r

theorem execute_eq_scan_iff {errors : List ScanError} :
    (execute source).result = .error (.scan errors) ↔
      (scan source).errors = errors ∧ errors ≠ [] := by
  rw [execute_eq_error_iff (by simp), treeOf_eq_scan_iff]

theorem treeOf_failed_iff :
    (¬ ∃ e, (treeOf source).result = .ok e) ↔
      (∃ errors, (execute source).result = .error (.scan errors)) ∨
        ∃ errors, (execute source).result = .error (.parse errors) := by
  have hscan (errors : List ScanError) : (execute source).result = .error (.scan errors) ↔ _ :=
    execute_eq_error_iff (by simp)
  have hparse (errors : List ParseError) : (execute source).result = .error (.parse errors) ↔ _ :=
    execute_eq_error_iff (by simp)
  simp only [hscan, hparse]
  cases h : (treeOf source).result with
  | ok e => simp
  | error failure =>
    cases failure with
    | scan errors => simp
    | parse errors => simp
    | runtime r => exact absurd h (treeOf_ne_runtime source r)

theorem execute_of_derives {ss : List Segment} (h : Legible ss)
    (hsource : source.toList = written ss) (hfault : ∀ s ∈ ss, s.isFault = false)
    (hderives : Derives .expression (tokensFrom 1 ss) e) :
    (execute source).result = e.eval.mapError .runtime := by
  have hsegments : segments source.toList = ss := segments_eq_iff.mpr ⟨h, hsource.symm⟩
  have htree : (treeOf source).result = .ok e := by
    rw [treeOf_eq_ok_iff, hsegments]
    exact ⟨hfault, hderives⟩
  exact execute_of_treeOf_ok htree

theorem derives_of_execute (h : (execute source).result = .ok v) :
    (∀ s ∈ segments source.toList, s.isFault = false) ∧
      ∃ e, Derives .expression (tokensFrom 1 (segments source.toList)) e ∧ e.eval = .ok v := by
  obtain ⟨e, htree, heval⟩ := execute_eq_ok_iff.mp h
  obtain ⟨hfault, hderives⟩ := treeOf_eq_ok_iff.mp htree
  exact ⟨hfault, e, hderives, heval⟩

theorem treeOf_null : (treeOf "null").result = .ok (.literal .null) := by
  have hlegible : Legible [.word "null".toList] :=
    ⟨Keyword.nullWord.wellFormed_word, by simp [Segment.EndsBefore], trivial⟩
  have hsegments : segments "null".toList = _ := segments_eq_iff.mpr ⟨hlegible, rfl⟩
  rw [treeOf_eq_ok_iff, hsegments]
  exact ⟨by simp [Segment.isFault], (Derives.primary (.of_meaning rfl)).expression_of_unary⟩

theorem execute_null : (execute "null").result = .ok .null :=
  execute_of_treeOf_ok treeOf_null

end ExpressionLanguage
