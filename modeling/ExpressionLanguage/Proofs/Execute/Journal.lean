import ExpressionLanguage.Proofs.Execute.Stages
import ExpressionLanguage.Proofs.Grammar.Agreement
import ExpressionLanguage.Proofs.Grammar.Reporting

namespace ExpressionLanguage

namespace Cursor

variable {c : Cursor} {e : Expr} {errors : List ParseError}

theorem parseAll_cases (c : Cursor) :
    (∃ e, c.parseAll.1 = .ok e ∧ c.parseAll.2.errors = []) ∨
      c.parseAll.1 = .error c.parseAll.2.errors ∧ c.parseAll.2.errors ≠ [] := by
  unfold parseAll
  split
  · exact .inr ⟨rfl, by simp [record]⟩
  · rename_i e rest _
    by_cases hclean : rest.checkTrailing.errors = []
    · exact .inl ⟨e, by simp [hclean], hclean⟩
    · exact .inr ⟨by simp [hclean], hclean⟩

theorem errors_of_parseAll_error (h : c.parseAll.1 = .error errors) :
    c.parseAll.2.errors = errors ∧ errors ≠ [] := by
  rcases c.parseAll_cases with ⟨e, hok, -⟩ | ⟨herror, hne⟩
  · simp [h] at hok
  · obtain rfl : errors = c.parseAll.2.errors := by simpa [h] using herror
    exact ⟨rfl, hne⟩

end Cursor

section

variable {source : String}

end

end ExpressionLanguage
