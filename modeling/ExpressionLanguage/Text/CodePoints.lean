namespace ExpressionLanguage.Text

/-- A set of code points, listed as inclusive ranges. -/
structure CodePoints where
  ranges : List (Nat × Nat)

def CodePoints.contains (set : CodePoints) (c : Char) : Bool :=
  set.ranges.any fun range => range.1 ≤ c.toNat && c.toNat ≤ range.2

theorem CodePoints.contains_iff {set : CodePoints} {c : Char} :
    set.contains c = true ↔ ∃ range ∈ set.ranges, range.1 ≤ c.toNat ∧ c.toNat ≤ range.2 := by
  simp [CodePoints.contains]

end ExpressionLanguage.Text
