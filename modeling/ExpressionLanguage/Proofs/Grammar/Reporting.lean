import ExpressionLanguage.Grammar.Whole
import ExpressionLanguage.Proofs.Grammar.Induction

namespace ExpressionLanguage

def ParseError.entry (err : ParseError) : Entry :=
  ⟨.debug, .parser, err.message⟩

def Cursor.Reports (c d : Cursor) : Prop :=
  ∃ errs, d.errors = c.errors ++ errs ∧ d.journal = c.journal ++ errs.map ParseError.entry

namespace Cursor.Reports

variable {c d e : Cursor}

theorem refl (c : Cursor) : c.Reports c :=
  ⟨[], by simp, by simp⟩

theorem trans (h : c.Reports d) (h' : d.Reports e) : c.Reports e := by
  obtain ⟨xs, hxs, hjxs⟩ := h
  obtain ⟨ys, hys, hjys⟩ := h'
  refine ⟨xs ++ ys, ?_, ?_⟩
  · rw [hys, hxs, List.append_assoc]
  · rw [hjys, hjxs, List.map_append, List.append_assoc]

theorem record (c : Cursor) (err : ParseError) : c.Reports (c.record err) :=
  ⟨[err], rfl, rfl⟩

theorem of_step? {t : Token} (h : c.step? = some (t, d)) : c.Reports d := by
  obtain ⟨-, herrors, -, hjournal⟩ := Cursor.step?_eq_some_iff.mp h
  exact ⟨[], by simp [herrors], by simp [hjournal]⟩

theorem literal (c : Cursor) : c.Reports c.literal.2 := by
  unfold Cursor.literal
  split
  · exact record c c.missingError
  · rename_i t after hstep
    have hafter := of_step? hstep
    split
    · exact hafter
    · exact hafter.trans (record after _)
    · exact hafter

theorem parse (level : Level) (c : Cursor) : c.Reports (level.parse c).2 := by
  have hjudgement : ReadingJudgement fun c o => c.Reports o.2 :=
    { done := fun _ c => refl c
      unclosed := fun _ c => refl c
      missing := fun c => record c c.missingError
      literal := fun c _ _ _ _ => literal c
      take := fun _ _ _ _ _ hop h => (of_step? (Cursor.take?_eq_some_iff.mp hop).1).trans h
      andThen := by
        rintro c ⟨result, d⟩ next h hnext
        cases result with
        | error err => exact h
        | ok e => exact h.trans (hnext e d rfl) }
  exact hjudgement.parse level c

theorem checkTrailing (c : Cursor) : c.Reports c.checkTrailing := by
  unfold Cursor.checkTrailing
  split
  · split
    · exact refl c
    · exact record c _
  · exact refl c

theorem parseAll (c : Cursor) : c.Reports c.parseAll.2 := by
  have hparse := parse .expression c
  unfold Cursor.parseAll
  split
  · rename_i err stopped h
    rw [h] at hparse
    exact hparse.trans (record stopped err)
  · rename_i e rest h
    rw [h] at hparse
    exact hparse.trans (checkTrailing rest)

end Cursor.Reports

theorem Cursor.journal_parseAll_start (tokens : List Token) :
    (start tokens).parseAll.2.journal =
      (start tokens).parseAll.2.errors.map ParseError.entry := by
  obtain ⟨errs, herrors, hjournal⟩ := Reports.parseAll (start tokens)
  rw [herrors, hjournal]
  rfl

end ExpressionLanguage
