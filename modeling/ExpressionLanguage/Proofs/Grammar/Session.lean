import ExpressionLanguage.Grammar.Whole
import ExpressionLanguage.Proofs.Grammar.Recovery

namespace ExpressionLanguage

theorem ParseError.isFatal_iff {err : ParseError} :
    err.isFatal = true ↔ (∃ line, err = .unterminatedGroup line) ∨
      ∃ kind lexeme line, err = .malformedLiteral kind lexeme line := by
  cases err <;> simp [isFatal]

theorem Repair.isFatal_of_mem_complaints {rest : List Token} {line : Nat} {rs : List Repair}
    {err : ParseError} (h : err ∈ complaints rest line rs) : err.isFatal = false := by
  rcases mem_complaints h with ⟨found, line, rfl⟩ | ⟨lexeme, line, rfl⟩
  · rfl
  · rfl

theorem lineAfter_eq_getLast? (line : Nat) (w : List Token) :
    lineAfter line w = (w.getLast?.map Token.line).getD line := by
  induction w generalizing line with
  | nil => rfl
  | cons t w ih =>
    rw [lineAfter_cons, ih, List.getLast?_cons]
    cases w.getLast? <;> rfl

/-- An outcome that is reached by reading on from `c`. Only a fatal error is returned as one. -/
structure Reaches (c : Cursor) (o : Outcome) : Prop where
  repaired : ∃ rs, Repaired c o.2 rs
  fatal : ∀ err, o.1 = .error err → err.isFatal = true

namespace Reaches

variable {c d : Cursor} {o : Outcome}

theorem of_repaired {rs : List Repair} (h : Repaired c d rs) (e : Expr) : Reaches c (.ok e, d) :=
  ⟨⟨rs, h⟩, fun _ herr => nomatch herr⟩

theorem after_repaired {rs : List Repair} (h : Repaired c d rs) (h' : Reaches d o) :
    Reaches c o := by
  obtain ⟨⟨ss, hss⟩, hfatal⟩ := h'
  exact ⟨⟨rs ++ ss, h.trans hss⟩, hfatal⟩

theorem andThen {next : Expr → Cursor → Outcome} (h : Reaches c o)
    (hnext : ∀ e d, o = (.ok e, d) → Reaches d (next e d)) : Reaches c (o.andThen next) := by
  obtain ⟨result, d⟩ := o
  cases result with
  | error err => exact ⟨h.repaired, h.fatal⟩
  | ok e =>
    obtain ⟨rs, hrs⟩ := h.repaired
    exact (hnext e d rfl).after_repaired hrs

theorem missing (c : Cursor) : Reaches c c.missing :=
  of_repaired (.of_missing c) (.literal .null)

theorem literal (c : Cursor) : Reaches c c.literal := by
  unfold Cursor.literal
  split
  · exact missing c
  · rename_i t after hstep
    split
    · exact of_repaired (.of_step? hstep) _
    · rename_i hmeaning
      exact of_repaired (.of_tooLarge hstep hmeaning) _
    · refine ⟨⟨_, .of_step? hstep⟩, ?_⟩
      rintro err herr
      obtain rfl := Except.error.inj herr
      rfl

theorem parse (level : Level) (c : Cursor) : Reaches c (level.parse c) := by
  have hjudgement : ReadingJudgement Reaches :=
    { done := fun e c => of_repaired (.refl c) e
      unclosed := by
        intro line c
        refine ⟨⟨[], .refl c⟩, ?_⟩
        rintro err herr
        obtain rfl := Except.error.inj herr
        rfl
      missing := missing
      literal := fun c _ _ _ _ => literal c
      take := fun _ _ _ _ _ hop h => h.after_repaired (.of_take? hop)
      andThen := fun _ _ _ h hnext => h.andThen hnext }
  exact hjudgement.parse level c

theorem run (call : Call) (c : Cursor) : Reaches c (call.run c) := by
  cases call with
  | level level => exact parse level c
  | literal => exact literal c

end Reaches

theorem Level.length_of_parse {level : Level} {c d : Cursor} {e : Expr}
    (h : level.parse c = (.ok e, d)) : d.tokens.length ≤ c.tokens.length := by
  have hle := level.length_parse c
  rwa [h] at hle

theorem Tier.length_of_chain {tier : Tier} {left e : Expr} {c d : Cursor}
    (h : tier.chain left c = (.ok e, d)) : d.tokens.length ≤ c.tokens.length := by
  have hle : (tier.chain left c).2.tokens.length ≤ c.tokens.length := (readChain tier left c).2
  rwa [h] at hle

theorem Tier.chain_idle {tier : Tier} {left e : Expr} {c d : Cursor}
    (h : tier.chain left c = (.ok e, d)) (hlength : c.tokens.length ≤ d.tokens.length) :
    (e, d) = (left, c) := by
  rw [chain_eq] at h
  cases hop : c.take? tier.operators with
  | none =>
    obtain ⟨rfl, rfl⟩ : left = e ∧ c = d := by simpa [hop] using h
    rfl
  | some p =>
    simp only [hop] at h
    obtain ⟨right, rest, hright, hchain⟩ := Outcome.andThen_eq_ok_iff.mp h
    have hafter := Cursor.length_of_take? hop
    have hrest := Level.length_of_parse hright
    have hd := length_of_chain hchain
    omega

theorem Cursor.literal_idle {c d : Cursor} {e : Expr} (h : c.literal = (.ok e, d))
    (hlength : c.tokens.length ≤ d.tokens.length) : c.missing = (.ok e, d) := by
  unfold literal at h
  split at h
  · exact h
  · rename_i t after hstep
    have hlt := length_of_step? hstep
    have hd : d.tokens = after.tokens := by
      split at h
      · obtain ⟨-, rfl⟩ := Prod.mk.inj h
        rfl
      · obtain ⟨-, rfl⟩ := Prod.mk.inj h
        rfl
      · cases h
    rw [hd] at hlength
    omega

theorem Cursor.atom_idle {c d : Cursor} {e : Expr} (h : c.atom = (.ok e, d))
    (hlength : c.tokens.length ≤ d.tokens.length) : c.missing = (.ok e, d) := by
  unfold atom at h
  split at h
  · exact h
  · split at h
    · exact literal_idle h hlength
    · exact h

theorem Level.parse_idle (level : Level) (c : Cursor) :
    ∀ e d, level.parse c = (.ok e, d) → c.tokens.length ≤ d.tokens.length →
      c.missing = (.ok e, d) := by
  have hrules : ReadingRules
      (fun level c => ∀ e d, level.parse c = (.ok e, d) → c.tokens.length ≤ d.tokens.length →
        c.missing = (.ok e, d))
      -- a chain starts behind its left operand: what it may do is said by `Tier.chain_idle`
      (fun _ _ _ => True) :=
    { atom := by
        intro c hop e d h hlength
        rw [parse_primary, hop] at h
        exact Cursor.atom_idle h hlength
      group := by
        intro c opening inside hop _ e d h hlength
        rw [parse_primary, hop] at h
        obtain ⟨inner, closing, hinner, hclose⟩ := Outcome.andThen_eq_ok_iff.mp h
        have hinside := Cursor.length_of_take? hop
        have hclosing := length_of_parse hinner
        cases hparen : closing.take? [.rightParen] with
        | none => simp [hparen] at hclose
        | some p =>
          obtain ⟨-, rfl⟩ : .group inner = e ∧ p.2 = d := by simpa [hparen] using hclose
          have hafter := Cursor.length_of_take? hparen
          omega
      primary := by
        intro c hop ih e d h
        rw [parse_unary, hop] at h
        exact ih e d h
      unary := by
        intro c op after hop _ e d h hlength
        rw [parse_unary, hop] at h
        obtain ⟨operand, rest, hoperand, hrest⟩ := Outcome.andThen_eq_ok_iff.mp h
        obtain ⟨-, rfl⟩ := Prod.mk.inj hrest
        have hafter := Cursor.length_of_take? hop
        have hlast := length_of_parse hoperand
        omega
      binary := by
        intro tier c ih _ e d h hlength
        rw [parse_binary] at h
        obtain ⟨left, rest, hleft, hchain⟩ := Outcome.andThen_eq_ok_iff.mp h
        have hrest := length_of_parse hleft
        obtain ⟨rfl, rfl⟩ := Prod.mk.inj (Tier.chain_idle hchain (Nat.le_trans hrest hlength))
        exact ih e d hleft hlength
      stop := fun _ _ _ _ => trivial
      link := fun _ _ _ _ _ _ _ _ => trivial }
  exact hrules.holds.1 level c

theorem Call.run_idle (call : Call) {c d : Cursor} {e : Expr} (h : call.run c = (.ok e, d))
    (htokens : d.tokens = c.tokens) : c.missing = (.ok e, d) := by
  have hlength : c.tokens.length ≤ d.tokens.length := by simp [htokens]
  cases call with
  | level level => exact level.parse_idle c e d h hlength
  | literal => exact Cursor.literal_idle h hlength

def Cursor.after (c : Cursor) (calls : List Call) : Cursor :=
  calls.foldl (fun d call => (call.run d).2) c

theorem Cursor.after_cons (c : Cursor) (call : Call) (calls : List Call) :
    c.after (call :: calls) = (call.run c).2.after calls := rfl

theorem session_append (xs ys : List Call) (c : Cursor) :
    session (xs ++ ys) c = session xs c ++ session ys (c.after xs) := by
  induction xs generalizing c with
  | nil => rfl
  | cons call xs ih =>
    rw [List.cons_append, session, session, ih, Cursor.after_cons, List.cons_append]

theorem repaired_after (calls : List Call) (c : Cursor) : ∃ rs, Repaired c (c.after calls) rs := by
  induction calls generalizing c with
  | nil => exact ⟨[], .refl c⟩
  | cons call calls ih =>
    obtain ⟨rs, hfirst⟩ := (Reaches.run call c).repaired
    obtain ⟨ss, hrest⟩ := ih (call.run c).2
    exact ⟨rs ++ ss, hfirst.trans hrest⟩

theorem session_invariant (tokens : List Token) (before : List Call) (call : Call) :
    let start := Cursor.start tokens
    let c := start.after before
    let o := call.run c
    session (before ++ [call]) start = session before start ++ [o] ∧
    o.2.tokens <:+ c.tokens ∧ c.errors <+: o.2.errors ∧
    (∀ err ∈ o.2.errors, err.isFatal = false ∧
      ((∃ found line, err = .expectedExpression found line) ∨
        ∃ lexeme line, err = .literalTooLarge lexeme line)) ∧
    (∀ err, o.1 = .error err → err.isFatal = true ∧
      ((∃ line, err = .unterminatedGroup line) ∨
        ∃ kind lexeme line, err = .malformedLiteral kind lexeme line) ∧
      err ∉ o.2.errors) ∧
    (∃ consumed, tokens = consumed ++ o.2.tokens ∧
      o.2.lastLine = (consumed.getLast?.map Token.line).getD 1) ∧
    ∀ e, o.1 = .ok e → o.2.tokens = c.tokens →
      e = .literal .null ∧
        ∃ found line, o.2.errors = c.errors ++ [.expectedExpression found line] := by
  intro start c o
  obtain ⟨⟨rs, hcall⟩, hfatal⟩ := Reaches.run call c
  obtain ⟨ss, hbefore⟩ := repaired_after before start
  have hwhole : Repaired start o.2 (ss ++ rs) := hbefore.trans hcall
  have hrecorded : ∀ err ∈ o.2.errors, err ∈ Repair.complaints o.2.tokens 1 (ss ++ rs) := by
    intro err herr
    rwa [hwhole.errors] at herr
  refine ⟨?_, ⟨_, hcall.tokens.symm⟩, ⟨_, hcall.errors.symm⟩, ?_, ?_, ?_, ?_⟩
  · rw [session_append]
    rfl
  · intro err herr
    exact ⟨Repair.isFatal_of_mem_complaints (hrecorded err herr),
      Repair.mem_complaints (hrecorded err herr)⟩
  · intro err herr
    have herrFatal := hfatal err herr
    refine ⟨herrFatal, ParseError.isFatal_iff.mp herrFatal, ?_⟩
    intro hmem
    simp [Repair.isFatal_of_mem_complaints (hrecorded err hmem)] at herrFatal
  · refine ⟨_, hwhole.tokens, ?_⟩
    rw [hwhole.lastLine, lineAfter_eq_getLast?]
    rfl
  · intro e he htokens
    have hmissing : c.missing = (.ok e, o.2) := call.run_idle (Prod.ext he rfl) htokens
    obtain ⟨hnull, hcursor⟩ := Prod.mk.inj hmissing
    obtain ⟨found, line, hfound⟩ := Repair.expected_eq c.lastLine c.tokens
    refine ⟨(Except.ok.inj hnull).symm, found, line, ?_⟩
    rw [← hcursor, Cursor.record_errors, Cursor.missingError_eq, hfound]

-- a literal read from an operator fails and still consumes it; the next call finds nothing left
def strayMinus : Cursor :=
  .start [⟨.symbol .minus, "-", 3⟩]

theorem session_invariant_strayMinus :
    strayMinus.literal.1 = .error (.malformedLiteral (.symbol .minus) "-" 3) ∧
    (∃ err, strayMinus.literal.1 = .error err ∧ err.isFatal = true ∧
      err ∉ strayMinus.literal.2.errors) ∧
    (strayMinus.after [.literal]).literal.2.tokens = (strayMinus.after [.literal]).tokens ∧
    (strayMinus.after [.literal]).literal.1 = .ok (.literal .null) ∧
    ∃ found line,
      (strayMinus.after [.literal]).literal.2.errors = [.expectedExpression found line] := by
  have hfails : strayMinus.literal.1 = .error (.malformedLiteral (.symbol .minus) "-" 3) := rfl
  have hnull : (strayMinus.after [.literal]).literal.1 = .ok (.literal .null) := rfl
  obtain ⟨-, -, -, -, herr, -, -⟩ := session_invariant strayMinus.tokens [] .literal
  obtain ⟨hfatal, -, hrecorded⟩ := herr _ hfails
  obtain ⟨-, -, -, -, -, -, hidle⟩ := session_invariant strayMinus.tokens [.literal] .literal
  obtain ⟨-, found, line, herrors⟩ := hidle _ hnull rfl
  exact ⟨hfails, ⟨_, hfails, hfatal, hrecorded⟩, rfl, hnull, found, line, herrors⟩

end ExpressionLanguage
