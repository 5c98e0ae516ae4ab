import ExpressionLanguage.Proofs.Grammar.Exactness
import ExpressionLanguage.Proofs.Grammar.Operators

namespace ExpressionLanguage

def openings (w : List Token) : Nat :=
  w.countP fun t => t.kind = .symbol .leftParen

def closings (w : List Token) : Nat :=
  w.countP fun t => t.kind = .symbol .rightParen

section

variable {t : Token} {w : List Token}

theorem openings_append (v w : List Token) : openings (v ++ w) = openings v + openings w :=
  List.countP_append

theorem closings_append (v w : List Token) : closings (v ++ w) = closings v + closings w :=
  List.countP_append

theorem openings_cons_self (h : t.kind = .symbol .leftParen) :
    openings (t :: w) = openings w + 1 :=
  List.countP_cons_of_pos (by simpa using h)

theorem openings_cons_of_ne (h : t.kind ≠ .symbol .leftParen) : openings (t :: w) = openings w :=
  List.countP_cons_of_neg (by simpa using h)

theorem closings_cons_self (h : t.kind = .symbol .rightParen) :
    closings (t :: w) = closings w + 1 :=
  List.countP_cons_of_pos (by simpa using h)

theorem closings_cons_of_ne (h : t.kind ≠ .symbol .rightParen) : closings (t :: w) = closings w :=
  List.countP_cons_of_neg (by simpa using h)

end

structure Balanced (w : List Token) : Prop where
  nested : ∀ v, v <+: w → closings v ≤ openings v
  total : closings w = openings w

namespace Balanced

variable {v w : List Token}

theorem nil : Balanced [] := by
  refine ⟨?_, rfl⟩
  intro v hv
  obtain rfl := List.prefix_nil.mp hv
  exact Nat.le_refl _

theorem append (hv : Balanced v) (hw : Balanced w) : Balanced (v ++ w) where
  nested := by
    intro u hu
    rcases List.prefix_or_prefix_of_prefix hu (List.prefix_append v w) with h | ⟨u', rfl⟩
    · exact hv.nested u h
    · have hle := hw.nested u' ((List.prefix_append_right_inj v).mp hu)
      rw [closings_append, openings_append, hv.total]
      omega
  total := by rw [closings_append, openings_append, hv.total, hw.total]

theorem singleton {t : Token} (hopen : t.kind ≠ .symbol .leftParen)
    (hclose : t.kind ≠ .symbol .rightParen) : Balanced [t] := by
  have hcounts : closings [t] = 0 ∧ openings [t] = 0 :=
    ⟨closings_cons_of_ne hclose, openings_cons_of_ne hopen⟩
  refine ⟨?_, hcounts.1.trans hcounts.2.symm⟩
  intro v hv
  rcases List.prefix_cons_iff.mp hv with rfl | ⟨u, rfl, hu⟩
  · exact Nat.le_refl _
  · obtain rfl := List.prefix_nil.mp hu
    omega

theorem enclosed {opening closing : Token} (hopen : opening.kind = .symbol .leftParen)
    (hw : Balanced w) (hclose : closing.kind = .symbol .rightParen) :
    Balanced (opening :: (w ++ [closing])) := by
  have hleft : closings [closing] = 1 ∧ openings [closing] = 0 :=
    ⟨closings_cons_self hclose, openings_cons_of_ne (by simp [hclose])⟩
  have hwhole : closings (w ++ [closing]) = openings w + 1 ∧
      openings (w ++ [closing]) = openings w := by
    rw [closings_append, openings_append, hleft.1, hleft.2, hw.total]
    exact ⟨rfl, rfl⟩
  have hright (u : List Token) :
      closings (opening :: u) = closings u ∧ openings (opening :: u) = openings u + 1 :=
    ⟨closings_cons_of_ne (by simp [hopen]), openings_cons_self hopen⟩
  refine ⟨?_, ?_⟩
  · intro v hv
    rcases List.prefix_cons_iff.mp hv with rfl | ⟨u, rfl, hu⟩
    · exact Nat.le_refl _
    · rw [(hright u).1, (hright u).2]
      rcases List.prefix_concat_iff.mp hu with rfl | hu
      · omega
      · exact Nat.le_succ_of_le (hw.nested u hu)
  · rw [(hright _).1, (hright _).2]
    omega

end Balanced

structure OpenBefore (line : Nat) (tokens rest : List Token) : Prop where
  split : ∃ u opening v, tokens = u ++ [opening] ++ v ++ rest ∧
    opening.kind = .symbol .leftParen ∧ opening.line = line ∧ Balanced v
  stuck : ∀ t ∈ rest.head?, t.kind ≠ .symbol .rightParen ∧
    ∀ s ∈ Level.binaryOperators, t.kind ≠ .symbol s

theorem OpenBefore.append {line : Nat} {tokens rest : List Token} (w : List Token)
    (h : OpenBefore line tokens rest) : OpenBefore line (w ++ tokens) rest := by
  obtain ⟨⟨u, opening, v, rfl, hgroup⟩, hstuck⟩ := h
  exact ⟨⟨w ++ u, opening, v, by simp, hgroup⟩, hstuck⟩

structure Nests (c : Cursor) (o : Outcome) : Prop where
  balanced : ∀ e, o.1 = .ok e → ∃ w, c.tokens = w ++ o.2.tokens ∧ Balanced w
  blames : ∀ line, o.1 = .error (.unterminatedGroup line) → OpenBefore line c.tokens o.2.tokens

namespace Nests

variable {c d : Cursor} {o : Outcome}

theorem of_balanced {w : List Token} (hw : Balanced w) (htokens : c.tokens = w ++ d.tokens)
    (e : Expr) : Nests c (.ok e, d) :=
  ⟨fun _ _ => ⟨w, htokens, hw⟩, by simp⟩

theorem of_error {err : ParseError}
    (h : ∀ line, err = .unterminatedGroup line → OpenBefore line c.tokens d.tokens) :
    Nests c (.error err, d) :=
  ⟨by simp, fun line herr => h line (Except.error.inj herr)⟩

theorem after_balanced {w : List Token} (hw : Balanced w) (htokens : c.tokens = w ++ d.tokens)
    (h : Nests d o) : Nests c o where
  balanced := by
    intro e he
    obtain ⟨v, hv, hbalanced⟩ := h.balanced e he
    exact ⟨w ++ v, by rw [htokens, hv, List.append_assoc], hw.append hbalanced⟩
  blames := by
    intro line herr
    rw [htokens]
    exact (h.blames line herr).append w

theorem andThen {next : Expr → Cursor → Outcome} (h : Nests c o)
    (hnext : ∀ e d, o = (.ok e, d) → Nests d (next e d)) : Nests c (o.andThen next) := by
  obtain ⟨result, d⟩ := o
  cases result with
  | error err => exact of_error fun line herr => h.blames line (congrArg Except.error herr)
  | ok e =>
    obtain ⟨w, htokens, hw⟩ := h.balanced e rfl
    exact after_balanced hw htokens (hnext e d rfl)

theorem done (e : Expr) (c : Cursor) : Nests c (.ok e, c) :=
  of_balanced .nil rfl e

theorem literal {t : Token} {rest : List Token} (htokens : c.tokens = t :: rest)
    (ht : t.kind.isLiteral = true) : Nests c c.literal := by
  have hw : Balanced [t] := by
    refine .singleton ?_ ?_
    · intro hkind
      simp [hkind, Kind.isLiteral] at ht
    · intro hkind
      simp [hkind, Kind.isLiteral] at ht
  simp only [Cursor.literal, Cursor.step?_of_tokens htokens]
  split
  · exact of_balanced hw htokens _
  · exact of_balanced hw htokens _
  · exact of_error (by simp)

theorem missing (c : Cursor) : Nests c c.missing :=
  of_balanced .nil (show c.tokens = [] ++ (c.record c.missingError).tokens from rfl) _

theorem atom (c : Cursor) : Nests c c.atom := by
  unfold Cursor.atom
  split
  · exact missing c
  · rename_i t rest htokens
    split
    · rename_i hliteral
      exact literal htokens hliteral
    · exact missing c

theorem after_operator {t : Token} {symbols : List Symbol} (hop : c.take? symbols = some (t, d))
    (hsymbols : .leftParen ∉ symbols ∧ .rightParen ∉ symbols) (h : Nests d o) : Nests c o := by
  obtain ⟨htokens, -, hkind⟩ := Cursor.take?_eq_past hop
  obtain ⟨s, hs, hs'⟩ := Kind.isOneOf_iff.mp hkind
  have hne {paren : Symbol} (hparen : paren ∉ symbols) : t.kind ≠ .symbol paren := by
    rw [hs']
    rintro ⟨⟩
    exact hparen hs
  exact after_balanced (.singleton (hne hsymbols.1) (hne hsymbols.2)) htokens h

theorem group {opening : Token} {inside : Cursor}
    (hop : c.take? [.leftParen] = some (opening, inside))
    (h : Nests inside (Level.expression.parse inside)) : Nests c (Level.primary.parse c) := by
  obtain ⟨htokens, -, hkind⟩ := Cursor.take?_eq_past hop
  have hopen : opening.kind = .symbol .leftParen := by simpa [Kind.isOneOf_iff] using hkind
  rw [Level.parse_primary, hop]
  rcases hparse : Level.expression.parse inside with ⟨result, closing⟩
  rw [hparse] at h
  cases result with
  | error err =>
    simp only [hparse, Outcome.andThen]
    refine of_error ?_
    rintro line rfl
    rw [htokens]
    exact (h.blames line rfl).append [opening]
  | ok inner =>
    obtain ⟨w, hw, hbalanced⟩ := h.balanced inner rfl
    have hinside : inside.tokens = w ++ closing.tokens := hw
    simp only [hparse, Outcome.andThen]
    cases hclose : closing.take? [.rightParen] with
    | none =>
      refine of_error ?_
      rintro line ⟨⟩
      obtain ⟨-, -, -, hstops⟩ := recovers .expression inside inner closing hparse
      refine ⟨⟨[], opening, w, by simp [htokens, hinside], hopen, rfl, hbalanced⟩, ?_⟩
      intro t ht
      refine ⟨?_, ?_⟩
      · intro hright
        simpa [hright, Kind.isOneOf] using Cursor.take?_eq_none_iff.mp hclose t ht
      · intro s hs hkind
        exact hstops t ht (Level.extends_expression_iff.mpr ⟨s, hs, hkind⟩)
    | some p =>
      obtain ⟨close, after⟩ := p
      obtain ⟨hafter, -, hkind'⟩ := Cursor.take?_eq_past hclose
      have hclosed : close.kind = .symbol .rightParen := by simpa [Kind.isOneOf_iff] using hkind'
      refine of_balanced (.enclosed hopen hbalanced hclosed) ?_ (.group inner)
      simp [htokens, hinside, hafter]

theorem parse (level : Level) (c : Cursor) : Nests c (level.parse c) := by
  have htier (tier : Tier) : .leftParen ∉ tier.operators ∧ .rightParen ∉ tier.operators := by
    cases tier <;> decide
  have hrules : ReadingRules (fun level c => Nests c (level.parse c))
      (fun tier left c => Nests c (tier.chain left c)) :=
    { atom := by
        intro c hop
        rw [Level.parse_primary, hop]
        exact atom c
      group := fun c opening inside hop ih => group hop ih
      primary := by
        intro c hop ih
        rwa [Level.parse_unary, hop]
      unary := by
        intro c op after hop ih
        rw [Level.parse_unary, hop]
        refine after_operator hop (by decide) (ih.andThen ?_)
        intro operand rest _
        exact done (.unary op operand) rest
      binary := by
        intro tier c ih ihchain
        rw [Level.parse_binary]
        exact ih.andThen ihchain
      stop := by
        intro tier left c hop
        rw [Tier.chain_eq, hop]
        exact done left c
      link := by
        intro tier left c op after hop ih ihchain
        rw [Tier.chain_eq, hop]
        exact after_operator hop (htier tier) (ih.andThen ihchain) }
  exact hrules.holds.1 level c

end Nests

theorem unterminatedGroup_innermost (level : Level) (c d : Cursor) (line : Nat)
    (h : level.parse c = (.error (.unterminatedGroup line), d)) :
    ∃ u opening v, c.tokens = u ++ [opening] ++ v ++ d.tokens ∧
      opening.kind = .symbol .leftParen ∧ opening.line = line ∧
      (∀ w, w <+: v → closings w ≤ openings w) ∧ closings v = openings v ∧
      ∀ t ∈ d.tokens.head?, t.kind ≠ .symbol .rightParen ∧
        ∀ s ∈ Level.binaryOperators, t.kind ≠ .symbol s := by
  have hnests := Nests.parse level c
  rw [h] at hnests
  obtain ⟨⟨u, opening, v, htokens, hopen, hline, hv⟩, hstuck⟩ := hnests.blames line rfl
  exact ⟨u, opening, v, htokens, hopen, hline, hv.nested, hv.total, hstuck⟩

def openAroundClosed : List Token :=
  [⟨.integer, "1", 1⟩, ⟨.symbol .plus, "+", 1⟩, ⟨.symbol .leftParen, "(", 2⟩, ⟨.integer, "2", 2⟩,
    ⟨.symbol .star, "*", 2⟩, ⟨.symbol .leftParen, "(", 3⟩, ⟨.integer, "3", 3⟩,
    ⟨.symbol .rightParen, ")", 3⟩, ⟨.symbol .comma, ",", 4⟩]

theorem parse_openAroundClosed :
    ∃ d, Level.expression.parse (.start openAroundClosed) = (.error (.unterminatedGroup 2), d) ∧
      d.tokens = [⟨.symbol .comma, ",", 4⟩] := by
  let c := Cursor.start openAroundClosed
  let operator : Cursor := c.past [⟨.integer, "1", 1⟩] openAroundClosed.tail
  let operand : Cursor := operator.past [⟨.symbol .plus, "+", 1⟩] (openAroundClosed.drop 2)
  let inside : Cursor := operand.past [⟨.symbol .leftParen, "(", 2⟩] (openAroundClosed.drop 3)
  have hone : Derives .unary [⟨.integer, "1", 1⟩] (.literal (.integer 1)) :=
    .primary (.of_meaning rfl)
  have htwo : Derives .unary [⟨.integer, "2", 2⟩] (.literal (.integer 2)) :=
    .primary (.of_meaning rfl)
  have hthree : Derives .unary [⟨.integer, "3", 3⟩] (.literal (.integer 3)) :=
    .primary (.of_meaning rfl)
  have hgroup : Derives .unary [⟨.symbol .leftParen, "(", 3⟩, ⟨.integer, "3", 3⟩,
      ⟨.symbol .rightParen, ")", 3⟩] (.group (.literal (.integer 3))) :=
    .primary (.group rfl hthree.expression_of_unary rfl)
  have hproduct : Derives .expression (⟨.integer, "2", 2⟩ :: ⟨.symbol .star, "*", 2⟩ :: _)
      (.binary _ ⟨.symbol .star, "*", 2⟩ _) :=
    htwo.binary_of_unary (s := .star) (by decide) rfl hgroup
  have hinside := parse_of_stops hproduct inside [⟨.symbol .comma, ",", 4⟩] rfl
    (Level.stops_cons.mpr (Level.not_extends_of_kind rfl (by decide)))
  have hleft := parse_of_stops (.operand .factor hone) c openAroundClosed.tail rfl
    (Level.stops_cons.mpr (Level.not_extends_operand .term rfl))
  let stopped := inside.past ((openAroundClosed.drop 3).take 5) [⟨.symbol .comma, ",", 4⟩]
  have hright : Level.unary.parse operand = (.error (.unterminatedGroup 2), stopped) := by
    have hop : operand.take? Level.unaryOperators = none := rfl
    have hopen : operand.take? [.leftParen] = some (⟨.symbol .leftParen, "(", 2⟩, inside) := rfl
    rw [Level.parse_unary, hop, Level.parse_primary, hopen]
    simp only [hinside]
    rfl
  have hterm : (Level.binary .term).parse c = (.error (.unterminatedGroup 2), stopped) := by
    have hop : operator.take? Tier.term.operators = some (⟨.symbol .plus, "+", 1⟩, operand) := rfl
    have hlink : (Level.binary .term).parse c = _ := Level.parse_binary_of_operator hleft hop
    rw [hlink]
    simp [Level.parse_binary, Tier.operand, hright, Outcome.andThen]
  refine ⟨stopped, ?_, rfl⟩
  simp [Level.expression, Level.parse_binary Tier.equality, Level.parse_binary Tier.comparison,
    Tier.operand, c, hterm, Outcome.andThen]

theorem unterminatedGroup_innermost_openAroundClosed :
    ∃ d, Level.expression.parse (.start openAroundClosed) = (.error (.unterminatedGroup 2), d) ∧
      d.tokens = [⟨.symbol .comma, ",", 4⟩] ∧
      ∃ u opening v, openAroundClosed = u ++ [opening] ++ v ++ d.tokens ∧
        opening.kind = .symbol .leftParen ∧ opening.line = 2 ∧
        (∀ w, w <+: v → closings w ≤ openings w) ∧ closings v = openings v ∧
        ∀ t ∈ d.tokens.head?, t.kind ≠ .symbol .rightParen ∧
          ∀ s ∈ Level.binaryOperators, t.kind ≠ .symbol s := by
  obtain ⟨d, hparse, hrest⟩ := parse_openAroundClosed
  exact ⟨d, hparse, hrest, unterminatedGroup_innermost .expression _ d 2 hparse⟩

end ExpressionLanguage
