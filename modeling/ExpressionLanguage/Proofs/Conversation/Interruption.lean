import ExpressionLanguage.Proofs.Conversation.Replies

namespace ExpressionLanguage

def beforeFlush : Nat → List Action → List Action
  | _, [] => []
  | 0, .flush :: _ => []
  | k + 1, .flush :: rest => .flush :: beforeFlush k rest
  | k, action :: rest => action :: beforeFlush k rest

theorem beforeFlush_append {xs : List Action} (h : .flush ∉ xs) (k : Nat) (ys : List Action) :
    beforeFlush k (xs ++ ys) = xs ++ beforeFlush k ys := by
  induction xs with
  | nil => rfl
  | cons action xs ih =>
    obtain ⟨hflush, hxs⟩ := not_or.mp (mt List.mem_cons.mpr h)
    cases action with
    | write text => simp [beforeFlush, ih hxs]
    | flush => exact absurd rfl hflush
    | log entry => simp [beforeFlush, ih hxs]

theorem beforeFlush_isPrefix (k : Nat) (actions : List Action) :
    beforeFlush k actions <+: actions := by
  fun_induction beforeFlush k actions with
  | case1 => exact List.prefix_refl []
  | case2 rest => exact List.nil_prefix
  | case3 k rest ih => exact List.prefix_cons_iff.mpr (.inr ⟨_, rfl, ih⟩)
  | case4 k action rest _ _ ih => exact List.prefix_cons_iff.mpr (.inr ⟨_, rfl, ih⟩)

theorem beforeFlush_eq_self {k : Nat} {actions : List Action} (h : actions.count .flush ≤ k) :
    beforeFlush k actions = actions := by
  induction actions generalizing k with
  | nil => rfl
  | cons action rest ih =>
    cases action with
    | write text => simp [beforeFlush, ih (k := k) (by simpa using h)]
    | flush =>
      cases k with
      | zero => simp at h
      | succ k => rw [beforeFlush, ih (by simpa using h)]
    | log entry => simp [beforeFlush, ih (k := k) (by simpa using h)]

theorem encode_said_isPrefix {xs ys : List Action} (h : xs <+: ys) :
    encode (said xs) <+: encode (said ys) := by
  obtain ⟨zs, rfl⟩ := h
  rw [said_append, encode_append]
  exact List.prefix_append _ _

namespace Delivery

variable (result : Except StreamError Unit)

theorem perform_room (room : Nat) (actions : List Action) :
    (perform result ⟨some room, none⟩ actions).bytes = (encode (said actions)).take room ∧
    (perform result ⟨some room, none⟩ actions).result =
      if room < (encode (said actions)).length then .error .outputLimit else result := by
  induction actions generalizing room with
  | nil => simp [perform]
  | cons action rest ih =>
    cases action with
    | write text =>
      by_cases hfits : (encode text).length ≤ room
      · obtain ⟨hbytes, hresult⟩ := ih (room - (encode text).length)
        have hroom : room - (encode text).length < (encode (said rest)).length ↔
            room < (encode (said (.write text :: rest))).length := by
          rw [said_write, encode_append, List.length_append]
          omega
        refine ⟨?_, ?_⟩
        · simp only [perform, Sink.write, if_pos hfits, hbytes, said_write, encode_append]
          rw [List.take_append, List.take_of_length_le hfits]
        · simp only [perform, Sink.write, if_pos hfits, hresult, hroom]
      · have hroom : room < (encode (said (.write text :: rest))).length := by
          rw [said_write, encode_append, List.length_append]
          omega
        refine ⟨?_, ?_⟩
        · simp only [perform, Sink.write, if_neg hfits, said_write, encode_append]
          rw [List.take_append_of_le_length (by omega)]
        · simp only [perform, Sink.write, if_neg hfits, if_pos hroom]
    | flush => exact ih room
    | log entry => exact ih room

theorem perform_flush (k : Nat) (actions : List Action) :
    (perform result ⟨none, some (k + 1)⟩ actions).bytes =
      encode (said (beforeFlush k actions)) ∧
    (perform result ⟨none, some (k + 1)⟩ actions).result =
      if k < actions.count .flush then .error .flushFailed else result := by
  induction actions generalizing k with
  | nil => simp [perform, beforeFlush]
  | cons action rest ih =>
    cases action with
    | write text =>
      obtain ⟨hbytes, hresult⟩ := ih k
      refine ⟨?_, ?_⟩
      · simp only [perform, Sink.write, hbytes, beforeFlush, said_write, encode_append]
      · exact hresult.trans (by simp)
    | flush =>
      cases k with
      | zero => simp [perform, Sink.flush, beforeFlush]
      | succ k =>
        obtain ⟨hbytes, hresult⟩ := ih k
        exact ⟨hbytes, hresult.trans (by simp)⟩
    | log entry =>
      obtain ⟨hbytes, hresult⟩ := ih k
      exact ⟨hbytes, hresult.trans (by simp)⟩

end Delivery

namespace Transcript

theorem flush_not_mem_reply (line : String) : .flush ∉ reply line := by
  unfold reply
  split
  · simp
  · simp

theorem count_flush_converse (lines : List InputLine) :
    (converse lines).actions.count .flush = (answered lines).length + 1 := by
  induction lines with
  | nil => rfl
  | cons line rest ih =>
    cases line with
    | invalid => rfl
    | text s =>
      cases hexit : isExit s with
      | true =>
        rw [converse_exit hexit, answered, hexit]
        rfl
      | false =>
        rw [converse_answered hexit, List.count_append, List.count_append, ih,
          List.count_eq_zero.mpr (flush_not_mem_reply _), answered, hexit]
        simp [prompt]
        omega

/-- A prompt and its flush come in front of each reply, so a flush follows the replies to as many
lines as there were flushes before it. -/
theorem said_beforeFlush_converse {lines : List InputLine} {k : Nat}
    (h : k ≤ (answered lines).length) :
    said (beforeFlush k (converse lines).actions) =
      prompted (((answered lines).take k).map replyTo) ++ "> " := by
  have hfirst (rest : List Action) : said (beforeFlush 0 (prompt ++ rest)) = "> " := by
    simp [prompt, beforeFlush]
  induction lines generalizing k with
  | nil =>
    obtain rfl : k = 0 := by simpa [answered] using h
    rw [converse, hfirst]
    rfl
  | cons line rest ih =>
    cases line with
    | invalid =>
      obtain rfl : k = 0 := by simpa [answered] using h
      exact hfirst []
    | text s =>
      cases hexit : isExit s with
      | true =>
        obtain rfl : k = 0 := by simpa [answered, hexit] using h
        rw [converse_exit hexit, hfirst]
        rfl
      | false =>
        have hanswered : answered (.text s :: rest) = s :: answered rest := by
          rw [answered, hexit]
          rfl
        rw [hanswered] at h ⊢
        rw [converse_answered hexit, List.append_assoc]
        cases k with
        | zero =>
          rw [hfirst]
          rfl
        | succ k =>
          have hnext := ih (Nat.le_of_succ_le_succ h)
          simp only [prompt, List.cons_append, List.nil_append, beforeFlush]
          rw [beforeFlush_append (flush_not_mem_reply _), said_write, said_flush, said_append,
            said_reply, hnext, List.take_succ_cons, List.map_cons, prompted_cons]
          simp only [String.append_assoc]

theorem said_beforeFlush_ofLines {lines : List InputLine} {k : Nat}
    (h : k ≤ (answered lines).length) :
    said (beforeFlush k (ofLines lines).actions) =
      banner ++ "\n" ++ prompted (((answered lines).take k).map replyTo) ++ "> " := by
  simp only [ofLines, beforeFlush, said_write, said_beforeFlush_converse h, String.append_assoc]

end Transcript

def InvalidBehind (lines : List (List UInt8)) (texts : List String) : Prop :=
  ∃ bad later, lines = texts.map encode ++ bad :: later ∧
    (∀ s ∈ texts, isExit s = false) ∧ ∀ s, encode s ≠ bad

theorem InvalidBehind.cons {lines : List (List UInt8)} {texts : List String}
    (h : InvalidBehind lines texts) {s : String} (hexit : isExit s = false) :
    InvalidBehind (encode s :: lines) (s :: texts) := by
  obtain ⟨bad, later, rfl, htexts, hbad⟩ := h
  exact ⟨bad, later, rfl, List.forall_mem_cons.mpr ⟨hexit, htexts⟩, hbad⟩

theorem answered_append {texts : List String} (h : ∀ s ∈ texts, isExit s = false)
    (rest : List InputLine) :
    answered (texts.map .text ++ rest) = texts ++ answered rest ∧
      ending (texts.map .text ++ rest) = ending rest := by
  induction texts with
  | nil => exact ⟨rfl, rfl⟩
  | cons s texts ih =>
    obtain ⟨hs, htexts⟩ := List.forall_mem_cons.mp h
    obtain ⟨hanswered, hending⟩ := ih htexts
    simp [answered, ending, hs, hanswered, hending]

theorem InvalidBehind.answered_eq {lines : List (List UInt8)} {texts : List String}
    (h : InvalidBehind lines texts) :
    answered (lines.map .ofBytes) = texts ∧
      ending (lines.map .ofBytes) = ("", .error .invalidText) := by
  obtain ⟨bad, later, rfl, hexit, hbad⟩ := h
  have htexts : (texts.map encode).map InputLine.ofBytes = texts.map .text := by
    rw [List.map_map]
    exact List.map_congr_left fun s _ => InputLine.ofBytes_encode s
  have hlines : (texts.map encode ++ bad :: later).map InputLine.ofBytes =
      texts.map .text ++ .invalid :: later.map .ofBytes := by
    rw [List.map_append, htexts, List.map_cons, InputLine.ofBytes_eq_invalid_iff.mpr hbad]
  obtain ⟨hanswered, hending⟩ := answered_append hexit (.invalid :: later.map .ofBytes)
  rw [hlines, hanswered, hending]
  exact ⟨List.append_nil texts, rfl⟩

theorem ending_ok_or_invalidBehind (lines : List (List UInt8)) :
    (ending (lines.map .ofBytes)).2 = .ok () ∨ ∃ texts, InvalidBehind lines texts := by
  induction lines with
  | nil => exact .inl rfl
  | cons line lines ih =>
    cases hline : InputLine.ofBytes line with
    | invalid =>
      exact .inr ⟨[], line, lines, rfl, by simp, InputLine.ofBytes_eq_invalid_iff.mp hline⟩
    | text s =>
      rw [List.map_cons, hline, ending]
      cases hexit : isExit s with
      | true => exact .inl rfl
      | false =>
        rcases ih with hok | ⟨texts, hinvalid⟩
        · exact .inl hok
        · rw [← InputLine.ofBytes_eq_text_iff.mp hline]
          exact .inr ⟨s :: texts, hinvalid.cons hexit⟩

namespace Delivery

def flushes (input : List UInt8) : Nat :=
  (Transcript.ofBytes input).actions.count .flush

theorem conversation_interrupted (input : List UInt8) :
    (∀ m, (ofBytes input ⟨some m, none⟩).bytes = (ofBytes input .unlimited).bytes.take m ∧
      (ofBytes input ⟨some m, none⟩).result =
        if m < (ofBytes input .unlimited).bytes.length then .error .outputLimit
        else (ofBytes input .unlimited).result) ∧
    (∃ close, (ofBytes input .unlimited).bytes = encode (Transcript.banner ++ "\n" ++
      prompted ((answered (InputLine.split input)).map replyTo) ++ "> " ++ close)) ∧
    flushes input = (answered (InputLine.split input)).length + 1 ∧
    (∀ k ≥ 1, k ≤ flushes input →
      (ofBytes input ⟨none, some k⟩).bytes = encode (Transcript.banner ++ "\n" ++
        prompted (((answered (InputLine.split input)).take (k - 1)).map replyTo) ++ "> ") ∧
      (ofBytes input ⟨none, some k⟩).bytes <+: (ofBytes input .unlimited).bytes ∧
      (ofBytes input ⟨none, some k⟩).result = .error .flushFailed) ∧
    (∀ k ≥ 1, flushes input < k →
      (ofBytes input ⟨none, some k⟩).bytes = (ofBytes input .unlimited).bytes ∧
      (ofBytes input ⟨none, some k⟩).result = (ofBytes input .unlimited).result) ∧
    (∀ texts, InvalidBehind (InputLine.cut input) texts →
      (ofBytes input .unlimited).bytes =
        encode (Transcript.banner ++ "\n" ++ prompted (texts.map replyTo) ++ "> ") ∧
      (ofBytes input .unlimited).result = .error .invalidText) ∧
    ((∀ texts, ¬ InvalidBehind (InputLine.cut input) texts) →
      (ofBytes input .unlimited).result = .ok ()) := by
  obtain ⟨hsaid, hended⟩ : (ofBytes input .unlimited).bytes = _ ∧
      (ofBytes input .unlimited).result = _ :=
    Transcript.deliver_unlimited (InputLine.split input)
  obtain ⟨hbytes, hresult⟩ : (ofBytes input .unlimited).bytes = _ ∧
      (ofBytes input .unlimited).result = _ :=
    perform_unlimited (Transcript.ofBytes input).result (Transcript.ofBytes input).actions
  have hflushes : flushes input = (answered (InputLine.split input)).length + 1 :=
    Transcript.count_flush_converse (InputLine.split input)
  have hflush (k : Nat) : (ofBytes input ⟨none, some (k + 1)⟩).bytes = _ ∧
      (ofBytes input ⟨none, some (k + 1)⟩).result = _ :=
    perform_flush (Transcript.ofBytes input).result k (Transcript.ofBytes input).actions
  refine ⟨?_, ⟨_, hsaid⟩, hflushes, ?_, ?_, ?_, ?_⟩
  · intro m
    rw [hbytes, hresult]
    exact perform_room _ m _
  · intro k hk hle
    obtain ⟨k, rfl⟩ : ∃ j, k = j + 1 := ⟨k - 1, by omega⟩
    obtain ⟨hcut, herror⟩ := hflush k
    refine ⟨?_, ?_, herror.trans (if_pos hle)⟩
    · have hanswered : k ≤ (answered (InputLine.split input)).length := by omega
      exact hcut.trans (congrArg encode (Transcript.said_beforeFlush_ofLines hanswered))
    · rw [hcut, hbytes]
      exact encode_said_isPrefix (beforeFlush_isPrefix k _)
  · intro k hk hlt
    obtain ⟨k, rfl⟩ : ∃ j, k = j + 1 := ⟨k - 1, by omega⟩
    obtain ⟨hcut, hkept⟩ := hflush k
    refine ⟨?_, ?_⟩
    · rw [hcut, hbytes, beforeFlush_eq_self (Nat.le_of_lt_succ hlt)]
    · rw [hkept, hresult]
      exact if_neg (Nat.not_lt.mpr (Nat.le_of_lt_succ hlt))
  · intro texts hinvalid
    obtain ⟨hanswered, hending⟩ := hinvalid.answered_eq
    rw [InputLine.split, hanswered, hending, String.append_empty] at hsaid
    rw [InputLine.split, hending] at hended
    exact ⟨hsaid, hended⟩
  · intro hvalid
    refine hended.trans ?_
    rcases ending_ok_or_invalidBehind (InputLine.cut input) with hok | ⟨texts, hinvalid⟩
    · exact hok
    · exact absurd hinvalid (hvalid texts)

theorem conversation_interrupted_badLine :
    let input := [34, 97, 10, 255, 10, 49]
    let opening := Transcript.banner ++ "\n> "
    let whole := opening ++ "Error on line 1: unterminated string.\n> "
    ((ofBytes input .unlimited).bytes = encode whole ∧
      (ofBytes input .unlimited).result = .error .invalidText) ∧
    ((ofBytes input ⟨some 70, none⟩).bytes = (encode whole).take 70 ∧
      (ofBytes input ⟨some 70, none⟩).result = .error .outputLimit) ∧
    ((ofBytes input ⟨none, some 1⟩).bytes = encode opening ∧
      (ofBytes input ⟨none, some 1⟩).result = .error .flushFailed) ∧
    ((ofBytes input ⟨none, some 3⟩).bytes = encode whole ∧
      (ofBytes input ⟨none, some 3⟩).result = .error .invalidText) ∧
    (ofBytes [] .unlimited).result = .ok () := by
  intro input opening whole
  have hbad : InvalidBehind (InputLine.cut input) ["\"a"] := by
    refine ⟨[255], [[49]], by decide +kernel, by decide, ?_⟩
    exact InputLine.ofBytes_eq_invalid_iff.mp (by decide +kernel)
  have hlong : 70 < (encode whole).length := by decide +kernel
  obtain ⟨hroom, -, hflushes, hfailed, hlate, hinvalid, -⟩ := conversation_interrupted input
  have hreplies : prompted (["\"a"].map replyTo) =
      "> Error on line 1: unterminated string.\n" := by
    rw [List.map_singleton, replyTo_openString]
    rfl
  obtain ⟨hbytes, hresult⟩ := hinvalid _ hbad
  rw [hreplies] at hbytes
  have hwhole : (ofBytes input .unlimited).bytes = encode whole := hbytes
  have hcount : flushes input = 2 := by
    rw [hflushes, InputLine.split, hbad.answered_eq.1]
    rfl
  refine ⟨⟨hwhole, hresult⟩, ?_, ?_, ?_, ?_⟩
  · obtain ⟨hcut, herror⟩ := hroom 70
    rw [hwhole] at hcut herror
    exact ⟨hcut, herror.trans (if_pos hlong)⟩
  · obtain ⟨hcut, -, herror⟩ := hfailed 1 le_rfl (by omega)
    exact ⟨hcut, herror⟩
  · obtain ⟨hall, hended⟩ := hlate 3 (by decide) (by omega)
    exact ⟨hall.trans hwhole, hended.trans hresult⟩
  · obtain ⟨-, -, -, -, -, -, hvalid⟩ := conversation_interrupted []
    refine hvalid ?_
    rintro texts ⟨bad, later, hcut, -⟩
    simp [InputLine.cut] at hcut

end Delivery

end ExpressionLanguage
