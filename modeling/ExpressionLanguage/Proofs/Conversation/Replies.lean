import ExpressionLanguage.Proofs.Conversation.Lines
import ExpressionLanguage.Proofs.Execute.OuterBlanks

namespace ExpressionLanguage

def said (actions : List Action) : String :=
  (⟨actions, .ok ()⟩ : Transcript).text

@[simp] theorem said_nil : said [] = "" := String.join_nil

@[simp] theorem said_write (text : String) (rest : List Action) :
    said (.write text :: rest) = text ++ said rest := String.join_cons

@[simp] theorem said_flush (rest : List Action) : said (.flush :: rest) = said rest := rfl

@[simp] theorem said_log (entry : Entry) (rest : List Action) :
    said (.log entry :: rest) = said rest := rfl

@[simp] theorem said_append (xs ys : List Action) : said (xs ++ ys) = said xs ++ said ys := by
  simp [said, Transcript.text]

theorem said_logs (entries : List Entry) : said (entries.map .log) = "" := by
  induction entries with
  | nil => exact said_nil
  | cons entry entries ih => rw [List.map_cons, said_log, ih]

theorem Delivery.perform_unlimited (result : Except StreamError Unit) (actions : List Action) :
    (perform result .unlimited actions).bytes = encode (said actions) ∧
      (perform result .unlimited actions).result = result := by
  induction actions with
  | nil => exact ⟨by simp [perform], rfl⟩
  | cons action rest ih =>
    obtain ⟨hbytes, hresult⟩ := ih
    cases action with
    | write text => exact ⟨by simp [perform, Sink.write, Sink.unlimited, ← hbytes], hresult⟩
    | flush => exact ⟨hbytes, hresult⟩
    | log entry => exact ⟨hbytes, hresult⟩

def isExit (line : String) : Bool :=
  trimmed line = "exit"

def replyTo (line : String) : String :=
  if trimmed line = "" then ""
  else
    match (execute (trimmed line)).result with
    | .ok v => v.display ++ "\n"
    | .error failure => failure.message ++ "\n"

def prompted (replies : List String) : String :=
  String.join (replies.map fun reply => "> " ++ reply)

theorem prompted_cons (reply : String) (replies : List String) :
    prompted (reply :: replies) = "> " ++ reply ++ prompted replies :=
  String.join_cons

theorem prompted_append (xs ys : List String) :
    prompted (xs ++ ys) = prompted xs ++ prompted ys := by
  simp [prompted]

def answered : List InputLine → List String
  | .text s :: rest => if isExit s then [] else s :: answered rest
  | _ => []

def ending : List InputLine → String × Except StreamError Unit
  | [] => ("\n", .ok ())
  | .invalid :: _ => ("", .error .invalidText)
  | .text s :: rest => if isExit s then ("", .ok ()) else ending rest

theorem isExit_congr {a b : String} (h : trimmed a = trimmed b) : isExit a = isExit b := by
  rw [isExit, isExit, h]

theorem replyTo_congr {a b : String} (h : trimmed a = trimmed b) : replyTo a = replyTo b := by
  rw [replyTo, replyTo, h]

namespace Transcript

variable {s : String} {rest : List InputLine}

theorem converse_exit (h : isExit s = true) :
    converse (.text s :: rest) = ⟨prompt ++ [ended], .ok ()⟩ := by
  have hline : String.ofList (Text.trim s.toList) = "exit" := of_decide_eq_true h
  simp [converse, turn, hline]

theorem converse_answered (h : isExit s = false) :
    converse (.text s :: rest) =
      ⟨prompt ++ reply (trimmed s) ++ (converse rest).actions, (converse rest).result⟩ := by
  have hline : String.ofList (Text.trim s.toList) ≠ "exit" := of_decide_eq_false h
  simp [converse, turn, hline, trimmed]

theorem said_reply (line : String) : said (reply (trimmed line)) = replyTo line := by
  unfold reply replyTo
  split
  · exact said_nil
  · rw [said_append, said_logs, said_write, said_nil]
    cases (execute (trimmed line)).result with
    | ok v => simp [answer]
    | error failure => simp [answer]

theorem said_prompt : said prompt = "> " := by
  simp [prompt]

theorem said_converse (lines : List InputLine) :
    said (converse lines).actions =
      prompted ((answered lines).map replyTo) ++ "> " ++ (ending lines).1 := by
  induction lines with
  | nil =>
    rw [converse, said_append, said_prompt]
    rfl
  | cons line rest ih =>
    cases line with
    | invalid =>
      simp only [converse, turn, said_append, said_prompt]
      rfl
    | text s =>
      cases hexit : isExit s with
      | true =>
        simp only [converse_exit hexit, said_append, said_prompt, answered, ending, hexit, if_true]
        rfl
      | false =>
        simp only [converse_answered hexit, said_append, said_prompt, said_reply, ih, answered,
          ending, hexit, Bool.false_eq_true, if_false, List.map_cons, prompted_cons,
          String.append_assoc]

theorem converse_result (lines : List InputLine) : (converse lines).result = (ending lines).2 := by
  induction lines with
  | nil => rfl
  | cons line rest ih =>
    cases line with
    | invalid => rfl
    | text s =>
      cases hexit : isExit s with
      | true => simp [converse_exit hexit, ending, hexit]
      | false => simp [converse_answered hexit, ending, hexit, ih]

theorem said_ofLines (lines : List InputLine) :
    said (ofLines lines).actions =
      banner ++ "\n" ++ prompted ((answered lines).map replyTo) ++ "> " ++ (ending lines).1 := by
  rw [ofLines, said_write, said_converse]
  simp only [String.append_assoc]

theorem deliver_unlimited (lines : List InputLine) :
    ((ofLines lines).deliver .unlimited).bytes =
      encode (banner ++ "\n" ++ prompted ((answered lines).map replyTo) ++ "> " ++
        (ending lines).1) ∧
    ((ofLines lines).deliver .unlimited).result = (ending lines).2 := by
  obtain ⟨hbytes, hresult⟩ :=
    Delivery.perform_unlimited (ofLines lines).result (ofLines lines).actions
  rw [said_ofLines] at hbytes
  exact ⟨hbytes, hresult.trans (converse_result lines)⟩

theorem converse_exit_congr {s' : String} (h : isExit s = true) (h' : isExit s' = true)
    (before rest rest' : List InputLine) :
    converse (before ++ .text s :: rest) = converse (before ++ .text s' :: rest') := by
  induction before with
  | nil => rw [List.nil_append, List.nil_append, converse_exit h, converse_exit h']
  | cons line before ih => simp only [List.cons_append, converse, ih]

end Transcript

section

variable {lines : List String}

theorem answered_texts (lines : List String) :
    answered (lines.map .text) = lines.takeWhile fun line => !isExit line := by
  induction lines with
  | nil => rfl
  | cons line lines ih =>
    cases hexit : isExit line with
    | true => simp [answered, hexit]
    | false => simp [answered, hexit, ih]

theorem ending_texts (lines : List String) :
    ending (lines.map .text) = (if lines.any isExit then "" else "\n", .ok ()) := by
  induction lines with
  | nil => rfl
  | cons line lines ih =>
    cases hexit : isExit line with
    | true => simp [ending, hexit]
    | false => simp [ending, hexit, ih]

theorem takeWhile_of_exitFree (h : lines.any isExit = false) (later : List String) :
    (lines ++ later).takeWhile (fun line => !isExit line) =
      lines ++ later.takeWhile fun line => !isExit line := by
  refine List.takeWhile_append_of_pos ?_
  intro line hline
  simp [List.any_eq_false.mp h line hline]

end

def replies (input : String) : List String :=
  ((linesOf input).takeWhile fun line => !isExit line).map replyTo

theorem replies_of_exitFree {a : String} (h : (linesOf a).any isExit = false) :
    replies a = (linesOf a).map replyTo := by
  have hwhole := takeWhile_of_exitFree h []
  rw [List.append_nil, List.takeWhile_nil, List.append_nil] at hwhole
  rw [replies, hwhole]

theorem replies_append {a : String} (hended : ∀ c ∈ a.toList.getLast?, c = '\n')
    (hexit : (linesOf a).any isExit = false) (b : String) :
    replies (a ++ b) = replies a ++ replies b := by
  rw [replies_of_exitFree hexit, replies, linesOf_append hended, takeWhile_of_exitFree hexit,
    List.map_append]
  rfl

theorem deliver_encode (input : String) :
    (Delivery.ofBytes (encode input) .unlimited).result = .ok () ∧
    (Delivery.ofBytes (encode input) .unlimited).bytes =
      encode (Transcript.banner ++ "\n" ++ prompted (replies input) ++ "> " ++
        if (linesOf input).any isExit then "" else "\n") := by
  obtain ⟨hbytes, hresult⟩ := Transcript.deliver_unlimited ((linesOf input).map .text)
  rw [← Transcript.ofBytes_encode] at hbytes hresult
  rw [answered_texts, ending_texts] at hbytes
  rw [ending_texts] at hresult
  exact ⟨hresult, hbytes⟩

theorem getLast?_ended (line : String) : ∀ c ∈ (line ++ "\n").toList.getLast?, c = '\n' := by
  simp [show "\n".toList = ['\n'] from rfl]

section

variable {before line : String} (hended : ∀ c ∈ before.toList.getLast?, c = '\n')
  (hbefore : (linesOf before).any isExit = false) (hline : '\n' ∉ line.toList)
  (hexit : isExit line = false)

include hline hexit

theorem linesOf_ended_exitFree : (linesOf (line ++ "\n")).any isExit = false := by
  obtain ⟨kept, hkept, htrimmed⟩ := linesOf_ended hline
  simp [hkept, isExit_congr htrimmed, hexit]

theorem replies_ended : replies (line ++ "\n") = [replyTo line] := by
  obtain ⟨kept, hkept, htrimmed⟩ := linesOf_ended hline
  rw [replies_of_exitFree (linesOf_ended_exitFree hline hexit), hkept, List.map_singleton,
    replyTo_congr htrimmed]

include hended hbefore

theorem replies_between (after : String) :
    replies (before ++ (line ++ "\n" ++ after)) =
      replies before ++ replyTo line :: replies after := by
  rw [replies_append hended hbefore,
    replies_append (getLast?_ended line) (linesOf_ended_exitFree hline hexit),
    replies_ended hline hexit]
  rfl

theorem any_isExit_between (after : String) :
    (linesOf (before ++ (line ++ "\n" ++ after))).any isExit = (linesOf after).any isExit := by
  rw [linesOf_append hended, linesOf_append (getLast?_ended line), List.any_append,
    List.any_append, hbefore, linesOf_ended_exitFree hline hexit, Bool.false_or, Bool.false_or]

end

theorem cut_exit {s : String} (hfeed : '\n' ∉ s.toList) (hexit : isExit s = true)
    {rest : List UInt8} (hrest : ∀ b ∈ rest.head?, b = 10) :
    ∃ later, InputLine.cut (encode s ++ rest) = encode s :: later := by
  have hne : encode s ≠ [] := by
    intro hnil
    obtain rfl := InputLine.encode_injective (hnil.trans encode_empty.symm)
    simp [isExit, trimmed, Text.trim] at hexit
  rw [InputLine.cut_append_of_not_mem hne (lineFeed_not_mem_encode hfeed)]
  cases rest with
  | nil => exact ⟨[], rfl⟩
  | cons b rest =>
    obtain rfl := hrest b rfl
    exact ⟨InputLine.cut rest, by simp [InputLine.cut_lineFeed, Text.extendFirst]⟩

theorem ofBytes_exit_congr {before : List UInt8} (hended : ∀ b ∈ before.getLast?, b = 10)
    {s s' : String} (hfeed : '\n' ∉ s.toList) (hfeed' : '\n' ∉ s'.toList)
    (hexit : isExit s = true) (hexit' : isExit s' = true) {rest rest' : List UInt8}
    (hrest : ∀ b ∈ rest.head?, b = 10) (hrest' : ∀ b ∈ rest'.head?, b = 10) :
    Transcript.ofBytes (before ++ (encode s ++ rest)) =
      Transcript.ofBytes (before ++ (encode s' ++ rest')) := by
  obtain ⟨later, hcut⟩ := cut_exit hfeed hexit hrest
  obtain ⟨later', hcut'⟩ := cut_exit hfeed' hexit' hrest'
  simp only [Transcript.ofBytes, InputLine.split, InputLine.cut_append_ended hended, hcut, hcut',
    List.map_append, List.map_cons, InputLine.ofBytes_encode, Transcript.ofLines]
  rw [Transcript.converse_exit_congr hexit hexit']

theorem conversation_replies :
    (∀ input : String, (Delivery.ofBytes (encode input) .unlimited).result = .ok () ∧
      (Delivery.ofBytes (encode input) .unlimited).bytes =
        encode (Transcript.banner ++ "\n" ++ prompted (replies input) ++ "> " ++
          if (linesOf input).any isExit then "" else "\n")) ∧
    (∀ before after : String, (∀ c ∈ before.toList.getLast?, c = '\n') →
      (linesOf before).any isExit = false →
      ∃ front back, ∀ line : String, '\n' ∉ line.toList → isExit line = false →
        (Delivery.ofBytes (encode (before ++ (line ++ "\n" ++ after))) .unlimited).bytes =
          front ++ encode (replyTo line) ++ back) ∧
    (∀ (before : List UInt8) (s s' : String) (rest rest' : List UInt8),
      (∀ b ∈ before.getLast?, b = 10) → '\n' ∉ s.toList → '\n' ∉ s'.toList →
      isExit s = true → isExit s' = true →
      (∀ b ∈ rest.head?, b = 10) → (∀ b ∈ rest'.head?, b = 10) →
      Transcript.ofBytes (before ++ (encode s ++ rest)) =
        Transcript.ofBytes (before ++ (encode s' ++ rest'))) ∧
    ∀ a b : String, (∀ c ∈ a.toList.getLast?, c = '\n') → (linesOf a).any isExit = false →
      replies (a ++ b) = replies a ++ replies b := by
  refine ⟨deliver_encode, ?_, ?_, ?_⟩
  · intro before after hended hbefore
    refine ⟨encode (Transcript.banner ++ "\n" ++ prompted (replies before) ++ "> "),
      encode (prompted (replies after) ++ "> " ++
        if (linesOf after).any isExit then "" else "\n"), ?_⟩
    intro line hline hexit
    rw [(deliver_encode _).2, replies_between hended hbefore hline hexit,
      any_isExit_between hended hbefore hline hexit, prompted_append, prompted_cons]
    simp only [encode_append, List.append_assoc]
  · intro before s s' rest rest' hended hfeed hfeed' hexit hexit' hrest hrest'
    exact ofBytes_exit_congr hended hfeed hfeed' hexit hexit' hrest hrest'
  · intro a b hended hexit
    exact replies_append hended hexit b

theorem replyTo_openString : replyTo "\"a" = "Error on line 1: unterminated string.\n" := by
  have htrimmed : trimmed "\"a" = "\"a" := by decide
  rw [replyTo, htrimmed, if_neg (by decide), execute_openString]
  rfl

theorem replyTo_null : replyTo " null" = "null\n" := by
  have htrimmed : trimmed " null" = "null" := by decide
  rw [replyTo, htrimmed, if_neg (by decide), execute_null]
  rfl

theorem conversation_replies_fiveLines :
    linesOf "\"a\r\n \n null\n exit \n(" = ["\"a", " ", " null", " exit ", "("] ∧
    replies "\"a\r\n \n null\n exit \n(" =
      ["Error on line 1: unterminated string.\n", "", "null\n"] ∧
    (Delivery.ofBytes (encode "\"a\r\n \n null\n exit \n(") .unlimited).bytes =
      encode (Transcript.banner ++
        "\n> Error on line 1: unterminated string.\n> > null\n> ") ∧
    (∃ front back,
      (Delivery.ofBytes (encode (" \n" ++ ("\"a" ++ "\n" ++ "exit"))) .unlimited).bytes =
        front ++ encode "Error on line 1: unterminated string.\n" ++ back ∧
      (Delivery.ofBytes (encode (" \n" ++ (" null" ++ "\n" ++ "exit"))) .unlimited).bytes =
        front ++ encode "null\n" ++ back) ∧
    Transcript.ofBytes ([32, 10] ++ (encode "exit" ++ [])) =
      Transcript.ofBytes ([32, 10] ++ (encode " exit\r" ++ [10, 255])) := by
  obtain ⟨hwritten, hown, hexits, happend⟩ := conversation_replies
  have hlines : linesOf "\"a\r\n \n null\n exit \n(" =
      ["\"a", " ", " null", " exit ", "("] := by decide
  have hblank : replyTo " " = "" := by
    rw [replyTo, if_pos (by decide)]
  have hfirst : replies "\"a\r\n" = ["Error on line 1: unterminated string.\n"] := by
    rw [replies_of_exitFree (by decide), show linesOf "\"a\r\n" = ["\"a"] by decide,
      List.map_singleton, replyTo_openString]
  have hrest : replies " \n null\n exit \n(" = ["", "null\n"] := by
    rw [replies,
      show (linesOf " \n null\n exit \n(").takeWhile (!isExit ·) = [" ", " null"] by decide,
      List.map_cons, List.map_singleton, hblank, replyTo_null]
  have hreplies : replies "\"a\r\n \n null\n exit \n(" =
      ["Error on line 1: unterminated string.\n", "", "null\n"] := by
    have hboth := happend "\"a\r\n" " \n null\n exit \n(" (by simp) (by decide)
    rw [hfirst, hrest] at hboth
    exact hboth
  refine ⟨hlines, hreplies, ?_, ?_, ?_⟩
  · rw [(hwritten _).2, hreplies, hlines]
    rfl
  · obtain ⟨front, back, hbetween⟩ := hown " \n" "exit" (by simp) (by decide)
    refine ⟨front, back, ?_, ?_⟩
    · rw [hbetween "\"a" (by decide) (by decide), replyTo_openString]
    · rw [hbetween " null" (by decide) (by decide), replyTo_null]
  · exact hexits [32, 10] "exit" " exit\r" [] [10, 255] (by simp) (by decide) (by decide)
      (by decide) (by decide) (by simp) (by simp)

end ExpressionLanguage
