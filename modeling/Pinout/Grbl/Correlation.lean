import Mathlib.Data.List.TakeWhile
import Pinout.Grbl.Client

/-! # GRBL replies and the requests they settle

A client and a controller that replies to every request in the order in which the texts reach it: to a
command with one `ok`, `error:` or `ALARM:` line, or with an `ALARM:` line and one of the other two after
it; to `?` with a status line. A request that an `ALARM:` line settles does not wait for the line after it,
and the next request reads that line first. Runs in which no request heeds a line of the reply to another
one settle every request by the reply to it. -/

namespace Pinout.Grbl

open Foundation Protocol

/-! ## Lines of a controller -/

/-- What a controller puts between the brackets of a line. -/
structure Content where
  text : JsString
  wellFormed : WellFormed text
  oneLine : lineFeed ∉ text

/-- A line of a reply: some text without white space at its ends. -/
structure ReplyText where
  text : JsString
  wellFormed : WellFormed text
  oneLine : lineFeed ∉ text
  head : ∀ u ∈ text.head?, isWhiteSpace u = false
  last : ∀ u ∈ text.getLast?, isWhiteSpace u = false

namespace ReplyText

/-- The bytes of a line, without its line feed. -/
def bytes (t : ReplyText) (withReturn : Bool) : List UInt8 :=
  encodeUtf8 (if withReturn then t.text ++ [carriageReturn] else t.text)

variable (t : ReplyText) (withReturn : Bool)

/-- A line with a return is well formed as well, has no line feed, and starts like the line. -/
theorem text_withReturn :
    WellFormed (if withReturn then t.text ++ [carriageReturn] else t.text) ∧
      lineFeed ∉ (if withReturn then t.text ++ [carriageReturn] else t.text) ∧
      (if withReturn then t.text ++ [carriageReturn] else t.text).head? ≠ some 0xFEFF := by
  have hmark : t.text.head? ≠ some 0xFEFF := by
    intro h
    exact absurd (t.head _ h) (by decide)
  cases withReturn with
  | false => exact ⟨t.wellFormed, t.oneLine, hmark⟩
  | true =>
    refine ⟨t.wellFormed.append (wellFormed_of_forall_lt (by decide)), ?_, ?_⟩
    · rw [if_pos rfl, List.mem_append, not_or]
      exact ⟨t.oneLine, by decide⟩
    · rw [if_pos rfl]
      cases htext : t.text with
      | nil => decide
      | cons u text =>
        rw [htext] at hmark
        exact hmark

theorem lineFeed_notMem_bytes : 10 ∉ t.bytes withReturn := by
  obtain ⟨-, hline, -⟩ := t.text_withReturn withReturn
  exact toUInt8_notMem_encodeUtf8 (by decide) hline

/-- **A line is read back** from the bytes it is written as. -/
theorem lineText_bytes : lineText (t.bytes withReturn ++ [10]) = t.text := by
  obtain ⟨hformed, -, hmark⟩ := t.text_withReturn withReturn
  obtain ⟨htext, hstate⟩ := TextDecoder.decode_encodeUtf8_of_ready (d := {}) rfl hformed hmark
  obtain ⟨hfeed, hstate'⟩ := TextDecoder.decode_encodeUtf8_of_ready hstate
    (s := [lineFeed]) (wellFormed_of_forall_lt (by decide)) (by decide)
  have hencode : encodeUtf8 [lineFeed] = [10] := by decide
  rw [hencode] at hfeed hstate'
  have hdecode : (({} : TextDecoder).decode (t.bytes withReturn ++ [10])).2 =
      (if withReturn then t.text ++ [carriageReturn] else t.text) ++ [lineFeed] := by
    rw [TextDecoder.decode_append, bytes, htext, hfeed]
  have hflush : (({} : TextDecoder).decode (t.bytes withReturn ++ [10])).1.flush = [] := by
    rw [TextDecoder.decode_append, bytes, TextDecoder.flush, hstate']
    rfl
  have hend : ∀ u, t.text.reverse.head? = some u → ¬ (u = carriageReturn ∨ u = lineFeed) := by
    rintro u hu (rfl | rfl)
    · exact absurd (t.last _ (by rwa [List.head?_reverse] at hu)) (by decide)
    · exact absurd (t.last _ (by rwa [List.head?_reverse] at hu)) (by decide)
  have hdrop : t.text.reverse.dropWhile (fun u => u = carriageReturn ∨ u = lineFeed) = t.text.reverse := by
    cases hrev : t.text.reverse with
    | nil => rfl
    | cons u text => exact List.dropWhile_cons_of_neg (by simpa using hend u (by rw [hrev]; rfl))
  have hstrip : stripLineEnd ((if withReturn then t.text ++ [carriageReturn] else t.text) ++ [lineFeed]) =
      t.text := by
    rw [stripLineEnd, List.reverse_append]
    cases withReturn with
    | false => simpa using congrArg List.reverse hdrop
    | true => simpa using congrArg List.reverse hdrop
  rw [lineText, hdecode, hflush, List.append_nil, hstrip]
  exact trim_eq_self t.head t.last

def between (first : UInt16) (rest : JsString) (content : Content) (last : UInt16)
    (hformed : WellFormed (first :: rest) ∧ WellFormed [last])
    (hline : lineFeed ∉ first :: rest ∧ lineFeed ≠ last)
    (hends : isWhiteSpace first = false ∧ isWhiteSpace last = false) : ReplyText where
  text := first :: rest ++ content.text ++ [last]
  wellFormed := (hformed.1.append content.wellFormed).append hformed.2
  oneLine := by
    rw [List.mem_append, List.mem_append, List.mem_singleton, not_or, not_or]
    exact ⟨⟨hline.1, content.oneLine⟩, hline.2⟩
  head := fun u hu => by
    rw [← Option.some.inj hu]
    exact hends.1
  last := fun u hu => by
    rw [List.getLast?_concat] at hu
    rw [← Option.some.inj hu]
    exact hends.2

/-- A digit is not white space, no surrogate and no line feed. -/
theorem digit_spec {u : UInt16} (h : isDigit u = true) :
    isWhiteSpace u = false ∧ u.toNat < 0xD800 ∧ u ≠ lineFeed := by
  simp only [isDigit, Bool.decide_and, Bool.and_eq_true, decide_eq_true_eq] at h
  refine ⟨?_, by omega, ?_⟩
  · rw [Bool.eq_false_iff]
    intro hwhite
    simp only [isWhiteSpace, Bool.or_eq_true, List.contains_iff_mem, List.mem_cons, List.not_mem_nil,
      or_false, Bool.and_eq_true, decide_eq_true_eq] at hwhite
    rcases hwhite with hwhite | hwhite
    · rcases hwhite with rfl | rfl | rfl | rfl | rfl | rfl | rfl | rfl | rfl | rfl | rfl | rfl | rfl | rfl
      all_goals exact absurd h (by decide)
    · omega
  · rintro rfl
    exact absurd h (by decide)

def numbered (first : UInt16) (rest : JsString) (n : Nat)
    (hunits : ∀ u ∈ first :: rest, u.toNat < 0xD800 ∧ u ≠ lineFeed)
    (hfirst : isWhiteSpace first = false) : ReplyText where
  text := first :: rest ++ decimal n
  wellFormed := (wellFormed_of_forall_lt fun u hu => (hunits u hu).1).append
    (wellFormed_of_forall_lt fun _ hu => (digit_spec (isDigit_of_mem_decimal hu)).2.1)
  oneLine := by
    rw [List.mem_append, not_or]
    exact ⟨fun h => (hunits _ h).2 rfl, fun h => (digit_spec (isDigit_of_mem_decimal h)).2.2 rfl⟩
  head := fun u hu => by
    rw [← Option.some.inj hu]
    exact hfirst
  last := fun u hu => by
    rw [List.getLast?_append_of_ne_nil _ (decimal_ne_nil n)] at hu
    exact (digit_spec (isDigit_of_mem_decimal (List.mem_of_getLast? hu))).1

def ok : ReplyText where
  text := js "ok"
  wellFormed := wellFormed_of_forall_lt (by decide)
  oneLine := by decide
  head := by decide
  last := by decide

/-- `error:n`. -/
def error (n : Nat) : ReplyText := numbered 101 (js "rror:") n (by decide) (by decide)

/-- `ALARM:n`. -/
def alarm (n : Nat) : ReplyText := numbered 65 (js "LARM:") n (by decide) (by decide)

def status (content : Content) : ReplyText :=
  between 60 [] content 62 ⟨wellFormed_of_forall_lt (by decide), wellFormed_of_forall_lt (by decide)⟩
    (by decide) (by decide)

def report (content : Content) : ReplyText :=
  between 91 (js "GC:") content 93
    ⟨wellFormed_of_forall_lt (by decide), wellFormed_of_forall_lt (by decide)⟩ (by decide) (by decide)

end ReplyText

/-! ## Replies -/

/-- `ok` or `error:n`. -/
inductive Acknowledgement
  | ok
  | error (n : Nat)

def Acknowledgement.line : Acknowledgement → ReplyText
  | ok => .ok
  | error n => .error n

/-- The reply to a command: an acknowledgement, or an alarm, which an acknowledgement may follow. -/
inductive Ending
  | acknowledged (acknowledgement : Acknowledgement)
  | alarm (n : Nat) (after : Option Acknowledgement)

def Ending.lines : Ending → List ReplyText
  | acknowledged acknowledgement => [acknowledgement.line]
  | alarm n after => .alarm n :: (after.map Acknowledgement.line).toList

/-- What a controller replies with to a request. -/
structure Reply where
  ending : Ending
  status : Content
  /-- The state of the parser, when that is asked for and given. -/
  report : Option Content
  /-- Whether lines end with a carriage return and a line feed. -/
  withReturn : Bool

namespace Reply

def lines (reply : Reply) : GrblCall → List ReplyText
  | .status => [.status reply.status]
  | .parserState => (reply.report.map ReplyText.report).toList ++ reply.ending.lines
  | _ => reply.ending.lines

/-- What a reply to a command says: the result it has, or an error. -/
def settles (result : GrblResult) (unknown : Nat → JsString) :
    Ending → Except GrblFailure GrblResult
  | .acknowledged .ok => .ok result
  | .acknowledged (.error n) => .error (.grblError (some n) ((grblErrorMessages (some n)).getD (unknown n)))
  | .alarm n _ => .error (.grblStatusError (js "GRBL_ALARM") (js "ALARM:" ++ decimal n))

/-- What a reply says about a request. An `ok` without a report says nothing about the state of the
parser. -/
def verdict (reply : Reply) : GrblCall → Option (Except GrblFailure GrblResult)
  | .status => some (.ok (.status (parseStatusLine (js "<" ++ reply.status.text ++ js ">"))))
  | .parserState => match reply.report, reply.ending with
    | some report, ending =>
      some (settles (.parserState report.text) (fun n => js "GRBL error " ++ decimal n) ending)
    | none, .acknowledged .ok => none
    | none, ending => some (settles .done (fun n => js "error:" ++ decimal n) ending)
  | _ => some (settles .done (fun n => js "GRBL error " ++ decimal n) reply.ending)

end Reply

/-- A request reads lines one after the other, until one settles it. -/
def follow (r : GrblRequest) : List JsString → GrblRequest
  | [] => r
  | line :: lines => if r.outcome.isSome then r else follow (r.hear line) lines

theorem follow_of_settled {r : GrblRequest} (h : r.outcome.isSome = true) (lines : List JsString) :
    follow r lines = r := by
  cases lines with
  | nil => rfl
  | cons line lines => rw [follow, if_pos h]

theorem follow_cons {r : GrblRequest} (h : r.outcome = none) (line : JsString) (lines : List JsString) :
    follow r (line :: lines) = follow (r.hear line) lines := by
  rw [follow, if_neg (by simp [h])]

theorem parseInt_decimal (n : Nat) : parseInt (decimal n) = some (n : Int) := by
  have hspace : (decimal n).dropWhile isWhiteSpace = decimal n := by
    cases hd : decimal n with
    | nil => rfl
    | cons u rest =>
      have hu : isDigit u = true := isDigit_of_mem_decimal (n := n) (by rw [hd]; exact List.mem_cons_self)
      exact List.dropWhile_cons_of_neg (by simp [(ReplyText.digit_spec hu).1])
  have hhead : ∀ v : UInt16, isDigit v = false → (decimal n).head? ≠ some v := by
    intro v hv h
    rw [isDigit_of_mem_decimal (List.mem_of_mem_head? h)] at hv
    cases hv
  have hdigits : (decimal n).takeWhile isDigit = decimal n :=
    List.takeWhile_eq_self_iff.mpr fun u hu => isDigit_of_mem_decimal hu
  simp only [parseInt, hspace, hhead 45 (by decide), hhead 43 (by decide), or_self, if_false, hdigits,
    decimal_ne_nil, parseDecimal_decimal]

theorem numberText_natCast (n : Nat) : numberText (some (n : Int)) = decimal n := by
  rw [numberText, if_neg (by omega), Int.natAbs_natCast]

theorem errorOf_error (n : Nat) (fallback : Option Int → JsString) :
    errorOf (ReplyText.error n).text fallback =
      .grblError (some n) ((grblErrorMessages (some n)).getD (fallback (some n))) := by
  have hcode : parseInt ((ReplyText.error n).text.drop 6) = some (n : Int) := parseInt_decimal n
  rw [errorOf, hcode]

/-! ## What a request makes of a reply -/

theorem isPrefixOf_reply (n : Nat) :
    (js "ALARM:").isPrefixOf (ReplyText.alarm n).text = true ∧
      (js "ALARM:").isPrefixOf (ReplyText.error n).text = false ∧
      (js "error:").isPrefixOf (ReplyText.error n).text = true ∧
      (js "ALARM:").isPrefixOf (js "ok") = false ∧ (js "error:").isPrefixOf (js "ok") = false :=
  ⟨rfl, rfl, rfl, rfl, rfl⟩

theorem hear_alarm (r : GrblRequest) (n : Nat) :
    r.hear (ReplyText.alarm n).text =
      r.fail (.grblStatusError (js "GRBL_ALARM") (ReplyText.alarm n).text) := by
  rw [GrblRequest.hear, if_pos (isPrefixOf_reply n).1]

/-- An error settles a request that does not wait for an acknowledgement. -/
theorem hear_error_of_not_predicate {r : GrblRequest} {n : Nat}
    (h : r.predicate (ReplyText.error n).text = false) :
    r.hear (ReplyText.error n).text =
      r.fail (errorOf (ReplyText.error n).text fun _ => (ReplyText.error n).text) := by
  obtain ⟨-, halarm, herror, -⟩ := isPrefixOf_reply n
  rw [GrblRequest.hear, halarm, herror, h]
  rfl

/-- A request that waits for an acknowledgement, and returns `result` after it. -/
structure Awaits (r : GrblRequest) (result : GrblResult) : Prop where
  outcome : r.outcome = none
  predicate : ∀ line, r.predicate line = (line = js "ok" || (js "error:").isPrefixOf line)
  accept : ∀ line, r.accept line = r.expectOk result line

/-- **A request that waits for an acknowledgement** is settled as the reply to a command says. -/
theorem Awaits.follow {r : GrblRequest} {result : GrblResult} (h : Awaits r result) (ending : Ending) :
    (follow r (ending.lines.map ReplyText.text)).outcome =
      some (Reply.settles result (fun n => js "GRBL error " ++ decimal n) ending) := by
  cases ending with
  | acknowledged acknowledgement =>
    rw [Ending.lines, List.map_singleton, follow_cons h.outcome, Grbl.follow]
    cases acknowledgement with
    | ok =>
      obtain ⟨-, -, -, halarm, herror⟩ := isPrefixOf_reply 0
      have hheard : r.hear (js "ok") = { r with outcome := some (.ok result) } := by
        rw [GrblRequest.hear, halarm, herror, h.predicate, h.accept, GrblRequest.expectOk, herror]
        rfl
      exact congrArg GrblRequest.outcome hheard
    | error n =>
      obtain ⟨-, halarm, herror, -⟩ := isPrefixOf_reply n
      have hheard : r.hear (ReplyText.error n).text =
          r.fail (errorOf (ReplyText.error n).text fun code => js "GRBL error " ++ numberText code) := by
        rw [GrblRequest.hear, halarm, herror, h.predicate, h.accept, GrblRequest.expectOk, herror,
          Bool.or_true]
        rfl
      show (r.hear (ReplyText.error n).text).outcome = _
      rw [hheard, errorOf_error, numberText_natCast]
      rfl
  | alarm n after =>
    rw [Ending.lines, List.map_cons, follow_cons h.outcome, hear_alarm, follow_of_settled rfl]
    rfl

/-- What a request for the state of the parser makes of a reply without it. -/
theorem outcome_follow_unreported {reply : Reply} {r : GrblRequest} (hgiven : reply.report = none)
    (hnone : r.outcome = none) (hpredicate : ∀ line, r.predicate line = (js "[GC:").isPrefixOf line) :
    (follow r (reply.ending.lines.map ReplyText.text)).outcome = reply.verdict .parserState := by
  rw [Reply.verdict, hgiven]
  cases reply.ending with
  | acknowledged acknowledgement =>
    rw [Ending.lines, List.map_singleton, follow_cons hnone, follow]
    cases acknowledgement with
    | ok =>
      have hskipped : r.heeds (js "ok") = false := by
        rw [GrblRequest.heeds, hpredicate]
        decide
      show (r.hear (js "ok")).outcome = none
      rw [GrblRequest.hear_of_not_heeds hskipped, hnone]
    | error n =>
      have herror : r.predicate (ReplyText.error n).text = false := by
        rw [hpredicate]
        rfl
      show (r.hear (ReplyText.error n).text).outcome = _
      rw [hear_error_of_not_predicate herror, errorOf_error]
      rfl
  | alarm n after =>
    rw [Ending.lines, List.map_cons, follow_cons hnone, hear_alarm, follow_of_settled rfl]
    rfl

/-- **A request that reads its own reply** is settled as the reply says. -/
theorem outcome_follow_lines (reply : Reply) {r : GrblRequest} (hreport : r.report = none)
    (hnone : r.outcome = none) :
    (follow r ((reply.lines r.call).map ReplyText.text)).outcome = reply.verdict r.call := by
  have hcommand : ∀ call, r.call = call → call ≠ .status → call ≠ .parserState → Awaits r .done := by
    intro call hcall hstatus hparser
    constructor
    · exact hnone
    · intro line
      rw [GrblRequest.predicate, hcall]
      cases call <;> first | rfl | contradiction
    · intro line
      rw [GrblRequest.accept, hcall]
      cases call <;> first | rfl | contradiction
  cases hcall : r.call with
  | status =>
    have hpredicate : r.predicate (ReplyText.status reply.status).text = true := by
      rw [GrblRequest.predicate, hcall]
      have hsuffix : js ">" <:+ (ReplyText.status reply.status).text :=
        List.suffix_append (60 :: [] ++ reply.status.text) [62]
      exact (Bool.true_and _).trans (List.isSuffixOf_iff_suffix.mpr hsuffix)
    have hheard : r.hear (ReplyText.status reply.status).text =
        { r with outcome := some (.ok (.status (parseStatusLine (ReplyText.status reply.status).text))) } := by
      have halarm : (js "ALARM:").isPrefixOf (ReplyText.status reply.status).text = false := rfl
      have herror : (js "error:").isPrefixOf (ReplyText.status reply.status).text = false := rfl
      rw [GrblRequest.hear, halarm, herror, hpredicate, GrblRequest.accept, hcall]
      rfl
    rw [Reply.lines, List.map_singleton, follow_cons hnone, follow, hheard]
    rfl
  | home => exact (hcommand _ hcall (by rintro ⟨⟩) (by rintro ⟨⟩)).follow reply.ending
  | rapidMove position => exact (hcommand _ hcall (by rintro ⟨⟩) (by rintro ⟨⟩)).follow reply.ending
  | feedMove position feedMmPerMin => exact (hcommand _ hcall (by rintro ⟨⟩) (by rintro ⟨⟩)).follow reply.ending
  | parserState =>
    have hpredicate : ∀ line, r.predicate line = (js "[GC:").isPrefixOf line := by
      intro line
      rw [GrblRequest.predicate, hcall, hreport]
    cases hgiven : reply.report with
    | none =>
      rw [Reply.lines, hgiven, Option.map_none, Option.toList_none, List.nil_append]
      exact outcome_follow_unreported hgiven hnone hpredicate
    | some report =>
      have hheard : r.hear (ReplyText.report report).text =
          { r with report := some (ReplyText.report report).text } := by
        have halarm : (js "ALARM:").isPrefixOf (ReplyText.report report).text = false := rfl
        have herror : (js "error:").isPrefixOf (ReplyText.report report).text = false := rfl
        rw [GrblRequest.hear, halarm, herror, hpredicate, GrblRequest.accept, hcall, hreport]
        rfl
      have hreported : ((ReplyText.report report).text.drop 4).dropLast = report.text :=
        List.dropLast_concat
      have hawaits : Awaits { r with report := some (ReplyText.report report).text }
          (.parserState report.text) := by
        constructor
        · exact hnone
        · intro line
          rw [GrblRequest.predicate, hcall]
        · intro line
          rw [GrblRequest.accept, hcall]
          dsimp only
          rw [hreported]
      rw [Reply.lines, Reply.verdict, hgiven, Option.map_some, Option.toList_some, List.singleton_append,
        List.map_cons, follow_cons hnone, hheard]
      exact hawaits.follow reply.ending

/-! ## The bench -/

/-- Whether a text is one that no request waits for. -/
def isChatter (text : JsString) : Bool :=
  !(js "ALARM:").isPrefixOf text && !(js "error:").isPrefixOf text && text ≠ js "ok" &&
    !((js "<").isPrefixOf text && (js ">").isSuffixOf text) && !(js "[GC:").isPrefixOf text

theorem heeds_of_isChatter {text : JsString} (h : isChatter text = true) (r : GrblRequest) :
    r.heeds text = false := by
  simp only [isChatter, Bool.and_eq_true, Bool.not_eq_true'] at h
  obtain ⟨⟨⟨⟨halarm, herror⟩, hok⟩, hstatus⟩, hreport⟩ := h
  have hpredicate : r.predicate text = false := by
    rw [GrblRequest.predicate]
    split
    · exact hstatus
    · exact hreport
    · rw [herror, Bool.or_false]
      simpa using hok
  rw [GrblRequest.heeds, halarm, herror, hpredicate, Bool.and_false]
  rfl

/-- A line that a controller wrote: one of the reply to a request, or chatter. -/
structure ControllerLine where
  owner : Option Nat
  raw : List UInt8
  oneLine : 10 ∉ raw
  chatter : owner = none → isChatter (lineText (raw ++ [10])) = true

namespace ControllerLine

def bytes (line : ControllerLine) : List UInt8 := line.raw ++ [10]

/-- The text of a line, as the client reads it. -/
def text (line : ControllerLine) : JsString := lineText line.bytes

/-- The text of a line that replies to a request. -/
def textFor (n : Nat) (line : ControllerLine) : Option JsString :=
  if line.owner = some n then some line.text else none

end ControllerLine

/-- The lines a controller replies to a request with. -/
def Reply.written (reply : Reply) (n : Nat) (call : GrblCall) : List ControllerLine :=
  (reply.lines call).map fun line =>
    ⟨some n, line.bytes reply.withReturn, line.lineFeed_notMem_bytes reply.withReturn, nofun⟩

structure Bench where
  client : GrblClient := {}
  /-- How many of the texts that were written have reached the controller, or are lost. -/
  received : Nat := 0
  lines : List ControllerLine := []
  output : List UInt8 := []
  heard : Nat := 0
  /-- The requests that a line has settled, each with the request this line replies to. -/
  settled : List (Nat × Option Nat) := []

inductive BenchEvent
  | client (event : GrblEvent)
  | receive
  | lose
  | say (raw : List UInt8)
  | arrive (length : Nat)

namespace Bench

variable (controller : Nat → Reply)

def hear (s : Bench) (client : GrblClient) : Bench :=
  { s with
    client := client
    heard := s.heard + 1
    settled := match s.client.current, client.current with
      | some n, none => s.settled ++ [(n, s.lines[s.heard]?.bind ControllerLine.owner)]
      | _, _ => s.settled }

def step (s : Bench) : BenchEvent → Option Bench
  | .client .read => match s.client.step .read with
    | some client => some (s.hear client)
    | none => none
  | .client event => match s.client.step event with
    | some client => some { s with client }
    | none => none
  | .receive => match s.client.sent[s.received]? with
    | some (some n, _) => match s.client.requests[n]? with
      | some r => some { s with
          received := s.received + 1
          lines := s.lines ++ (controller n).written n r.call
          output := s.output ++ ((controller n).written n r.call).flatMap ControllerLine.bytes }
      | none => none
    | some (none, _) => some { s with received := s.received + 1 }
    | none => none
  | .lose => match s.client.sent[s.received]? with
    | some _ => some { s with received := s.received + 1 }
    | none => none
  | .say raw =>
    if h : 10 ∉ raw ∧ isChatter (lineText (raw ++ [10])) = true then
      some { s with
        lines := s.lines ++ [⟨none, raw, h.1, fun _ => h.2⟩]
        output := s.output ++ (raw ++ [10]) }
    else none
  | .arrive length =>
    if s.client.reading then
      some { s with client := s.client.consume (s.output.take length), output := s.output.drop length }
    else none

def machine : Machine Bench BenchEvent := ⟨step controller⟩

/-- Whether a request was settled by a line of the controller. -/
def ofLine : Except GrblFailure GrblResult → Bool
  | .ok _ => true
  | .error e => e.ofLine

/-- Every request that a line settled was settled by a line of the reply to it, as this reply says. -/
structure Correlated (s : Bench) : Prop where
  own : ∀ entry ∈ s.settled, entry.2 = some entry.1
  verdict : ∀ (n : Nat) (r : GrblRequest) (outcome : Except GrblFailure GrblResult),
    s.client.requests[n]? = some r → r.outcome = some outcome → ofLine outcome = true →
      (controller n).verdict r.call = some outcome

/-- The next line replies to the request that reads it, unless that request skips it. -/
def timely (s : Bench) : Bool :=
  match s.client.waiting?, s.lines[s.heard]? with
  | some (n, r), some line => line.owner = none || line.owner = some n || !r.heeds line.text
  | _, _ => true

/-- No request heeds a line of the reply to another one. -/
def Timely (s : Bench) : BenchEvent → Prop
  | .client .read => s.timely = true
  | _ => True

instance (s : Bench) (event : BenchEvent) : Decidable (s.Timely event) := by
  unfold Timely
  split <;> infer_instance

/-! ## What a run keeps -/

/-- The texts of the lines that reply to a request and were not read. -/
def unheard (lines : List ControllerLine) (heard n : Nat) : List JsString :=
  (lines.drop heard).filterMap (ControllerLine.textFor n)

/-- Whether the controller has replied to a request. -/
def Replied (lines : List ControllerLine) (n : Nat) : Prop := ∃ line ∈ lines, line.owner = some n

/-- A request is on its way to what its reply says: without a reply it has taken no line, and when it
reads what is left of the reply it is settled as that says. -/
structure OnCourse (lines : List ControllerLine) (heard n : Nat) (r : GrblRequest) : Prop where
  fresh : ¬ Replied lines n → r.report = none
  unsettled : Replied lines n → r.outcome = none →
    (follow r (unheard lines heard n)).outcome = (controller n).verdict r.call
  settled : ∀ outcome, r.outcome = some outcome → ofLine outcome = true →
    (controller n).verdict r.call = some outcome

structure Settled (s : Bench) : Prop where
  orderly : s.client.Orderly
  stream : s.client.lineBuffer ++ s.output = (s.lines.drop s.heard).flatMap ControllerLine.bytes
  bound : s.heard ≤ s.lines.length
  owners : ∀ n, Replied s.lines n → n ∈ (s.client.sent.take s.received).filterMap Prod.fst
  course : Entries (OnCourse controller s.lines s.heard) s.client.requests
  own : ∀ entry ∈ s.settled, entry.2 = some entry.1

variable {controller}

/-- A line of another request, or chatter, does not change what is left of a reply. -/
theorem unheard_succ_of_ne {lines : List ControllerLine} {heard n : Nat} {line : ControllerLine}
    (hline : lines[heard]? = some line) (hne : line.owner ≠ some n) :
    unheard lines (heard + 1) n = unheard lines heard n := by
  have hdrop : lines.drop heard = line :: lines.drop (heard + 1) :=
    List.drop_eq_getElem?_toList_append.trans (by rw [hline]; rfl)
  rw [unheard, unheard, hdrop, List.filterMap_cons, ControllerLine.textFor, if_neg hne]

theorem unheard_eq_cons {lines : List ControllerLine} {heard n : Nat} {line : ControllerLine}
    (hline : lines[heard]? = some line) (howner : line.owner = some n) :
    unheard lines heard n = line.text :: unheard lines (heard + 1) n := by
  have hdrop : lines.drop heard = line :: lines.drop (heard + 1) :=
    List.drop_eq_getElem?_toList_append.trans (by rw [hline]; rfl)
  rw [unheard, unheard, hdrop, List.filterMap_cons, ControllerLine.textFor, if_pos howner]

theorem unheard_append {lines : List ControllerLine} {heard : Nat} (h : heard ≤ lines.length)
    (more : List ControllerLine) (n : Nat) :
    unheard (lines ++ more) heard n = unheard lines heard n ++ more.filterMap (ControllerLine.textFor n) := by
  rw [unheard, unheard, List.drop_append_of_le_length h, List.filterMap_append]

/-- What another request is replied with leaves a request on its way. -/
theorem OnCourse.append {lines more : List ControllerLine} {heard n : Nat} {r : GrblRequest}
    (h : OnCourse controller lines heard n r) (hbound : heard ≤ lines.length)
    (hmore : ∀ line ∈ more, line.owner ≠ some n) : OnCourse controller (lines ++ more) heard n r := by
  have hreplied : Replied (lines ++ more) n ↔ Replied lines n := by
    constructor
    · rintro ⟨line, hline, howner⟩
      rcases List.mem_append.mp hline with hline | hline
      · exact ⟨line, hline, howner⟩
      · exact absurd howner (hmore line hline)
    · rintro ⟨line, hline, howner⟩
      exact ⟨line, List.mem_append_left _ hline, howner⟩
  have hnothing : more.filterMap (ControllerLine.textFor n) = [] := by
    refine List.filterMap_eq_nil_iff.mpr fun line hline => ?_
    rw [ControllerLine.textFor, if_neg (hmore line hline)]
  constructor
  · rw [hreplied]
    exact h.fresh
  · rw [hreplied, unheard_append hbound, hnothing, List.append_nil]
    exact h.unsettled
  · exact h.settled

/-- The lines a controller replies with reply to the request, and say what the reply says. -/
theorem written_spec (reply : Reply) (n : Nat) (call : GrblCall) :
    (∀ line ∈ reply.written n call, line.owner = some n) ∧
      (reply.written n call).filterMap (ControllerLine.textFor n) =
        (reply.lines call).map ReplyText.text := by
  constructor
  · intro line hline
    obtain ⟨text, -, rfl⟩ := List.mem_map.mp hline
    rfl
  · rw [Reply.written, List.filterMap_map, ← List.filterMap_eq_map]
    refine List.filterMap_congr fun text _ => ?_
    show ControllerLine.textFor n ⟨some n, text.bytes reply.withReturn, _, _⟩ = some text.text
    rw [ControllerLine.textFor, if_pos rfl, ControllerLine.text, ControllerLine.bytes,
      ReplyText.lineText_bytes]

/-- **A request gets its reply.** -/
theorem OnCourse.reply {lines : List ControllerLine} {heard n : Nat} {r : GrblRequest}
    (h : OnCourse controller lines heard n r) (hbound : heard ≤ lines.length)
    (hnew : ¬ Replied lines n) :
    OnCourse controller (lines ++ (controller n).written n r.call) heard n r := by
  have hnothing : unheard lines heard n = [] := by
    refine List.filterMap_eq_nil_iff.mpr fun line hline => ?_
    rw [ControllerLine.textFor, if_neg fun howner => hnew ⟨line, List.mem_of_mem_drop hline, howner⟩]
  constructor
  · exact fun _ => h.fresh hnew
  · intro _ hnone
    rw [unheard_append hbound, hnothing, List.nil_append, (written_spec _ n r.call).2]
    exact outcome_follow_lines _ (h.fresh hnew) hnone
  · exact h.settled

theorem OnCourse.fail {lines : List ControllerLine} {heard n : Nat} {r : GrblRequest}
    (h : OnCourse controller lines heard n r) {e : GrblFailure} (he : e.ofLine = false) :
    OnCourse controller lines heard n (r.fail e) := by
  refine ⟨h.fresh, fun _ hnone => ?_, fun outcome houtcome hline => ?_⟩
  · cases hnone
  · obtain rfl := Option.some.inj houtcome
    rw [ofLine, he] at hline
    cases hline

/-- **What a step other than a line does** leaves every request on its way. -/
theorem course_change {lines : List ControllerLine} {heard : Nat} {requests requests' : List GrblRequest}
    (hchange : GrblClient.Change requests requests') (hknown : ¬ Replied lines requests.length)
    (h : Entries (OnCourse controller lines heard) requests) :
    Entries (OnCourse controller lines heard) requests' := by
  cases hchange with
  | same => exact h
  | made call timeoutMs text =>
    exact h.append ⟨fun _ => rfl, fun hreplied => absurd hreplied hknown, nofun⟩
  | refused call timeoutMs e he =>
    have hfresh : OnCourse controller lines heard requests.length ⟨call, timeoutMs, [], none, none⟩ :=
      ⟨fun _ => rfl, fun hreplied => absurd hreplied hknown, nofun⟩
    exact h.append (hfresh.fail he)
  | failed n e he => exact h.modify fun r hr => hr.fail he

theorem Settled.not_replied {s : Bench} (h : Settled controller s) :
    ¬ Replied s.lines s.client.requests.length := by
  intro hreplied
  obtain ⟨entry, hentry, hfst⟩ := List.mem_filterMap.mp (h.owners _ hreplied)
  have hsender : s.client.requests.length ∈ s.client.senders :=
    List.mem_filterMap.mpr ⟨entry, List.mem_of_mem_take hentry, hfst⟩
  exact Nat.lt_irrefl _ (h.orderly.known _ hsender)

/-- **A step of the client** other than a line. -/
theorem Settled.client {s : Bench} (h : Settled controller s) {event : GrblEvent} {client : GrblClient}
    (hevent : event ≠ .read) (hstep : s.client.step event = some client) :
    Settled controller { s with client } := by
  obtain ⟨hchange, hbuffer, more, hsent⟩ := GrblClient.requests_step hevent hstep
  constructor
  · exact h.orderly.step hstep
  · rw [hbuffer]
    exact h.stream
  · exact h.bound
  · intro n hn
    rw [hsent]
    have hold := h.owners n hn
    rw [List.take_append, List.filterMap_append]
    exact List.mem_append_left _ hold
  · exact course_change hchange h.not_replied h.course
  · exact h.own

/-- **The controller replies** to the next request. -/
theorem Settled.receive {s : Bench} (h : Settled controller s) {n : Nat} {payload : List UInt8}
    {r : GrblRequest} (hsent : s.client.sent[s.received]? = some (some n, payload))
    (hr : s.client.requests[n]? = some r) :
    Settled controller { s with
      received := s.received + 1
      lines := s.lines ++ (controller n).written n r.call
      output := s.output ++ ((controller n).written n r.call).flatMap ControllerLine.bytes } := by
  have hsenders : s.client.senders = (s.client.sent.take s.received).filterMap Prod.fst ++
      n :: (s.client.sent.drop (s.received + 1)).filterMap Prod.fst := by
    have hsplit : s.client.sent = s.client.sent.take s.received ++
        ((some n, payload) :: s.client.sent.drop (s.received + 1)) := by
      have hdrop : s.client.sent.drop s.received =
          (some n, payload) :: s.client.sent.drop (s.received + 1) :=
        List.drop_eq_getElem?_toList_append.trans (by rw [hsent]; rfl)
      rw [← hdrop, List.take_append_drop]
    have hnumbers := congrArg (List.filterMap Prod.fst) hsplit
    rwa [List.filterMap_append] at hnumbers
  have hnew : ¬ Replied s.lines n := by
    intro hreplied
    have hdistinct := h.orderly.distinct
    rw [hsenders] at hdistinct
    exact (List.nodup_append.mp hdistinct).2.2 n (h.owners n hreplied) n List.mem_cons_self rfl
  have hwritten := (written_spec (controller n) n r.call).1
  constructor
  · exact h.orderly
  · rw [List.drop_append_of_le_length h.bound, List.flatMap_append, ← h.stream, List.append_assoc]
  · rw [List.length_append]
    exact Nat.le_add_right_of_le h.bound
  · rintro m ⟨line, hline, howner⟩
    have htake : s.client.sent.take (s.received + 1) =
        s.client.sent.take s.received ++ [(some n, payload)] := by
      rw [List.take_add_one, hsent]
      rfl
    rw [htake, List.filterMap_append, List.mem_append]
    rcases List.mem_append.mp hline with hline | hline
    · exact .inl (h.owners m ⟨line, hline, howner⟩)
    · obtain rfl := Option.some.inj ((hwritten line hline).symm.trans howner)
      exact .inr (by simp)
  · intro m r' hr'
    by_cases hm : m = n
    · subst hm
      obtain rfl := Option.some.inj (hr.symm.trans hr')
      exact (h.course m r hr').reply h.bound hnew
    · refine (h.course m r' hr').append h.bound fun line hline howner => hm ?_
      exact Option.some.inj (howner.symm.trans (hwritten line hline))
  · exact h.own

/-- A text reaches the controller that it does not reply to, or is lost. -/
theorem Settled.pass {s : Bench} (h : Settled controller s) :
    Settled controller { s with received := s.received + 1 } := by
  refine ⟨h.orderly, h.stream, h.bound, fun n hn => ?_, h.course, h.own⟩
  obtain ⟨entry, hentry, hfst⟩ := List.mem_filterMap.mp (h.owners n hn)
  have hsub := (List.take_sublist_take_left (l := s.client.sent) (Nat.le_succ s.received)).subset
  exact List.mem_filterMap.mpr ⟨entry, hsub hentry, hfst⟩

theorem Settled.say {s : Bench} (h : Settled controller s) (line : ControllerLine)
    (hnobody : line.owner = none) :
    Settled controller { s with lines := s.lines ++ [line], output := s.output ++ line.bytes } := by
  constructor
  · exact h.orderly
  · show s.client.lineBuffer ++ (s.output ++ line.bytes) = _
    rw [List.drop_append_of_le_length h.bound, List.flatMap_append, ← h.stream, List.append_assoc,
      List.flatMap_singleton]
  · rw [List.length_append]
    exact Nat.le_add_right_of_le h.bound
  · rintro n ⟨line', hline, howner⟩
    rcases List.mem_append.mp hline with hline | hline
    · exact h.owners n ⟨line', hline, howner⟩
    · rw [List.mem_singleton.mp hline, hnobody] at howner
      cases howner
  · intro n r hr
    refine (h.course n r hr).append h.bound fun line' hline => ?_
    rw [List.mem_singleton.mp hline, hnobody]
    nofun
  · exact h.own

theorem Settled.arrive {s : Bench} (h : Settled controller s) (length : Nat) :
    Settled controller { s with
      client := s.client.consume (s.output.take length), output := s.output.drop length } := by
  have hfields : (s.client.consume (s.output.take length)).lineBuffer =
        s.client.lineBuffer ++ s.output.take length ∧
      (s.client.consume (s.output.take length)).Orderly ∧
      (s.client.consume (s.output.take length)).sent = s.client.sent ∧
      (s.client.consume (s.output.take length)).requests = s.client.requests := by
    have horderly := h.orderly
    rw [GrblClient.consume]
    split <;> exact ⟨rfl, ⟨horderly.current, horderly.queued, horderly.nodup, horderly.distinct,
      horderly.known, horderly.ended⟩, rfl, rfl⟩
  obtain ⟨hbuffer, horderly, hsent, hrequests⟩ := hfields
  constructor
  · exact horderly
  · rw [hbuffer, List.append_assoc, List.take_append_drop]
    exact h.stream
  · exact h.bound
  · rw [hsent]
    exact h.owners
  · rw [hrequests]
    exact h.course
  · exact h.own

theorem Settled.exists_line {s : Bench} (h : Settled controller s) {raw rest : List UInt8}
    (hnext : nextLine? s.client.lineBuffer = some (raw, rest)) :
    ∃ line, s.lines[s.heard]? = some line ∧ line.raw = raw ∧
      rest ++ s.output = (s.lines.drop (s.heard + 1)).flatMap ControllerLine.bytes := by
  obtain ⟨hbuffer, hraw⟩ := eq_of_nextLine? hnext
  have hstream := h.stream
  rw [hbuffer, List.append_assoc] at hstream
  cases hline : s.lines[s.heard]? with
  | none =>
    rw [List.drop_eq_nil_of_le (List.getElem?_eq_none_iff.mp hline)] at hstream
    simp at hstream
  | some line =>
    have hdrop : s.lines.drop s.heard = line :: s.lines.drop (s.heard + 1) :=
      List.drop_eq_getElem?_toList_append.trans (by rw [hline]; rfl)
    rw [hdrop, List.flatMap_cons, ControllerLine.bytes, List.append_assoc] at hstream
    have hleft := nextLine?_append hraw (rest ++ s.output)
    have hright := nextLine?_append line.oneLine
      ((s.lines.drop (s.heard + 1)).flatMap ControllerLine.bytes)
    have hsame : some (raw, rest ++ s.output) =
        some (line.raw, (s.lines.drop (s.heard + 1)).flatMap ControllerLine.bytes) := by
      rw [← hleft, ← hright]
      exact congrArg nextLine? hstream
    obtain ⟨hraw', hrest⟩ := Prod.mk.inj (Option.some.inj hsame)
    exact ⟨line, rfl, hraw'.symm, hrest⟩

/-- A request that heeds a line of its own reply goes on as that reply says. -/
theorem OnCourse.hear {lines : List ControllerLine} {heard n : Nat} {r : GrblRequest}
    (h : OnCourse controller lines heard n r) {line : ControllerLine} (hline : lines[heard]? = some line)
    (howner : line.owner = some n) (hnone : r.outcome = none) :
    OnCourse controller lines (heard + 1) n (r.hear line.text) := by
  have hreplied : Replied lines n := ⟨line, List.mem_of_getElem? hline, howner⟩
  have hfollow := h.unsettled hreplied hnone
  rw [unheard_eq_cons hline howner, follow_cons hnone] at hfollow
  constructor
  · exact fun hnot => absurd hreplied hnot
  · intro _ _
    rw [GrblRequest.call_hear]
    exact hfollow
  · intro outcome houtcome _
    rw [follow_of_settled (by rw [houtcome]; rfl), houtcome] at hfollow
    rw [GrblRequest.call_hear]
    exact hfollow.symm

/-- A line does not matter to a request that is not replied to with it, or has ended. -/
theorem OnCourse.skip {lines : List ControllerLine} {heard n : Nat} {r : GrblRequest}
    (h : OnCourse controller lines heard n r) {line : ControllerLine} (hline : lines[heard]? = some line)
    (hother : line.owner ≠ some n ∨ r.outcome.isSome = true) :
    OnCourse controller lines (heard + 1) n r := by
  refine ⟨h.fresh, fun hreplied hnone => ?_, h.settled⟩
  rcases hother with hne | hended
  · rw [unheard_succ_of_ne hline hne]
    exact h.unsettled hreplied hnone
  · rw [hnone] at hended
    cases hended

/-- **A line in time**: the request under way heeds it only when it replies to this request. -/
theorem Settled.read {s : Bench} (h : Settled controller s) {client : GrblClient}
    (htime : s.timely = true) (hstep : s.client.step .read = some client) :
    Settled controller (s.hear client) := by
  have horderly := h.orderly.step hstep
  simp only [GrblClient.step] at hstep
  split at hstep
  · next n r raw rest hwaits hnext =>
    obtain rfl := Option.some.inj hstep
    obtain ⟨hcurrent, hr⟩ := GrblClient.eq_of_waiting? hwaits
    obtain ⟨-, r', hr', hnone⟩ := h.orderly.current n hcurrent
    obtain rfl := Option.some.inj (hr.symm.trans hr')
    obtain ⟨line, hline, hraw, hrest⟩ := h.exists_line hnext
    have htext : lineText (raw ++ [10]) = line.text := by rw [← hraw]; rfl
    rw [htext] at horderly ⊢
    have hskips : line.owner = some n ∨ r.heeds line.text = false := by
      rw [timely, hwaits, hline] at htime
      simp only [Bool.or_eq_true, decide_eq_true_eq, Bool.not_eq_true'] at htime
      rcases htime with (hnobody | hown) | hskips
      · exact .inr (heeds_of_isChatter (line.chatter hnobody) r)
      · exact .inl hown
      · exact .inr hskips
    constructor
    · exact horderly
    · exact hrest
    · exact (List.getElem?_eq_some_iff.mp hline).1
    · exact h.owners
    · intro m r' hr'
      rcases getElem?_modify_eq_some hr' with ⟨hm, hold⟩ | ⟨rfl, r', hold, rfl⟩
      · -- the other requests have ended, or nothing was replied to them
        refine (h.course m r' hold).skip hline ?_
        by_cases howner : line.owner = some m
        · right
          obtain ⟨entry, hentry, hfst⟩ :=
            List.mem_filterMap.mp (h.owners m ⟨line, List.mem_of_getElem? hline, howner⟩)
          have hsender : m ∈ s.client.senders :=
            List.mem_filterMap.mpr ⟨entry, List.mem_of_mem_take hentry, hfst⟩
          obtain ⟨r'', hr'', hended⟩ := h.orderly.ended m hsender
            (by rw [hcurrent]; exact fun heq => hm (Option.some.inj heq))
          rwa [Option.some.inj (hold.symm.trans hr'')]
        · exact .inl howner
      · obtain rfl := Option.some.inj (hr.symm.trans hold)
        by_cases howner : line.owner = some n
        · exact (h.course n r hold).hear hline howner hnone
        · rw [GrblRequest.hear_of_not_heeds (hskips.resolve_left howner)]
          exact (h.course n r hold).skip hline (.inl howner)
    · intro entry hentry
      rw [Bench.hear] at hentry
      dsimp only at hentry
      split at hentry
      · next m hm hgone =>
        rcases List.mem_append.mp hentry with hentry | hentry
        · exact h.own entry hentry
        · obtain rfl := List.mem_singleton.mp hentry
          obtain rfl := Option.some.inj (hcurrent.symm.trans hm)
          rcases hskips with howner | hskips
          · simpa [hline] using howner
          · -- a request that skips the line is still under way
            have hgoes : (s.client.requests.modify n (·.hear line.text))[n]? = some r := by
              rw [getElem?_modify_self _ hr, GrblRequest.hear_of_not_heeds hskips]
            have hsame : ({ s.client with lineBuffer := rest }.update n (·.hear line.text)).current =
                some n := by
              simp [GrblClient.update, hr, GrblRequest.hear_of_not_heeds hskips, hnone, hcurrent]
            rw [hsame] at hgone
            cases hgone
      · exact h.own entry hentry
  · cases hstep

/-- **A step in time** keeps the bench settled. -/
theorem Settled.step {s s' : Bench} {event : BenchEvent} (h : Settled controller s)
    (htime : s.Timely event) (hstep : s.step controller event = some s') : Settled controller s' := by
  cases event with
  | client event =>
    by_cases hread : event = .read
    · subst hread
      simp only [Bench.step] at hstep
      split at hstep
      · next client hclient =>
        obtain rfl := Option.some.inj hstep
        exact h.read htime hclient
      · cases hstep
    · have hplain : s.step controller (.client event) = match s.client.step event with
          | some client => some { s with client }
          | none => none := by
        cases event <;> first | rfl | exact absurd rfl hread
      rw [hplain] at hstep
      split at hstep
      · next client hclient =>
        obtain rfl := Option.some.inj hstep
        exact h.client hread hclient
      · cases hstep
  | receive =>
    simp only [Bench.step] at hstep
    split at hstep
    · next n payload hsent =>
      split at hstep
      · next r hr =>
        obtain rfl := Option.some.inj hstep
        exact h.receive hsent hr
      · cases hstep
    · obtain rfl := Option.some.inj hstep
      exact h.pass
    · cases hstep
  | lose =>
    simp only [Bench.step] at hstep
    split at hstep
    · obtain rfl := Option.some.inj hstep
      exact h.pass
    · cases hstep
  | say raw =>
    simp only [Bench.step] at hstep
    split at hstep
    · obtain rfl := Option.some.inj hstep
      exact h.say _ rfl
    · cases hstep
  | arrive length =>
    simp only [Bench.step] at hstep
    split at hstep
    · obtain rfl := Option.some.inj hstep
      exact h.arrive length
    · cases hstep

def resolved (s : Bench) (n : Nat) : Option GrblResult :=
  s.client.requests[n]?.bind fun r => r.outcome.bind Except.toOption

/-- What happens at a bench while a request is served whose reply arrives at once. -/
def serve : List BenchEvent :=
  [.client .begin, .client .written, .receive, .arrive 100, .client .read]

end Bench

end Pinout.Grbl
