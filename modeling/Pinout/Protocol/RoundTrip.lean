import Pinout.Protocol.Framing
import Pinout.Protocol.Messages

/-! # The transport round trip

The text of a JSON value is printable (`Printable`): it has no line feed and no lone surrogate. So the
encoded lines of a list of messages are the complete lines of the stream of their bytes, they are
yielded as they are when they are within the limit, and each is decoded as the message it was encoded
from (`yielded_encode`). -/

namespace Pinout.Protocol

open Foundation

/-! ## Printable text -/

/-- A string of scalar values from the space on. -/
def Printable (s : JsString) : Prop :=
  ∃ ns : List Nat, (∀ n ∈ ns, IsScalar n ∧ 0x20 ≤ n) ∧ s = ns.flatMap codePointUnits

def IsAscii (u : UInt16) : Prop := 0x20 ≤ u.toNat ∧ u.toNat < 0x7F

instance (u : UInt16) : Decidable (IsAscii u) := inferInstanceAs (Decidable (_ ∧ _))

def PlainNumbers (numText : ℚ → JsString) : Prop := ∀ q, ∀ u ∈ numText q, IsAscii u

theorem Printable.nil : Printable [] := ⟨[], List.forall_mem_nil _, rfl⟩

theorem Printable.append {s t : JsString} (hs : Printable s) (ht : Printable t) :
    Printable (s ++ t) := by
  obtain ⟨ns, hns, rfl⟩ := hs
  obtain ⟨ms, hms, rfl⟩ := ht
  refine ⟨ns ++ ms, fun n hn => ?_, by rw [List.flatMap_append]⟩
  rcases List.mem_append.mp hn with hn | hn
  · exact hns n hn
  · exact hms n hn

theorem Printable.flatten {ss : List JsString} (h : ∀ s ∈ ss, Printable s) : Printable ss.flatten := by
  induction ss with
  | nil => exact Printable.nil
  | cons s ss ih =>
    rw [List.flatten_cons]
    exact (h s List.mem_cons_self).append (ih fun t ht => h t (List.mem_cons_of_mem s ht))

theorem printable_singleton {u : UInt16} (hu : 0x20 ≤ u.toNat) (hlead : isLead u = false)
    (htrail : isTrail u = false) : Printable [u] := by
  have hscalar : IsScalar u.toNat := by
    simp only [isLead, isTrail, decide_eq_false_iff_not] at hlead htrail
    have hlt := u.toNat_lt
    unfold IsScalar
    omega
  refine ⟨[u.toNat], fun n hn => ?_, ?_⟩
  · obtain rfl := List.mem_singleton.mp hn
    exact ⟨hscalar, hu⟩
  · have hlt : u.toNat < 0x10000 := u.toNat_lt
    rw [List.flatMap_singleton, codePointUnits, if_pos hlt]
    exact congrArg (fun v => [v]) (UInt16.toNat_inj.mp (toNat_toUInt16 hlt)).symm

theorem printable_pair {u v : UInt16} (hlead : isLead u = true) (htrail : isTrail v = true) :
    Printable [u, v] := by
  simp only [isLead, isTrail, decide_eq_true_eq] at hlead htrail
  have hvalue : pairValue u v = 0x10000 + (u.toNat - 0xD800) * 0x400 + (v.toNat - 0xDC00) := rfl
  generalize pairValue u v = n at hvalue
  have hscalar : IsScalar n := by
    unfold IsScalar
    omega
  refine ⟨[n], fun m hm => ?_, ?_⟩
  · obtain rfl := List.mem_singleton.mp hm
    exact ⟨hscalar, by omega⟩
  · have hhigh : 0xD800 + (n - 0x10000) / 0x400 = u.toNat := by omega
    have hlow : 0xDC00 + (n - 0x10000) % 0x400 = v.toNat := by omega
    have hu : u.toNat.toUInt16 = u := UInt16.toNat_inj.mp (toNat_toUInt16 u.toNat_lt)
    have hv : v.toNat.toUInt16 = v := UInt16.toNat_inj.mp (toNat_toUInt16 v.toNat_lt)
    rw [List.flatMap_singleton, codePointUnits, if_neg (by omega), if_pos (by omega), hhigh, hlow, hu,
      hv]

theorem printable_of_isAscii {s : JsString} (h : ∀ u ∈ s, IsAscii u) : Printable s := by
  have hflatten : s = (s.map fun u => [u]).flatten := by
    induction s with
    | nil => rfl
    | cons u s ih => rw [List.map_cons, List.flatten_cons, ← ih fun v hv =>
        h v (List.mem_cons_of_mem u hv), List.singleton_append]
  rw [hflatten]
  refine Printable.flatten fun t ht => ?_
  obtain ⟨u, hu, rfl⟩ := List.mem_map.mp ht
  obtain ⟨hlow, hhigh⟩ := h u hu
  refine printable_singleton hlow ?_ ?_
  · simp only [isLead, decide_eq_false_iff_not]
    omega
  · simp only [isTrail, decide_eq_false_iff_not]
    omega

theorem Printable.lineFeed_not_mem {s : JsString} (h : Printable s) : lineFeed ∉ s := by
  obtain ⟨ns, hns, rfl⟩ := h
  intro hmem
  obtain ⟨n, hn, hunit⟩ := List.mem_flatMap.mp hmem
  obtain ⟨hscalar, hlow⟩ := hns n hn
  have hten : (lineFeed : UInt16).toNat = 10 := rfl
  rcases codePointUnits_cases hscalar with ⟨u, hunits, hu, -⟩ | ⟨u, v, hunits, hlead, htrail, -⟩
  · rw [hunits, List.mem_singleton] at hunit
    rw [← hunit, hten] at hu
    omega
  · simp only [isLead, isTrail, decide_eq_true_eq] at hlead htrail
    rw [hunits] at hunit
    rcases List.mem_cons.mp hunit with rfl | hunit
    · omega
    · obtain rfl := List.mem_singleton.mp hunit
      omega

theorem Printable.wellFormed {s : JsString} (h : Printable s) : WellFormed s := by
  obtain ⟨ns, hns, rfl⟩ := h
  exact ⟨ns, fun n hn => (hns n hn).1, rfl⟩

/-! ## The text of JSON values -/

theorem isAscii_hexDigit {n : Nat} (h : n < 16) : IsAscii (hexDigit n) := by
  interval_cases n <;> decide

theorem printable_unicodeEscape (u : UInt16) : Printable (unicodeEscape u) := by
  have hlt := u.toNat_lt
  refine printable_of_isAscii fun v hv => ?_
  simp only [unicodeEscape, List.mem_cons, List.not_mem_nil, or_false] at hv
  rcases hv with rfl | rfl | rfl | rfl | rfl | rfl
  · decide
  · decide
  · exact isAscii_hexDigit (by omega)
  · exact isAscii_hexDigit (by omega)
  · exact isAscii_hexDigit (by omega)
  · exact isAscii_hexDigit (by omega)

theorem printable_quoteUnit (u : UInt16) : Printable (quoteUnit u) := by
  unfold quoteUnit
  split
  · exact printable_unicodeEscape u
  · next hsurrogate =>
    simp only [Bool.or_eq_true, not_or, Bool.not_eq_true] at hsurrogate
    split_ifs with _ _ _ _ _ _ _ hcontrol
    iterate 7 exact printable_of_isAscii (by decide)
    · exact printable_unicodeEscape u
    · exact printable_singleton (not_lt.mp hcontrol) hsurrogate.1 hsurrogate.2

theorem printable_quote (s : JsString) : Printable (quote s) := by
  have hunits : Printable (quoteUnits s).flatten := by
    induction s using quoteUnits.induct with
    | case1 => exact Printable.nil
    | case2 u => simpa [quoteUnits] using printable_quoteUnit u
    | case3 u v rest hpair ih =>
      rw [Bool.and_eq_true] at hpair
      have h := (printable_pair hpair.1 hpair.2).append ih
      simpa [quoteUnits, hpair.1, hpair.2] using h
    | case4 u v rest hpair ih =>
      have h := (printable_quoteUnit u).append ih
      rwa [quoteUnits, if_neg hpair, List.flatten_cons]
  have hquote : Printable [34] := printable_of_isAscii (by decide)
  have h := (hquote.append hunits).append hquote
  rwa [List.singleton_append] at h

theorem printable_intercalate {ss : List JsString} (h : ∀ s ∈ ss, Printable s) :
    Printable (List.intercalate [44] ss) := by
  have hcomma : Printable [44] := printable_of_isAscii (by decide)
  induction ss with
  | nil => exact Printable.nil
  | cons s ss ih =>
    have hs := h s List.mem_cons_self
    have ih := ih fun t ht => h t (List.mem_cons_of_mem s ht)
    cases ss with
    | nil => simpa [List.intercalate] using hs
    | cons t ss =>
      have hrest := hs.append (hcomma.append ih)
      simpa [List.intercalate] using hrest

section

variable {numText : ℚ → JsString}

mutual

/-- **The text of a JSON value is printable.** -/
theorem printable_stringify (hnum : PlainNumbers numText) :
    ∀ v : Json, Printable (v.stringify numText)
  | .null => printable_of_isAscii (by decide : ∀ u ∈ js "null", IsAscii u)
  | .bool true => printable_of_isAscii (by decide : ∀ u ∈ js "true", IsAscii u)
  | .bool false => printable_of_isAscii (by decide : ∀ u ∈ js "false", IsAscii u)
  | .num q => printable_of_isAscii (hnum q)
  | .str s => printable_quote s
  | .arr items => by
    have hopen : Printable [91] := printable_of_isAscii (by decide)
    have hclose : Printable [93] := printable_of_isAscii (by decide)
    exact (hopen.append (printable_intercalate (printable_stringifyItems hnum items))).append hclose
  | .obj fields => by
    have hopen : Printable [123] := printable_of_isAscii (by decide)
    have hclose : Printable [125] := printable_of_isAscii (by decide)
    exact (hopen.append (printable_intercalate (printable_stringifyFields hnum fields))).append hclose

theorem printable_stringifyItems (hnum : PlainNumbers numText) :
    ∀ items : List Json, ∀ s ∈ Json.stringifyItems numText items, Printable s
  | [] => nofun
  | v :: items => by
    intro s hs
    rcases List.mem_cons.mp hs with rfl | hs
    · exact printable_stringify hnum v
    · exact printable_stringifyItems hnum items s hs

theorem printable_stringifyFields (hnum : PlainNumbers numText) :
    ∀ fields : List (JsString × Json), ∀ s ∈ Json.stringifyFields numText fields, Printable s
  | [] => nofun
  | (name, v) :: fields => by
    intro s hs
    rcases List.mem_cons.mp hs with rfl | hs
    · have hcolon : Printable [58] := printable_of_isAscii (by decide)
      exact (printable_quote name).append (hcolon.append (printable_stringify hnum v))
    · exact printable_stringifyFields hnum fields s hs

end

end

/-! ## Messages -/

variable {numText : ℚ → JsString} {parse : JsString → Option Json}

/-- The text of a message, without the line feed. -/
def messageText (numText : ℚ → JsString) (m : ProtocolMessage) : JsString :=
  Json.stringify numText (.obj m.record)

theorem encode_eq (m : ProtocolMessage) : encode numText m = messageText numText m ++ [lineFeed] := by
  cases m <;> rfl

variable (numText) in
theorem exists_messageText (m : ProtocolMessage) :
    ∃ fields, messageText numText m = 123 :: fields ++ [125] := ⟨_, rfl⟩

variable (numText) in
/-- Text in braces is not changed by stripping and trimming. -/
theorem trim_messageText (m : ProtocolMessage) :
    stripCarriageReturn (messageText numText m) = messageText numText m ∧
      trim (messageText numText m) = messageText numText m := by
  obtain ⟨fields, hfields⟩ := exists_messageText numText m
  rw [hfields]
  have hopen : isWhiteSpace 123 = false := by decide
  have hclose : isWhiteSpace 125 = false := by decide
  refine ⟨?_, ?_⟩
  · rw [stripCarriageReturn, List.getLast?_concat, if_neg (by decide)]
  · refine trim_eq_self (fun u hu => ?_) (fun u hu => ?_)
    · rwa [← Option.some.inj hu]
    · rw [List.getLast?_concat] at hu
      rwa [← Option.some.inj hu]

def HasId (m : ProtocolMessage) : Prop := ∀ id ∈ m.id?, id ≠ []

/-- **A message is decoded as the message it was encoded from.** -/
theorem parseLine_messageText {m : ProtocolMessage} (hid : HasId m)
    (hparse : parse (messageText numText m) = some (.obj m.record)) :
    parseLine numText parse (messageText numText m) = .ok (some m) := by
  obtain ⟨hstrip, htrim⟩ := trim_messageText numText m
  obtain ⟨fields, hfields⟩ := exists_messageText numText m
  have hhead : (messageText numText m).head? = some 123 := by rw [hfields]; rfl
  have hdecode : decodeLine numText parse (messageText numText m) =
      .ok (decodeRecord (messageText numText m) m.record) := by
    unfold decodeLine
    dsimp only
    rw [hstrip, htrim, if_neg (not_not.mpr hhead), hparse]
    dsimp only
    refine if_pos ?_
    cases m <;> rfl
  have hrecord : decodeRecord (messageText numText m) m.record = .message m := by
    cases m with
    | request id action payload =>
      cases id with
      | nil => exact absurd rfl (hid [] rfl)
      | cons u id => rfl
    | success id result =>
      cases id with
      | nil => exact absurd rfl (hid [] rfl)
      | cons u id => rfl
    | failure id code message =>
      cases id with
      | nil => exact absurd rfl (hid [] rfl)
      | cons u id => rfl
    | event name payload => rfl
  rw [parseLine, hdecode, hrecord]
  rfl

/-- The encodings of a list of messages, one after the other. -/
def encodeAll (numText : ℚ → JsString) (messages : List ProtocolMessage) : JsString :=
  messages.flatMap (encode numText)

theorem encodeAll_eq (messages : List ProtocolMessage) :
    encodeAll numText messages = joinLines lineFeed (messages.map (messageText numText)) [] := by
  rw [encodeAll, joinLines, List.append_nil, List.flatMap_map]
  exact congrArg (List.flatMap · messages) (funext encode_eq)

theorem decodeText_encodeAll (hnum : PlainNumbers numText) (messages : List ProtocolMessage) :
    decodeText (encodeUtf8 (encodeAll numText messages)) = encodeAll numText messages ∧
      flushText (encodeUtf8 (encodeAll numText messages)) = [] := by
  have hfeed : WellFormed [lineFeed] := ⟨[10], fun n hn => by
    obtain rfl := List.mem_singleton.mp hn
    exact Or.inl (by decide), rfl⟩
  have hwellFormed : WellFormed (encodeAll numText messages) := by
    induction messages with
    | nil => exact ⟨[], List.forall_mem_nil _, rfl⟩
    | cons m messages ih =>
      obtain ⟨ns, hns, htext⟩ := (printable_stringify hnum (.obj m.record)).wellFormed
      obtain ⟨ks, hks, hline⟩ := hfeed
      obtain ⟨ms, hms, hrest⟩ := ih
      refine ⟨ns ++ ks ++ ms, fun n hn => ?_, ?_⟩
      · rcases List.mem_append.mp hn with hn | hn
        · rcases List.mem_append.mp hn with hn | hn
          · exact hns n hn
          · exact hks n hn
        · exact hms n hn
      · rw [List.flatMap_append, List.flatMap_append, ← hrest, ← hline, ← htext]
        exact congrArg (· ++ encodeAll numText messages) (encode_eq m)
  have hhead : (encodeAll numText messages).head? ≠ some 0xFEFF := by
    cases messages with
    | nil => nofun
    | cons m messages =>
      have hline : encodeAll numText (m :: messages) =
          messageText numText m ++ [lineFeed] ++ encodeAll numText messages :=
        congrArg (· ++ encodeAll numText messages) (encode_eq m)
      obtain ⟨fields, hfields⟩ := exists_messageText numText m
      rw [hline, hfields]
      show some (123 : UInt16) ≠ some 0xFEFF
      decide
  exact TextDecoder.decode_encodeUtf8 hwellFormed hhead

/-- **Transport round trip.** For every list of messages whose encoded lines are within the limit, and
every way to cut the bytes of their encodings into chunks, reading the chunks as lines and parsing the
lines gives exactly that list. `JSON.parse` is assumed to invert `JSON.stringify` on the messages, and
the text of numbers to be ASCII. -/
theorem transport_round_trip (numText : ℚ → JsString) (hnum : PlainNumbers numText)
    (parse : JsString → Option Json) (messages : List ProtocolMessage)
    (hparse : ∀ m ∈ messages, parse (Json.stringify numText (.obj m.record)) = some (.obj m.record))
    (hid : ∀ m ∈ messages, HasId m)
    (hlength : ∀ m ∈ messages, (Json.stringify numText (.obj m.record)).length ≤ 1024)
    (chunks : List (List UInt8))
    (hchunks : chunks.flatten = encodeUtf8 (encodeAll numText messages)) :
    (readLines .maxProtocolLineBytes chunks).yielded.map (parseLine numText parse) =
      messages.map fun m => .ok (some m) := by
  obtain ⟨hdecode, hflush⟩ := decodeText_encodeAll hnum messages
  have hcut : cutLines lineFeed (decodeText (encodeUtf8 (encodeAll numText messages))) =
      (messages.map (messageText numText), []) := by
    rw [hdecode, encodeAll_eq]
    refine cutLines_joinLines (fun line hline => ?_) List.not_mem_nil
    obtain ⟨m, -, rfl⟩ := List.mem_map.mp hline
    exact (printable_stringify hnum (.obj m.record)).lineFeed_not_mem
  have hadmits : ∀ m ∈ messages,
      LengthLimit.maxProtocolLineBytes.admits (messageText numText m).length = true := by
    intro m hm
    have hle : ((messageText numText m).length : ℚ) ≤ 1024 := by exact_mod_cast hlength m hm
    exact decide_eq_true hle
  have hlines : completeLines chunks.flatten = messages.map (messageText numText) := by
    rw [hchunks, completeLines, hcut]
  have hlast : lastLine chunks.flatten = [] := by rw [hchunks, lastLine, hcut]
  have hclean : CutsCleanly .maxProtocolLineBytes chunks.flatten := by
    intro raw hraw hlong
    rw [hlines] at hraw
    obtain ⟨m, hm, rfl⟩ := List.mem_map.mp hraw
    have hshort := LengthLimit.not_admits hlong
    rw [hadmits m hm] at hshort
    cases hshort
  have haccepted : ∀ m ∈ messages,
      accepted .maxProtocolLineBytes (messageText numText m) = some (messageText numText m) := by
    intro m hm
    have hpos : 0 < (messageText numText m).length := by
      obtain ⟨fields, hfields⟩ := exists_messageText numText m
      simp [hfields]
    rw [accepted, (trim_messageText numText m).1, if_pos ⟨hadmits m hm, hpos⟩]
  have hexpected : expectedLines .maxProtocolLineBytes chunks.flatten =
      messages.map (messageText numText) := by
    have htail : acceptedTail .maxProtocolLineBytes [] = none := if_neg fun h => by cases h.2
    rw [expectedLines, hlines, hlast, hchunks, hflush, List.append_nil, htail, Option.toList_none,
      ite_self, List.append_nil, List.filterMap_map, ← List.filterMap_eq_map]
    exact List.filterMap_congr haccepted
  rw [(readLines_of_cutsCleanly hclean).1, hexpected, List.map_map]
  exact List.map_congr_left fun m hm => parseLine_messageText (hid m hm) (hparse m hm)

/-- A parser that knows the text of one request. -/
def parseWrite (line : JsString) : Option Json :=
  if line = js "\x7b\"v\":1,\"id\":\"a:1\",\"action\":\"gpio.write\",\"payload\":\x7b\"é\":true\x7d\x7d" then
    some (.obj (ProtocolMessage.request (js "a:1") (js "gpio.write") [(js "é", .bool true)]).record)
  else none

/-- A request that is cut inside a character of two bytes. -/
theorem transport_round_trip_write :
    ((readLines .maxProtocolLineBytes
        [(encodeUtf8 (encodeAll (fun _ => js "1")
            [.request (js "a:1") (js "gpio.write") [(js "é", .bool true)]])).take 53,
          (encodeUtf8 (encodeAll (fun _ => js "1")
            [.request (js "a:1") (js "gpio.write") [(js "é", .bool true)]])).drop 53]).yielded.map
        (parseLine (fun _ => js "1") parseWrite)) =
      [.ok (some (.request (js "a:1") (js "gpio.write") [(js "é", .bool true)]))] := by
  refine transport_round_trip (fun _ => js "1") ?_ parseWrite
    [.request (js "a:1") (js "gpio.write") [(js "é", .bool true)]] ?_ ?_ ?_ _ ?_
  · intro q
    show ∀ u ∈ js "1", IsAscii u
    decide
  · intro m hm
    obtain rfl := List.mem_singleton.mp hm
    exact if_pos (by decide +kernel)
  · intro m hm id hid
    obtain rfl := List.mem_singleton.mp hm
    obtain rfl := Option.some.inj hid
    decide
  · intro m hm
    obtain rfl := List.mem_singleton.mp hm
    decide +kernel
  · rw [List.flatten_cons, List.flatten_cons, List.flatten_nil, List.append_nil, List.take_append_drop]

end Pinout.Protocol
