import Pinout.Protocol.LineReader
import Mathlib.Data.List.Induction

/-! # Framing and the cut of the stream

What `readLines` yields and drops is compared with what the text of the whole stream says: the complete
lines of the text are yielded when what is left of them without a trailing carriage return is within the
limit (`accepted`). An unfinished line, though, is measured with the carriage return in it. So a line is
dropped or not depending on the cut of the stream exactly when it is too long with its carriage return
and not too long without it; the stream is framed independently of its cut when there is no such line
(`chunkIndependent_iff`). -/

namespace Pinout.Protocol

open Foundation

variable {limit : LengthLimit} {r : LineReader} {lines : List JsString} {tail : JsString}

/-! ## What is yielded and dropped -/

def accepted (limit : LengthLimit) (raw : JsString) : Option JsString :=
  if limit.admits (stripCarriageReturn raw).length = true ∧ 0 < (stripCarriageReturn raw).length then
    some (stripCarriageReturn raw)
  else none

/-- What the text after the last line feed is yielded as. -/
def acceptedTail (limit : LengthLimit) (tail : JsString) : Option JsString :=
  if limit.admits (trim (stripCarriageReturn tail)).length = true ∧
      0 < (trim (stripCarriageReturn tail)).length then
    some (trim (stripCarriageReturn tail))
  else none

def decodeText (bytes : List UInt8) : JsString := (({} : TextDecoder).decode bytes).2

/-- The text an unfinished code point at the end of the stream adds. -/
def flushText (bytes : List UInt8) : JsString := (({} : TextDecoder).decode bytes).1.flush

def completeLines (bytes : List UInt8) : List JsString := (cutLines lineFeed (decodeText bytes)).1

/-- The text of a stream after its last line feed. -/
def lastLine (bytes : List UInt8) : JsString := (cutLines lineFeed (decodeText bytes)).2

theorem not_mem_lastLine (bytes : List UInt8) : lineFeed ∉ lastLine bytes :=
  (not_mem_cutLines lineFeed (decodeText bytes)).2

def expectedLines (limit : LengthLimit) (bytes : List UInt8) : List JsString :=
  (completeLines bytes).filterMap (accepted limit) ++
    if limit.exceededBy (lastLine bytes).length then []
    else (acceptedTail limit (lastLine bytes ++ flushText bytes)).toList

/-- The lines a stream is expected to drop as oversized. -/
def ExpectedDrop (limit : LengthLimit) (bytes : List UInt8) (n : Nat) : Prop :=
  (∃ raw, (completeLines bytes)[n]? = some raw ∧
    limit.exceededBy (stripCarriageReturn raw).length = true) ∨
  (n = (completeLines bytes).length ∧ (limit.exceededBy (lastLine bytes).length = true ∨
    limit.exceededBy (trim (stripCarriageReturn (lastLine bytes ++ flushText bytes))).length = true))

/-- The reader has treated these complete lines as expected; of the current one it is known whether it
is being discarded. -/
structure Agrees (limit : LengthLimit) (r : LineReader) (lines : List JsString) : Prop where
  lineNumber : r.lineNumber = lines.length
  yielded : r.yielded = lines.filterMap (accepted limit)
  dropped : ∀ n, n ∈ r.droppedLines ↔
    (∃ raw, lines[n]? = some raw ∧ limit.exceededBy (stripCarriageReturn raw).length = true) ∨
      (n = lines.length ∧ r.discardingOversizeLine = true)

/-- The reader stands after these complete lines and this text of the current one. -/
structure Synced (limit : LengthLimit) (r : LineReader) (lines : List JsString) (tail : JsString) :
    Prop extends Agrees limit r lines where
  /-- A line that is kept is in the buffer; it is not too long, unless everything is. -/
  kept : r.discardingOversizeLine = false → r.buffer = tail ∧
    (limit.exceededBy tail.length = true → ∀ n, limit.exceededBy n = true)
  discarded : r.discardingOversizeLine = true → limit.exceededBy tail.length = true
  unfinished : lineFeed ∉ r.buffer
  short : r.buffer.length ≤ tail.length

/-! ## One line -/

theorem mem_droppedLines_offer {line : JsString} {n : Nat} :
    n ∈ (r.offer limit line).droppedLines ↔
      n ∈ r.droppedLines ∨ (n = r.lineNumber ∧ limit.exceededBy line.length = true) := by
  unfold LineReader.offer LineReader.droppedLines
  split
  · next h =>
    have hnot : limit.exceededBy line.length = false := by
      cases hexceeds : limit.exceededBy line.length with
      | false => rfl
      | true => rw [LengthLimit.not_admits hexceeds] at h; cases h.2.1
    simp [hnot]
  · split
    · next hexceeds => simp [hexceeds]
    · next hexceeds => simp [hexceeds]

theorem yielded_offer {line : JsString} (h : r.discardingOversizeLine = false) :
    (r.offer limit line).yielded =
      r.yielded ++ (if limit.admits line.length = true ∧ 0 < line.length then [line] else []) := by
  unfold LineReader.offer
  by_cases hadmits : limit.admits line.length = true ∧ 0 < line.length
  · rw [if_pos ⟨h, hadmits⟩, if_pos hadmits]
  · rw [if_neg (fun hall => hadmits hall.2), if_neg hadmits, List.append_nil]
    split <;> rfl

theorem yielded_offer_of_discarding {line : JsString} (h : r.discardingOversizeLine = true) :
    (r.offer limit line).yielded = r.yielded := by
  unfold LineReader.offer
  rw [if_neg (fun hall => by rw [h] at hall; cases hall.1)]
  split <;> rfl

/-- The end of a line: `seen` is what the reader has of it, `raw` all of it. -/
theorem Agrees.endLine (h : Agrees limit r lines) {seen raw : JsString}
    (hkept : r.discardingOversizeLine = false → seen = raw)
    (hdiscarded : r.discardingOversizeLine = true →
      limit.exceededBy (stripCarriageReturn raw).length = true) :
    Agrees limit (r.endLine limit seen) (lines ++ [raw]) where
  lineNumber := by
    show r.lineNumber + 1 = _
    rw [h.lineNumber, List.length_append, List.length_singleton]
  yielded := by
    show (r.offer limit (stripCarriageReturn seen)).yielded = _
    rw [List.filterMap_append, ← h.yielded]
    cases hmode : r.discardingOversizeLine with
    | false =>
      rw [yielded_offer hmode, hkept hmode, List.filterMap_cons, List.filterMap_nil, accepted]
      split <;> rfl
    | true =>
      have hnone : accepted limit raw = none := by
        refine if_neg fun hadmits => ?_
        rw [LengthLimit.not_admits (hdiscarded hmode)] at hadmits
        cases hadmits.1
      rw [yielded_offer_of_discarding hmode, List.filterMap_cons, List.filterMap_nil, hnone]
      exact (List.append_nil _).symm
  dropped n := by
    have hlast : (n = lines.length ∧ limit.exceededBy (stripCarriageReturn seen).length = true) ∨
        (n = lines.length ∧ r.discardingOversizeLine = true) ↔
        n = lines.length ∧ limit.exceededBy (stripCarriageReturn raw).length = true := by
      cases hmode : r.discardingOversizeLine with
      | false => simp [hkept hmode]
      | true =>
        rw [hdiscarded hmode]
        exact ⟨fun hn => ⟨hn.elim And.left And.left, rfl⟩, fun hn => Or.inr hn⟩
    have hraw : (∃ w, (lines ++ [raw])[n]? = some w ∧
          limit.exceededBy (stripCarriageReturn w).length = true) ↔
        (∃ w, lines[n]? = some w ∧ limit.exceededBy (stripCarriageReturn w).length = true) ∨
          (n = lines.length ∧ limit.exceededBy (stripCarriageReturn raw).length = true) := by
      rcases lt_trichotomy n lines.length with hn | rfl | hn
      · rw [List.getElem?_append_left hn]
        simp [hn.ne]
      · simp
      · have hnone : (lines ++ [raw])[n]? = none := by
          rw [List.getElem?_eq_none_iff, List.length_append, List.length_singleton]
          exact hn
        have hnone' : lines[n]? = none := List.getElem?_eq_none_iff.mpr hn.le
        simp [hnone, hnone', hn.ne']
    show n ∈ (r.offer limit (stripCarriageReturn seen)).droppedLines ↔ _
    rw [mem_droppedLines_offer, h.dropped, h.lineNumber, hraw, ← hlast]
    show _ ↔ _ ∨ (_ ∧ false = true)
    simp only [Bool.false_eq_true, and_false, or_false, or_assoc]
    exact or_congr_right or_comm

theorem Agrees.foldl_endLine (h : Agrees limit r lines) (hmode : r.discardingOversizeLine = false)
    (ls : List JsString) :
    Agrees limit (ls.foldl (LineReader.endLine limit) r) (lines ++ ls) ∧
      (ls.foldl (LineReader.endLine limit) r).discardingOversizeLine = false := by
  induction ls generalizing r lines with
  | nil => exact ⟨by simpa using h, hmode⟩
  | cons l ls ih =>
    have hl : Agrees limit (r.endLine limit l) (lines ++ [l]) := by
      refine h.endLine (fun _ => rfl) fun hmode' => ?_
      rw [hmode] at hmode'
      cases hmode'
    have hrest := ih hl rfl
    rwa [List.append_assoc] at hrest

/-! ## One chunk -/

/-- What is left of a chunk: `seen` is what the reader has of the current line, `tail` all of it. -/
theorem Agrees.keepTail (h : Agrees limit r lines) {seen : JsString}
    (hkept : r.discardingOversizeLine = false → seen = tail)
    (hdiscarded : r.discardingOversizeLine = true → limit.exceededBy tail.length = true)
    (hseen : lineFeed ∉ seen) (hle : seen.length ≤ tail.length) :
    Synced limit (r.keepTail limit seen) lines tail := by
  unfold LineReader.keepTail
  split
  · next hexceeds =>
    refine ⟨⟨h.lineNumber, h.yielded, fun n => ?_⟩, nofun,
      fun _ => LengthLimit.exceededBy_mono hexceeds hle, List.not_mem_nil, Nat.zero_le _⟩
    have hold := h.dropped n
    unfold LineReader.droppedLines at hold ⊢
    rw [List.map_append, List.mem_append, hold, h.lineNumber]
    simp only [List.map_cons, List.map_nil, List.mem_singleton, and_true]
    constructor
    · rintro ((hraw | ⟨hn, -⟩) | hn)
      · exact Or.inl hraw
      · exact Or.inr hn
      · exact Or.inr hn
    · rintro (hraw | hn)
      · exact Or.inl (Or.inl hraw)
      · exact Or.inr hn
  · next hexceeds =>
    refine ⟨⟨h.lineNumber, h.yielded, h.dropped⟩, fun hmode => ⟨hkept hmode, fun htail => ?_⟩,
      hdiscarded, hseen, hle⟩
    rw [hkept hmode] at hexceeds
    exact absurd htail hexceeds

/-- The text of a chunk. Of a line that is being discarded and ends in the chunk, it must be known that
it is too long without its carriage return, too. -/
theorem Synced.text (h : Synced limit r lines tail) (htail : lineFeed ∉ tail) (t : JsString)
    (hends : r.discardingOversizeLine = true → ∀ raw,
      (cutLines lineFeed (tail ++ t)).1.head? = some raw →
      limit.exceededBy (stripCarriageReturn raw).length = true) :
    Synced limit (r.text limit t) (lines ++ (cutLines lineFeed (tail ++ t)).1)
      (cutLines lineFeed (tail ++ t)).2 := by
  have hreader := cutLines_append_of_not_mem h.unfinished t
  have hwhole := cutLines_append_of_not_mem htail t
  unfold LineReader.text
  cases hcut : (cutLines lineFeed t).1 with
  | nil =>
    -- No line ends: the text goes to the buffer.
    rw [hcut] at hreader hwhole
    rw [hreader, hwhole, List.append_nil]
    refine h.toAgrees.keepTail (fun hmode => ?_) (fun hmode => ?_) ?_ ?_
    · exact congrArg (· ++ (cutLines lineFeed t).2) (h.kept hmode).1
    · exact LengthLimit.exceededBy_mono (h.discarded hmode) (by simp)
    · rw [List.mem_append, not_or]
      exact ⟨h.unfinished, (not_mem_cutLines lineFeed t).2⟩
    · rw [List.length_append, List.length_append]
      exact Nat.add_le_add_right h.short _
  | cons l ls =>
    -- The first line ends the current one; the others come complete.
    rw [hcut] at hreader hwhole
    rw [hwhole] at hends ⊢
    rw [hreader, List.foldl_cons]
    have hfirst : Agrees limit (r.endLine limit (r.buffer ++ l)) (lines ++ [tail ++ l]) :=
      h.toAgrees.endLine (fun hmode => congrArg (· ++ l) (h.kept hmode).1)
        fun hmode => hends hmode _ rfl
    obtain ⟨hlines, hmode⟩ := hfirst.foldl_endLine rfl ls
    rw [List.append_assoc] at hlines
    refine hlines.keepTail (fun _ => rfl) (fun hmode' => ?_) (not_mem_cutLines lineFeed t).2 le_rfl
    rw [hmode] at hmode'
    cases hmode'

/-! ## The whole stream -/

/-- A stream without a line that is too long only with its carriage return. -/
def CutsCleanly (limit : LengthLimit) (bytes : List UInt8) : Prop :=
  ∀ raw ∈ completeLines bytes, limit.exceededBy raw.length = true →
    limit.admits (stripCarriageReturn raw).length = false

theorem Synced.start (limit : LengthLimit) : Synced limit {} [] [] where
  lineNumber := rfl
  yielded := rfl
  dropped n := by simp [LineReader.droppedLines]
  kept _ := ⟨rfl, fun h n => LengthLimit.exceededBy_mono h (Nat.zero_le n)⟩
  discarded h := by cases h
  unfinished := List.not_mem_nil
  short := le_rfl

theorem Synced.chunk {bytes : List UInt8}
    (h : Synced limit r (completeLines bytes) (lastLine bytes))
    (hdecoder : r.decoder = (({} : TextDecoder).decode bytes).1) (chunk : List UInt8)
    (hends : r.discardingOversizeLine = true → ∀ raw,
      (cutLines lineFeed (lastLine bytes ++ (r.decoder.decode chunk).2)).1.head? = some raw →
      limit.exceededBy (stripCarriageReturn raw).length = true) :
    Synced limit (r.chunk limit chunk) (completeLines (bytes ++ chunk)) (lastLine (bytes ++ chunk)) ∧
      (r.chunk limit chunk).decoder = (({} : TextDecoder).decode (bytes ++ chunk)).1 := by
  have hdecode := TextDecoder.decode_append {} bytes chunk
  have htext : decodeText (bytes ++ chunk) = decodeText bytes ++ (r.decoder.decode chunk).2 := by
    rw [decodeText, hdecode, hdecoder]
    rfl
  have hsynced := h.text (not_mem_lastLine bytes) (r.decoder.decode chunk).2 hends
  refine ⟨?_, ?_⟩
  · rw [completeLines, lastLine, htext, cutLines_append]
    exact ⟨⟨hsynced.lineNumber, hsynced.yielded, hsynced.dropped⟩, hsynced.kept, hsynced.discarded,
      hsynced.unfinished, hsynced.short⟩
  · show (r.decoder.decode chunk).1 = _
    rw [hdecode, hdecoder]

/-- The lines of the first part of a stream are the first lines of the stream. -/
theorem completeLines_append (as bs : List UInt8) :
    ∃ more, completeLines (as ++ bs) = completeLines as ++ more ∧
      more = (cutLines lineFeed (lastLine as ++ ((({} : TextDecoder).decode as).1.decode bs).2)).1 := by
  refine ⟨_, ?_, rfl⟩
  rw [completeLines, decodeText, TextDecoder.decode_append, cutLines_append]
  rfl

/-- However a clean stream is cut, the reader stays in step with it. -/
theorem synced_of_cutsCleanly (chunks : List (List UInt8)) (hclean : CutsCleanly limit chunks.flatten) :
    Synced limit (chunks.foldl (LineReader.chunk limit) {}) (completeLines chunks.flatten)
        (lastLine chunks.flatten) ∧
      (chunks.foldl (LineReader.chunk limit) {}).decoder =
        (({} : TextDecoder).decode chunks.flatten).1 := by
  induction chunks using List.reverseRecOn with
  | nil => exact ⟨Synced.start limit, rfl⟩
  | append_singleton chunks chunk ih =>
    have hflatten : (chunks ++ [chunk]).flatten = chunks.flatten ++ chunk := by simp
    rw [hflatten] at hclean ⊢
    obtain ⟨more, hlines, hmore⟩ := completeLines_append chunks.flatten chunk
    obtain ⟨hsynced, hdecoder⟩ := ih fun raw hraw => hclean raw (by
      rw [hlines]
      exact List.mem_append_left more hraw)
    rw [List.foldl_append, List.foldl_cons, List.foldl_nil]
    refine hsynced.chunk hdecoder chunk fun hmode raw hraw => ?_
    -- The line that is being discarded is too long, and clean.
    rw [hdecoder, ← hmore] at hraw
    have hmem : raw ∈ completeLines (chunks.flatten ++ chunk) := by
      rw [hlines]
      exact List.mem_append_right _ (List.mem_of_mem_head? hraw)
    have htail := hsynced.discarded hmode
    have hlong : limit.exceededBy raw.length = true := by
      refine LengthLimit.exceededBy_mono htail ?_
      rw [hmore, cutLines_append_of_not_mem (not_mem_lastLine chunks.flatten)] at hraw
      split at hraw
      · cases hraw
      · obtain rfl := Option.some.inj hraw
        simp
    exact LengthLimit.exceededBy_of_not_admits hlong (hclean raw hmem hlong)

theorem Synced.finish {bytes : List UInt8}
    (h : Synced limit r (completeLines bytes) (lastLine bytes))
    (hdecoder : r.decoder = (({} : TextDecoder).decode bytes).1) :
    (r.finish limit).yielded = expectedLines limit bytes ∧
      ∀ n, n ∈ (r.finish limit).droppedLines ↔ ExpectedDrop limit bytes n := by
  have hflush : r.decoder.flush = flushText bytes := by rw [hdecoder]; rfl
  unfold LineReader.finish expectedLines ExpectedDrop
  simp only [mem_droppedLines_offer, h.dropped, h.lineNumber, or_assoc]
  rw [hflush, ← h.yielded]
  cases hmode : r.discardingOversizeLine with
  | true =>
    have hlong := h.discarded hmode
    rw [yielded_offer_of_discarding hmode, if_pos hlong, List.append_nil]
    refine ⟨rfl, fun n => or_congr_right ?_⟩
    simp only [hlong, and_true, true_or]
    exact ⟨fun hn => hn.elim id And.left, Or.inl⟩
  | false =>
    obtain ⟨hbuffer, hall⟩ := h.kept hmode
    rw [yielded_offer hmode, hbuffer]
    refine ⟨congrArg (r.yielded ++ ·) ?_, fun n => or_congr_right ?_⟩
    · split
      · next hadmits =>
        rw [if_neg, acceptedTail, if_pos hadmits]
        · rfl
        · intro hlong
          rw [LengthLimit.not_admits (hall hlong _)] at hadmits
          cases hadmits.1
      · next hnot =>
        rw [acceptedTail, if_neg hnot]
        split <;> rfl
    · simp only [Bool.false_eq_true, and_false, false_or]
      refine and_congr_right fun _ => ⟨Or.inr, ?_⟩
      rintro (hlong | hlong)
      · exact hall hlong _
      · exact hlong

/-- **A clean stream is framed as expected**, however it is cut. -/
theorem readLines_of_cutsCleanly {chunks : List (List UInt8)}
    (hclean : CutsCleanly limit chunks.flatten) :
    (readLines limit chunks).yielded = expectedLines limit chunks.flatten ∧
      ∀ n, n ∈ (readLines limit chunks).droppedLines ↔ ExpectedDrop limit chunks.flatten n := by
  obtain ⟨hsynced, hdecoder⟩ := synced_of_cutsCleanly chunks hclean
  exact hsynced.finish hdecoder

/-! ## The cut between carriage return and line feed -/

theorem eq_nil_of_codePointUnits {n : Nat} {x y : JsString}
    (h : codePointUnits n = x ++ carriageReturn :: y) : y = [] := by
  unfold codePointUnits at h
  split at h
  · cases x with
    | nil => exact (List.cons.inj h).2.symm
    | cons u x => cases x <;> cases (List.cons.inj h).2
  · split at h
    · -- Neither unit of a surrogate pair is a carriage return.
      have hlead : (0xD800 + (n - 0x10000) / 0x400).toUInt16 ≠ carriageReturn := by
        intro heq
        have hnat := congrArg UInt16.toNat heq
        rw [toNat_toUInt16 (by omega)] at hnat
        have : (carriageReturn : UInt16).toNat = 13 := rfl
        omega
      have htrail : (0xDC00 + (n - 0x10000) % 0x400).toUInt16 ≠ carriageReturn := by
        intro heq
        have hnat := congrArg UInt16.toNat heq
        rw [toNat_toUInt16 (by omega)] at hnat
        have : (carriageReturn : UInt16).toNat = 13 := rfl
        omega
      cases x with
      | nil => exact absurd (List.cons.inj h).1 hlead
      | cons u x =>
        cases x with
        | nil => exact absurd (List.cons.inj (List.cons.inj h).2).1 htrail
        | cons v x => cases x <;> cases (List.cons.inj (List.cons.inj h).2).2
    · cases x with
      | nil => cases (List.cons.inj h).1
      | cons u x => cases x <;> cases (List.cons.inj h).2

/-- One byte completes at most one code point, after a replacement for what it cut off. -/
theorem next_snd (s : Utf8State) (byte : Nat) :
    (s.next byte).2 = [] ∨ ∃ n, (s.next byte).2 = [n] ∨ (s.next byte).2 = [replacementCharacter, n] := by
  have hlead : (Utf8State.lead byte).2 = [] ∨ ∃ n, (Utf8State.lead byte).2 = [n] := by
    unfold Utf8State.lead
    split
    · exact Or.inr ⟨byte, rfl⟩
    · split
      · exact Or.inl rfl
      · split
        · exact Or.inl rfl
        · split
          · exact Or.inl rfl
          · exact Or.inr ⟨replacementCharacter, rfl⟩
  unfold Utf8State.next
  split
  · rcases hlead with hnil | ⟨n, hn⟩
    · exact Or.inl hnil
    · exact Or.inr ⟨n, Or.inl hn⟩
  · split
    · rcases hlead with hnil | ⟨n, hn⟩
      · exact Or.inr ⟨replacementCharacter, Or.inl (congrArg _ hnil)⟩
      · exact Or.inr ⟨n, Or.inr (congrArg _ hn)⟩
    · split
      · exact Or.inr ⟨_, Or.inl rfl⟩
      · exact Or.inl rfl

theorem eq_nil_of_byte {d : TextDecoder} {b : UInt8} {x y : JsString}
    (h : (d.byte b).2 = x ++ carriageReturn :: y) : y = [] := by
  unfold TextDecoder.byte at h
  rcases next_snd d.state b.toNat with hnil | ⟨n, hone | htwo⟩
  · rw [hnil] at h
    cases x <;> cases h
  · simp only [hone, TextDecoder.serialize] at h
    split at h
    · cases x <;> cases h
    · rw [List.flatMap_singleton] at h
      exact eq_nil_of_codePointUnits h
  · have hno : ¬ (d.bomSeen = false ∧ replacementCharacter = byteOrderMark) := fun hbom => by
      cases hbom.2
    simp only [htwo, TextDecoder.serialize, if_neg hno] at h
    have hunits : [replacementCharacter, n].flatMap codePointUnits = 0xFFFD :: codePointUnits n := by
      simp [List.flatMap_cons, codePointUnits, replacementCharacter]
    rw [hunits] at h
    cases x with
    | nil => cases (List.cons.inj h).1
    | cons u x => exact eq_nil_of_codePointUnits (List.cons.inj h).2

theorem exists_decode_eq {d : TextDecoder} {bytes : List UInt8} {x y : JsString}
    (h : (d.decode bytes).2 = x ++ carriageReturn :: y) :
    ∃ as bs, bytes = as ++ bs ∧ (d.decode as).2 = x ++ [carriageReturn] := by
  induction bytes generalizing d x with
  | nil => cases x <;> cases h
  | cons b bytes ih =>
    rw [TextDecoder.decode] at h
    have hlater : ∀ x', x = (d.byte b).2 ++ x' →
        ((d.byte b).1.decode bytes).2 = x' ++ carriageReturn :: y →
        ∃ as bs, b :: bytes = as ++ bs ∧ (d.decode as).2 = x ++ [carriageReturn] := by
      rintro x' rfl hrest
      obtain ⟨as, bs, rfl, has⟩ := ih hrest
      refine ⟨b :: as, bs, rfl, ?_⟩
      rw [TextDecoder.decode, has, List.append_assoc]
    rcases List.append_eq_append_iff.mp h with ⟨x', hx, hrest⟩ | ⟨z, hout, hz⟩
    · exact hlater x' hx hrest
    · cases z with
      | nil => exact hlater [] (by simpa using hout.symm) (by simpa using hz.symm)
      | cons u z =>
        obtain ⟨rfl, -⟩ := List.cons.inj hz
        obtain rfl := eq_nil_of_byte hout
        exact ⟨[b], bytes, rfl, by rw [TextDecoder.decode, TextDecoder.decode, List.append_nil, hout]⟩

theorem mem_droppedLines_chunk {n : Nat} (hn : n ∈ r.droppedLines) (bytes : List UInt8) :
    n ∈ (r.chunk limit bytes).droppedLines := by
  have hlines : ∀ (ls : List JsString) (s : LineReader), n ∈ s.droppedLines →
      n ∈ (ls.foldl (LineReader.endLine limit) s).droppedLines := by
    intro ls
    induction ls with
    | nil => exact fun _ hs => hs
    | cons l ls ih => exact fun s hs => ih _ (mem_droppedLines_offer.mpr (Or.inl hs))
  have htail : ∀ (s : LineReader) (seen : JsString), n ∈ s.droppedLines →
      n ∈ (s.keepTail limit seen).droppedLines := by
    intro s seen hs
    unfold LineReader.keepTail
    split
    · show n ∈ (s.oversized ++ _).map Prod.fst
      rw [List.map_append]
      exact List.mem_append_left _ hs
    · exact hs
  exact htail _ _ (hlines _ _ hn)

theorem exists_concat_of_stripCarriageReturn {raw : JsString}
    (h : (stripCarriageReturn raw).length ≠ raw.length) : ∃ s, raw = s ++ [carriageReturn] := by
  unfold stripCarriageReturn at h
  split at h
  · next hlast =>
    obtain ⟨s, hs⟩ := List.getLast?_eq_some_iff.mp hlast
    exact ⟨s, hs⟩
  · exact absurd rfl h

/-- **Framing does not depend on the cut**: the lines yielded and the lines dropped as oversized are
the same for any two ways to cut the stream into chunks. -/
def ChunkIndependent (limit : LengthLimit) (bytes : List UInt8) : Prop :=
  ∀ chunks chunks' : List (List UInt8), chunks.flatten = bytes → chunks'.flatten = bytes →
    (readLines limit chunks).yielded = (readLines limit chunks').yielded ∧
    ∀ n, n ∈ (readLines limit chunks).droppedLines ↔ n ∈ (readLines limit chunks').droppedLines

/-- A line that is too long only with its carriage return is kept when it comes in one chunk, and
dropped when the chunk ends before its line feed. -/
theorem not_chunkIndependent {bytes : List UInt8} (h : ¬ CutsCleanly limit bytes) :
    ¬ ChunkIndependent limit bytes := by
  simp only [CutsCleanly, not_forall, Bool.not_eq_false] at h
  obtain ⟨raw, hraw, hlong, hshort⟩ := h
  have hnotlong : limit.exceededBy (stripCarriageReturn raw).length = false := by
    by_contra hnot
    rw [LengthLimit.not_admits (Bool.not_eq_false _ ▸ hnot)] at hshort
    cases hshort
  obtain ⟨n, hn⟩ := List.mem_iff_getElem?.mp hraw
  have hlt : n < (completeLines bytes).length := (List.getElem?_eq_some_iff.mp hn).1
  intro hindependent
  have hstart : Synced limit {} (completeLines []) (lastLine []) := Synced.start limit
  -- In one chunk the line is kept.
  have hwhole : n ∉ (readLines limit [bytes]).droppedLines := by
    obtain ⟨hsynced, hdecoder⟩ := hstart.chunk rfl bytes nofun
    have hfinish := (hsynced.finish hdecoder).2 n
    intro hmem
    rcases hfinish.mp hmem with ⟨raw', hraw', hlong'⟩ | ⟨heq, -⟩
    · obtain rfl := Option.some.inj (hn.symm.trans hraw')
      rw [hnotlong] at hlong'
      cases hlong'
    · exact hlt.ne heq
  -- Cut before its line feed, it is dropped.
  obtain ⟨s, hs⟩ : ∃ s, raw = s ++ [carriageReturn] := by
    refine exists_concat_of_stripCarriageReturn fun heq => ?_
    rw [heq, hlong] at hnotlong
    cases hnotlong
  obtain ⟨before, after, htext, hcut⟩ := exists_eq_of_getElem?_cutLines hn
  obtain ⟨as, bs, hbytes, has⟩ : ∃ as bs, bytes = as ++ bs ∧
      (({} : TextDecoder).decode as).2 = (before ++ s) ++ [carriageReturn] := by
    refine exists_decode_eq (y := lineFeed :: after) ?_
    show decodeText bytes = _
    rw [htext, hs]
    simp
  have htext' : decodeText as = before ++ raw := by
    rw [decodeText, has, hs, List.append_assoc]
  have hsplit : n ∈ (readLines limit [as, bs]).droppedLines := by
    obtain ⟨hsynced, -⟩ := hstart.chunk rfl as nofun
    rw [List.nil_append, completeLines, lastLine, htext', hcut] at hsynced
    have hdiscarding : (({} : LineReader).chunk limit as).discardingOversizeLine = true := by
      by_contra hmode
      have hall := (hsynced.kept (Bool.not_eq_true _ ▸ hmode)).2 hlong
      rw [hall] at hnotlong
      cases hnotlong
    have hdropped : n ∈ (({} : LineReader).chunk limit as).droppedLines := by
      refine (hsynced.dropped n).mpr (Or.inr ⟨?_, hdiscarding⟩)
      rw [List.length_take]
      exact (min_eq_left hlt.le).symm
    exact mem_droppedLines_offer.mpr (Or.inl (mem_droppedLines_chunk hdropped bs))
  exact hwhole (((hindependent [bytes] [as, bs] (by simp) (by simp [hbytes])).2 n).mpr hsplit)

/-- **When framing does not depend on the cut.** For every byte sequence and every limit: exactly when
no line of the stream that ends in a line feed is longer than the limit with its carriage return and
within the limit without it. -/
theorem chunkIndependent_iff (limit : LengthLimit) (bytes : List UInt8) :
    ChunkIndependent limit bytes ↔ CutsCleanly limit bytes := by
  refine ⟨fun h => ?_, ?_⟩
  · by_contra hnot
    exact not_chunkIndependent hnot h
  · rintro hclean chunks chunks' hchunks hchunks'
    subst hchunks
    obtain ⟨hyield, hdrop⟩ := readLines_of_cutsCleanly hclean
    rw [← hchunks'] at hclean
    obtain ⟨hyield', hdrop'⟩ := readLines_of_cutsCleanly hclean
    rw [hchunks'] at hyield' hdrop'
    exact ⟨hyield.trans hyield'.symm, fun n => (hdrop n).trans (hdrop' n).symm⟩

/-- **A cut between carriage return and line feed.** With a limit of two, the line `ab` is yielded when
it comes in one chunk with its carriage return and line feed, and dropped when the line feed comes in a
chunk of its own. -/
theorem not_chunkIndependent_crlf :
    (readLines (.finite 2) [[97, 98, 13, 10]]).yielded = [js "ab"] ∧
      (readLines (.finite 2) [[97, 98, 13], [10]]).yielded = [] ∧
      ¬ ChunkIndependent (.finite 2) [97, 98, 13, 10] := by
  have hwhole : (readLines (.finite 2) [[97, 98, 13, 10]]).yielded = [js "ab"] := by decide +kernel
  have hsplit : (readLines (.finite 2) [[97, 98, 13], [10]]).yielded = [] := by decide +kernel
  refine ⟨hwhole, hsplit, fun hindependent => ?_⟩
  have heq := (hindependent [[97, 98, 13, 10]] [[97, 98, 13], [10]] rfl rfl).1
  rw [hwhole, hsplit] at heq
  cases heq

end Pinout.Protocol
