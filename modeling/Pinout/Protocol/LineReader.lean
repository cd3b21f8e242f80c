import Pinout.Foundation.Lines
import Pinout.Foundation.Utf8
import Mathlib.Algebra.Order.Field.Rat

/-! # The line reader

`readLines` (`packages/core/src/lineReader.ts`) cuts the chunks of a transport into lines. A line that
is longer than the limit is dropped, and reported to `onOversize`; so that it need not be kept in
memory, an unfinished line that is longer than the limit when a chunk ends is reported and forgotten
at once, and `discardingOversizeLine` remembers to drop the rest of it. Lines are numbered, which the
source does not do, to say which of them was reported. -/

namespace Pinout.Protocol

open Foundation

/-! ## Text -/

/-- `'\n'`. -/
def lineFeed : UInt16 := 10

/-- `'\r'`. -/
def carriageReturn : UInt16 := 13

/-- `line.replace(/\r$/, '')`. -/
def stripCarriageReturn (line : JsString) : JsString :=
  if line.getLast? = some carriageReturn then line.dropLast else line

/-- White space and line terminators of the language. -/
def isWhiteSpace (u : UInt16) : Bool :=
  [9, 10, 11, 12, 13, 32, 0xA0, 0x1680, 0x2028, 0x2029, 0x202F, 0x205F, 0x3000, 0xFEFF].contains u ||
    (0x2000 ≤ u.toNat && u.toNat ≤ 0x200A)

/-- `text.trim()`. -/
def trim (text : JsString) : JsString :=
  ((text.dropWhile isWhiteSpace).reverse.dropWhile isWhiteSpace).reverse

theorem trim_eq_self {text : JsString} (hhead : ∀ u ∈ text.head?, isWhiteSpace u = false)
    (hlast : ∀ u ∈ text.getLast?, isWhiteSpace u = false) : trim text = text := by
  have hdrop : ∀ t : JsString, (∀ u ∈ t.head?, isWhiteSpace u = false) → t.dropWhile isWhiteSpace = t := by
    intro t ht
    cases t with
    | nil => rfl
    | cons u t => exact List.dropWhile_cons_of_neg (by simp [ht u rfl])
  rw [trim, hdrop text hhead, hdrop text.reverse (by rwa [List.head?_reverse]), List.reverse_reverse]

def encodeLine (text : JsString) : List UInt8 :=
  encodeUtf8 (if text.getLast? = some lineFeed then text else text ++ [lineFeed])

/-! ## Limits -/

/-- A limit on the length of a line, which may be any number of the language. -/
inductive LengthLimit
  | finite (max : ℚ)
  | infinite
  | negativeInfinite
  | notANumber

namespace LengthLimit

def maxProtocolLineBytes : LengthLimit := .finite 1024

/-- `length <= maxLineBytes`. -/
def admits : LengthLimit → Nat → Bool
  | finite max, length => (length : ℚ) ≤ max
  | infinite, _ => true
  | negativeInfinite, _ => false
  | notANumber, _ => false

/-- `length > maxLineBytes`. -/
def exceededBy : LengthLimit → Nat → Bool
  | finite max, length => max < (length : ℚ)
  | infinite, _ => false
  | negativeInfinite, _ => true
  | notANumber, _ => false

theorem not_admits {limit : LengthLimit} {n : Nat} (h : limit.exceededBy n = true) :
    limit.admits n = false := by
  cases limit with
  | finite max => simpa [admits, exceededBy] using h
  | infinite | notANumber => cases h
  | negativeInfinite => rfl

/-- What is longer than a length that exceeds the limit exceeds it. -/
theorem exceededBy_mono {limit : LengthLimit} {n m : Nat} (h : limit.exceededBy n = true)
    (hle : n ≤ m) : limit.exceededBy m = true := by
  cases limit with
  | finite max =>
    simp only [exceededBy, decide_eq_true_eq] at h ⊢
    exact h.trans_le (Nat.cast_le.mpr hle)
  | infinite | notANumber => cases h
  | negativeInfinite => rfl

theorem exceededBy_of_not_admits {limit : LengthLimit} {n m : Nat}
    (h : limit.exceededBy n = true) (hm : limit.admits m = false) : limit.exceededBy m = true := by
  cases limit with
  | finite max => simpa [admits, exceededBy] using hm
  | infinite | notANumber => cases h
  | negativeInfinite => rfl

end LengthLimit

/-! ## The reader -/

/-- The state of `readLines`, with what it has yielded and reported so far. -/
structure LineReader where
  decoder : TextDecoder := {}
  buffer : JsString := []
  discardingOversizeLine : Bool := false
  lineNumber : Nat := 0
  yielded : List JsString := []
  /-- The calls of `onOversize`: number of the line, and the length it is called with. -/
  oversized : List (Nat × Nat) := []

namespace LineReader

variable (limit : LengthLimit)

def offer (r : LineReader) (line : JsString) : LineReader :=
  if r.discardingOversizeLine = false ∧ limit.admits line.length = true ∧ 0 < line.length then
    { r with yielded := r.yielded ++ [line] }
  else if limit.exceededBy line.length then
    { r with oversized := r.oversized ++ [(r.lineNumber, line.length)] }
  else r

/-- One iteration of the loop over the complete lines of the buffer. -/
def endLine (r : LineReader) (raw : JsString) : LineReader :=
  { r.offer limit (stripCarriageReturn raw) with
    discardingOversizeLine := false
    lineNumber := r.lineNumber + 1 }

/-- What is left in the buffer after the loop: it is kept, unless it is too long. -/
def keepTail (r : LineReader) (tail : JsString) : LineReader :=
  if limit.exceededBy tail.length then
    { r with
      oversized := r.oversized ++ [(r.lineNumber, tail.length)]
      buffer := []
      discardingOversizeLine := true }
  else { r with buffer := tail }

def text (r : LineReader) (t : JsString) : LineReader :=
  ((cutLines lineFeed (r.buffer ++ t)).1.foldl (endLine limit) r).keepTail limit
    (cutLines lineFeed (r.buffer ++ t)).2

def chunk (r : LineReader) (bytes : List UInt8) : LineReader :=
  { r.text limit (r.decoder.decode bytes).2 with decoder := (r.decoder.decode bytes).1 }

def finish (r : LineReader) : LineReader :=
  r.offer limit (trim (stripCarriageReturn (r.buffer ++ r.decoder.flush)))

end LineReader

/-- `readLines`, over a transport that delivers these chunks and ends. -/
def readLines (limit : LengthLimit) (chunks : List (List UInt8)) : LineReader :=
  (chunks.foldl (LineReader.chunk limit) {}).finish limit

/-- The numbers of the lines that were reported as oversized. -/
def LineReader.droppedLines (r : LineReader) : List Nat := r.oversized.map Prod.fst

/-! ## Lines of bytes

A client that keeps the bytes themselves takes its lines off the front of them. -/

/-- `.replace(/[\r\n]+$/, '')`. -/
def stripLineEnd (text : JsString) : JsString :=
  (text.reverse.dropWhile fun u => u = carriageReturn ∨ u = lineFeed).reverse

def lineText (bytes : List UInt8) : JsString :=
  trim (stripLineEnd ((({} : TextDecoder).decode bytes).2 ++ (({} : TextDecoder).decode bytes).1.flush))

/-- The first complete line of a buffer, without its line feed, and what comes after it. -/
def nextLine? : List UInt8 → Option (List UInt8 × List UInt8)
  | [] => none
  | byte :: bytes =>
    if byte = 10 then some ([], bytes)
    else (nextLine? bytes).map fun (line, rest) => (byte :: line, rest)

theorem nextLine?_append {raw : List UInt8} (h : 10 ∉ raw) (rest : List UInt8) :
    nextLine? (raw ++ 10 :: rest) = some (raw, rest) := by
  induction raw with
  | nil => rfl
  | cons byte raw ih =>
    rw [List.mem_cons, not_or] at h
    rw [List.cons_append, nextLine?, if_neg (Ne.symm h.1), ih h.2]
    rfl

theorem eq_of_nextLine? {buffer raw rest : List UInt8} (h : nextLine? buffer = some (raw, rest)) :
    buffer = raw ++ 10 :: rest ∧ 10 ∉ raw := by
  induction buffer generalizing raw with
  | nil => cases h
  | cons byte buffer ih =>
    rw [nextLine?] at h
    split at h
    · next hbyte =>
      obtain ⟨rfl, rfl⟩ := Prod.mk.inj (Option.some.inj h)
      exact ⟨by rw [hbyte]; rfl, List.not_mem_nil⟩
    · next hbyte =>
      obtain ⟨⟨line, rest'⟩, hline, h⟩ := Option.map_eq_some_iff.mp h
      obtain ⟨rfl, rfl⟩ := Prod.mk.inj h
      obtain ⟨rfl, hnot⟩ := ih hline
      exact ⟨rfl, by simp [Ne.symm hbyte, hnot]⟩

/-- **What is read next** from the beginning of a stream of lines is the first of them. -/
theorem eq_cons_of_nextLine? {buffer later raw rest : List UInt8} {lines : List (List UInt8)}
    (hlines : ∀ line ∈ lines, 10 ∉ line) (hstream : buffer ++ later = lines.flatMap (· ++ [10]))
    (hnext : nextLine? buffer = some (raw, rest)) :
    ∃ lines', lines = raw :: lines' ∧ rest ++ later = lines'.flatMap (· ++ [10]) := by
  obtain ⟨hbuffer, hraw⟩ := eq_of_nextLine? hnext
  rw [hbuffer, List.append_assoc] at hstream
  cases lines with
  | nil => simp at hstream
  | cons line lines =>
    rw [List.flatMap_cons, List.append_assoc] at hstream
    have hleft := nextLine?_append hraw (rest ++ later)
    have hright := nextLine?_append (hlines line List.mem_cons_self) (lines.flatMap (· ++ [10]))
    have hsame : some (raw, rest ++ later) = some (line, lines.flatMap (· ++ [10])) := by
      rw [← hleft, ← hright]
      exact congrArg nextLine? hstream
    obtain ⟨rfl, hrest⟩ := Prod.mk.inj (Option.some.inj hsame)
    exact ⟨lines, rfl, hrest⟩

end Pinout.Protocol
