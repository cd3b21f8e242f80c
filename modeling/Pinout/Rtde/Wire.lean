import Pinout.Errors
import Pinout.Foundation.Bytes
import Pinout.Foundation.Packets
import Pinout.Protocol.LineReader

/-! # RTDE on the wire

Real-Time Data Exchange, protocol version 2 (`packages/protocols-ur/src/rtde.ts`): a frame is its
total size as a big-endian 16-bit number, a command byte, and a payload; a data package is the id of
its recipe and the values of the recipe, packed. Only what the controller sends is read here. -/

namespace Pinout.Rtde

open Foundation
open Pinout.Protocol (trim)

/-- `new UrRtdeError(code, message)`. -/
def urRtdeError (code message : JsString) : Thrown :=
  .error (js "UrRtdeError") (some code) message

/-- `new UrRtdeError('UR_RTDE_PROTOCOL_ERROR', message)`. -/
def protocolError (message : JsString) : Thrown := urRtdeError (js "UR_RTDE_PROTOCOL_ERROR") message

namespace RtdeCommand

/-- `RtdeCommand.PROTOCOL_VERSION_REPLY`: `'v'`. -/
def protocolVersionReply : UInt8 := 0x76

/-- `RtdeCommand.SETUP_OUTPUTS`: `'O'`. -/
def setupOutputs : UInt8 := 0x4F

/-- `RtdeCommand.START`: `'S'`. -/
def start : UInt8 := 0x53

/-- `RtdeCommand.PAUSE`: `'P'`. -/
def pause : UInt8 := 0x50

/-- `RtdeCommand.DATA_PACKAGE`: `'U'`. -/
def dataPackage : UInt8 := 0x55

end RtdeCommand

/-! ## Values -/

inductive RtdeValueType
  | bool | uint8 | int32 | uint32 | uint64 | double | vector3d | vector6d | vector6int32
  | vector6uint32
  deriving DecidableEq, Repr

namespace RtdeValueType

def text : RtdeValueType → JsString
  | bool => js "BOOL"
  | uint8 => js "UINT8"
  | int32 => js "INT32"
  | uint32 => js "UINT32"
  | uint64 => js "UINT64"
  | double => js "DOUBLE"
  | vector3d => js "VECTOR3D"
  | vector6d => js "VECTOR6D"
  | vector6int32 => js "VECTOR6INT32"
  | vector6uint32 => js "VECTOR6UINT32"

/-- The keys of `RTDE_VALUE_SIZES`. -/
def all : List RtdeValueType :=
  [bool, uint8, int32, uint32, uint64, double, vector3d, vector6d, vector6int32, vector6uint32]

/-- `RTDE_VALUE_SIZES`. -/
def size : RtdeValueType → Nat
  | bool => 1
  | uint8 => 1
  | int32 => 4
  | uint32 => 4
  | uint64 => 8
  | double => 8
  | vector3d => 24
  | vector6d => 48
  | vector6int32 => 24
  | vector6uint32 => 24

/-- `isRtdeValueType`, with the type that has the name. -/
def ofText? (name : JsString) : Option RtdeValueType := all.find? fun type => type.text = name

@[simp] theorem ofText?_text (type : RtdeValueType) : ofText? type.text = some type := by
  cases type <;> decide

end RtdeValueType

/-- A number of the language: an integer, or the 64 bits of a double. -/
inductive RtdeNumber
  | integer (n : Int)
  | float64 (bits : Nat)
  deriving DecidableEq, Repr

inductive RtdeValue
  | number (n : RtdeNumber)
  | boolean (b : Bool)
  | vector (ns : List RtdeNumber)
  deriving DecidableEq, Repr

/-- The double closest to a number below `2 ^ 64`, the even one of two that are equally close. -/
def closestDouble (n : Nat) : Nat :=
  if n < 2 ^ 53 then n
  else
    let unit := 2 ^ (n.log2 - 52)
    let low := n % unit
    if 2 * low < unit ∨ (2 * low = unit ∧ n / unit % 2 = 0) then n / unit * unit
    else (n / unit + 1) * unit

/-! ## Frames -/

def rtdeHeaderSize : Nat := 3

structure RtdeFrame where
  command : UInt8
  payload : List UInt8
  deriving DecidableEq, Repr

def encodeRtdeFrame (frame : RtdeFrame) : Except Thrown (List UInt8) :=
  let size := rtdeHeaderSize + frame.payload.length
  if size > 0xFFFF then
    .error (protocolError
      (js "RTDE frame of " ++ decimal size ++ js " bytes exceeds the uint16 header size."))
  else .ok (bigEndian 2 size ++ frame.command :: frame.payload)

def decodeRtdeFrame : List UInt8 → Except Thrown RtdeFrame
  | high :: low :: command :: rest =>
    let size := ofBigEndian [high, low]
    if size < rtdeHeaderSize then
      .error (protocolError (js "RTDE frame declares invalid size " ++ decimal size ++ js "."))
    else if rtdeHeaderSize + rest.length < size then
      .error (protocolError
        (js "RTDE frame declares " ++ decimal size ++ js " bytes but only " ++
          decimal (rtdeHeaderSize + rest.length) ++ js " are available."))
    else .ok ⟨command, rest.take (size - rtdeHeaderSize)⟩
  | _ => .error (protocolError (js "RTDE frame shorter than its 3-byte header."))

def tryDecodeRtdeFrame (buffer : List UInt8) : Decoded RtdeFrame Thrown :=
  match buffer with
  | high :: low :: _ :: _ =>
    let size := ofBigEndian [high, low]
    if size < rtdeHeaderSize then
      .failed (protocolError (js "RTDE frame declares invalid size " ++ decimal size ++ js "."))
    else if buffer.length < size then .incomplete
    else match decodeRtdeFrame (buffer.take size) with
      | .ok frame => .packet frame size
      | .error e => .failed e
  | _ => .incomplete

/-- A buffer with a whole header, whose size is not below that of a header, holds a frame exactly when
it is as long as it says. -/
theorem tryDecodeRtdeFrame_header {high low command : UInt8} {rest : List UInt8}
    (hsize : rtdeHeaderSize ≤ ofBigEndian [high, low]) :
    tryDecodeRtdeFrame (high :: low :: command :: rest) =
      if (high :: low :: command :: rest).length < ofBigEndian [high, low] then .incomplete
      else .packet ⟨command, rest.take (ofBigEndian [high, low] - rtdeHeaderSize)⟩
        (ofBigEndian [high, low]) := by
  rw [tryDecodeRtdeFrame, if_neg (Nat.not_lt.mpr hsize)]
  split
  · rfl
  · next hlen =>
    -- the part of the buffer that `decodeRtdeFrame` is given has the same header
    obtain ⟨n, hn⟩ : ∃ n, ofBigEndian [high, low] = n + 3 := ⟨_, (Nat.sub_add_cancel hsize).symm⟩
    have htake : (high :: low :: command :: rest).take (ofBigEndian [high, low]) =
        high :: low :: command :: rest.take n := by rw [hn]; rfl
    have hle : n ≤ rest.length := by
      rw [List.length_cons, List.length_cons, List.length_cons, hn] at hlen
      omega
    have hlength : rtdeHeaderSize + (rest.take n).length = ofBigEndian [high, low] := by
      rw [List.length_take_of_le hle, hn]
      exact Nat.add_comm _ _
    rw [htake, decodeRtdeFrame, if_neg (Nat.not_lt.mpr hsize), if_neg (by omega)]
    rw [hn, show n + 3 - rtdeHeaderSize = n from rfl, List.take_take, Nat.min_self]

/-- A frame that is found has its size in front, and is no longer than the buffer. -/
theorem exists_of_tryDecodeRtdeFrame {buffer : List UInt8} {frame : RtdeFrame} {n : Nat}
    (h : tryDecodeRtdeFrame buffer = .packet frame n) :
    ∃ high low command rest, buffer = high :: low :: command :: rest ∧
      rtdeHeaderSize ≤ ofBigEndian [high, low] ∧ n = ofBigEndian [high, low] ∧
      n ≤ buffer.length ∧ frame = ⟨command, rest.take (n - rtdeHeaderSize)⟩ := by
  match buffer, h with
  | high :: low :: command :: rest, h =>
    by_cases hsize : rtdeHeaderSize ≤ ofBigEndian [high, low]
    · rw [tryDecodeRtdeFrame_header hsize] at h
      split at h
      · cases h
      · next hlen =>
        injection h with hframe hn
        subst hn
        exact ⟨high, low, command, rest, rfl, hsize, rfl, Nat.not_lt.mp hlen, hframe.symm⟩
    · rw [tryDecodeRtdeFrame, if_pos (Nat.not_le.mp hsize)] at h
      cases h

theorem exists_of_tryDecodeRtdeFrame_failed {buffer : List UInt8} {e : Thrown}
    (h : tryDecodeRtdeFrame buffer = .failed e) :
    ∃ high low command rest, buffer = high :: low :: command :: rest ∧
      ofBigEndian [high, low] < rtdeHeaderSize ∧
      e = protocolError
        (js "RTDE frame declares invalid size " ++ decimal (ofBigEndian [high, low]) ++ js ".") := by
  match buffer, h with
  | high :: low :: command :: rest, h =>
    by_cases hsize : rtdeHeaderSize ≤ ofBigEndian [high, low]
    · rw [tryDecodeRtdeFrame_header hsize] at h
      split at h <;> cases h
    · have hlt := Nat.not_le.mp hsize
      rw [tryDecodeRtdeFrame, if_pos hlt] at h
      injection h with he
      exact ⟨high, low, command, rest, rfl, hlt, he.symm⟩

/-- `tryDecodeRtdeFrame` as a packet decoder. -/
def rtdeDecoder : PacketDecoder UInt8 RtdeFrame Thrown where
  decode := tryDecodeRtdeFrame
  decode_nil := rfl
  consumed_pos h := by
    obtain ⟨_, _, _, _, -, hsize, rfl, -, -⟩ := exists_of_tryDecodeRtdeFrame h
    exact Nat.lt_of_lt_of_le (by decide) hsize
  consumed_le h := by
    obtain ⟨_, _, _, _, -, -, -, hle, -⟩ := exists_of_tryDecodeRtdeFrame h
    exact hle
  packet_append m h := by
    obtain ⟨high, low, command, rest, rfl, hsize, rfl, hle, rfl⟩ := exists_of_tryDecodeRtdeFrame h
    rw [List.cons_append, List.cons_append, List.cons_append, tryDecodeRtdeFrame_header hsize]
    simp only [List.length_cons] at hle
    have hrest : ofBigEndian [high, low] - rtdeHeaderSize ≤ rest.length := by
      rw [rtdeHeaderSize]
      omega
    rw [if_neg (by simp only [List.length_cons, List.length_append]; omega),
      List.take_append_of_le_length hrest]
  failed_append m h := by
    obtain ⟨high, low, command, rest, rfl, hsize, rfl⟩ := exists_of_tryDecodeRtdeFrame_failed h
    rw [List.cons_append, List.cons_append, List.cons_append, tryDecodeRtdeFrame, if_pos hsize]

def RtdeFrame.bytes (frame : RtdeFrame) : List UInt8 :=
  bigEndian 2 (rtdeHeaderSize + frame.payload.length) ++ frame.command :: frame.payload

def RtdeFrame.Fits (frame : RtdeFrame) : Prop := rtdeHeaderSize + frame.payload.length ≤ 0xFFFF

instance (frame : RtdeFrame) : Decidable frame.Fits :=
  inferInstanceAs (Decidable (rtdeHeaderSize + frame.payload.length ≤ 0xFFFF))

@[simp] theorem RtdeFrame.length_bytes (frame : RtdeFrame) :
    frame.bytes.length = rtdeHeaderSize + frame.payload.length := by
  rw [bytes, List.length_append, length_bigEndian, List.length_cons, rtdeHeaderSize]
  omega

theorem encodeRtdeFrame_eq_ok {frame : RtdeFrame} (h : frame.Fits) :
    encodeRtdeFrame frame = .ok frame.bytes := if_neg (Nat.not_lt.mpr h)

theorem RtdeFrame.bytes_eq {frame : RtdeFrame} (h : frame.Fits) :
    ∃ high low, frame.bytes = high :: low :: frame.command :: frame.payload ∧
      ofBigEndian [high, low] = rtdeHeaderSize + frame.payload.length := by
  refine ⟨_, _, rfl, ?_⟩
  exact ofBigEndian_bigEndian (k := 2) (Nat.lt_of_le_of_lt h (by decide))

theorem RtdeFrame.recognised {frame : RtdeFrame} (h : frame.Fits) :
    rtdeDecoder.Recognises RtdeFrame.bytes id frame := by
  obtain ⟨high, low, hbytes, hsize⟩ := frame.bytes_eq h
  have hle : rtdeHeaderSize ≤ ofBigEndian [high, low] := hsize ▸ Nat.le_add_right _ _
  have hlength : ofBigEndian [high, low] = frame.bytes.length := by rw [hsize, length_bytes]
  constructor
  · intro m
    show tryDecodeRtdeFrame (frame.bytes ++ m) = .packet frame frame.bytes.length
    rw [← hlength, hbytes, List.cons_append, List.cons_append, List.cons_append,
      tryDecodeRtdeFrame_header hle, if_neg, hsize, Nat.add_sub_cancel_left, List.take_left]
    simp only [List.length_cons, List.length_append, hsize, rtdeHeaderSize]
    omega
  · intro l hl hne
    show tryDecodeRtdeFrame l = .incomplete
    have hlt : l.length < ofBigEndian [high, low] := by
      rw [hlength]
      exact lt_of_le_of_ne hl.length_le fun heq => hne (hl.eq_of_length heq)
    rw [hbytes] at hl
    -- a beginning that is longer than the header has the same header
    match l, hl with
    | [], _ => rfl
    | [_], _ => rfl
    | [_, _], _ => rfl
    | a :: b :: c :: l, hl =>
      obtain ⟨ha, hl⟩ := List.cons_prefix_cons.mp hl
      obtain ⟨hb, -⟩ := List.cons_prefix_cons.mp hl
      rw [← ha, ← hb] at hle hlt
      rw [tryDecodeRtdeFrame_header hle, if_pos hlt]

/-! ## Replies -/

/-- `RtdeSetupOutputsReply`; `none` is `'NOT_FOUND'`. -/
structure RtdeSetupOutputsReply where
  recipeId : UInt8
  types : List (Option RtdeValueType)
  deriving DecidableEq, Repr

/-- `text.split(',')`. -/
def splitComma (text : JsString) : List JsString := text.splitOn 44

/-- The type that a part of a setup reply names. -/
def setupOutputType (part : JsString) : Except Thrown (Option RtdeValueType) :=
  if part = js "NOT_FOUND" then .ok none
  else match RtdeValueType.ofText? part with
    | some type => .ok (some type)
    | none =>
      .error (protocolError
        (js "Setup-outputs reply contains unknown type name '" ++ part ++ js "'."))

def decodeSetupOutputsReply : List UInt8 → Except Thrown RtdeSetupOutputsReply
  | [] => .error (protocolError (js "Setup-outputs reply is empty."))
  | recipeId :: rest =>
    let decoded := ({} : TextDecoder).decode rest
    let parts := (splitComma (decoded.2 ++ decoded.1.flush)).map trim
    match (parts.filter fun part => 0 < part.length).mapM setupOutputType with
    | .ok types => .ok ⟨recipeId, types⟩
    | .error e => .error e

/-! ### A reply as a controller writes it -/

def entryText : Option RtdeValueType → JsString
  | some type => type.text
  | none => js "NOT_FOUND"

/-- `texts.join(',')`. -/
def joinComma (texts : List JsString) : JsString := [44].intercalate texts

/-- A setup reply that assigns a recipe id and answers each output with an entry. -/
def setupReply (recipeId : UInt8) (entries : List (Option RtdeValueType)) : List UInt8 :=
  recipeId :: encodeUtf8 (joinComma (entries.map entryText))

/-- An entry is plain text: no comma, nothing to trim, not empty, all of it ASCII. -/
theorem plain_entryText (entry : Option RtdeValueType) :
    44 ∉ entryText entry ∧ trim (entryText entry) = entryText entry ∧
      0 < (entryText entry).length ∧ ∀ u ∈ entryText entry, u.toNat < 128 := by
  rcases entry with _ | type
  · decide
  · cases type <;> decide

theorem setupOutputType_entryText (entry : Option RtdeValueType) :
    setupOutputType (entryText entry) = .ok entry := by
  rcases entry with _ | type
  · rfl
  · cases type <;> rfl

theorem mem_joinComma {texts : List JsString} {u : UInt16} (h : u ∈ joinComma texts) :
    u = 44 ∨ ∃ text ∈ texts, u ∈ text := by
  induction texts with
  | nil => exact absurd h List.not_mem_nil
  | cons text texts ih =>
    cases texts with
    | nil =>
      rw [joinComma, List.intercalate_singleton] at h
      exact Or.inr ⟨text, List.mem_cons_self, h⟩
    | cons next texts =>
      rw [joinComma, List.intercalate_cons_cons] at h
      rcases List.mem_append.mp h with h | h
      · rcases List.mem_append.mp h with h | h
        · exact Or.inr ⟨text, List.mem_cons_self, h⟩
        · exact Or.inl (List.mem_singleton.mp h)
      · rcases ih h with h | ⟨t, ht, hu⟩
        · exact Or.inl h
        · exact Or.inr ⟨t, List.mem_cons_of_mem text ht, hu⟩

theorem mapM_setupOutputType (entries : List (Option RtdeValueType)) :
    (entries.map entryText).mapM setupOutputType = .ok entries := by
  induction entries with
  | nil => rfl
  | cons entry entries ih =>
    rw [List.map_cons, List.mapM_cons, setupOutputType_entryText, ih]
    rfl

/-- The entries of a reply are split, and none of them is trimmed or left out. -/
theorem split_entries (entries : List (Option RtdeValueType)) :
    ((splitComma (joinComma (entries.map entryText))).map trim).filter (fun part => 0 < part.length) =
      entries.map entryText := by
  by_cases hne : entries.map entryText = []
  · rw [hne]
    rfl
  · have hcomma : ∀ text ∈ entries.map entryText, 44 ∉ text := by
      intro text htext
      obtain ⟨entry, -, rfl⟩ := List.mem_map.mp htext
      exact (plain_entryText entry).1
    have htrim : (entries.map entryText).map trim = entries.map entryText := by
      rw [List.map_map]
      exact List.map_congr_left fun entry _ => (plain_entryText entry).2.1
    rw [splitComma, joinComma, List.splitOn_intercalate 44 hcomma hne, htrim]
    refine List.filter_eq_self.mpr fun text htext => ?_
    obtain ⟨entry, -, rfl⟩ := List.mem_map.mp htext
    exact decide_eq_true (plain_entryText entry).2.2.1

/-- **A setup reply is decoded as it was written.** -/
theorem decodeSetupOutputsReply_setupReply (recipeId : UInt8)
    (entries : List (Option RtdeValueType)) :
    decodeSetupOutputsReply (setupReply recipeId entries) = .ok ⟨recipeId, entries⟩ := by
  have hascii : ∀ u ∈ joinComma (entries.map entryText), u.toNat < 128 := by
    intro u hu
    rcases mem_joinComma hu with rfl | ⟨text, htext, hu⟩
    · decide
    · obtain ⟨entry, -, rfl⟩ := List.mem_map.mp htext
      exact (plain_entryText entry).2.2.2 u hu
  have hwellFormed : WellFormed (joinComma (entries.map entryText)) :=
    wellFormed_of_forall_lt fun u hu => (hascii u hu).trans (by decide)
  have hbom : (joinComma (entries.map entryText)).head? ≠ some 0xFEFF := by
    intro h
    exact absurd (hascii _ (List.mem_of_head? h)) (by decide)
  obtain ⟨htext, hflush⟩ := TextDecoder.decode_encodeUtf8 hwellFormed hbom
  simp only [setupReply, decodeSetupOutputsReply, htext, hflush, List.append_nil, split_entries,
    mapM_setupOutputType]

/-! ## Data packages -/

/-- `view.getUint32(offset)`. -/
def getUint32 (payload : List UInt8) (offset : Nat) : Nat :=
  readBigEndian 4 payload offset

/-- `view.getInt32(offset)`. -/
def getInt32 (payload : List UInt8) (offset : Nat) : Int :=
  (BitVec.ofNat 32 (getUint32 payload offset)).toInt

/-- `view.getFloat64(offset)`. -/
def getFloat64 (payload : List UInt8) (offset : Nat) : Nat :=
  readBigEndian 8 payload offset

/-- The value of a type at an offset, and the offset behind it. -/
def readValue (payload : List UInt8) (offset : Nat) : RtdeValueType → RtdeValue × Nat
  | .bool => (.boolean (payload[offset]? ≠ some 0), offset + 1)
  | .uint8 => (.number (.integer (readBigEndian 1 payload offset)), offset + 1)
  | .int32 => (.number (.integer (getInt32 payload offset)), offset + 4)
  | .uint32 => (.number (.integer (getUint32 payload offset)), offset + 4)
  | .uint64 =>
    let high := getUint32 payload offset
    let low := getUint32 payload (offset + 4)
    (.number (.integer (closestDouble (high * 0x100000000 + low))), offset + 8)
  | .double => (.number (.float64 (getFloat64 payload offset)), offset + 8)
  | .vector3d =>
    (.vector ((List.range 3).map fun i => .float64 (getFloat64 payload (offset + i * 8))),
      offset + 3 * 8)
  | .vector6d =>
    (.vector ((List.range 6).map fun i => .float64 (getFloat64 payload (offset + i * 8))),
      offset + 6 * 8)
  | .vector6int32 =>
    (.vector ((List.range 6).map fun i => .integer (getInt32 payload (offset + i * 4))),
      offset + 24)
  | .vector6uint32 =>
    (.vector ((List.range 6).map fun i => .integer (getUint32 payload (offset + i * 4))),
      offset + 24)

/-- The loop of `decodeDataPackage` over the types of the recipe. -/
def readValues (payload : List UInt8) : Nat → List RtdeValueType → Except Thrown (List RtdeValue)
  | _, [] => .ok []
  | offset, type :: types =>
    if offset + type.size > payload.length then
      .error (protocolError
        (js "Data package truncated while reading " ++ type.text ++ js " (" ++
          decimal (payload.length - offset) ++ js " bytes left, " ++ decimal type.size ++
          js " needed)."))
    else
      let read := readValue payload offset type
      match readValues payload read.2 types with
      | .ok values => .ok (read.1 :: values)
      | .error e => .error e

structure RtdeDataPackage where
  recipeId : UInt8
  values : List RtdeValue
  deriving DecidableEq, Repr

def decodeDataPackage (payload : List UInt8) (types : List RtdeValueType) :
    Except Thrown RtdeDataPackage :=
  match payload with
  | [] => .error (protocolError (js "Data package is empty."))
  | recipeId :: _ => match readValues payload 1 types with
    | .ok values => .ok ⟨recipeId, values⟩
    | .error e => .error e

/-! ## What a controller packs -/

/-- A value as a controller packs it. A double is its 64 bits. -/
inductive RtdeDatum
  | bool (byte : UInt8)
  | uint8 (n : BitVec 8)
  | int32 (n : BitVec 32)
  | uint32 (n : BitVec 32)
  | uint64 (n : BitVec 64)
  | double (bits : BitVec 64)
  | vector3d (bits : Fin 3 → BitVec 64)
  | vector6d (bits : Fin 6 → BitVec 64)
  | vector6int32 (ns : Fin 6 → BitVec 32)
  | vector6uint32 (ns : Fin 6 → BitVec 32)

namespace RtdeDatum

def type : RtdeDatum → RtdeValueType
  | bool _ => .bool
  | uint8 _ => .uint8
  | int32 _ => .int32
  | uint32 _ => .uint32
  | uint64 _ => .uint64
  | double _ => .double
  | vector3d _ => .vector3d
  | vector6d _ => .vector6d
  | vector6int32 _ => .vector6int32
  | vector6uint32 _ => .vector6uint32

/-- Numbers of `w` bits in `k` bytes each, one behind the other. -/
def packed {w n : Nat} (k : Nat) (ns : Fin n → BitVec w) : List UInt8 :=
  ((List.ofFn ns).map BitVec.toNat).flatMap (bigEndian k)

def bytes : RtdeDatum → List UInt8
  | bool byte => [byte]
  | uint8 n => bigEndian 1 n.toNat
  | int32 n => bigEndian 4 n.toNat
  | uint32 n => bigEndian 4 n.toNat
  | uint64 n => bigEndian 8 n.toNat
  | double bits => bigEndian 8 bits.toNat
  | vector3d bits => packed 8 bits
  | vector6d bits => packed 8 bits
  | vector6int32 ns => packed 4 ns
  | vector6uint32 ns => packed 4 ns

def value : RtdeDatum → RtdeValue
  | bool byte => .boolean (byte ≠ 0)
  | uint8 n => .number (.integer n.toNat)
  | int32 n => .number (.integer n.toInt)
  | uint32 n => .number (.integer n.toNat)
  | uint64 n => .number (.integer (closestDouble n.toNat))
  | double bits => .number (.float64 bits.toNat)
  | vector3d bits => .vector ((List.ofFn bits).map fun b => .float64 b.toNat)
  | vector6d bits => .vector ((List.ofFn bits).map fun b => .float64 b.toNat)
  | vector6int32 ns => .vector ((List.ofFn ns).map fun n => .integer n.toInt)
  | vector6uint32 ns => .vector ((List.ofFn ns).map fun n => .integer n.toNat)

theorem length_packed {w n : Nat} (k : Nat) (ns : Fin n → BitVec w) :
    (packed k ns).length = n * k := by
  rw [packed, List.length_flatMap, List.map_congr_left fun m _ => length_bigEndian k m,
    List.map_const', List.sum_replicate_nat, List.length_map, List.length_ofFn]

theorem length_bytes (d : RtdeDatum) : d.bytes.length = d.type.size := by
  cases d <;> simp [bytes, type, RtdeValueType.size, length_packed]

/-- A number that fits its bytes is read as it was packed. -/
theorem readBigEndian_number {w k : Nat} (hw : 2 ^ w = 256 ^ k) (n : BitVec w)
    (before after : List UInt8) :
    readBigEndian k (before ++ (bigEndian k n.toNat ++ after)) before.length = n.toNat := by
  rw [readBigEndian_append, ← hw, Nat.mod_eq_of_lt n.isLt]

theorem map_read_packed {w n k : Nat} (hw : 2 ^ w = 256 ^ k) (ns : Fin n → BitVec w)
    (before after : List UInt8) :
    (List.range n).map (fun i =>
        readBigEndian k (before ++ (packed k ns ++ after)) (before.length + i * k)) =
      (List.ofFn ns).map BitVec.toNat := by
  have hmap := map_readBigEndian_range k ((List.ofFn ns).map BitVec.toNat) before after
  rw [List.length_map, List.length_ofFn] at hmap
  rw [packed, hmap, List.map_map]
  refine List.map_congr_left fun n _ => ?_
  rw [Function.comp_apply, ← hw, Nat.mod_eq_of_lt n.isLt]

/-- A vector is read as it was packed, whatever its numbers are read as. -/
theorem map_read_vector {w n k : Nat} (hw : 2 ^ w = 256 ^ k) (ns : Fin n → BitVec w)
    (f : Nat → RtdeNumber) (before after : List UInt8) :
    (List.range n).map (fun i =>
        f (readBigEndian k (before ++ (packed k ns ++ after)) (before.length + i * k))) =
      (List.ofFn ns).map fun b => f b.toNat := by
  have h := congrArg (List.map f) (map_read_packed hw ns before after)
  rw [List.map_map, List.map_map] at h
  exact h

theorem read_halves (n : BitVec 64) (before after : List UInt8) :
    getUint32 (before ++ (bigEndian 8 n.toNat ++ after)) before.length * 0x100000000 +
      getUint32 (before ++ (bigEndian 8 n.toNat ++ after)) (before.length + 4) = n.toNat := by
  have hsplit : bigEndian 8 n.toNat = bigEndian 4 (n.toNat / 256 ^ 4) ++ bigEndian 4 n.toNat :=
    bigEndian_add 4 4 n.toNat
  have hhigh : getUint32 (before ++ (bigEndian 8 n.toNat ++ after)) before.length =
      n.toNat / 256 ^ 4 % 256 ^ 4 := by
    rw [getUint32, hsplit, List.append_assoc, readBigEndian_append]
  have hlow : getUint32 (before ++ (bigEndian 8 n.toNat ++ after)) (before.length + 4) =
      n.toNat % 256 ^ 4 := by
    have h := readBigEndian_append 4 n.toNat (before ++ bigEndian 4 (n.toNat / 256 ^ 4)) after
    rw [List.length_append, length_bigEndian, List.append_assoc] at h
    rw [getUint32, hsplit, List.append_assoc, h]
  have hlt := n.isLt
  rw [hhigh, hlow]
  omega

/-- **A value is read as it was packed**, wherever it stands. -/
theorem readValue_append (d : RtdeDatum) (before after : List UInt8) :
    readValue (before ++ (d.bytes ++ after)) before.length d.type =
      (d.value, before.length + d.type.size) := by
  cases d with
  | bool byte => simp [readValue, bytes, value, type, RtdeValueType.size]
  | uint8 n =>
    simp only [readValue, bytes, value, type, RtdeValueType.size]
    rw [readBigEndian_number (by decide)]
  | int32 n =>
    simp only [readValue, bytes, value, type, RtdeValueType.size, getInt32, getUint32]
    rw [readBigEndian_number (by decide), BitVec.ofNat_toNat, BitVec.setWidth_eq]
  | uint32 n =>
    simp only [readValue, bytes, value, type, RtdeValueType.size, getUint32]
    rw [readBigEndian_number (by decide)]
  | uint64 n =>
    simp only [readValue, bytes, value, type, RtdeValueType.size]
    rw [read_halves]
  | double bits =>
    simp only [readValue, bytes, value, type, RtdeValueType.size, getFloat64]
    rw [readBigEndian_number (by decide)]
  | vector3d bits =>
    simp only [readValue, bytes, value, type, RtdeValueType.size, getFloat64]
    rw [map_read_vector (by decide) bits .float64]
  | vector6d bits =>
    simp only [readValue, bytes, value, type, RtdeValueType.size, getFloat64]
    rw [map_read_vector (by decide) bits .float64]
  | vector6int32 ns =>
    simp only [readValue, bytes, value, type, RtdeValueType.size, getInt32, getUint32]
    rw [map_read_vector (by decide) ns fun n => .integer (BitVec.ofNat 32 n).toInt]
    simp only [BitVec.ofNat_toNat, BitVec.setWidth_eq]
  | vector6uint32 ns =>
    simp only [readValue, bytes, value, type, RtdeValueType.size, getUint32]
    rw [map_read_vector (by decide) ns fun n => .integer n]

end RtdeDatum

/-- **The loop over a recipe reads what was packed**, in order. -/
theorem readValues_append (ds : List RtdeDatum) (before after : List UInt8) :
    readValues (before ++ (ds.flatMap RtdeDatum.bytes ++ after)) before.length
      (ds.map RtdeDatum.type) = .ok (ds.map RtdeDatum.value) := by
  induction ds generalizing before with
  | nil => rfl
  | cons d ds ih =>
    have ih := ih (before ++ d.bytes)
    rw [List.length_append, d.length_bytes, List.append_assoc] at ih
    have hroom : ¬ before.length + d.type.size >
        (before ++ (d.bytes ++ (ds.flatMap RtdeDatum.bytes ++ after))).length := by
      rw [← d.length_bytes]
      simp only [List.length_append]
      omega
    rw [List.map_cons, List.flatMap_cons, List.append_assoc, readValues, if_neg hroom]
    simp only [d.readValue_append, ih, List.map_cons]

/-- **A data package is decoded as it was packed.** -/
theorem decodeDataPackage_packed (recipeId : UInt8) (ds : List RtdeDatum) :
    decodeDataPackage (recipeId :: ds.flatMap RtdeDatum.bytes) (ds.map RtdeDatum.type) =
      .ok ⟨recipeId, ds.map RtdeDatum.value⟩ := by
  have h : readValues (recipeId :: ds.flatMap RtdeDatum.bytes) 1 (ds.map RtdeDatum.type) =
      .ok (ds.map RtdeDatum.value) := by
    have happend := readValues_append ds [recipeId] []
    rwa [List.append_nil] at happend
  simp only [decodeDataPackage, h]

/-- A package that is decoded has the recipe id in front, and a value for each type. -/
theorem recipeId_of_decodeDataPackage {payload : List UInt8} {types : List RtdeValueType}
    {package : RtdeDataPackage} (h : decodeDataPackage payload types = .ok package) :
    payload.head? = some package.recipeId := by
  cases payload with
  | nil => cases h
  | cons recipeId rest =>
    simp only [decodeDataPackage] at h
    split at h <;> cases h
    rfl

end Pinout.Rtde
