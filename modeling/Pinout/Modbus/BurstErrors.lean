import Pinout.Foundation.CyclicCheck
import Pinout.Modbus.Wire

/-! # Serial frames and what happens to them on the line

The check sum of a serial frame is a cyclic check whose generator has sixteen bits. A frame that arrives as
it was sent is read back, and one in which a burst of at most sixteen bits was turned over is refused. -/

namespace Pinout.Modbus

open Foundation

def crcGenerator : Nat := 0xA001

theorem crc16_eq (data : List UInt8) : crc16 data = cyclicCheck crcGenerator 0xFFFF data := rfl

theorem crc16_lt (data : List UInt8) : crc16 data < 2 ^ 16 :=
  cyclicCheck_lt (by decide) (by decide) (by decide) data

theorem messageNumber_pair (low high : UInt8) :
    messageNumber [low, high] = low.toNat + high.toNat * 256 := by
  simp only [messageNumber]
  omega

/-- **The last two bytes of a frame are its check sum** exactly when the check of all of it leaves
nothing. -/
theorem crc16_append_eq_zero_iff (body : List UInt8) (low high : UInt8) :
    crc16 (body ++ [low, high]) = 0 ↔ low.toNat + high.toNat * 256 = crc16 body := by
  have hcheck : messageNumber [low, high] < 2 ^ (15 + 1) := by
    have hlow := low.toNat_lt
    have hhigh := high.toNat_lt
    rw [messageNumber_pair]
    omega
  rw [← messageNumber_pair]
  exact cyclicCheck_append_eq_zero_iff (by decide) (by decide) (by decide) (by decide) body hcheck

/-! ## Reading a frame -/

section Reading

variable (address : UInt8) (body : List UInt8) (low high : UInt8)

theorem decodeRtu_append (requestFunctionCode expectedAddress : UInt8) (hbody : body ≠ []) :
    decodeRtu (address :: body ++ [low, high]) requestFunctionCode expectedAddress =
      if address ≠ expectedAddress then
        .error (protocolError (js "Response from slave " ++ decimal address.toNat ++
          js ", expected " ++ decimal expectedAddress.toNat ++ js "."))
      else if low.toNat + high.toNat * 256 ≠ crc16 (address :: body) then
        .error (modbusError (js "MODBUS_CRC_ERROR") (js "CRC mismatch: received 0x" ++
          hex (low.toNat + high.toNat * 256) ++ js ", computed 0x" ++ hex (crc16 (address :: body)) ++
          js "."))
      else decodePdu body requestFunctionCode := by
  have hlength : (address :: body ++ [low, high]).length = (address :: body).length + 2 := by
    rw [List.length_append]
    rfl
  have hlong : ¬ (address :: body ++ [low, high]).length < 4 := by
    have hpos := List.length_pos_iff.mpr hbody
    rw [hlength, List.length_cons]
    omega
  have hhead : byteAt (address :: body ++ [low, high]) 0 = address.toNat := rfl
  have hlow : byteAt (address :: body ++ [low, high]) ((address :: body).length) = low.toNat := by
    rw [byteAt, List.getElem?_append_right (Nat.le_refl _), Nat.sub_self]
    rfl
  have hhigh : byteAt (address :: body ++ [low, high]) ((address :: body).length + 1) = high.toNat := by
    rw [byteAt, List.getElem?_append_right (Nat.le_succ _), Nat.succ_sub (Nat.le_refl _),
      Nat.sub_self]
    rfl
  have htake : (address :: body ++ [low, high]).take (address :: body).length = address :: body :=
    List.take_left
  have hne : address.toNat ≠ expectedAddress.toNat ↔ address ≠ expectedAddress :=
    not_congr UInt8.toNat_inj
  rw [decodeRtu, if_neg hlong, hhead, hlength, Nat.add_sub_cancel, hlow, Nat.add_succ_sub_one, hhigh,
    htake, List.drop_succ_cons, List.drop_zero]
  simp only [hne]

/-- A frame that is long enough has an address, a PDU and a check sum. -/
theorem exists_parts {frame : List UInt8} (h : ¬ frame.length < 4) :
    ∃ address body low high, body ≠ [] ∧ frame = address :: body ++ [low, high] := by
  match frame, h with
  | address :: rest, h =>
    rw [List.length_cons] at h
    obtain ⟨body, high, rfl⟩ := List.eq_nil_or_concat rest |>.resolve_left (by rintro rfl; simp at h)
    rw [List.concat_eq_append, List.length_append, List.length_singleton] at h
    obtain ⟨body, low, rfl⟩ := List.eq_nil_or_concat body |>.resolve_left (by rintro rfl; simp at h)
    rw [List.concat_eq_append, List.length_append, List.length_singleton] at h
    refine ⟨address, body, low, high, ?_, ?_⟩
    · rintro rfl
      simp at h
    · simp

/-- **A frame with a wrong check sum is refused.** -/
theorem exists_error_of_crc16_ne_zero {frame : List UInt8} (h : crc16 frame ≠ 0)
    (requestFunctionCode expectedAddress : UInt8) :
    ∃ e, decodeRtu frame requestFunctionCode expectedAddress = .error e := by
  by_cases hshort : frame.length < 4
  · exact ⟨_, by rw [decodeRtu, if_pos hshort]⟩
  · obtain ⟨address, body, low, high, hbody, rfl⟩ : ∃ address body low high, body ≠ [] ∧
        frame = address :: body ++ [low, high] := by
      exact exists_parts hshort
    rw [decodeRtu_append _ _ _ _ _ _ hbody]
    have hcheck : low.toNat + high.toNat * 256 ≠ crc16 (address :: body) :=
      fun heq => h ((crc16_append_eq_zero_iff _ _ _).mpr heq)
    by_cases haddress : address ≠ expectedAddress
    · exact ⟨_, if_pos haddress⟩
    · rw [if_neg haddress, if_pos hcheck]
      exact ⟨_, rfl⟩

end Reading

/-! ## What was sent -/

section Sending

variable (address : UInt8) (pdu : List UInt8)

/-- The two bytes behind a PDU are its check sum, the low one first. -/
theorem exists_encodeRtu : ∃ low high, encodeRtu address pdu = address :: pdu ++ [low, high] ∧
    low.toNat + high.toNat * 256 = crc16 (address :: pdu) := by
  refine ⟨_, _, rfl, ?_⟩
  have hlt := crc16_lt (address :: pdu)
  rw [toNat_toUInt8_mod, toNat_toUInt8_mod]
  omega

/-- **A frame that arrives as it was sent is read back.** -/
theorem decodeRtu_encodeRtu (requestFunctionCode expectedAddress : UInt8) (hpdu : pdu ≠ []) :
    decodeRtu (encodeRtu address pdu) requestFunctionCode expectedAddress =
      if address ≠ expectedAddress then
        .error (protocolError (js "Response from slave " ++ decimal address.toNat ++
          js ", expected " ++ decimal expectedAddress.toNat ++ js "."))
      else decodePdu pdu requestFunctionCode := by
  obtain ⟨low, high, hframe, hcheck⟩ := exists_encodeRtu address pdu
  rw [hframe, decodeRtu_append _ _ _ _ _ _ hpdu, if_neg (not_not.mpr hcheck)]

theorem crc16_encodeRtu : crc16 (encodeRtu address pdu) = 0 := by
  obtain ⟨low, high, hframe, hcheck⟩ := exists_encodeRtu address pdu
  rw [hframe]
  exact (crc16_append_eq_zero_iff _ _ _).mpr hcheck

/-- **A burst is refused**, whatever function and address the reader waits for. -/
theorem exists_error_of_isBurst {error : List UInt8}
    (hlength : error.length = (encodeRtu address pdu).length) (hburst : IsBurst 16 error)
    (requestFunctionCode expectedAddress : UInt8) :
    ∃ e, decodeRtu (damage (encodeRtu address pdu) error) requestFunctionCode expectedAddress =
      .error e := by
  apply exists_error_of_crc16_ne_zero
  rw [crc16_eq]
  exact cyclicCheck_burst (w := 15) (by decide) (by decide) hlength hburst (crc16_encodeRtu address pdu)

end Sending

/-- **Serial frames**: what is read from a frame that arrives as it was sent is the address and the PDU it
was made of, so that reading it for its address is decoding its PDU; and whatever burst of at most sixteen
bits hits a frame, it is refused. -/
theorem serial_frames (address : UInt8) (pdu : List UInt8) :
    ((encodeRtu address pdu).head? = some address ∧
      ((encodeRtu address pdu).take ((encodeRtu address pdu).length - 2)).drop 1 = pdu ∧
      ∀ requestFunctionCode,
        (decodeRtu (encodeRtu address pdu) requestFunctionCode address).toOption =
          (decodePdu pdu requestFunctionCode).toOption ∧
        (pdu ≠ [] → decodeRtu (encodeRtu address pdu) requestFunctionCode address =
          decodePdu pdu requestFunctionCode) ∧
        ∀ expectedAddress, expectedAddress ≠ address →
          ∃ e, decodeRtu (encodeRtu address pdu) requestFunctionCode expectedAddress = .error e) ∧
    ∀ error : List UInt8, error.length = (encodeRtu address pdu).length → IsBurst 16 error →
      ∀ requestFunctionCode expectedAddress,
        ∃ e, decodeRtu (damage (encodeRtu address pdu) error) requestFunctionCode expectedAddress =
          .error e := by
  refine ⟨⟨rfl, ?_, fun requestFunctionCode => ?_⟩, fun error hlength hburst =>
    exists_error_of_isBurst address pdu hlength hburst⟩
  · obtain ⟨low, high, hframe, -⟩ := exists_encodeRtu address pdu
    rw [hframe]
    have hlength : (address :: pdu ++ [low, high]).length - 2 = (address :: pdu).length := by
      rw [List.length_append]
      rfl
    rw [hlength, List.take_left, List.drop_succ_cons, List.drop_zero]
  · by_cases hpdu : pdu = []
    · -- the frame of no PDU is too short for any reader, and no PDU decodes to nothing
      subst hpdu
      exact ⟨rfl, fun hne => absurd rfl hne, fun _ _ => ⟨_, rfl⟩⟩
    · have hread := decodeRtu_encodeRtu address pdu requestFunctionCode
      have hown : decodeRtu (encodeRtu address pdu) requestFunctionCode address =
          decodePdu pdu requestFunctionCode := by
        rw [hread address hpdu, if_neg (not_not.mpr rfl)]
      refine ⟨by rw [hown], fun _ => hown, fun expectedAddress hother => ?_⟩
      rw [hread expectedAddress hpdu, if_pos hother.symm]
      exact ⟨_, rfl⟩

/-- A frame of one register, and one of its bits turned over. -/
theorem serial_frames_register :
    ∃ e, decodeRtu (damage (encodeRtu 1 [0x03, 0x02, 0x00, 0x07]) [0, 0, 0, 0, 1, 0, 0]) 0x03 1 =
      .error e := by
  refine (serial_frames 1 [0x03, 0x02, 0x00, 0x07]).2 [0, 0, 0, 0, 1, 0, 0]
    (by simp [encodeRtu]) ⟨⟨32, by simp [getBit]⟩, 24, fun i hi => ?_⟩ _ _
  -- only the byte `0x07` is damaged
  rcases Nat.lt_or_ge (i / 8) 7 with hlt | hge
  · obtain hbyte | hbyte : i / 8 = 4 ∨ (i / 8 = 0 ∨ i / 8 = 1 ∨ i / 8 = 2 ∨ i / 8 = 3 ∨ i / 8 = 5 ∨ i / 8 = 6) := by
      omega
    · omega
    · rcases hbyte with hbyte | hbyte | hbyte | hbyte | hbyte | hbyte <;> simp [getBit, hbyte] at hi
  · obtain ⟨n, hbyte⟩ := Nat.exists_eq_add_of_le' hge
    simp [getBit, hbyte] at hi

end Pinout.Modbus
