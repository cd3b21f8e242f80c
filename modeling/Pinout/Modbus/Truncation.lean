import Pinout.Modbus.Wire

/-! # Truncated and over-long responses

What a response decodes to should be in its bytes. The decoder never looks at the length of a response,
but for an exception without its code: a bit or a register that is missing reads as zero, and bytes that
are left over are ignored. So it makes nothing up exactly for the responses that it refuses for another
reason, and for those that are as long as they say. -/

namespace Pinout.Modbus

open Foundation

/-- What was decoded is in the response, and is all of it: every bit and every register is there, in as
many bytes as the byte count states. -/
def PduDecodeResult.PresentIn (pdu : List UInt8) : PduDecodeResult → Prop
  | .bits values => pdu.length = 2 + byteAt pdu 1 ∧ values.length = byteAt pdu 1 * 8 ∧
      ∀ i value, values[i]? = some value →
        ∃ byte, pdu[2 + i / 8]? = some byte ∧ value = byte.toNat.testBit (i % 8)
  | .registers values => pdu.length = 2 + byteAt pdu 1 ∧ byteAt pdu 1 = values.length * 2 ∧
      ∀ i value, values[i]? = some value →
        ∃ high low, pdu[2 + 2 * i]? = some high ∧ pdu[3 + 2 * i]? = some low ∧
          value = high.toNat * 256 + low.toNat
  | .echo functionCode address value => ∃ a₁ a₀ v₁ v₀, pdu = [functionCode, a₁, a₀, v₁, v₀] ∧
      address = a₁.toNat * 256 + a₀.toNat ∧ value = v₁.toNat * 256 + v₀.toNat
  | .exception functionCode exceptionCode =>
      ∃ head, pdu = [head, exceptionCode] ∧ head.toNat = functionCode.toNat + 0x80

/-- The decoder makes nothing up: it refuses the response, or what it returns is all there. -/
def NeverFabricates (pdu : List UInt8) (requestFunctionCode : UInt8) : Prop :=
  ∀ result, decodePdu pdu requestFunctionCode = .ok result → result.PresentIn pdu

/-- A response that answers another function, has no function, or has registers without an even byte
count; else it is exactly as long as it says. -/
def RefusedOrExact (pdu : List UInt8) (requestFunctionCode : UInt8) : Prop :=
  match pdu with
  | [] => True
  | functionCode :: rest =>
    if functionCode.toNat = requestFunctionCode.toNat + 0x80 then rest.length ≤ 1
    else if functionCode ≠ requestFunctionCode then True
    else if functionCode = 0x01 ∨ functionCode = 0x02 then
      ∃ byteCount, rest.head? = some byteCount ∧ rest.length = 1 + byteCount.toNat
    else if functionCode = 0x03 ∨ functionCode = 0x04 then
      ∀ byteCount, rest.head? = some byteCount →
        byteCount.toNat % 2 = 1 ∨ rest.length = 1 + byteCount.toNat
    else if functionCode = 0x05 ∨ functionCode = 0x06 ∨ functionCode = 0x0F ∨ functionCode = 0x10 then
      rest.length = 4
    else True

section Kinds

variable {functionCode byteCount : UInt8} {data : List UInt8}

theorem byteAt_of_lt {bytes : List UInt8} {i : Nat} (h : i < bytes.length) :
    ∃ byte, bytes[i]? = some byte ∧ byteAt bytes i = byte.toNat := by
  refine ⟨bytes[i], List.getElem?_eq_getElem h, ?_⟩
  rw [byteAt, List.getElem?_eq_getElem h, Option.getD_some]

theorem of_getElem?_map_range {α : Type*} {f : Nat → α} {n i : Nat} {value : α}
    (h : ((List.range n).map f)[i]? = some value) : i < n ∧ value = f i := by
  obtain ⟨hi, hvalue⟩ := List.getElem?_eq_some_iff.mp h
  rw [List.getElem_map, List.getElem_range] at hvalue
  rw [List.length_map, List.length_range] at hi
  exact ⟨hi, hvalue.symm⟩

/-- **The bits** are all there exactly when there are as many bytes as the byte count states. -/
theorem presentIn_bits_iff :
    (PduDecodeResult.bits ((List.range (byteCount.toNat * 8)).map (getBit data))).PresentIn
      (functionCode :: byteCount :: data) ↔ data.length = byteCount.toNat := by
  have hcount : byteAt (functionCode :: byteCount :: data) 1 = byteCount.toNat := rfl
  rw [PduDecodeResult.PresentIn, hcount]
  constructor
  · rintro ⟨hlength, -, -⟩
    simp only [List.length_cons] at hlength
    omega
  · intro hlength
    refine ⟨?_, ?_, fun i value hvalue => ?_⟩
    · simp only [List.length_cons]
      omega
    · rw [List.length_map, List.length_range]
    · obtain ⟨hi, rfl⟩ := of_getElem?_map_range hvalue
      have hbyte : i / 8 < data.length := by omega
      refine ⟨data[i / 8], ?_, ?_⟩
      · rw [Nat.add_comm, List.getElem?_cons_succ, List.getElem?_cons_succ]
        exact List.getElem?_eq_getElem hbyte
      · rw [getBit, List.getElem?_eq_getElem hbyte, Option.getD_some]

/-- **The registers** are all there exactly when there are as many bytes as the byte count states. -/
theorem presentIn_registers_iff (heven : byteCount.toNat % 2 = 0) :
    (PduDecodeResult.registers ((List.range (byteCount.toNat / 2)).map fun i =>
      wordAt data (2 * i))).PresentIn (functionCode :: byteCount :: data) ↔
      data.length = byteCount.toNat := by
  have hcount : byteAt (functionCode :: byteCount :: data) 1 = byteCount.toNat := rfl
  rw [PduDecodeResult.PresentIn, hcount]
  constructor
  · rintro ⟨hlength, -, -⟩
    simp only [List.length_cons] at hlength
    omega
  · intro hlength
    refine ⟨?_, ?_, fun i value hvalue => ?_⟩
    · simp only [List.length_cons]
      omega
    · rw [List.length_map, List.length_range]
      omega
    · obtain ⟨hi, rfl⟩ := of_getElem?_map_range hvalue
      obtain ⟨high, hhigh, hhighAt⟩ := byteAt_of_lt (by omega : 2 * i < data.length)
      obtain ⟨low, hlow, hlowAt⟩ := byteAt_of_lt (by omega : 2 * i + 1 < data.length)
      refine ⟨high, low, ?_, ?_, ?_⟩
      · rw [Nat.add_comm, List.getElem?_cons_succ, List.getElem?_cons_succ]
        exact hhigh
      · rw [Nat.add_comm, List.getElem?_cons_succ, List.getElem?_cons_succ]
        exact hlow
      · rw [wordAt, hhighAt, hlowAt]

/-- **An echo** is all there exactly when it has an address and a value, and nothing else. -/
theorem presentIn_echo_iff {rest : List UInt8} :
    (PduDecodeResult.echo functionCode (wordAt (functionCode :: rest) 1)
      (wordAt (functionCode :: rest) 3)).PresentIn (functionCode :: rest) ↔ rest.length = 4 := by
  rw [PduDecodeResult.PresentIn]
  constructor
  · rintro ⟨a₁, a₀, v₁, v₀, hpdu, -, -⟩
    rw [(List.cons.inj hpdu).2]
    rfl
  · intro hlength
    match rest, hlength with
    | [a₁, a₀, v₁, v₀], _ => exact ⟨a₁, a₀, v₁, v₀, rfl, rfl, rfl⟩

end Kinds

/-- **What the decoder makes up.** It returns nothing that is not in the response, and returns it only
for a response that is as long as it says, exactly when the response is refused for another reason or has
that length. -/
theorem neverFabricates_iff (pdu : List UInt8) (requestFunctionCode : UInt8) :
    NeverFabricates pdu requestFunctionCode ↔ RefusedOrExact pdu requestFunctionCode := by
  cases pdu with
  | nil => exact ⟨fun _ => trivial, fun _ => by rintro _ ⟨⟩⟩
  | cons functionCode rest =>
    simp only [NeverFabricates, RefusedOrExact, decodePdu]
    by_cases hexception : functionCode.toNat = requestFunctionCode.toNat + 0x80
    · simp only [if_pos hexception]
      cases rest with
      | nil => exact ⟨fun _ => Nat.zero_le 1, fun _ => by rintro _ ⟨⟩⟩
      | cons exceptionCode more =>
        simp only [Except.ok.injEq, forall_eq', PduDecodeResult.PresentIn, List.length_cons]
        constructor
        · rintro ⟨head, hpdu, -⟩
          simp only [List.cons.injEq] at hpdu
          rw [hpdu.2.2]
          exact Nat.le_refl 1
        · intro hlength
          obtain rfl : more = [] := List.length_eq_zero_iff.mp (by omega)
          exact ⟨functionCode, rfl, hexception⟩
    · simp only [if_neg hexception]
      by_cases hfunction : functionCode = requestFunctionCode
      · simp only [ne_eq, hfunction, not_true_eq_false, if_false]
        subst hfunction
        by_cases hbits : functionCode = 0x01 ∨ functionCode = 0x02
        · simp only [if_pos hbits]
          cases rest with
          | nil =>
            simp only [Except.ok.injEq, forall_eq', PduDecodeResult.PresentIn, List.head?_nil,
              List.length_singleton, reduceCtorEq, false_and, exists_false, iff_false, not_and]
            intro hlength
            omega
          | cons byteCount data =>
            simp only [Except.ok.injEq, forall_eq', presentIn_bits_iff, List.head?_cons,
              Option.some.injEq, exists_eq_left', List.length_cons]
            omega
        · simp only [if_neg hbits]
          by_cases hregisters : functionCode = 0x03 ∨ functionCode = 0x04
          · simp only [if_pos hregisters]
            cases rest with
            | nil => exact ⟨fun _ => by rintro _ ⟨⟩, fun _ => by rintro _ ⟨⟩⟩
            | cons byteCount data =>
              by_cases hodd : byteCount.toNat % 2 = 0
              · simp only [hodd, not_true_eq_false, if_false, Except.ok.injEq, forall_eq',
                  presentIn_registers_iff hodd, List.head?_cons, Option.some.injEq, List.length_cons]
                omega
              · simp only [hodd, not_false_eq_true, if_true, List.head?_cons,
                  Option.some.injEq, forall_eq']
                exact ⟨fun _ => .inl (by omega), fun _ => by rintro _ ⟨⟩⟩
          · simp only [if_neg hregisters]
            by_cases hecho : functionCode = 0x05 ∨ functionCode = 0x06 ∨ functionCode = 0x0F ∨
                functionCode = 0x10
            · simp only [if_pos hecho, Except.ok.injEq, forall_eq', presentIn_echo_iff]
            · simp only [if_neg hecho]
              exact ⟨fun _ => trivial, fun _ => by rintro _ ⟨⟩⟩
      · simp only [ne_eq, hfunction, not_false_eq_true, if_true]
        exact ⟨fun _ => trivial, fun _ => by rintro _ ⟨⟩⟩

/-- A response that states one byte of coils and has none reads as eight coils that are off. -/
theorem not_neverFabricates :
    decodePdu [0x01, 0x01] 0x01 = .ok (.bits (List.replicate 8 false)) ∧
      ¬ NeverFabricates [0x01, 0x01] 0x01 := by
  have hdecoded : decodePdu [0x01, 0x01] 0x01 = .ok (.bits (List.replicate 8 false)) := rfl
  refine ⟨hdecoded, fun h => ?_⟩
  obtain ⟨hlength, -, -⟩ := h _ hdecoded
  exact absurd hlength (by decide)

end Pinout.Modbus
