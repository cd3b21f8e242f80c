import Pinout.Mqtt.Wire

/-! # Buffers that wait for ever

`tryDecodePacket` says the same of a packet that is not whole yet and of one it will never take, and the
client waits in both cases. `canComplete` tells them apart: it looks at the type, the length and the part
of the body that is there, and is true exactly when some packet that the decoder takes begins like this
(`neverStalls_iff`). -/

namespace Pinout.Mqtt

open Foundation

/-! ## What is claimed -/

/-- A whole packet, as the header byte and the remaining length tell it, is at the head of a buffer. -/
def WholePacket (buffer : List UInt8) : Prop :=
  ∃ header rest value index, buffer = header :: rest ∧ readLength 4 1 0 1 rest = some (value, index) ∧
    index + value ≤ buffer.length

/-- The decoder waits only where a packet it takes is on its way, and never behind a whole one. -/
structure NeverStalls (buffer : List UInt8) : Prop where
  coming : tryDecodePacket buffer = none → ∃ more packet, more ≠ [] ∧
    tryDecodePacket (buffer ++ more) = some (packet, (buffer ++ more).length)
  reported : WholePacket buffer → tryDecodePacket buffer ≠ none

/-! ## Which buffers can be completed -/

/-- The first two bytes of a part of a body as a number; a byte that is missing may still be zero. -/
def wordSoFar (part : List UInt8) : Nat := (part[0]?.getD 0).toNat * 256 + (part[1]?.getD 0).toNat

/-- The packet identifier is missing in part, or is not zero. -/
def idFits (part : List UInt8) : Bool := part.length < 2 || wordSoFar part ≠ 0

/-- Topic filters in `n` bytes can begin like this. -/
def filtersFit (n : Nat) : List UInt8 → Bool
  | [] => n ≠ 2
  | [high] => n < 2 || high.toNat * 256 + 3 ≤ n
  | high :: low :: rest =>
    ofBigEndian [high, low] + 3 ≤ n &&
      filtersFit (n - (ofBigEndian [high, low] + 3)) (rest.drop (ofBigEndian [high, low] + 1))
termination_by part => part.length
decreasing_by
  simp only [List.length_drop, List.length_cons]
  omega

/-- A body of `n` bytes can begin like this. -/
def bodyFits (type : MqttPacketType) (header : UInt8) (n : Nat) (part : List UInt8) : Bool :=
  match type with
  | .connack => n = 2 && (part[0]?.all fun flags => flags.toNat ≤ 1) &&
      part[1]?.all fun code => code.toNat ≤ 5
  | .publish => header.toNat / 2 % 4 ≤ 1 && 2 + wordSoFar part + 2 * (header.toNat / 2 % 4) ≤ n
  | .puback => 2 ≤ n && idFits part
  | .suback => 3 ≤ n && idFits part
  | .subscribe => 2 ≤ n && idFits part && filtersFit (n - 2) (part.drop 2)
  | .pingreq | .pingresp | .disconnect | .connect => true

/-- The low seven bits of the bytes of a length that are there. -/
def lengthSoFar : List UInt8 → Nat
  | [] => 0
  | byte :: rest => byte.toNat % 128 + 128 * lengthSoFar rest

/-- A length that is not whole can still become one that fits the type. -/
def lengthFits (type : MqttPacketType) (header : UInt8) (rest : List UInt8) : Bool :=
  match type with
  | .connack => rest = [] || lengthSoFar rest = 2
  | .publish => header.toNat / 2 % 4 ≤ 1
  | _ => true

/-- A packet that the decoder takes can begin like this. -/
def canComplete : List UInt8 → Bool
  | [] => true
  | header :: rest => match typeByNumber (header.toNat / 16) with
    | none => false
    | some type => match readLength 4 1 0 1 rest with
      | some (value, index) =>
        bodyFits type header value (((header :: rest).drop index).take value)
      | none => rest.length < 4 && lengthFits type header rest

/-! ## Topic filters -/

def FiltersOk (body : List UInt8) : Prop := (readFilters body.length body).isSome = true

theorem readFilters_isSome {fuel : Nat} {body : List UInt8} (h : body.length ≤ fuel) :
    (readFilters fuel body).isSome = true ↔ FiltersOk body := by
  rw [FiltersOk]
  induction hlen : body.length using Nat.strongRecOn generalizing fuel body with
  | ind k ih =>
    match body, hlen, h with
    | [], _, _ => cases fuel <;> simp [readFilters]
    | [high], hlen, _ =>
      subst hlen
      cases fuel <;> simp [readFilters]
    | high :: low :: rest, hlen, h =>
      simp only [List.length_cons] at h hlen
      obtain ⟨f, rfl⟩ : ∃ f, fuel = f + 1 := ⟨fuel - 1, by omega⟩
      subst hlen
      rw [readFilters, readFilters]
      split
      · rfl
      · rw [Option.isSome_map, Option.isSome_map]
        have hdrop := List.length_drop (i := ofBigEndian [high, low] + 1) (l := rest)
        exact (ih _ (by omega) (by omega) rfl).trans (ih _ (by omega) (by omega) rfl).symm

theorem filtersOk_short {body : List UInt8} (h : body.length < 2) : FiltersOk body := by
  match body, h with
  | [], _ => rfl
  | [_], _ => rfl

theorem filtersOk_cons {high low : UInt8} {rest : List UInt8} :
    FiltersOk (high :: low :: rest) ↔ ofBigEndian [high, low] < rest.length ∧
      FiltersOk (rest.drop (ofBigEndian [high, low] + 1)) := by
  rw [FiltersOk, List.length_cons, readFilters]
  split
  · next hshort =>
    simp only [Option.isSome_none, Bool.false_eq_true, false_iff, not_and]
    intro hlong
    omega
  · next hlong =>
    rw [Option.isSome_map, readFilters_isSome (by
      simp only [List.length_drop, List.length_cons]
      omega)]
    exact ⟨fun h => ⟨Nat.not_le.mp hlong, h⟩, fun h => h.2⟩

/-- A part of a body becomes one of `n` bytes that is good. -/
def Extends (good : List UInt8 → Prop) (n : Nat) (part : List UInt8) : Prop :=
  ∃ more, part.length + more.length = n ∧ good (part ++ more)

theorem Extends.of_append {good : List UInt8 → Prop} {n : Nat} {part : List UInt8} (tail : List UInt8)
    (h : Extends good n (part ++ tail)) : Extends good n part := by
  obtain ⟨more, hlength, hgood⟩ := h
  refine ⟨tail ++ more, ?_, ?_⟩
  · rw [List.length_append] at hlength
    rw [List.length_append]
    omega
  · rwa [List.append_assoc] at hgood

theorem ofBigEndian_choose (high : UInt8) {low : Nat} (h : low < 256) :
    ofBigEndian [high, low.toUInt8] = high.toNat * 256 + low := by
  rw [ofBigEndian_pair, UInt8.toNat_ofNat', Nat.mod_eq_of_lt h]

/-- **A filter and what follows it.** -/
theorem extends_filter_iff {high low : UInt8} {n : Nat} {rest : List UInt8} (h : rest.length + 2 ≤ n) :
    Extends FiltersOk n (high :: low :: rest) ↔ ofBigEndian [high, low] + 3 ≤ n ∧
      Extends FiltersOk (n - (ofBigEndian [high, low] + 3)) (rest.drop (ofBigEndian [high, low] + 1)) := by
  constructor
  · rintro ⟨more, hlength, hok⟩
    simp only [List.length_cons] at hlength
    rw [List.cons_append, List.cons_append, filtersOk_cons, List.length_append, List.drop_append] at hok
    obtain ⟨hlong, hrest⟩ := hok
    refine ⟨by omega, more.drop (ofBigEndian [high, low] + 1 - rest.length), ?_, hrest⟩
    simp only [List.length_drop]
    omega
  · rintro ⟨hlong, more, hlength, hok⟩
    refine ⟨List.replicate (ofBigEndian [high, low] + 1 - rest.length) 0 ++ more, ?_, ?_⟩
    · simp only [List.length_drop, List.length_cons, List.length_append,
        List.length_replicate] at hlength ⊢
      omega
    · rw [List.cons_append, List.cons_append, filtersOk_cons, List.length_append, List.length_append,
        List.length_replicate, List.drop_append, List.drop_append, List.length_replicate]
      refine ⟨by omega, ?_⟩
      have hpad : (List.replicate (ofBigEndian [high, low] + 1 - rest.length) (0 : UInt8)).drop
          (ofBigEndian [high, low] + 1 - rest.length) = [] :=
        List.drop_eq_nil_of_le (Nat.le_of_eq List.length_replicate)
      rw [hpad, List.nil_append, Nat.sub_self, List.drop_zero]
      exact hok

/-- **Any part of the filters can be completed** but for two bytes alone, which always begin a filter. -/
theorem extends_filters_nil_iff (n : Nat) : Extends FiltersOk n [] ↔ n ≠ 2 := by
  induction n using Nat.strongRecOn with
  | ind n ih =>
    constructor
    · rintro ⟨more, hlength, hok⟩ rfl
      rw [List.length_nil, Nat.zero_add] at hlength
      obtain ⟨high, low, rfl⟩ := List.length_eq_two.mp hlength
      exact absurd (filtersOk_cons.mp hok).1 (Nat.not_lt_zero _)
    · intro hne
      by_cases hshort : n < 2
      · exact ⟨List.replicate n 0, by simp, filtersOk_short (by simpa using hshort)⟩
      · -- a filter without text, or one of two bytes where that would leave two bytes alone
        obtain ⟨size, hsize, hfits, hleft⟩ : ∃ size, size < 256 ∧ size + 3 ≤ n ∧ n - (size + 3) ≠ 2 := by
          by_cases hfive : n = 5
          · exact ⟨2, by omega, by omega, by omega⟩
          · exact ⟨0, by omega, by omega, by omega⟩
        obtain ⟨more, hlength, hok⟩ := (ih (n - (size + 3)) (by omega)).mpr hleft
        have hread : ofBigEndian [0, size.toUInt8] = size := by
          rw [ofBigEndian_choose 0 hsize]
          exact Nat.zero_add size
        refine Extends.of_append [0, size.toUInt8] ?_
        rw [List.nil_append, extends_filter_iff (by simp only [List.length_nil]; omega), hread,
          List.drop_nil]
        exact ⟨hfits, (ih (n - (size + 3)) (by omega)).mpr hleft⟩

/-- **Half a length** can be completed when the rest of the filters has room for the text. -/
theorem extends_filters_one_iff {n : Nat} (high : UInt8) (hn : 1 ≤ n) :
    Extends FiltersOk n [high] ↔ n < 2 ∨ high.toNat * 256 + 3 ≤ n := by
  constructor
  · rintro ⟨more, hlength, hok⟩
    match more, hlength with
    | [], hlength => exact .inl (by simp only [List.length_cons, List.length_nil] at hlength; omega)
    | low :: more, hlength =>
      simp only [List.length_cons, List.length_nil] at hlength
      have hall : Extends FiltersOk n [high, low] :=
        ⟨more, by simp only [List.length_cons, List.length_nil]; omega, hok⟩
      have hfits := ((extends_filter_iff (by simp only [List.length_nil]; omega)).mp hall).1
      rw [ofBigEndian_pair] at hfits
      exact .inr (Nat.le_trans (Nat.add_le_add_right (Nat.le_add_right _ _) 3) hfits)
  · rintro (hshort | hroom)
    · obtain rfl : n = 1 := by omega
      exact ⟨[], rfl, filtersOk_short (by simp)⟩
    · -- a text that does not leave two bytes alone
      obtain ⟨low, hlow, hfits, hleft⟩ : ∃ low, low < 256 ∧ high.toNat * 256 + low + 3 ≤ n ∧
          n - (high.toNat * 256 + low + 3) ≠ 2 := by
        generalize high.toNat * 256 = length at hroom ⊢
        by_cases htwo : n - (length + 3) = 2
        · exact ⟨1, by omega, by omega, by omega⟩
        · exact ⟨0, by omega, by omega, by omega⟩
      refine Extends.of_append [low.toUInt8] ?_
      show Extends FiltersOk n [high, low.toUInt8]
      rw [extends_filter_iff (by simp only [List.length_nil]; omega), ofBigEndian_choose high hlow,
        List.drop_nil]
      exact ⟨hfits, (extends_filters_nil_iff _).mpr hleft⟩

/-- **Filters can begin like this** exactly when they can be completed. -/
theorem filtersFit_iff {n : Nat} {part : List UInt8} (h : part.length ≤ n) :
    filtersFit n part = true ↔ Extends FiltersOk n part := by
  induction hlen : part.length using Nat.strongRecOn generalizing n part with
  | ind k ih =>
    match part, hlen, h with
    | [], _, _ => rw [filtersFit, decide_eq_true_eq, extends_filters_nil_iff]
    | [high], _, h =>
      rw [filtersFit, extends_filters_one_iff high h, Bool.or_eq_true, decide_eq_true_eq,
        decide_eq_true_eq]
    | high :: low :: rest, hlen, h =>
      simp only [List.length_cons] at h hlen
      rw [filtersFit, Bool.and_eq_true, decide_eq_true_eq, extends_filter_iff h]
      refine and_congr_right fun hfits => ?_
      have hdrop := List.length_drop (i := ofBigEndian [high, low] + 1) (l := rest)
      exact ih _ (by omega) (by omega) rfl

/-! ## Bodies -/

def BodyOk (type : MqttPacketType) (header : UInt8) (body : List UInt8) : Prop :=
  (decodeBody type header body).isSome = true

/-- Where anything is good, a part that is not too long can be completed. -/
theorem extends_true {n : Nat} {part : List UInt8} {good : List UInt8 → Prop} (h : part.length ≤ n)
    (hgood : ∀ body, part.length ≤ body.length → body.length = n → part <+: body → good body) :
    Extends good n part := by
  have hlength : part.length + (List.replicate (n - part.length) (0 : UInt8)).length = n := by
    rw [List.length_replicate]
    omega
  refine ⟨_, hlength, hgood _ ?_ ?_ (List.prefix_append ..)⟩
  · exact (List.prefix_append ..).length_le
  · rw [List.length_append, hlength]

/-- A packet identifier that is not zero, and then something good. -/
def IdThen (good : List UInt8 → Prop) (body : List UInt8) : Prop :=
  2 ≤ body.length ∧ wordSoFar body ≠ 0 ∧ good (body.drop 2)

/-- **A packet identifier and what follows it.** -/
theorem extends_idThen_iff {good : List UInt8 → Prop} {n : Nat} {part : List UInt8} :
    Extends (IdThen good) n part ↔
      2 ≤ n ∧ idFits part = true ∧ Extends good (n - 2) (part.drop 2) := by
  match part with
  | [] =>
    constructor
    · rintro ⟨more, hlength, hlong, -, hgood⟩
      simp only [List.nil_append, List.length_nil, Nat.zero_add] at hlength hlong hgood
      refine ⟨by omega, rfl, more.drop 2, ?_, hgood⟩
      simp only [List.drop_nil, List.length_nil, List.length_drop]
      omega
    · rintro ⟨hn, -, more, hlength, hgood⟩
      refine ⟨1 :: 1 :: more, ?_, ?_, ?_, hgood⟩
      · simp only [List.drop_nil, List.length_nil, List.length_cons] at hlength ⊢
        omega
      · exact Nat.le_add_left 2 more.length
      · simp [wordSoFar]
  | [high] =>
    constructor
    · rintro ⟨more, hlength, hlong, -, hgood⟩
      match more, hlong with
      | low :: more, _ =>
        simp only [List.length_cons, List.length_nil] at hlength
        refine ⟨by omega, rfl, more, ?_, hgood⟩
        simp only [List.drop_succ_cons, List.drop_nil, List.length_nil]
        omega
    · rintro ⟨hn, -, more, hlength, hgood⟩
      refine ⟨1 :: more, ?_, ?_, ?_, hgood⟩
      · simp only [List.drop_succ_cons, List.drop_nil, List.length_nil, List.length_cons] at hlength ⊢
        omega
      · exact Nat.le_add_left 2 more.length
      · simp [wordSoFar]
  | high :: low :: rest =>
    have hid : idFits (high :: low :: rest) = true ↔ wordSoFar (high :: low :: rest) ≠ 0 := by
      simp [idFits]
    rw [hid]
    constructor
    · rintro ⟨more, hlength, -, hword, hgood⟩
      simp only [List.length_cons] at hlength
      refine ⟨by omega, hword, more, ?_, hgood⟩
      simp only [List.drop_succ_cons, List.drop_zero]
      omega
    · rintro ⟨hn, hword, more, hlength, hgood⟩
      simp only [List.drop_succ_cons, List.drop_zero] at hlength
      refine ⟨more, ?_, ?_, hword, hgood⟩
      · simp only [List.length_cons]
        omega
      · simp only [List.cons_append, List.length_cons]
        omega

section Bodies

variable {header : UInt8} {body : List UInt8}

theorem wordSoFar_cons (high low : UInt8) (rest : List UInt8) :
    wordSoFar (high :: low :: rest) = ofBigEndian [high, low] := (ofBigEndian_pair high low).symm

theorem bodyOk_puback : BodyOk .puback header body ↔ IdThen (fun _ => True) body := by
  match body with
  | [] | [_] => simp [BodyOk, IdThen, decodeBody]
  | high :: low :: rest =>
    rw [BodyOk, IdThen, wordSoFar_cons, decodeBody]
    by_cases hzero : ofBigEndian [high, low] = 0 <;> simp [hzero]

theorem bodyOk_suback : BodyOk .suback header body ↔ IdThen (· ≠ []) body := by
  match body with
  | [] | [_] => simp [BodyOk, IdThen, decodeBody]
  | high :: low :: rest =>
    rw [BodyOk, IdThen, wordSoFar_cons, decodeBody]
    by_cases hzero : ofBigEndian [high, low] = 0 <;> by_cases hrest : rest = [] <;>
      simp [hzero, hrest]

theorem bodyOk_subscribe : BodyOk .subscribe header body ↔ IdThen FiltersOk body := by
  match body with
  | [] | [_] => simp [BodyOk, IdThen, decodeBody]
  | high :: low :: rest =>
    rw [BodyOk, IdThen, wordSoFar_cons, decodeBody, FiltersOk]
    by_cases hzero : ofBigEndian [high, low] = 0 <;> simp [hzero]

/-- A topic has its bytes, and a packet identifier behind it where one is due. -/
theorem bodyOk_publish : BodyOk .publish header body ↔ header.toNat / 2 % 4 ≤ 1 ∧
    2 + wordSoFar body + 2 * (header.toNat / 2 % 4) ≤ body.length := by
  match body with
  | [] | [_] =>
    simp only [BodyOk, decodeBody, Option.isSome_none, Bool.false_eq_true, List.length_cons,
      List.length_nil, false_iff, not_and]
    omega
  | high :: low :: rest =>
    rw [BodyOk, wordSoFar_cons, decodeBody]
    generalize ofBigEndian [high, low] = size
    have hqos : header.toNat / 2 % 4 < 4 := Nat.mod_lt _ (by decide)
    generalize header.toNat / 2 % 4 = qos at hqos
    have hlength : (high :: low :: rest).length = rest.length + 2 := rfl
    rw [hlength]
    by_cases hmore : qos > 1
    · simp only [if_pos hmore, Option.isSome_none, Bool.false_eq_true, false_iff, not_and]
      omega
    · by_cases hshort : rest.length < size
      · simp only [if_neg hmore, if_pos hshort, Option.isSome_none, Bool.false_eq_true, false_iff,
          not_and]
        omega
      · have hdrop : (rest.drop size).length = rest.length - size := List.length_drop
        by_cases hid : qos > 0
        · simp only [if_neg hmore, if_neg hshort, if_pos hid]
          match htail : rest.drop size with
          | [] | [_] =>
            rw [htail] at hdrop
            simp only [List.length_cons, List.length_nil] at hdrop
            simp only [Option.isSome_none, Bool.false_eq_true, false_iff, not_and]
            omega
          | _ :: _ :: payload =>
            rw [htail] at hdrop
            simp only [List.length_cons] at hdrop
            simp only [Option.isSome_some, true_iff]
            omega
        · simp only [if_neg hmore, if_neg hshort, if_neg hid, Option.isSome_some, true_iff]
          omega

theorem bodyOk_connack : BodyOk .connack header body ↔
    ∃ flags code, body = [flags, code] ∧ flags.toNat ≤ 1 ∧ code.toNat ≤ 5 := by
  match body with
  | [] | [_] | _ :: _ :: _ :: _ => simp [BodyOk, decodeBody]
  | [flags, code] =>
    rw [BodyOk, decodeBody]
    by_cases hwrong : code.toNat > 5 ∨ flags.toNat > 1
    · simp only [if_pos hwrong, Option.isSome_none, Bool.false_eq_true, List.cons.injEq, and_true,
        false_iff, not_exists, not_and]
      rintro _ _ ⟨rfl, rfl⟩ hflags
      omega
    · simp only [if_neg hwrong, Option.isSome_some, true_iff]
      exact ⟨flags, code, rfl, by omega, by omega⟩

/-- More of a body does not make its topic shorter, and zeros leave it as it is. -/
theorem wordSoFar_le_append (part more : List UInt8) : wordSoFar part ≤ wordSoFar (part ++ more) := by
  match part with
  | [] => exact Nat.zero_le _
  | [high] => exact Nat.add_le_add_left (Nat.zero_le _) _
  | high :: low :: rest => exact Nat.le_refl _

theorem wordSoFar_append_zeros (part : List UInt8) (k : Nat) :
    wordSoFar (part ++ List.replicate k 0) = wordSoFar part := by
  match part, k with
  | [], 0 | [], 1 | [], _ + 2 | [_], 0 | [_], _ + 1 | _ :: _ :: _, _ => rfl

/-- **A body can begin like this** exactly when it can be completed. -/
theorem bodyFits_iff {type : MqttPacketType} {n : Nat} {part : List UInt8} (h : part.length ≤ n) :
    bodyFits type header n part = true ↔ Extends (BodyOk type header) n part := by
  have hdrop : (part.drop 2).length = part.length - 2 := List.length_drop
  cases type with
  | pingreq | pingresp | disconnect | connect =>
    simp only [bodyFits, true_iff]
    exact extends_true h fun _ _ _ _ => rfl
  | puback =>
    simp only [bodyFits, Bool.and_eq_true, decide_eq_true_eq, Extends, bodyOk_puback]
    rw [← Extends, extends_idThen_iff]
    refine and_congr_right fun hn => ⟨fun hid => ⟨hid, ?_⟩, fun hid => hid.1⟩
    exact extends_true (by omega) fun _ _ _ _ => trivial
  | suback =>
    simp only [bodyFits, Bool.and_eq_true, decide_eq_true_eq, Extends, bodyOk_suback]
    rw [← Extends, extends_idThen_iff]
    constructor
    · rintro ⟨hn, hid⟩
      refine ⟨by omega, hid, extends_true (by omega) fun body _ hlength _ hnil => ?_⟩
      rw [hnil, List.length_nil] at hlength
      omega
    · rintro ⟨hn, hid, more, hlength, hne⟩
      have hpos := List.length_pos_iff.mpr hne
      rw [List.length_append] at hpos
      exact ⟨by omega, hid⟩
  | subscribe =>
    simp only [bodyFits, Bool.and_eq_true, decide_eq_true_eq, Extends, bodyOk_subscribe, and_assoc]
    rw [← Extends, extends_idThen_iff]
    refine and_congr_right fun hn => and_congr_right fun _ => filtersFit_iff ?_
    omega
  | publish =>
    simp only [bodyFits, Bool.and_eq_true, decide_eq_true_eq, Extends, bodyOk_publish]
    constructor
    · rintro ⟨hqos, hfits⟩
      refine ⟨List.replicate (n - part.length) 0, ?_, hqos, ?_⟩
      · rw [List.length_replicate]
        omega
      · rw [wordSoFar_append_zeros, List.length_append, List.length_replicate]
        omega
    · rintro ⟨more, hlength, hqos, hfits⟩
      have hle := wordSoFar_le_append part more
      rw [List.length_append] at hfits
      exact ⟨hqos, by omega⟩
  | connack =>
    simp only [bodyFits, Bool.and_eq_true, decide_eq_true_eq, Extends, bodyOk_connack]
    match part, h with
    | [], _ =>
      constructor
      · rintro ⟨⟨rfl, -⟩, -⟩
        exact ⟨[0, 0], rfl, 0, 0, rfl, Nat.zero_le _, Nat.zero_le _⟩
      · rintro ⟨more, hlength, flags, code, hmore, -⟩
        rw [List.nil_append] at hmore
        exact ⟨⟨by rw [← hlength, hmore]; rfl, rfl⟩, rfl⟩
    | [flags], _ =>
      constructor
      · rintro ⟨⟨rfl, hflags⟩, -⟩
        exact ⟨[0], rfl, flags, 0, rfl, by simpa using hflags, Nat.zero_le _⟩
      · rintro ⟨more, hlength, flags', code, hmore, hflags, -⟩
        obtain ⟨rfl, rfl⟩ := List.cons.inj hmore
        exact ⟨⟨hlength.symm, by simpa using hflags⟩, rfl⟩
    | [flags, code], _ =>
      constructor
      · rintro ⟨⟨rfl, hflags⟩, hcode⟩
        exact ⟨[], rfl, flags, code, rfl, by simpa using hflags, by simpa using hcode⟩
      · rintro ⟨more, hlength, flags', code', hmore, hflags, hcode⟩
        simp only [List.cons_append, List.nil_append, List.cons.injEq] at hmore
        obtain ⟨rfl, rfl, rfl⟩ := hmore
        exact ⟨⟨hlength.symm, by simpa using hflags⟩, by simpa using hcode⟩
    | _ :: _ :: _ :: rest, h =>
      simp only [List.length_cons] at h
      constructor
      · rintro ⟨⟨rfl, -⟩, -⟩
        omega
      · rintro ⟨more, -, flags, code, hmore, -⟩
        simp at hmore

end Bodies

/-! ## Lengths -/

/-- **A length that is not whole** goes on with what follows. -/
theorem readLength_goes_on {fuel multiplier value index : Nat} {rest : List UInt8}
    (h : readLength fuel multiplier value index rest = none) (hroom : rest.length < fuel)
    (tail : List UInt8) :
    readLength fuel multiplier value index (rest ++ tail) =
      readLength (fuel - rest.length) (multiplier * 128 ^ rest.length)
        (value + lengthSoFar rest * multiplier) (index + rest.length) tail := by
  induction rest generalizing fuel multiplier value index with
  | nil => simp [lengthSoFar]
  | cons byte rest ih =>
    obtain ⟨f, rfl⟩ : ∃ f, fuel = f + 1 := ⟨fuel - 1, by omega⟩
    rw [List.length_cons] at hroom
    rw [readLength] at h
    rw [List.cons_append, readLength, List.length_cons]
    split at h
    · cases h
    · next hmore =>
      have hbyte : byte.toNat < 256 := byte.toNat_lt
      have hlow : byte.toNat - 128 = byte.toNat % 128 := by omega
      have hvalue : value + (byte.toNat % 128 + 128 * lengthSoFar rest) * multiplier =
          value + byte.toNat % 128 * multiplier + lengthSoFar rest * (multiplier * 128) := by
        rw [Nat.add_mul, Nat.add_assoc, Nat.mul_comm multiplier 128, ← Nat.mul_assoc,
          Nat.mul_comm (lengthSoFar rest) 128]
      have hmultiplier : multiplier * 128 ^ (rest.length + 1) = multiplier * 128 * 128 ^ rest.length := by
        rw [pow_succ, Nat.mul_comm (128 ^ rest.length), Nat.mul_assoc]
      rw [if_neg hmore, ih h (by omega), lengthSoFar, hlow, hvalue, hmultiplier,
        Nat.add_sub_add_right, Nat.add_assoc index, Nat.add_comm 1]

/-- Four bytes that all announce another are no length, whatever follows. -/
theorem readLength_of_full {fuel multiplier value index : Nat} {rest : List UInt8}
    (h : readLength fuel multiplier value index rest = none) (hfull : fuel ≤ rest.length)
    (tail : List UInt8) : readLength fuel multiplier value index (rest ++ tail) = none := by
  induction fuel generalizing multiplier value index rest with
  | zero => rfl
  | succ fuel ih =>
    match rest, hfull with
    | byte :: rest, hfull =>
      rw [readLength] at h
      rw [List.cons_append, readLength]
      split at h
      · cases h
      · next hmore =>
        rw [if_neg hmore]
        exact ih h (Nat.le_of_succ_le_succ hfull)

theorem exists_of_readLength {fuel multiplier value index n k : Nat} {l : List UInt8}
    (h : readLength fuel multiplier value index l = some (n, k)) : ∃ m, n = value + multiplier * m := by
  induction fuel generalizing multiplier value index l with
  | zero => cases h
  | succ fuel ih =>
    match l, h with
    | byte :: rest, h =>
      rw [readLength] at h
      split at h
      · cases h
        exact ⟨byte.toNat, by rw [Nat.mul_comm]⟩
      · obtain ⟨m, hm⟩ := ih h
        refine ⟨byte.toNat - 128 + 128 * m, ?_⟩
        rw [hm, Nat.mul_add, ← Nat.mul_assoc, Nat.add_assoc, Nat.mul_comm (byte.toNat - 128)]

theorem readLength_index_le {fuel multiplier value index n k : Nat} {l : List UInt8}
    (h : readLength fuel multiplier value index l = some (n, k)) : k ≤ index + l.length := by
  induction fuel generalizing multiplier value index l with
  | zero => cases h
  | succ fuel ih =>
    match l, h with
    | byte :: rest, h =>
      rw [readLength] at h
      rw [List.length_cons]
      split at h
      · cases h
        omega
      · have hle := ih h
        omega

/-! ## Buffers -/

section Buffers

variable {header : UInt8} {rest : List UInt8} {type : MqttPacketType} {value index : Nat}

/-- A buffer whose type and length are known is decoded by its body, once that is whole. -/
theorem tryDecodePacket_of_readLength (htype : typeByNumber (header.toNat / 16) = some type)
    (hlength : readLength 4 1 0 1 rest = some (value, index)) :
    tryDecodePacket (header :: rest) =
      if (header :: rest).length < index + value then none
      else (decodeBody type header (((header :: rest).drop index).take value)).map
        (·, index + value) := by
  rw [tryDecodePacket, htype]
  simp only [hlength, List.drop_take, Nat.add_sub_cancel_left]

/-- **A buffer with a length** can be completed exactly when its body can. -/
theorem exists_packet_iff (htype : typeByNumber (header.toNat / 16) = some type)
    (hlength : readLength 4 1 0 1 rest = some (value, index)) :
    (∃ more packet n, tryDecodePacket (header :: rest ++ more) = some (packet, n)) ↔
      bodyFits type header value (((header :: rest).drop index).take value) = true := by
  have hindex : index ≤ (header :: rest).length := by
    have hle := readLength_index_le hlength
    rw [List.length_cons]
    omega
  have hpart : (((header :: rest).drop index).take value).length =
      min value ((header :: rest).length - index) := by
    rw [List.length_take, List.length_drop]
  have hdecode : ∀ more, tryDecodePacket (header :: rest ++ more) =
      if (header :: rest ++ more).length < index + value then none
      else (decodeBody type header (((header :: rest ++ more).drop index).take value)).map
        (·, index + value) := fun more =>
    tryDecodePacket_of_readLength htype (readLength_append more hlength)
  have hbody : ∀ more, ((header :: rest ++ more).drop index).take value =
      ((header :: rest).drop index).take value ++
        more.take (value - ((header :: rest).length - index)) := by
    intro more
    rw [List.drop_append_of_le_length hindex, List.take_append, List.length_drop]
  rw [bodyFits_iff (by omega)]
  constructor
  · rintro ⟨more, packet, n, hpacket⟩
    rw [hdecode] at hpacket
    split at hpacket
    · cases hpacket
    · next hwhole =>
      obtain ⟨p, hp, -⟩ := Option.map_eq_some_iff.mp hpacket
      rw [hbody] at hp
      refine ⟨_, ?_, by rw [BodyOk, hp]; rfl⟩
      rw [List.length_append] at hwhole
      rw [hpart, List.length_take]
      omega
  · rintro ⟨more, hmore, hok⟩
    obtain ⟨packet, hpacket⟩ := Option.isSome_iff_exists.mp hok
    have hall : more.take (value - ((header :: rest).length - index)) = more :=
      List.take_of_length_le (by omega)
    refine ⟨more, packet, index + value, ?_⟩
    rw [hdecode, hbody, hall, hpacket, if_neg]
    · rfl
    · rw [List.length_append]
      omega

theorem exists_length (hfits : lengthFits type header rest = true) :
    ∃ last : Nat, last < 128 ∧
      bodyFits type header (lengthSoFar rest + 128 ^ rest.length * last) [] = true := by
  have hpow : 1 ≤ 128 ^ rest.length := Nat.one_le_pow _ _ (by decide)
  cases type with
  | connack =>
    simp only [lengthFits, Bool.or_eq_true, decide_eq_true_eq] at hfits
    rcases hfits with rfl | htwo
    · exact ⟨2, by decide, rfl⟩
    · exact ⟨0, by decide, by rw [htwo]; rfl⟩
  | publish =>
    simp only [lengthFits, decide_eq_true_eq] at hfits
    refine ⟨5, by decide, ?_⟩
    simp only [bodyFits, Bool.and_eq_true, decide_eq_true_eq]
    refine ⟨hfits, ?_⟩
    show 2 + 0 + 2 * (header.toNat / 2 % 4) ≤ _
    omega
  | puback | suback =>
    refine ⟨5, by decide, ?_⟩
    simp only [bodyFits, Bool.and_eq_true, decide_eq_true_eq]
    exact ⟨by omega, rfl⟩
  | subscribe =>
    refine ⟨5, by decide, ?_⟩
    simp only [bodyFits, List.drop_nil, filtersFit, Bool.and_eq_true, decide_eq_true_eq]
    exact ⟨⟨by omega, rfl⟩, by omega⟩
  | pingreq | pingresp | disconnect | connect => exact ⟨0, by decide, rfl⟩

/-- **A buffer without a whole length** can be completed exactly when one more byte is left for the length and
what there is of it fits the type. -/
theorem exists_packet_iff_of_length (htype : typeByNumber (header.toNat / 16) = some type)
    (hlength : readLength 4 1 0 1 rest = none) :
    (∃ more packet n, tryDecodePacket (header :: rest ++ more) = some (packet, n)) ↔
      rest.length < 4 ∧ lengthFits type header rest = true := by
  constructor
  · rintro ⟨more, packet, n, hpacket⟩
    obtain ⟨header', rest', type', value, index, hcons, htype', hread, hn, hle, hbody⟩ :=
      exists_of_tryDecodePacket hpacket
    obtain ⟨rfl, hrest⟩ := List.cons.inj hcons
    obtain rfl := Option.some.inj (htype.symm.trans htype')
    have hrest : rest ++ more = rest' := hrest
    rw [← hrest] at hread
    have hroom : rest.length < 4 := by
      by_contra hfull
      rw [readLength_of_full hlength (Nat.not_lt.mp hfull)] at hread
      cases hread
    refine ⟨hroom, ?_⟩
    have hok : BodyOk type header _ := Option.isSome_iff_exists.mpr ⟨packet, hbody⟩
    cases type with
    | connack =>
      obtain ⟨flags, code, htwo, -⟩ := bodyOk_connack.mp hok
      have hvalue : value = 2 := by
        have hsize := congrArg List.length htwo
        rw [List.length_drop, List.length_take, Nat.min_eq_left hle, hn,
          Nat.add_sub_cancel_left] at hsize
        exact hsize
      rw [readLength_goes_on hlength hroom, Nat.mul_one, Nat.zero_add, Nat.one_mul, hvalue] at hread
      obtain ⟨m, hm⟩ := exists_of_readLength hread
      simp only [lengthFits, Bool.or_eq_true, decide_eq_true_eq]
      by_cases hnil : rest = []
      · exact .inl hnil
      · -- what follows counts at least 128
        have hpow : 128 ^ 1 ≤ 128 ^ rest.length :=
          Nat.pow_le_pow_right (by decide) (List.length_pos_iff.mpr hnil)
        have hm0 : m = 0 := by
          by_contra hpos
          have hmul := Nat.le_mul_of_pos_right (128 ^ rest.length) (Nat.pos_of_ne_zero hpos)
          omega
        rw [hm0, Nat.mul_zero, Nat.add_zero] at hm
        exact .inr hm.symm
    | publish =>
      simp only [lengthFits, decide_eq_true_eq]
      exact (bodyOk_publish.mp hok).1
    | puback | subscribe | suback | pingreq | pingresp | disconnect | connect => rfl
  · rintro ⟨hroom, hfits⟩
    obtain ⟨last, hlast, hbody⟩ := exists_length hfits
    have hread : readLength 4 1 0 1 (rest ++ [last.toUInt8]) =
        some (lengthSoFar rest + 128 ^ rest.length * last, 1 + rest.length + 1) := by
      obtain ⟨f, hf⟩ : ∃ f, 4 - rest.length = f + 1 := ⟨3 - rest.length, by omega⟩
      have hbyte : last.toUInt8.toNat = last := by
        rw [UInt8.toNat_ofNat', Nat.mod_eq_of_lt (by omega)]
      rw [readLength_goes_on hlength hroom, hf, readLength, hbyte, if_pos hlast, Nat.one_mul,
        Nat.mul_one, Nat.zero_add, Nat.mul_comm last]
    have hnone : ((header :: (rest ++ [last.toUInt8])).drop (1 + rest.length + 1)).take
        (lengthSoFar rest + 128 ^ rest.length * last) = [] := by
      rw [List.drop_eq_nil_of_le, List.take_nil]
      rw [List.length_cons, List.length_append, List.length_singleton]
      omega
    obtain ⟨more, packet, n, hpacket⟩ := (exists_packet_iff htype hread).mpr (by
      rw [hnone]
      exact hbody)
    refine ⟨last.toUInt8 :: more, packet, n, ?_⟩
    rw [List.cons_append, List.append_assoc] at hpacket
    exact hpacket

/-- **Which buffers can be completed.** -/
theorem canComplete_iff (buffer : List UInt8) : canComplete buffer = true ↔
    ∃ more packet n, tryDecodePacket (buffer ++ more) = some (packet, n) := by
  match buffer with
  | [] => exact ⟨fun _ => ⟨[0xD0, 0], { type := .pingresp }, 2, by decide⟩, fun _ => rfl⟩
  | header :: rest =>
    rw [canComplete]
    cases htype : typeByNumber (header.toNat / 16) with
    | none =>
      simp only [Bool.false_eq_true, false_iff, not_exists]
      intro more packet n hpacket
      rw [List.cons_append, tryDecodePacket, htype] at hpacket
      cases hpacket
    | some type =>
      cases hlength : readLength 4 1 0 1 rest with
      | none =>
        simp only [Bool.and_eq_true, decide_eq_true_eq]
        exact (exists_packet_iff_of_length htype hlength).symm
      | some read => exact (exists_packet_iff htype hlength).symm

end Buffers

theorem readLength_take {fuel multiplier value index n k : Nat} {l : List UInt8}
    (h : readLength fuel multiplier value index l = some (n, k)) {j : Nat} (hj : k ≤ index + j) :
    readLength fuel multiplier value index (l.take j) = some (n, k) := by
  induction fuel generalizing multiplier value index l j with
  | zero => cases h
  | succ fuel ih =>
    match l, h with
    | byte :: rest, h =>
      have hpos := lt_of_readLength h
      obtain ⟨i, rfl⟩ : ∃ i, j = i + 1 := ⟨j - 1, by omega⟩
      rw [readLength] at h
      rw [List.take_succ_cons, readLength]
      split at h
      · next hlast => rw [if_pos hlast, h]
      · next hmore =>
        rw [if_neg hmore]
        exact ih h (by omega)

theorem tryDecodePacket_take {buffer : List UInt8} {packet : MqttPacket} {n m : Nat}
    (h : tryDecodePacket buffer = some (packet, n)) (hm : n ≤ m) :
    tryDecodePacket (buffer.take m) = some (packet, n) := by
  obtain ⟨header, rest, type, value, index, rfl, htype, hlength, rfl, hle, hbody⟩ :=
    exists_of_tryDecodePacket h
  have hpos := lt_of_readLength hlength
  obtain ⟨k, rfl⟩ : ∃ k, m = k + 1 := ⟨m - 1, by omega⟩
  have hread := readLength_take hlength (j := k) (by omega)
  have hslice : (((header :: rest).take (k + 1)).take (index + value)).drop index =
      ((header :: rest).take (index + value)).drop index := by
    rw [List.take_take, Nat.min_eq_left hm]
  rw [List.take_succ_cons] at hslice ⊢
  have hlong : ¬ (header :: rest.take k).length < index + value := by
    rw [List.length_cons] at hle ⊢
    rw [List.length_take]
    omega
  rw [tryDecodePacket, htype]
  simp only [hread, if_neg hlong, hslice, hbody, Option.map_some]

/-- **Where the decoder never stalls**: it waits only for packets that are on their way, and takes or has no whole
one before it, exactly for buffers that can be completed. -/
theorem neverStalls_iff (buffer : List UInt8) : NeverStalls buffer ↔ canComplete buffer = true := by
  rw [canComplete_iff]
  constructor
  · intro h
    cases hdecode : tryDecodePacket buffer with
    | some found => exact ⟨[], found.1, found.2, by rw [List.append_nil, hdecode]⟩
    | none =>
      obtain ⟨more, packet, -, hpacket⟩ := h.coming hdecode
      exact ⟨more, packet, _, hpacket⟩
  · rintro ⟨more, packet, n, hpacket⟩
    have hwhole : n ≤ buffer.length → tryDecodePacket buffer = some (packet, n) := by
      intro hle
      have htake := tryDecodePacket_take hpacket hle
      rwa [List.take_left] at htake
    have hn : n ≤ (buffer ++ more).length := by
      obtain ⟨_, _, _, _, _, -, -, -, -, hle, -⟩ := exists_of_tryDecodePacket hpacket
      exact hle
    refine ⟨fun hnone => ?_, fun ⟨header, rest, value, index, hbuffer, hlength, hle⟩ hnone => ?_⟩
    · have hshort : buffer.length < n := by
        by_contra hlong
        rw [hwhole (Nat.not_lt.mp hlong)] at hnone
        cases hnone
      rw [List.length_append] at hn
      have hsize : (buffer ++ more.take (n - buffer.length)).length = n := by
        rw [List.length_append, List.length_take]
        omega
      refine ⟨more.take (n - buffer.length), packet, fun hnil => ?_, ?_⟩
      · rw [hnil, List.append_nil] at hsize
        omega
      · have htake := tryDecodePacket_take hpacket (Nat.le_refl n)
        rw [List.take_append, List.take_of_length_le (Nat.le_of_lt hshort)] at htake
        rw [htake, hsize]
    · subst hbuffer
      obtain ⟨header', rest', type, value', index', hcons, -, hlength', rfl, -, -⟩ :=
        exists_of_tryDecodePacket hpacket
      obtain ⟨rfl, hrest⟩ := List.cons.inj hcons
      have hrest : rest ++ more = rest' := hrest
      rw [← hrest, readLength_append more hlength] at hlength'
      cases hlength'
      rw [hwhole hle] at hnone
      cases hnone

/-- **A buffer that cannot be completed is never taken**: whatever arrives behind it, nothing is decoded any
more. -/
theorem drain_of_not_canComplete {buffer : List UInt8} (h : canComplete buffer = false)
    (more : List UInt8) : mqttDecoder.drain (buffer ++ more) = ⟨[], buffer ++ more, none⟩ := by
  apply mqttDecoder.drain_of_incomplete
  have hnone : tryDecodePacket (buffer ++ more) = none := by
    cases hdecode : tryDecodePacket (buffer ++ more) with
    | none => rfl
    | some found =>
      have hcan := (canComplete_iff buffer).mpr ⟨more, found.1, found.2, hdecode⟩
      rw [h] at hcan
      cases hcan
  simp only [mqttDecoder, hnone]

/-- An answer to an unsubscription is whole, and is never taken; and nothing is decoded behind it. -/
theorem not_neverStalls :
    WholePacket [0xB0, 0x02, 0x00, 0x01] ∧ tryDecodePacket [0xB0, 0x02, 0x00, 0x01] = none ∧
      ¬ NeverStalls [0xB0, 0x02, 0x00, 0x01] ∧
      ∀ more, (mqttDecoder.drain ([0xB0, 0x02, 0x00, 0x01] ++ more)).packets = [] := by
  have hwhole : WholePacket [0xB0, 0x02, 0x00, 0x01] := ⟨0xB0, _, 2, 2, rfl, rfl, by decide⟩
  have hnone : tryDecodePacket [0xB0, 0x02, 0x00, 0x01] = none := rfl
  refine ⟨hwhole, hnone, fun h => h.reported hwhole hnone, fun more => ?_⟩
  rw [drain_of_not_canComplete rfl more]

end Pinout.Mqtt
