import Pinout.Foundation.Utf16

/-! # UTF-8

Code points as UTF-16 units and as UTF-8 bytes. `TextDecoder` reads bytes one at a time: its state
between two bytes is all that one chunk of a stream hands to the next, so decoding a stream does not
depend on how it is cut (`decode_append`). What `encodeUtf8` writes for a well-formed string that does
not start with a byte order mark is read back as that string (`decode_encodeUtf8`). -/

namespace Pinout.Foundation

/-! ## Code points -/

/-- `U+FFFD`, which stands for what is no text. -/
def replacementCharacter : Nat := 0xFFFD

def byteOrderMark : Nat := 0xFEFF

/-- The UTF-16 units of a code point; a number that is none is replaced. -/
def codePointUnits (n : Nat) : JsString :=
  if n < 0x10000 then [n.toUInt16]
  else if n < 0x110000 then
    [(0xD800 + (n - 0x10000) / 0x400).toUInt16, (0xDC00 + (n - 0x10000) % 0x400).toUInt16]
  else [0xFFFD]

def pairValue (u v : UInt16) : Nat := 0x10000 + (u.toNat - 0xD800) * 0x400 + (v.toNat - 0xDC00)

/-- The code points of a string; lone surrogates are replaced. -/
def codePoints : JsString → List Nat
  | [] => []
  | [u] => [if isLead u || isTrail u then replacementCharacter else u.toNat]
  | u :: v :: rest =>
    if isLead u && isTrail v then pairValue u v :: codePoints rest
    else (if isLead u || isTrail u then replacementCharacter else u.toNat) :: codePoints (v :: rest)

def IsScalar (n : Nat) : Prop := n < 0xD800 ∨ (0xDFFF < n ∧ n < 0x110000)

def WellFormed (s : JsString) : Prop := ∃ ns : List Nat, (∀ n ∈ ns, IsScalar n) ∧
  s = ns.flatMap codePointUnits

theorem WellFormed.append {s t : JsString} (hs : WellFormed s) (ht : WellFormed t) :
    WellFormed (s ++ t) := by
  obtain ⟨ns, hns, rfl⟩ := hs
  obtain ⟨ms, hms, rfl⟩ := ht
  refine ⟨ns ++ ms, fun n hn => ?_, List.flatMap_append.symm⟩
  rcases List.mem_append.mp hn with hn | hn
  · exact hns n hn
  · exact hms n hn

theorem toNat_toUInt16 {n : Nat} (h : n < 0x10000) : n.toUInt16.toNat = n := by
  rw [Nat.toUInt16, UInt16.toNat_ofNat']
  exact Nat.mod_eq_of_lt h

theorem toNat_toUInt8 {n : Nat} (h : n < 0x100) : n.toUInt8.toNat = n := by
  rw [Nat.toUInt8, UInt8.toNat_ofNat']
  exact Nat.mod_eq_of_lt h

theorem wellFormed_of_forall_lt {s : JsString} (h : ∀ u ∈ s, u.toNat < 0xD800) : WellFormed s := by
  refine ⟨s.map UInt16.toNat, fun n hn => ?_, ?_⟩
  · obtain ⟨u, hu, rfl⟩ := List.mem_map.mp hn
    exact Or.inl (h u hu)
  · induction s with
    | nil => rfl
    | cons u s ih =>
      have hu : codePointUnits u.toNat = [u] := by
        have hlt := u.toNat_lt
        rw [codePointUnits, if_pos (by omega)]
        simp
      rw [List.map_cons, List.flatMap_cons, hu,
        ← ih fun v hv => h v (List.mem_cons_of_mem u hv)]
      rfl

/-- The number of a pair whose units hold its quotient and its remainder. -/
theorem pairValue_eq {n : Nat} (hn : 0x10000 ≤ n) {u v : UInt16}
    (hu : u.toNat = 0xD800 + (n - 0x10000) / 0x400)
    (hv : v.toNat = 0xDC00 + (n - 0x10000) % 0x400) : pairValue u v = n := by
  unfold pairValue
  rw [hu, hv]
  omega

/-- The units of a scalar value start with its own code, or are a surrogate pair. -/
theorem codePointUnits_cases {n : Nat} (h : IsScalar n) :
    (∃ u : UInt16, codePointUnits n = [u] ∧ u.toNat = n ∧ isLead u = false ∧ isTrail u = false) ∨
      ∃ u v : UInt16, codePointUnits n = [u, v] ∧ isLead u = true ∧ isTrail v = true ∧
        pairValue u v = n := by
  unfold codePointUnits
  by_cases hsmall : n < 0x10000
  · rw [if_pos hsmall]
    have hu := toNat_toUInt16 hsmall
    refine Or.inl ⟨_, rfl, hu, ?_, ?_⟩
    · rw [isLead, hu]
      rcases h with h | h <;> simp <;> omega
    · rw [isTrail, hu]
      rcases h with h | h <;> simp <;> omega
  · have hlarge : n < 0x110000 := by
      rcases h with h | h <;> omega
    rw [if_neg hsmall, if_pos hlarge]
    have hu : (0xD800 + (n - 0x10000) / 0x400).toUInt16.toNat = 0xD800 + (n - 0x10000) / 0x400 :=
      toNat_toUInt16 (by omega)
    have hv : (0xDC00 + (n - 0x10000) % 0x400).toUInt16.toNat = 0xDC00 + (n - 0x10000) % 0x400 :=
      toNat_toUInt16 (by omega)
    refine Or.inr ⟨(0xD800 + (n - 0x10000) / 0x400).toUInt16,
      (0xDC00 + (n - 0x10000) % 0x400).toUInt16, rfl, ?_, ?_, ?_⟩
    · rw [isLead, hu]
      simp
      omega
    · rw [isTrail, hv]
      simp
      omega
    · exact pairValue_eq (by omega) hu hv

/-- The code points of the units of scalar values are those values. -/
theorem codePoints_flatMap {ns : List Nat} (h : ∀ n ∈ ns, IsScalar n) :
    codePoints (ns.flatMap codePointUnits) = ns := by
  induction ns with
  | nil => rfl
  | cons n ns ih =>
    have ih := ih fun m hm => h m (List.mem_cons_of_mem n hm)
    rw [List.flatMap_cons]
    rcases codePointUnits_cases (h n List.mem_cons_self) with
      ⟨u, hunits, hu, hlead, htrail⟩ | ⟨u, v, hunits, hlead, htrail, hpair⟩
    · rw [hunits]
      cases hrest : ns.flatMap codePointUnits with
      | nil =>
        rw [hrest] at ih
        rw [List.singleton_append, codePoints, hlead, htrail]
        simp [hu, ← ih, codePoints]
      | cons w rest =>
        rw [hrest] at ih
        rw [List.singleton_append, codePoints, hlead, htrail, ih]
        simp [hu]
    · rw [hunits]
      show codePoints (u :: v :: ns.flatMap codePointUnits) = n :: ns
      rw [codePoints, hlead, htrail, ih, hpair]
      rfl

/-! ## Encoding -/

/-- The UTF-8 bytes of a code point, as numbers. -/
def codePointBytes (n : Nat) : List Nat :=
  if n < 0x80 then [n]
  else if n < 0x800 then [0xC0 + n / 0x40, 0x80 + n % 0x40]
  else if n < 0x10000 then [0xE0 + n / 0x1000, 0x80 + n / 0x40 % 0x40, 0x80 + n % 0x40]
  else [0xF0 + n / 0x40000, 0x80 + n / 0x1000 % 0x40, 0x80 + n / 0x40 % 0x40, 0x80 + n % 0x40]

theorem lt_of_mem_codePointBytes {n b : Nat} (h : IsScalar n) (hb : b ∈ codePointBytes n) :
    b < 0x100 := by
  have hn : n < 0x110000 := by rcases h with h | h <;> omega
  unfold codePointBytes at hb
  split at hb
  · simp only [List.mem_singleton] at hb
    omega
  · split at hb
    · simp only [List.mem_cons, List.not_mem_nil, or_false] at hb
      omega
    · split at hb
      · simp only [List.mem_cons, List.not_mem_nil, or_false] at hb
        omega
      · simp only [List.mem_cons, List.not_mem_nil, or_false] at hb
        omega

/-- `TextEncoder.encode`. -/
def encodeUtf8 (s : JsString) : List UInt8 :=
  ((codePoints s).flatMap codePointBytes).map Nat.toUInt8

/-- The code points of a string are scalar values, and the basic ones are units of it. -/
theorem isScalar_of_mem_codePoints {s : JsString} {n : Nat} (h : n ∈ codePoints s) :
    IsScalar n ∧ (n < 0x80 → n.toUInt16 ∈ s) := by
  have hunit : ∀ u : UInt16, IsScalar (if isLead u || isTrail u then replacementCharacter else u.toNat) ∧
      ((if isLead u || isTrail u then replacementCharacter else u.toNat) < 0x80 →
        (if isLead u || isTrail u then replacementCharacter else u.toNat).toUInt16 = u) := by
    intro u
    have hlt := u.toNat_lt
    by_cases hu : isLead u || isTrail u
    · rw [if_pos hu]
      exact ⟨.inr (by decide), fun h => absurd h (by decide)⟩
    · rw [if_neg hu]
      refine ⟨?_, fun _ => UInt16.ofNat_toNat⟩
      simp only [isLead, isTrail, Bool.or_eq_true, decide_eq_true_eq] at hu
      unfold IsScalar
      omega
  induction s using codePoints.induct with
  | case1 => cases h
  | case2 u =>
    rw [codePoints, List.mem_singleton] at h
    obtain ⟨hscalar, hbasic⟩ := hunit u
    rw [h]
    exact ⟨hscalar, fun hlt => List.mem_singleton.mpr (hbasic hlt)⟩
  | case3 u v rest hpair ih =>
    rw [codePoints, if_pos hpair] at h
    rcases List.mem_cons.mp h with hn | h
    · have hbounds : 0x10000 ≤ n ∧ n < 0x110000 := by
        rw [hn]
        simp only [isLead, isTrail, Bool.and_eq_true, decide_eq_true_eq] at hpair
        unfold pairValue
        omega
      exact ⟨.inr (by omega), fun hlt => by omega⟩
    · obtain ⟨hscalar, hbasic⟩ := ih h
      exact ⟨hscalar, fun hlt => List.mem_cons_of_mem u (List.mem_cons_of_mem v (hbasic hlt))⟩
  | case4 u v rest hpair ih =>
    rw [codePoints, if_neg hpair] at h
    rcases List.mem_cons.mp h with rfl | h
    · obtain ⟨hscalar, hbasic⟩ := hunit u
      exact ⟨hscalar, fun hlt => by rw [hbasic hlt]; exact List.mem_cons_self⟩
    · obtain ⟨hscalar, hbasic⟩ := ih h
      exact ⟨hscalar, fun hlt => List.mem_cons_of_mem u (hbasic hlt)⟩

/-- A basic character occurs in an encoding only when it occurs in the text. -/
theorem toUInt8_notMem_encodeUtf8 {s : JsString} {u : UInt16} (hu : u.toNat < 0x80) (hnot : u ∉ s) :
    u.toNat.toUInt8 ∉ encodeUtf8 s := by
  rw [encodeUtf8]
  intro hmem
  obtain ⟨b, hb, hbu⟩ := List.mem_map.mp hmem
  obtain ⟨n, hn, hbn⟩ := List.mem_flatMap.mp hb
  obtain ⟨hscalar, hbasic⟩ := isScalar_of_mem_codePoints hn
  have hb : b = u.toNat := by
    have hlt := lt_of_mem_codePointBytes hscalar hbn
    rw [← toNat_toUInt8 hlt, hbu, toNat_toUInt8 (by omega)]
  -- the bytes of other code points are not basic
  have hsame : n = u.toNat := by
    unfold codePointBytes at hbn
    split at hbn
    · rw [← hb]
      exact (List.mem_singleton.mp hbn).symm
    · split at hbn
      · simp only [List.mem_cons, List.not_mem_nil, or_false] at hbn
        omega
      · split at hbn
        · simp only [List.mem_cons, List.not_mem_nil, or_false] at hbn
          omega
        · simp only [List.mem_cons, List.not_mem_nil, or_false] at hbn
          omega
  have hin := hbasic (by omega)
  rw [hsame] at hin
  exact hnot (UInt16.ofNat_toNat (x := u) ▸ hin)

theorem codePoints_append_basic (s : JsString) {u : UInt16} (hu : u.toNat < 0x80) :
    codePoints (s ++ [u]) = codePoints s ++ [u.toNat] := by
  have hlead : isLead u = false := decide_eq_false (by omega)
  have htrail : isTrail u = false := decide_eq_false (by omega)
  induction s using codePoints.induct with
  | case1 => simp [codePoints, hlead, htrail]
  | case2 v => simp [codePoints, hlead, htrail]
  | case3 v w rest hpair ih =>
    rw [List.cons_append, List.cons_append, codePoints, if_pos hpair, codePoints, if_pos hpair, ih]
    rfl
  | case4 v w rest hpair ih =>
    rw [List.cons_append] at ih ⊢
    rw [List.cons_append, codePoints, if_neg hpair, codePoints, if_neg hpair, ih]
    rfl

theorem encodeUtf8_append_basic (s : JsString) {u : UInt16} (hu : u.toNat < 0x80) :
    encodeUtf8 (s ++ [u]) = encodeUtf8 s ++ [u.toNat.toUInt8] := by
  rw [encodeUtf8, codePoints_append_basic s hu, List.flatMap_append, List.map_append, encodeUtf8]
  simp [codePointBytes, hu]

/-! ## Decoding -/

structure Utf8State where
  codePoint : Nat := 0
  bytesSeen : Nat := 0
  /-- Continuation bytes the code point has; none between code points. -/
  bytesNeeded : Nat := 0
  lowerBoundary : Nat := 0x80
  upperBoundary : Nat := 0xBF
  deriving DecidableEq

namespace Utf8State

/-- The first byte of a code point: the state after it and the code points it completes. -/
def lead (byte : Nat) : Utf8State × List Nat :=
  if byte ≤ 0x7F then ({}, [byte])
  else if 0xC2 ≤ byte ∧ byte ≤ 0xDF then ({ bytesNeeded := 1, codePoint := byte % 0x20 }, [])
  else if 0xE0 ≤ byte ∧ byte ≤ 0xEF then
    ({ bytesNeeded := 2, codePoint := byte % 0x10
       lowerBoundary := if byte = 0xE0 then 0xA0 else 0x80
       upperBoundary := if byte = 0xED then 0x9F else 0xBF }, [])
  else if 0xF0 ≤ byte ∧ byte ≤ 0xF4 then
    ({ bytesNeeded := 3, codePoint := byte % 0x8
       lowerBoundary := if byte = 0xF0 then 0x90 else 0x80
       upperBoundary := if byte = 0xF4 then 0x8F else 0xBF }, [])
  else ({}, [replacementCharacter])

/-- One byte. A byte that cannot go on ends the code point, which is replaced, and starts another. -/
def next (s : Utf8State) (byte : Nat) : Utf8State × List Nat :=
  if s.bytesNeeded = 0 then lead byte
  else if byte < s.lowerBoundary ∨ s.upperBoundary < byte then
    ((lead byte).1, replacementCharacter :: (lead byte).2)
  else if s.bytesSeen + 1 = s.bytesNeeded then ({}, [s.codePoint * 0x40 + byte % 0x40])
  else
    ({ codePoint := s.codePoint * 0x40 + byte % 0x40
       bytesSeen := s.bytesSeen + 1
       bytesNeeded := s.bytesNeeded }, [])

def read (s : Utf8State) : List Nat → Utf8State × List Nat
  | [] => (s, [])
  | byte :: bytes =>
    (((s.next byte).1.read bytes).1, (s.next byte).2 ++ ((s.next byte).1.read bytes).2)

theorem read_append (s : Utf8State) (as bs : List Nat) :
    s.read (as ++ bs) = (((s.read as).1.read bs).1, (s.read as).2 ++ ((s.read as).1.read bs).2) := by
  induction as generalizing s with
  | nil => rfl
  | cons a as ih => simp only [List.cons_append, read, ih, List.append_assoc]

theorem read_codePointBytes {n : Nat} (h : IsScalar n) :
    read {} (codePointBytes n) = ({}, [n]) := by
  unfold codePointBytes
  split
  · next hn =>
    have : n ≤ 0x7F := by omega
    simp [read, next, lead, this]
  · split
    · -- Two bytes.
      have h1 : ¬ 0xC0 + n / 0x40 ≤ 0x7F := by omega
      have h2 : 0xC2 ≤ 0xC0 + n / 0x40 ∧ 0xC0 + n / 0x40 ≤ 0xDF := by omega
      have h3 : ¬ (0x80 + n % 0x40 < 0x80 ∨ 0xBF < 0x80 + n % 0x40) := by omega
      have hvalue : (0xC0 + n / 0x40) % 0x20 * 0x40 + (0x80 + n % 0x40) % 0x40 = n := by omega
      simp only [read, next, lead, if_neg h1, if_pos h2, if_neg h3, if_true, reduceIte,
        Nat.one_ne_zero, Nat.zero_add, List.append_nil, List.nil_append, hvalue]
    · split
      · -- Three bytes: the first continuation byte excludes short forms and surrogates.
        have h1 : ¬ 0xE0 + n / 0x1000 ≤ 0x7F := by omega
        have h2 : ¬ (0xC2 ≤ 0xE0 + n / 0x1000 ∧ 0xE0 + n / 0x1000 ≤ 0xDF) := by omega
        have h3 : 0xE0 ≤ 0xE0 + n / 0x1000 ∧ 0xE0 + n / 0x1000 ≤ 0xEF := by omega
        have h4 : ¬ (0x80 + n / 0x40 % 0x40 < (if 0xE0 + n / 0x1000 = 0xE0 then 0xA0 else 0x80) ∨
            (if 0xE0 + n / 0x1000 = 0xED then 0x9F else 0xBF) < 0x80 + n / 0x40 % 0x40) := by
          rcases h with h | h <;> split <;> split <;> omega
        have h5 : ¬ (0x80 + n % 0x40 < 0x80 ∨ 0xBF < 0x80 + n % 0x40) := by omega
        have hvalue : ((0xE0 + n / 0x1000) % 0x10 * 0x40 + (0x80 + n / 0x40 % 0x40) % 0x40) * 0x40 +
            (0x80 + n % 0x40) % 0x40 = n := by omega
        have hseen : ¬ (0 + 1 = 2) := by omega
        simp only [read, next, lead, if_neg h1, if_neg h2, if_pos h3, if_neg h4, if_neg h5, reduceIte,
          if_neg hseen, OfNat.ofNat_ne_zero, Nat.zero_add, Nat.reduceAdd, List.append_nil,
          List.nil_append, hvalue]
      · -- Four bytes: the first continuation byte excludes short forms and what is beyond the last.
        have hn : n < 0x110000 := by rcases h with h | h <;> omega
        have h1 : ¬ 0xF0 + n / 0x40000 ≤ 0x7F := by omega
        have h2 : ¬ (0xC2 ≤ 0xF0 + n / 0x40000 ∧ 0xF0 + n / 0x40000 ≤ 0xDF) := by omega
        have h3 : ¬ (0xE0 ≤ 0xF0 + n / 0x40000 ∧ 0xF0 + n / 0x40000 ≤ 0xEF) := by omega
        have h4 : 0xF0 ≤ 0xF0 + n / 0x40000 ∧ 0xF0 + n / 0x40000 ≤ 0xF4 := by omega
        have h5 : ¬ (0x80 + n / 0x1000 % 0x40 < (if 0xF0 + n / 0x40000 = 0xF0 then 0x90 else 0x80) ∨
            (if 0xF0 + n / 0x40000 = 0xF4 then 0x8F else 0xBF) < 0x80 + n / 0x1000 % 0x40) := by
          split <;> split <;> omega
        have h6 : ¬ (0x80 + n / 0x40 % 0x40 < 0x80 ∨ 0xBF < 0x80 + n / 0x40 % 0x40) := by omega
        have h7 : ¬ (0x80 + n % 0x40 < 0x80 ∨ 0xBF < 0x80 + n % 0x40) := by omega
        have hvalue : (((0xF0 + n / 0x40000) % 0x8 * 0x40 + (0x80 + n / 0x1000 % 0x40) % 0x40) * 0x40 +
            (0x80 + n / 0x40 % 0x40) % 0x40) * 0x40 + (0x80 + n % 0x40) % 0x40 = n := by omega
        have hseen : ¬ (0 + 1 = 3) := by omega
        have hseen' : ¬ (1 + 1 = 3) := by omega
        simp only [read, next, lead, if_neg h1, if_neg h2, if_neg h3, if_pos h4, if_neg h5, if_neg h6,
          if_neg h7, reduceIte, if_neg hseen, if_neg hseen', OfNat.ofNat_ne_zero, Nat.zero_add,
          Nat.reduceAdd, List.append_nil, List.nil_append, hvalue]

theorem read_flatMap {ns : List Nat} (h : ∀ n ∈ ns, IsScalar n) :
    read {} (ns.flatMap codePointBytes) = ({}, ns) := by
  induction ns with
  | nil => rfl
  | cons n ns ih =>
    rw [List.flatMap_cons, read_append, read_codePointBytes (h n List.mem_cons_self),
      ih fun m hm => h m (List.mem_cons_of_mem n hm)]
    rfl

end Utf8State

/-- `TextDecoder` for UTF-8, in a stream. -/
structure TextDecoder where
  state : Utf8State := {}
  /-- Whether a code point, or the byte order mark, has been seen. -/
  bomSeen : Bool := false
  deriving DecidableEq

namespace TextDecoder

/-- Drop a byte order mark at the start of the stream. -/
def serialize (bomSeen : Bool) : List Nat → List Nat
  | [] => []
  | n :: ns => if bomSeen = false ∧ n = byteOrderMark then ns else n :: ns

/-- One byte: the decoder after it and the text it completes. -/
def byte (d : TextDecoder) (b : UInt8) : TextDecoder × JsString :=
  ({ state := (d.state.next b.toNat).1
     bomSeen := d.bomSeen || !(d.state.next b.toNat).2.isEmpty },
    (serialize d.bomSeen (d.state.next b.toNat).2).flatMap codePointUnits)

/-- `decode(chunk, { stream: true })`. -/
def decode (d : TextDecoder) : List UInt8 → TextDecoder × JsString
  | [] => (d, [])
  | b :: bytes => (((d.byte b).1.decode bytes).1, (d.byte b).2 ++ ((d.byte b).1.decode bytes).2)

/-- `decode()` at the end of the stream: a code point that is not complete is replaced. -/
def flush (d : TextDecoder) : JsString :=
  if d.state.bytesNeeded = 0 then [] else codePointUnits replacementCharacter

/-- **Decoding does not depend on the cut.** -/
theorem decode_append (d : TextDecoder) (as bs : List UInt8) :
    d.decode (as ++ bs) =
      (((d.decode as).1.decode bs).1, (d.decode as).2 ++ ((d.decode as).1.decode bs).2) := by
  induction as generalizing d with
  | nil => rfl
  | cons a as ih => simp only [List.cons_append, decode, ih, List.append_assoc]

theorem serialize_append (seen : Bool) (ns ms : List Nat) :
    serialize seen (ns ++ ms) = serialize seen ns ++ serialize (seen || !ns.isEmpty) ms := by
  cases ns with
  | nil => simp [serialize]
  | cons n ns =>
    have htrue : serialize true ms = ms := by cases ms <;> simp [serialize]
    rw [List.isEmpty_cons, Bool.not_false, Bool.or_true, htrue, List.cons_append, serialize, serialize]
    split <;> rfl

/-- A decoder passes on what its state reads, but for a byte order mark at the start. -/
theorem decode_eq (d : TextDecoder) (bytes : List UInt8) :
    d.decode bytes =
      ({ state := (d.state.read (bytes.map UInt8.toNat)).1
         bomSeen := d.bomSeen || !(d.state.read (bytes.map UInt8.toNat)).2.isEmpty },
        (serialize d.bomSeen (d.state.read (bytes.map UInt8.toNat)).2).flatMap codePointUnits) := by
  induction bytes generalizing d with
  | nil => simp [decode, Utf8State.read, serialize]
  | cons b bytes ih =>
    have hempty : ∀ ns ms : List Nat, (!(ns ++ ms).isEmpty) = (!ns.isEmpty || !ms.isEmpty) := by
      intro ns ms
      cases ns <;> rfl
    simp only [decode, ih, byte, List.map_cons, Utf8State.read, serialize_append, List.flatMap_append,
      hempty, Bool.or_assoc]

/-- **Round trip in a stream.** A decoder that is between two code points reads a well-formed string back
from the bytes it is written as, unless the string starts with a byte order mark, and is between two code
points after it. -/
theorem decode_encodeUtf8_of_ready {d : TextDecoder} {s : JsString} (hd : d.state = {})
    (h : WellFormed s) (hbom : s.head? ≠ some 0xFEFF) :
    (d.decode (encodeUtf8 s)).2 = s ∧ (d.decode (encodeUtf8 s)).1.state = {} := by
  obtain ⟨ns, hns, rfl⟩ := h
  have hbytes : (encodeUtf8 (ns.flatMap codePointUnits)).map UInt8.toNat =
      ns.flatMap codePointBytes := by
    rw [encodeUtf8, codePoints_flatMap hns, List.map_map]
    refine (List.map_congr_left fun b hb => ?_).trans (List.map_id _)
    obtain ⟨n, hn, hb⟩ := List.mem_flatMap.mp hb
    exact toNat_toUInt8 (lt_of_mem_codePointBytes (hns n hn) hb)
  have hserialize : serialize d.bomSeen ns = ns := by
    cases ns with
    | nil => rfl
    | cons n ns =>
      refine if_neg ?_
      rintro ⟨-, rfl⟩
      exact hbom rfl
  rw [decode_eq, hd, hbytes, Utf8State.read_flatMap hns]
  exact ⟨congrArg (List.flatMap codePointUnits) hserialize, rfl⟩

/-- **Round trip.** A well-formed string that does not start with a byte order mark is read back from
the bytes it is written as, and no part of a code point is left over. -/
theorem decode_encodeUtf8 {s : JsString} (h : WellFormed s) (hbom : s.head? ≠ some 0xFEFF) :
    (({} : TextDecoder).decode (encodeUtf8 s)).2 = s ∧
      (({} : TextDecoder).decode (encodeUtf8 s)).1.flush = [] := by
  obtain ⟨htext, hready⟩ := decode_encodeUtf8_of_ready (d := {}) rfl h hbom
  refine ⟨htext, ?_⟩
  rw [flush, hready]
  rfl

end TextDecoder

end Pinout.Foundation
