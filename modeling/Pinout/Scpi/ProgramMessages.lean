import Pinout.Foundation.ByteScan
import Pinout.Scpi.Client
import Pinout.Scpi.Headers

/-! # Program messages

What an instrument reads of the bytes that a client sends, by a scan of them: a line terminator ends a program message,
a semicolon outside of quotes a program message unit of it, and a unit is a query when a question mark follows its
header. `command` and `query` of `packages/protocols-scpi/src/client.ts` parse one command and send the text as it was
written: it is one unit of the kind that was called when its inside has no line terminator and no semicolon outside of
quotes, and when for a query no comment hides the header. -/

namespace Pinout.Scpi

open Foundation Protocol

/-! ## Instruments -/

def isLineEnd (n : Nat) : Bool := n = 10 || n = 13

def isBlank (n : Nat) : Bool := n = 32 || (9 ≤ n && n ≤ 13)

def isBlankUnit (u : UInt16) : Bool := isBlank u.toNat

inductive QuoteMark
  | apostrophe
  | quotation
  deriving DecidableEq

namespace QuoteMark

def code : QuoteMark → Nat
  | apostrophe => 39
  | quotation => 34

def turn : Option QuoteMark → Nat → Option QuoteMark
  | none, n => if n = 39 then some apostrophe else if n = 34 then some quotation else none
  | some mark, n => if n = mark.code then none else some mark

end QuoteMark

/-- Where an instrument is in a program message unit: in front of it, in its header, behind the header, or further on
with the quote that is open. -/
inductive UnitState
  | blank
  | header
  | gap
  | body (quote : Option QuoteMark) (query : Bool)
  deriving DecidableEq

namespace UnitState

/-- Whether a unit is a query; nothing is no unit. -/
def query? : UnitState → Option Bool
  | blank => none
  | header | gap => some false
  | body _ query => some query

def quote : UnitState → Option QuoteMark
  | body quote _ => quote
  | _ => none

def next : UnitState → Nat → UnitState
  | blank, n => if isBlank n then blank else if isHeaderCode n then header else body (QuoteMark.turn none n) false
  | header, n => if isHeaderCode n then header else if isBlank n then gap else body (QuoteMark.turn none n) (n = 63)
  | gap, n => if isBlank n then gap else body (QuoteMark.turn none n) (n = 63)
  | body quote query, n => body (QuoteMark.turn quote n) query

def ends (s : UnitState) (n : Nat) : Bool := isLineEnd n || (n = 59 && s.quote.isNone)

end UnitState

/-- What an instrument has read: whether each unit was a query, and the unit it is in. -/
structure Instrument where
  units : List Bool := []
  unit : UnitState := .blank
  deriving DecidableEq

namespace Instrument

def finish (i : Instrument) : Instrument := { units := i.units ++ i.unit.query?.toList, unit := .blank }

def step (i : Instrument) (n : Nat) : Instrument :=
  if i.unit.ends n then i.finish else { i with unit := i.unit.next n }

def run (i : Instrument) (text : JsString) : Instrument := text.foldl (fun i u => i.step u.toNat) i

def receive (bytes : List UInt8) : Instrument := bytes.foldl (fun i b => i.step b.toNat) {}

end Instrument

/-- Bytes are one complete program message unit of the kind that was called. -/
def SingleUnit (kind : ScpiRequestKind) (bytes : List UInt8) : Prop :=
  Instrument.receive bytes = ⟨[kind ≠ .command], .blank⟩

/-! ## Texts -/

/-- What leaves an instrument in front of a unit. -/
def isIdle (u : UInt16) : Bool := isBlank u.toNat || u = 59

/-- A text without white space and semicolons at its ends. -/
def inside (text : JsString) : JsString := (text.dropWhile isIdle).rdropWhile isIdle

def unquoted : Option QuoteMark → JsString → JsString
  | _, [] => []
  | quote, u :: text =>
    let behind := QuoteMark.turn quote u.toNat
    if quote = none ∧ behind = none then u :: unquoted behind text else unquoted behind text

/-- A text is one program message: its inside is one line, has no semicolon outside of quotes, and up to the question
mark of a query it has neither the slash of a comment nor other than basic characters. -/
structure PlainMessage (kind : ScpiRequestKind) (text : JsString) : Prop where
  oneLine : ∀ u ∈ inside text, isLineEnd u.toNat = false
  oneUnit : 59 ∉ unquoted none (inside text)
  asWritten : kind ≠ .command → ∀ u ∈ (inside text).takeWhile (· ≠ 63), u ≠ 47 ∧ u.toNat < 0x80

/-! ## What an instrument reads -/

namespace UnitState

variable {s : UnitState} {n : Nat}

theorem quote_next (s : UnitState) (n : Nat) : (s.next n).quote = QuoteMark.turn s.quote n := by
  have hturn : isBlank n = true ∨ isHeaderCode n = true → QuoteMark.turn none n = none := by
    simp only [isBlank, isHeaderCode, Bool.or_eq_true, Bool.and_eq_true, decide_eq_true_eq, QuoteMark.turn]
    intro h
    rw [if_neg (by omega), if_neg (by omega)]
  cases s with
  | blank =>
    rw [next]
    split
    · next h => exact (hturn (.inl h)).symm
    · split
      · next h => exact (hturn (.inr h)).symm
      · rfl
  | header =>
    rw [next]
    split
    · next h => exact (hturn (.inr h)).symm
    · split
      · next h => exact (hturn (.inl h)).symm
      · rfl
  | gap =>
    rw [next]
    split
    · next h => exact (hturn (.inl h)).symm
    · rfl
  | body quote query => rfl

theorem next_ne_blank (h : s ≠ .blank) (n : Nat) : s.next n ≠ .blank := by
  cases s with
  | blank => exact absurd rfl h
  | header =>
    rw [next]
    split
    · nofun
    · split <;> nofun
  | gap =>
    rw [next]
    split <;> nofun
  | body quote query => nofun

theorem next_ne_blank_of_not_isBlank (h : isBlank n = false) (s : UnitState) : s.next n ≠ .blank := by
  cases s with
  | blank =>
    rw [next, if_neg (by rw [h]; nofun)]
    split <;> nofun
  | header => exact next_ne_blank (by nofun) n
  | gap => exact next_ne_blank (by nofun) n
  | body quote query => exact next_ne_blank (by nofun) n

/-- White space does not change what a unit is, nor does a semicolon between quotes. -/
theorem query?_next (hidle : isBlank n = true ∨ n = 59) (h : s.ends n = false) : (s.next n).query? = s.query? := by
  simp only [ends, Bool.or_eq_false_iff, Bool.and_eq_false_iff, decide_eq_false_iff_not,
    Option.isNone_eq_false_iff] at h
  cases s with
  | body quote query => rfl
  | blank =>
    have hblank : isBlank n = true := hidle.resolve_right (h.2.resolve_right (by nofun))
    rw [next, if_pos hblank]
  | header =>
    have hblank : isBlank n = true := hidle.resolve_right (h.2.resolve_right (by nofun))
    rw [next, if_pos hblank]
    split <;> rfl
  | gap =>
    have hblank : isBlank n = true := hidle.resolve_right (h.2.resolve_right (by nofun))
    rw [next, if_pos hblank]

theorem query?_foldl_body (quote : Option QuoteMark) (query : Bool) (text : JsString) :
    (text.foldl (fun s u => s.next u.toNat) (body quote query)).query? = some query := by
  induction text generalizing quote with
  | nil => rfl
  | cons u text ih => exact ih _

/-- Behind the header a question mark counts that follows white space only. -/
theorem query?_foldl_gap (text : JsString) : (text.foldl (fun s u => s.next u.toNat) gap).query? =
    some (decide ((text.dropWhile isBlankUnit).head? = some 63)) := by
  induction text with
  | nil => rfl
  | cons u text ih =>
    rw [List.foldl_cons, next, ← isBlankUnit]
    by_cases hblank : isBlankUnit u = true
    · rw [if_pos hblank, ih, List.dropWhile_cons_of_pos hblank]
    · rw [if_neg hblank, query?_foldl_body, List.dropWhile_cons_of_neg hblank]
      simp [← UInt16.toNat_inj]

/-- In the header a question mark counts that follows its end. -/
theorem query?_foldl_header (text : JsString) : (text.foldl (fun s u => s.next u.toNat) header).query? =
    some (decide (((text.dropWhile isHeaderUnit).dropWhile isBlankUnit).head? = some 63)) := by
  induction text with
  | nil => rfl
  | cons u text ih =>
    rw [List.foldl_cons, next, ← isHeaderUnit, ← isBlankUnit]
    by_cases hheader : isHeaderUnit u = true
    · rw [if_pos hheader, ih, List.dropWhile_cons_of_pos hheader]
    · rw [if_neg hheader, List.dropWhile_cons_of_neg hheader]
      by_cases hblank : isBlankUnit u = true
      · rw [if_pos hblank, query?_foldl_gap, List.dropWhile_cons_of_pos hblank]
      · rw [if_neg hblank, query?_foldl_body, List.dropWhile_cons_of_neg hblank]
        simp [← UInt16.toNat_inj]

end UnitState

/-- Whether a question mark follows the header at the beginning of a text. -/
def asks (text : JsString) : Bool :=
  text.head?.any isHeaderUnit && ((text.dropWhile isHeaderUnit).dropWhile isBlankUnit).head? = some 63

/-- **The kind of a unit**: a query when a question mark follows its header. -/
theorem UnitState.query?_foldl {text : JsString} {u : UInt16} (hu : isBlankUnit u = false) :
    ((u :: text).foldl (fun s u => s.next u.toNat) UnitState.blank).query? = some (asks (u :: text)) := by
  rw [List.foldl_cons, next, ← isHeaderUnit, ← isBlankUnit, if_neg (by rw [hu]; exact Bool.false_ne_true), asks, List.head?_cons,
    Option.any_some]
  by_cases hheader : isHeaderUnit u = true
  · rw [if_pos hheader, query?_foldl_header, hheader, Bool.true_and, List.dropWhile_cons_of_pos hheader]
  · rw [if_neg hheader, query?_foldl_body, Bool.eq_false_iff.mpr hheader, Bool.false_and]

namespace Instrument

variable {i : Instrument} {text : JsString} {u : UInt16}

theorem run_append (i : Instrument) (text more : JsString) : i.run (text ++ more) = (i.run text).run more :=
  List.foldl_append

theorem run_cons (i : Instrument) (u : UInt16) (text : JsString) : i.run (u :: text) = (i.step u.toNat).run text := rfl

@[simp] theorem finish_finish (i : Instrument) : i.finish.finish = i.finish := by simp [finish, UnitState.query?]

/-- What is idle does not begin a unit, and does not change one. -/
theorem finish_step (hu : isIdle u = true) (i : Instrument) : (i.step u.toNat).finish = i.finish := by
  rw [step]
  split
  · exact finish_finish i
  · next hends =>
    have hidle : isBlank u.toNat = true ∨ u.toNat = 59 := by
      simpa [isIdle, ← UInt16.toNat_inj] using hu
    simp only [finish, UnitState.query?_next hidle (by simpa using hends)]

theorem finish_run (htext : ∀ u ∈ text, isIdle u = true) (i : Instrument) : (i.run text).finish = i.finish := by
  induction text generalizing i with
  | nil => rfl
  | cons u text ih =>
    rw [List.forall_mem_cons] at htext
    rw [run_cons, ih htext.2, finish_step htext.1]

theorem run_blank (htext : ∀ u ∈ text, isIdle u = true) (units : List Bool) :
    run ⟨units, .blank⟩ text = ⟨units, .blank⟩ := by
  induction text with
  | nil => rfl
  | cons u text ih =>
    rw [List.forall_mem_cons] at htext
    have hstep : step ⟨units, .blank⟩ u.toNat = ⟨units, .blank⟩ := by
      rw [step]
      split
      · simp [finish, UnitState.query?]
      · next hends =>
        have hidle : isBlank u.toNat = true ∨ u.toNat = 59 := by
          simpa [isIdle, ← UInt16.toNat_inj] using htext.1
        rw [UnitState.next, if_pos (hidle.resolve_right fun h => hends (by simp [UnitState.ends, UnitState.quote, h]))]
    rw [run_cons, hstep, ih htext.2]

/-- **A line terminator among what is idle** ends the unit, and that is all. -/
theorem run_idle (htext : ∀ u ∈ text, isIdle u = true) (hend : ∃ u ∈ text, isLineEnd u.toNat = true) (i : Instrument) :
    i.run text = i.finish := by
  obtain ⟨u, hu, hline⟩ := hend
  obtain ⟨front, back, rfl⟩ := List.append_of_mem hu
  rw [List.forall_mem_append, List.forall_mem_cons] at htext
  have hstep : (i.run front).step u.toNat = (i.run front).finish := by
    rw [step, if_pos (by simp [UnitState.ends, hline])]
  rw [run_append, run_cons, hstep, finish_run htext.1, finish, run_blank htext.2.2]

/-- A unit that goes on, and what a semicolon outside of quotes is. -/
theorem semicolon_notMem_unquoted_cons (quote : Option QuoteMark) :
    59 ∉ unquoted quote (u :: text) ↔ ¬ (u = 59 ∧ quote = none) ∧
      59 ∉ unquoted (QuoteMark.turn quote u.toNat) text := by
  rw [unquoted]
  split
  · next h => simp [h.1, eq_comm]
  · next h =>
    refine (and_iff_right ?_).symm
    rintro ⟨rfl, rfl⟩
    exact h ⟨rfl, rfl⟩

/-- A character neither ends a line nor is a semicolon outside of quotes. -/
theorem ends_eq_false_iff {s : UnitState} :
    s.ends u.toNat = false ↔ isLineEnd u.toNat = false ∧ ¬ (u = 59 ∧ s.quote = none) := by
  simp only [UnitState.ends, Bool.or_eq_false_iff, Bool.and_eq_false_iff, decide_eq_false_iff_not, ← UInt16.toNat_inj,
    Option.isNone_eq_false_iff, not_and_or, ← Option.ne_none_iff_isSome]
  rfl

theorem ends_of_not_isIdle (h : isIdle u = false) (s : UnitState) : s.ends u.toNat = false := by
  rw [isIdle, Bool.or_eq_false_iff, decide_eq_false_iff_not] at h
  obtain ⟨hblank, hsemicolon⟩ := h
  refine ends_eq_false_iff.mpr ⟨?_, fun h => hsemicolon h.1⟩
  simp only [isBlank, isLineEnd, Bool.or_eq_false_iff, Bool.and_eq_false_iff, decide_eq_false_iff_not] at hblank ⊢
  omega

/-- **Nothing ends the unit** in one line without semicolons outside of quotes. -/
theorem run_of_uncut {units : List Bool} {s : UnitState} (hline : ∀ u ∈ text, isLineEnd u.toNat = false)
    (hunit : 59 ∉ unquoted s.quote text) :
    run ⟨units, s⟩ text = ⟨units, text.foldl (fun s u => s.next u.toNat) s⟩ := by
  induction text generalizing s with
  | nil => rfl
  | cons u text ih =>
    rw [List.forall_mem_cons] at hline
    rw [semicolon_notMem_unquoted_cons, ← UnitState.quote_next] at hunit
    have hends : s.ends u.toNat = false := ends_eq_false_iff.mpr ⟨hline.1, hunit.1⟩
    rw [run_cons, step, if_neg (by rw [hends]; nofun), ih hline.2 hunit.2, List.foldl_cons]

theorem length_units_le (i : Instrument) (text : JsString) : i.units.length ≤ (i.run text).units.length := by
  induction text generalizing i with
  | nil => exact le_rfl
  | cons u text ih =>
    have hstep : i.units.length ≤ (i.step u.toNat).units.length := by
      rw [step]
      split
      · simp [finish]
      · exact le_rfl
    exact le_trans hstep (ih _)

/-- **A line terminator or a semicolon outside of quotes** ends a unit that has begun. -/
theorem lt_length_units_of_cut {units : List Bool} {s : UnitState} (hs : s ≠ .blank)
    (h : ¬ ((∀ u ∈ text, isLineEnd u.toNat = false) ∧ 59 ∉ unquoted s.quote text)) :
    units.length < (run ⟨units, s⟩ text).units.length := by
  induction text generalizing s with
  | nil => exact absurd ⟨by simp, by simp [unquoted]⟩ h
  | cons u text ih =>
    rw [List.forall_mem_cons, semicolon_notMem_unquoted_cons, ← UnitState.quote_next, and_and_and_comm,
      ← ends_eq_false_iff] at h
    rw [run_cons, step]
    by_cases hends : s.ends u.toNat = true
    · rw [if_pos hends]
      refine lt_of_lt_of_le ?_ (length_units_le _ text)
      cases s with
      | blank => exact absurd rfl hs
      | header => simp [finish, UnitState.query?]
      | gap => simp [finish, UnitState.query?]
      | body quote query => simp [finish, UnitState.query?]
    · rw [if_neg hends]
      exact ih (UnitState.next_ne_blank hs _) fun hrest => h ⟨by simpa using hends, hrest⟩

theorem unit_ne_blank_of_getLast (hlast : ∃ u ∈ text.getLast?, isIdle u = false) (i : Instrument) :
    (i.run text).unit ≠ .blank := by
  obtain ⟨u, hu, hidle⟩ := hlast
  obtain ⟨front, rfl⟩ := List.getLast?_eq_some_iff.mp (Option.mem_def.mp hu)
  rw [run_append, run_cons, step, if_neg (by rw [ends_of_not_isIdle hidle]; nofun)]
  exact UnitState.next_ne_blank_of_not_isBlank (Bool.or_eq_false_iff.mp hidle).1 _

/-- **What a text without idle ends is**: one unit exactly when it is one line without semicolons outside of quotes. -/
theorem finish_run_eq_iff {query : Bool} (hhead : ∃ u ∈ text.head?, isIdle u = false)
    (hlast : ∃ u ∈ text.getLast?, isIdle u = false) :
    (run {} text).finish = ⟨[query], .blank⟩ ↔
      ((∀ u ∈ text, isLineEnd u.toNat = false) ∧ 59 ∉ unquoted none text) ∧ asks text = query := by
  obtain ⟨u, hu, hidle⟩ := hhead
  obtain ⟨text, rfl⟩ : ∃ rest, text = u :: rest := ⟨text.tail, (List.cons_head?_tail hu).symm⟩
  have hblank : isBlankUnit u = false := (Bool.or_eq_false_iff.mp hidle).1
  by_cases hcut : (∀ v ∈ u :: text, isLineEnd v.toNat = false) ∧ 59 ∉ unquoted none (u :: text)
  · have hrun : run {} (u :: text) = ⟨[], (u :: text).foldl (fun s u => s.next u.toNat) .blank⟩ :=
      run_of_uncut hcut.1 hcut.2
    rw [hrun, finish, UnitState.query?_foldl hblank]
    rw [and_iff_right hcut]
    simp
  · refine iff_of_false ?_ fun h => hcut h.1
    -- the unit that has begun ends, and another one is there at the end
    have hends := ends_of_not_isIdle hidle .blank
    have hmore : 0 < (run {} (u :: text)).units.length := by
      have hstep : step {} u.toNat = ⟨[], UnitState.blank.next u.toNat⟩ := by
        rw [step, if_neg (by rw [hends]; nofun)]
      rw [run_cons, hstep]
      change ([] : List Bool).length < _
      refine lt_length_units_of_cut (UnitState.next_ne_blank_of_not_isBlank hblank _) fun hrest => hcut ?_
      rw [UnitState.quote_next] at hrest
      rw [List.forall_mem_cons, semicolon_notMem_unquoted_cons, and_and_and_comm]
      exact ⟨ends_eq_false_iff.mp hends, hrest⟩
    intro hfinish
    have hlength : (run {} (u :: text)).units.length + (run {} (u :: text)).unit.query?.toList.length = 1 := by
      rw [← List.length_append]
      exact congrArg (fun i => i.units.length) hfinish
    have hkind : (run {} (u :: text)).unit.query?.toList.length = 1 := by
      cases hstate : (run {} (u :: text)).unit with
      | blank => exact absurd hstate (unit_ne_blank_of_getLast hlast {})
      | header => rfl
      | gap => rfl
      | body quote query => rfl
    omega

/-- **A message**: what is idle around a text does not count, when a line terminator ends it. -/
theorem run_message {front back : JsString} (hfront : ∀ u ∈ front, isIdle u = true)
    (hback : ∀ u ∈ back, isIdle u = true)
    (hlast : ∃ u ∈ text.getLast?, isIdle u = false)
    (hend : ∃ u ∈ (front ++ (text ++ back)).getLast?, isLineEnd u.toNat = true) :
    run {} (front ++ (text ++ back)) = (run {} text).finish := by
  rw [run_append, run_append, run_blank hfront]
  refine run_idle hback ?_ _
  obtain ⟨u, hu, hline⟩ := hend
  refine ⟨u, ?_, hline⟩
  obtain ⟨v, hv, hidle⟩ := hlast
  cases hlast : back.getLast? with
  | none =>
    -- the text does not end in a line terminator
    rw [List.getLast?_append, List.getLast?_append, hlast, Option.none_or, Option.mem_def.mp hv, Option.some_or] at hu
    obtain rfl := Option.some.inj hu
    have hends := ends_of_not_isIdle hidle .blank
    rw [UnitState.ends, hline, Bool.true_or] at hends
    cases hends
  | some w =>
    rw [List.getLast?_append, List.getLast?_append, hlast, Option.some_or, Option.some_or] at hu
    obtain rfl := Option.some.inj hu
    exact List.mem_of_getLast? hlast

/-- Characters outside of the basic ones are text that an instrument does not look into. -/
theorem step_of_wide {n : Nat} (h : 0x80 ≤ n) (i : Instrument) :
    i.step n = { i with unit := .body i.unit.quote (i.unit.query? = some true) } := by
  have hturn : ∀ quote, QuoteMark.turn quote n = quote := by
    intro quote
    cases quote with
    | none => rw [QuoteMark.turn, if_neg (by omega), if_neg (by omega)]
    | some mark => rw [QuoteMark.turn, if_neg (by cases mark <;> simp only [QuoteMark.code] <;> omega)]
  have hblank : isBlank n = false := by
    simp only [isBlank, Bool.or_eq_false_iff, Bool.and_eq_false_iff, decide_eq_false_iff_not]
    omega
  have hheader : isHeaderCode n = false := by
    simp only [isHeaderCode, Bool.or_eq_false_iff, Bool.and_eq_false_iff, decide_eq_false_iff_not]
    omega
  have hends : i.unit.ends n = false := by
    simp only [UnitState.ends, isLineEnd, Bool.or_eq_false_iff, Bool.and_eq_false_iff, decide_eq_false_iff_not]
    omega
  have hask : decide (n = 63) = false := decide_eq_false (by omega)
  rw [step, if_neg (by rw [hends]; exact Bool.false_ne_true)]
  cases hunit : i.unit <;> simp [UnitState.next, UnitState.quote, UnitState.query?, hblank, hheader, hturn, hask]

theorem receive_encodeUtf8 (text : JsString) : receive (encodeUtf8 text) = run {} text := by
  have htakes : TakesWide step := by
    refine ⟨fun i n m hn hm => ?_, fun i n hn => ?_⟩
    · rw [step_of_wide hn, step_of_wide hm]
    · rw [step_of_wide hn, step_of_wide hn]
      simp [UnitState.quote, UnitState.query?]
  exact htakes.foldl_encodeUtf8 text {}

end Instrument

/-! ## What the parser reads -/

section Parsing

variable {u : UInt16} {text : JsString} {command : ScpiCommand}

/-- What is idle is a basic character, and none of a header. -/
theorem isIdle_spec (h : isIdle u = true) :
    u.toNat < 0x80 ∧ isHeaderUnit u = false ∧ isQuote u = false ∧ u ≠ 47 ∧ u ≠ 63 := by
  have hlit : ∀ n : UInt16, u = n ↔ u.toNat = n.toNat := fun n => UInt16.toNat_inj.symm
  simp only [isIdle, isBlank, Bool.or_eq_true, Bool.and_eq_true, decide_eq_true_eq, hlit, UInt16.reduceToNat] at h
  simp only [isHeaderUnit, isHeaderCode, isQuote, Bool.or_eq_false_iff, Bool.and_eq_false_iff, decide_eq_false_iff_not,
    ne_eq, hlit, UInt16.reduceToNat]
  omega

theorem isBlankUnit_iff : isBlankUnit u = true ↔ isWhiteSpace u = true ∧ u.toNat < 0x80 := by
  have hblank : isBlankUnit u = true ↔ u.toNat = 32 ∨ (9 ≤ u.toNat ∧ u.toNat ≤ 13) := by
    simp [isBlankUnit, isBlank]
  by_cases h : u.toNat < 0x80
  · rw [hblank, isWhiteSpace_iff h, and_iff_left h]
  · rw [hblank]
    exact iff_of_false (by omega) fun hboth => h hboth.2

theorem exists_of_inside (text : JsString) : ∃ front back : JsString, text = front ++ (inside text ++ back) ∧
    (∀ u ∈ front, isIdle u = true) ∧ (∀ u ∈ back, isIdle u = true) ∧
      (inside text ≠ [] → (∃ u ∈ (inside text).head?, isIdle u = false) ∧
        ∃ u ∈ (inside text).getLast?, isIdle u = false) := by
  refine ⟨text.takeWhile isIdle, (text.dropWhile isIdle).rtakeWhile isIdle, ?_, fun _ => List.mem_takeWhile_imp,
    fun _ => List.mem_rtakeWhile_imp, fun hne => ⟨?_, ?_⟩⟩
  · rw [inside, List.rdropWhile_append_rtakeWhile, List.takeWhile_append_dropWhile]
  · have hhead := List.head?_dropWhile_not isIdle text
    obtain ⟨more, hmore⟩ := List.rdropWhile_prefix isIdle (l := text.dropWhile isIdle)
    obtain ⟨u, rest, hcons⟩ := List.exists_cons_of_ne_nil hne
    rw [← hmore, ← inside, hcons] at hhead
    rw [hcons]
    exact ⟨u, rfl, hhead⟩
  · exact ⟨_, List.getLast?_eq_some_getLast hne, Bool.eq_false_iff.mpr (List.rdropWhile_last_not _ _ hne)⟩

/-- A text begins like what is left of it by `trim`, behind white space. -/
theorem head?_dropWhile_of_trim (hu : u ∈ (trim text).head?) : u ∈ (text.dropWhile isWhiteSpace).head? := by
  obtain ⟨more, hmore⟩ := List.rdropWhile_prefix isWhiteSpace (l := text.dropWhile isWhiteSpace)
  rw [← hmore, List.head?_append]
  change u ∈ (trim text).head?.or more.head?
  rw [Option.mem_def.mp hu]
  rfl

theorem inside_ne_nil (h : parseScpiCommand text = .ok command) : inside text ≠ [] := by
  intro hnil
  obtain ⟨stripped, hstrip, ⟨u, hu, hheader⟩, -⟩ := exists_of_parseScpiCommand h
  obtain ⟨front, back, htext, hfront, hback, -⟩ := exists_of_inside text
  rw [hnil, List.nil_append] at htext
  have hidle : ∀ v ∈ text, isIdle v = true := by
    rw [htext]
    exact List.forall_mem_append.mpr ⟨hfront, hback⟩
  have hmem : u ∈ stripped := (List.dropWhile_sublist _).subset (List.mem_of_mem_head? (head?_dropWhile_of_trim hu))
  rcases mem_of_stripComments hstrip hmem with hin | rfl
  · rw [(isIdle_spec (hidle u hin)).2.1] at hheader
    cases hheader
  · cases hheader

/-- A question mark follows a header: the header, white space and the question mark. -/
theorem asks_iff : asks text = true ↔ ∃ name blanks more, text = name ++ (blanks ++ 63 :: more) ∧ name ≠ [] ∧
    (∀ u ∈ name, isHeaderUnit u = true) ∧ ∀ u ∈ blanks, isBlankUnit u = true := by
  rw [asks, Bool.and_eq_true, Option.any_eq_true, decide_eq_true_eq]
  exact head?_dropWhile_dropWhile_iff rfl rfl fun u hu => isHeaderUnit_of_isWhiteSpace (isBlankUnit_iff.mp hu).1

theorem isWhiteSpace_of_front {front rest : JsString} (hfront : ∀ u ∈ front, isIdle u = true)
    (hhead : ∃ u ∈ ((front ++ rest).dropWhile isWhiteSpace).head?, isHeaderUnit u = true) :
    ∀ u ∈ front, isWhiteSpace u = true := by
  obtain ⟨u, hu, hheader⟩ := hhead
  cases hdrop : front.dropWhile isWhiteSpace with
  | nil => exact List.dropWhile_eq_nil_iff.mp hdrop
  | cons v more =>
    rw [List.dropWhile_append, hdrop] at hu
    obtain rfl := Option.some.inj hu
    have hmem : v ∈ front := (List.dropWhile_sublist isWhiteSpace).subset (hdrop ▸ List.mem_cons_self)
    rw [(isIdle_spec (hfront v hmem)).2.1] at hheader
    cases hheader

/-- **A question mark that an instrument sees** is seen by the parser. -/
theorem query_of_asks (h : parseScpiCommand text = .ok command) (hasks : asks (inside text) = true) :
    command.query = true ∧ ∀ u ∈ (inside text).takeWhile (· ≠ 63), u ≠ 47 ∧ u.toNat < 0x80 := by
  obtain ⟨stripped, hstrip, ⟨u, hu, hheader⟩, hquery⟩ := exists_of_parseScpiCommand h
  obtain ⟨front, back, htext, hfront, hback, -⟩ := exists_of_inside text
  obtain ⟨name, blanks, more, hinside, hne, hname, hblanks⟩ := asks_iff.mp hasks
  have hidle : ∀ u ∈ blanks, isIdle u = true := fun u hu => Bool.or_eq_true_iff.mpr (.inl (hblanks u hu))
  have hbasic : ∀ u ∈ name ++ blanks, isQuote u = false ∧ u ≠ 47 ∧ u ≠ 63 ∧ u.toNat < 0x80 := by
    rw [List.forall_mem_append]
    refine ⟨fun u hu => ?_, fun u hu => ?_⟩
    · obtain ⟨hlt, -, hquote, hslash, hask, -⟩ := isHeaderUnit_spec (hname u hu)
      exact ⟨hquote, hslash, hask, hlt⟩
    · obtain ⟨hlt, -, hquote, hslash, hask⟩ := isIdle_spec (hidle u hu)
      exact ⟨hquote, hslash, hask, hlt⟩
  refine ⟨?_, ?_⟩
  · -- up to the question mark nothing is stripped
    have hsplit : text = (front ++ (name ++ (blanks ++ [63]))) ++ (more ++ back) := by
      conv_lhs => rw [htext, hinside]
      simp
    rw [hsplit, stripComments_append] at hstrip
    · obtain ⟨rest, -, rfl⟩ := map_eq_ok_iff.mp hstrip
      rw [List.append_assoc] at hu hquery
      have hspaces := isWhiteSpace_of_front hfront ⟨u, head?_dropWhile_of_trim hu, hheader⟩
      refine hquery.mpr ((head?_dropWhile_dropWhile_iff rfl rfl fun u => isHeaderUnit_of_isWhiteSpace).mpr ?_).2
      refine ⟨name, blanks, rest.rdropWhile isWhiteSpace, ?_, hne, hname,
        fun u hu => (isBlankUnit_iff.mp (hblanks u hu)).1⟩
      have hdrop : (front ++ (name ++ (blanks ++ [63]) ++ rest)).dropWhile isWhiteSpace =
          (name ++ blanks) ++ 63 :: rest := by
        obtain ⟨n, name, rfl⟩ := List.exists_cons_of_ne_nil hne
        rw [dropWhile_append_of_head hspaces]
        · simp
        · rintro w ⟨⟩
          exact (isHeaderUnit_spec (hname n List.mem_cons_self)).2.1
      calc trim (front ++ (name ++ (blanks ++ [63]) ++ rest))
          = ((name ++ blanks) ++ 63 :: rest).rdropWhile isWhiteSpace := by rw [← hdrop]; rfl
        _ = name ++ (blanks ++ 63 :: rest.rdropWhile isWhiteSpace) := by
          rw [rdropWhile_append_cons rfl, List.append_assoc]
    · rw [List.forall_mem_append, ← List.append_assoc, List.forall_mem_append]
      refine ⟨fun u hu => ?_, fun u hu => ⟨(hbasic u hu).1, (hbasic u hu).2.1⟩, fun u hu => ?_⟩
      · obtain ⟨-, -, hquote, hslash, -⟩ := isIdle_spec (hfront u hu)
        exact ⟨hquote, hslash⟩
      · rw [List.mem_singleton.mp hu]
        decide
  · rw [hinside, ← List.append_assoc, takeWhile_append_of_head]
    · exact fun u hu => ⟨(hbasic u hu).2.1, (hbasic u hu).2.2.2⟩
    · exact fun u hu => decide_eq_true (hbasic u hu).2.2.1
    · rintro u ⟨⟩
      rfl

/-- **Up to the question mark** a text is read as it was written, when the parser sees no quote there and the text has
no slash. -/
theorem takeWhile_of_stripComments {lead rest stripped : JsString}
    (hstrip : stripComments .plain (lead ++ 63 :: rest) = .ok stripped) (hlead : ∀ u ∈ lead, u ≠ 47 ∧ u ≠ 63)
    (hseen : ∀ u ∈ stripped.takeWhile (· ≠ 63), isQuote u = false) : stripped.takeWhile (· ≠ 63) = lead := by
  have hquotes : ∀ u ∈ lead, isQuote u = false := by
    cases hdrop : lead.dropWhile (!isQuote ·) with
    | nil => simpa using List.dropWhile_eq_nil_iff.mp hdrop
    | cons q after =>
      -- the first quote would be seen
      have hq : isQuote q = true := by
        simpa [hdrop] using List.head?_dropWhile_not (!isQuote ·) lead
      have hparts := List.takeWhile_append_dropWhile (p := (!isQuote ·)) (l := lead)
      have hclean : ∀ u ∈ lead.takeWhile (!isQuote ·), isQuote u = false := fun u hu => by
        simpa using List.mem_takeWhile_imp hu
      rw [hdrop] at hparts
      generalize lead.takeWhile (!isQuote ·) = before at hparts hclean
      subst hparts
      rw [List.forall_mem_append, List.forall_mem_cons] at hlead
      rw [List.append_assoc, List.cons_append,
        stripComments_append fun u hu => ⟨hclean u hu, (hlead.1 u hu).1⟩] at hstrip
      obtain ⟨inner, hinner, rfl⟩ := map_eq_ok_iff.mp hstrip
      obtain ⟨more, rfl⟩ := exists_of_stripComments_quote hq hinner
      have hsee : isQuote q = false := by
        refine hseen q ?_
        rw [List.takeWhile_append_of_pos fun u hu => decide_eq_true (hlead.1 u hu).2,
          List.takeWhile_cons, if_pos (decide_eq_true hlead.2.1.2)]
        exact List.mem_append_right _ List.mem_cons_self
      rw [hq] at hsee
      cases hsee
  rw [stripComments_append fun u hu => ⟨hquotes u hu, (hlead u hu).1⟩] at hstrip
  obtain ⟨inner, hinner, rfl⟩ := map_eq_ok_iff.mp hstrip
  rw [stripComments_cons rfl (by decide)] at hinner
  obtain ⟨more, -, rfl⟩ := map_eq_ok_iff.mp hinner
  rw [takeWhile_append_of_head fun u hu => decide_eq_true (hlead u hu).2]
  rintro u ⟨⟩
  rfl

theorem exists_mark_of_stripComments {stripped : JsString} (hstrip : stripComments .plain text = .ok stripped)
    (hmem : 63 ∈ stripped) : ∃ part tail, inside text = part ++ 63 :: tail ∧ (inside text).takeWhile (· ≠ 63) = part ∧
      ∀ u ∈ part, u ≠ 63 := by
  obtain ⟨front, back, htext, hfront, hback, -⟩ := exists_of_inside text
  have hin : (63 : UInt16) ∈ text := (mem_of_stripComments hstrip hmem).resolve_right (by decide)
  rw [htext, List.mem_append, List.mem_append] at hin
  have hinside : (63 : UInt16) ∈ inside text := by
    rcases hin with hin | hin | hin
    · exact absurd rfl (isIdle_spec (hfront _ hin)).2.2.2.2
    · exact hin
    · exact absurd rfl (isIdle_spec (hback _ hin)).2.2.2.2
  obtain ⟨part, tail, hparts, hnot⟩ := List.eq_append_cons_of_mem hinside
  have hpart : ∀ u ∈ part, u ≠ 63 := fun u hu heq => hnot (heq ▸ hu)
  refine ⟨part, tail, hparts, ?_, hpart⟩
  rw [hparts, takeWhile_append_of_head fun u hu => decide_eq_true (hpart u hu)]
  rintro u ⟨⟩
  rfl

/-- **A question mark that the parser sees** is seen by an instrument, when up to it the text has neither a comment nor
other than basic characters. -/
theorem asks_of_query (h : parseScpiCommand text = .ok command) (hquery : command.query = true)
    (hplain : ∀ u ∈ (inside text).takeWhile (· ≠ 63), u ≠ 47 ∧ u.toNat < 0x80) : asks (inside text) = true := by
  obtain ⟨stripped, hstrip, hheader, hiff⟩ := exists_of_parseScpiCommand h
  obtain ⟨front, back, htext, hfront, hback, hends⟩ := exists_of_inside text
  obtain ⟨⟨v, hv, hvidle⟩, -⟩ := hends (inside_ne_nil h)
  obtain ⟨name, blanks, more, htrim, hne, hname, hblanks⟩ :=
    (head?_dropWhile_dropWhile_iff rfl rfl fun u => isHeaderUnit_of_isWhiteSpace).mp ⟨hheader, hiff.mp hquery⟩
  -- what the parser sees up to the question mark
  obtain ⟨early, later, hstripped, hearly⟩ : ∃ early later, stripped = (early ++ (name ++ blanks)) ++ 63 :: later ∧
      ∀ u ∈ early, isWhiteSpace u = true := by
    refine ⟨stripped.takeWhile isWhiteSpace, more ++ (stripped.dropWhile isWhiteSpace).rtakeWhile isWhiteSpace, ?_,
      fun _ => List.mem_takeWhile_imp⟩
    have hparts := List.rdropWhile_append_rtakeWhile (p := isWhiteSpace) (l := stripped.dropWhile isWhiteSpace)
    conv_lhs => rw [← List.takeWhile_append_dropWhile (p := isWhiteSpace) (l := stripped), ← hparts]
    change _ ++ (trim stripped ++ _) = _
    rw [htrim]
    simp
  have hseen : ∀ u ∈ early ++ (name ++ blanks), isQuote u = false ∧ u ≠ 63 := by
    have hspace : ∀ u, isWhiteSpace u = true → isQuote u = false ∧ u ≠ 63 := by
      refine fun u hu => ⟨?_, by rintro rfl; cases hu⟩
      rw [Bool.eq_false_iff, Ne, isQuote, Bool.or_eq_true, decide_eq_true_eq, decide_eq_true_eq]
      rintro (rfl | rfl) <;> cases hu
    rw [List.forall_mem_append, List.forall_mem_append]
    refine ⟨fun u hu => hspace u (hearly u hu), fun u hu => ?_, fun u hu => hspace u (hblanks u hu)⟩
    exact ⟨(isHeaderUnit_spec (hname u hu)).2.2.1, (isHeaderUnit_spec (hname u hu)).2.2.2.2.1⟩
  have hmark : stripped.takeWhile (· ≠ 63) = early ++ (name ++ blanks) := by
    rw [hstripped, takeWhile_append_of_head fun u hu => decide_eq_true (hseen u hu).2]
    rintro u ⟨⟩
    rfl
  -- what is written up to it
  obtain ⟨part, tail, hinside, hpart, hasked⟩ :=
    exists_mark_of_stripComments hstrip (hstripped ▸ List.mem_append_right _ List.mem_cons_self)
  rw [hpart] at hplain
  have hbasic : ∀ u ∈ front ++ part, (u ≠ 47 ∧ u ≠ 63) ∧ u.toNat < 0x80 := by
    rw [List.forall_mem_append]
    refine ⟨fun u hu => ?_, fun u hu => ⟨⟨(hplain u hu).1, hasked u hu⟩, (hplain u hu).2⟩⟩
    obtain ⟨hlt, -, -, hslash, hask⟩ := isIdle_spec (hfront u hu)
    exact ⟨⟨hslash, hask⟩, hlt⟩
  have hsame : early ++ (name ++ blanks) = front ++ part := by
    have hsplit : text = (front ++ part) ++ 63 :: (tail ++ back) := by
      conv_lhs => rw [htext, hinside]
      simp
    rw [hsplit] at hstrip
    rw [← hmark]
    exact takeWhile_of_stripComments hstrip (fun u hu => (hbasic u hu).1) (hmark ▸ fun u hu => (hseen u hu).1)
  have hblankUnits : (∀ u ∈ early, isBlankUnit u = true) ∧ ∀ u ∈ blanks, isBlankUnit u = true := by
    refine ⟨fun u hu => isBlankUnit_iff.mpr ⟨hearly u hu, (hbasic u ?_).2⟩,
      fun u hu => isBlankUnit_iff.mpr ⟨hblanks u hu, (hbasic u ?_).2⟩⟩
    · rw [← hsame]
      exact List.mem_append_left _ hu
    · rw [← hsame]
      exact List.mem_append_right _ (List.mem_append_right _ hu)
  obtain ⟨n, name, rfl⟩ := List.exists_cons_of_ne_nil hne
  have hdrop : (early ++ ((n :: name) ++ blanks)).dropWhile isIdle = (n :: name) ++ blanks := by
    refine dropWhile_append_of_head (fun u hu => Bool.or_eq_true_iff.mpr (.inl (hblankUnits.1 u hu))) ?_
    rintro u ⟨⟩
    rw [Bool.eq_false_iff]
    intro hidle
    exact Bool.noConfusion ((hname n List.mem_cons_self).symm.trans (isIdle_spec hidle).2.1)
  have hwritten : part = (n :: name) ++ blanks := by
    rw [← hdrop, hsame, dropWhile_append_of_head hfront]
    intro u hu
    rw [hinside] at hv
    cases part with
    | nil => cases hu
    | cons w part =>
      obtain rfl := Option.some.inj hu
      obtain rfl := Option.some.inj hv
      exact hvidle
  refine asks_iff.mpr ⟨n :: name, blanks, tail, ?_, hne, hname, hblankUnits.2⟩
  rw [hinside, hwritten, List.append_assoc]

end Parsing

/-! ## What is sent -/

/-- A task that sends has an accepted text of the kind that was called, and sends that text. -/
theorem ScpiClient.of_sent {c : ScpiClient} {number : Nat} {r : ScpiRequest} {bytes : List UInt8}
    (hsent : (c.beginTask number r).sent = c.sent ++ [(number, bytes)]) :
    ∃ command, parseScpiCommand r.text = .ok command ∧ (command.query = true ↔ r.kind ≠ .command) ∧
      bytes = c.payload r.text := by
  have hkeep : ∀ f, (c.update number f).sent ≠ c.sent ++ [(number, bytes)] := fun f => by
    change c.sent ≠ _
    simp
  rw [beginTask] at hsent
  split at hsent
  · exact absurd hsent (hkeep _)
  · split at hsent
    · exact absurd hsent (hkeep _)
    · next command hcommand =>
      have hbytes : c.sent ++ [(number, c.payload r.text)] = c.sent ++ [(number, bytes)] →
          bytes = c.payload r.text := by
        intro heq
        simpa [eq_comm] using heq
      split at hsent
      · next hkind =>
        split at hsent
        · exact absurd hsent (hkeep _)
        · next hquery => exact ⟨command, hcommand, by simpa [hkind] using hquery, hbytes hsent⟩
      · next hkind =>
        split at hsent
        · exact absurd hsent (hkeep _)
        · next hquery => exact ⟨command, hcommand, by simpa [hkind] using hquery, hbytes hsent⟩

/-- **What is sent of an accepted text** is one program message unit of the kind that was called exactly when the text
is one program message. -/
theorem ScpiClient.singleUnit_iff {c : ScpiClient} (hterminator : c.terminator ≠ [])
    (hends : ∀ u ∈ c.terminator, isLineEnd u.toNat = true) {number : Nat} {r : ScpiRequest} {bytes : List UInt8}
    (hsent : (c.beginTask number r).sent = c.sent ++ [(number, bytes)]) :
    SingleUnit r.kind bytes ↔ PlainMessage r.kind r.text := by
  obtain ⟨command, hcommand, hkind, rfl⟩ := of_sent hsent
  obtain ⟨front, back, htext, hfront, hback, hedges⟩ := exists_of_inside r.text
  obtain ⟨hhead, hlast⟩ := hedges (inside_ne_nil hcommand)
  have hidle : ∀ u ∈ c.terminator, isIdle u = true := by
    intro u hu
    have hline := hends u hu
    simp only [isLineEnd, Bool.or_eq_true, decide_eq_true_eq] at hline
    simp only [isIdle, isBlank, Bool.or_eq_true, Bool.and_eq_true, decide_eq_true_eq]
    omega
  -- the text ends with a line terminator, its own or the one that is added
  obtain ⟨more, hmore, hpayload, hend⟩ : ∃ more : JsString, (∀ u ∈ more, isIdle u = true) ∧
      c.payload r.text = encodeUtf8 (r.text ++ more) ∧ ∃ u ∈ (r.text ++ more).getLast?, isLineEnd u.toNat = true := by
    have hadded : ∀ t : JsString, ∃ u ∈ (t ++ c.terminator).getLast?, isLineEnd u.toNat = true := by
      intro t
      refine ⟨c.terminator.getLast hterminator, ?_, hends _ (List.getLast_mem _)⟩
      rw [List.getLast?_append, List.getLast?_eq_some_getLast hterminator]
      rfl
    by_cases hsuffix : c.terminator <:+ r.text
    · obtain ⟨t, ht⟩ := hsuffix
      refine ⟨[], by simp, ?_, ?_⟩
      · rw [payload, if_pos ⟨t, ht⟩, List.append_nil]
      · rw [List.append_nil, ← ht]
        exact hadded t
    · exact ⟨c.terminator, hidle, by rw [payload, if_neg hsuffix], hadded _⟩
  have hsplit : r.text ++ more = front ++ (inside r.text ++ (back ++ more)) := by
    conv_lhs => rw [htext]
    simp
  rw [SingleUnit, hpayload, Instrument.receive_encodeUtf8, hsplit, Instrument.run_message hfront
    (List.forall_mem_append.mpr ⟨hback, hmore⟩) hlast (hsplit ▸ hend), Instrument.finish_run_eq_iff hhead hlast]
  have hasks : asks (inside r.text) = decide (r.kind ≠ .command) ↔
      (r.kind ≠ .command → ∀ u ∈ (inside r.text).takeWhile (· ≠ 63), u ≠ 47 ∧ u.toNat < 0x80) := by
    by_cases hcall : r.kind ≠ .command
    · rw [decide_eq_true hcall, imp_iff_right hcall]
      exact ⟨fun h => (query_of_asks hcommand h).2, asks_of_query hcommand (hkind.mpr hcall)⟩
    · rw [decide_eq_false hcall]
      refine iff_of_true (Bool.eq_false_iff.mpr fun h => hcall (hkind.mp (query_of_asks hcommand h).1)) ?_
      exact fun h => absurd h hcall
  rw [hasks]
  exact ⟨fun h => ⟨h.1.1, h.1.2, h.2⟩, fun h => ⟨⟨h.oneLine, h.oneUnit⟩, h.asWritten⟩⟩

/-- A query, as `identify` of the client sends it. -/
theorem ScpiClient.singleUnit_iff_identify :
    SingleUnit (.query none) (encodeUtf8 (js "*IDN?\n")) ↔ PlainMessage (.query none) (js "*IDN?") :=
  have hsent : (beginTask { opened := true } 0 { text := js "*IDN?", kind := .query none }).sent =
      [] ++ [(0, encodeUtf8 (js "*IDN?\n"))] := rfl
  singleUnit_iff (by decide) (by decide) hsent

/-- A command with a query behind a semicolon is sent, and the instrument reads both. -/
theorem ScpiClient.not_singleUnit_chained :
    (beginTask { opened := true } 0 { text := js "VOLT 1;*IDN?", kind := .command }).sent =
        [(0, encodeUtf8 (js "VOLT 1;*IDN?\n"))] ∧
      Instrument.receive (encodeUtf8 (js "VOLT 1;*IDN?\n")) = ⟨[false, true], .blank⟩ ∧
        ¬ SingleUnit .command (encodeUtf8 (js "VOLT 1;*IDN?\n")) :=
  ⟨by rfl, by decide, by rw [SingleUnit]; decide⟩

end Pinout.Scpi
