import Mathlib.Data.List.DropRight
import Pinout.Foundation.Fallible
import Pinout.Foundation.Splitting
import Pinout.Scpi.Parser

/-! # The headers of SCPI commands

What an accepted text looks like: without its comments and the white space at its ends it begins with the units of a
header (`isHeaderUnit`), and it is a query exactly when the next thing that is no white space is a question mark. A
text without quotes and slashes is not changed by `stripComments`. The header of a text and what follows it are read
apart (`parseScpiCommand_append`). -/

namespace Pinout.Scpi

open Foundation Protocol

/-! ## Units -/

/-- A letter, a digit, `:` or `*`. -/
def isHeaderCode (n : Nat) : Bool :=
  (65 ≤ n && n ≤ 90) || (97 ≤ n && n ≤ 122) || (48 ≤ n && n ≤ 58) || n = 42

def isHeaderUnit (u : UInt16) : Bool := isHeaderCode u.toNat

variable {u : UInt16} {text part rest : JsString}

theorem isHeaderUnit_of_isLetter (h : isLetter u = true) : isHeaderUnit u = true := by
  simp only [isLetter, Bool.or_eq_true, Bool.and_eq_true, decide_eq_true_eq] at h
  simp only [isHeaderUnit, isHeaderCode, Bool.or_eq_true, Bool.and_eq_true, decide_eq_true_eq]
  omega

theorem isHeaderUnit_of_isDigit (h : isDigit u = true) : isHeaderUnit u = true := by
  simp only [isDigit, decide_eq_true_eq] at h
  simp only [isHeaderUnit, isHeaderCode, Bool.or_eq_true, Bool.and_eq_true, decide_eq_true_eq]
  omega

theorem isWhiteSpace_iff (h : u.toNat < 0x80) :
    isWhiteSpace u = true ↔ u.toNat = 32 ∨ (9 ≤ u.toNat ∧ u.toNat ≤ 13) := by
  have hlit : ∀ n : UInt16, u = n ↔ u.toNat = n.toNat := fun n => UInt16.toNat_inj.symm
  simp only [isWhiteSpace, List.contains_cons, List.contains_nil, Bool.or_false, Bool.or_eq_true, beq_iff_eq, hlit,
    Bool.and_eq_true, decide_eq_true_eq]
  simp only [UInt16.reduceToNat]
  omega

/-- A unit of a header is a basic character, and none that has another meaning. -/
theorem isHeaderUnit_spec (h : isHeaderUnit u = true) :
    u.toNat < 0x80 ∧ isWhiteSpace u = false ∧ isQuote u = false ∧ u ≠ 47 ∧ u ≠ 63 ∧ u ≠ 32 ∧ u ≠ 9 ∧ u ≠ 44 := by
  have hlit : ∀ n : UInt16, u = n ↔ u.toNat = n.toNat := fun n => UInt16.toNat_inj.symm
  simp only [isHeaderUnit, isHeaderCode, Bool.or_eq_true, Bool.and_eq_true, decide_eq_true_eq] at h
  have hbasic : u.toNat < 0x80 := by omega
  refine ⟨hbasic, ?_, ?_⟩
  · rw [Bool.eq_false_iff, Ne, isWhiteSpace_iff hbasic]
    omega
  · simp only [isQuote, Bool.or_eq_false_iff, decide_eq_false_iff_not, ne_eq, hlit, UInt16.reduceToNat]
    omega

theorem isHeaderUnit_of_isWhiteSpace (h : isWhiteSpace u = true) : isHeaderUnit u = false := by
  rw [Bool.eq_false_iff]
  intro hheader
  rw [(isHeaderUnit_spec hheader).2.1] at h
  cases h

/-! ## Comments -/

theorem stripComments_cons (hquote : isQuote u = false) (hslash : u ≠ 47) (text : JsString) :
    stripComments .plain (u :: text) = (stripComments .plain text).map (u :: ·) := by
  cases text with
  | nil => simp [stripComments, hquote, Except.map]
  | cons v text =>
    rw [stripComments, if_neg (by rw [hquote]; exact Bool.false_ne_true), if_neg (fun h => hslash h.1), if_neg (fun h => hslash h.1)]

/-- **What has neither quotes nor slashes** stays. -/
theorem stripComments_append (h : ∀ u ∈ part, isQuote u = false ∧ u ≠ 47) (rest : JsString) :
    stripComments .plain (part ++ rest) = (stripComments .plain rest).map (part ++ ·) := by
  induction part with
  | nil =>
    rw [List.nil_append]
    cases stripComments .plain rest <;> rfl
  | cons u part ih =>
    rw [List.forall_mem_cons] at h
    rw [List.cons_append, stripComments_cons h.1.1 h.1.2, ih h.2]
    cases stripComments .plain rest <;> rfl

theorem exists_of_stripComments_quote {stripped : JsString} (hquote : isQuote u = true)
    (h : stripComments .plain (u :: text) = .ok stripped) : ∃ rest, stripped = u :: rest := by
  cases text with
  | nil => simp [stripComments, hquote] at h
  | cons v text =>
    rw [stripComments, if_pos hquote] at h
    obtain ⟨rest, -, hrest⟩ := map_eq_ok_iff.mp h
    exact ⟨rest, hrest.symm⟩

theorem mem_of_stripComments {state : CommentState} {stripped : JsString} (h : stripComments state text = .ok stripped)
    (hu : u ∈ stripped) : u ∈ text ∨ u = 32 := by
  fun_induction stripComments state text generalizing stripped <;> grind [map_eq_ok_iff]

/-! ## Headers -/

/-- **A path** is made of the units of headers. -/
theorem isHeaderUnit_of_parsePath {headerText : JsString} {segments : List JsString}
    {path : List JsString × Option Nat} (h : parsePath headerText segments = .ok path) :
    ∀ segment ∈ segments, segment ≠ [] ∧ ∀ u ∈ segment, isHeaderUnit u = true := by
  induction segments generalizing path with
  | nil => exact fun _ hmem => absurd hmem List.not_mem_nil
  | cons segment segments ih =>
    rw [parsePath] at h
    split at h
    · cases h
    · next hne =>
      split at h
      · cases h
      · next hunits =>
        split at h
        · cases h
        · next hrest =>
          rw [not_or, not_not] at hunits
          refine List.forall_mem_cons.mpr ⟨⟨by simpa using hne, fun u hu => ?_⟩, ih hrest⟩
          rw [← List.takeWhile_append_dropWhile (p := isLetter) (l := segment)] at hu
          rcases List.mem_append.mp hu with hletter | hdigit
          · exact isHeaderUnit_of_isLetter (List.mem_takeWhile_imp hletter)
          · exact isHeaderUnit_of_isDigit (List.all_eq_true.mp hunits.2 u hdigit)

/-- **A header** is made of the units of headers. -/
theorem isHeaderUnit_of_parseHeader {headerText : JsString} {path : List JsString × Option Nat}
    (h : parseHeader headerText = .ok path) : headerText ≠ [] ∧ ∀ u ∈ headerText, isHeaderUnit u = true := by
  have hpath : ∀ rest : JsString, parsePath headerText (rest.splitOn 58) = .ok path →
      rest ≠ [] ∧ ∀ u ∈ rest, isHeaderUnit u = true := by
    intro rest hrest
    have hsegments := isHeaderUnit_of_parsePath hrest
    refine ⟨?_, fun u hu => ?_⟩
    · rintro rfl
      exact (hsegments [] (List.mem_singleton.mpr rfl)).1 rfl
    · rcases @eq_or_mem_of_splitOn _ _ 58 _ _ _ hu with rfl | ⟨segment, hsegment, hu⟩
      · rfl
      · exact (hsegments segment hsegment).2 u hu
  rw [parseHeader.eq_def] at h
  split at h
  · split at h
    · cases h
    · next hname =>
      rw [not_or, not_not] at hname
      refine ⟨List.cons_ne_nil _ _, List.forall_mem_cons.mpr ⟨rfl, fun u hu => ?_⟩⟩
      exact isHeaderUnit_of_isLetter (List.all_eq_true.mp hname.2 u hu)
  · exact ⟨List.cons_ne_nil _ _, List.forall_mem_cons.mpr ⟨rfl, (hpath _ h).2⟩⟩
  · exact hpath _ h

theorem dropWhile_header {name blanks : JsString} (hname : ∀ u ∈ name, isHeaderUnit u = true)
    (hblanks : ∀ u ∈ blanks, isWhiteSpace u = true) (hrest : ∀ u ∈ rest.head?, isHeaderUnit u = false) :
    ((name ++ (blanks ++ rest)).dropWhile isHeaderUnit).dropWhile isWhiteSpace = rest.dropWhile isWhiteSpace := by
  rw [dropWhile_append_of_head hname, List.dropWhile_append_of_pos hblanks]
  intro u hu
  cases blanks with
  | nil => exact hrest u hu
  | cons v blanks =>
    obtain rfl := Option.some.inj hu
    exact isHeaderUnit_of_isWhiteSpace (hblanks v List.mem_cons_self)

theorem exists_of_trimEnd (text : JsString) : ∃ blanks : JsString, text = trimEnd text ++ blanks ∧
    ∀ u ∈ blanks, isWhiteSpace u = true :=
  ⟨text.rtakeWhile isWhiteSpace, List.rdropWhile_append_rtakeWhile.symm, fun _ => List.mem_rtakeWhile_imp⟩

theorem head?_dropWhile_inHeader (text : JsString) :
    ∀ u ∈ (text.dropWhile fun ch => !(ch = 32 || ch = 9 || ch = 44)).head?, u = 32 ∨ u = 9 ∨ u = 44 := by
  intro u hu
  have hnot := List.head?_dropWhile_not (fun ch : UInt16 => !(ch = 32 || ch = 9 || ch = 44)) text
  rw [Option.mem_def.mp hu] at hnot
  simp only [Bool.not_eq_false', Bool.or_eq_true, decide_eq_true_eq] at hnot
  exact or_assoc.mp hnot

/-! ## Tails -/

/-- What follows a header, as `parseScpiCommand` reads it: whether it makes a query, and the arguments. -/
def parseTail (tail : JsString) : Option (Bool × List ScpiArgument) :=
  match stripComments .plain tail with
  | .error _ => none
  | .ok stripped =>
    let text := trimEnd stripped
    let inHeader : UInt16 → Bool := fun ch => !(ch = 32 || ch = 9 || ch = 44)
    let mark := text.takeWhile inHeader
    let rest := text.dropWhile inHeader
    let attached : Bool := mark.getLast? = some 63
    let separated : Bool := !attached && (trimStart rest).head? = some 63
    let argText := if separated then (trimStart rest).drop 1 else rest
    if trimEnd (if attached then mark.dropLast else mark) ≠ [] then none
    else match parseArguments [] argText with
      | .error _ => none
      | .ok args => some (attached || separated, args)

/-- What is left begins like the text, but for the blank of a comment. -/
theorem head?_of_stripComments {stripped : JsString} (h : stripComments .plain text = .ok stripped)
    (hu : stripped.head? = some u) : text.head? = some u ∨ u = 32 := by
  cases text with
  | nil =>
    obtain rfl := Except.ok.inj h
    cases hu
  | cons v text =>
    cases text with
    | nil =>
      rw [stripComments] at h
      split at h
      · cases h
      · obtain rfl := Except.ok.inj h
        exact .inl hu
    | cons w text =>
      rw [stripComments] at h
      split_ifs at h
      · obtain ⟨rest, -, rfl⟩ := map_eq_ok_iff.mp h
        exact .inl hu
      · obtain rfl := Except.ok.inj h
        cases hu
      · obtain ⟨rest, -, rfl⟩ := map_eq_ok_iff.mp h
        exact .inr (Option.some.inj hu).symm
      · obtain ⟨rest, -, rfl⟩ := map_eq_ok_iff.mp h
        exact .inl hu

theorem head?_of_trimEnd (hu : (trimEnd text).head? = some u) : text.head? = some u := by
  obtain ⟨blanks, htext, -⟩ := exists_of_trimEnd text
  rw [htext, List.head?_append, hu]
  rfl

theorem trimEnd_append {name : JsString} (hne : name ≠ []) (hname : ∀ u ∈ name, isWhiteSpace u = false)
    (tail : JsString) : trimEnd (name ++ tail) = name ++ trimEnd tail := by
  change (name ++ tail).rdropWhile isWhiteSpace = name ++ tail.rdropWhile isWhiteSpace
  rw [← List.dropLast_append_getLast hne, List.append_assoc, List.singleton_append,
    rdropWhile_append_cons (hname _ (List.getLast_mem hne)), List.append_assoc, List.singleton_append]

/-- Behind what has no white space only the end of a text is trimmed. -/
theorem trim_append {name : JsString} (hne : name ≠ []) (hname : ∀ u ∈ name, isWhiteSpace u = false) (tail : JsString) :
    trim (name ++ tail) = name ++ trimEnd tail := by
  have hdrop : (name ++ tail).dropWhile isWhiteSpace = name ++ tail := by
    refine dropWhile_eq_self_of_head fun u hu => ?_
    rw [List.head?_append_of_ne_nil _ hne] at hu
    exact hname u (List.mem_of_mem_head? hu)
  rw [trim, hdrop]
  exact trimEnd_append hne hname tail

/-- The error of an argument names the whole text, its result does not depend on it. -/
theorem classifyArguments_eq_ok_iff {input input' : JsString} {tokens : List JsString} {args : List ScpiArgument} :
    classifyArguments input tokens = .ok args ↔ classifyArguments input' tokens = .ok args := by
  induction tokens generalizing args with
  | nil => exact Iff.rfl
  | cons token tokens ih =>
    rw [classifyArguments, classifyArguments]
    split
    · exact ⟨nofun, nofun⟩
    · split
      · exact Iff.rfl
      · simp only [map_eq_ok_iff, ih]

theorem parseArguments_eq_ok_iff {input input' argText : JsString} {args : List ScpiArgument} :
    parseArguments input argText = .ok args ↔ parseArguments input' argText = .ok args := by
  rw [parseArguments, parseArguments]
  split
  · exact Iff.rfl
  · split
    · exact Iff.rfl
    · exact classifyArguments_eq_ok_iff

/-- A question mark at the end of a text that begins with a header is behind the header. -/
theorem getLast?_append_header {name : JsString} (hname : ∀ u ∈ name, isHeaderUnit u = true) (mark : JsString) :
    (name ++ mark).getLast? = some 63 ↔ mark.getLast? = some 63 := by
  cases mark with
  | nil =>
    rw [List.append_nil]
    refine iff_of_false (fun h => ?_) nofun
    exact (isHeaderUnit_spec (hname _ (List.mem_of_getLast? h))).2.2.2.2.1 rfl
  | cons u mark => rw [List.getLast?_append_of_ne_nil _ (List.cons_ne_nil u mark)]

theorem trimEnd_header {name : JsString} (hne : name ≠ []) (hname : ∀ u ∈ name, isHeaderUnit u = true)
    (mark : JsString) :
    trimEnd (if mark.getLast? = some 63 then (name ++ mark).dropLast else name ++ mark) =
      name ++ trimEnd (if mark.getLast? = some 63 then mark.dropLast else mark) := by
  rw [← trimEnd_append hne fun u hu => (isHeaderUnit_spec (hname u hu)).2.1]
  split
  · next hsome =>
    rw [List.dropLast_append_of_ne_nil]
    rintro rfl
    cases hsome
  · rfl

/-- What stands between a header and its question mark begins like what follows the header. -/
theorem head?_of_mark {mark : JsString}
    (hu : (trimEnd (if mark.getLast? = some 63 then mark.dropLast else mark)).head? = some u) :
    mark.head? = some u := by
  have hhead := head?_of_trimEnd hu
  split at hhead
  · next hsome =>
    rw [← List.dropLast_append_getLast? 63 hsome, List.head?_append, hhead]
    rfl
  · exact hhead

theorem parseHeader_append_ne_ok {name more : JsString} (hu : isHeaderUnit u = false)
    (parsed : List JsString × Option Nat) : parseHeader (name ++ u :: more) ≠ .ok parsed := by
  intro h
  have hunit := (isHeaderUnit_of_parseHeader h).2 u (List.mem_append_right _ List.mem_cons_self)
  rw [hu] at hunit
  cases hunit

/-- **A header and what follows it** are read apart. -/
theorem parseScpiCommand_append {name tail : JsString} (hne : name ≠ []) (hname : ∀ u ∈ name, isHeaderUnit u = true)
    (htail : ∀ u ∈ tail.head?, isHeaderUnit u = false) {command : ScpiCommand} :
    parseScpiCommand (name ++ tail) = .ok command ↔
      parseHeader name = .ok (command.path, command.channel) ∧ parseTail tail = some (command.query, command.args) := by
  have hplain : ∀ u ∈ name, isQuote u = false ∧ u ≠ 47 := fun u hu =>
    ⟨(isHeaderUnit_spec (hname u hu)).2.2.1, (isHeaderUnit_spec (hname u hu)).2.2.2.1⟩
  rw [parseScpiCommand, parseTail, stripComments_append hplain]
  cases hstripped : stripComments .plain tail with
  | error thrown => exact ⟨by rintro ⟨⟩, by rintro ⟨-, ⟨⟩⟩⟩
  | ok stripped =>
    simp only [Except.map]
    rw [trim_append hne fun u hu => (isHeaderUnit_spec (hname u hu)).2.1]
    have htext : ∀ u ∈ (trimEnd stripped).head?, isHeaderUnit u = false := by
      intro u hu
      rcases head?_of_stripComments hstripped (head?_of_trimEnd hu) with hhead | rfl
      · exact htail u hhead
      · rfl
    generalize trimEnd stripped = text at htext
    have hin : ∀ u ∈ name, (!(u = 32 || u = 9 || u = 44) : Bool) = true := by
      intro u hu
      obtain ⟨-, -, -, -, -, hspace, htab, hcomma⟩ := isHeaderUnit_spec (hname u hu)
      simp [hspace, htab, hcomma]
    rw [List.takeWhile_append_of_pos hin, List.dropWhile_append_of_pos hin]
    have hmark : ∀ u ∈ (text.takeWhile fun ch => !(ch = 32 || ch = 9 || ch = 44)).head?, isHeaderUnit u = false := by
      intro u hu
      rw [List.head?_takeWhile] at hu
      exact htext u (Option.mem_filter_iff.mp hu).1
    generalize List.takeWhile (fun ch : UInt16 => !(ch = 32 || ch = 9 || ch = 44)) text = mark at *
    generalize List.dropWhile (fun ch : UInt16 => !(ch = 32 || ch = 9 || ch = 44)) text = rest at *
    have hmore : ∀ u ∈ (trimEnd (if mark.getLast? = some 63 then mark.dropLast else mark)).head?,
        isHeaderUnit u = false := fun u hu => hmark u (head?_of_mark hu)
    simp only [getLast?_append_header hname, decide_eq_true_eq, trimEnd_header hne hname]
    rw [if_neg (by simp [hne]), if_neg (by simp [hne])]
    generalize trimEnd (if mark.getLast? = some 63 then mark.dropLast else mark) = more at hmore
    generalize (if (!decide (mark.getLast? = some 63) && decide (List.head? (trimStart rest) = some 63)) = true then
      List.drop 1 (trimStart rest) else rest) = argText
    cases more with
    | cons u more =>
      -- what stands between the header and its question mark is no part of a header
      rw [if_pos (List.cons_ne_nil u more)]
      refine iff_of_false ?_ (by rintro ⟨-, ⟨⟩⟩)
      cases hheader : parseHeader (name ++ u :: more) with
      | error thrown => rintro ⟨⟩
      | ok parsed => exact absurd hheader (parseHeader_append_ne_ok (hmore u rfl) parsed)
    | nil =>
      rw [List.append_nil, if_neg (not_not.mpr rfl)]
      cases hheader : parseHeader name with
      | error thrown => exact iff_of_false (by rintro ⟨⟩) (by rintro ⟨⟨⟩, -⟩)
      | ok parsed =>
        obtain ⟨path, channel⟩ := parsed
        cases hargs : parseArguments (name ++ tail) argText with
        | ok args =>
          rw [parseArguments_eq_ok_iff.mp hargs]
          obtain ⟨path', channel', query', args'⟩ := command
          simp only [Except.ok.injEq, ScpiCommand.mk.injEq, Prod.mk.injEq, Option.some.injEq]
          tauto
        | error thrown =>
          cases hargs' : parseArguments [] argText with
          | error thrown => exact iff_of_false (by rintro ⟨⟩) (by rintro ⟨-, ⟨⟩⟩)
          | ok args =>
            rw [parseArguments_eq_ok_iff.mp hargs'] at hargs
            cases hargs

/-- **What an accepted text looks like**: behind its comments and white space there is a header, and it is a query
exactly when a question mark is the next thing behind that. -/
theorem exists_of_parseScpiCommand {input : JsString} {command : ScpiCommand}
    (h : parseScpiCommand input = .ok command) :
    ∃ text, stripComments .plain input = .ok text ∧ (∃ u ∈ (trim text).head?, isHeaderUnit u = true) ∧
      (command.query = true ↔ (((trim text).dropWhile isHeaderUnit).dropWhile isWhiteSpace).head? = some 63) := by
  rw [parseScpiCommand] at h
  split at h
  · cases h
  next text hstrip =>
  refine ⟨text, hstrip, ?_⟩
  generalize trim text = message at h
  dsimp only at h
  split at h
  · cases h
  split at h
  · cases h
  split at h
  · cases h
  next path channel hheader =>
  split at h
  · cases h
  next args _ =>
  obtain rfl := Except.ok.inj h
  clear h
  have hends := head?_dropWhile_inHeader message
  have hparts := List.takeWhile_append_dropWhile (p := fun ch : UInt16 => !(ch = 32 || ch = 9 || ch = 44))
    (l := message)
  generalize List.takeWhile (fun ch : UInt16 => !(ch = 32 || ch = 9 || ch = 44)) message = header at *
  generalize List.dropWhile (fun ch : UInt16 => !(ch = 32 || ch = 9 || ch = 44)) message = rest at *
  have hrest : ∀ u ∈ rest.head?, isHeaderUnit u = false := by
    intro u hu
    rcases hends u hu with rfl | rfl | rfl <;> rfl
  obtain ⟨hne, hunits⟩ := isHeaderUnit_of_parseHeader hheader
  -- a header that is not empty begins the message
  have hhead : ∀ {headerText tail : JsString}, headerText ≠ [] → (∀ u ∈ headerText, isHeaderUnit u = true) →
      ∃ u ∈ (headerText ++ tail).head?, isHeaderUnit u = true := by
    intro headerText tail hne hunits
    obtain ⟨u, headerText, rfl⟩ := List.exists_cons_of_ne_nil hne
    exact ⟨u, rfl, hunits u List.mem_cons_self⟩
  by_cases hattached : header.getLast? = some 63
  · -- the question mark is the last unit of the header
    rw [if_pos (decide_eq_true hattached)] at hne hunits
    obtain ⟨blanks, hblanks, hspaces⟩ := exists_of_trimEnd header.dropLast
    have hmessage : message = trimEnd header.dropLast ++ (blanks ++ 63 :: rest) := by
      rw [← hparts, ← List.dropLast_append_getLast? 63 hattached]
      conv_lhs => rw [hblanks]
      simp
    rw [hmessage]
    refine ⟨hhead hne hunits, ?_⟩
    rw [dropWhile_header hunits hspaces (by rintro u ⟨⟩; rfl), List.dropWhile_cons_of_neg (by decide)]
    simp [hattached]
  · rw [if_neg (by simpa using hattached)] at hne hunits
    obtain ⟨blanks, hblanks, hspaces⟩ := exists_of_trimEnd header
    have hmessage : message = trimEnd header ++ (blanks ++ rest) := by
      rw [← hparts, ← List.append_assoc, ← hblanks]
    rw [hmessage]
    refine ⟨hhead hne hunits, ?_⟩
    rw [dropWhile_header hunits hspaces hrest, ← trimStart, decide_eq_false hattached, Bool.false_or, Bool.not_false,
      Bool.true_and, decide_eq_true_eq]

end Pinout.Scpi
