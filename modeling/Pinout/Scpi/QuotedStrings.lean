import Mathlib.Data.List.Forall2
import Pinout.Scpi.Headers

/-! # Quoted strings

An argument of a command (`packages/protocols-scpi/src/parser.ts`) is quoted by doubling the quotes in it. Comments are
removed, white space is trimmed, the text is cut at commas and then each argument is unquoted: what each of these passes
does to one argument among others is stated for any text behind it, and a command is read as it was written
(`parseScpiCommand_written`). -/

namespace Pinout.Scpi

open Foundation Protocol

section Passes

variable {u quote : UInt16} {blanks text rest value : JsString}

/-! ## White space -/

theorem isWhiteSpace_spec (h : isWhiteSpace u = true) : isQuote u = false ∧ u ≠ 47 ∧ u ≠ 44 ∧ u ≠ 63 := by
  refine ⟨?_, ?_, ?_, ?_⟩
  · rw [Bool.eq_false_iff]
    intro hquote
    simp only [isQuote, Bool.or_eq_true, decide_eq_true_eq] at hquote
    rcases hquote with rfl | rfl <;> revert h <;> decide
  all_goals
    rintro rfl
    revert h
    decide

theorem isWhiteSpace_of_isQuote (h : isQuote u = true) : isWhiteSpace u = false := by
  rw [Bool.eq_false_iff]
  intro hspace
  rw [(isWhiteSpace_spec hspace).1] at h
  cases h

theorem trim_blanks_append (hblanks : ∀ u ∈ blanks, isWhiteSpace u = true) (text : JsString) :
    trim (blanks ++ text) = trim text := by
  rw [trim, List.dropWhile_append_of_pos hblanks, trim]

theorem trimEnd_append_blanks (hblanks : ∀ u ∈ blanks, isWhiteSpace u = true) (text : JsString) :
    trimEnd (text ++ blanks) = trimEnd text := by
  rw [trimEnd, List.reverse_append, List.dropWhile_append_of_pos (by simpa using hblanks), trimEnd]

theorem trim_append_blanks (hblanks : ∀ u ∈ blanks, isWhiteSpace u = true) (text : JsString) :
    trim (text ++ blanks) = trim text := by
  change trimEnd ((text ++ blanks).dropWhile isWhiteSpace) = trimEnd (text.dropWhile isWhiteSpace)
  rw [List.dropWhile_append]
  split
  · next hempty =>
    rw [List.isEmpty_iff.mp hempty, List.dropWhile_eq_nil_iff.mpr hblanks]
  · exact trimEnd_append_blanks hblanks _

theorem exists_of_trim (text : JsString) : ∃ front back : JsString, text = front ++ (trim text ++ back) ∧
    (∀ u ∈ front, isWhiteSpace u = true) ∧ ∀ u ∈ back, isWhiteSpace u = true := by
  obtain ⟨back, hback, hblanks⟩ := exists_of_trimEnd (text.dropWhile isWhiteSpace)
  refine ⟨text.takeWhile isWhiteSpace, back, ?_, fun _ => List.mem_takeWhile_imp, hblanks⟩
  change text = _ ++ (trimEnd (text.dropWhile isWhiteSpace) ++ back)
  rw [← hback, List.takeWhile_append_dropWhile]

/-! ## Cutting at commas -/

theorem splitArguments_blanks_append (hblanks : ∀ u ∈ blanks, isWhiteSpace u = true) (current text : JsString) :
    splitArguments none current (blanks ++ text) = splitArguments none (current ++ blanks) text := by
  induction blanks generalizing current with
  | nil => rw [List.nil_append, List.append_nil]
  | cons u blanks ih =>
    obtain ⟨hspace, hblanks⟩ := List.forall_mem_cons.mp hblanks
    obtain ⟨hquote, -, hcomma, -⟩ := isWhiteSpace_spec hspace
    rw [List.cons_append, splitArguments, if_neg (by rw [hquote]; exact Bool.false_ne_true), if_neg hcomma, ih hblanks, ← List.append_cons]

theorem splitArguments_trimmed (hblanks : ∀ u ∈ blanks, isWhiteSpace u = true) (state : Option UInt16)
    (current text : JsString) : splitArguments state (blanks ++ current) text = splitArguments state current text := by
  fun_induction splitArguments state current text with
  | case1 current => rw [splitArguments, trim_blanks_append hblanks]
  | case2 current ch rest hquote ih => rw [splitArguments, if_pos hquote, List.append_assoc, ih]
  | case3 current rest hquote ih => rw [splitArguments, if_neg hquote, if_pos rfl, trim_blanks_append hblanks]
  | case4 current ch rest hquote hcomma ih => rw [splitArguments, if_neg hquote, if_neg hcomma, List.append_assoc, ih]
  | case5 quote current => rw [splitArguments]
  | case6 current quote => rw [splitArguments, if_pos rfl, List.append_assoc, trim_blanks_append hblanks]
  | case7 quote current ch hne => rw [splitArguments, if_neg hne]
  | case8 quote current ch next rest hdouble ih => rw [splitArguments, if_pos hdouble, List.append_assoc, ih]
  | case9 current quote next rest hdouble ih =>
    rw [splitArguments_close fun h => hdouble ⟨rfl, h⟩, List.append_assoc, ih]
  | case10 quote current ch next rest hdouble hne ih =>
    rw [splitArguments, if_neg hdouble, if_neg hne, List.append_assoc, ih]

theorem splitArguments_quoted_blanks (hquote : isQuote quote = true) (hblanks : ∀ u ∈ blanks, isWhiteSpace u = true)
    (current : JsString) : splitArguments (some quote) current blanks =
      .error (parseError (js "Unterminated quoted string in arguments.")) := by
  induction blanks generalizing current with
  | nil => rw [splitArguments]
  | cons u blanks ih =>
    obtain ⟨hspace, hblanks⟩ := List.forall_mem_cons.mp hblanks
    have hne : u ≠ quote := by
      rintro rfl
      rw [(isWhiteSpace_spec hspace).1] at hquote
      cases hquote
    cases blanks with
    | nil => rw [splitArguments, if_neg hne]
    | cons v blanks => rw [splitArguments, if_neg fun h => hne h.1, if_neg hne, ih hblanks]

theorem splitArguments_append_blanks (hblanks : ∀ u ∈ blanks, isWhiteSpace u = true) {state : Option UInt16}
    (hstate : ∀ quote ∈ state, isQuote quote = true) (current text : JsString) :
    splitArguments state current (text ++ blanks) = splitArguments state current text := by
  have hbehind : ∀ current, splitArguments none current blanks = .ok [trim current] := by
    intro current
    rw [← List.append_nil blanks, splitArguments_blanks_append hblanks, splitArguments, trim_append_blanks hblanks]
  fun_induction splitArguments state current text with
  | case1 current => exact hbehind current
  | case2 current ch rest hquote ih =>
    rw [List.cons_append, splitArguments, if_pos hquote, ih (by rintro _ ⟨⟩; exact hquote)]
  | case3 current rest hquote ih => rw [List.cons_append, splitArguments, if_neg hquote, if_pos rfl, ih hstate]
  | case4 current ch rest hquote hcomma ih =>
    rw [List.cons_append, splitArguments, if_neg hquote, if_neg hcomma, ih hstate]
  | case5 quote current => exact splitArguments_quoted_blanks (hstate quote rfl) hblanks current
  | case6 current quote =>
    have hquote := hstate quote rfl
    cases blanks with
    | nil => rw [List.append_nil, splitArguments, if_pos rfl]
    | cons u blanks =>
      have hne : u ≠ quote := by
        rintro rfl
        rw [(isWhiteSpace_spec (hblanks u List.mem_cons_self)).1] at hquote
        cases hquote
      rw [List.singleton_append, splitArguments, if_neg fun h => hne h.2, if_pos rfl, hbehind]
  | case7 quote current ch hne =>
    cases blanks with
    | nil => rw [List.append_nil, splitArguments, if_neg hne]
    | cons u blanks =>
      rw [List.singleton_append, splitArguments, if_neg fun h => hne h.1, if_neg hne,
        splitArguments_quoted_blanks (hstate quote rfl) hblanks]
  | case8 quote current ch next rest hdouble ih =>
    rw [List.cons_append, List.cons_append, splitArguments, if_pos hdouble, ih hstate]
  | case9 current quote next rest hdouble ih =>
    rw [List.cons_append, List.cons_append, splitArguments_close fun h => hdouble ⟨rfl, h⟩, ← List.cons_append,
      ih (by rintro _ ⟨⟩)]
  | case10 quote current ch next rest hdouble hne ih =>
    rw [List.cons_append, List.cons_append, splitArguments, if_neg hdouble, if_neg hne, ← List.cons_append, ih hstate]

/-- **White space around the arguments** does not count. -/
theorem splitArguments_trim (text : JsString) : splitArguments none [] (trim text) = splitArguments none [] text := by
  obtain ⟨front, back, htext, hfront, hback⟩ := exists_of_trim text
  have hnone : ∀ quote ∈ (none : Option UInt16), isQuote quote = true := nofun
  conv_rhs => rw [htext]
  rw [splitArguments_blanks_append hfront, splitArguments_append_blanks hback hnone,
    ← List.append_nil ([] ++ front), List.nil_append, splitArguments_trimmed hfront]

/-! ## Quoted strings -/

def doubled (quote : UInt16) : JsString → JsString
  | [] => []
  | u :: text => if u = quote then quote :: quote :: doubled quote text else u :: doubled quote text

def quoted (quote : UInt16) (value : JsString) : JsString := quote :: (doubled quote value ++ [quote])

/-- **Unquoting** gives the text back. -/
theorem undouble_doubled (quote : UInt16) (value : JsString) : undouble quote (doubled quote value) = value := by
  induction value with
  | nil => rfl
  | cons u value ih =>
    rw [doubled]
    split
    · next heq => rw [undouble, if_pos ⟨rfl, rfl⟩, ih, heq]
    · next hne =>
      cases htail : doubled quote value with
      | nil => rw [undouble, ← ih, htail, undouble]
      | cons v tail => rw [undouble, if_neg fun h => hne h.1, ← htail, ih]

theorem stripComments_doubled (hrest : rest.head? ≠ some quote) (value : JsString) :
    stripComments (.quoted quote) (doubled quote value ++ quote :: rest) =
      (stripComments .plain rest).map (doubled quote value ++ quote :: ·) := by
  induction value with
  | nil =>
    rw [doubled, List.nil_append]
    cases rest with
    | nil => simp [stripComments, Except.map]
    | cons v rest =>
      have hne : v ≠ quote := fun h => hrest (congrArg some h)
      rw [stripComments, if_neg fun h => hne h.2, if_pos rfl]
      rfl
  | cons u value ih =>
    rw [doubled]
    split
    · rw [List.cons_append, List.cons_append, stripComments, if_pos ⟨rfl, rfl⟩, ih]
      cases stripComments .plain rest <;> rfl
    · next hne =>
      obtain ⟨v, tail, htail⟩ : ∃ v tail, doubled quote value ++ quote :: rest = v :: tail :=
        List.exists_cons_of_ne_nil (by simp)
      rw [List.cons_append, htail, stripComments, if_neg fun h => hne h.1, if_neg hne, ← htail, ih]
      cases stripComments .plain rest <;> rfl

theorem splitArguments_doubled (hrest : rest.head? ≠ some quote) (current value : JsString) :
    splitArguments (some quote) current (doubled quote value ++ quote :: rest) =
      splitArguments none (current ++ (doubled quote value ++ [quote])) rest := by
  induction value generalizing current with
  | nil =>
    rw [doubled, List.nil_append, List.nil_append]
    cases rest with
    | nil => simp [splitArguments]
    | cons v rest => exact splitArguments_close (fun h => hrest (congrArg some h)) current rest
  | cons u value ih =>
    rw [doubled]
    split
    · rw [List.cons_append, List.cons_append, splitArguments, if_pos ⟨rfl, rfl⟩, ih, List.append_assoc]
      rfl
    · next hne =>
      obtain ⟨v, tail, htail⟩ : ∃ v tail, doubled quote value ++ quote :: rest = v :: tail :=
        List.exists_cons_of_ne_nil (by simp)
      rw [List.cons_append, htail, splitArguments, if_neg fun h => hne h.1, if_neg hne, ← htail, ih, List.append_assoc]
      rfl

/-- **A quoted string stays** when comments are removed. -/
theorem stripComments_quoted (hquote : isQuote quote = true) (hrest : rest.head? ≠ some quote) (value : JsString) :
    stripComments .plain (quoted quote value ++ rest) = (stripComments .plain rest).map (quoted quote value ++ ·) := by
  rw [quoted, List.cons_append, List.append_assoc, List.singleton_append, stripComments_open hquote,
    stripComments_doubled hrest]
  cases stripComments .plain rest with
  | error thrown => rfl
  | ok out =>
    rw [Except.map, Except.map, Except.map, List.cons_append, List.append_assoc, List.singleton_append]

/-- **A quoted string stays in one piece** when the text is cut. -/
theorem splitArguments_quoted (hquote : isQuote quote = true) (hrest : rest.head? ≠ some quote)
    (current value : JsString) : splitArguments none current (quoted quote value ++ rest) =
      splitArguments none (current ++ quoted quote value) rest := by
  rw [quoted, List.cons_append, List.append_assoc, List.singleton_append, splitArguments, if_pos hquote,
    splitArguments_doubled hrest, List.append_assoc]
  rfl

/-- **A quoted string stands for its text.** -/
theorem classifyArgument_quoted (hquote : isQuote quote = true) (value : JsString) :
    classifyArgument (quoted quote value) = .ok (.text value) := by
  have hlast : (quoted quote value).getLast? = some quote := by
    rw [quoted, ← List.cons_append, List.getLast?_concat]
  have hlength : ¬ (quoted quote value).length < 2 := by
    rw [quoted, List.length_cons, List.length_append, List.length_singleton]
    omega
  rw [classifyArgument, hlast, quoted, List.head?_cons, Option.filter_some, if_pos hquote]
  dsimp only
  have hunquote : unquote (quoted quote value) = value := by
    rw [quoted, unquote.eq_def]
    dsimp only
    rw [List.dropLast_concat, undouble_doubled]
  rw [← quoted, if_neg (by simp [hlength]), hunquote]

/-! ## Arguments -/

/-- A text that is in one piece, and in which no comment begins: quoted strings, and what is no quote, no comma and no
mark of a comment. -/
inductive IsToken : JsString → Prop
  | nil : IsToken []
  | unit {u : UInt16} {text : JsString} (hquote : isQuote u = false) (hcomma : u ≠ 44)
      (hslash : u = 47 → ∀ next ∈ text.head?, next ≠ 47 ∧ next ≠ 42) (htext : IsToken text) : IsToken (u :: text)
  | string {quote : UInt16} {text : JsString} (value : JsString) (hquote : isQuote quote = true)
      (hclosed : text.head? ≠ some quote) (htext : IsToken text) : IsToken (quoted quote value ++ text)

theorem stripComments_unit (hquote : isQuote u = false)
    (hslash : u = 47 → ∀ next ∈ text.head?, next ≠ 47 ∧ next ≠ 42) :
    stripComments .plain (u :: text) = (stripComments .plain text).map (u :: ·) := by
  cases text with
  | nil => simp [stripComments, hquote, Except.map]
  | cons v text =>
    rw [stripComments, if_neg (by rw [hquote]; exact Bool.false_ne_true), if_neg fun h => (hslash h.1 v rfl).1 h.2,
      if_neg fun h => (hslash h.1 v rfl).2 h.2]

/-- What stands behind two texts is what stands behind the second, or behind both when that is empty. -/
theorem head?_append_cases {text rest : JsString} (hu : u ∈ (text ++ rest).head?) :
    u ∈ text.head? ∨ text = [] ∧ u ∈ rest.head? := by
  cases text with
  | nil => exact .inr ⟨rfl, hu⟩
  | cons v text => exact .inl hu

theorem head?_append_ne (hquote : isQuote quote = true) (hclosed : text.head? ≠ some quote)
    (hrest : ∀ u ∈ rest.head?, isQuote u = false) : (text ++ rest).head? ≠ some quote := by
  intro hhead
  rcases head?_append_cases (Option.mem_def.mpr hhead) with htext | ⟨-, hmem⟩
  · exact hclosed htext
  · rw [hrest quote hmem] at hquote
    cases hquote

theorem getLast?_append_of_eq {front : JsString} (h : text.getLast? = some u) : (front ++ text).getLast? = some u := by
  rw [List.getLast?_append, h]
  rfl

/-- **An argument stays** when comments are removed, unless what follows makes its last slash one. -/
theorem stripComments_token {token : JsString} (htoken : IsToken token) (hrest : ∀ u ∈ rest.head?, isQuote u = false)
    (hcomment : token.getLast? = some 47 → ∀ next ∈ rest.head?, next ≠ 47 ∧ next ≠ 42) :
    stripComments .plain (token ++ rest) = (stripComments .plain rest).map (token ++ ·) := by
  induction htoken with
  | nil =>
    rw [List.nil_append]
    cases stripComments .plain rest <;> rfl
  | @unit u text hquote _ hslash _ ih =>
    have hnext : u = 47 → ∀ next ∈ (text ++ rest).head?, next ≠ 47 ∧ next ≠ 42 := by
      rintro rfl next hnext
      rcases head?_append_cases hnext with htext | ⟨rfl, hmem⟩
      · exact hslash rfl next htext
      · exact hcomment rfl next hmem
    rw [List.cons_append, stripComments_unit hquote hnext,
      ih fun hlast => hcomment (@getLast?_append_of_eq 47 text [u] hlast)]
    cases stripComments .plain rest <;> rfl
  | @string quote text value hquote hclosed _ ih =>
    rw [List.append_assoc, stripComments_quoted hquote (head?_append_ne hquote hclosed hrest),
      ih fun hlast => hcomment (getLast?_append_of_eq hlast)]
    cases stripComments .plain rest with
    | error thrown => rfl
    | ok out => rw [Except.map, Except.map, Except.map, List.append_assoc]

/-- **An argument stays in one piece** when the text is cut. -/
theorem splitArguments_token {token : JsString} (htoken : IsToken token) (hrest : ∀ u ∈ rest.head?, isQuote u = false)
    (current : JsString) : splitArguments none current (token ++ rest) =
      splitArguments none (current ++ token) rest := by
  induction htoken generalizing current with
  | nil => rw [List.nil_append, List.append_nil]
  | @unit u text hquote hcomma _ _ ih =>
    rw [List.cons_append, splitArguments, if_neg (by rw [hquote]; exact Bool.false_ne_true), if_neg hcomma, ih, ← List.append_cons]
  | @string quote text value hquote hclosed _ ih =>
    rw [List.append_assoc, splitArguments_quoted hquote (head?_append_ne hquote hclosed hrest), ih, List.append_assoc]

end Passes

/-! ## Arguments as they are written -/

/-- An argument of a command: a text in one piece that stands for something. -/
structure ArgumentText where
  text : JsString
  value : ScpiArgument
  isToken : IsToken text
  nonempty : text ≠ []
  isWhiteSpace_head? : ∀ u ∈ text.head?, isWhiteSpace u = false
  isWhiteSpace_getLast? : ∀ u ∈ text.getLast?, isWhiteSpace u = false
  classifyArgument_text : classifyArgument text = .ok value

theorem getLast?_quoted (quote : UInt16) (value : JsString) : (quoted quote value).getLast? = some quote := by
  rw [quoted, ← List.cons_append, List.getLast?_concat]

def ArgumentText.ofText {quote : UInt16} (hquote : isQuote quote = true) (value : JsString) : ArgumentText where
  text := quoted quote value
  value := .text value
  isToken := by
    rw [← List.append_nil (quoted quote value)]
    exact .string value hquote nofun .nil
  nonempty := List.cons_ne_nil _ _
  isWhiteSpace_head? := by
    rintro u ⟨⟩
    exact isWhiteSpace_of_isQuote hquote
  isWhiteSpace_getLast? := by
    intro u hu
    rw [getLast?_quoted] at hu
    obtain rfl := Option.some.inj hu
    exact isWhiteSpace_of_isQuote hquote
  classifyArgument_text := classifyArgument_quoted hquote value

/-- What may stand around an argument: white space and comments, which are read as white space. -/
structure Gap where
  text : JsString
  blanks : JsString
  isWhiteSpace_blanks : ∀ u ∈ blanks, isWhiteSpace u = true
  stripComments_text : ∀ rest, stripComments .plain (text ++ rest) = (stripComments .plain rest).map (blanks ++ ·)

namespace Gap

def ofBlanks (blanks : JsString) (hblanks : ∀ u ∈ blanks, isWhiteSpace u = true) : Gap where
  text := blanks
  blanks := blanks
  isWhiteSpace_blanks := hblanks
  stripComments_text := stripComments_append fun u hu =>
    ⟨(isWhiteSpace_spec (hblanks u hu)).1, (isWhiteSpace_spec (hblanks u hu)).2.1⟩

variable {u : UInt16}

theorem isWhiteSpace_or_eq (g : Gap) (hu : u ∈ g.text.head?) : isWhiteSpace u = true ∨ u = 47 := by
  by_cases hslash : u = 47
  · exact .inr hslash
  · refine .inl ?_
    have hstrip := g.stripComments_text []
    rw [List.append_nil, ← List.cons_head?_tail hu, stripComments, Except.map, List.append_nil] at hstrip
    obtain ⟨out, hout⟩ : ∃ out, g.blanks = u :: out := by
      by_cases hquote : isQuote u = true
      · exact exists_of_stripComments_quote hquote hstrip
      · rw [stripComments_cons (by simpa using hquote) hslash] at hstrip
        obtain ⟨out, -, hout⟩ := map_eq_ok_iff.mp hstrip
        exact ⟨out, hout.symm⟩
    exact g.isWhiteSpace_blanks u (hout ▸ List.mem_cons_self)

theorem isQuote_head? (g : Gap) (hu : u ∈ g.text.head?) : isQuote u = false := by
  rcases g.isWhiteSpace_or_eq hu with hspace | rfl
  · exact (isWhiteSpace_spec hspace).1
  · rfl

theorem isHeaderUnit_head? (g : Gap) (hu : u ∈ g.text.head?) : isHeaderUnit u = false := by
  rcases g.isWhiteSpace_or_eq hu with hspace | rfl
  · exact isHeaderUnit_of_isWhiteSpace hspace
  · rfl

theorem blanks_eq_nil (g : Gap) (h : g.text = []) : g.blanks = [] := by
  have hstrip := g.stripComments_text []
  rw [h, List.nil_append, stripComments, Except.map, List.append_nil] at hstrip
  exact (Except.ok.inj hstrip).symm

end Gap

structure WrittenArgument where
  lead : Gap
  argument : ArgumentText
  trail : Gap
  /-- The argument and what follows it do not begin a comment together. -/
  apart : argument.text.getLast? = some 47 → ∀ next ∈ trail.text.head?, next ≠ 47 ∧ next ≠ 42

namespace WrittenArgument

def text (w : WrittenArgument) : JsString := w.lead.text ++ (w.argument.text ++ w.trail.text)

def stripped (w : WrittenArgument) : JsString := w.lead.blanks ++ (w.argument.text ++ w.trail.blanks)

variable {rest : JsString}

theorem stripComments_text (w : WrittenArgument) (hrest : ∀ u ∈ rest.head?, u = 44) :
    stripComments .plain (w.text ++ rest) = (stripComments .plain rest).map (w.stripped ++ ·) := by
  have hhead : ∀ u ∈ (w.trail.text ++ rest).head?, u ∈ w.trail.text.head? ∨ u = 44 := fun u hu =>
    (head?_append_cases hu).imp_right fun hmem => hrest u hmem.2
  have hquote : ∀ u ∈ (w.trail.text ++ rest).head?, isQuote u = false := by
    intro u hu
    rcases hhead u hu with htrail | rfl
    · exact w.trail.isQuote_head? htrail
    · rfl
  have hslash : w.argument.text.getLast? = some 47 →
      ∀ next ∈ (w.trail.text ++ rest).head?, next ≠ 47 ∧ next ≠ 42 := by
    intro hlast next hnext
    rcases hhead next hnext with htrail | rfl
    · exact w.apart hlast next htrail
    · decide
  rw [text, stripped, List.append_assoc, List.append_assoc, w.lead.stripComments_text,
    stripComments_token w.argument.isToken hquote hslash, w.trail.stripComments_text]
  cases stripComments .plain rest with
  | error thrown => rfl
  | ok out => simp [Except.map]

/-- An argument and the white space around it are one piece of the text. -/
theorem splitArguments_stripped (w : WrittenArgument) (hrest : ∀ u ∈ rest.head?, u = 44) (current : JsString) :
    splitArguments none current (w.stripped ++ rest) = splitArguments none (current ++ w.stripped) rest := by
  have hquote : ∀ u ∈ (w.trail.blanks ++ rest).head?, isQuote u = false := by
    intro u hu
    rcases head?_append_cases hu with htrail | ⟨-, hmem⟩
    · exact (isWhiteSpace_spec (w.trail.isWhiteSpace_blanks u (List.mem_of_mem_head? htrail))).1
    · obtain rfl := hrest u hmem
      rfl
  rw [stripped, List.append_assoc, List.append_assoc, splitArguments_blanks_append w.lead.isWhiteSpace_blanks,
    splitArguments_token w.argument.isToken hquote, splitArguments_blanks_append w.trail.isWhiteSpace_blanks]
  simp

/-- **White space around an argument is trimmed.** -/
theorem trim_stripped (w : WrittenArgument) : trim w.stripped = w.argument.text := by
  rw [stripped, trim_blanks_append w.lead.isWhiteSpace_blanks, trim_append_blanks w.trail.isWhiteSpace_blanks]
  exact trim_eq_self w.argument.isWhiteSpace_head? w.argument.isWhiteSpace_getLast?

end WrittenArgument

/-! ## Commands as they are written -/

/-- **Arguments without their comments.** -/
theorem stripComments_join (arguments : List WrittenArgument) :
    stripComments .plain ([44].intercalate (arguments.map WrittenArgument.text)) =
      .ok ([44].intercalate (arguments.map WrittenArgument.stripped)) := by
  induction arguments with
  | nil => rfl
  | cons w arguments ih =>
    cases arguments with
    | nil =>
      have hstrip := @WrittenArgument.stripComments_text [] w nofun
      rw [List.append_nil, stripComments, Except.map, List.append_nil] at hstrip
      simpa using hstrip
    | cons w' arguments =>
      rw [List.map_cons, List.map_cons, List.intercalate_cons_cons, ← List.map_cons, List.append_assoc,
        List.singleton_append, w.stripComments_text (by rintro u ⟨⟩; rfl), stripComments_cons rfl (by decide), ih]
      simp [Except.map, List.intercalate_cons_cons]

/-- **Arguments are cut** at the commas between them. -/
theorem splitArguments_join {arguments : List WrittenArgument} (hne : arguments ≠ []) :
    splitArguments none [] ([44].intercalate (arguments.map WrittenArgument.stripped)) =
      .ok (arguments.map fun w => w.argument.text) := by
  induction arguments with
  | nil => exact absurd rfl hne
  | cons w arguments ih =>
    cases arguments with
    | nil =>
      have hsplit := @WrittenArgument.splitArguments_stripped [] w nofun []
      rw [List.append_nil, List.nil_append, splitArguments, w.trim_stripped] at hsplit
      simpa using hsplit
    | cons w' arguments =>
      rw [List.map_cons, List.map_cons, List.intercalate_cons_cons, ← List.map_cons, List.append_assoc,
        List.singleton_append, w.splitArguments_stripped (by rintro u ⟨⟩; rfl), splitArguments, if_neg (by decide),
        if_pos rfl, ih (List.cons_ne_nil _ _), List.nil_append, w.trim_stripped]
      rfl

/-- **Arguments are read** one by one. -/
theorem classifyArguments_texts (input : JsString) (arguments : List WrittenArgument) :
    classifyArguments input (arguments.map fun w => w.argument.text) =
      .ok (arguments.map fun w => w.argument.value) := by
  induction arguments with
  | nil => rfl
  | cons w arguments ih =>
    rw [List.map_cons, classifyArguments, if_neg (by simpa using w.argument.nonempty),
      w.argument.classifyArgument_text, ih]
    rfl

/-- Of the text behind a header only what is between the white space at its ends counts. -/
theorem parseArguments_congr {argText argText' : JsString} (h : trim argText = trim argText') (input : JsString) :
    parseArguments input argText = parseArguments input argText' := by
  rw [parseArguments, parseArguments, h]

theorem exists_of_join {arguments : List WrittenArgument} (hne : arguments ≠ []) :
    ∃ w ∈ arguments.head?, ∃ first rest, w.argument.text.head? = some first ∧ isWhiteSpace first = false ∧
      [44].intercalate (arguments.map WrittenArgument.stripped) = w.lead.blanks ++ first :: rest := by
  obtain ⟨w, arguments, rfl⟩ := List.exists_cons_of_ne_nil hne
  obtain ⟨first, more, htext⟩ := List.exists_cons_of_ne_nil w.argument.nonempty
  have hhead := w.argument.isWhiteSpace_head?
  rw [htext] at hhead
  refine ⟨w, rfl, first, ?_⟩
  rw [htext]
  cases arguments with
  | nil => exact ⟨more ++ w.trail.blanks, rfl, hhead first rfl, by simp [WrittenArgument.stripped, htext]⟩
  | cons w' arguments =>
    rw [List.map_cons, List.map_cons, List.intercalate_cons_cons, WrittenArgument.stripped, htext, List.append_assoc,
      List.append_assoc, List.append_assoc, List.cons_append]
    exact ⟨_, rfl, hhead first rfl, rfl⟩

theorem trimEnd_append_cons {u : UInt16} (hu : isWhiteSpace u = false) (front rest : JsString) :
    trimEnd (front ++ u :: rest) = front ++ u :: trimEnd rest :=
  rdropWhile_append_cons hu front rest

theorem trim_append_cons {u : UInt16} {blanks : JsString} (hblanks : ∀ u ∈ blanks, isWhiteSpace u = true)
    (hu : isWhiteSpace u = false) (rest : JsString) : trim (blanks ++ u :: rest) = u :: trimEnd rest := by
  rw [trim_blanks_append hblanks, trim, List.dropWhile_cons_of_neg (by rw [hu]; exact Bool.false_ne_true)]
  exact trimEnd_append_cons hu [] rest

/-- **Arguments are read as they were written.** -/
theorem parseArguments_join {arguments : List WrittenArgument} (hne : arguments ≠ []) (input : JsString) :
    parseArguments input ([44].intercalate (arguments.map WrittenArgument.stripped)) =
      .ok (arguments.map fun w => w.argument.value) := by
  obtain ⟨w, -, first, rest, -, hfirst, hbegin⟩ := exists_of_join hne
  have htrim : (trim ([44].intercalate (arguments.map WrittenArgument.stripped))).isEmpty = false := by
    rw [hbegin, trim_append_cons w.lead.isWhiteSpace_blanks hfirst]
    rfl
  rw [parseArguments, htrim, if_neg (by decide), splitArguments_trim, splitArguments_join hne]
  exact classifyArguments_texts input arguments

/-- A question mark behind a header, with what may stand in front of it. -/
def markText : Option Gap → JsString
  | none => []
  | some gap => gap.text ++ [63]

theorem trimEnd_blanks {blanks : JsString} (hblanks : ∀ u ∈ blanks, isWhiteSpace u = true) : trimEnd blanks = [] := by
  rw [← List.nil_append blanks, trimEnd_append_blanks hblanks]
  rfl

section Tail

variable {tail stripped mark rest body : JsString} {args : List ScpiArgument}

theorem parseTail_bare (hstripped : stripComments .plain tail = .ok stripped) (htext : trimEnd stripped = rest)
    (hrest : ∀ v ∈ rest.head?, (!(v = 32 || v = 9 || v = 44) : Bool) = false)
    (hbody : (trimStart rest).head? ≠ some 63) (hargs : parseArguments [] rest = .ok args) :
    parseTail tail = some (false, args) := by
  have hnone : ∀ v ∈ ([] : JsString), (!(v = 32 || v = 9 || v = 44) : Bool) = true := nofun
  rw [parseTail, hstripped]
  dsimp only
  rw [htext, ← List.nil_append rest, takeWhile_append_of_head hnone hrest, dropWhile_append_of_head hnone hrest]
  simp [hbody, hargs, trimEnd]

theorem parseTail_attached (hstripped : stripComments .plain tail = .ok stripped)
    (htext : trimEnd stripped = mark ++ 63 :: rest) (hwhite : ∀ v ∈ mark, isWhiteSpace v = true)
    (hmark : ∀ v ∈ mark, (!(v = 32 || v = 9 || v = 44) : Bool) = true)
    (hrest : ∀ v ∈ rest.head?, (!(v = 32 || v = 9 || v = 44) : Bool) = false)
    (hargs : parseArguments [] rest = .ok args) : parseTail tail = some (true, args) := by
  have hname : ∀ v ∈ mark ++ [63], (!(v = 32 || v = 9 || v = 44) : Bool) = true :=
    List.forall_mem_append.mpr ⟨hmark, by decide⟩
  rw [parseTail, hstripped]
  dsimp only
  rw [htext, List.append_cons, takeWhile_append_of_head hname hrest, dropWhile_append_of_head hname hrest,
    List.getLast?_concat, List.dropLast_concat]
  simp [trimEnd_blanks hwhite, hargs]

theorem parseTail_separated (hstripped : stripComments .plain tail = .ok stripped)
    (htext : trimEnd stripped = mark ++ rest) (hwhite : ∀ v ∈ mark, isWhiteSpace v = true)
    (hmark : ∀ v ∈ mark, (!(v = 32 || v = 9 || v = 44) : Bool) = true)
    (hrest : ∀ v ∈ rest.head?, (!(v = 32 || v = 9 || v = 44) : Bool) = false)
    (hbody : trimStart rest = 63 :: body) (hargs : parseArguments [] body = .ok args) :
    parseTail tail = some (true, args) := by
  have hattached : mark.getLast? ≠ some 63 := by
    intro hlast
    have hwhite63 := hwhite 63 (List.mem_of_getLast? hlast)
    revert hwhite63
    decide
  rw [parseTail, hstripped]
  dsimp only
  rw [htext, takeWhile_append_of_head hmark hrest, dropWhile_append_of_head hmark hrest, hbody]
  simp [hattached, trimEnd_blanks hwhite, hargs]

end Tail

/-- **What follows a header** is read as it was written. -/
theorem parseTail_written (mark : Option Gap) {separator : Gap}
    (hseparator : ∃ u ∈ separator.blanks.head?, u = 32 ∨ u = 9) {arguments : List WrittenArgument}
    (hne : arguments ≠ []) (hfirst : mark = none → ∀ w ∈ arguments.head?, w.argument.text.head? ≠ some 63) :
    parseTail (markText mark ++ (separator.text ++ [44].intercalate (arguments.map WrittenArgument.text))) =
      some (mark.isSome, arguments.map fun w => w.argument.value) := by
  obtain ⟨w, hw, first, rest, hhead, hspace, hbegin⟩ := exists_of_join hne
  obtain ⟨u, hu, hends⟩ := hseparator
  obtain ⟨blanks, hblanks⟩ : ∃ blanks, separator.blanks = u :: blanks := ⟨_, (List.cons_head?_tail hu).symm⟩
  have hbehind : stripComments .plain (separator.text ++ [44].intercalate (arguments.map WrittenArgument.text)) =
      .ok (u :: blanks ++ (w.lead.blanks ++ first :: rest)) := by
    rw [separator.stripComments_text, stripComments_join, hblanks, hbegin, Except.map]
  have hwhite : ∀ v ∈ u :: blanks ++ w.lead.blanks, isWhiteSpace v = true :=
    List.forall_mem_append.mpr ⟨hblanks ▸ separator.isWhiteSpace_blanks, w.lead.isWhiteSpace_blanks⟩
  -- what is left of the arguments
  have hargs : parseArguments [] (u :: blanks ++ w.lead.blanks ++ first :: trimEnd rest) =
      .ok (arguments.map fun w => w.argument.value) := by
    rw [← parseArguments_join hne]
    refine parseArguments_congr ?_ []
    rw [trim_append_cons hwhite hspace, hbegin, trim_append_cons w.lead.isWhiteSpace_blanks hspace]
    exact congrArg (first :: ·) (List.rdropWhile_idempotent _ _)
  have hbody : trimStart (u :: blanks ++ w.lead.blanks ++ first :: trimEnd rest) = first :: trimEnd rest := by
    rw [trimStart, List.dropWhile_append_of_pos hwhite, List.dropWhile_cons_of_neg (by rw [hspace]; exact Bool.false_ne_true)]
  obtain ⟨body, hcons⟩ : ∃ body, u :: blanks ++ w.lead.blanks ++ first :: trimEnd rest = u :: body := ⟨_, rfl⟩
  rw [hcons] at hargs hbody
  have hstop : ∀ v ∈ (u :: body).head?, (!(v = 32 || v = 9 || v = 44) : Bool) = false := by
    rintro v ⟨⟩
    rcases hends with rfl | rfl <;> rfl
  cases mark with
  | none =>
    have hmark : first ≠ 63 := fun h => hfirst rfl w hw (hhead.trans (congrArg some h))
    rw [markText, List.nil_append]
    refine parseTail_bare hbehind ?_ hstop (by rw [hbody]; simpa using hmark) hargs
    rw [← List.append_assoc, trimEnd_append_cons hspace, hcons]
  | some gap =>
    have hgap := gap.isWhiteSpace_blanks
    have hstripped : stripComments .plain (markText (some gap) ++ (separator.text ++
        [44].intercalate (arguments.map WrittenArgument.text))) =
          .ok (gap.blanks ++ 63 :: (u :: blanks ++ (w.lead.blanks ++ first :: rest))) := by
      rw [markText, List.append_assoc, gap.stripComments_text, List.singleton_append,
        stripComments_cons rfl (by decide), hbehind]
      rfl
    have htext : trimEnd (gap.blanks ++ 63 :: (u :: blanks ++ (w.lead.blanks ++ first :: rest))) =
        gap.blanks ++ 63 :: u :: body := by
      rw [← List.append_assoc, ← List.cons_append, ← List.append_assoc, trimEnd_append_cons hspace, List.append_assoc,
        List.cons_append, hcons]
    by_cases hin : ∀ v ∈ gap.blanks, (!(v = 32 || v = 9 || v = 44) : Bool) = true
    · exact parseTail_attached hstripped htext hgap hin hstop hargs
    · -- the question mark is behind the end of the header
      obtain ⟨front, v, back, hsplit, hfront, hv⟩ := exists_first_of_not_forall hin
      rw [hsplit] at hgap hstripped htext
      obtain ⟨hgapFront, hgapBack⟩ := List.forall_mem_append.mp hgap
      refine parseTail_separated hstripped (htext.trans (List.append_assoc _ _ _)) hgapFront hfront ?_ ?_ hargs
      · rintro v' ⟨⟩
        exact hv
      · rw [trimStart, List.dropWhile_append_of_pos hgapBack, List.dropWhile_cons_of_neg (by decide)]

/-- **A command is read as it was written**, whatever texts are quoted in it. -/
theorem parseScpiCommand_written {name : JsString} {path : List JsString} {channel : Option Nat}
    (hheader : parseHeader name = .ok (path, channel)) (mark : Option Gap) {separator : Gap}
    (hseparator : ∃ u ∈ separator.blanks.head?, u = 32 ∨ u = 9) {arguments : List WrittenArgument}
    (hne : arguments ≠ []) (hfirst : mark = none → ∀ w ∈ arguments.head?, w.argument.text.head? ≠ some 63) :
    parseScpiCommand (name ++ (markText mark ++
        (separator.text ++ [44].intercalate (arguments.map WrittenArgument.text)))) =
      .ok ⟨path, channel, mark.isSome, arguments.map fun w => w.argument.value⟩ := by
  obtain ⟨hname, hunits⟩ := isHeaderUnit_of_parseHeader hheader
  refine (parseScpiCommand_append hname hunits ?_).mpr ⟨hheader, parseTail_written mark hseparator hne hfirst⟩
  -- neither a question mark nor a gap continues the header
  have hseparatorText : separator.text ≠ [] := by
    intro htext
    obtain ⟨u, hu, -⟩ := hseparator
    rw [separator.blanks_eq_nil htext] at hu
    cases hu
  have hgap : ∀ u ∈ (separator.text ++ [44].intercalate (arguments.map WrittenArgument.text)).head?,
      isHeaderUnit u = false := by
    intro u hu
    rw [List.head?_append_of_ne_nil _ hseparatorText] at hu
    exact separator.isHeaderUnit_head? hu
  cases mark with
  | none => exact hgap
  | some gap =>
    intro u hu
    rw [markText, List.append_assoc] at hu
    cases htext : gap.text with
    | nil =>
      rw [htext] at hu
      obtain rfl := Option.some.inj hu
      rfl
    | cons v text =>
      rw [htext] at hu
      obtain rfl := Option.some.inj hu
      exact gap.isHeaderUnit_head? (htext ▸ rfl)

/-- A text that is quoted, as one of the arguments of a command. -/
def WrittenArgument.ofText (lead : Gap) {quote : UInt16} (hquote : isQuote quote = true) (value : JsString)
    (trail : Gap) : WrittenArgument where
  lead := lead
  argument := .ofText hquote value
  trail := trail
  apart := by
    intro hlast
    obtain rfl := Option.some.inj ((getLast?_quoted quote value).symm.trans hlast)
    cases hquote

/-- **Any text that is quoted is read back**, as any argument of a command, and each of the others is what it is
alone. -/
theorem parseScpiCommand_quoted {name : JsString} {path : List JsString} {channel : Option Nat}
    (hheader : parseHeader name = .ok (path, channel)) (mark : Option Gap) {separator : Gap}
    (hseparator : ∃ u ∈ separator.blanks.head?, u = 32 ∨ u = 9) (before after : List WrittenArgument)
    (hfirst : mark = none → ∀ w ∈ before.head?, w.argument.text.head? ≠ some 63)
    (lead trail : Gap) {quote : UInt16} (hquote : isQuote quote = true) (value : JsString) :
    parseScpiCommand (name ++ (markText mark ++ (separator.text ++ [44].intercalate
        ((before ++ .ofText lead hquote value trail :: after).map WrittenArgument.text)))) =
      .ok ⟨path, channel, mark.isSome,
        before.map (fun w => w.argument.value) ++ .text value :: after.map fun w => w.argument.value⟩ := by
  rw [parseScpiCommand_written hheader mark hseparator (List.append_ne_nil_of_right_ne_nil _ (List.cons_ne_nil _ _)),
    List.map_append, List.map_cons]
  · rfl
  · intro hmark w hw
    cases before with
    | nil =>
      -- the first argument is the quoted one, and begins with a quote
      obtain rfl := Option.some.inj hw
      intro hhead
      obtain rfl := Option.some.inj hhead
      cases hquote
    | cons w' before => exact hfirst hmark w hw

/-- A text with commas, both quotes, what looks like comments, and blanks at its ends, behind another argument. -/
theorem parseScpiCommand_quoted_text :
    parseScpiCommand (js "DISP:TEXT 1, ' it''s //, /* \"x\" '") =
      .ok ⟨[js "DISPLAY", js "TEXT"], none, false, [.number (js "1"), .text (js " it's //, /* \"x\" ")]⟩ := by
  have hheader : parseHeader (js "DISP:TEXT") = .ok ([js "DISPLAY", js "TEXT"], none) := rfl
  let nothing : Gap := .ofBlanks [] (by decide)
  let blank : Gap := .ofBlanks [32] (by decide)
  let one : ArgumentText := ⟨js "1", .number (js "1"), .unit rfl (by decide) (by rintro ⟨⟩) .nil, by decide, by decide,
    by decide,
    rfl⟩
  have hseparator : ∃ u ∈ blank.blanks.head?, u = 32 ∨ u = 9 := ⟨32, rfl, .inl rfl⟩
  have hquote : isQuote 39 = true := rfl
  have hfirst : one.text.head? ≠ some 63 := by decide
  exact parseScpiCommand_quoted hheader none hseparator [⟨nothing, one, nothing, by rintro ⟨⟩⟩] []
    (by rintro - w ⟨⟩; exact hfirst) blank nothing hquote (js " it's //, /* \"x\" ")

end Pinout.Scpi
