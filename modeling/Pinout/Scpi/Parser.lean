import Pinout.Errors
import Pinout.Protocol.LineReader

/-! # SCPI commands

`parseScpiCommand` (`packages/protocols-scpi/src/parser.ts`): comments are removed, a header is split off
and its mnemonics are expanded, and what follows is cut into arguments. The loops over characters are
recursions over the text, with what the source keeps in local variables as their state. -/

namespace Pinout.Scpi

open Foundation Protocol

/-! ## Errors -/

/-- `new ScpiParseError(message)`. -/
def parseError (message : JsString) : Thrown :=
  .error (js "ScpiParseError") (some (js "SCPI_PARSE_ERROR")) message

/-- `new ScpiUsageError(message)`. -/
def usageError (message : JsString) : Thrown :=
  .error (js "ScpiUsageError") (some (js "SCPI_USAGE")) message

/-- `new ScpiTimeoutError(message)`. -/
def timeoutError (message : JsString) : Thrown :=
  .error (js "ScpiTimeoutError") (some (js "SCPI_TIMEOUT")) message

/-- `new ScpiClosedError(message)`. -/
def closedError (message : JsString) : Thrown :=
  .error (js "ScpiClosedError") (some (js "SCPI_CLOSED")) message

/-! ## Characters -/

/-- `'` or `"`. -/
def isQuote (u : UInt16) : Bool := u = 39 || u = 34

def trimStart (text : JsString) : JsString := text.dropWhile isWhiteSpace

def trimEnd (text : JsString) : JsString := (text.reverse.dropWhile isWhiteSpace).reverse

/-! ## Mnemonics -/

def mnemonicPairs : List (String × String) :=
  [("ABORt", "ABOR"), ("ACQuire", "ACQ"), ("AMPLitude", "AMPL"), ("APPLy", "APPL"),
    ("AVERage", "AVER"), ("BWIDth", "BWID"), ("CALibrate", "CAL"), ("CONDition", "COND"),
    ("CONFigure", "CONF"), ("COUPling", "COUP"), ("COUNt", "COUN"), ("CURRent", "CURR"),
    ("DATa", "DATA"), ("DELay", "DEL"), ("DISPlay", "DISP"), ("EDGe", "EDG"), ("ENABle", "ENAB"),
    ("ERRor", "ERR"), ("EVENt", "EVEN"), ("FREQuency", "FREQ"), ("FUNCtion", "FUNC"),
    ("FORmat", "FORM"), ("HCOPy", "HCOP"), ("IMMediate", "IMM"), ("INPut", "INP"),
    ("INITiate", "INIT"), ("INSTrument", "INST"), ("LENGth", "LEN"), ("LEVel", "LEV"),
    ("LIMit", "LIM"), ("MARKer", "MARK"), ("MEASure", "MEAS"), ("MEMOry", "MEM"), ("OFFSet", "OFFS"),
    ("OPERation", "OPER"), ("OUTPut", "OUTP"), ("PHASe", "PHAS"), ("POINts", "POIN"),
    ("POWer", "POW"), ("PROGram", "PROG"), ("QUEStionable", "QUES"), ("RANGe", "RANG"),
    ("RECall", "REC"), ("SENSe", "SENS"), ("SOURce", "SOUR"), ("STATe", "STAT"), ("STATus", "STAT"),
    ("SWEEp", "SWEE"), ("TRACe", "TRAC"), ("TRANsition", "TRANS"), ("TRIGger", "TRIG"),
    ("VOLTage", "VOLT"), ("WAVeform", "WAV"), ("WINDow", "WIND")]

/-- `expandMnemonic`, of letters: the last pair of the table that has the mnemonic counts. -/
def expandMnemonic (mnemonic : JsString) : JsString :=
  match mnemonicPairs.reverse.find? fun pair =>
      upperCase (js pair.1) = upperCase mnemonic || upperCase (js pair.2) = upperCase mnemonic with
  | some pair => upperCase (js pair.1)
  | none => upperCase mnemonic

/-! ## Comments -/

/-- Where `stripComments` is: in plain text, between quotes, or in a block comment. -/
inductive CommentState
  | plain
  | quoted (quote : UInt16)
  | block

def stripComments : CommentState → JsString → Except Thrown JsString
  | .plain, [] => .ok []
  | .plain, [ch] =>
    if isQuote ch then .error (parseError (js "Unterminated quoted string.")) else .ok [ch]
  | .plain, ch :: next :: rest =>
    if isQuote ch then (stripComments (.quoted ch) (next :: rest)).map (ch :: ·)
    else if ch = 47 ∧ next = 47 then .ok []
    else if ch = 47 ∧ next = 42 then (stripComments .block rest).map (32 :: ·)
    else (stripComments .plain (next :: rest)).map (ch :: ·)
  | .quoted _, [] => .error (parseError (js "Unterminated quoted string."))
  | .quoted quote, [ch] =>
    if ch = quote then .ok [ch] else .error (parseError (js "Unterminated quoted string."))
  | .quoted quote, ch :: next :: rest =>
    if ch = quote ∧ next = quote then
      (stripComments (.quoted quote) rest).map fun out => quote :: quote :: out
    else if ch = quote then (stripComments .plain (next :: rest)).map (ch :: ·)
    else (stripComments (.quoted quote) (next :: rest)).map (ch :: ·)
  | .block, ch :: next :: rest =>
    if ch = 42 ∧ next = 47 then stripComments .plain rest else stripComments .block (next :: rest)
  | .block, _ => .error (parseError (js "Unterminated block comment."))

theorem stripComments_open {quote : UInt16} (hquote : isQuote quote = true) (text : JsString) :
    stripComments .plain (quote :: text) = (stripComments (.quoted quote) text).map (quote :: ·) := by
  cases text with
  | nil => rw [stripComments, if_pos hquote, stripComments, Except.map]
  | cons v text => rw [stripComments, if_pos hquote]

/-! ## Arguments -/

inductive ScpiArgument
  | text (value : JsString)
  | number (token : JsString)
  | boolean (value : Bool)
  | infinity (negative : Bool)
  | notANumber
  deriving DecidableEq, Repr

/-- `splitArguments`, from where it is between quotes or not, with `current`. -/
def splitArguments : Option UInt16 → JsString → JsString → Except Thrown (List JsString)
  | none, current, [] => .ok [trim current]
  | none, current, ch :: rest =>
    if isQuote ch then splitArguments (some ch) (current ++ [ch]) rest
    else if ch = 44 then (splitArguments none [] rest).map (trim current :: ·)
    else splitArguments none (current ++ [ch]) rest
  | some _, _, [] => .error (parseError (js "Unterminated quoted string in arguments."))
  | some quote, current, [ch] =>
    if ch = quote then .ok [trim (current ++ [ch])]
    else .error (parseError (js "Unterminated quoted string in arguments."))
  | some quote, current, ch :: next :: rest =>
    if ch = quote ∧ next = quote then splitArguments (some quote) (current ++ [ch, quote]) rest
    else if ch = quote then splitArguments none (current ++ [ch]) (next :: rest)
    else splitArguments (some quote) (current ++ [ch]) (next :: rest)

theorem splitArguments_close {quote next : UInt16} (hnext : next ≠ quote) (current rest : JsString) :
    splitArguments (some quote) current (quote :: next :: rest) =
      splitArguments none (current ++ [quote]) (next :: rest) := by
  conv_lhs => rw [splitArguments]
  rw [if_neg fun h => hnext h.2, if_pos rfl]

/-- `body.split(quote + quote).join(quote)`. -/
def undouble (quote : UInt16) : JsString → JsString
  | [] => []
  | [ch] => [ch]
  | ch :: next :: rest =>
    if ch = quote ∧ next = quote then quote :: undouble quote rest
    else ch :: undouble quote (next :: rest)

def unquote (token : JsString) : JsString :=
  match token with
  | [] => []
  | quote :: rest => undouble quote rest.dropLast

def dropSign (text : JsString) : JsString :=
  match text with
  | ch :: rest => if ch = 43 ∨ ch = 45 then rest else text
  | [] => []

def isDigits (text : JsString) : Bool := !text.isEmpty && text.all isDigit

/-- `PLAIN_NUMBER`. -/
def isPlainNumber (token : JsString) : Bool :=
  let unsigned := dropSign token
  let whole := unsigned.takeWhile isDigit
  let behind := unsigned.dropWhile isDigit
  let fraction := match behind with
    | ch :: rest => if ch = 46 then rest.takeWhile isDigit else []
    | [] => []
  let exponent := match behind with
    | ch :: rest => if ch = 46 then rest.dropWhile isDigit else behind
    | [] => []
  (!whole.isEmpty || !fraction.isEmpty) && match exponent with
    | [] => true
    | ch :: rest => (ch = 101 || ch = 69) && isDigits (dropSign rest)

def classifyArgument (token : JsString) : Except Thrown ScpiArgument :=
  match token.head?.filter isQuote with
  | some first =>
    if token.length < 2 ∨ token.getLast? ≠ some first then
      .error (parseError (js "Unterminated quoted string in argument '" ++ token ++ js "'."))
    else .ok (.text (unquote token))
  | none =>
    let upper := upperCase token
    if upper = js "ON" then .ok (.boolean true)
    else if upper = js "OFF" then .ok (.boolean false)
    else if upper = js "INF" then .ok (.infinity false)
    else if upper = js "NINF" then .ok (.infinity true)
    else if upper = js "NAN" then .ok .notANumber
    else if upper ∈ [js "MIN", js "MAX", js "DEF", js "UP", js "DOWN"] then .ok (.text upper)
    else if isPlainNumber token then .ok (.number token)
    else .ok (.text token)

/-- The arguments of a command, one after the other. -/
def classifyArguments (input : JsString) : List JsString → Except Thrown (List ScpiArgument)
  | [] => .ok []
  | token :: tokens =>
    if token.isEmpty then .error (parseError (js "Empty argument in '" ++ trim input ++ js "'."))
    else match classifyArgument token with
      | .error e => .error e
      | .ok argument => (classifyArguments input tokens).map (argument :: ·)

/-- The text behind a header, cut into arguments. -/
def parseArguments (input argText : JsString) : Except Thrown (List ScpiArgument) :=
  let trimmedArgs := trim argText
  if trimmedArgs.isEmpty then .ok []
  else match splitArguments none [] trimmedArgs with
    | .error e => .error e
    | .ok tokens => classifyArguments input tokens

/-! ## Headers -/

/-- The mnemonics of a header, expanded, with the number of the first that has one. -/
def parsePath (headerText : JsString) : List JsString → Except Thrown (List JsString × Option Nat)
  | [] => .ok ([], none)
  | segment :: segments =>
    let letters := segment.takeWhile isLetter
    let digits := segment.dropWhile isLetter
    if segment.isEmpty then .error (parseError (js "Malformed header path '" ++ headerText ++ js "'."))
    else if letters.isEmpty ∨ ¬ digits.all isDigit then
      .error (parseError (js "Invalid header mnemonic '" ++ segment ++ js "'."))
    else match parsePath headerText segments with
      | .error e => .error e
      | .ok (path, channel) =>
        .ok (expandMnemonic letters :: path,
          if digits.isEmpty then channel else some (parseDecimal digits))

structure ScpiCommand where
  path : List JsString
  channel : Option Nat
  query : Bool
  args : List ScpiArgument
  deriving DecidableEq, Repr

/-- The path and the channel of a header without its question mark. -/
def parseHeader (headerText : JsString) : Except Thrown (List JsString × Option Nat) :=
  match headerText with
  | 42 :: name =>
    if name.isEmpty ∨ ¬ name.all isLetter then
      .error (parseError
        (js "Invalid IEEE 488.2 common command header '" ++ headerText ++ js "'."))
    else .ok ([upperCase headerText], none)
  | 58 :: rest => parsePath headerText (rest.splitOn 58)
  | _ => parsePath headerText (headerText.splitOn 58)

def parseScpiCommand (input : JsString) : Except Thrown ScpiCommand :=
  match stripComments .plain input with
  | .error e => .error e
  | .ok stripped =>
    let text := trim stripped
    let inHeader : UInt16 → Bool := fun ch => !(ch = 32 || ch = 9 || ch = 44)
    let header := text.takeWhile inHeader
    let rest := text.dropWhile inHeader
    if text.isEmpty then .error (parseError (js "Empty SCPI command."))
    else if header.isEmpty then
      .error (parseError (js "SCPI command has no header: '" ++ trim input ++ js "'"))
    else
      let attached : Bool := header.getLast? = some 63
      let separated : Bool := !attached && (trimStart rest).head? = some 63
      let headerText := trimEnd (if attached then header.dropLast else header)
      let argText := if separated then (trimStart rest).drop 1 else rest
      match parseHeader headerText with
      | .error e => .error e
      | .ok (path, channel) =>
        match parseArguments input argText with
        | .error e => .error e
        | .ok args => .ok ⟨path, channel, attached || separated, args⟩

end Pinout.Scpi
