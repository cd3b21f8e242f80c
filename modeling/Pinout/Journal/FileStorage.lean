import Pinout.Foundation.JsonReader
import Pinout.Foundation.Utf8Cut
import Pinout.Journal.Journal
import Pinout.Protocol.RoundTrip

/-! # The journal file

`FileJournalStorage` (`packages/core/src/journal/journal.ts`): an entry a line, appended as a whole unless the process
crashes meanwhile, and read line by line, skipping what is no JSON. Of a file that ends in a part of a line, the
entries before it are read (`readAll_append`); but what is appended next goes on that line and is lost with it
(`recoversAfterCrash_iff`). -/

namespace Pinout

open Foundation Protocol

/-! ## Entries as JSON -/

def OperationEventKind.text : OperationEventKind → JsString
  | requested => js "operation.requested"
  | started => js "operation.started"
  | progress => js "operation.progress"
  | completed => js "operation.completed"
  | failed => js "operation.failed"
  | cancelled => js "operation.cancelled"
  | timedOut => js "operation.timed_out"
  | rejected => js "operation.rejected"
  | reconciled => js "operation.reconciled"
  | uncertain => js "operation.uncertain"
  | aborted => js "operation.aborted"
  | stopUnconfirmed => js "operation.stop_unconfirmed"

def JournalEntryKind.text : JournalEntryKind → JsString
  | operation kind => kind.text
  | invocationRequested => js "invocation.requested"
  | invocationCompleted => js "invocation.completed"
  | invocationFailed => js "invocation.failed"
  | policyRejected => js "policy.rejected"
  | stateChanged => js "state.changed"
  | eventEmitted => js "event.emitted"
  | faultRaised => js "fault.raised"
  | faultCleared => js "fault.cleared"
  | safetyStateChanged => js "safety.state_changed"
  | deviceConnected => js "device.connected"
  | deviceDisconnected => js "device.disconnected"
  | deviceReconnected => js "device.reconnected"
  | leaseAcquired => js "lease.acquired"
  | leaseReleased => js "lease.released"
  | leaseExpired => js "lease.expired"
  | connectorGenerated => js "connector.generated"
  | connectorQuarantined => js "connector.quarantined"
  | connectorApproved => js "connector.approved"
  | connectorInstalled => js "connector.installed"
  | connectorRejected => js "connector.rejected"

namespace JournalEntry

/-- The fields of an entry, in the order in which `append` sets them. -/
def record (entry : JournalEntry) : JsonObject :=
  (js "sequence", .num entry.sequence) :: (js "at", .num entry.at_) :: (js "kind", .str entry.kind.text) ::
    ((entry.deviceId.toList.map fun deviceId => (js "deviceId", .str deviceId)) ++
      (entry.operationId.toList.map fun operationId => (js "operationId", .str operationId)) ++
      entry.payload.toList.map fun payload => (js "payload", .obj payload))

/-- The objects in the payload have no name twice, as no object of the language has. -/
def DistinctNames (entry : JournalEntry) : Prop :=
  ∀ payload, entry.payload = some payload → distinctNames (.obj payload) = true

theorem distinctNames_record {entry : JournalEntry} (h : entry.DistinctNames) :
    distinctNames (.obj entry.record) = true := by
  obtain ⟨sequence, at_, kind, deviceId, operationId, payload⟩ := entry
  have hpayload : ∀ found, payload = some found → distinctNames (.obj found) = true := h
  have hnames : ((record ⟨sequence, at_, kind, deviceId, operationId, payload⟩).map (·.1)).Nodup := by
    cases deviceId <;> cases operationId <;> cases payload <;> simp [record] <;> decide
  rw [distinctNames, decide_eq_true hnames, Bool.true_and]
  cases payload with
  | none => cases deviceId <;> cases operationId <;> rfl
  | some found =>
    have hfound := hpayload found rfl
    cases deviceId <;> cases operationId <;> simp [record, fieldsDistinct, distinctNames.eq_def (.num _),
      distinctNames.eq_def (.str _), hfound]

variable (numText : ℚ → JsString)

/-- `JSON.stringify(entry)`. -/
def text (entry : JournalEntry) : JsString := (Json.obj entry.record).stringify numText

def line (entry : JournalEntry) : JsString := entry.text numText ++ [lineFeed]

theorem exists_text (entry : JournalEntry) : ∃ tail, entry.text numText = 123 :: 34 :: 115 :: tail := ⟨_, rfl⟩

theorem getLast?_text (entry : JournalEntry) : (entry.text numText).getLast? = some 125 := by
  rw [text, Json.stringify, List.getLast?_concat]

end JournalEntry

/-! ## The storage -/

namespace FileJournalStorage

variable (numText : ℚ → JsString) (readNumber : JsString → Option ℚ)

/-- `append`, to the bytes of the file. -/
def append (content : List UInt8) (entry : JournalEntry) : List UInt8 := content ++ encodeUtf8 (entry.line numText)

/-- `text.split('\n')`. -/
def split (text : JsString) : List JsString := (cutLines lineFeed text).1 ++ [(cutLines lineFeed text).2]

/-- What is read of a line: nothing if it is blank or no JSON. -/
def readLine (line : JsString) : Option Json :=
  let trimmed := trim line
  if trimmed = [] then none else JsonReader.parse readNumber trimmed

def readText (text : JsString) : List Json := (split text).filterMap (readLine readNumber)

/-- `readAll`, of the bytes of the file; a file that is missing is read as an empty one. -/
def readAll (content : List UInt8) : List Json := readText readNumber (decodeBytes content)

/-! ## Lines -/

variable {numText} {readNumber}

theorem readLine_nil : readLine readNumber [] = none := rfl

theorem readText_of_not_mem {text : JsString} (h : lineFeed ∉ text) :
    readText readNumber text = (readLine readNumber text).toList := by
  rw [readText, split, cutLines_of_not_mem h, List.nil_append]
  cases hline : readLine readNumber text <;> simp [hline]

theorem readText_append (text rest : JsString) :
    readText readNumber (text ++ [lineFeed] ++ rest) =
      readText readNumber (text ++ [lineFeed]) ++ readText readNumber rest := by
  have hempty : (cutLines lineFeed (text ++ [lineFeed])).2 = [] := by
    obtain ⟨-, hrest⟩ := not_mem_cutLines lineFeed text
    rw [cutLines_append, cutLines_append_of_not_mem hrest]
    rfl
  rw [readText, split, cutLines_append, hempty, List.nil_append, readText, split, hempty, readText, split,
    List.filterMap_append, List.filterMap_append, List.filterMap_append, List.filterMap_append]
  simp [readLine_nil]

theorem readText_line {text : JsString} (h : lineFeed ∉ text) (rest : JsString) :
    readText readNumber (text ++ [lineFeed] ++ rest) =
      (readLine readNumber text).toList ++ readText readNumber rest := by
  have hone : readText readNumber (text ++ [lineFeed]) = (readLine readNumber text).toList := by
    rw [readText, split, cutLines_append_of_not_mem h]
    show List.filterMap (readLine readNumber) [text ++ [], []] = _
    rw [List.append_nil]
    cases hline : readLine readNumber text <;> simp [hline, readLine_nil]
  rw [readText_append, hone]

theorem readLine_of_braces {text : JsString} (hhead : text.head? = some 123) (hlast : text.getLast? = some 125) :
    readLine readNumber text = JsonReader.parse readNumber text := by
  have htrim : trim text = text := by
    refine trim_eq_self (fun u hu => ?_) (fun u hu => ?_)
    · rw [hhead] at hu
      obtain rfl := Option.some.inj hu
      decide
    · rw [hlast] at hu
      obtain rfl := Option.some.inj hu
      decide
  have hne : text ≠ [] := by
    rintro rfl
    cases hhead
  rw [readLine, htrim, if_neg hne]

/-- What trimming leaves of a text that starts with a brace starts with it, too. -/
theorem exists_trim_of_brace (text : JsString) :
    ∃ front spaces, trim (123 :: text) = 123 :: front ∧ 123 :: text = 123 :: front ++ spaces := by
  have hstart : (123 :: text).dropWhile isWhiteSpace = 123 :: text := List.dropWhile_cons_of_neg (by decide)
  obtain ⟨spaces, hspaces⟩ := List.dropWhile_suffix isWhiteSpace (l := (123 :: text).reverse)
  have hsplit : 123 :: text = trim (123 :: text) ++ spaces.reverse := by
    rw [trim, hstart, ← List.reverse_append, hspaces, List.reverse_reverse]
  have hne : trim (123 :: text) ≠ [] := by
    rw [trim, hstart, List.reverse_eq_nil_iff.ne, Ne, List.dropWhile_eq_nil_iff]
    intro hall
    exact absurd (hall 123 (by simp)) (by decide)
  obtain ⟨u, front, hfront⟩ := List.exists_cons_of_ne_nil hne
  rw [hfront] at hsplit
  obtain ⟨rfl, -⟩ := List.cons.inj hsplit
  exact ⟨front, spaces.reverse, hfront, hsplit⟩

/-! ## Entries that are complete -/

theorem plainNumbers (hnum : ReadsNumbers numText readNumber) : PlainNumbers numText := by
  intro q u hu
  have hunit := hnum.units q u hu
  simp only [isNumberUnit, isDigit, Bool.or_eq_true, decide_eq_true_eq] at hunit
  rcases hunit with (((hdigit | rfl) | rfl) | rfl) | rfl
  · exact ⟨by omega, by omega⟩
  all_goals decide

theorem printable_text (hnum : ReadsNumbers numText readNumber) (entry : JournalEntry) :
    Printable (entry.text numText) := printable_stringify (plainNumbers hnum) _

theorem readLine_text (hnum : ReadsNumbers numText readNumber) {entry : JournalEntry}
    (h : entry.DistinctNames) : readLine readNumber (entry.text numText) = some (.obj entry.record) := by
  obtain ⟨tail, htail⟩ := entry.exists_text numText
  rw [readLine_of_braces (by rw [htail]; rfl) (entry.getLast?_text numText)]
  exact JsonReader.parse_stringify_obj hnum (JournalEntry.distinctNames_record h)

theorem encodeUtf8_line (entry : JournalEntry) :
    encodeUtf8 (entry.line numText) = encodeUtf8 (entry.text numText) ++ [10] :=
  encodeUtf8_append_basic _ (by decide)

theorem head?_encodeUtf8_text (entry : JournalEntry) (rest : List UInt8) :
    (encodeUtf8 (entry.text numText) ++ rest).head? = some 123 := by
  obtain ⟨tail, htail⟩ := entry.exists_text numText
  rw [htail]
  rfl

theorem decodeBytes_line (hnum : ReadsNumbers numText readNumber) (entry : JournalEntry)
    (rest : List UInt8) :
    decodeBytes (encodeUtf8 (entry.line numText) ++ rest) = entry.line numText ++ decodeBytes rest := by
  have hwell : WellFormed (entry.line numText) :=
    (printable_text hnum entry).wellFormed.append (wellFormed_of_forall_lt (by decide))
  rw [encodeUtf8_line, decodeBytes_append_of_basic (by decide), ← encodeUtf8_line, decodeBytes_encodeUtf8 hwell]

theorem readAll_line (hnum : ReadsNumbers numText readNumber) {entry : JournalEntry}
    (h : entry.DistinctNames) (rest : List UInt8) :
    readAll readNumber (encodeUtf8 (entry.line numText) ++ rest) = .obj entry.record :: readAll readNumber rest := by
  rw [readAll, decodeBytes_line hnum, JournalEntry.line, readText_line (printable_text hnum entry).lineFeed_not_mem,
    readLine_text hnum h]
  rfl

theorem foldl_append (entries : List JournalEntry) (content : List UInt8) :
    entries.foldl (append numText) content =
      content ++ entries.flatMap fun entry => encodeUtf8 (entry.line numText) := by
  induction entries generalizing content with
  | nil => rw [List.foldl_nil, List.flatMap_nil, List.append_nil]
  | cons entry entries ih => rw [List.foldl_cons, ih, append, List.flatMap_cons, List.append_assoc]

/-- **Entries that are complete are read.** -/
theorem readAll_flatMap_line (hnum : ReadsNumbers numText readNumber) {entries : List JournalEntry}
    (h : ∀ entry ∈ entries, entry.DistinctNames) :
    readAll readNumber (entries.flatMap fun entry => encodeUtf8 (entry.line numText)) =
      entries.map fun entry => .obj entry.record := by
  induction entries with
  | nil => rfl
  | cons entry entries ih =>
    rw [List.flatMap_cons, readAll_line hnum (h entry List.mem_cons_self),
      ih fun other hother => h other (List.mem_cons_of_mem entry hother), List.map_cons]

def EndsLine (content : List UInt8) : Prop := content = [] ∨ ∃ front, content = front ++ [10]

theorem readAll_append {content : List UInt8} (h : EndsLine content) (rest : List UInt8) :
    readAll readNumber (content ++ rest) = readAll readNumber content ++ readAll readNumber rest := by
  rcases h with rfl | ⟨front, rfl⟩
  · rfl
  · have hfeed : decodeBytes (front ++ [10]) = decodeBytes front ++ [lineFeed] :=
      decodeBytes_append front fun b hb => by
        obtain rfl := Option.some.inj hb
        decide
    rw [readAll, decodeBytes_append_of_basic (by decide), hfeed, readText_append, readAll, hfeed, readAll]

/-! ## A line that is torn -/

/-- What is decoded of a torn line: the beginning of its text, with a replacement where a character is cut. -/
theorem decodeBytes_torn (hnum : ReadsNumbers numText readNumber) {entry : JournalEntry}
    {torn : List UInt8} (hne : torn ≠ []) (hpart : torn <+: encodeUtf8 (entry.text numText))
    (hwhole : torn ≠ encodeUtf8 (entry.text numText)) :
    ∃ front rest, entry.text numText = 123 :: front ++ rest ∧ 125 ∈ rest ∧
      (decodeBytes torn = 123 :: front ∨ decodeBytes torn = 123 :: front ++ [0xFFFD]) := by
  obtain ⟨b, torn, rfl⟩ := List.exists_cons_of_ne_nil hne
  -- the first character of the text is a brace, which is not cut
  have hb : b = 123 := by
    obtain ⟨more, hmore⟩ := hpart
    have hhead := @head?_encodeUtf8_text numText entry []
    rw [List.append_nil, ← hmore] at hhead
    exact Option.some.inj hhead
  subst hb
  have hdecode : decodeBytes (123 :: torn) = 123 :: decodeBytes torn :=
    @decodeBytes_append_of_basic [] 123 (by decide) torn
  obtain ⟨front, rest, htext, hrest, hfront⟩ := decodeBytes_cut (printable_text hnum entry).wellFormed hpart hwhole
  have hlast : 125 ∈ rest := by
    have hget := entry.getLast?_text numText
    rw [htext, List.getLast?_append_of_ne_nil _ hrest] at hget
    exact List.mem_of_getLast? hget
  cases front with
  | nil =>
    rw [hdecode] at hfront
    rcases hfront with hfront | hfront
    · cases hfront
    · exact absurd (List.cons.inj hfront).1 (by decide)
  | cons u front =>
    obtain rfl : u = 123 := by
      rw [hdecode] at hfront
      rcases hfront with hfront | hfront
      · exact (List.cons.inj hfront).1.symm
      · exact (List.cons.inj hfront).1.symm
    exact ⟨front, rest, htext, hlast, hfront⟩

theorem readLine_torn (hnum : ReadsNumbers numText readNumber) {entry : JournalEntry}
    (h : entry.DistinctNames) {front rest text : JsString} (htext : entry.text numText = 123 :: front ++ rest)
    (hrest : 125 ∈ rest) (htorn : text = 123 :: front ∨ text = 123 :: front ++ [0xFFFD]) :
    readLine readNumber text = none := by
  have hparse : ∃ r, JsonReader.run readNumber {} (entry.text numText) = some r := by
    have hread := JsonReader.parse_stringify_obj hnum (JournalEntry.distinctNames_record h)
    obtain ⟨r, hr, -⟩ := Option.bind_eq_some_iff.mp hread
    exact ⟨r, hr⟩
  -- something is open in what trimming leaves, whether a character is cut or not
  rcases htorn with rfl | rfl
  · obtain ⟨kept, spaces, htrim, hkept⟩ := exists_trim_of_brace front
    have hwhole : entry.text numText = 123 :: kept ++ (spaces ++ rest) := by
      rw [htext, hkept, List.append_assoc]
    obtain ⟨r, hrun, hopen⟩ := JsonReader.run_torn (hwhole ▸ hparse) (List.mem_append_right spaces hrest)
    rw [readLine, htrim]
    show (JsonReader.run readNumber {} (123 :: kept)).bind (JsonReader.finish readNumber) = none
    rw [hrun]
    exact JsonReader.finish_of_open hopen
  · have htrim : trim (123 :: front ++ [0xFFFD]) = 123 :: front ++ [0xFFFD] := by
      refine trim_eq_self (fun u hu => ?_) (fun u hu => ?_)
      · obtain rfl := Option.some.inj hu
        decide
      · rw [List.getLast?_concat] at hu
        obtain rfl := Option.some.inj hu
        decide
    obtain ⟨r, hrun, hopen⟩ := JsonReader.run_torn (htext ▸ hparse) hrest
    rw [readLine, htrim]
    show (JsonReader.run readNumber {} (123 :: front ++ [0xFFFD])).bind (JsonReader.finish readNumber) = none
    rw [JsonReader.run_append, hrun, Option.bind_some, JsonReader.run_cons]
    cases hstep : JsonReader.step readNumber r 0xFFFD with
    | none => rfl
    | some r' =>
      rcases JsonReader.of_step_of_open hopen hstep with hopen' | ⟨hbracket, -⟩
      · exact JsonReader.finish_of_open hopen'
      · exact absurd hbracket (by decide)

/-- Nothing is read of a line that starts with a brace and goes on with an entry. -/
theorem readLine_torn_append (hnum : ReadsNumbers numText readNumber) {entry : JournalEntry}
    (h : entry.DistinctNames) (front : JsString) :
    readLine readNumber (123 :: front ++ entry.text numText) = none := by
  obtain ⟨tail, htail⟩ := entry.exists_text numText
  have hne : entry.text numText ≠ [] := htail ▸ List.cons_ne_nil _ _
  rw [readLine_of_braces rfl (by rw [List.getLast?_append_of_ne_nil _ hne]; exact entry.getLast?_text numText)]
  exact JsonReader.parse_torn_append hnum (JournalEntry.distinctNames_record h) htail
    ⟨by decide, by decide, by decide, by decide, by decide⟩ front

/-! ## Recovery -/

variable (numText readNumber) in
/-- After a crash in the middle of appending an entry, and further entries appended, what is read is what was complete
before and what was appended after. -/
def RecoversAfterCrash (content torn : List UInt8) (entry : JournalEntry) (appended : List JournalEntry) : Prop :=
  readAll readNumber (appended.foldl (append numText) (content ++ torn)) =
    readAll readNumber content ++
      ((if torn = encodeUtf8 (entry.line numText) then [entry] else []) ++ appended).map fun entry => .obj entry.record

/-- What is decoded of a part of a line starts with a brace and is on one line. -/
theorem exists_decodeBytes_part (hnum : ReadsNumbers numText readNumber) {entry : JournalEntry}
    {torn : List UInt8} (hne : torn ≠ []) (hpart : torn <+: encodeUtf8 (entry.text numText)) :
    ∃ front, decodeBytes torn = 123 :: front ∧ lineFeed ∉ decodeBytes torn := by
  have hfeed := (printable_text hnum entry).lineFeed_not_mem
  by_cases hwhole : torn = encodeUtf8 (entry.text numText)
  · obtain ⟨tail, htail⟩ := entry.exists_text numText
    rw [hwhole, decodeBytes_encodeUtf8 (printable_text hnum entry).wellFormed]
    exact ⟨_, htail, hfeed⟩
  · obtain ⟨front, rest, htext, -, hdecode | hdecode⟩ := decodeBytes_torn hnum hne hpart hwhole
    · rw [hdecode]
      exact ⟨front, rfl, fun hmem => hfeed (htext ▸ List.mem_append_left rest hmem)⟩
    · rw [hdecode]
      refine ⟨front ++ [0xFFFD], rfl, fun hmem => ?_⟩
      rcases List.mem_append.mp hmem with hmem | hmem
      · exact hfeed (htext ▸ List.mem_append_left rest hmem)
      · exact absurd (List.mem_singleton.mp hmem) (by decide)

/-- **What is appended behind a torn line is lost with it**: the next entry goes on the line. -/
theorem readAll_torn_append (hnum : ReadsNumbers numText readNumber) {entry next : JournalEntry}
    {torn : List UInt8} (hne : torn ≠ []) (hpart : torn <+: encodeUtf8 (entry.text numText))
    (hnext : next.DistinctNames) (rest : List UInt8) :
    readAll readNumber (torn ++ (encodeUtf8 (next.line numText) ++ rest)) = readAll readNumber rest := by
  obtain ⟨front, hfront, hfeed⟩ := exists_decodeBytes_part hnum hne hpart
  have hbasic : ∀ b ∈ (encodeUtf8 (next.line numText) ++ rest).head?, b.toNat < 0x80 := by
    intro b hb
    rw [encodeUtf8_line, List.append_assoc, head?_encodeUtf8_text] at hb
    obtain rfl := Option.some.inj hb
    decide
  have hline : lineFeed ∉ decodeBytes torn ++ next.text numText := by
    rw [List.mem_append, not_or]
    exact ⟨hfeed, (printable_text hnum next).lineFeed_not_mem⟩
  have hread := readLine_torn_append hnum hnext front
  rw [← hfront] at hread
  rw [readAll, decodeBytes_append torn hbasic, decodeBytes_line hnum, JournalEntry.line, ← List.append_assoc,
    ← List.append_assoc, readText_line hline, hread]
  rfl

/-- What is read of a part of a line with nothing behind it: the entry, if only the line feed is missing. -/
theorem readAll_torn (hnum : ReadsNumbers numText readNumber) {entry : JournalEntry}
    (h : entry.DistinctNames) {torn : List UInt8} (hne : torn ≠ []) (hpart : torn <+: encodeUtf8 (entry.text numText)) :
    readAll readNumber torn = if torn = encodeUtf8 (entry.text numText) then [.obj entry.record] else [] := by
  obtain ⟨-, -, hfeed⟩ := exists_decodeBytes_part hnum hne hpart
  rw [readAll, readText_of_not_mem hfeed]
  by_cases hwhole : torn = encodeUtf8 (entry.text numText)
  · rw [if_pos hwhole, hwhole, decodeBytes_encodeUtf8 (printable_text hnum entry).wellFormed, readLine_text hnum h]
    rfl
  · obtain ⟨front, rest, htext, hrest, hdecode⟩ := decodeBytes_torn hnum hne hpart hwhole
    rw [if_neg hwhole, readLine_torn hnum h htext hrest hdecode]
    rfl

/-- **Only the torn entry is lost** exactly when nothing is torn, or nothing is appended behind it. -/
theorem recoversAfterCrash_iff (numText : ℚ → JsString) (readNumber : JsString → Option ℚ)
    (hnum : ReadsNumbers numText readNumber) (content : List UInt8) (hcontent : EndsLine content)
    (entry : JournalEntry) (hentry : entry.DistinctNames) (torn : List UInt8)
    (htorn : torn <+: encodeUtf8 (entry.line numText)) (appended : List JournalEntry)
    (happended : ∀ next ∈ appended, next.DistinctNames) :
    RecoversAfterCrash numText readNumber content torn entry appended ↔
      torn = [] ∨ torn = encodeUtf8 (entry.line numText) ∨
        appended = [] ∧ torn ≠ encodeUtf8 (entry.text numText) := by
  have hlines := readAll_flatMap_line hnum happended
  rw [RecoversAfterCrash, foldl_append, List.append_assoc, readAll_append hcontent, List.append_cancel_left_eq]
  by_cases hempty : torn = []
  · have hline : ([] : List UInt8) ≠ encodeUtf8 (entry.line numText) := by
      rw [encodeUtf8_line]
      exact (List.append_ne_nil_of_right_ne_nil _ (List.cons_ne_nil _ _)).symm
    rw [hempty, if_neg hline, List.nil_append, hlines]
    exact ⟨fun _ => .inl rfl, fun _ => rfl⟩
  by_cases hwhole : torn = encodeUtf8 (entry.line numText)
  · rw [if_pos hwhole, hwhole, readAll_line hnum hentry, hlines]
    exact ⟨fun _ => .inr (.inl rfl), fun _ => rfl⟩
  have hpart : torn <+: encodeUtf8 (entry.text numText) := by
    rw [encodeUtf8_line] at htorn hwhole
    exact (List.prefix_concat_iff.mp htorn).resolve_left hwhole
  rw [if_neg hwhole, List.nil_append]
  cases appended with
  | nil =>
    rw [List.flatMap_nil, List.append_nil, List.map_nil, readAll_torn hnum hentry hempty hpart]
    split
    · next htext =>
      refine ⟨nofun, ?_⟩
      rintro (h | h | ⟨-, h⟩)
      · exact absurd h hempty
      · exact absurd h hwhole
      · exact absurd htext h
    · next htext => exact ⟨fun _ => .inr (.inr ⟨rfl, htext⟩), fun _ => rfl⟩
  | cons next rest =>
    have hrest := readAll_flatMap_line hnum fun other hother => happended other (List.mem_cons_of_mem next hother)
    rw [List.flatMap_cons, readAll_torn_append hnum hempty hpart (happended next List.mem_cons_self), hrest]
    constructor
    · intro h
      have hlength := congrArg List.length h
      rw [List.length_map, List.length_map, List.length_cons] at hlength
      omega
    · rintro (h | h | ⟨h, -⟩)
      · exact absurd h hempty
      · exact absurd h hwhole
      · cases h

/-! ## Two entries and a crash -/

def tornEntry : JournalEntry := { sequence := 1, at_ := 0, kind := .invocationRequested }

/-- The entry that is appended after the restart. -/
def nextEntry : JournalEntry := { sequence := 2, at_ := 5, kind := .invocationCompleted }

/-- Five bytes of the torn entry, with nothing behind them, are skipped. -/
theorem recoversAfterCrash_torn :
    RecoversAfterCrash ratioText readRatio [] ((encodeUtf8 (tornEntry.text ratioText)).take 5) tornEntry [] := by
  refine (recoversAfterCrash_iff ratioText readRatio readsNumbers_ratioText [] (.inl rfl) tornEntry nofun _ ?_ [] nofun).mpr
    (.inr (.inr ⟨rfl, by decide +kernel⟩))
  rw [encodeUtf8_line]
  exact (List.take_prefix _ _).trans (List.prefix_append _ _)

/-- **An entry appended after the restart is lost.** It goes on the torn line. -/
theorem not_recoversAfterCrash :
    ¬ ∀ (numText : ℚ → JsString) (readNumber : JsString → Option ℚ) (_ : ReadsNumbers numText readNumber)
      (content : List UInt8) (_ : EndsLine content) (entry : JournalEntry) (_ : entry.DistinctNames)
      (torn : List UInt8) (_ : torn <+: encodeUtf8 (entry.line numText)) (appended : List JournalEntry)
      (_ : ∀ next ∈ appended, next.DistinctNames),
        RecoversAfterCrash numText readNumber content torn entry appended := by
  intro h
  have hpart : (encodeUtf8 (tornEntry.text ratioText)).take 5 <+: encodeUtf8 (tornEntry.text ratioText) :=
    List.take_prefix _ _
  have hline : (encodeUtf8 (tornEntry.text ratioText)).take 5 <+: encodeUtf8 (tornEntry.line ratioText) := by
    rw [encodeUtf8_line]
    exact hpart.trans (List.prefix_append _ _)
  have hnext : ∀ next ∈ [nextEntry], next.DistinctNames := by
    intro next hmem
    obtain rfl := List.mem_singleton.mp hmem
    exact nofun
  have hread := h ratioText readRatio readsNumbers_ratioText [] (.inl rfl) tornEntry nofun _ hline [nextEntry] hnext
  rw [RecoversAfterCrash, foldl_append, List.nil_append, List.flatMap_singleton] at hread
  have hlost := readAll_torn_append readsNumbers_ratioText (by decide +kernel) hpart (hnext _ List.mem_cons_self) []
  rw [List.append_nil] at hlost
  rw [hlost] at hread
  exact absurd (congrArg List.length hread) (by decide +kernel)

end FileJournalStorage

end Pinout
