import Pinout.Foundation.Json
import Mathlib.Algebra.Order.Field.Rat
import Mathlib.Data.List.Sort

/-! # The control journal

`packages/core/src/journal/journal.ts`: entries are numbered and stamped by `append`, their payloads
stripped of credential-shaped keys (`redactPayload`) and replaced by a marker when they are too large
(`truncatePayload`); `query` sorts what the storage holds by sequence and filters it; `hydrate`
continues the numbering. The storage is a list of entries, in the order in which they reached it. -/

namespace Pinout

open Foundation

/-- The operation kinds of `JournalEntryKind`, which are also the kinds of operation events. -/
inductive OperationEventKind
  | requested | started | progress | completed | failed | cancelled | timedOut | rejected
  | reconciled | uncertain | aborted | stopUnconfirmed
  deriving DecidableEq, Repr

inductive JournalEntryKind
  | operation (kind : OperationEventKind)
  | invocationRequested | invocationCompleted | invocationFailed
  | policyRejected
  | stateChanged | eventEmitted | faultRaised | faultCleared | safetyStateChanged
  | deviceConnected | deviceDisconnected | deviceReconnected
  | leaseAcquired | leaseReleased | leaseExpired
  | connectorGenerated | connectorQuarantined | connectorApproved | connectorInstalled
  | connectorRejected
  deriving DecidableEq, Repr

def JournalEntryKind.operation? : JournalEntryKind → Option OperationEventKind
  | operation kind => some kind
  | _ => none

structure JournalEntry where
  sequence : Nat
  at_ : Int
  kind : JournalEntryKind
  deviceId : Option JsString := none
  operationId : Option JsString := none
  payload : Option JsonObject := none

/-! ## Payloads -/

namespace Journal

/-- Whether `needle` occurs in `text`. -/
def occursIn (needle text : JsString) : Bool := text.tails.any fun rest => needle.isPrefixOf rest

/-- An ASCII capital as a small letter, any other code unit as it is. -/
def asciiLower (u : UInt16) : UInt16 := if 65 ≤ u.toNat ∧ u.toNat ≤ 90 then u + 32 else u

/-- The alternatives of `SECRET_KEY_PATTERN`. -/
def secretKeyPatterns : List JsString :=
  [js "pass", js "secret", js "token", js "credential", js "authorization", js "apikey",
    js "api-key", js "api_key", js "privatekey", js "private-key", js "private_key"]

/-- `SECRET_KEY_PATTERN.test(key)`: some alternative occurs in the key, whatever its case. -/
def isSecretKey (key : JsString) : Bool :=
  secretKeyPatterns.any fun pattern => occursIn pattern (key.map asciiLower)

mutual

/-- The fields of `redactPayload` at a given depth. -/
def redactFields (depth : Nat) : List (JsString × Json) → List (JsString × Json)
  | [] => []
  | (key, value) :: fields =>
    (key, if isSecretKey key then .str (js "[REDACTED]") else redactValue depth value) ::
      redactFields depth fields

/-- A field's value in `redactPayload` at a given depth: objects are redacted one level deeper,
arrays are cut to 32 items as they are, anything else is kept. -/
def redactValue (depth : Nat) : Json → Json
  | .obj fields =>
    .obj (if 4 < depth + 1 then [(js "truncated", .bool true)] else redactFields (depth + 1) fields)
  | .arr items => .arr (items.take 32)
  | .null => .null
  | .bool b => .bool b
  | .num q => .num q
  | .str s => .str s

end

/-- `redactPayload(payload)`. -/
def redactPayload (payload : JsonObject) : JsonObject := redactFields 0 payload

variable (numText : ℚ → JsString)

/-- `truncatePayload(payload, maxChars)`, for a payload that is not empty. -/
def truncatePayload (payload : JsonObject) (maxChars : Nat) : JsonObject :=
  let json := (Json.obj payload).stringify numText
  if json.length ≤ maxChars then payload
  else [(js "truncated", .bool true), (js "originalChars", .num json.length),
    (js "preview", .str (json.take 512))]

def journaledPayload (payload : JsonObject) (maxPayloadChars : Nat) : Option JsonObject :=
  if payload = [] then none
  else some (truncatePayload numText (redactPayload payload) maxPayloadChars)

end Journal

/-! ## The journal -/

/-- A `Journal` over a storage whose content is `entries`. -/
structure Journal where
  sequence : Nat := 0
  maxPayloadChars : Nat := 4096
  entries : List JournalEntry := []

namespace Journal

variable (numText : ℚ → JsString)

/-- The entry `append` makes. -/
def nextEntry (j : Journal) (kind : JournalEntryKind) (deviceId operationId : Option JsString)
    (payload : JsonObject) (now : Int) : JournalEntry :=
  { sequence := j.sequence + 1, at_ := now, kind, deviceId, operationId
    payload := journaledPayload numText payload j.maxPayloadChars }

/-- `append`, over a storage that takes the entry at once. -/
def append (j : Journal) (kind : JournalEntryKind) (deviceId operationId : Option JsString)
    (payload : JsonObject) (now : Int) : Journal :=
  { j with
    sequence := j.sequence + 1
    entries := j.entries ++ [j.nextEntry numText kind deviceId operationId payload now] }

end Journal

structure JournalQuery where
  deviceId : Option JsString := none
  operationId : Option JsString := none
  kinds : Option (List JournalEntryKind) := none
  afterSequence : Option Nat := none
  limit : Option Nat := none

/-- Whether an entry passes the filter of a query; empty strings filter nothing. -/
def JournalQuery.admits (q : JournalQuery) (entry : JournalEntry) : Bool :=
  (q.deviceId.all fun d => d = [] ∨ entry.deviceId = some d) &&
  (q.operationId.all fun o => o = [] ∨ entry.operationId = some o) &&
  (q.kinds.all fun kinds => entry.kind ∈ kinds) &&
  (q.afterSequence.all fun n => n < entry.sequence)

namespace Journal

/-- `[...all].sort((a, b) => a.sequence - b.sequence)`, which is stable. -/
def sortBySequence (all : List JournalEntry) : List JournalEntry :=
  all.insertionSort fun a b => a.sequence ≤ b.sequence

/-- `query`, over what the storage holds. The limit is tested after an entry has been taken, so a
limit of zero takes one. -/
def query (all : List JournalEntry) (q : JournalQuery) : List JournalEntry :=
  let admitted := (sortBySequence all).filter q.admits
  q.limit.elim admitted fun n => admitted.take (max n 1)

/-- `hydrate`: continue numbering after what the storage holds. -/
def hydrate (j : Journal) : Journal :=
  { j with sequence := max j.sequence ((j.entries.map JournalEntry.sequence).foldl max 0) }

/-! ## Numbering -/

theorem sortBySequence_eq_self {all : List JournalEntry}
    (h : all.Pairwise fun a b => a.sequence ≤ b.sequence) : sortBySequence all = all :=
  List.Pairwise.insertionSort_eq h

/-- The numbers of the entries increase, up to the last number given. -/
structure Numbered (j : Journal) : Prop where
  increasing : j.entries.Pairwise fun a b => a.sequence < b.sequence
  given : ∀ entry ∈ j.entries, entry.sequence ≤ j.sequence

variable (numText : ℚ → JsString)

theorem numbered_empty {j : Journal} (h : j.entries = []) : j.Numbered :=
  ⟨by rw [h]; exact List.Pairwise.nil, by simp [h]⟩

theorem Numbered.append {j : Journal} (h : j.Numbered) (kind : JournalEntryKind)
    (deviceId operationId : Option JsString) (payload : JsonObject) (now : Int) :
    (j.append numText kind deviceId operationId payload now).Numbered where
  increasing := by
    refine List.pairwise_append.mpr ⟨h.increasing, List.pairwise_singleton _ _, fun a ha b hb => ?_⟩
    rw [List.mem_singleton.mp hb]
    exact Nat.lt_succ_of_le (h.given a ha)
  given entry hentry := by
    rcases List.mem_append.mp hentry with hentry | hentry
    · exact (h.given entry hentry).trans (Nat.le_succ _)
    · rw [List.mem_singleton.mp hentry]
      exact le_refl _

/-- What is in order and admitted is what a query without a limit answers. -/
theorem query_eq_self {all : List JournalEntry} {q : JournalQuery} (hlimit : q.limit = none)
    (horder : all.Pairwise fun a b => a.sequence ≤ b.sequence)
    (hadmits : ∀ entry ∈ all, q.admits entry = true) : query all q = all := by
  unfold query
  rw [hlimit, Option.elim_none, sortBySequence_eq_self horder]
  exact List.filter_eq_self.mpr hadmits

/-! ## What journaling keeps of a payload -/

theorem map_fst_redactFields (depth : Nat) (fields : JsonObject) :
    (redactFields depth fields).map Prod.fst = fields.map Prod.fst := by
  induction fields with
  | nil => rfl
  | cons field fields ih =>
    obtain ⟨key, value⟩ := field
    rw [redactFields, List.map_cons, ih, List.map_cons]

theorem get?_redactFields (depth : Nat) (fields : JsonObject) (key : JsString) :
    JsonObject.get? (redactFields depth fields) key =
      (fields.get? key).map fun value =>
        if isSecretKey key then .str (js "[REDACTED]") else redactValue depth value := by
  induction fields with
  | nil => rfl
  | cons field fields ih =>
    obtain ⟨name, value⟩ := field
    rw [redactFields, JsonObject.get?_cons, JsonObject.get?_cons, ih]
    by_cases h : name = key
    · subst h
      simp
    · simp [h]

/-- Redaction keeps a text under a key that does not look like a credential. -/
theorem string?_redactPayload {payload : JsonObject} {key : JsString}
    (hkey : isSecretKey key = false) :
    Json.string? (JsonObject.get? (redactPayload payload) key) = Json.string? (payload.get? key) := by
  rw [redactPayload, get?_redactFields]
  cases hv : payload.get? key with
  | none => rfl
  | some value =>
    rw [Option.map_some, hkey]
    cases value <;> rfl

/-- A payload that is journaled as it is, but for redaction. -/
def Survives (payload : JsonObject) (maxPayloadChars : Nat) : Prop :=
  ((Json.obj (redactPayload payload)).stringify numText).length ≤ maxPayloadChars

instance (payload : JsonObject) (maxPayloadChars : Nat) :
    Decidable (Survives numText payload maxPayloadChars) := inferInstanceAs (Decidable (_ ≤ _))

theorem journaledPayload_of_survives {payload : JsonObject} {maxPayloadChars : Nat}
    (h : Survives numText payload maxPayloadChars) :
    (journaledPayload numText payload maxPayloadChars).getD [] = redactPayload payload := by
  unfold journaledPayload
  split
  · next hnil =>
    rw [hnil]
    rfl
  · exact if_pos h

theorem journaledPayload_of_not_survives {payload : JsonObject} {maxPayloadChars : Nat}
    (hne : payload ≠ []) (h : ¬ Survives numText payload maxPayloadChars) :
    ∃ chars preview, (journaledPayload numText payload maxPayloadChars).getD [] =
      [(js "truncated", .bool true), (js "originalChars", .num chars),
        (js "preview", .str preview)] := by
  rw [journaledPayload, if_neg hne]
  exact ⟨_, _, if_neg h⟩

/-- A payload has the names it had, or those of the truncation marker. -/
theorem mem_journaledPayload {payload : JsonObject} {maxPayloadChars : Nat} {field : JsString × Json}
    (h : field ∈ (journaledPayload numText payload maxPayloadChars).getD []) :
    field.1 ∈ payload.map Prod.fst ∨
      field.1 ∈ [js "truncated", js "originalChars", js "preview"] := by
  unfold journaledPayload at h
  split at h
  · cases h
  · rw [Option.getD_some, truncatePayload] at h
    split at h
    · refine Or.inl ?_
      rw [← map_fst_redactFields 0]
      exact List.mem_map_of_mem h
    · refine Or.inr ?_
      simp only [List.mem_cons, List.not_mem_nil, or_false] at h ⊢
      rcases h with rfl | rfl | rfl <;> simp

end Journal

end Pinout
