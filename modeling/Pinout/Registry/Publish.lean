import Pinout.ModuleHost.TamperEvidence
import Pinout.Modules.Manifest

/-! # The module registry

Publishing a module (`packages/registry/src/publish.ts`), the format of the entries of an index
(`packages/registry/src/indexFormat.ts`), copying a module directory (`packages/registry/src/content.ts`) and
verifying one against an entry (`packages/registry/src/verify.ts`). -/

namespace Pinout.Registry

open Foundation Protocol ModuleHost Modules

def registryError (code message : JsString) (details : JsonObject := []) : Thrown :=
  .pinoutError (js "RegistryError") code message details

/-! ## Entries -/

def registryModuleStatuses : List JsString :=
  [js "L0", js "L1", js "L2", js "L3", js "L4", js "L5", js "UNVERIFIED"]

structure RegistryModuleEntry where
  name : JsString
  version : JsString
  description : JsString
  publisher : Option JsString := none
  manifestHash : JsString
  contentHash : JsString
  signature : Option JsString := none
  status : JsString
  targets : List JsString
  url : JsString
  publishedAt : JsString

/-- `REGISTRY_HASH_PATTERN.test`. -/
def isHash (text : JsString) : Bool := text.length = 64 && text.all isHexUnit

/-- `[A-Za-z0-9]`. -/
def isAlphanumeric (u : UInt16) : Bool := isIdUnit u || (65 ≤ u && u ≤ 90)

/-- `REGISTRY_SIGNATURE_PATTERN.test`. -/
def isSignature (text : JsString) : Bool :=
  text.length = 88 && (text.take 86).all (fun u => isAlphanumeric u || u = 43 || u = 47) && text.drop 86 = js "=="

/-- `PUBLISHER_ID_PATTERN.test`. -/
def isPublisherId : JsString → Bool
  | [] => false
  | u :: rest => isAlphanumeric u && rest.length ≤ 127 &&
    rest.all fun v => isAlphanumeric v || v = 46 || v = 95 || v = 45

/-- Whether a text is as long as a pattern and agrees with it, where `d` stands for a digit. -/
def agrees (pattern text : JsString) : Bool :=
  pattern.length = text.length && (pattern.zip text).all fun entry =>
    if entry.1 = 100 then isDigit entry.2 else entry.1 = entry.2

/-- `PUBLISHED_AT_PATTERN.test`. -/
def isTimestamp (text : JsString) : Bool :=
  agrees (js "dddd-dd-ddTdd:dd:dd") (text.take 19) &&
    match text.drop 19 with
    | [90] => true
    | 46 :: rest =>
      let digits := rest.takeWhile isDigit
      1 ≤ digits.length && digits.length ≤ 6 && rest.dropWhile isDigit = [90]
    | _ => false

def invalid (message : JsString) : Thrown := registryError (js "REGISTRY_INDEX_INVALID") message

section Validation

variable (isDate : JsString → Bool) (label : JsString)

def check (ok : Bool) (message : JsString) : Except Thrown Unit := if ok then .ok () else .error (invalid message)

def expectString (text label : JsString) : Except Thrown Unit :=
  check (text ≠ []) (label ++ js " must be a non-empty string.")

def expectTimestamp (text label : JsString) : Except Thrown Unit := do
  expectString text label
  check (isTimestamp text) (label ++ js " must be an ISO-8601 UTC timestamp like 2026-10-17T12:00:00.000Z.")
  check (isDate text) (label ++ js " is not a real date: '" ++ text ++ js "'.")

def ifPresent (value : Option JsString) (read : JsString → Except Thrown Unit) : Except Thrown Unit :=
  match value with
  | none => .ok ()
  | some text => read text

/-- `targets.forEach`. -/
def validateTargets : List JsString → Nat → Except Thrown Unit
  | [], _ => .ok ()
  | target :: targets, index => do
    check (trim target ≠ []) (label ++ js " field targets[" ++ decimal index ++ js "] must be a non-empty string.")
    validateTargets targets (index + 1)

/-- `validateEntry`, of an entry. -/
def validateEntry (entry : RegistryModuleEntry) : Except Thrown Unit := do
  expectString entry.name (label ++ js " field name")
  check (isModuleId entry.name)
    (label ++ js " has invalid module id '" ++ entry.name ++ js "' (expected 'vendor/name').")
  expectString entry.version (label ++ js " field version")
  check (isSemver entry.version)
    (label ++ js " has invalid version '" ++ entry.version ++ js "' (expected full semantic version).")
  expectString entry.description (label ++ js " field description")
  check (trim entry.description ≠ []) (label ++ js " field description must not be blank.")
  expectString entry.manifestHash (label ++ js " field manifestHash")
  check (isHash entry.manifestHash) (label ++ js " field manifestHash must be a lowercase sha256 hex digest.")
  expectString entry.contentHash (label ++ js " field contentHash")
  check (isHash entry.contentHash) (label ++ js " field contentHash must be a lowercase sha256 hex digest.")
  expectString entry.status (label ++ js " field status")
  check (registryModuleStatuses.contains entry.status) (label ++ js " field status must be one of " ++
    List.intercalate (js ", ") registryModuleStatuses ++ js " (got '" ++ entry.status ++ js "').")
  check (entry.targets ≠ []) (label ++ js " field targets must be a non-empty array of strings.")
  validateTargets label entry.targets 0
  expectString entry.url (label ++ js " field url")
  expectString entry.publishedAt (label ++ js " field publishedAt")
  expectTimestamp isDate entry.publishedAt (label ++ js " field publishedAt")
  ifPresent entry.publisher fun publisher => do
    expectString publisher (label ++ js " field publisher")
    check (isPublisherId publisher) (label ++ js " field publisher must match " ++
      js "^[A-Za-z0-9][A-Za-z0-9._-]\x7b0,127\x7d$ (got '" ++ publisher ++ js "').")
  ifPresent entry.signature fun signature => do
    expectString signature (label ++ js " field signature")
    check (isSignature signature)
      (label ++ js " field signature must be the base64 encoding of a 64-byte Ed25519 signature.")
  check (entry.signature.isNone || entry.publisher.isSome)
    (label ++ js " provides a signature but no publisher; they must be published together.")
  check (entry.publisher.isNone || entry.signature.isSome)
    (label ++ js " provides a publisher but no signature; they must be published together.")

def validateEntryInIsolation (entry : RegistryModuleEntry) : Except Thrown Unit :=
  validateEntry isDate (js "registry index module[0]") entry

end Validation

/-! ## Contents -/

def packExcludedDirectories : List JsString := [js "node_modules", js ".git", js "coverage", js ".pinout-cache"]

/-- Entries that are packed: files, and directories that are not excluded. -/
def packed (name : FileName) (isDir : Bool) : Bool := !(isDir && packExcludedDirectories.contains name.text)

mutual

/-- What `copyModuleDirectory` makes of an entry; links and special files are skipped. -/
def copyNode (name : FileName) : FileNode → Option FileNode
  | .file bytes => some (.file bytes)
  | .dir entries => if packed name true then some (.dir (copyModuleDirectory entries)) else none
  | .other _ => none

def copyModuleDirectory : Directory → Directory
  | [] => []
  | (name, node) :: entries => match copyNode name node with
    | some copy => (name, copy) :: copyModuleDirectory entries
    | none => copyModuleDirectory entries

end

section Platform

variable (platform : Platform)

def listPackableFiles (entries : Directory) : List JsString :=
  sortBy platform.le ((FileNode.walk (fun a b => platform.le a.text b.text) packed (.dir entries)).map
    fun file => pathText file.1)

def manifestPath (moduleDir : JsString) : JsString := moduleDir ++ 47 :: moduleManifestFilename

def readModuleManifestJson (moduleDir : JsString) (entries : Directory) : Except Thrown Json :=
  if !existsPath (entryOf entries moduleManifestFilename) then
    .error (registryError (js "MODULE_SOURCE_INVALID")
      (js "Module directory '" ++ moduleDir ++ js "' has no " ++ moduleManifestFilename ++ js "."))
  else
    let notJson (message : JsString) : Thrown := registryError (js "MODULE_SOURCE_INVALID")
      (manifestPath moduleDir ++ js " is not valid JSON: " ++ message)
    match readFile (entryOf entries moduleManifestFilename) with
    | .error e => .error (notJson e.text)
    | .ok bytes => match platform.parse bytes with
      | .error message => .error (notJson message)
      | .ok value => .ok value

/-! ## Publishing -/

structure PackModuleOptions where
  publisher : Option JsString := none
  signer : Option (JsString → Except Thrown Json) := none
  publishedAt : Option JsString := none
  url : Option JsString := none
  targets : Option (List JsString) := none
  description : Option JsString := none
  status : Option JsString := none

structure PackedModule where
  entry : RegistryModuleEntry
  files : List JsString

/-- `MODULE_PACK_INVALID`. -/
def packInvalid (message : JsString) : Thrown := registryError (js "MODULE_PACK_INVALID") message

/-- The manifest of a directory, as `packModule` reads it. -/
def readManifest (moduleDir : JsString) (entries : Directory) : Except Thrown PinoutModuleManifest := do
  let raw ← readModuleManifestJson platform moduleDir entries
  match parseModuleManifest platform.numText raw with
  | .ok manifest => .ok manifest
  | .error e => .error (registryError (js "MODULE_SOURCE_INVALID") (js "Module manifest in '" ++ moduleDir ++
      js "' is invalid: " ++ e.text) [(js "directory", .str moduleDir)])

def checkPackOptions (options : PackModuleOptions) : Except Thrown Unit :=
  if options.publisher.isSome && options.signer.isNone then
    .error (packInvalid (js "A publisher id was provided without a signer; signatures and publishers must be " ++
      js "published together."))
  else if options.signer.isSome && options.publisher.isNone then
    .error (packInvalid (js "A signer was provided without a publisher id."))
  else match options.status.filter fun status => !registryModuleStatuses.contains status with
    | some status => .error (packInvalid (js "Unsupported status '" ++ status ++ js "'; use " ++
        List.intercalate (js ", ") registryModuleStatuses ++ js "."))
    | none => .ok ()

/-- `replace('/', '-')`. -/
def replaceSlash : JsString → JsString
  | [] => []
  | u :: rest => if u = 47 then 45 :: rest else u :: replaceSlash rest

/-- The entry of a module, before it is signed. -/
def unsignedEntry (manifest : PinoutModuleManifest) (entries : Directory) (options : PackModuleOptions)
    (now : JsString) : RegistryModuleEntry where
  name := manifest.id
  version := manifest.version
  description := (options.description <|> manifest.description <|> manifest.name).getD (manifest.id ++ js " module")
  manifestHash := platform.manifestHash manifest.json
  contentHash := platform.contentHash entries
  status := options.status.getD (js "UNVERIFIED")
  targets := options.targets.getD [manifest.runtime.text]
  url := options.url.getD (js "modules/" ++ replaceSlash manifest.id ++ js "@" ++ manifest.version)
  publishedAt := options.publishedAt.getD now

def payloadOf (entry : RegistryModuleEntry) : JsString := entry.manifestHash ++ 58 :: entry.contentHash

/-- The entry with its signature, if there is a signer and a publisher. -/
def signEntry (entry : RegistryModuleEntry) (options : PackModuleOptions) : Except Thrown RegistryModuleEntry :=
  match options.signer, options.publisher with
  | some signer, some publisher => do
    let signature ← signer (payloadOf entry)
    match (Json.string? (some signature)).filter (isSignature ·) with
    | some signature => .ok { entry with publisher := some publisher, signature := some signature }
    | none => .error (packInvalid (js "The signer must return the base64 encoding of a 64-byte Ed25519 signature."))
  | _, _ => .ok entry

/-- `packModule`, with the time that is published by default. -/
def packModule (isDate : JsString → Bool) (now moduleDir : JsString) (entries : Directory)
    (options : PackModuleOptions) : Except Thrown PackedModule := do
  let manifest ← readManifest platform moduleDir entries
  checkPackOptions options
  let entry ← signEntry (unsignedEntry platform manifest entries options now) options
  validateEntryInIsolation isDate entry
  .ok { entry, files := listPackableFiles platform entries }

/-! ## Verifying -/

structure TrustedPublisherKey where
  publisher : Option JsString := none
  pem : JsString

structure VerifyEntryOptions where
  publisherKey : Option JsString := none
  allowlist : List TrustedPublisherKey := []
  requireSignature : Bool := false

inductive SignatureVerificationStatus
  | absent | valid | invalid | untrusted
  deriving DecidableEq, Repr

structure EntryHashCheck where
  expected : JsString
  actual : Option JsString
  isMatch : Bool

structure EntryVerificationFailure where
  code : JsString
  message : JsString

structure SignatureVerification where
  status : SignatureVerificationStatus
  publisher : Option JsString
  checkedKeys : Nat
  reason : JsString

structure EntryVerification where
  ok : Bool
  directory : JsString
  name : JsString
  version : JsString
  manifestId : Option JsString
  manifestVersion : Option JsString
  metadata : Option Bool
  manifest : EntryHashCheck
  content : EntryHashCheck
  signature : SignatureVerification
  requireSignature : Bool
  allowlistSize : Nat
  failures : List EntryVerificationFailure

def entryKey (entry : RegistryModuleEntry) : JsString := entry.name ++ 64 :: entry.version

/-- The keys that may verify the signature of a publisher, with their labels. -/
def candidatesOf (options : VerifyEntryOptions) (publisher : Option JsString) : List (JsString × JsString) :=
  ((options.publisherKey.filter (· ≠ [])).map fun pem => (js "publisher-key", pem)).toList ++
    (options.allowlist.filter fun trusted => trusted.publisher = none ∨ trusted.publisher = publisher).map
      fun trusted => (trusted.publisher.getD (js "(any)"), trusted.pem)

/-- The label of the first key that verifies a signature, or why none does. -/
def tryCandidates (payload : JsString) (signature : JsString) :
    List (JsString × JsString) → List JsString → Except (List JsString) JsString
  | [], errors => .error errors
  | (label, pem) :: candidates, errors => match platform.edVerify payload pem (some (.str signature)) with
    | .ok true => .ok label
    | .ok false =>
      tryCandidates payload signature candidates (errors ++ [js "key '" ++ label ++ js "' did not verify"])
    | .error message => tryCandidates payload signature candidates
        (errors ++ [js "key '" ++ label ++ js "' could not be used: " ++ message])

/-- `verifySignature`, with the failures it adds. -/
def verifySignature (entry : RegistryModuleEntry) (options : VerifyEntryOptions) :
    SignatureVerification × List EntryVerificationFailure :=
  let publisher := entry.publisher
  let untrusted (message : JsString) : EntryVerificationFailure := { code := js "MODULE_UNTRUSTED", message }
  match entry.signature with
  | none =>
    if options.requireSignature then
      ({ status := .absent, publisher, checkedKeys := 0,
         reason := js "Signature required but the entry is unsigned." },
        [untrusted (js "'" ++ entryKey entry ++ js "' is unsigned and --require-signature is in effect.")])
    else
      let reason := js "Entry is unsigned; unsigned modules work locally but are never shown as verified."
      ({ status := .absent, publisher, checkedKeys := 0, reason }, [])
  | some signature =>
    let candidates := candidatesOf options publisher
    let allowlisted := options.allowlist.any fun trusted => trusted.publisher = none ∨ trusted.publisher = publisher
    let shown := publisher.getD (js "(unknown)")
    if publisher.isSome ∧ options.allowlist ≠ [] ∧ !allowlisted ∧ options.publisherKey.isNone then
      ({ status := .untrusted, publisher, checkedKeys := 0,
         reason := js "Publisher '" ++ shown ++ js "' is not in the allowlist." },
        [untrusted (js "Publisher '" ++ shown ++ js "' is not in the allowlist; refusing '" ++ entryKey entry ++
          js "'.")])
    else if candidates = [] then
      let reason := js "No key supplied for publisher '" ++ shown ++ js "'; signature cannot be trusted."
      ({ status := .untrusted, publisher, checkedKeys := 0, reason },
        if options.requireSignature then
          [untrusted (js "'" ++ entryKey entry ++ js "' is signed but no trusted key was supplied (" ++ reason ++
            js ")")]
        else [])
    else match tryCandidates platform (payloadOf entry) signature candidates [] with
      | .ok label => ({ status := .valid, publisher, checkedKeys := candidates.length,
                        reason := js "Signature verified with key '" ++ label ++ js "'." }, [])
      | .error errors =>
        ({ status := .invalid, publisher, checkedKeys := candidates.length,
           reason := js "Signature did not verify against " ++ decimal candidates.length ++ js " supplied key(s)." },
          [{ code := js "MODULE_SIGNATURE_INVALID", message := js "Signature for '" ++ entryKey entry ++
              js "' did not verify (" ++ List.intercalate (js "; ") errors ++ js ")." }])

def readManifestString (manifest : Option Json) (key : JsString) : Option JsString :=
  (Json.fields? manifest).bind fun fields => Json.string? (fields.get? key)

/-- The manifest of a directory that is verified, or why there is none; `null` is none. -/
def parsedManifest (directory : JsString) (entries : Directory) : Except JsString Json :=
  match readModuleManifestJson platform directory entries with
  | .ok .null => .error (js "unknown error")
  | .ok manifest => .ok manifest
  | .error e => .error e.text

def hashFailure (kind : JsString) (entry : RegistryModuleEntry) (expected : JsString) (actual : Option JsString) :
    List EntryVerificationFailure :=
  if actual = some expected then []
  else [{ code := js "MODULE_HASH_MISMATCH"
          message := kind ++ js " hash mismatch for '" ++ entryKey entry ++ js "': expected " ++ expected ++
            js ", actual " ++ actual.getD (js "(unavailable)") ++ js "." }]

/-- The failure of a name or a version that does not match, or of a manifest that cannot be read. -/
def metadataFailure (directory : JsString) (entry : RegistryModuleEntry) (parsed : Except JsString Json) :
    List EntryVerificationFailure :=
  match parsed with
  | .ok manifest =>
    let id := readManifestString (some manifest) (js "id")
    let version := readManifestString (some manifest) (js "version")
    if id = some entry.name ∧ version = some entry.version then []
    else [{ code := js "MODULE_METADATA_MISMATCH"
            message := js "Manifest declares '" ++ id.getD (js "(missing)") ++ js "@" ++
              version.getD (js "(missing)") ++ js "' but the registry entry is '" ++ entryKey entry ++ js "'." }]
  | .error message => [{ code := js "MODULE_HASH_MISMATCH"
                         message := js "Cannot read " ++ moduleManifestFilename ++ js " in '" ++ directory ++
                          js "': " ++ message }]

/-- `verifyEntry`, of the directory that `directory` names, if there is one. -/
def verifyEntry (directory : JsString) (contents : Option Directory) (entry : RegistryModuleEntry)
    (options : VerifyEntryOptions) : Except Thrown EntryVerification :=
  match contents with
  | none => .error (registryError (js "MODULE_SOURCE_INVALID")
      (js "Module directory '" ++ directory ++ js "' does not exist."))
  | some entries =>
    let parsed := parsedManifest platform directory entries
    let manifestId := readManifestString parsed.toOption (js "id")
    let manifestVersion := readManifestString parsed.toOption (js "version")
    let manifestHash := parsed.toOption.map platform.manifestHash
    let contentHash := platform.contentHash entries
    let (signature, signatureFailures) := verifySignature platform entry options
    let failures := metadataFailure directory entry parsed ++
      hashFailure (js "Manifest") entry entry.manifestHash manifestHash ++
      hashFailure (js "Content") entry entry.contentHash (some contentHash) ++ signatureFailures
    .ok
      { ok := failures = []
        directory, name := entry.name, version := entry.version, manifestId, manifestVersion
        metadata := parsed.toOption.map fun _ =>
          decide (manifestId = some entry.name ∧ manifestVersion = some entry.version)
        manifest := { expected := entry.manifestHash, actual := manifestHash
                      isMatch := manifestHash = some entry.manifestHash }
        content := { expected := entry.contentHash, actual := some contentHash
                     isMatch := contentHash = entry.contentHash }
        signature, requireSignature := options.requireSignature, allowlistSize := options.allowlist.length
        failures }

end Platform

end Pinout.Registry
