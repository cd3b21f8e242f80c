import Pinout.Foundation.FileTree
import Pinout.Protocol.Messages

/-! # Module integrity

The hashes of a module directory and the verification of its signature
(`packages/module-host/src/integrity.ts`). What the code uses of its platform is a parameter (`Platform`): how
a number is printed, how strings are ordered, what `JSON.parse` makes of the bytes of a file, SHA-256 and
Ed25519. -/

namespace Pinout.ModuleHost

open Foundation Protocol

structure Platform where
  numText : ℚ → JsString
  localeCompare : JsString → JsString → Ordering
  /-- `JSON.parse`, of a file that is read as UTF-8; it may throw an error with a message. -/
  parse : List UInt8 → Except JsString Json
  sha256 : List UInt8 → JsString
  /-- `edVerify`, of a payload, a key in PEM format and a signature in base64; it may throw an error with a
  message. -/
  edVerify : JsString → JsString → Option Json → Except JsString Bool

abbrev Directory : Type := List (FileName × FileNode)

def excludedEntries : List JsString :=
  [js "node_modules", js "dist", js ".git", js "coverage", js ".pinout-cache"]

def excludedFiles : List JsString := [js "pinout.module.sig"]

def signatureFile : JsString := js "pinout.module.sig"

def moduleManifestFilename : JsString := js "pinout.module.json"

/-- What a hash is made over: entries that are not excluded, and files that are not signatures. -/
def hashed (name : FileName) (isDir : Bool) : Bool :=
  !excludedEntries.contains name.text && (isDir || !excludedFiles.contains name.text)

inductive IntegrityStatus
  | unsigned | signed | verified | invalidSignature
  deriving DecidableEq, Repr

structure IntegrityReport where
  status : IntegrityStatus
  manifestHash : Option JsString := none
  contentHash : Option JsString := none
  publisher : Option Json := none
  reasons : List JsString

/-! ## Reading -/

def entryOf (entries : Directory) (name : JsString) : Option FileNode :=
  (entries.find? fun entry => entry.1.text = name).map (·.2)

/-- `existsPath`: a link that leads nowhere does not exist. -/
def existsPath : Option FileNode → Bool
  | none | some (.other none) => false
  | some _ => true

/-- `readFileSync`. -/
def readFile : Option FileNode → Except Thrown (List UInt8)
  | some (.file bytes) | some (.other (some bytes)) => .ok bytes
  | some (.dir _) =>
    .error (.error (js "Error") (some (js "EISDIR")) (js "EISDIR: illegal operation on a directory, read"))
  | none | some (.other none) =>
    .error (.error (js "Error") (some (js "ENOENT")) (js "ENOENT: no such file or directory"))

def propertyOf (value : Json) (name : JsString) : Except Thrown (Option Json) :=
  match value with
  | .null => .error (.error (js "TypeError") none
      (js "Cannot read properties of null (reading '" ++ name ++ js "')"))
  | .obj fields => .ok (JsonObject.get? fields name)
  | _ => .ok none

namespace Platform

variable (platform : Platform)

def le (a b : JsString) : Bool := platform.localeCompare a b != .gt

/-! ## Hashes -/

mutual

def canonicalJson : Json → JsString
  | .arr items => 91 :: List.intercalate [44] (canonicalItems items) ++ [93]
  | .obj fields =>
    let sorted := sortBy (fun a b => platform.le a.1 b.1) (canonicalFields fields)
    123 :: List.intercalate [44] (sorted.map fun entry => quote entry.1 ++ 58 :: entry.2) ++ [125]
  | value => Json.stringify platform.numText value

def canonicalItems : List Json → List JsString
  | [] => []
  | item :: items => canonicalJson item :: canonicalItems items

/-- The names of the fields of an object, and the texts of their values. -/
def canonicalFields : List (JsString × Json) → List (JsString × JsString)
  | [] => []
  | (name, value) :: fields => (name, canonicalJson value) :: canonicalFields fields

end

/-- `hashContent`, of a text. -/
def hashContent (text : JsString) : JsString := platform.sha256 (encodeUtf8 text)

/-- The files that a hash is made over, by their paths in the directory, in their order. -/
def hashedFiles (entries : Directory) : List (JsString × List UInt8) :=
  sortBy (fun a b => platform.le a.1 b.1)
    ((FileNode.walk (fun a b => platform.le a.text b.text) hashed (.dir entries)).map
      fun file => (pathText file.1, file.2))

def hashLine (file : JsString × List UInt8) : JsString := file.1 ++ 58 :: platform.sha256 file.2

def contentText (entries : Directory) : JsString :=
  List.intercalate [10] ((platform.hashedFiles entries).map platform.hashLine)

def contentHash (entries : Directory) : JsString := platform.hashContent (platform.contentText entries)

def manifestHash (manifest : Json) : JsString := platform.hashContent (platform.canonicalJson manifest)

/-! ## Signatures -/

/-- How `verifyModule` ends, with the hashes that were signed and those that were computed, the trusted key
of the publisher, if there is one, whether the signature is valid, and why not. -/
def concludeSignature (mHash cHash : JsString) (signedManifest signedContent publisher : Option Json)
    (trustedPem : Option JsString) (signatureValid : Bool) (reasons : List JsString) : IntegrityReport :=
  let report (status : IntegrityStatus) (reasons : List JsString) : IntegrityReport :=
    { status, manifestHash := some mHash, contentHash := some cHash, publisher, reasons }
  if Json.string? signedManifest ≠ some mHash ∨ Json.string? signedContent ≠ some cHash then
    report .invalidSignature (reasons ++
      [js "Module content changed after signing (hash mismatch) — possible tampering."])
  else if trustedPem.isSome ∧ signatureValid then report .verified reasons
  else if trustedPem.isNone then report .signed reasons
  else report .invalidSignature (reasons ++ [js "Signature did not verify against any trusted key."])

/-- What `verifyModule` says of a signature, once the hashes are computed. -/
def checkSignature (platform : Platform) (mHash cHash : JsString) (signature : Json)
    (trusted : List (JsString × JsString)) : Except Thrown IntegrityReport := do
  let algorithm ← propertyOf signature (js "algorithm")
  let version ← propertyOf signature (js "version")
  if Json.string? algorithm ≠ some (js "ed25519") ∨ Json.number? version ≠ some 1 then
    .ok { status := .invalidSignature, manifestHash := some mHash, contentHash := some cHash
          reasons := [js "Unsupported signature algorithm or version."] }
  else
    let signedManifest ← propertyOf signature (js "manifestHash")
    let signedContent ← propertyOf signature (js "contentHash")
    let publisher ← propertyOf signature (js "publisher")
    let signedBytes ← propertyOf signature (js "signature")
    let manifestText ← stringOf platform.numText signedManifest
    let contentText ← stringOf platform.numText signedContent
    let name ← stringOf platform.numText publisher
    let conclude := concludeSignature mHash cHash signedManifest signedContent publisher
    match ((trusted.find? (·.1 = name)).map (·.2)).filter (· ≠ []) with
    | none => .ok (conclude none false [js "Publisher '" ++ name ++ js "' is not in the trusted set."])
    | some pem => match platform.edVerify (manifestText ++ 58 :: contentText) pem signedBytes with
      | .ok valid => .ok (conclude (some pem) valid [])
      | .error message =>
        .ok (conclude (some pem) false [js "Signature verification error: " ++ message])

/-- `verifyModule`, of the directory that `moduleDir` names, if there is one. -/
def verifyModule (moduleDir : JsString) (directory : Option Directory) (trusted : List (JsString × JsString)) :
    Except Thrown IntegrityReport :=
  match directory with
  | none => .ok
      { status := .invalidSignature
        reasons := [js "Module directory '" ++ moduleDir ++ js "' does not exist."] }
  | some entries =>
    if !existsPath (entryOf entries moduleManifestFilename) then
      .ok { status := .invalidSignature, reasons := [js "pinout.module.json is missing."] }
    else match readFile (entryOf entries moduleManifestFilename) with
      | .error e => .error e
      | .ok bytes => match platform.parse bytes with
        | .error message => .ok
            { status := .invalidSignature, reasons := [js "Manifest is not valid JSON: " ++ message] }
        | .ok manifest =>
          let mHash := platform.manifestHash manifest
          let cHash := platform.contentHash entries
          if !existsPath (entryOf entries signatureFile) then .ok
            { status := .unsigned, manifestHash := some mHash, contentHash := some cHash
              reasons := [js "No signature file present. Unsigned modules work in development but are " ++
                js "never shown as verified."] }
          -- a signature that cannot be read is caught together with one that is not JSON
          else match (readFile (entryOf entries signatureFile)).map platform.parse with
            | .ok (.ok signature) => checkSignature platform mHash cHash signature trusted
            | .ok (.error _) | .error _ => .ok
                { status := .invalidSignature, manifestHash := some mHash, contentHash := some cHash
                  reasons := [js "Signature file is not valid JSON."] }

end Platform

end Pinout.ModuleHost
