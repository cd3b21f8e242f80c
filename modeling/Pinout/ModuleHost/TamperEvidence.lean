import Pinout.ModuleHost.Integrity
import Pinout.Foundation.Fallible

/-! # What a signature covers

A content hash is made over a text with a line for each file that is hashed. Where no path has a line feed the
text says which files they are, and what is in them; so directories with one content hash have the same
hashed files. -/

namespace Pinout.ModuleHost

open Foundation Protocol

theorem encodeUtf8_inj {s t : JsString} (hs : WellFormed s) (ht : WellFormed t)
    (h : encodeUtf8 s = encodeUtf8 t) : s = t := by
  obtain ⟨ms, hms, rfl⟩ := hs
  obtain ⟨ns, hns, rfl⟩ := ht
  have hbytes : ∀ ns : List Nat, (∀ n ∈ ns, IsScalar n) →
      (encodeUtf8 (ns.flatMap codePointUnits)).map UInt8.toNat = ns.flatMap codePointBytes := by
    intro ns hns
    rw [encodeUtf8, codePoints_flatMap hns, List.map_map]
    refine (List.map_congr_left fun b hb => ?_).trans (List.map_id _)
    obtain ⟨n, hn, hb⟩ := List.mem_flatMap.mp hb
    exact toNat_toUInt8 (lt_of_mem_codePointBytes (hns n hn) hb)
  have hread : ms.flatMap codePointBytes = ns.flatMap codePointBytes := by
    rw [← hbytes ms hms, h, hbytes ns hns]
  have hms := Utf8State.read_flatMap hms
  rw [hread, Utf8State.read_flatMap hns] at hms
  rw [(Prod.mk.inj hms).2]

theorem wellFormed_intercalate {sep : JsString} (hsep : WellFormed sep) {texts : List JsString}
    (h : ∀ text ∈ texts, WellFormed text) : WellFormed (List.intercalate sep texts) := by
  induction texts with
  | nil => exact ⟨[], fun _ hn => absurd hn List.not_mem_nil, rfl⟩
  | cons text texts ih =>
    have htext := h text List.mem_cons_self
    have ih := ih fun other hother => h other (List.mem_cons_of_mem _ hother)
    cases texts with
    | nil => simpa [List.intercalate] using htext
    | cons other texts =>
      rw [List.intercalate_cons_cons]
      exact (htext.append hsep).append ih

theorem intercalate_inj {sep : UInt16} {lines lines' : List JsString}
    (h : ∀ line ∈ lines ++ lines', sep ∉ line ∧ line ≠ [])
    (heq : List.intercalate [sep] lines = List.intercalate [sep] lines') : lines = lines' := by
  have hsplit : ∀ ls : List JsString, (∀ line ∈ ls, sep ∉ line) → ls ≠ [] →
      (List.intercalate [sep] ls).splitOn sep = ls :=
    fun ls hls hne => List.splitOn_intercalate sep hls hne
  have hleft : ∀ line ∈ lines, sep ∉ line := fun line hline => (h line (List.mem_append_left _ hline)).1
  have hright : ∀ line ∈ lines', sep ∉ line := fun line hline => (h line (List.mem_append_right _ hline)).1
  have hnil : (List.intercalate [sep] ([] : List JsString)).splitOn sep = [[]] := by simp [List.intercalate]
  by_cases hl : lines = []
  · by_cases hr : lines' = []
    · rw [hl, hr]
    · have hcut := hsplit lines' hright hr
      rw [← heq, hl, hnil] at hcut
      exact absurd rfl (h [] (List.mem_append_right _ (by rw [← hcut]; exact List.mem_singleton.mpr rfl))).2
  · by_cases hr : lines' = []
    · have hcut := hsplit lines hleft hl
      rw [heq, hr, hnil] at hcut
      exact absurd rfl (h [] (List.mem_append_left _ (by rw [← hcut]; exact List.mem_singleton.mpr rfl))).2
    · rw [← hsplit lines hleft hl, heq, hsplit lines' hright hr]

theorem append_cons_inj_last {α : Type*} {a : α} {x x' z z' : List α} (hz : a ∉ z) (hz' : a ∉ z')
    (h : x ++ a :: z = x' ++ a :: z') : x = x' ∧ z = z' := by
  have hshort : ∀ {l z z' : List α}, a ∉ z → a :: z = l ++ a :: z' → l = [] := by
    intro l z z' hz hl
    cases l with
    | nil => rfl
    | cons b l =>
      obtain ⟨-, rfl⟩ := List.cons.inj hl
      exact absurd (List.mem_append_right _ List.mem_cons_self) hz
  rcases List.append_eq_append_iff.mp h with ⟨l, rfl, hl⟩ | ⟨l, rfl, hl⟩
  · obtain rfl := hshort hz hl
    exact ⟨(List.append_nil _).symm, (List.cons.inj hl).2⟩
  · obtain rfl := hshort hz' hl
    exact ⟨List.append_nil _, (List.cons.inj hl).2.symm⟩

theorem eq_of_map_eq {α β : Type*} {f : α → β} {l l' : List α} (hinj : ∀ a ∈ l, ∀ b ∈ l', f a = f b → a = b)
    (h : l.map f = l'.map f) : l = l' := by
  induction l generalizing l' with
  | nil => exact (List.map_eq_nil_iff.mp h.symm).symm
  | cons a l ih =>
    cases l' with
    | nil => cases h
    | cons b l' =>
      obtain ⟨hhead, htail⟩ := List.cons.inj h
      rw [hinj a List.mem_cons_self b List.mem_cons_self hhead,
        ih (fun x hx y hy => hinj x (List.mem_cons_of_mem _ hx) y (List.mem_cons_of_mem _ hy)) htail]

def isHexUnit (u : UInt16) : Bool := (48 ≤ u && u ≤ 57) || (97 ≤ u && u ≤ 102)

namespace Platform

variable {platform : Platform}

def HexDigests (platform : Platform) : Prop := ∀ bytes, ∀ u ∈ platform.sha256 bytes, isHexUnit u = true

def CollisionFree (platform : Platform) (contents : List (List UInt8)) : Prop :=
  ∀ a ∈ contents, ∀ b ∈ contents, platform.sha256 a = platform.sha256 b → a = b

instance (contents : List (List UInt8)) : Decidable (platform.CollisionFree contents) := by
  unfold CollisionFree
  infer_instance

/-- What is digested for the content hash of a directory. -/
def digested (platform : Platform) (entries : Directory) : List (List UInt8) :=
  encodeUtf8 (platform.contentText entries) :: (platform.hashedFiles entries).map (·.2)

theorem mem_hashedFiles {entries : Directory} {rel : JsString} {bytes : List UInt8} :
    (rel, bytes) ∈ platform.hashedFiles entries ↔
      ∃ path, FileNode.HasFile (.dir entries) path bytes ∧ FileNode.Kept hashed path ∧ rel = pathText path := by
  rw [hashedFiles, mem_sortBy, List.mem_map]
  constructor
  · rintro ⟨⟨path, bytes'⟩, hfile, heq⟩
    obtain ⟨rfl, rfl⟩ := Prod.mk.inj heq
    obtain ⟨hhas, hkept⟩ := FileNode.mem_walk.mp hfile
    exact ⟨path, hhas, hkept, rfl⟩
  · rintro ⟨path, hhas, hkept, rfl⟩
    exact ⟨(path, bytes), FileNode.mem_walk.mpr ⟨hhas, hkept⟩, rfl⟩

theorem HexDigests.not_mem (h : platform.HexDigests) (bytes : List UInt8) {u : UInt16}
    (hu : isHexUnit u = false) : u ∉ platform.sha256 bytes := by
  intro hmem
  rw [h bytes u hmem] at hu
  cases hu

theorem wellFormed_contentText (hhex : platform.HexDigests) (entries : Directory) :
    WellFormed (platform.contentText entries) := by
  refine wellFormed_intercalate (wellFormed_of_forall_lt (by decide)) fun line hline => ?_
  obtain ⟨⟨rel, bytes⟩, hfile, rfl⟩ := List.mem_map.mp hline
  obtain ⟨path, -, -, rfl⟩ := mem_hashedFiles.mp hfile
  have hpath : WellFormed (pathText path) := by
    refine wellFormed_intercalate (wellFormed_of_forall_lt (by decide)) fun text htext => ?_
    obtain ⟨name, -, rfl⟩ := List.mem_map.mp htext
    exact name.wellFormed
  refine hpath.append (wellFormed_of_forall_lt fun u hu => ?_)
  rcases List.mem_cons.mp hu with rfl | hu
  · decide
  · have hdigit := hhex bytes u hu
    have hle : u ≤ 102 := by
      simp only [isHexUnit, Bool.or_eq_true, Bool.and_eq_true, decide_eq_true_eq] at hdigit
      rcases hdigit with ⟨-, hd⟩ | ⟨-, hd⟩
      · exact UInt16.le_trans hd (by decide)
      · exact hd
    exact (UInt16.le_iff_toNat_le.mp hle).trans_lt (by decide)

theorem ne_nil_of_hasFile {entries : Directory} {path : List FileName} {bytes : List UInt8}
    (h : FileNode.HasFile (.dir entries) path bytes) : path ≠ [] := by
  cases h
  exact nofun

/-- No hashed file of a directory has a line feed in its path. -/
def LineFree (entries : Directory) : Prop :=
  ∀ path bytes, FileNode.HasFile (.dir entries) path bytes → FileNode.Kept hashed path →
    (10 : UInt16) ∉ pathText path

variable {d d' : Directory}

variable (platform) in
theorem lineFree_of_hashedFiles (h : ∀ file ∈ platform.hashedFiles d, (10 : UInt16) ∉ file.1) : LineFree d :=
  fun path bytes hhas hkept => h (pathText path, bytes) (mem_hashedFiles.mpr ⟨path, hhas, hkept, rfl⟩)

/-- **The content hash tells what is hashed**, where no path has a line feed. -/
theorem hashedFiles_of_contentHash (hhex : platform.HexDigests)
    (hfree : platform.CollisionFree (platform.digested d ++ platform.digested d'))
    (hline : LineFree d) (hline' : LineFree d') (h : platform.contentHash d = platform.contentHash d') :
    platform.hashedFiles d = platform.hashedFiles d' := by
  have htext : platform.contentText d = platform.contentText d' :=
    encodeUtf8_inj (wellFormed_contentText hhex d) (wellFormed_contentText hhex d')
      (hfree _ (List.mem_append_left _ List.mem_cons_self) _ (List.mem_append_right _ List.mem_cons_self) h)
  have hlines : ∀ d : Directory, LineFree d →
      ∀ line ∈ (platform.hashedFiles d).map platform.hashLine, (10 : UInt16) ∉ line ∧ line ≠ [] := by
    intro d hd line hmem
    obtain ⟨⟨rel, bytes⟩, hfile, rfl⟩ := List.mem_map.mp hmem
    obtain ⟨path, hhas, hkept, rfl⟩ := mem_hashedFiles.mp hfile
    refine ⟨fun hin => ?_, List.append_ne_nil_of_right_ne_nil _ nofun⟩
    rcases List.mem_append.mp hin with hin | hin
    · exact hd path bytes hhas hkept hin
    · rcases List.mem_cons.mp hin with heq | hin
      · cases heq
      · exact hhex.not_mem bytes (by decide) hin
  have hmap := intercalate_inj (fun line hline'' => (List.mem_append.mp hline'').elim
    (hlines d hline line) (hlines d' hline' line)) htext
  refine eq_of_map_eq (fun a ha b hb hab => ?_) hmap
  obtain ⟨hrel, hsha⟩ := append_cons_inj_last (hhex.not_mem a.2 (by decide)) (hhex.not_mem b.2 (by decide)) hab
  have hbytes := hfree a.2
    (List.mem_append_left _ (List.mem_cons_of_mem _ (List.mem_map_of_mem ha))) b.2
    (List.mem_append_right _ (List.mem_cons_of_mem _ (List.mem_map_of_mem hb))) hsha
  exact Prod.ext hrel hbytes

theorem hasFile_of_hashedFiles (h : platform.hashedFiles d = platform.hashedFiles d') {path : List FileName}
    {bytes : List UInt8} (hkept : FileNode.Kept hashed path) (hhas : FileNode.HasFile (.dir d) path bytes) :
    FileNode.HasFile (.dir d') path bytes := by
  have hmem : (pathText path, bytes) ∈ platform.hashedFiles d := mem_hashedFiles.mpr ⟨path, hhas, hkept, rfl⟩
  rw [h] at hmem
  obtain ⟨path', hhas', -, htext⟩ := mem_hashedFiles.mp hmem
  rwa [pathText_inj (ne_nil_of_hasFile hhas) (ne_nil_of_hasFile hhas') htext]

section Verdicts

variable {mHash cHash publisher : JsString} {signature : Json} {signed : Option Json}

/-- **What a signature file says**: its algorithm, the two hashes, a publisher and a signature. -/
structure Records (platform : Platform) (mHash cHash : JsString) (signature : Json) (publisher : JsString)
    (signed : Option Json) : Prop where
  algorithm : propertyOf signature (js "algorithm") = .ok (some (.str (js "ed25519")))
  manifestHash : propertyOf signature (js "manifestHash") = .ok (some (.str mHash))
  contentHash : propertyOf signature (js "contentHash") = .ok (some (.str cHash))
  publisher : ∃ name, propertyOf signature (js "publisher") = .ok name ∧ stringOf platform.numText name = .ok publisher
  signature : propertyOf signature (js "signature") = .ok signed

def trustedKey (trusted : List (JsString × JsString)) (publisher : JsString) : Option JsString :=
  ((trusted.find? (·.1 = publisher)).map (·.2)).filter (· ≠ [])

theorem eq_str_of_string? {value : Option Json} {text : JsString} (h : Json.string? value = some text) :
    value = some (.str text) := by
  unfold Json.string? at h
  split at h
  · rw [Option.some.inj h]
  · cases h

/-- A verdict other than `INVALID_SIGNATURE`: the hashes are the computed ones, and a key of the publisher verifies. -/
theorem of_concludeSignature {signedManifest signedContent name : Option Json} {pem : Option JsString} {valid : Bool}
    {reasons : List JsString} {report : IntegrityReport}
    (hreport : concludeSignature mHash cHash signedManifest signedContent name pem valid reasons = report)
    (h : report.status ≠ .invalidSignature) :
    signedManifest = some (.str mHash) ∧ signedContent = some (.str cHash) ∧
      (report.status = .verified ∧ pem.isSome = true ∧ valid = true ∨ report.status = .signed ∧ pem = none) := by
  subst hreport
  rw [concludeSignature] at h ⊢
  split at h
  · exact absurd rfl h
  · next hsame =>
    rw [if_neg hsame]
    rw [not_or, not_not, not_not] at hsame
    refine ⟨eq_str_of_string? hsame.1, eq_str_of_string? hsame.2, ?_⟩
    cases pem with
    | none => exact .inr ⟨rfl, rfl⟩
    | some pem =>
      cases valid with
      | true => exact .inl ⟨rfl, rfl, rfl⟩
      | false => exact absurd rfl h

/-- **What stands behind the verdict on a signature file.** -/
theorem of_checkSignature {trusted : List (JsString × JsString)} {report : IntegrityReport}
    (h : checkSignature platform mHash cHash signature trusted = .ok report)
    (hstatus : report.status ≠ .invalidSignature) :
    ∃ publisher signed, Records platform mHash cHash signature publisher signed ∧
      (report.status = .verified ∧ (∃ pem ∈ trustedKey trusted publisher,
        platform.edVerify (mHash ++ 58 :: cHash) pem signed = .ok true) ∨
      report.status = .signed ∧ trustedKey trusted publisher = none) := by
  rw [checkSignature] at h
  obtain ⟨algorithm, halgorithm, h⟩ := exists_of_bind_eq_ok h
  obtain ⟨version, -, h⟩ := exists_of_bind_eq_ok h
  split at h
  · rw [← Except.ok.inj h] at hstatus
    exact absurd rfl hstatus
  · next hformat =>
    obtain ⟨signedManifest, hmanifest, h⟩ := exists_of_bind_eq_ok h
    obtain ⟨signedContent, hcontent, h⟩ := exists_of_bind_eq_ok h
    obtain ⟨name, hname, h⟩ := exists_of_bind_eq_ok h
    obtain ⟨signed, hsigned, h⟩ := exists_of_bind_eq_ok h
    obtain ⟨manifestText, hmanifestText, h⟩ := exists_of_bind_eq_ok h
    obtain ⟨contentText, hcontentText, h⟩ := exists_of_bind_eq_ok h
    obtain ⟨publisher, hpublisher, h⟩ := exists_of_bind_eq_ok h
    rw [not_or, not_not] at hformat
    have halgorithm' := halgorithm.trans (congrArg Except.ok (eq_str_of_string? hformat.1))
    refine ⟨publisher, signed, ?_⟩
    dsimp only at h
    cases hkey : trustedKey trusted publisher with
    | none =>
      rw [trustedKey] at hkey
      rw [hkey] at h
      obtain ⟨rfl, rfl, ⟨-, hsome, -⟩ | ⟨hverdict, -⟩⟩ := of_concludeSignature (Except.ok.inj h) hstatus
      · cases hsome
      · exact ⟨⟨halgorithm', hmanifest, hcontent, ⟨name, hname, hpublisher⟩, hsigned⟩, .inr ⟨hverdict, rfl⟩⟩
    | some pem =>
      rw [trustedKey] at hkey
      rw [hkey] at h
      dsimp only at h
      split at h
      · next valid hverify =>
        obtain ⟨rfl, rfl, ⟨hverdict, -, rfl⟩ | ⟨-, hnone⟩⟩ := of_concludeSignature (Except.ok.inj h) hstatus
        · obtain rfl : mHash = manifestText := Except.ok.inj hmanifestText
          obtain rfl : cHash = contentText := Except.ok.inj hcontentText
          exact ⟨⟨halgorithm', hmanifest, hcontent, ⟨name, hname, hpublisher⟩, hsigned⟩,
            .inl ⟨hverdict, pem, rfl, hverify⟩⟩
        · cases hnone
      · obtain ⟨-, -, ⟨-, -, hvalid⟩ | ⟨-, hnone⟩⟩ := of_concludeSignature (Except.ok.inj h) hstatus
        · cases hvalid
        · cases hnone

/-- The manifest and the signature file of a directory. -/
def Holds (platform : Platform) (entries : Directory) (manifest signature : Json) : Prop :=
  (∃ bytes, readFile (entryOf entries moduleManifestFilename) = .ok bytes ∧ platform.parse bytes = .ok manifest) ∧
    ∃ bytes, readFile (entryOf entries signatureFile) = .ok bytes ∧ platform.parse bytes = .ok signature

/-- **What stands behind a verdict on a directory**, unless it is that nothing is signed or the signature is bad. -/
theorem of_verifyModule {moduleDir : JsString} {directory : Option Directory} {trusted : List (JsString × JsString)}
    {report : IntegrityReport} (h : platform.verifyModule moduleDir directory trusted = .ok report)
    (hstatus : report.status = .verified ∨ report.status = .signed) :
    ∃ entries manifest signature, directory = some entries ∧ Holds platform entries manifest signature ∧
      checkSignature platform (platform.manifestHash manifest) (platform.contentHash entries) signature trusted =
        .ok report := by
  have hnot : ∀ report' : IntegrityReport, report'.status = .invalidSignature ∨ report'.status = .unsigned →
      (.ok report' : Except Thrown IntegrityReport) ≠ .ok report := by
    rintro report' hother heq
    obtain rfl := Except.ok.inj heq
    rcases hstatus with hstatus | hstatus <;> rw [hstatus] at hother <;> simp at hother
  unfold verifyModule at h
  split at h
  · exact absurd h (hnot _ (.inl rfl))
  · next entries =>
    split at h
    · exact absurd h (hnot _ (.inl rfl))
    · split at h
      · cases h
      · next bytes hbytes =>
        split at h
        · exact absurd h (hnot _ (.inl rfl))
        · next manifest hmanifest =>
          split at h
          · exact absurd h (hnot _ (.inr rfl))
          · split at h
            · next signature hsignature =>
              cases hread : readFile (entryOf entries signatureFile) with
              | error e =>
                rw [hread] at hsignature
                cases hsignature
              | ok bytes' =>
                rw [hread] at hsignature
                exact ⟨entries, manifest, signature, rfl,
                  ⟨⟨bytes, hbytes, hmanifest⟩, bytes', hread, Except.ok.inj hsignature⟩, h⟩
            · exact absurd h (hnot _ (.inl rfl))
            · exact absurd h (hnot _ (.inl rfl))

end Verdicts

/-- A directory that is verified has a signature, made over its content hash. -/
theorem exists_of_verified {moduleDir : JsString} {entries : Directory}
    {trusted : List (JsString × JsString)} {report : IntegrityReport}
    (h : platform.verifyModule moduleDir (some entries) trusted = .ok report) (hstatus : report.status = .verified) :
    ∃ bytes signature signed,
      readFile (entryOf entries signatureFile) = .ok bytes ∧ platform.parse bytes = .ok signature ∧
      propertyOf signature (js "contentHash") = .ok signed ∧
      Json.string? signed = some (platform.contentHash entries) := by
  obtain ⟨_, manifest, signature, hentries, ⟨-, bytes, hread, hparse⟩, hcheck⟩ := of_verifyModule h (.inl hstatus)
  obtain rfl := Option.some.inj hentries
  obtain ⟨publisher, signed, hrecords, -⟩ := of_checkSignature hcheck (by rw [hstatus]; nofun)
  exact ⟨bytes, signature, _, hread, hparse, hrecords.contentHash, rfl⟩

/-- **Signatures are tamper-evident for what is hashed**: directories that are verified with one signature
have the same hashed files, with the same bytes, where no path of such a file has a line feed. -/
theorem same_files_of_verified (platform : Platform) (hhex : platform.HexDigests) (d d' : Directory)
    (hfree : platform.CollisionFree (platform.digested d ++ platform.digested d'))
    (hline : LineFree d) (hline' : LineFree d')
    (hsignature : readFile (entryOf d signatureFile) = readFile (entryOf d' signatureFile))
    (moduleDir moduleDir' : JsString) (trusted : List (JsString × JsString)) (report report' : IntegrityReport)
    (h : platform.verifyModule moduleDir (some d) trusted = .ok report) (hstatus : report.status = .verified)
    (h' : platform.verifyModule moduleDir' (some d') trusted = .ok report')
    (hstatus' : report'.status = .verified) :
    ∀ path bytes, FileNode.Kept hashed path →
      (FileNode.HasFile (.dir d) path bytes ↔ FileNode.HasFile (.dir d') path bytes) := by
  obtain ⟨bytes, signature, signed, hread, hparse, hsigned, hcontent⟩ := exists_of_verified h hstatus
  obtain ⟨bytes', signature', signed', hread', hparse', hsigned', hcontent'⟩ :=
    exists_of_verified h' hstatus'
  obtain rfl := Except.ok.inj (hread.symm.trans (hsignature.trans hread'))
  obtain rfl := Except.ok.inj (hparse.symm.trans hparse')
  obtain rfl := Except.ok.inj (hsigned.symm.trans hsigned')
  have hhash := Option.some.inj (hcontent.symm.trans hcontent')
  have hfiles := hashedFiles_of_contentHash hhex hfree hline hline' hhash
  exact fun path bytes hkept =>
    ⟨hasFile_of_hashedFiles hfiles hkept, hasFile_of_hashedFiles hfiles.symm hkept⟩

end Platform

/-! ## What a signature does not cover -/

section Demo

/-- A name of an entry, of units that are no surrogates. -/
def plainName (text : JsString) (h : ∀ u ∈ text, u.toNat < 0xD800 ∧ u ≠ 47) : FileName :=
  ⟨text, wellFormed_of_forall_lt fun u hu => (h u hu).1, fun hmem => (h 47 hmem).2 rfl⟩

/-- The digest of `A`. -/
def digestA : JsString := js "559aead08264d5795d3909718cdd05abd49572e84fe55590eef31a88a08fdffd"

/-- The digest of `B`. -/
def digestB : JsString := js "df7e70e5021544f4834bbee64a9e3789febc4be81470df629cad6ddb03320a5c"

def digestEmpty : JsString := js "44136fa355b3678a1146ad16f7e8649e94fb4fc21fe77e8310c060f61caaff8a"

/-- The digest of the text that is made of two files and the manifest. -/
def digestText : JsString := js "70d9039fb2133dd502e4cd5797632bfaa938db521b5a59eafd6a5003829cce17"

def demoText : JsString :=
  js "a:" ++ digestA ++ js "\nb:" ++ digestB ++ js "\npinout.module.json:" ++ digestEmpty

def publisherPem : JsString :=
  js "-----BEGIN PUBLIC KEY-----\nMCowBQYDK2VwAyEA6kpsY+KcUgq+9VB7Ey7F+ZVHdq6+vnuSQh7qaRRG0iw=\n" ++
    js "-----END PUBLIC KEY-----\n"

def demoSignature : JsString :=
  js "3M8mg5afQa8Trs1/vyEWxn8KP4wD8I5URS375Iqk+sVQXDftq3/0HFBrOup7dX6IGNV5f0cY+iKjY8BAbkz1CQ=="

def signatureFields : List (JsString × Json) :=
  [(js "version", .num 1), (js "publisher", .str (js "acme")), (js "algorithm", .str (js "ed25519")),
    (js "manifestHash", .str digestEmpty), (js "contentHash", .str digestText),
    (js "signature", .str demoSignature)]

def signatureBytes : List UInt8 := encodeUtf8 (Json.stringify (fun _ => js "1") (.obj signatureFields))

def demoPlatform : Platform where
  numText := fun _ => js "1"
  localeCompare a b := compareOfLessAndEq a b
  parse bytes :=
    if bytes = [123, 125] then .ok (.obj [])
    else if bytes = signatureBytes then .ok (.obj signatureFields)
    else .error (js "Unexpected token")
  sha256 bytes :=
    if bytes = [65] then digestA
    else if bytes = [66] then digestB
    else if bytes = [123, 125] then digestEmpty
    else if bytes = encodeUtf8 demoText then digestText
    else js "0"
  edVerify payload pem signature :=
    .ok (payload = digestEmpty ++ 58 :: digestText && pem = publisherPem &&
      (Json.string? signature = some demoSignature))

/-- What every module here has: the manifest, and the signature. -/
def signedEntries : Directory :=
  [(plainName moduleManifestFilename (by decide), .file [123, 125]),
    (plainName signatureFile (by decide), .file signatureBytes)]

def signedModule : Directory :=
  (plainName (js "a") (by decide), .file [65]) :: (plainName (js "b") (by decide), .file [66]) :: signedEntries

def builtModule : Directory :=
  (plainName (js "dist") (by decide), .dir [(plainName (js "index.js") (by decide), .file [66])]) :: signedModule

def mergedModule : Directory :=
  (plainName (js "a:" ++ digestA ++ js "\nb") (by decide +kernel), .file [66]) :: signedEntries

def trustedPublishers : List (JsString × JsString) := [(js "acme", publisherPem)]

theorem bytes_ne : signatureBytes ≠ [123, 125] ∧
    encodeUtf8 demoText ≠ [65] ∧ encodeUtf8 demoText ≠ [66] ∧ encodeUtf8 demoText ≠ [123, 125] := by
  decide +kernel

theorem parse_signatureBytes : demoPlatform.parse signatureBytes = .ok (.obj signatureFields) := by
  unfold demoPlatform
  dsimp only
  rw [if_neg bytes_ne.1, if_pos rfl]

/-- The signature is the publisher's, for the digests of the manifest and of the text. -/
theorem checkSignature_signatureFields : ∃ report,
    demoPlatform.checkSignature digestEmpty digestText (.obj signatureFields) trustedPublishers = .ok report ∧
      report.status = .verified := by
  have hpem : publisherPem = _ := congrArg₂ (· ++ ·) (js_ofList _) (js_ofList _)
  unfold demoPlatform trustedPublishers signatureFields
  simp only [show digestEmpty = _ from js_ofList _, show digestText = _ from js_ofList _,
    show demoSignature = _ from js_ofList _, hpem]
  exact ⟨_, rfl, rfl⟩

/-- The module is checked up to its signature, whatever verifies it. -/
theorem verifyModule_demo (edVerify : JsString → JsString → Option Json → Except JsString Bool) {d : Directory}
    (hmanifest : entryOf d moduleManifestFilename = some (.file [123, 125]))
    (hsignature : entryOf d signatureFile = some (.file signatureBytes)) (htext : demoPlatform.contentText d = demoText)
    (trusted : List (JsString × JsString)) :
    ({ demoPlatform with edVerify } : Platform).verifyModule [] (some d) trusted =
      ({ demoPlatform with edVerify } : Platform).checkSignature digestEmpty digestText (.obj signatureFields) trusted := by
  have hcontent : ({ demoPlatform with edVerify } : Platform).contentHash d = digestText := by
    change demoPlatform.hashContent (demoPlatform.contentText d) = digestText
    rw [Platform.hashContent, htext]
    unfold demoPlatform
    dsimp only
    rw [if_neg bytes_ne.2.1, if_neg bytes_ne.2.2.1, if_neg bytes_ne.2.2.2, if_pos rfl]
  have hempty : ({ demoPlatform with edVerify } : Platform).manifestHash (.obj []) = digestEmpty := rfl
  have hparse : demoPlatform.parse [123, 125] = .ok (.obj []) := rfl
  rw [Platform.verifyModule]
  simp only [hmanifest, hsignature, existsPath, readFile, hparse, parse_signatureBytes, hcontent, hempty, Except.map,
    Bool.not_true, Bool.false_eq_true, if_false]

/-- A module with the manifest, the signature and the text that was signed is verified, whatever its files are. -/
theorem exists_verified {d : Directory} (hmanifest : entryOf d moduleManifestFilename = some (.file [123, 125]))
    (hsignature : entryOf d signatureFile = some (.file signatureBytes)) (htext : demoPlatform.contentText d = demoText) :
    ∃ report, demoPlatform.verifyModule [] (some d) trustedPublishers = .ok report ∧ report.status = .verified := by
  have hverdict := verifyModule_demo demoPlatform.edVerify hmanifest hsignature htext trustedPublishers
  exact hverdict.symm ▸ checkSignature_signatureFields

/-- The files that are hashed, of a module with two files. -/
def demoFiles : List (JsString × List UInt8) :=
  [(js "a", [65]), (js "b", [66]), (moduleManifestFilename, [123, 125])]

theorem hashedFiles_demo :
    demoPlatform.hashedFiles signedModule = demoFiles ∧ demoPlatform.hashedFiles builtModule = demoFiles := by
  decide +kernel

/-- The text of the two files is that of one whose name has a line feed; and no two contents share a digest. -/
theorem contentText_demo :
    (List.intercalate [10] (demoFiles.map demoPlatform.hashLine) = demoText ∧
      demoPlatform.contentText mergedModule = demoText) ∧
    demoPlatform.CollisionFree ((encodeUtf8 demoText :: demoFiles.map (·.2)) ++ encodeUtf8 demoText :: demoFiles.map (·.2)) := by
  unfold demoPlatform demoText mergedModule
  simp only [show digestA = _ from js_ofList _, show digestB = _ from js_ofList _, show digestEmpty = _ from js_ofList _,
    show digestText = _ from js_ofList _]
  decide +kernel

theorem contentText_eq_demoText {d : Directory} (hfiles : demoPlatform.hashedFiles d = demoFiles) :
    demoPlatform.contentText d = demoText := by
  rw [Platform.contentText, hfiles]
  exact contentText_demo.1.1

theorem exists_verified_signedModule : ∃ report,
    demoPlatform.verifyModule [] (some signedModule) trustedPublishers = .ok report ∧ report.status = .verified :=
  exists_verified rfl rfl (contentText_eq_demoText hashedFiles_demo.1)

theorem exists_verified_builtModule : ∃ report,
    demoPlatform.verifyModule [] (some builtModule) trustedPublishers = .ok report ∧ report.status = .verified :=
  exists_verified rfl rfl (contentText_eq_demoText hashedFiles_demo.2)

theorem readFile_signature : readFile (entryOf signedModule signatureFile) = .ok signatureBytes := rfl

theorem hexDigests_demoPlatform : demoPlatform.HexDigests := by
  intro bytes
  show ∀ u ∈ (if bytes = [65] then digestA else if bytes = [66] then digestB
    else if bytes = [123, 125] then digestEmpty else if bytes = encodeUtf8 demoText then digestText
    else js "0"), isHexUnit u = true
  rw [show digestA = _ from js_ofList _, show digestB = _ from js_ofList _, show digestEmpty = _ from js_ofList _,
    show digestText = _ from js_ofList _]
  split
  · decide
  · split
    · decide
    · split
      · decide
      · split
        · decide
        · decide

theorem lineFree_of_demoFiles {d : Directory} (hfiles : demoPlatform.hashedFiles d = demoFiles) : Platform.LineFree d :=
  Platform.lineFree_of_hashedFiles demoPlatform (by rw [hfiles]; decide)

/-- The module with and without build output. -/
theorem same_files_of_verified_built :
    {file : _ × _ | FileNode.Kept hashed file.1 ∧ FileNode.HasFile (.dir signedModule) file.1 file.2} =
      {file | FileNode.Kept hashed file.1 ∧ FileNode.HasFile (.dir builtModule) file.1 file.2} := by
  obtain ⟨report, h, hstatus⟩ := exists_verified_signedModule
  obtain ⟨report', h', hstatus'⟩ := exists_verified_builtModule
  have hsignature : readFile (entryOf signedModule signatureFile) = readFile (entryOf builtModule signatureFile) :=
    readFile_signature
  have hfree : demoPlatform.CollisionFree (demoPlatform.digested signedModule ++ demoPlatform.digested builtModule) := by
    rw [Platform.digested, Platform.digested, contentText_eq_demoText hashedFiles_demo.1,
      contentText_eq_demoText hashedFiles_demo.2, hashedFiles_demo.1, hashedFiles_demo.2]
    exact contentText_demo.2
  have same := Platform.same_files_of_verified demoPlatform hexDigests_demoPlatform signedModule builtModule hfree
    (lineFree_of_demoFiles hashedFiles_demo.1) (lineFree_of_demoFiles hashedFiles_demo.2) hsignature [] []
    trustedPublishers report report' h hstatus h' hstatus'
  ext ⟨path, bytes⟩
  exact and_congr_right (same path bytes)

/-- Build output is not covered; and the text of two files is that of one whose name has a line feed. -/
theorem not_same_files :
    (∃ report, demoPlatform.verifyModule [] (some signedModule) trustedPublishers = .ok report ∧
      report.status = .verified) ∧
    (∃ report, demoPlatform.verifyModule [] (some builtModule) trustedPublishers = .ok report ∧
      report.status = .verified) ∧
    (∃ report, demoPlatform.verifyModule [] (some mergedModule) trustedPublishers = .ok report ∧
      report.status = .verified) ∧
    readFile (entryOf builtModule signatureFile) = readFile (entryOf signedModule signatureFile) ∧
    readFile (entryOf mergedModule signatureFile) = readFile (entryOf signedModule signatureFile) ∧
    FileNode.HasFile (.dir builtModule) [plainName (js "dist") (by decide), plainName (js "index.js") (by decide)]
      [66] ∧
    ¬ FileNode.HasFile (.dir signedModule)
      [plainName (js "dist") (by decide), plainName (js "index.js") (by decide)] [66] ∧
    FileNode.HasFile (.dir signedModule) [plainName (js "a") (by decide)] [65] ∧
    ¬ FileNode.HasFile (.dir mergedModule) [plainName (js "a") (by decide)] [65] := by
  refine ⟨exists_verified_signedModule, exists_verified_builtModule, exists_verified rfl rfl contentText_demo.1.2,
    readFile_signature.symm, readFile_signature.symm, by decide +kernel, by decide +kernel, by decide +kernel, ?_⟩
  unfold mergedModule
  simp only [show digestA = _ from js_ofList _]
  decide +kernel

end Demo

end Pinout.ModuleHost
