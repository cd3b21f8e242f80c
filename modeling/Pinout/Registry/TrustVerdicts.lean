import Pinout.ModuleHost.TamperEvidence
import Pinout.Registry.RoundTrip

/-! # Trust verdicts

What stands behind a verdict of `verifyEntry` (`packages/registry/src/verify.ts`) and of `verifyModule`
(`packages/module-host/src/integrity.ts`): hashes that were computed of the directory, and a signature that a supplied key
verifies. A module of a publisher without a trusted key is `SIGNED` on its own word (`verdicts_sound`). -/

namespace Pinout.Registry

open Foundation Protocol ModuleHost

variable {platform : Platform} {entry : RegistryModuleEntry} {options : VerifyEntryOptions}

/-- A key that the options supply for a publisher, or for any. -/
def Supplies (options : VerifyEntryOptions) (publisher : Option JsString) (pem : JsString) : Prop :=
  options.publisherKey = some pem ∨
    ∃ trusted ∈ options.allowlist, (trusted.publisher = none ∨ trusted.publisher = publisher) ∧ trusted.pem = pem

theorem supplies_of_mem_candidatesOf {publisher : Option JsString} {candidate : JsString × JsString}
    (h : candidate ∈ candidatesOf options publisher) : Supplies options publisher candidate.2 := by
  rcases List.mem_append.mp h with h | h
  · obtain ⟨pem, hpem, rfl⟩ := Option.map_eq_some_iff.mp (Option.mem_toList.mp h)
    exact .inl (Option.filter_eq_some_iff.mp hpem).1
  · obtain ⟨trusted, htrusted, rfl⟩ := List.mem_map.mp h
    obtain ⟨hmem, hfor⟩ := List.mem_filter.mp htrusted
    exact .inr ⟨trusted, hmem, of_decide_eq_true hfor, rfl⟩

theorem of_tryCandidates {payload signature label : JsString} {candidates : List (JsString × JsString)}
    {errors : List JsString} (h : tryCandidates platform payload signature candidates errors = .ok label) :
    ∃ candidate ∈ candidates, platform.edVerify payload candidate.2 (some (.str signature)) = .ok true := by
  induction candidates generalizing errors with
  | nil => cases h
  | cons first candidates ih =>
    obtain ⟨name, pem⟩ := first
    rw [tryCandidates] at h
    split at h
    · next hvalid => exact ⟨(name, pem), List.mem_cons_self, hvalid⟩
    all_goals
      obtain ⟨candidate, hmem, hvalid⟩ := ih h
      exact ⟨candidate, List.mem_cons_of_mem _ hmem, hvalid⟩

/-- **A required signature that is no failure** is verified by a supplied key. -/
theorem of_verifySignature (hrequired : options.requireSignature = true)
    (h : (verifySignature platform entry options).2 = []) :
    ∃ signature pem, entry.signature = some signature ∧ Supplies options entry.publisher pem ∧
      platform.edVerify (payloadOf entry) pem (some (.str signature)) = .ok true := by
  unfold verifySignature at h
  split at h
  · rw [if_pos hrequired] at h
    cases h
  · next signature hsignature =>
    dsimp only at h
    split at h
    · cases h
    · split at h
      · dsimp only at h
        cases h
      · split at h
        · next label hfound =>
          obtain ⟨candidate, hmem, hvalid⟩ := of_tryCandidates hfound
          exact ⟨signature, candidate.2, hsignature, supplies_of_mem_candidatesOf hmem, hvalid⟩
        · cases h

theorem of_verifyEntry {directory : JsString} {contents : Option Directory} {report : EntryVerification}
    (h : verifyEntry platform directory contents entry options = .ok report) (hok : report.ok = true) :
    ∃ entries manifest, contents = some entries ∧ parsedManifest platform directory entries = .ok manifest ∧
      readManifestString (some manifest) (js "id") = some entry.name ∧
      readManifestString (some manifest) (js "version") = some entry.version ∧
      platform.manifestHash manifest = entry.manifestHash ∧ platform.contentHash entries = entry.contentHash ∧
      (verifySignature platform entry options).2 = [] := by
  unfold verifyEntry at h
  split at h
  · cases h
  · next entries =>
    rw [← Except.ok.inj h] at hok
    obtain ⟨⟨⟨hmetadata, hmanifest⟩, hcontent⟩, hsignature⟩ := by
      simpa only [decide_eq_true_eq, List.append_eq_nil_iff] using hok
    have hhash : ∀ {kind expected : JsString} {actual : Option JsString},
        hashFailure kind entry expected actual = [] → actual = some expected := by
      intro kind expected actual hnone
      by_contra hne
      rw [hashFailure, if_neg hne] at hnone
      cases hnone
    cases hparsed : parsedManifest platform directory entries with
    | error message =>
      rw [hparsed] at hmetadata
      cases hmetadata
    | ok manifest =>
      rw [hparsed] at hmetadata hmanifest
      have hnames : readManifestString (some manifest) (js "id") = some entry.name ∧
          readManifestString (some manifest) (js "version") = some entry.version := by
        by_contra hne
        rw [metadataFailure, if_neg hne] at hmetadata
        cases hmetadata
      exact ⟨entries, manifest, rfl, hparsed, hnames.1, hnames.2, Option.some.inj (hhash hmanifest),
        Option.some.inj (hhash hcontent), hsignature⟩

/-- **Verdicts are sound.** An entry that is accepted with a required signature has the hashes and names of the directory
and a signature over these hashes that a supplied key verifies; so has a `VERIFIED` module, with the trusted key of the
publisher it names; a `SIGNED` one has the hashes, and a publisher without trusted key. -/
theorem verdicts_sound (platform : Platform) :
    (∀ directory contents entry options report, options.requireSignature = true →
      verifyEntry platform directory contents entry options = .ok report → report.ok = true →
      ∃ entries manifest signature pem, contents = some entries ∧
        parsedManifest platform directory entries = .ok manifest ∧
        readManifestString (some manifest) (js "id") = some entry.name ∧
        readManifestString (some manifest) (js "version") = some entry.version ∧
        platform.manifestHash manifest = entry.manifestHash ∧ platform.contentHash entries = entry.contentHash ∧
        entry.signature = some signature ∧ Supplies options entry.publisher pem ∧
        platform.edVerify (payloadOf entry) pem (some (.str signature)) = .ok true) ∧
    ∀ moduleDir directory trusted report, platform.verifyModule moduleDir directory trusted = .ok report →
      report.status = .verified ∨ report.status = .signed →
      ∃ entries manifest signature publisher signed, directory = some entries ∧
        Platform.Holds platform entries manifest signature ∧
        Platform.Records platform (platform.manifestHash manifest) (platform.contentHash entries) signature publisher
          signed ∧
        (report.status = .verified → ∃ pem ∈ Platform.trustedKey trusted publisher,
          platform.edVerify (platform.manifestHash manifest ++ 58 :: platform.contentHash entries) pem signed =
            .ok true) ∧
        (report.status = .signed → Platform.trustedKey trusted publisher = none) := by
  constructor
  · intro directory contents entry options report hrequired h hok
    obtain ⟨entries, manifest, hcontents, hparsed, hid, hversion, hmanifest, hcontent, hnone⟩ := of_verifyEntry h hok
    obtain ⟨signature, pem, hsignature, hsupplies, hvalid⟩ := of_verifySignature hrequired hnone
    exact ⟨entries, manifest, signature, pem, hcontents, hparsed, hid, hversion, hmanifest, hcontent, hsignature,
      hsupplies, hvalid⟩
  · intro moduleDir directory trusted report h hstatus
    obtain ⟨entries, manifest, signature, hdirectory, hholds, hcheck⟩ := Platform.of_verifyModule h hstatus
    obtain ⟨publisher, signed, hrecords, hverdict⟩ := Platform.of_checkSignature hcheck
      (by rcases hstatus with hstatus | hstatus <;> rw [hstatus] <;> nofun)
    refine ⟨entries, manifest, signature, publisher, signed, hdirectory, hholds, hrecords, fun hverified => ?_,
      fun hsigned => ?_⟩
    · rcases hverdict with ⟨-, hkey⟩ | ⟨hother, -⟩
      · exact hkey
      · rw [hverified] at hother
        cases hother
    · rcases hverdict with ⟨hother, -⟩ | ⟨-, hnone⟩
      · rw [hsigned] at hother
        cases hother
      · exact hnone

/-- The signed module is verified with the key of its publisher. -/
theorem verdict_signedModule : ∃ entries manifest signature publisher signed, some signedModule = some entries ∧
    Platform.Holds demoPlatform entries manifest signature ∧
    Platform.Records demoPlatform (demoPlatform.manifestHash manifest) (demoPlatform.contentHash entries) signature
      publisher signed ∧
    ∃ pem ∈ Platform.trustedKey trustedPublishers publisher,
      demoPlatform.edVerify (demoPlatform.manifestHash manifest ++ 58 :: demoPlatform.contentHash entries) pem signed =
        .ok true := by
  obtain ⟨report, hreport, hstatus⟩ := exists_verified_signedModule
  obtain ⟨entries, manifest, signature, publisher, signed, hentries, hholds, hrecords, hkey, -⟩ :=
    (verdicts_sound demoPlatform).2 _ _ _ report hreport (.inl hstatus)
  exact ⟨entries, manifest, signature, publisher, signed, hentries, hholds, hrecords, hkey hstatus⟩

def forgedPlatform : Platform := { demoPlatform with edVerify := fun _ _ _ => .ok false }

theorem signed_signedModule : ∃ report,
    forgedPlatform.verifyModule [] (some signedModule) [] = .ok report ∧ report.status = .signed := by
  have hverdict := @verifyModule_demo (fun _ _ _ => .ok false) signedModule rfl rfl
    (contentText_eq_demoText hashedFiles_demo.1) []
  rw [forgedPlatform, hverdict]
  unfold demoPlatform signatureFields
  simp only [show digestEmpty = _ from js_ofList _, show digestText = _ from js_ofList _,
    show demoSignature = _ from js_ofList _]
  exact ⟨_, rfl, rfl⟩

/-- **A signature that no key verifies** gives `SIGNED` where the publisher has no trusted key. -/
theorem not_signed_valid : ¬ ∀ (platform : Platform) moduleDir directory trusted report,
    platform.verifyModule moduleDir directory trusted = .ok report → report.status = .signed →
      ∃ payload pem signature, platform.edVerify payload pem signature = .ok true := by
  intro h
  obtain ⟨report, hreport, hstatus⟩ := signed_signedModule
  obtain ⟨payload, pem, signature, hvalid⟩ := h forgedPlatform [] (some signedModule) [] report hreport hstatus
  cases hvalid

end Pinout.Registry
