import Pinout.Registry.Publish

/-! # Installing a module

`installModule` of `packages/registry/src/install.ts`, with any of its steps failing on the file system. The installed
directory is removed before the new one takes its name, and the temporary directory is removed last:
`installModule_atomic_iff` says when all of it or nothing is done. -/

namespace Pinout.Registry

open Foundation Protocol ModuleHost

/-- How the steps of an install go, each with what it leaves behind when it fails. -/
structure InstallCourse where
  /-- `materializeEntry`, with the temporary directory. -/
  materialized : Except (Option Directory) Directory
  /-- `writeSignatureFile`. -/
  written : Except Directory Unit
  /-- `rmSync` of the installed directory. -/
  removed : Except (Option Directory) Unit
  renamed : Bool
  /-- `rmSync` of the temporary directory. -/
  cleaned : Except Directory Unit

/-- `outDir`: what is installed, and what the temporary directory holds. -/
structure OutDir where
  target : Option Directory
  temp : Option Directory

/-- `rmSync` of the temporary directory, with `force`. -/
def InstallCourse.cleanUp (course : InstallCourse) : Option Directory → Option Directory
  | none => none
  | some _ => match course.cleaned with
    | .ok _ => none
    | .error left => some left

section Install

variable (platform : Platform) (entry : RegistryModuleEntry) (options : VerifyEntryOptions) (tempPath : JsString)

-- the bytes that `JSON.stringify` makes of the signature of an entry
variable (signatureBytes : RegistryModuleEntry → List UInt8)

/-- `verifyEntry` and `throwIfVerificationFailed` let a directory through. -/
def isVerified (entries : Directory) : Bool :=
  match verifyEntry platform tempPath (some entries) entry options with
  | .ok report => decide (report.failures = [])
  | .error _ => false

/-- The name of the signature file. -/
def signatureFileName : FileName :=
  ⟨signatureFile, wellFormed_of_forall_lt (by decide), by decide⟩

def writeSignatureFile (entries : Directory) : Directory :=
  if entry.signature.isSome && entry.publisher.isSome then
    (entries.filter fun e => e.1 ≠ signatureFileName) ++ [(signatureFileName, .file (signatureBytes entry))]
  else entries

/-- The complete and verified directory of a module, or what there is when a step before fails. -/
def prepare (course : InstallCourse) : Except (Option Directory) Directory :=
  match course.materialized with
  | .error temp => .error temp
  | .ok entries =>
    if isVerified platform entry options tempPath entries then
      match course.written with
      | .error temp => .error (some temp)
      | .ok _ => .ok (writeSignatureFile entry signatureBytes entries)
    else .error (some entries)

/-- `installModule`, and whether it succeeds. -/
def installModule (force : Bool) (target : Option Directory) (course : InstallCourse) : OutDir × Bool :=
  if target.isSome && !force then (⟨target, none⟩, false)
  else match prepare platform entry options tempPath signatureBytes course with
    | .error temp => (⟨target, course.cleanUp temp⟩, false)
    | .ok new =>
      match (if target.isSome then course.removed else .ok ()) with
      | .error left => (⟨left, course.cleanUp (some new)⟩, false)
      | .ok _ =>
        if course.renamed then (⟨some new, none⟩, true) else (⟨none, course.cleanUp (some new)⟩, false)

/-- Nothing temporary is left, and what is installed is what was installed before or a complete and verified directory. -/
def Atomic (target : Option Directory) (course : InstallCourse) (out : OutDir) : Prop :=
  out.temp = none ∧
    (out.target = target ∨
      ∃ new, prepare platform entry options tempPath signatureBytes course = .ok new ∧ out.target = some new)

/-- The temporary directory can be removed, if there is one when a step fails; and an installed directory is removed
whole, with the rename to follow, or not at all. -/
def InstallCourse.Smooth (target : Option Directory) (course : InstallCourse) : Prop :=
  match prepare platform entry options tempPath signatureBytes course with
  | .error temp => temp.isSome → course.cleaned.isOk
  | .ok new => match target, course.removed with
    | some old, .error left => course.cleaned.isOk ∧ (left = some old ∨ left = some new)
    | some _, .ok _ => course.renamed
    | none, _ => course.renamed ∨ course.cleaned.isOk

variable {platform entry options tempPath signatureBytes}

theorem InstallCourse.cleanUp_eq_none (course : InstallCourse) (temp : Option Directory) :
    course.cleanUp temp = none ↔ (temp.isSome → course.cleaned.isOk) := by
  cases temp with
  | none => simp [cleanUp]
  | some entries => cases hcleaned : course.cleaned <;> simp [cleanUp, hcleaned, Except.isOk, Except.toBool]

/-- **An install is atomic** if and only if it is refused for what is installed, or goes smoothly. -/
theorem installModule_atomic_iff (force : Bool) (target : Option Directory) (course : InstallCourse) :
    Atomic platform entry options tempPath signatureBytes target course
        (installModule platform entry options tempPath signatureBytes force target course).1 ↔
      target.isSome ∧ force = false ∨ course.Smooth platform entry options tempPath signatureBytes target := by
  unfold installModule Atomic InstallCourse.Smooth
  split
  case isTrue hrefused =>
    simp only [Bool.and_eq_true, Bool.not_eq_true'] at hrefused
    exact ⟨fun _ => .inl hrefused, fun _ => ⟨rfl, .inl rfl⟩⟩
  case isFalse hforced =>
    have hnot : ¬ (target.isSome = true ∧ force = false) := by simpa using hforced
    rw [or_iff_right hnot]
    cases hprepared : prepare platform entry options tempPath signatureBytes course with
    | error temp => simp [course.cleanUp_eq_none]
    | ok new =>
      cases target with
      | none => cases course.renamed <;> simp [course.cleanUp_eq_none]
      | some old => cases course.removed with
        | error left => simp [course.cleanUp_eq_none]
        | ok _ => cases course.renamed <;> simp

end Install

/-- A platform whose digests are all the same, and a module for it. -/
def flatPlatform : Platform where
  numText _ := []
  localeCompare _ _ := .eq
  parse _ := .ok (.obj [(js "id", .str (js "test/thermo")), (js "version", .str (js "0.1.0"))])
  sha256 _ := js "0"
  edVerify _ _ _ := .ok true

def thermoEntry : RegistryModuleEntry :=
  { name := js "test/thermo", version := js "0.1.0", description := [], manifestHash := js "0", contentHash := js "0"
    status := js "REVIEWED", targets := [], url := js "modules/test__thermo@0.1.0", publishedAt := [] }

def thermo : Directory := [(⟨moduleManifestFilename, wellFormed_of_forall_lt (by decide), by decide⟩, .file [])]

/-- The installed module is removed, and the rename fails. -/
def renameFails : InstallCourse := ⟨.ok thermo, .ok (), .ok (), false, .ok ()⟩

theorem not_installModule_atomic :
    ¬ Atomic flatPlatform thermoEntry {} (js "temp") (fun _ => []) (some thermo) renameFails
      (installModule flatPlatform thermoEntry {} (js "temp") (fun _ => []) true (some thermo) renameFails).1 := by
  have prepared : prepare flatPlatform thermoEntry {} (js "temp") (fun _ => []) renameFails = .ok thermo := by
    have verified : isVerified flatPlatform thermoEntry {} (js "temp") thermo = true := by decide +kernel
    simp only [prepare, renameFails, verified]
    rfl
  have gone : (installModule flatPlatform thermoEntry {} (js "temp") (fun _ => []) true (some thermo)
      renameFails).1.target = none := by
    simp only [installModule, prepared]
    rfl
  rintro ⟨-, same | ⟨new, -, same⟩⟩
  · exact absurd (gone.symm.trans same) nofun
  · exact absurd (gone.symm.trans same) nofun

end Pinout.Registry
