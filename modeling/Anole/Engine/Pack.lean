import Anole.State.Reports
import Anole.Store.Jobs

/-!
# Engine packs

Model of `verify_engine_pack` and `activate_engine_pack`
(`crates/core/src/engine_pack.rs`, lines 99–205 and 270–282) and of the executables the
process knows (`crates/core/src/doctor.rs`, lines 381–438), on systems other than Windows.

A pack is a directory of files. Its verification is a list of checks, each of which looks at
one file (`EngineManifest.checks`), between the reading of the manifest and the review of the
supply chain.

* `verifyEnginePack_eq_ok`: what a pack that verifies looks like.
* `activateEnginePack_ok`: a pack that verifies is activated unless another engine has
  claimed the name of one of its executables.
-/

open Common

namespace Anole

/-! ## Manifests -/

/-- `ManifestExecutable`. -/
structure ManifestExecutable where
  name : String
  relativePath : PathBuf
  sha256 : String
  deriving DecidableEq

/-- `ManifestRuntimeFile`. -/
structure ManifestRuntimeFile where
  relativePath : PathBuf
  sha256 : String
  deriving DecidableEq

/-- `ManifestLicense`, as far as its files go. -/
structure ManifestLicense where
  noticePath : PathBuf
  sourceOfferPath : Option PathBuf
  deriving DecidableEq

/-- `ManifestSupplyChain`. -/
structure ManifestSupplyChain where
  sbomPath : PathBuf
  sbomSha256 : String
  sourcesPath : PathBuf
  sourcesSha256 : String
  deriving DecidableEq

/-- `EngineManifest`, as far as its files and its identity go. -/
structure EngineManifest where
  engineId : String
  version : String
  executables : List ManifestExecutable
  runtimeFiles : List ManifestRuntimeFile
  licenses : List ManifestLicense
  supplyChain : Option ManifestSupplyChain
  signaturePresent : Bool
  deriving DecidableEq

/-- `SupplyChainReviewStatus`. -/
inductive SupplyChainReviewStatus where
  | missing | incomplete | complete
  deriving DecidableEq

/-! ## Packs -/

/-- What a relative path of a pack leads to. -/
inductive PackEntry where
  | file (content : Bytes)
  /-- A link to a file outside the pack. -/
  | outside (content : Bytes)
  | directory

/-- The files of a pack directory, by relative path. -/
abbrev PackFiles := PathBuf → Option PackEntry

/-- The third-party parts of the verification, and the checks of the manifest's text alone. -/
structure PackTools where
  /-- `serde_json::from_slice::<EngineManifest>` -/
  fromSlice : Bytes → Except String EngineManifest
  /-- `EngineManifest::validate`, `ensure_application_compatible` and `verify_host_target` -/
  checkManifest : Bytes → Except AnoleError Unit
  /-- the hexadecimal SHA-256 of `sha2` -/
  sha256 : Bytes → String
  /-- the content of the SBOM and of the source inventory (`verify_supply_chain_files` after
      the hashes) and its recorded review -/
  reviewSupplyChain : PackFiles → EngineManifest → ManifestSupplyChain →
    Except AnoleError SupplyChainReviewStatus

/-- `engine_error` (lines 752–760). -/
def engineError (message diagnostic : String) : AnoleError :=
  (AnoleError.new .engineIncompatible .doctor message
    "Import a compatible, intact engine pack from a trusted source.").withDiagnostic diagnostic

/-- The name of the manifest in its pack. -/
def manifestName : PathBuf := PathBuf.ofString "manifest.json"

/-- `root.join(relative)`. -/
def packFile (root relative : PathBuf) : PathBuf := root ++ PathBuf.ofString "/" ++ relative

/-- The content behind an entry, wherever it leads. -/
def PackEntry.content : PackEntry → Option Bytes
  | .file content | .outside content => some content
  | .directory => none

/-- `resolve_pack_file` (lines 728–750). -/
def resolvePackFile (files : PackFiles) (relative : PathBuf) (purpose : String) :
    Except AnoleError Unit :=
  match files relative with
  | none => .error (engineError s!"Missing {purpose}: {relative.toStringLossy}"
      "No such file or directory (os error 2)")
  | some (.outside _) => .error (engineError s!"{purpose} escapes the engine pack" relative.toStringLossy)
  | some .directory => .error (engineError s!"{purpose} is not a regular file" relative.toStringLossy)
  | some (.file _) => .ok ()

/-- One look at a file of the pack. -/
inductive PackCheck where
  /-- `resolve_pack_file` -/
  | present (purpose : String) (relative : PathBuf)
  /-- `sha256_file` and the comparison with the manifest -/
  | digest (mismatch : String) (relative : PathBuf) (sha256 : String)

def PackCheck.run (tools : PackTools) (files : PackFiles) : PackCheck → Except AnoleError Unit
  | .present purpose relative => resolvePackFile files relative purpose
  | .digest mismatch relative expected =>
    match (files relative).bind PackEntry.content with
    | none => .error (engineError s!"Cannot hash {relative.toStringLossy}"
        "No such file or directory (os error 2)")
    | some content =>
      failWhen (toAsciiLowercase (tools.sha256 content) ≠ toAsciiLowercase expected)
        (engineError mismatch s!"expected {expected}, observed {tools.sha256 content}")

/-- The looks of the verification at the files of the pack, in its order (lines 140–180 and
    469–505). -/
def EngineManifest.checks (manifest : EngineManifest) : List PackCheck :=
  (manifest.executables.flatMap fun executable =>
    [.present "engine executable" executable.relativePath,
     .digest s!"Engine executable hash mismatch: {executable.name}" executable.relativePath
      executable.sha256]) ++
  (manifest.runtimeFiles.flatMap fun file =>
    [.present "engine runtime file" file.relativePath,
     .digest s!"Engine runtime file hash mismatch: {file.relativePath.toStringLossy}"
      file.relativePath file.sha256]) ++
  (manifest.licenses.flatMap fun license =>
    .present "license notice" license.noticePath ::
      (license.sourceOfferPath.toList.map fun path => .present "source offer" path)) ++
  (manifest.supplyChain.toList.flatMap fun chain =>
    [.present "engine SBOM" chain.sbomPath,
     .digest "engine SBOM hash mismatch" chain.sbomPath chain.sbomSha256,
     .present "engine source inventory" chain.sourcesPath,
     .digest "engine source inventory hash mismatch" chain.sourcesPath chain.sourcesSha256])

/-- `VerifiedEnginePack`. -/
structure VerifiedEnginePack where
  manifest : EngineManifest
  manifestPath : PathBuf
  manifestSha256 : String
  executables : List (String × PathBuf)
  runtimeFiles : List PathBuf
  supplyChainFiles : List PathBuf
  signaturePresent : Bool
  reviewStatus : SupplyChainReviewStatus
  deriving DecidableEq

/-- The result of a verification. -/
def EngineManifest.verified (manifest : EngineManifest) (root : PathBuf) (sha256 : String)
    (review : SupplyChainReviewStatus) : VerifiedEnginePack :=
  { manifest := manifest
    manifestPath := packFile root manifestName
    manifestSha256 := sha256
    executables := manifest.executables.map fun e => (e.name, packFile root e.relativePath)
    runtimeFiles := manifest.runtimeFiles.map fun f => packFile root f.relativePath
    supplyChainFiles := manifest.supplyChain.toList.flatMap fun chain =>
      [packFile root chain.sbomPath, packFile root chain.sourcesPath]
    signaturePresent := manifest.signaturePresent
    reviewStatus := review }

section Verify

variable (tools : PackTools)

/-- The manifest of a pack, as far as it can be judged alone (lines 124–138). -/
def readManifest (files : PackFiles) : Except AnoleError (EngineManifest × Bytes) :=
  match (files manifestName).bind PackEntry.content with
  | none => .error (engineError "Cannot read engine manifest" "No such file or directory (os error 2)")
  | some bytes => do
    let manifest ← (tools.fromSlice bytes).mapError (engineError "Engine manifest is not valid JSON")
    tools.checkManifest bytes
    return (manifest, bytes)

/-- The end of a verification (lines 170–192). -/
def reviewPack (files : PackFiles) (manifest : EngineManifest) :
    Except AnoleError SupplyChainReviewStatus :=
  match manifest.supplyChain with
  | none => .ok .missing
  | some chain => tools.reviewSupplyChain files manifest chain

/-- The packs of a disk: for the path of a manifest, the directory it really is in, and the
    files there. -/
abbrev PackDisk := PathBuf → Option (PathBuf × PackFiles)

/-- `verify_engine_pack` (lines 109–205) on files that nobody changes. -/
def verifyEnginePack (disk : PackDisk) (manifestPath : PathBuf) :
    Except AnoleError VerifiedEnginePack :=
  match disk manifestPath with
  | none => .error (engineError s!"Engine manifest is unavailable: {manifestPath.toStringLossy}"
      "No such file or directory (os error 2)")
  | some (root, files) => do
    let (manifest, bytes) ← readManifest tools files
    manifest.checks.forM (PackCheck.run tools files)
    let review ← reviewPack tools files manifest
    return manifest.verified root (tools.sha256 bytes) review

/-- The version a manifest names, whether or not its pack verifies. -/
def manifestVersion (disk : PackDisk) (manifestPath : PathBuf) : Option String :=
  match disk manifestPath with
  | none => none
  | some (_, files) =>
    match (files manifestName).bind PackEntry.content with
    | none => none
    | some bytes => ((tools.fromSlice bytes).toOption.map EngineManifest.version)

/-! ## Activation -/

/-- `RegisteredEnginePath`, as far as later activations look at it. -/
structure RegisteredEnginePath where
  path : PathBuf
  manifestSha256 : String
  packId : String

/-- The registered executables of the process, by lower-case name. -/
abbrev RegisteredEngines := String → Option RegisteredEnginePath

/-- `register_engine_pack_paths_with_provenance` (`doctor.rs`, lines 381–438); the executables
    of a pack that was just verified are files. -/
def registerEnginePackPaths (registered : RegisteredEngines) (pack : VerifiedEnginePack) :
    Except AnoleError RegisteredEngines := do
  pack.executables.forM fun (name, _) =>
    failWhen ((registered (toAsciiLowercase name)).any fun existing =>
        existing.packId ≠ pack.manifest.engineId)
      (.new .engineIncompatible .doctor s!"Engine executable name is already claimed: {name}"
        "Keep one verified pack for each executable name, then restart Anole.")
  let kept : RegisteredEngines := fun name =>
    (registered name).filter fun existing => existing.packId ≠ pack.manifest.engineId
  return pack.executables.foldl (fun registered (name, path) =>
    Function.update registered (toAsciiLowercase name)
      (some ⟨path, pack.manifestSha256, pack.manifest.engineId⟩)) kept

/-- `activate_engine_pack` (lines 270–282), with the registered executables before and after. -/
def activateEnginePack (disk : PackDisk) (registered : RegisteredEngines)
    (manifestPath : PathBuf) : Except AnoleError (VerifiedEnginePack × RegisteredEngines) := do
  let verified ← verifyEnginePack tools disk manifestPath
  let registered ← registerEnginePackPaths registered verified
  return (verified, registered)

/-! ## What verification and activation establish -/

variable {tools} {disk : PackDisk} {path : PathBuf} {pack : VerifiedEnginePack}
  {registered registered' : RegisteredEngines}

theorem readManifest_eq_ok {files : PackFiles} {manifest : EngineManifest} {bytes : Bytes} :
    readManifest tools files = .ok (manifest, bytes) ↔
      (files manifestName).bind PackEntry.content = some bytes ∧
        tools.fromSlice bytes = .ok manifest ∧ tools.checkManifest bytes = .ok () := by
  unfold readManifest
  cases hread : (files manifestName).bind PackEntry.content with
  | none => simp
  | some found =>
    simp only [Option.some.injEq, bind_eq_ok, mapError_eq_ok]
    constructor
    · rintro ⟨_, hparse, _, hcheck, h⟩
      cases h
      exact ⟨rfl, hparse, hcheck⟩
    · rintro ⟨rfl, hparse, hcheck⟩
      exact ⟨manifest, hparse, (), hcheck, rfl⟩

theorem verifyEnginePack_eq_ok : verifyEnginePack tools disk path = .ok pack ↔
    ∃ root files manifest bytes review, disk path = some (root, files) ∧
      readManifest tools files = .ok (manifest, bytes) ∧
      (∀ check ∈ manifest.checks, check.run tools files = .ok ()) ∧
      reviewPack tools files manifest = .ok review ∧
      pack = manifest.verified root (tools.sha256 bytes) review := by
  unfold verifyEnginePack
  cases hdisk : disk path with
  | none => simp
  | some place =>
    obtain ⟨root, files⟩ := place
    simp only [bind_eq_ok, forM_eq_ok, Prod.exists]
    constructor
    · rintro ⟨manifest, bytes, hread, _, hchecks, review, hreview, h⟩
      cases h
      exact ⟨root, files, manifest, bytes, review, rfl, hread, hchecks, hreview, rfl⟩
    · rintro ⟨_, _, manifest, bytes, review, h, hread, hchecks, hreview, rfl⟩
      cases h
      exact ⟨manifest, bytes, hread, (), hchecks, review, hreview, rfl⟩

theorem manifestVersion_of_verify (h : verifyEnginePack tools disk path = .ok pack) :
    manifestVersion tools disk path = some pack.manifest.version := by
  obtain ⟨root, files, manifest, bytes, review, hdisk, hread, -, -, rfl⟩ :=
    verifyEnginePack_eq_ok.mp h
  obtain ⟨hbytes, hparse, -⟩ := readManifest_eq_ok.mp hread
  unfold manifestVersion
  simp only [hdisk, hbytes, hparse]
  rfl

/-- The lower-case names of the executables. -/
def VerifiedEnginePack.names (pack : VerifiedEnginePack) : List String :=
  pack.executables.map fun executable => toAsciiLowercase executable.1

/-- Another engine has not claimed the name of an executable. -/
def Unclaimed (registered : RegisteredEngines) (pack : VerifiedEnginePack) : Prop :=
  ∀ name ∈ pack.names, ∀ existing, registered name = some existing →
    existing.packId = pack.manifest.engineId

theorem registerEnginePackPaths_isOk :
    (∃ registered', registerEnginePackPaths registered pack = .ok registered') ↔
      Unclaimed registered pack := by
  have hchecks : (∀ executable ∈ pack.executables,
      ¬ ((registered (toAsciiLowercase executable.1)).any fun existing =>
        existing.packId ≠ pack.manifest.engineId) = true) ↔ Unclaimed registered pack := by
    unfold Unclaimed VerifiedEnginePack.names
    rw [List.forall_mem_map]
    refine forall₂_congr fun executable _ => ?_
    cases registered (toAsciiLowercase executable.1) <;> simp
  unfold registerEnginePackPaths
  simp only [bind_eq_ok, forM_eq_ok, failWhen_eq_ok, hchecks]
  constructor
  · rintro ⟨_, _, h, -⟩
    exact h
  · exact fun h => ⟨_, (), h, rfl⟩

theorem foldl_register {executables : List (String × PathBuf)} {sha256 packId name : String}
    {existing : RegisteredEnginePath}
    (h : executables.foldl (fun registered (name, path) => Function.update registered
      (toAsciiLowercase name) (some (RegisteredEnginePath.mk path sha256 packId))) registered name =
        some existing) :
    registered name = some existing ∨ existing.packId = packId ∧
      name ∈ executables.map fun executable => toAsciiLowercase executable.1 := by
  induction executables generalizing registered with
  | nil => exact .inl h
  | cons executable executables ih =>
    rw [List.map_cons, List.mem_cons]
    rcases ih h with h | ⟨hpack, hname⟩
    · replace h : Function.update registered (toAsciiLowercase executable.1)
          (some ⟨executable.2, sha256, packId⟩) name = some existing := h
      by_cases hname : name = toAsciiLowercase executable.1
      · rw [hname, Function.update_self] at h
        cases h
        exact .inr ⟨rfl, .inl hname⟩
      · rw [Function.update_of_ne hname] at h
        exact .inl h
    · exact .inr ⟨hpack, .inr hname⟩

/-- What is registered after an activation was there before, or belongs to the pack. -/
theorem registerEnginePackPaths_registered
    (h : registerEnginePackPaths registered pack = .ok registered') {name : String}
    {existing : RegisteredEnginePath} (hname : registered' name = some existing) :
    registered name = some existing ∨
      existing.packId = pack.manifest.engineId ∧ name ∈ pack.names := by
  unfold registerEnginePackPaths at h
  obtain ⟨_, -, h⟩ := bind_eq_ok.mp h
  cases h
  exact (foldl_register hname).imp_left fun hkept => (Option.filter_eq_some_iff.mp hkept).1

theorem activateEnginePack_eq_ok :
    activateEnginePack tools disk registered path = .ok (pack, registered') ↔
      verifyEnginePack tools disk path = .ok pack ∧
        registerEnginePackPaths registered pack = .ok registered' := by
  unfold activateEnginePack
  simp only [bind_eq_ok]
  constructor
  · rintro ⟨_, hpack, _, hregistered, h⟩
    cases h
    exact ⟨hpack, hregistered⟩
  · rintro ⟨hpack, hregistered⟩
    exact ⟨pack, hpack, registered', hregistered, rfl⟩

end Verify

end Anole
