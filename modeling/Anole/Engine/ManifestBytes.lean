import Anole.Common.CompactJson
import Anole.Planning.PlanHash
import Anole.State.LiveComponents

/-!
# The signed bytes of an engine manifest

Model of `EngineManifest`, its `validate` and `canonical_manifest_bytes` (`crates/engine-sdk/src/lib.rs`, lines
84–222, 403–416 and 534–788), on systems other than Windows. The printer of floating-point numbers is a parameter.

A path that is not Unicode has no JSON: `serde_json::to_vec` refuses the manifest, and `canonical_manifest_bytes`
panics (`canonicalManifestBytes_isSome_iff`).

* `canonicalManifestBytes_inj`: the bytes determine every field but the signature.
-/

open Common
open Anole.ApplicationState (validEngineId)
open Anole.Planning (LossClass operationJson toStr?)

namespace Anole.Sdk

/-! ## Manifests -/

/-- `Capability`; the constraints are in the order of their keys. -/
structure Capability (φ : Type) where
  capabilityId : String
  inputs : List String
  outputs : List String
  operation : Operation
  lossClass : LossClass
  constraints : List (String × JsonValue φ)

/-- `EnginePlatform`. -/
inductive EnginePlatform where
  | windows | macos | linux

def EnginePlatform.json : EnginePlatform → String
  | windows => "windows"
  | macos => "macos"
  | linux => "linux"

/-- `EngineArchitecture`. -/
inductive EngineArchitecture where
  | x8664 | aarch64

def EngineArchitecture.json : EngineArchitecture → String
  | x8664 => "x86_64"
  | aarch64 => "aarch64"

/-- `AnoleCompatibility`. -/
structure AnoleCompatibility where
  minimum : String
  maximumExclusive : String

/-- `ManifestExecutable`. -/
structure ManifestExecutable where
  name : String
  relativePath : PathBuf
  sha256 : String

/-- `ManifestRuntimeFile`. -/
structure ManifestRuntimeFile where
  relativePath : PathBuf
  sha256 : String

/-- `ManifestSource`. -/
structure ManifestSource where
  projectUrl : String
  sourceUrl : String
  sourceRevision : String
  buildConfiguration : String

/-- `ManifestLicense`. -/
structure ManifestLicense where
  spdx : String
  noticePath : PathBuf
  sourceOfferPath : Option PathBuf

/-- `ManifestSupplyChain`. -/
structure ManifestSupplyChain where
  sbomPath : PathBuf
  sbomSha256 : String
  sourcesPath : PathBuf
  sourcesSha256 : String

/-- `ManifestSignature`. -/
structure ManifestSignature where
  algorithm : String
  keyId : String
  value : String

/-- `EngineManifest`. -/
structure EngineManifest (φ : Type) where
  schemaVersion : ℕ
  engineId : String
  version : String
  platform : EnginePlatform
  architecture : EngineArchitecture
  protocolVersion : ℕ
  anoleCompatibility : AnoleCompatibility
  executables : List ManifestExecutable
  runtimeFiles : List ManifestRuntimeFile
  source : ManifestSource
  licenses : List ManifestLicense
  supplyChain : Option ManifestSupplyChain
  capabilities : List (Capability φ)
  signature : Option ManifestSignature

/-! ## Checks of a manifest -/

/-- `ManifestValidationError`. -/
structure ManifestValidationError where
  message : String
  deriving DecidableEq

/-- A condition that refuses a manifest. -/
def manifestCheck (refused : Prop) [Decidable refused] (message : String) : Except ManifestValidationError Unit :=
  failWhen refused ⟨message⟩

/-- `std::path::Component`, without the prefixes of Windows. -/
inductive Component where
  | rootDir | curDir | parentDir
  | normal (name : PathBuf)
  deriving DecidableEq

/-- A part of a path between its separators; empty parts and inner dots are none. -/
def component? (part : PathBuf) : Option Component :=
  if part = [] ∨ part = PathBuf.ofString "." then none
  else if part = PathBuf.ofString ".." then some .parentDir
  else some (.normal part)

/-- `Path::is_absolute`. -/
def isAbsolute (path : PathBuf) : Bool := path.head? = some (.char '/')

/-- `Path::components`. -/
def components (path : PathBuf) : List Component :=
  let parts := path.splitOn (.char '/')
  (if isAbsolute path then [.rootDir]
    else if parts.head? = some (PathBuf.ofString ".") then [.curDir] else []) ++ parts.filterMap component?

/-- `validate_relative_path` (lines 765–775). -/
def validateRelativePath (path : PathBuf) (purpose : String) : Except ManifestValidationError Unit :=
  manifestCheck (path = [] ∨ isAbsolute path = true ∨
      (components path).any (fun component => component ∈ [.rootDir, .curDir, .parentDir]) = true)
    s!"{purpose} path must be a safe relative path"

/-- `u8::is_ascii_hexdigit`. -/
def isHexDigit (c : Char) : Bool := c.isDigit || ('a' ≤ c && c ≤ 'f') || ('A' ≤ c && c ≤ 'F')

/-- `validate_sha256` (lines 777–784). -/
def validateSha256 (value purpose : String) : Except ManifestValidationError Unit :=
  manifestCheck (value.utf8ByteSize ≠ 64 ∨ value.toList.all isHexDigit = false)
    s!"{purpose} SHA-256 must contain 64 hexadecimal digits"

/-- `is_https_url` (lines 786–788). -/
def isHttpsUrl (value : String) : Bool :=
  "https://".toList.isPrefixOf value.toList && "https://".utf8ByteSize < value.utf8ByteSize

/-- `valid_store_segment` (lines 756–763). -/
def validStoreSegment (value : String) : Bool :=
  value ≠ "" && value ≠ "." && value ≠ ".." &&
    value.toList.all fun c => c.isAlphanum || c = '.' || c = '_' || c = '+' || c = '-'

/-- `is_lower_hex` (lines 507–512). -/
def isLowerHex (value : String) (expectedBytes : ℕ) : Bool :=
  value.utf8ByteSize = expectedBytes * 2 && value.toList.all fun c => c.isDigit || ('a' ≤ c && c ≤ 'f')

/-- The paths of a pack that have been seen, as a set of paths compares them. -/
abbrev PackPaths := List (List Component)

/-- A path that must not have been seen. -/
def insertPath (packPaths : PackPaths) (path : PathBuf) : Except ManifestValidationError PackPaths := do
  manifestCheck (components path ∈ packPaths) s!"duplicate pack path {path.toStringLossy}"
  pure (components path :: packPaths)

/-- The loop body over the executables (lines 627–642). -/
def validateExecutable (seen : List String × PackPaths) (executable : ManifestExecutable) :
    Except ManifestValidationError (List String × PackPaths) := do
  manifestCheck (trim executable.name = "") "executable name is empty"
  manifestCheck (executable.name ∈ seen.1) s!"duplicate executable name {executable.name}"
  validateRelativePath executable.relativePath "executable"
  validateSha256 executable.sha256 "executable"
  let packPaths ← insertPath seen.2 executable.relativePath
  pure (executable.name :: seen.1, packPaths)

/-- The loop body over the runtime files (lines 643–652). -/
def validateRuntimeFile (packPaths : PackPaths) (file : ManifestRuntimeFile) :
    Except ManifestValidationError PackPaths := do
  validateRelativePath file.relativePath "runtime file"
  validateSha256 file.sha256 "runtime file"
  insertPath packPaths file.relativePath

/-- A path that has no hash in the manifest. -/
def validatePath (purpose : String) (packPaths : PackPaths) (path : PathBuf) :
    Except ManifestValidationError PackPaths := do
  validateRelativePath path purpose
  insertPath packPaths path

/-- The loop body over the licenses (lines 653–666). -/
def validateLicense (packPaths : PackPaths) (license : ManifestLicense) :
    Except ManifestValidationError PackPaths := do
  let packPaths ← validatePath "license notice" packPaths license.noticePath
  license.sourceOfferPath.toList.foldlM (validatePath "source offer") packPaths

/-- A file of the supply chain (lines 668–686). -/
def validateSupplyFile (packPaths : PackPaths) (purpose : String) (path : PathBuf) (sha256 : String) :
    Except ManifestValidationError PackPaths := do
  validateRelativePath path purpose
  validateSha256 sha256 purpose
  insertPath packPaths path

/-- The supply chain (lines 667–692). -/
def validateSupplyChain (packPaths : PackPaths) (chain : ManifestSupplyChain) :
    Except ManifestValidationError PackPaths := do
  let packPaths ← validateSupplyFile packPaths "engine SBOM" chain.sbomPath chain.sbomSha256
  let packPaths ← validateSupplyFile packPaths "engine source inventory" chain.sourcesPath chain.sourcesSha256
  manifestCheck (components chain.sbomPath = components chain.sourcesPath)
    "engine SBOM and source inventory must be separate files"
  pure packPaths

section Manifest

variable {φ : Type}

/-- `validate_pack_files` (lines 624–693). -/
def EngineManifest.validatePackFiles (manifest : EngineManifest φ) : Except ManifestValidationError Unit := do
  let seen ← manifest.executables.foldlM validateExecutable ([], [])
  let packPaths ← manifest.runtimeFiles.foldlM validateRuntimeFile seen.2
  let packPaths ← manifest.licenses.foldlM validateLicense packPaths
  let _ ← manifest.supplyChain.toList.foldlM validateSupplyChain packPaths

/-- `validate_provenance_and_licenses` (lines 695–715). -/
def EngineManifest.validateProvenanceAndLicenses (manifest : EngineManifest φ) :
    Except ManifestValidationError Unit := do
  manifestCheck (isHttpsUrl manifest.source.projectUrl = false ∨ isHttpsUrl manifest.source.sourceUrl = false)
    "source URLs must use HTTPS"
  manifestCheck (trim manifest.source.sourceRevision = "" ∨ trim manifest.source.buildConfiguration = "")
    "source revision and build configuration are required"
  manifestCheck (manifest.licenses = []) "at least one license is required"
  manifestCheck (∃ license ∈ manifest.licenses, trim license.spdx = "") "license SPDX expression is empty"

/-- The loop body of `validate_capabilities` (lines 719–740). -/
def validateCapability (capabilityIds : List String) (capability : Capability φ) :
    Except ManifestValidationError (List String) := do
  manifestCheck (trim capability.capabilityId = "" ∨ capability.inputs = [] ∨ capability.outputs = [])
    "capability requires an ID, inputs, and outputs"
  manifestCheck (capability.capabilityId ∈ capabilityIds) s!"duplicate capability ID {capability.capabilityId}"
  manifestCheck (∃ format ∈ capability.inputs ++ capability.outputs, trim format = "")
    "capability contains an empty format ID"
  pure (capability.capabilityId :: capabilityIds)

/-- The signature (lines 604–620). -/
def validateSignature (signature : ManifestSignature) : Except ManifestValidationError Unit := do
  manifestCheck (signature.algorithm ≠ "ed25519") "signature algorithm must be ed25519"
  manifestCheck (trim signature.keyId = "" ∨ validEngineId (trim signature.keyId) = false)
    "signature key_id must match [a-z0-9][a-z0-9._-]+"
  manifestCheck (isLowerHex signature.value 64 = false) "signature value must be 128 lowercase hex characters"

/-- `EngineManifest::validate` (lines 571–622). -/
def EngineManifest.validate (manifest : EngineManifest φ) (supportedProtocol : ℕ) :
    Except ManifestValidationError Unit := do
  manifestCheck (manifest.schemaVersion ≠ 1) s!"unsupported schema version {manifest.schemaVersion}"
  manifestCheck (manifest.protocolVersion ≠ supportedProtocol)
    s!"protocol {manifest.protocolVersion} does not match supported protocol {supportedProtocol}"
  manifestCheck (validEngineId manifest.engineId = false) "engine_id must match [a-z0-9][a-z0-9._-]+"
  manifestCheck (validStoreSegment manifest.version = false)
    ("version must be a safe portable path segment containing only letters, digits, '.', '_', '+', or '-'")
  manifestCheck (trim manifest.anoleCompatibility.minimum = "" ∨ trim manifest.anoleCompatibility.maximumExclusive = "")
    "Anole compatibility bounds are empty"
  manifestCheck (manifest.executables = []) "at least one executable is required"
  manifest.validatePackFiles
  manifest.validateProvenanceAndLicenses
  let _ ← manifest.capabilities.foldlM validateCapability []
  manifest.signature.toList.forM validateSignature

end Manifest

/-! ## The canonical bytes -/

section Json

variable {φ : Type}

/-- A path, which is refused if it is not Unicode. -/
def pathValue (path : PathBuf) : Option (JsonValue φ) := (toStr? path).map .string

def textValue (text : String) : Option (JsonValue φ) := some (.string text)

def naturalValue (n : ℕ) : Option (JsonValue φ) := some (.integer n)

def textsValue (texts : List String) : Option (JsonValue φ) := some (.array (texts.map .string))

/-- An optional value, which is null if it is missing. -/
def optionalValue {α : Type} (write : α → Option (JsonValue φ)) : Option α → Option (JsonValue φ)
  | none => some .null
  | some a => write a

def Capability.toValue (capability : Capability φ) : Option (JsonValue φ) :=
  JsonValue.objectOf [
    ("capability_id", textValue capability.capabilityId),
    ("inputs", textsValue capability.inputs),
    ("outputs", textsValue capability.outputs),
    ("operation", textValue (operationJson capability.operation)),
    ("loss_class", textValue capability.lossClass.json),
    ("constraints", some (.object capability.constraints))]

def AnoleCompatibility.toValue (compatibility : AnoleCompatibility) : Option (JsonValue φ) :=
  JsonValue.objectOf [
    ("minimum", textValue compatibility.minimum),
    ("maximum_exclusive", textValue compatibility.maximumExclusive)]

def ManifestExecutable.toValue (executable : ManifestExecutable) : Option (JsonValue φ) :=
  JsonValue.objectOf [
    ("name", textValue executable.name),
    ("relative_path", pathValue executable.relativePath),
    ("sha256", textValue executable.sha256)]

def ManifestRuntimeFile.toValue (file : ManifestRuntimeFile) : Option (JsonValue φ) :=
  JsonValue.objectOf [
    ("relative_path", pathValue file.relativePath),
    ("sha256", textValue file.sha256)]

def ManifestSource.toValue (source : ManifestSource) : Option (JsonValue φ) :=
  JsonValue.objectOf [
    ("project_url", textValue source.projectUrl),
    ("source_url", textValue source.sourceUrl),
    ("source_revision", textValue source.sourceRevision),
    ("build_configuration", textValue source.buildConfiguration)]

def ManifestLicense.toValue (license : ManifestLicense) : Option (JsonValue φ) :=
  JsonValue.objectOf [
    ("spdx", textValue license.spdx),
    ("notice_path", pathValue license.noticePath),
    ("source_offer_path", optionalValue pathValue license.sourceOfferPath)]

def ManifestSupplyChain.toValue (chain : ManifestSupplyChain) : Option (JsonValue φ) :=
  JsonValue.objectOf [
    ("sbom_path", pathValue chain.sbomPath),
    ("sbom_sha256", textValue chain.sbomSha256),
    ("sources_path", pathValue chain.sourcesPath),
    ("sources_sha256", textValue chain.sourcesSha256)]

def ManifestSignature.toValue (signature : ManifestSignature) : Option (JsonValue φ) :=
  JsonValue.objectOf [
    ("algorithm", textValue signature.algorithm),
    ("key_id", textValue signature.keyId),
    ("value", textValue signature.value)]

def EngineManifest.toValue (manifest : EngineManifest φ) : Option (JsonValue φ) :=
  JsonValue.objectOf [
    ("schema_version", naturalValue manifest.schemaVersion),
    ("engine_id", textValue manifest.engineId),
    ("version", textValue manifest.version),
    ("platform", textValue manifest.platform.json),
    ("architecture", textValue manifest.architecture.json),
    ("protocol_version", naturalValue manifest.protocolVersion),
    ("anole_compatibility", manifest.anoleCompatibility.toValue),
    ("executables", JsonValue.arrayOf ManifestExecutable.toValue manifest.executables),
    ("runtime_files", JsonValue.arrayOf ManifestRuntimeFile.toValue manifest.runtimeFiles),
    ("source", manifest.source.toValue),
    ("licenses", JsonValue.arrayOf ManifestLicense.toValue manifest.licenses),
    ("supply_chain", optionalValue ManifestSupplyChain.toValue manifest.supplyChain),
    ("capabilities", JsonValue.arrayOf Capability.toValue manifest.capabilities),
    ("signature", optionalValue ManifestSignature.toValue manifest.signature)]

/-- A manifest without its signature. -/
def EngineManifest.unsigned (manifest : EngineManifest φ) : EngineManifest φ := { manifest with signature := none }

/-- `canonical_manifest_bytes` (lines 412–416), which panics where `serde_json` refuses the manifest. -/
def canonicalManifestBytes (decimals : DecimalText φ) (manifest : EngineManifest φ) : Option ByteArray :=
  manifest.unsigned.toValue.map fun value => (String.ofList (value.text decimals)).toUTF8

end Json

/-! ## What the bytes determine -/

section Determined

variable {φ : Type} {manifest : EngineManifest φ}

theorem toStr?_ne_none_iff {path : PathBuf} : toStr? path ≠ none ↔ path.IsUnicode := by
  constructor
  · intro h
    obtain ⟨text, htext⟩ := Option.ne_none_iff_exists'.mp h
    exact ⟨text, Planning.eq_ofString_of_toStr? htext⟩
  · rintro ⟨text, rfl⟩
    rw [Planning.toStr?_ofString]
    exact Option.some_ne_none text

theorem pathValue_ne_none_iff {path : PathBuf} : (pathValue path : Option (JsonValue φ)) ≠ none ↔ path.IsUnicode := by
  rw [pathValue, ne_eq, Option.map_eq_none_iff]
  exact toStr?_ne_none_iff

open JsonValue (Determines determines_objectOf objectOf_ne_none_iff arrayOf_ne_none_iff)

theorem determines_pathValue : Determines (pathValue (φ := φ)) := by
  intro path other h hne
  obtain ⟨text, rfl⟩ := pathValue_ne_none_iff.mp hne
  obtain ⟨text', rfl⟩ := pathValue_ne_none_iff.mp (h ▸ hne)
  rw [pathValue, pathValue, Planning.toStr?_ofString, Planning.toStr?_ofString, Option.map_some, Option.map_some,
    Option.some.injEq, JsonValue.string.injEq] at h
  rw [h]

theorem textValue_inj {a b : String} : (textValue a : Option (JsonValue φ)) = textValue b ↔ a = b := by
  rw [textValue, textValue, Option.some.injEq, JsonValue.string.injEq]

theorem naturalValue_inj {m n : ℕ} : (naturalValue m : Option (JsonValue φ)) = naturalValue n ↔ m = n := by
  rw [naturalValue, naturalValue, Option.some.injEq, JsonValue.integer.injEq, Int.natCast_inj]

theorem textsValue_inj {a b : List String} : (textsValue a : Option (JsonValue φ)) = textsValue b ↔ a = b := by
  have hinjective : Function.Injective (JsonValue.string (φ := φ)) := fun _ _ h => JsonValue.string.inj h
  rw [textsValue, textsValue, Option.some.injEq, JsonValue.array.injEq, (List.map_injective_iff.mpr hinjective).eq_iff]

theorem determines_optionalValue {α : Type} {write : α → Option (JsonValue φ)} (h : Determines write)
    (hnull : ∀ a, write a ≠ some .null) : Determines (optionalValue write) := by
  rintro (_ | a) (_ | b) heq hne
  · rfl
  · exact absurd heq.symm (hnull b)
  · exact absurd heq (hnull a)
  · rw [h a b heq hne]

theorem pathValue_ne_null (path : PathBuf) : (pathValue path : Option (JsonValue φ)) ≠ some .null := by
  rw [pathValue]
  cases toStr? path <;> simp

theorem objectOf_ne_null (fields : List (String × Option (JsonValue φ))) :
    JsonValue.objectOf fields ≠ some .null := by
  rw [JsonValue.objectOf]
  cases fields.mapM JsonValue.writeField <;> simp

theorem platformJson_injective : Function.Injective EnginePlatform.json := by
  intro a b h
  cases a <;> cases b <;> first | rfl | exact absurd h (by decide)

theorem architectureJson_injective : Function.Injective EngineArchitecture.json := by
  intro a b h
  cases a <;> cases b <;> first | rfl | exact absurd h (by decide)

theorem determines_capability : Determines (Capability.toValue (φ := φ)) := by
  intro a b h hne
  have hfields := determines_objectOf _ _ h hne
  simp only [List.cons.injEq, Prod.mk.injEq, true_and, and_true, textValue_inj, textsValue_inj,
    Planning.operationJson_injective.eq_iff, Planning.lossClassJson_injective.eq_iff, Option.some.injEq,
    JsonValue.object.injEq] at hfields
  cases a
  cases b
  simp only [Capability.mk.injEq]
  exact hfields

theorem determines_compatibility : Determines (AnoleCompatibility.toValue (φ := φ)) := by
  intro a b h hne
  have hfields := determines_objectOf _ _ h hne
  simp only [List.cons.injEq, Prod.mk.injEq, true_and, and_true, textValue_inj] at hfields
  cases a
  cases b
  simp only [AnoleCompatibility.mk.injEq]
  exact hfields

theorem determines_source : Determines (ManifestSource.toValue (φ := φ)) := by
  intro a b h hne
  have hfields := determines_objectOf _ _ h hne
  simp only [List.cons.injEq, Prod.mk.injEq, true_and, and_true, textValue_inj] at hfields
  cases a
  cases b
  simp only [ManifestSource.mk.injEq]
  exact hfields

theorem determines_executable : Determines (ManifestExecutable.toValue (φ := φ)) := by
  intro a b h hne
  have hfields := determines_objectOf _ _ h hne
  have hwritten := objectOf_ne_none_iff.mp hne
  simp only [List.forall_mem_cons] at hwritten
  simp only [List.cons.injEq, Prod.mk.injEq, true_and, and_true, textValue_inj] at hfields
  have hpath := determines_pathValue _ _ hfields.2.1 hwritten.2.1
  cases a
  cases b
  simp only [ManifestExecutable.mk.injEq]
  exact ⟨hfields.1, hpath, hfields.2.2⟩

theorem determines_runtimeFile : Determines (ManifestRuntimeFile.toValue (φ := φ)) := by
  intro a b h hne
  have hfields := determines_objectOf _ _ h hne
  have hwritten := objectOf_ne_none_iff.mp hne
  simp only [List.forall_mem_cons] at hwritten
  simp only [List.cons.injEq, Prod.mk.injEq, true_and, and_true, textValue_inj] at hfields
  have hpath := determines_pathValue _ _ hfields.1 hwritten.1
  cases a
  cases b
  simp only [ManifestRuntimeFile.mk.injEq]
  exact ⟨hpath, hfields.2⟩

theorem determines_license : Determines (ManifestLicense.toValue (φ := φ)) := by
  intro a b h hne
  have hfields := determines_objectOf _ _ h hne
  have hwritten := objectOf_ne_none_iff.mp hne
  simp only [List.forall_mem_cons] at hwritten
  simp only [List.cons.injEq, Prod.mk.injEq, true_and, and_true, textValue_inj] at hfields
  have hnotice := determines_pathValue _ _ hfields.2.1 hwritten.2.1
  have hoffer := determines_optionalValue determines_pathValue pathValue_ne_null _ _ hfields.2.2 hwritten.2.2.1
  cases a
  cases b
  simp only [ManifestLicense.mk.injEq]
  exact ⟨hfields.1, hnotice, hoffer⟩

theorem determines_supplyChain : Determines (ManifestSupplyChain.toValue (φ := φ)) := by
  intro a b h hne
  have hfields := determines_objectOf _ _ h hne
  have hwritten := objectOf_ne_none_iff.mp hne
  simp only [List.forall_mem_cons] at hwritten
  simp only [List.cons.injEq, Prod.mk.injEq, true_and, and_true, textValue_inj] at hfields
  have hsbom := determines_pathValue _ _ hfields.1 hwritten.1
  have hsources := determines_pathValue _ _ hfields.2.2.1 hwritten.2.2.1
  cases a
  cases b
  simp only [ManifestSupplyChain.mk.injEq]
  exact ⟨hsbom, hfields.2.1, hsources, hfields.2.2.2⟩

theorem determines_signature : Determines (ManifestSignature.toValue (φ := φ)) := by
  intro a b h hne
  have hfields := determines_objectOf _ _ h hne
  simp only [List.cons.injEq, Prod.mk.injEq, true_and, and_true, textValue_inj] at hfields
  cases a
  cases b
  simp only [ManifestSignature.mk.injEq]
  exact hfields

theorem determines_manifest : Determines (EngineManifest.toValue (φ := φ)) := by
  intro a b h hne
  have hfields := determines_objectOf _ _ h hne
  have hwritten := objectOf_ne_none_iff.mp hne
  simp only [List.forall_mem_cons] at hwritten
  simp only [List.cons.injEq, Prod.mk.injEq, true_and, and_true, textValue_inj, naturalValue_inj,
    platformJson_injective.eq_iff, architectureJson_injective.eq_iff] at hfields
  obtain ⟨hschema, hengine, hversion, hplatform, harchitecture, hprotocol, hcompatibility, hexecutables, hruntime,
    hsource, hlicenses, hchain, hcapabilities, hsignature⟩ := hfields
  obtain ⟨-, -, -, -, -, -, wcompatibility, wexecutables, wruntime, wsource, wlicenses, wchain, wcapabilities,
    wsignature, -⟩ := hwritten
  have hcompatibility := determines_compatibility _ _ hcompatibility wcompatibility
  have hexecutables := determines_executable.arrayOf _ _ hexecutables wexecutables
  have hruntime := determines_runtimeFile.arrayOf _ _ hruntime wruntime
  have hsource := determines_source _ _ hsource wsource
  have hlicenses := determines_license.arrayOf _ _ hlicenses wlicenses
  have hchain := determines_optionalValue determines_supplyChain (fun _ => objectOf_ne_null _) _ _ hchain wchain
  have hcapabilities := determines_capability.arrayOf _ _ hcapabilities wcapabilities
  have hsignature := determines_optionalValue determines_signature (fun _ => objectOf_ne_null _) _ _ hsignature
    wsignature
  cases a
  cases b
  simp only [EngineManifest.mk.injEq]
  exact ⟨hschema, hengine, hversion, hplatform, harchitecture, hprotocol, hcompatibility, hexecutables, hruntime,
    hsource, hlicenses, hchain, hcapabilities, hsignature⟩

/-- The paths of a manifest. -/
def EngineManifest.paths (manifest : EngineManifest φ) : List PathBuf :=
  manifest.executables.map ManifestExecutable.relativePath ++
    manifest.runtimeFiles.map ManifestRuntimeFile.relativePath ++
    (manifest.licenses.flatMap fun license => license.noticePath :: license.sourceOfferPath.toList) ++
    manifest.supplyChain.toList.flatMap fun chain => [chain.sbomPath, chain.sourcesPath]

theorem forall_mem_paths {p : PathBuf → Prop} : (∀ path ∈ manifest.paths, p path) ↔
    (∀ executable ∈ manifest.executables, p executable.relativePath) ∧
      (∀ file ∈ manifest.runtimeFiles, p file.relativePath) ∧
      (∀ license ∈ manifest.licenses, p license.noticePath ∧ ∀ path ∈ license.sourceOfferPath, p path) ∧
      ∀ chain ∈ manifest.supplyChain, p chain.sbomPath ∧ p chain.sourcesPath := by
  simp only [EngineManifest.paths, List.forall_mem_append, List.forall_mem_map, List.forall_mem_flatMap,
    List.forall_mem_cons, List.not_mem_nil, false_implies, implies_true, and_true, Option.mem_toList, Option.mem_def,
    and_assoc]

theorem optionalValue_ne_none_iff {α : Type} {write : α → Option (JsonValue φ)} {a : Option α} :
    optionalValue write a ≠ none ↔ ∀ x ∈ a, write x ≠ none := by
  cases a <;> simp [optionalValue]

theorem textValue_ne_none (text : String) : (textValue text : Option (JsonValue φ)) ≠ none := Option.some_ne_none _

/-- A manifest has JSON if its paths are Unicode. -/
theorem toValue_ne_none_iff :
    manifest.toValue ≠ none ↔ ∀ path ∈ manifest.paths, path.IsUnicode := by
  have hexecutables (executable : ManifestExecutable) :
      (executable.toValue : Option (JsonValue φ)) ≠ none ↔ executable.relativePath.IsUnicode := by
    rw [ManifestExecutable.toValue, objectOf_ne_none_iff]
    simp [List.forall_mem_cons, textValue_ne_none, ← pathValue_ne_none_iff (φ := φ)]
  have hruntime (file : ManifestRuntimeFile) :
      (file.toValue : Option (JsonValue φ)) ≠ none ↔ file.relativePath.IsUnicode := by
    rw [ManifestRuntimeFile.toValue, objectOf_ne_none_iff]
    simp [List.forall_mem_cons, textValue_ne_none, ← pathValue_ne_none_iff (φ := φ)]
  have hlicenses (license : ManifestLicense) : (license.toValue : Option (JsonValue φ)) ≠ none ↔
      license.noticePath.IsUnicode ∧ ∀ path ∈ license.sourceOfferPath, path.IsUnicode := by
    rw [ManifestLicense.toValue, objectOf_ne_none_iff]
    simp only [List.forall_mem_cons, optionalValue_ne_none_iff, pathValue_ne_none_iff]
    simp [textValue_ne_none]
  have hchain (chain : ManifestSupplyChain) : (chain.toValue : Option (JsonValue φ)) ≠ none ↔
      chain.sbomPath.IsUnicode ∧ chain.sourcesPath.IsUnicode := by
    rw [ManifestSupplyChain.toValue, objectOf_ne_none_iff]
    simp only [List.forall_mem_cons, pathValue_ne_none_iff]
    simp [textValue_ne_none]
  have hcapabilities (capability : Capability φ) : capability.toValue ≠ none := by
    rw [Capability.toValue, objectOf_ne_none_iff]
    simp [textValue, textsValue]
  have hcompatibility : (manifest.anoleCompatibility.toValue : Option (JsonValue φ)) ≠ none := by
    rw [AnoleCompatibility.toValue, objectOf_ne_none_iff]
    simp [textValue]
  have hsource : (manifest.source.toValue : Option (JsonValue φ)) ≠ none := by
    rw [ManifestSource.toValue, objectOf_ne_none_iff]
    simp [textValue]
  have hsignature (signature : ManifestSignature) : (signature.toValue : Option (JsonValue φ)) ≠ none := by
    rw [ManifestSignature.toValue, objectOf_ne_none_iff]
    simp [textValue]
  rw [EngineManifest.toValue, objectOf_ne_none_iff]
  simp only [List.forall_mem_cons, arrayOf_ne_none_iff, optionalValue_ne_none_iff, hexecutables, hruntime, hlicenses,
    hchain]
  rw [forall_mem_paths]
  simp [hcapabilities, hcompatibility, hsource, hsignature, textValue, naturalValue]

variable {decimals : DecimalText φ}

theorem canonicalManifestBytes_isSome_iff :
    (canonicalManifestBytes decimals manifest).isSome = true ↔ ∀ path ∈ manifest.paths, path.IsUnicode := by
  rw [canonicalManifestBytes, Option.isSome_map, Option.isSome_iff_ne_none, toValue_ne_none_iff]
  rfl

theorem isUnicode_of_canonicalManifestBytes {bytes : ByteArray}
    (h : canonicalManifestBytes decimals manifest = some bytes) : ∀ path ∈ manifest.paths, path.IsUnicode :=
  canonicalManifestBytes_isSome_iff.mp (Option.isSome_iff_exists.mpr ⟨bytes, h⟩)

theorem utf8_injective : Function.Injective fun chars : List Char => (String.ofList chars).toUTF8 := by
  intro chars others h
  beta_reduce at h
  rw [String.toUTF8_eq_toByteArray, String.toUTF8_eq_toByteArray, String.toByteArray_inj] at h
  exact String.ofList_injective h

theorem canonicalManifestBytes_inj {manifest other : EngineManifest φ} {bytes : ByteArray}
    (h : canonicalManifestBytes decimals manifest = some bytes)
    (h' : canonicalManifestBytes decimals other = some bytes) : manifest.unsigned = other.unsigned := by
  obtain ⟨value, hvalue, hbytes⟩ := Option.map_eq_some_iff.mp h
  obtain ⟨value', hvalue', hbytes'⟩ := Option.map_eq_some_iff.mp h'
  have htext := JsonValue.text_injective decimals (utf8_injective (hbytes.trans hbytes'.symm))
  refine determines_manifest _ _ ?_ ?_
  · rw [hvalue, hvalue', htext]
  · rw [hvalue]
    exact Option.some_ne_none value

end Determined

end Anole.Sdk
