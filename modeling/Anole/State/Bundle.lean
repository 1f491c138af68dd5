import Anole.State.DatabaseRestore
import Anole.State.Reports
import Anole.State.Restore

/-!
# Application-state bundles

Model of the backup and the preflight of application-state bundles
(`crates/core/src/application_state.rs`, lines 91–191, 456–735 and 985–1534): the live state
is collected, checked component by component, listed in a manifest and written to a ZIP
archive; `prepare_bundle` reads such an archive back and checks it again.

Nothing is refused by the system here, so the functions are pure. Third-party formats (ZIP,
SHA-256, the JSON of the components, SQLite) are parameters (`BundleTools`); the JSON of the
manifest, whose length is limited, is written out (`manifestToVecPretty`).

**Deviation.** The presets and settings of `LiveState` are what `recover_file_backup` leaves
under their names. The database copy and its preflight run `MaintenanceService` over calm
files.
-/

open Common Common.Proc

namespace Anole

/-! ## Text -/

/-- `str::strip_prefix`. -/
def stripPrefix (start text : String) : Option String :=
  if start.toList.isPrefixOf text.toList then
    some (String.ofList (text.toList.drop start.toList.length))
  else none

/-- `str::strip_suffix`. -/
def stripSuffix (ending text : String) : Option String :=
  if ending.toList.isSuffixOf text.toList then
    some (String.ofList (text.toList.take (text.toList.length - ending.toList.length)))
  else none

/-- `Path::extension` of a file name. -/
def pathExtension (name : String) : Option String :=
  let reversed := name.toList.reverse
  match reversed.dropWhile (· ≠ '.') with
  | [] => none
  | [_] => none
  | _ :: _ => some (String.ofList (reversed.takeWhile (· ≠ '.')).reverse)

/-! ## Constants (lines 23–41) -/

def applicationSettingsSchemaVersion : ℕ := 2

def manifestEntry : String := "manifest.json"

def databaseEntry : String := "database/jobs.sqlite3"

def presetsEntry : String := "presets/presets.json"

def settingsEntry : String := "settings/settings.json"

def engineRegistryPrefix : String := "engine-registry/"

def reportsPrefix : String := "reports/"

def maxManifestBytes : ℕ := 4 * 1024 * 1024

def maxDatabaseBytes : ℕ := 8 * 1024 * 1024 * 1024

def maxPresetsBytes : ℕ := 1024 * 1024

def maxSettingsBytes : ℕ := 64 * 1024

def maxRegistryEntryBytes : ℕ := 1024 * 1024

def maxArchiveBytes : ℕ := 16 * 1024 * 1024 * 1024

def maxTotalUncompressedBytes : ℕ := 16 * 1024 * 1024 * 1024

def maxRegistryEntries : ℕ := 4096

def maxReportEntries : ℕ := 100000

/-- `CARGO_PKG_VERSION` (`Cargo.toml`, line 13). -/
def applicationVersion : String := "0.1.1"

/-! ## Components -/

/-- `ApplicationSettings` (lines 94–104). -/
structure ApplicationSettings where
  schemaVersion : ℕ
  language : String
  expertMode : Bool
  theme : String
  palette : String
  deriving DecidableEq

/-- `default_settings_theme` (lines 106–108). -/
def defaultSettingsTheme : String := "light"

/-- `default_settings_palette` (lines 110–112). -/
def defaultSettingsPalette : String := "classic"

/-- The checks below return an error when a condition holds. -/
def rejectIf (c : Prop) [Decidable c] (message : String) : Except AnoleError Unit :=
  if c then .error (stateError message) else .ok ()

/-- `ApplicationSettings::validate` (lines 120–140). -/
def ApplicationSettings.validate (settings : ApplicationSettings) : Except AnoleError Unit := do
  rejectIf (settings.schemaVersion ≠ applicationSettingsSchemaVersion)
    "Unsupported application-settings schema version"
  rejectIf (settings.language ∉ ["en", "zh-CN"]) "Application language must be en or zh-CN"
  rejectIf (settings.theme ∉ ["system", "light", "dark"])
    "Application theme must be system, light, or dark"
  rejectIf (settings.palette ∉ ["classic", "matcha", "ocean"])
    "Application palette must be classic, matcha, or ocean"

/-- `EngineRegistryIdentity` (lines 211–217). -/
structure EngineRegistryIdentity where
  engineId : Option String
  manifestPath : PathBuf
  deriving DecidableEq

/-- `byte.is_ascii_alphanumeric() || matches!(byte, b'.' | b'_' | b'-')`. -/
def isPortableChar (c : Char) : Bool := c.isAlphanum || c = '.' || c = '_' || c = '-'

/-- `EngineRegistryIdentity::validate` (lines 220–239). -/
def EngineRegistryIdentity.validate (identity : EngineRegistryIdentity) :
    Except AnoleError Unit := do
  rejectIf (identity.manifestPath = []) "Engine registry identity has an empty manifest path"
  match identity.engineId with
  | none => .ok ()
  | some engineId =>
    rejectIf (engineId = "" ∨ engineId.utf8ByteSize > 128 ∨ ¬engineId.toList.all isPortableChar)
      "Engine registry identity has an invalid engine ID"

/-- `StateBundleComponent` (lines 242–250). -/
inductive StateBundleComponent where
  | database | presets | settings | engineRegistry | reports
  deriving DecidableEq

/-- The `kebab-case` name of a component in JSON. -/
def StateBundleComponent.json : StateBundleComponent → String
  | database => "database"
  | presets => "presets"
  | settings => "settings"
  | engineRegistry => "engine-registry"
  | reports => "reports"

/-- `component_limit` (lines 1457–1465). -/
def componentLimit : StateBundleComponent → ℕ
  | .database => maxDatabaseBytes
  | .presets => maxPresetsBytes
  | .settings => maxSettingsBytes
  | .engineRegistry => maxRegistryEntryBytes
  | .reports => maxReportBytes

/-- `StateBundleEntry` (lines 252–259). -/
structure StateBundleEntry where
  path : String
  component : StateBundleComponent
  sizeBytes : ℕ
  sha256 : String
  deriving DecidableEq

/-- `StateBundleComponents` (lines 261–269). -/
structure StateBundleComponents where
  database : Bool
  presets : Bool
  settings : Bool
  engineRegistry : Bool
  reports : Bool
  deriving DecidableEq

/-- `StateBundleManifest` (lines 271–280). -/
structure StateBundleManifest where
  schemaVersion : ℕ
  bundleId : Uuid
  createdUnixSeconds : ℕ
  applicationVersion : String
  components : StateBundleComponents
  entries : List StateBundleEntry
  deriving DecidableEq

/-! ## The JSON of a manifest -/

/-- A character of a JSON string, as `serde_json` escapes it. -/
def jsonChar (c : Char) : List Char :=
  if c = '"' then ['\\', '"'] else if c = '\\' then ['\\', '\\']
  else if c.toNat = 8 then ['\\', 'b'] else if c.toNat = 9 then ['\\', 't']
  else if c.toNat = 10 then ['\\', 'n'] else if c.toNat = 12 then ['\\', 'f']
  else if c.toNat = 13 then ['\\', 'r']
  else if c.toNat < 32 then '\\' :: 'u' :: hexDigits 4 c.toNat
  else [c]

def jsonString (text : String) : String :=
  String.ofList ('"' :: text.toList.flatMap jsonChar ++ ['"'])

/-- A line of pretty-printed JSON. -/
def jsonLine (indent : ℕ) (text : String) : String :=
  String.ofList (List.replicate (2 * indent) ' ') ++ text ++ "\n"

/-- A field of an object, at the given depth. -/
def jsonField (indent : ℕ) (key value ending : String) : String :=
  jsonLine indent (jsonString key ++ ": " ++ value ++ ending)

def jsonEntry (entry : StateBundleEntry) (ending : String) : String :=
  jsonLine 2 "\x7b" ++ jsonField 3 "path" (jsonString entry.path) "," ++
    jsonField 3 "component" (jsonString entry.component.json) "," ++
    jsonField 3 "size_bytes" (toString entry.sizeBytes) "," ++
    jsonField 3 "sha256" (jsonString entry.sha256) "" ++ jsonLine 2 ("\x7d" ++ ending)

/-- The entries, separated by commas. -/
def jsonEntries : List StateBundleEntry → String
  | [] => ""
  | [entry] => jsonEntry entry ""
  | entry :: next :: rest => jsonEntry entry "," ++ jsonEntries (next :: rest)

/-- `serde_json::to_vec_pretty` on a manifest, which has at least one entry. -/
def manifestToVecPretty (manifest : StateBundleManifest) : String :=
  jsonLine 0 "\x7b" ++ jsonField 1 "schema_version" (toString manifest.schemaVersion) "," ++
    jsonField 1 "bundle_id" (jsonString manifest.bundleId.toText) "," ++
    jsonField 1 "created_unix_seconds" (toString manifest.createdUnixSeconds) "," ++
    jsonField 1 "application_version" (jsonString manifest.applicationVersion) "," ++
    jsonField 1 "components" "\x7b" "" ++
    jsonField 2 "database" (toString manifest.components.database) "," ++
    jsonField 2 "presets" (toString manifest.components.presets) "," ++
    jsonField 2 "settings" (toString manifest.components.settings) "," ++
    jsonField 2 "engine_registry" (toString manifest.components.engineRegistry) "," ++
    jsonField 2 "reports" (toString manifest.components.reports) "" ++ jsonLine 1 "\x7d," ++
    jsonField 1 "entries" "[" "" ++ jsonEntries manifest.entries ++ jsonLine 1 "]" ++ "\x7d"

/-! ## Paths in a bundle -/

/-- `is_windows_reserved_stem` (lines 1408–1421). -/
def isWindowsReservedStem (stem : String) : Bool :=
  let base := (stem.toList.takeWhile (· ≠ '.')).map Char.toUpper
  let numbered (start : List Char) : Bool :=
    match base.drop start.length with
    | [digit] => start.isPrefixOf base && '1' ≤ digit && digit ≤ '9'
    | _ => false
  base ∈ ["CON".toList, "PRN".toList, "AUX".toList, "NUL".toList] || numbered "COM".toList ||
    numbered "LPT".toList

/-- `ensure_safe_archive_path` (lines 1428–1442). -/
def ensureSafeArchivePath (path : String) : Except AnoleError Unit :=
  rejectIf (path = "" ∨ '\\' ∈ path.toList ∨ path.toList.head? = some '/' ∨
      path.toList.getLast? = some '/' ∨ ¬normalComponents path)
    "Application-state archive contains an unsafe path"

/-- `ensure_prefixed_json_path` (lines 1373–1406). -/
def ensurePrefixedJsonPath (path start : String) : Except AnoleError Unit := do
  match (stripPrefix start path).filter fun suffix =>
      pathExtension suffix = some "json" ∧ suffix.toList.head? ≠ some '.' with
  | none => .error (stateError "Application-state component path is invalid")
  | some suffix =>
    rejectIf ('/' ∈ suffix.toList ∨ '\\' ∈ suffix.toList)
      "Application-state component path is nested unexpectedly"
    match stripSuffix ".json" suffix with
    | none => .error (stateError "Application-state component filename is invalid")
    | some stem =>
      rejectIf (stem = "" ∨ stem.utf8ByteSize > 128 ∨ ¬stem.toList.all isPortableChar ∨
          stem.toList.getLast? = some '.' ∨ stem.toList.getLast? = some ' ' ∨
          isWindowsReservedStem stem)
        "Application-state component filename is not portable"

/-! ## The parts that are not modelled -/

/-- What an entry of a bundle holds. The JSON of a manifest is kept as the manifest. -/
inductive FileContent (δ : Type) where
  | database (content : δ)
  | bytes (content : Bytes)
  | manifest (content : StateBundleManifest)
  deriving DecidableEq

/-- The formats a bundle rests on: SQLite and the query of a job, the JSON of the components,
    `Uuid::parse_str`, SHA-256 in hexadecimal, and ZIP archives `ζ`. -/
structure BundleTools (δ ζ : Type) where
  sqlite : Sqlite δ
  /-- `SELECT plan_hash, state FROM jobs WHERE id = ?1` -/
  jobRow : δ → String → Except String (Option (String × String))
  /-- `serde_json::from_slice::<PresetLibrary>` and `PresetLibrary::validate` -/
  presetLibrary : Bytes → Except AnoleError Unit
  settingsFromSlice : Bytes → Except String ApplicationSettings
  identityToVecPretty : EngineRegistryIdentity → Except String Bytes
  identityFromSlice : Bytes → Except String EngineRegistryIdentity
  report : ReportCodec
  manifestFromSlice : FileContent δ → Except String StateBundleManifest
  parseUuid : String → Option Uuid
  sha256 : FileContent δ → String
  zipWrite : List (String × FileContent δ) → Except String ζ
  zipRead : ζ → Except String (List (String × FileContent δ))
  zipSize : ζ → ℕ

/-- `state_zip_error` (lines 1659–1662). -/
def stateZipError (text : String) : AnoleError :=
  (stateError "Application-state bundle is not a valid supported ZIP archive").withDiagnostic text

/-- A directory, in the order of `read_dir`. -/
abbrev JsonDirectory := List (String × Bytes)

/-- The state that a backup collects. -/
structure LiveState (δ : Type) where
  database : δ
  presets : Option Bytes
  settings : Option Bytes
  engineRegistry : JsonDirectory
  reports : JsonDirectory

/-- `StagedEntry` (lines 412–418). -/
structure StagedEntry (δ : Type) where
  archivePath : String
  component : StateBundleComponent
  content : FileContent δ
  limit : ℕ

/-- What a backup is asked for, with the values of `Uuid::new_v4()` and of the clock. -/
structure BundleRequest where
  destination : PathBuf
  destinationExists : Bool
  includeReports : Bool
  bundleId : Uuid
  createdUnixSeconds : ℕ

/-- `StateBundleBackupReport` (lines 287–295), but for the hash of the archive. -/
structure StateBundleBackupReport where
  bundlePath : PathBuf
  bundleId : Uuid
  sizeBytes : ℕ
  entryCount : ℕ
  reportsIncluded : Bool

/-- `StateBundlePreflightReport` (lines 297–308). -/
structure StateBundlePreflightReport where
  bundlePath : PathBuf
  bundleId : Uuid
  createdUnixSeconds : ℕ
  applicationVersion : String
  entryCount : ℕ
  totalUncompressedBytes : ℕ
  reportsIncluded : Bool
  database : MaintenanceService.RestorePreflightReport
  warnings : List String

namespace ApplicationState

variable {δ ζ : Type} (tools : BundleTools δ ζ)

def contentSize : FileContent δ → ℕ
  | .database content => tools.sqlite.size content
  | .bytes content => content.length
  | .manifest content => (manifestToVecPretty content).utf8ByteSize

/-- `read_bounded` (lines 1525–1534) on the content of a file. -/
def readBounded (limit : ℕ) (content : Bytes) : Except AnoleError Bytes := do
  rejectIf (content.length > limit)
    "Application-state file is not regular or exceeds its size limit"
  pure content

/-! ## Collecting the live state -/

/-- `ApplicationSettingsService::read` (lines 171–191). -/
def readSettings (settings : Option Bytes) : Except AnoleError (Option ApplicationSettings) :=
  match settings with
  | none => .ok none
  | some content => do
    let bytes ← readBounded maxSettingsBytes content
    let settings ← (tools.settingsFromSlice bytes).mapError fun error =>
      (stateError "Stored application settings are invalid").withDiagnostic error
    let settings :=
      if settings.schemaVersion = 1 then
        { settings with
          schemaVersion := applicationSettingsSchemaVersion
          theme := defaultSettingsTheme
          palette := defaultSettingsPalette }
      else settings
    settings.validate
    pure (some settings)

/-- `validate_preset_file` (lines 1172–1178). -/
def validatePresetFile (content : Bytes) : Except AnoleError Unit := do
  let bytes ← readBounded maxPresetsBytes content
  tools.presetLibrary bytes

/-- `validate_settings_file` (lines 1180–1186). -/
def validateSettingsFile (content : Bytes) : Except AnoleError Unit := do
  let bytes ← readBounded maxSettingsBytes content
  let settings ← (tools.settingsFromSlice bytes).mapError fun error =>
    (stateError "Application settings are invalid").withDiagnostic error
  settings.validate

/-- `collect_optional_file` (lines 987–1011). -/
def collectOptionalFile (content : Option Bytes) (archivePath : String)
    (component : StateBundleComponent) (limit : ℕ) (validate : Bytes → Except AnoleError Unit) :
    Except AnoleError (Option (StagedEntry δ)) :=
  match content with
  | none => .ok none
  | some content => do
    validate content
    pure (some ⟨archivePath, component, .bytes content, limit⟩)

/-- The job or engine whose replacement backup has this name. -/
def backupStem (name : String) : Option String :=
  (stripPrefix "." name).bind (stripSuffix ".backup")

/-- The body of the loop of `recover_json_directory_backups` (lines 1067–1099). -/
def recoverEntry (directory : JsonDirectory) (name : String) : Except AnoleError JsonDirectory :=
  match backupStem name with
  | none => .ok directory
  | some stem => do
    rejectIf (stem = "" ∨ stem.utf8ByteSize > 128 ∨ ¬stem.toList.all isPortableChar ∨
        isWindowsReservedStem stem)
      "Application-state directory contains an unsafe replacement backup"
    let destination := stem ++ ".json"
    if destination ∈ directory.map Prod.fst then
      pure (directory.filter fun entry => entry.1 ≠ name)
    else
      pure (directory.map fun entry => if entry.1 = name then (destination, entry.2) else entry)

/-- `recover_json_directory_backups` (lines 1061–1101). -/
def recoverJsonDirectoryBackups (directory : JsonDirectory) : Except AnoleError JsonDirectory :=
  (directory.map Prod.fst).foldlM recoverEntry directory

/-- The loop of `collect_json_directory` (lines 1124–1166), over regular files with text
    names. -/
def collectJsonLoop (archivePrefix : String) (component : StateBundleComponent)
    (limit maximumEntries : ℕ) (validate : String → Bytes → Except AnoleError Unit) :
    List (StagedEntry δ) → JsonDirectory → Except AnoleError (List (StagedEntry δ))
  | entries, [] => .ok entries
  | entries, (fileName, content) :: rest =>
    if fileName.toList.head? = some '.' then
      collectJsonLoop archivePrefix component limit maximumEntries validate entries rest
    else do
      rejectIf (pathExtension fileName ≠ some "json")
        s!"Application-state directory contains an unsupported file: {fileName}"
      validate fileName content
      rejectIf (content.length > limit)
        s!"Application-state file exceeds its size limit: {fileName}"
      let entries := entries ++ [⟨archivePrefix ++ fileName, component, .bytes content, limit⟩]
      rejectIf (entries.length > maximumEntries)
        "Application-state component has too many entries"
      collectJsonLoop archivePrefix component limit maximumEntries validate entries rest

/-- `sort_by(|left, right| left.archive_path.cmp(&right.archive_path))`. -/
def sortStaged (entries : List (StagedEntry δ)) : List (StagedEntry δ) :=
  entries.mergeSort fun left right => left.archivePath ≤ right.archivePath

/-- `collect_json_directory` (lines 1103–1170). -/
def collectJsonDirectory (directory : JsonDirectory) (archivePrefix : String)
    (component : StateBundleComponent) (limit maximumEntries : ℕ)
    (validate : String → Bytes → Except AnoleError Unit) :
    Except AnoleError (List (StagedEntry δ)) := do
  let entries ← collectJsonLoop archivePrefix component limit maximumEntries validate [] directory
  pure (sortStaged entries)

/-- The check of a registry entry, in `collect_registry_entries` (lines 1021–1031) and, with
    another text, in `validate_staged_components` (lines 1196–1204). -/
def validateIdentity (message : String) (content : Bytes) : Except AnoleError Unit := do
  let bytes ← readBounded maxRegistryEntryBytes content
  let identity ← (tools.identityFromSlice bytes).mapError fun error =>
    (stateError message).withDiagnostic error
  identity.validate

/-- `collect_registry_entries` (lines 1013–1034). -/
def collectRegistryEntries (directory : JsonDirectory) :
    Except AnoleError (List (StagedEntry δ)) := do
  let directory ← recoverJsonDirectoryBackups directory
  collectJsonDirectory directory engineRegistryPrefix .engineRegistry maxRegistryEntryBytes
    maxRegistryEntries fun fileName content => do
      rejectIf (fileName.toList.head? = some '.') "Engine registry contains a hidden JSON entry"
      validateIdentity tools "Engine registry identity is invalid" content

/-- The texts of the three errors about a report. -/
structure ReportMessages where
  fileName : String
  invalid : String
  mismatch : String

/-- The texts in `collect_report_entries` (lines 1036–1059). -/
def storedReportMessages : ReportMessages where
  fileName := "Report filename is not a Job UUID"
  invalid := "Stored ValidationReport is invalid"
  mismatch := "Report filename and Job ID do not match"

/-- The texts in `validate_staged_components` (lines 1205–1225). -/
def bundledReportMessages : ReportMessages where
  fileName := "Bundled report filename is not a Job UUID"
  invalid := "Bundled ValidationReport is invalid"
  mismatch := "Bundled report filename and Job ID do not match"

/-- The check of a report file, by its name and content. -/
def validateReport (messages : ReportMessages) (fileName : String) (content : Bytes) :
    Except AnoleError Unit :=
  match (stripSuffix ".json" fileName).bind tools.parseUuid with
  | none => .error (stateError messages.fileName)
  | some expectedId => do
    let bytes ← readBounded maxReportBytes content
    let report ← (tools.report.fromSlice bytes).mapError fun error =>
      (stateError messages.invalid).withDiagnostic error
    rejectIf (report.jobId ≠ expectedId) messages.mismatch

/-- `collect_report_entries` (lines 1036–1059). -/
def collectReportEntries (directory : JsonDirectory) :
    Except AnoleError (List (StagedEntry δ)) := do
  let directory ← recoverJsonDirectoryBackups directory
  collectJsonDirectory directory reportsPrefix .reports maxReportBytes maxReportEntries
    (validateReport tools storedReportMessages)

/-! ## The database of a bundle -/

/-- The live database. -/
def liveDatabase : DatabaseFile := .named "." "jobs.sqlite3"

/-- The copy of the database in the stage of a backup. -/
def portableDatabase : DatabaseFile := .named "./.anole-state-backup" "jobs.sqlite3"

/-- The database in the stage of a preflight. -/
def stagedDatabase : DatabaseFile := .named "./.anole-state-restore/database" "jobs.sqlite3"

/-- `MaintenanceService::backup` of the live database to a new file (line 475). -/
def backupPortable (content : δ) : Except AnoleError δ :=
  let run := MaintenanceService.backupDatabase tools.sqlite (MaintenanceService.calmSnapshot 0 0)
    liveDatabase portableDatabase false fun file => if file = liveDatabase then some content else none
  match run.result, run.final portableDatabase with
  | .ok _, some copy => .ok copy
  | .ok _, none => .error (stateError "Unable to read or persist application state")
  | .error error, _ => .error error

/-- `MaintenanceService::restore_preflight` of the staged database (lines 699–701). -/
def preflightDatabase (content : δ) :
    Except AnoleError MaintenanceService.RestorePreflightReport :=
  (MaintenanceService.restorePreflight tools.sqlite (MaintenanceService.calmRestore 0 0 0)
    liveDatabase stagedDatabase fun file => if file = stagedDatabase then some content else none).result

/-! ## The manifest -/

/-- What the loop of `validate_manifest` checks of one entry (lines 1313–1350). -/
def validateEntry (paths : List String) (entry : StateBundleEntry) : Except AnoleError Unit := do
  ensureSafeArchivePath entry.path
  rejectIf (entry.path = manifestEntry ∨ entry.path ∈ paths)
    "Application-state manifest has duplicate entries"
  rejectIf (entry.sizeBytes > componentLimit entry.component ∨ entry.sha256.utf8ByteSize ≠ 64 ∨
      ¬entry.sha256.toList.all fun c => c.isDigit || ('a' ≤ c && c ≤ 'f') || ('A' ≤ c && c ≤ 'F'))
    "Application-state manifest has invalid entry metadata"
  match entry.component with
  | .database =>
    rejectIf (entry.path ≠ databaseEntry) "Database entry has an unexpected archive path"
  | .presets =>
    rejectIf (entry.path ≠ presetsEntry) "Preset entry has an unexpected archive path"
  | .settings =>
    rejectIf (entry.path ≠ settingsEntry) "Settings entry has an unexpected archive path"
  | .engineRegistry => ensurePrefixedJsonPath entry.path engineRegistryPrefix
  | .reports => ensurePrefixedJsonPath entry.path reportsPrefix

/-- The loop of `validate_manifest` (lines 1312–1350). -/
def validateEntries : List String → List StateBundleEntry → Except AnoleError Unit
  | _, [] => .ok ()
  | paths, entry :: rest => do
    validateEntry paths entry
    validateEntries (entry.path :: paths) rest

/-- The number of entries of a component. -/
def countOf (component : StateBundleComponent) (entries : List StateBundleEntry) : ℕ :=
  entries.countP fun entry => entry.component = component

/-- `validate_manifest` (lines 1287–1371). -/
def validateManifest (manifest : StateBundleManifest) : Except AnoleError Unit := do
  rejectIf (manifest.schemaVersion ≠ applicationStateBundleSchemaVersion)
    "Unsupported application-state bundle schema version"
  rejectIf (manifest.applicationVersion = "" ∨ manifest.applicationVersion.utf8ByteSize > 64)
    "Application-state manifest has an invalid version"
  rejectIf (manifest.components.database = false)
    "Application-state bundle must contain its database"
  rejectIf (manifest.entries.length > maxReportEntries + maxRegistryEntries + 3)
    "Application-state manifest contains too many entries"
  validateEntries [] manifest.entries
  rejectIf (countOf .database manifest.entries ≠ 1 ∨
      countOf .presets manifest.entries ≠ manifest.components.presets.toNat ∨
      countOf .settings manifest.entries ≠ manifest.components.settings.toNat ∨
      countOf .engineRegistry manifest.entries > maxRegistryEntries ∨
      countOf .reports manifest.entries > maxReportEntries ∨
      (manifest.components.engineRegistry = false ∧
        countOf .engineRegistry manifest.entries ≠ 0) ∨
      (manifest.components.reports = false ∧ countOf .reports manifest.entries ≠ 0))
    "Application-state component flags do not match entries"

/-! ## Backup and preflight -/

/-- `write_bundle` (lines 1467–1509). -/
def writeBundle (manifest : StateBundleManifest) (entries : List (StagedEntry δ)) :
    Except AnoleError ζ := do
  rejectIf ((manifestToVecPretty manifest).utf8ByteSize > maxManifestBytes)
    "Application-state manifest exceeds 4 MiB"
  rejectIf (∃ entry ∈ entries, contentSize tools entry.content > entry.limit)
    "Application-state source grew beyond its limit"
  (tools.zipWrite ((manifestEntry, .manifest manifest) ::
    entries.map fun entry => (entry.archivePath, entry.content))).mapError stateZipError

/-- The manifest entry of a staged file, in the loop of `backup_inner` (lines 511–529). -/
def manifestEntryOf (entry : StagedEntry δ) : Except AnoleError StateBundleEntry := do
  let sizeBytes := contentSize tools entry.content
  rejectIf (sizeBytes > entry.limit)
    s!"Application-state component exceeds its size limit: {entry.archivePath}"
  pure {
    path := entry.archivePath
    component := entry.component
    sizeBytes := sizeBytes
    sha256 := tools.sha256 entry.content }

/-- The names loop of `prepare_bundle` (lines 612–627). -/
def validateNames : List String → List String → Except AnoleError Unit
  | _, [] => .ok ()
  | names, name :: rest => do
    ensureSafeArchivePath name
    rejectIf (name ∈ names) "Application-state bundle has a duplicate entry"
    validateNames (name :: names) rest

/-- The entries loop of `prepare_bundle` (lines 650–697): the archive has what the manifest
    says. The result is the sum of the sizes. -/
def checkEntries (archive : List (String × FileContent δ)) :
    ℕ → List StateBundleEntry → Except AnoleError ℕ
  | total, [] => .ok total
  | total, entry :: rest =>
    match archive.lookup entry.path with
    | none => .error (stateZipError "specified file not found in archive")
    | some content => do
      let size := contentSize tools content
      rejectIf (size ≠ entry.sizeBytes ∨ size > componentLimit entry.component)
        s!"Application-state entry size is invalid: {entry.path}"
      rejectIf (total + size > maxTotalUncompressedBytes)
        "Application-state bundle expands beyond 16 GiB"
      rejectIf (tools.sha256 content ≠ entry.sha256)
        s!"Application-state entry failed its SHA-256 check: {entry.path}"
      checkEntries archive (total + size) rest

/-- A staged file, read as bytes. -/
def stagedBytes (archive : List (String × FileContent δ)) (path : String) :
    Except AnoleError Bytes :=
  match archive.lookup path with
  | some (.bytes content) => .ok content
  | _ => .error (stateError "Unable to read or persist application state")

/-- The file name of a path. -/
def fileNameOf (path : String) : String :=
  String.ofList (path.toList.reverse.takeWhile (· ≠ '/')).reverse

/-- The loop of `validate_staged_components` (lines 1195–1231). -/
def validateStagedEntries (archive : List (String × FileContent δ)) :
    List StateBundleEntry → Except AnoleError Unit
  | [] => .ok ()
  | entry :: rest => do
    match entry.component with
    | .engineRegistry =>
      let content ← stagedBytes archive entry.path
      validateIdentity tools "Bundled engine registry identity is invalid" content
    | .reports =>
      let content ← stagedBytes archive entry.path
      validateReport tools bundledReportMessages (fileNameOf entry.path) content
    | .database | .presets | .settings => .ok ()
    validateStagedEntries archive rest

/-- `validate_staged_components` (lines 1188–1233). -/
def validateStagedComponents (archive : List (String × FileContent δ))
    (manifest : StateBundleManifest) : Except AnoleError Unit := do
  (if manifest.components.presets then do
    let content ← stagedBytes archive presetsEntry
    validatePresetFile tools content
  else .ok ())
  (if manifest.components.settings then do
    let content ← stagedBytes archive settingsEntry
    validateSettingsFile tools content
  else .ok ())
  validateStagedEntries tools archive manifest.entries

/-- The state a job is in after a report with this status (lines 1264–1270). -/
def expectedState : ValidationStatus → String
  | .pass => "completed"
  | .warning | .unknown => "warning"
  | .fail => "failed"

/-- The check of one report against the database (lines 1251–1282). -/
def validateReportLink (database : δ) (content : Bytes) : Except AnoleError Unit := do
  let bytes ← readBounded maxReportBytes content
  let report ← (tools.report.fromSlice bytes).mapError fun error =>
    (stateError "Bundled ValidationReport is invalid").withDiagnostic error
  let stored ← (tools.jobRow database report.jobId.toText).mapError fun error =>
    (stateError "Unable to inspect bundled report references").withDiagnostic error
  rejectIf (stored ≠ some (report.planHash, expectedState report.status))
    "Bundled ValidationReport has no matching terminal Job and Plan in SQLite"

/-- The loop of `validate_report_database_links` (lines 1246–1283). -/
def validateReportLinks (archive : List (String × FileContent δ)) (database : δ) :
    List StateBundleEntry → Except AnoleError Unit
  | [] => .ok ()
  | entry :: rest => do
    (if entry.component = .reports then do
      let content ← stagedBytes archive entry.path
      validateReportLink tools database content
    else .ok ())
    validateReportLinks archive database rest

/-- The staged database. -/
def stagedDatabaseContent (archive : List (String × FileContent δ)) : Except AnoleError δ :=
  match archive.lookup databaseEntry with
  | some (.database content) => .ok content
  | _ => .error (stateError "Unable to read or persist application state")

/-- The warnings of a preflight (lines 703–714). -/
def bundleWarnings (components : StateBundleComponents) : List String :=
  (if components.engineRegistry then
    ["Engine registry identities are restored, but third-party engine binaries are not " ++
      "bundled; missing paths must be re-imported."]
  else []) ++
  (if components.reports then []
  else
    ["Reports were not included; live reports will be cleared during restore and remain " ++
      "recoverable from the safety bundle."])

/-- `prepare_bundle` (lines 588–735), with the report of `restore_preflight`. -/
def prepareBundle (bundlePath : PathBuf) (bundle : ζ) :
    Except AnoleError StateBundlePreflightReport := do
  rejectIf (tools.zipSize bundle > maxArchiveBytes)
    "Application-state bundle exceeds the 16 GiB limit"
  let archive ← (tools.zipRead bundle).mapError stateZipError
  rejectIf (archive.length > maxReportEntries + maxRegistryEntries + 4)
    "Application-state bundle contains too many entries"
  validateNames [] (archive.map Prod.fst)
  let manifestContent ← match archive.lookup manifestEntry with
    | some content => .ok content
    | none => .error (stateError "Application-state bundle has no manifest.json")
  rejectIf (contentSize tools manifestContent > maxManifestBytes)
    "Application-state archive entry exceeds its limit"
  let manifest ← (tools.manifestFromSlice manifestContent).mapError fun error =>
    (stateError "Application-state manifest is invalid").withDiagnostic error
  validateManifest manifest
  let expected := manifestEntry :: manifest.entries.map StateBundleEntry.path
  rejectIf (¬(archive.map Prod.fst ⊆ expected ∧ expected ⊆ archive.map Prod.fst))
    "Application-state archive entries do not exactly match its manifest"
  let total ← checkEntries tools archive 0 manifest.entries
  validateStagedComponents tools archive manifest
  let content ← stagedDatabaseContent archive
  let database ← preflightDatabase tools content
  (if manifest.components.reports then
    validateReportLinks tools archive content manifest.entries
  else .ok ())
  pure {
    bundlePath := bundlePath
    bundleId := manifest.bundleId
    createdUnixSeconds := manifest.createdUnixSeconds
    applicationVersion := manifest.applicationVersion
    entryCount := manifest.entries.length
    totalUncompressedBytes := total
    reportsIncluded := manifest.components.reports
    database := database
    warnings := bundleWarnings manifest.components }

/-- `restore_preflight` (lines 365–370). -/
def restorePreflight (bundlePath : PathBuf) (bundle : ζ) :
    Except AnoleError StateBundlePreflightReport := prepareBundle tools bundlePath bundle

/-- The staged entries of a backup (lines 477–508). -/
def collectEntries (state : LiveState δ) (includeReports : Bool) :
    Except AnoleError (List (StagedEntry δ)) := do
  let portable ← backupPortable tools state.database
  let presets ← collectOptionalFile state.presets presetsEntry .presets maxPresetsBytes
    (validatePresetFile tools)
  let settings ← collectOptionalFile state.settings settingsEntry .settings maxSettingsBytes
    (validateSettingsFile tools)
  let registry ← collectRegistryEntries tools state.engineRegistry
  let reports ← if includeReports then collectReportEntries tools state.reports else .ok []
  pure (sortStaged (⟨databaseEntry, .database, .database portable, maxDatabaseBytes⟩ ::
    presets.toList ++ settings.toList ++ registry ++ reports))

/-- The manifest of a backup (lines 510–549). -/
def buildManifest (request : BundleRequest) (staged : List (StagedEntry δ)) :
    Except AnoleError StateBundleManifest := do
  let entries ← staged.mapM (manifestEntryOf tools)
  pure {
    schemaVersion := applicationStateBundleSchemaVersion
    bundleId := request.bundleId
    createdUnixSeconds := request.createdUnixSeconds
    applicationVersion := applicationVersion
    components := {
      database := true
      presets := staged.any fun entry => entry.component = .presets
      settings := staged.any fun entry => entry.component = .settings
      engineRegistry := true
      reports := request.includeReports }
    entries := entries }

/-- `backup_inner` (lines 457–585), with the bundle that it leaves at the destination. -/
def backupInner (state : LiveState δ) (request : BundleRequest) :
    Except AnoleError (StateBundleBackupReport × ζ) := do
  rejectIf (request.destinationExists = true)
    "Application-state bundle destination already exists"
  let staged ← collectEntries tools state request.includeReports
  let manifest ← buildManifest tools request staged
  validateManifest manifest
  let bundle ← writeBundle tools manifest staged
  let _ ← prepareBundle tools request.destination bundle
  rejectIf (tools.zipSize bundle > maxArchiveBytes)
    "Application-state bundle exceeds the 16 GiB limit"
  pure ({
    bundlePath := request.destination
    bundleId := manifest.bundleId
    sizeBytes := tools.zipSize bundle
    entryCount := manifest.entries.length
    reportsIncluded := request.includeReports }, bundle)

end ApplicationState

end Anole
