import Anole.Common.JsonSchema
import Anole.Preset.Library

/-!
# Reading preset libraries of version 1

`schemas/preset-library/v1.schema.json` describes the preset libraries of version 1,
which `serde` reads as a `PresetLibrary` and `migrate_legacy` (`crates/core/src/preset.rs`,
lines 249–259) is to bring to version 2. `parseUuid` stands for the text reader of the
`uuid` crate.

Results:
* `migration_faithful_iff`: a document of version 1 is read, migrated and accepted with
  its presets exactly when it has no presets and writes its version as a plain `1`.

**Deviation.** `migrate_legacy` raises the version of the library and leaves the version
1 of each of its presets, which `ConversionPreset::validate` rejects: a library of
version 1 with any preset is lost (`Sample.migration_loses_presets`).
-/

open Common

namespace Anole

namespace Preset

/-! ## The schema of version 1 -/

/-- The characters one by one meet the tests. -/
def matchesClasses : List (Char → Bool) → List Char → Bool
  | [], [] => true
  | test :: tests, c :: cs => test c && matchesClasses tests cs
  | _, _ => false

/-- `[0-9a-fA-F]` -/
def isHexDigit (c : Char) : Bool := c.isDigit || c ∈ "abcdefABCDEF".toList

/-- The pattern of `preset_id` (line 34 of the schema). -/
def presetIdPattern : List Char → Bool :=
  let hyphen : List (Char → Bool) := [fun c => c = '-']
  let hex (n : ℕ) : List (Char → Bool) := List.replicate n isHexDigit
  let oneOf (choices : String) : List (Char → Bool) := [fun c => c ∈ choices.toList]
  matchesClasses (hex 8 ++ hyphen ++ hex 4 ++ hyphen ++ oneOf "12345678" ++ hex 3 ++ hyphen ++
    oneOf "89abAB" ++ hex 3 ++ hyphen ++ hex 12)

/-- The properties of a preset (lines 30–98 of the schema). -/
def v1PresetProperties : List (String × Schema) :=
  [("schema_version", .const 1),
   ("preset_id", .string presetIdPattern),
   ("name", .string fun cs => 1 ≤ cs.length ∧ cs.length ≤ 80),
   ("target_format", .string fun cs => 1 ≤ cs.length ∧ cs.length ≤ 16 ∧
     cs.all fun c => c.isLower || c.isDigit),
   ("quality", .orNull (.integer 1 100)),
   ("width", .orNull (.integer 1 16384)),
   ("dpi", .orNull (.integer 36 600)),
   ("color_mode", .orNull (.enum ["rgb", "gray"])),
   ("video_crf", .orNull (.integer 0 51)),
   ("video_preset", .orNull (.enum speedPresets)),
   ("audio_bitrate_kbps", .orNull (.integer 8 320)),
   ("preserve_all_streams", .boolean)]

/-- The items of `presets` (lines 13–99 of the schema); every property is required. -/
def v1PresetSchema : Schema := .object (v1PresetProperties.map Prod.fst) v1PresetProperties

/-- The properties of a library (lines 8–100 of the schema). -/
def v1Properties : List (String × Schema) :=
  [("schema_version", .const 1), ("presets", .array 4096 v1PresetSchema)]

/-- `schemas/preset-library/v1.schema.json` -/
def v1Schema : Schema := .object ["schema_version", "presets"] v1Properties

/-! ## Reading and migrating -/

/-- The fields of `ConversionPreset`. -/
def presetFields : List String :=
  ["schema_version", "preset_id", "name", "target_format", "quality", "width", "dpi", "color_mode",
    "video_crf", "video_preset", "audio_bitrate_kbps", "preserve_all_streams"]

section Readers

variable (parseUuid : String → Option Uuid)

def readUuid (document : Document) : Option Uuid := (readString document).bind parseUuid

/-- `Deserialize for ShellVerbBinding` (lines 13–20), which ignores other fields. -/
def ShellVerbBinding.ofDocument : Document → Option ShellVerbBinding
  | .object entries => do
    guard (distinctFields (entries.filter fun entry =>
      entry.1 ∈ ["verb_id", "enabled", "preset_id"]))
    let verbId ← requiredField readString entries "verb_id"
    let enabled ← defaultedField readBool entries "enabled" true
    let presetId ← optionalField (readUuid parseUuid) entries "preset_id"
    return { verbId := verbId, enabled := enabled, presetId := presetId }
  | _ => none

/-- `Deserialize for ConversionPreset` (lines 26–44) from an object. -/
def ConversionPreset.ofDocument : Document → Option ConversionPreset
  | .object entries => do
    guard (distinctFields entries && onlyFields entries presetFields)
    let schemaVersion ← requiredField readU16 entries "schema_version"
    let presetId ← requiredField (readUuid parseUuid) entries "preset_id"
    let name ← requiredField readString entries "name"
    let targetFormat ← requiredField readString entries "target_format"
    let quality ← optionalField readU8 entries "quality"
    let width ← optionalField readU32 entries "width"
    let dpi ← optionalField readU16 entries "dpi"
    let colorMode ← optionalField readString entries "color_mode"
    let videoCrf ← optionalField readU8 entries "video_crf"
    let videoPreset ← optionalField readString entries "video_preset"
    let audioBitrateKbps ← optionalField readU32 entries "audio_bitrate_kbps"
    let preserveAllStreams ← requiredField readBool entries "preserve_all_streams"
    return { schemaVersion := schemaVersion, presetId := presetId, name := name,
             targetFormat := targetFormat, quality := quality, width := width, dpi := dpi,
             colorMode := colorMode, videoCrf := videoCrf, videoPreset := videoPreset,
             audioBitrateKbps := audioBitrateKbps, preserveAllStreams := preserveAllStreams }
  | _ => none

/-- `Deserialize for PresetLibrary` (lines 151–160) from an object. -/
def PresetLibrary.ofDocument : Document → Option PresetLibrary
  | .object entries => do
    guard (distinctFields entries && onlyFields entries ["schema_version", "presets", "shell_verbs"])
    let schemaVersion ← requiredField readU16 entries "schema_version"
    let presets ← requiredField (readArray (ConversionPreset.ofDocument parseUuid)) entries "presets"
    let shellVerbs ← defaultedField (readArray (ShellVerbBinding.ofDocument parseUuid)) entries
      "shell_verbs" []
    return { schemaVersion := schemaVersion, presets := presets, shellVerbs := shellVerbs }
  | _ => none

end Readers

/-- `PresetLibrary::migrate_legacy` (lines 253–259). -/
def PresetLibrary.migrateLegacy (library : PresetLibrary) : PresetLibrary :=
  if library.schemaVersion = 1 then
    { library with schemaVersion := presetSchemaVersion, shellVerbs := [] }
  else library

/-! ## What a faithful migration is -/

/-- A document states an optional number. -/
def SameNumber : Option Document → Option ℕ → Prop
  | some .null, none => True
  | some (.number literal), some n => literal.value = n
  | _, _ => False

/-- A document states an optional text. -/
def SameText : Option Document → Option String → Prop
  | some .null, none => True
  | some (.string text), some value => text = value
  | _, _ => False

/-- A document states a preset: its identity, name, target and options. -/
structure SamePreset (parseUuid : String → Option Uuid) (item : Document)
    (preset : ConversionPreset) : Prop where
  presetId : ∃ text, item.field? "preset_id" = some (.string text) ∧
    parseUuid text = some preset.presetId
  name : item.field? "name" = some (.string preset.name)
  targetFormat : item.field? "target_format" = some (.string preset.targetFormat)
  quality : SameNumber (item.field? "quality") (preset.quality.map UInt8.toNat)
  width : SameNumber (item.field? "width") (preset.width.map UInt32.toNat)
  dpi : SameNumber (item.field? "dpi") (preset.dpi.map UInt16.toNat)
  colorMode : SameText (item.field? "color_mode") preset.colorMode
  videoCrf : SameNumber (item.field? "video_crf") (preset.videoCrf.map UInt8.toNat)
  videoPreset : SameText (item.field? "video_preset") preset.videoPreset
  audioBitrateKbps : SameNumber (item.field? "audio_bitrate_kbps")
    (preset.audioBitrateKbps.map UInt32.toNat)
  preserveAllStreams : item.field? "preserve_all_streams" =
    some (.bool preset.preserveAllStreams)

/-- The items of `presets` in a document. -/
def documentPresets (document : Document) : List Document :=
  match document.field? "presets" with
  | some (.array items) => items
  | _ => []

/-- The document is read, migrated and accepted, and the library has its presets. -/
def MigratesFaithfully (lowercase : String → String) (parseUuid : String → Option Uuid)
    (document : Document) : Prop :=
  ∃ library, PresetLibrary.ofDocument parseUuid document = some library ∧
    library.migrateLegacy.validate lowercase = .ok () ∧
    List.Forall₂ (SamePreset parseUuid) (documentPresets document) library.migrateLegacy.presets

section Migration

variable {lowercase : String → String} {parseUuid : String → Option Uuid} {document : Document}
  {library : PresetLibrary} {preset : ConversionPreset}

/-- A version the schema fixes to 1 is read as 1, and only from the plain literal. -/
theorem readU16_of_const {n : UInt16} (hconst : Schema.const 1 document = true)
    (hread : readU16 document = some n) : document = .number (.integer 1) ∧ n = 1 := by
  cases document with
  | number literal =>
    cases literal with
    | integer value =>
      have hvalue : value = 1 := by
        simpa [Schema.const, NumberLiteral.value] using hconst
      subst hvalue
      simp only [readU16, readUnsigned] at hread
      exact ⟨rfl, (Option.some.inj hread).symm⟩
    | decimal value => simp [readU16, readUnsigned] at hread
  | _ => simp [Schema.const] at hconst

theorem ofDocument_library (h : PresetLibrary.ofDocument parseUuid document = some library) :
    (document.field? "schema_version").bind readU16 = some library.schemaVersion ∧
    (document.field? "presets").bind (readArray (ConversionPreset.ofDocument parseUuid)) =
      some library.presets := by
  cases document with
  | object entries =>
    simp only [PresetLibrary.ofDocument, requiredField, Option.bind_eq_bind,
      Option.bind_eq_some_iff] at h
    obtain ⟨-, -, version, hversion, presets, hpresets, _, -, hlibrary⟩ := h
    cases hlibrary
    exact ⟨Option.bind_eq_some_iff.mpr hversion, Option.bind_eq_some_iff.mpr hpresets⟩
  | _ => simp [PresetLibrary.ofDocument] at h

theorem ofDocument_preset (h : ConversionPreset.ofDocument parseUuid document = some preset) :
    (document.field? "schema_version").bind readU16 = some preset.schemaVersion := by
  cases document with
  | object entries =>
    simp only [ConversionPreset.ofDocument, requiredField, Option.bind_eq_bind,
      Option.bind_eq_some_iff] at h
    obtain ⟨-, -, version, hversion, _, -, _, -, _, -, _, -, _, -, _, -, _, -, _, -, _, -, _, -,
      _, -, hpreset⟩ := h
    cases hpreset
    exact Option.bind_eq_some_iff.mpr hversion
  | _ => simp [ConversionPreset.ofDocument] at h

theorem schemaVersion_of_v1Preset (hvalid : v1PresetSchema document = true)
    (h : ConversionPreset.ofDocument parseUuid document = some preset) :
    preset.schemaVersion = 1 := by
  obtain ⟨value, hfield, hconst⟩ := Schema.field_of_object hvalid (by simp [v1PresetProperties])
    (show v1PresetProperties.lookup "schema_version" = some (.const 1) from rfl)
  have hversion := ofDocument_preset h
  rw [hfield] at hversion
  exact (readU16_of_const hconst hversion).2

/-- A valid library that was migrated from version 1 holds no preset of version 1. -/
theorem not_mem_migrated (hvalid : library.migrateLegacy.validate lowercase = .ok ())
    (hversion : library.schemaVersion = 1) (hpreset : preset ∈ library.presets) :
    preset.schemaVersion ≠ 1 := by
  rw [validate_eq_ok] at hvalid
  have hchecked := hvalid.presets preset (by rw [PresetLibrary.migrateLegacy, if_pos hversion]; exact hpreset)
  simp only [ConversionPreset.validate, bind_eq_ok, failWhen_eq_ok, not_not] at hchecked
  obtain ⟨-, hsame, -⟩ := hchecked
  rw [hsame]
  decide

/-- A document of version 1 without presets is read as such a library. -/
theorem ofDocument_of_empty (hvalid : v1Schema document = true)
    (hpresets : document.field? "presets" = some (.array []))
    (hversion : document.field? "schema_version" = some (.number (.integer 1))) :
    PresetLibrary.ofDocument parseUuid document = some ⟨1, [], []⟩ := by
  obtain ⟨entries, rfl, hdistinct, -, hentries⟩ := Schema.object_eq_true.mp hvalid
  have hknown : ∀ entry ∈ entries, entry.1 = "schema_version" ∨ entry.1 = "presets" := by
    intro entry hentry
    have haccepted := hentries entry hentry
    by_contra hunknown
    rw [not_or] at hunknown
    have hnone : v1Properties.lookup entry.1 = none := by
      simp [v1Properties, hunknown.1, hunknown.2]
    rw [hnone] at haccepted
    cases haccepted
  have honly : onlyFields entries ["schema_version", "presets", "shell_verbs"] = true := by
    refine decide_eq_true fun entry hentry => ?_
    rcases hknown entry hentry with hkey | hkey <;> simp [hkey]
  have hverbs : entries.lookup "shell_verbs" = none := by
    refine List.lookup_eq_none_iff.mpr fun entry hentry => ?_
    rcases hknown entry hentry with hkey | hkey <;> simp [hkey]
  have hunique : distinctFields entries = true := decide_eq_true hdistinct
  rw [Document.field?] at hpresets hversion
  simp only [PresetLibrary.ofDocument, requiredField, defaultedField, hpresets, hversion, hverbs,
    honly, hunique]
  rfl

/-- **Migration.** A document of version 1 is read, migrated and accepted with its presets
    exactly when it has no presets and writes its version as a plain `1`. -/
theorem migration_faithful_iff (lowercase : String → String) (parseUuid : String → Option Uuid)
    (document : Document) (hvalid : v1Schema document = true) :
    MigratesFaithfully lowercase parseUuid document ↔
      document.field? "presets" = some (.array []) ∧
      document.field? "schema_version" = some (.number (.integer 1)) := by
  constructor
  · rintro ⟨library, hread, hchecked, -⟩
    obtain ⟨version, hversion, hconst⟩ := Schema.field_of_object hvalid (by simp)
      (show v1Properties.lookup "schema_version" = some (.const 1) from rfl)
    obtain ⟨presets, hpresets, harray⟩ := Schema.field_of_object hvalid (by simp)
      (show v1Properties.lookup "presets" = some (.array 4096 v1PresetSchema) from rfl)
    obtain ⟨hreadVersion, hreadPresets⟩ := ofDocument_library hread
    rw [hversion] at hreadVersion
    rw [hpresets] at hreadPresets
    obtain ⟨rfl, hone⟩ := readU16_of_const hconst hreadVersion
    rw [hpresets]
    refine ⟨?_, hversion⟩
    cases presets with
    | array items =>
      cases items with
      | nil => rfl
      | cons item rest =>
        -- the first preset is read with version 1, which the checks refuse
        have hitem : v1PresetSchema item = true := by
          simp only [Schema.array, decide_eq_true_eq] at harray
          exact harray.2 item List.mem_cons_self
        simp only [Option.bind_some, readArray, List.mapM_cons, Option.bind_eq_bind,
          Option.bind_eq_some_iff] at hreadPresets
        obtain ⟨preset, hpreset, others, -, hlist⟩ := hreadPresets
        have hmem : preset ∈ library.presets := by
          rw [← Option.some.inj hlist]
          exact List.mem_cons_self
        exact absurd (schemaVersion_of_v1Preset hitem hpreset)
          (not_mem_migrated hchecked hone hmem)
    | _ => simp [Schema.array] at harray
  · rintro ⟨hnone, hplain⟩
    refine ⟨_, ofDocument_of_empty hvalid hnone hplain, rfl, ?_⟩
    rw [documentPresets, hnone]
    exact List.Forall₂.nil

end Migration

namespace Sample

/-- The identifier of a hyphenated lower case text. -/
def parseUuid (text : String) : Option Uuid := some (BitVec.ofNat 128 (hexValue text.toList))

/-- A preset of version 1. -/
def v1Preset : Document :=
  .object [("schema_version", .number (.integer 1)),
    ("preset_id", .string "00000000-0000-4000-8000-000000000001"), ("name", .string "Web"),
    ("target_format", .string "webp"), ("quality", .number (.integer 78)), ("width", .null),
    ("dpi", .null), ("color_mode", .string "rgb"), ("video_crf", .null), ("video_preset", .null),
    ("audio_bitrate_kbps", .null), ("preserve_all_streams", .bool true)]

/-- A library of version 1. -/
def v1Library (presets : List Document) : Document :=
  .object [("schema_version", .number (.integer 1)), ("presets", .array presets)]

/-- A library of version 1 with one preset is read, and refused after its migration. -/
theorem migration_loses_presets :
    v1Schema (v1Library [v1Preset]) = true ∧
    ((PresetLibrary.ofDocument parseUuid (v1Library [v1Preset])).map fun library =>
      library.migrateLegacy.validate toAsciiLowercase) =
        some (.error (invalidPreset "Unsupported preset schema version"
          "Export the preset again from a compatible Anole version.")) ∧
    ¬ MigratesFaithfully toAsciiLowercase parseUuid (v1Library [v1Preset]) := by
  have hrefused : ((PresetLibrary.ofDocument parseUuid (v1Library [v1Preset])).map fun library =>
      library.migrateLegacy.validate toAsciiLowercase) =
        some (.error (invalidPreset "Unsupported preset schema version"
          "Export the preset again from a compatible Anole version.")) := by decide
  refine ⟨by decide, hrefused, ?_⟩
  rintro ⟨library, hread, hchecked, -⟩
  rw [hread, Option.map_some, hchecked] at hrefused
  cases hrefused

theorem migration_faithful_iff_empty :
    MigratesFaithfully toAsciiLowercase parseUuid (v1Library []) ↔
      (v1Library []).field? "presets" = some (.array []) ∧
      (v1Library []).field? "schema_version" = some (.number (.integer 1)) :=
  migration_faithful_iff toAsciiLowercase parseUuid (v1Library []) (by decide)

end Sample

end Preset

end Anole
