import Anole.Store.Jobs

/-!
# The preset library

Model of `crates/core/src/preset.rs`: conversion presets, the bindings that point
Explorer verbs at them, the checks of a library and its operations `upsert`,
`remove` and `merge`. `lowercase` stands for `str::to_lowercase`; the results hold
for every such function.

Results:
* `validate_eq_ok`: the checks of a library are the fields of `Valid`.
* `upserted_eq_ok`: when `upsert` succeeds on a valid library, and its effect.
* `stays_valid_iff`: a run of calls keeps a valid library valid, and failing calls
  leave it as it was, exactly when no `remove` of the run names a preset that a
  binding points at.

**Deviation.** `remove` takes out a preset and leaves the bindings that point at it,
which `validate` rejects. The library then refuses every later `upsert` and `merge`
(`Sample.remove_orphans_binding`).
-/

open Common

namespace Anole

namespace Preset

/-! ## Presets -/

/-- `PRESET_SCHEMA_VERSION` (line 6). -/
def presetSchemaVersion : UInt16 := 2

/-- `ShellVerbBinding` (lines 8–20). -/
structure ShellVerbBinding where
  verbId : String
  enabled : Bool
  presetId : Option Uuid

/-- `ConversionPreset` (lines 26–44). -/
structure ConversionPreset where
  schemaVersion : UInt16
  presetId : Uuid
  name : String
  targetFormat : String
  quality : Option UInt8
  width : Option UInt32
  dpi : Option UInt16
  colorMode : Option String
  videoCrf : Option UInt8
  videoPreset : Option String
  audioBitrateKbps : Option UInt32
  preserveAllStreams : Bool

/-- `invalid_preset` (lines 332–334). -/
def invalidPreset (message action : String) : AnoleError :=
  .new .inputInvalid .store message action

/-- The x264 speed presets `ConversionPreset::validate` accepts (lines 119–131). -/
def speedPresets : List String :=
  ["ultrafast", "superfast", "veryfast", "faster", "fast", "medium", "slow", "slower", "veryslow"]

/-- `ConversionPreset::validate` (lines 53–148). The bytes of a text are ASCII lower
    case letters and digits exactly when its characters are. -/
def ConversionPreset.validate (preset : ConversionPreset) : Except AnoleError Unit := do
  failWhen (preset.schemaVersion ≠ presetSchemaVersion)
    (invalidPreset "Unsupported preset schema version"
      "Export the preset again from a compatible Anole version.")
  let name := trim preset.name
  failWhen (name.toList = [] ∨ 80 < name.toList.length ∨ name.toList.any isControl)
    (invalidPreset "Preset name must contain 1 to 80 printable characters"
      "Choose a shorter visible name.")
  failWhen (preset.targetFormat.toList = [] ∨ 16 < preset.targetFormat.utf8ByteSize ∨
      ¬ preset.targetFormat.toList.all fun c => c.isLower || c.isDigit)
    (invalidPreset "Preset target format must be a lowercase format identifier"
      "Use a target such as webp, mp4, pdf, or yaml.")
  failWhen (preset.quality.any fun quality => ¬ (1 ≤ quality ∧ quality ≤ 100))
    (invalidPreset "Preset quality must be between 1 and 100" "Choose a supported quality value.")
  failWhen (preset.width.any fun width => ¬ (1 ≤ width ∧ width ≤ 16384))
    (invalidPreset "Preset width must be between 1 and 16384 pixels"
      "Choose a supported output width.")
  failWhen (preset.dpi.any fun dpi => ¬ (36 ≤ dpi ∧ dpi ≤ 600))
    (invalidPreset "Preset DPI must be between 36 and 600"
      "Choose a supported rendering resolution.")
  failWhen (preset.colorMode.any fun mode => mode ∉ ["rgb", "gray"])
    (invalidPreset "Preset color mode must be rgb or gray" "Choose a supported color mode.")
  failWhen (preset.videoCrf.any fun crf => crf > 51)
    (invalidPreset "Preset video CRF must be between 0 and 51" "Choose a supported CRF value.")
  failWhen (preset.videoPreset.any fun speed => speed ∉ speedPresets)
    (invalidPreset "Preset video preset must be an x264 speed preset"
      "Choose a supported encode preset.")
  failWhen (preset.audioBitrateKbps.any fun kbps => ¬ (8 ≤ kbps ∧ kbps ≤ 320))
    (invalidPreset "Preset audio bitrate must be between 8 and 320 kbps"
      "Choose a supported bitrate.")

/-! ## Libraries -/

/-- `PresetLibrary` (lines 151–160). -/
structure PresetLibrary where
  schemaVersion : UInt16
  presets : List ConversionPreset
  shellVerbs : List ShellVerbBinding

/-- The name under which a library keeps a preset apart from the others. -/
def foldedName (lowercase : String → String) (preset : ConversionPreset) : String :=
  lowercase (trim preset.name)

/-- The loop over the presets in `PresetLibrary::validate` (lines 193–207), with the
    ids and names seen so far. -/
def validatePresets (lowercase : String → String) (ids : List Uuid) (names : List String) :
    List ConversionPreset → Except AnoleError Unit
  | [] => .ok ()
  | preset :: rest => do
    preset.validate
    failWhen (preset.presetId ∈ ids)
      (invalidPreset "Preset library contains a duplicate preset ID"
        "Remove the duplicate entry and import again.")
    failWhen (foldedName lowercase preset ∈ names)
      (invalidPreset "Preset names must be unique"
        "Rename duplicate presets and import again.")
    validatePresets lowercase (preset.presetId :: ids) (foldedName lowercase preset :: names) rest

/-- The verb id is made of the characters of verb ids (lines 216–221). -/
def validVerbId (verbId : String) : Bool :=
  verbId.toList ≠ [] ∧ verbId.utf8ByteSize ≤ 64 ∧
    verbId.toList.all fun c => c.isAlphanum || c = '.' || c = '_'

/-- The loop over the bindings in `PresetLibrary::validate` (lines 215–245), with the
    verb ids seen so far. -/
def validateBindings (presets : List ConversionPreset) (verbIds : List String) :
    List ShellVerbBinding → Except AnoleError Unit
  | [] => .ok ()
  | binding :: rest => do
    failWhen (¬ validVerbId binding.verbId)
      (invalidPreset "Shell-verb binding has an invalid verb ID"
        "Reset the Explorer menu configuration and retry.")
    failWhen (binding.verbId ∈ verbIds)
      (invalidPreset "Shell-verb binding IDs must be unique"
        "Reset the Explorer menu configuration and retry.")
    failWhen (binding.presetId.any fun presetId =>
        ¬ presets.any fun preset => preset.presetId = presetId)
      (invalidPreset "Shell-verb binding points at a preset that is not in this library"
        "Import the preset first, then rebind the Explorer verb.")
    validateBindings presets (binding.verbId :: verbIds) rest

/-- `PresetLibrary::validate` (lines 178–247). -/
def PresetLibrary.validate (lowercase : String → String) (library : PresetLibrary) :
    Except AnoleError Unit := do
  failWhen (library.schemaVersion ≠ presetSchemaVersion)
    (invalidPreset "Unsupported preset-library schema version"
      "Export the library again from a compatible Anole version.")
  failWhen (4096 < library.presets.length)
    (invalidPreset "Preset library cannot contain more than 4096 entries"
      "Split the library or remove unused presets.")
  validatePresets lowercase [] [] library.presets
  failWhen (64 < library.shellVerbs.length)
    (invalidPreset "Preset library cannot carry more than 64 shell-verb bindings"
      "Remove unused Explorer menu bindings and import again.")
  validateBindings library.presets [] library.shellVerbs

/-! ## Operations -/

/-- The preset `upsert` stores for its argument (lines 268–270). -/
def ConversionPreset.normalized (preset : ConversionPreset) : ConversionPreset :=
  { preset with
    name := trim preset.name, targetFormat := toAsciiLowercase preset.targetFormat }

/-- The order of the presets of a library (lines 291–296). -/
def storedBefore (lowercase : String → String) (left right : ConversionPreset) : Prop :=
  lowercase left.name < lowercase right.name ∨
    (lowercase left.name = lowercase right.name ∧ left.presetId ≤ right.presetId)

instance (lowercase : String → String) : DecidableRel (storedBefore lowercase) :=
  fun _ _ => inferInstanceAs (Decidable (_ ∨ _))

/-- The library `upsert` makes (lines 268–297). -/
def PresetLibrary.upserted (lowercase : String → String) (library : PresetLibrary)
    (preset : ConversionPreset) : Except AnoleError PresetLibrary := do
  let preset := preset.normalized
  preset.validate
  failWhen (∃ candidate ∈ library.presets, candidate.presetId ≠ preset.presetId ∧
      lowercase candidate.name = lowercase preset.name)
    (invalidPreset "A preset with this name already exists"
      "Choose a unique preset name or edit the existing preset.")
  let updated : PresetLibrary :=
    { library with
      presets := (Table.upsert ConversionPreset.presetId preset library.presets).insertionSort
        (storedBefore lowercase) }
  updated.validate lowercase
  return updated

/-- `PresetLibrary::upsert` (lines 267–300). -/
def PresetLibrary.upsert (lowercase : String → String) (library : PresetLibrary)
    (preset : ConversionPreset) : Except AnoleError Unit × PresetLibrary :=
  match library.upserted lowercase preset with
  | .error error => (.error error, library)
  | .ok updated => (.ok (), updated)

/-- `PresetLibrary::remove` (lines 302–306). -/
def PresetLibrary.remove (library : PresetLibrary) (presetId : Uuid) : Bool × PresetLibrary :=
  let presets := library.presets.filter fun preset => preset.presetId ≠ presetId
  (library.presets.length ≠ presets.length, { library with presets := presets })

/-- The library `merge` makes, and its count (lines 315–322). -/
def PresetLibrary.merged (lowercase : String → String) (library imported : PresetLibrary) :
    Except AnoleError (ℕ × PresetLibrary) := do
  imported.validate lowercase
  let merged ← imported.presets.foldlM (PresetLibrary.upserted lowercase) library
  return (imported.presets.length, merged)

/-- `PresetLibrary::merge` (lines 314–323). -/
def PresetLibrary.merge (lowercase : String → String) (library imported : PresetLibrary) :
    Except AnoleError ℕ × PresetLibrary :=
  match library.merged lowercase imported with
  | .error error => (.error error, library)
  | .ok (count, merged) => (.ok count, merged)

/-! ## Valid libraries -/

/-- A library that passes `validate`. -/
structure PresetLibrary.Valid (lowercase : String → String) (library : PresetLibrary) : Prop where
  version : library.schemaVersion = presetSchemaVersion
  count : library.presets.length ≤ 4096
  presets : ∀ preset ∈ library.presets, preset.validate = .ok ()
  ids : Table.Keyed ConversionPreset.presetId library.presets
  names : Table.Keyed (foldedName lowercase) library.presets
  verbCount : library.shellVerbs.length ≤ 64
  verbs : ∀ binding ∈ library.shellVerbs, validVerbId binding.verbId
  verbIds : Table.Keyed ShellVerbBinding.verbId library.shellVerbs
  bound : ∀ binding ∈ library.shellVerbs, ∀ presetId ∈ binding.presetId,
    ∃ preset ∈ library.presets, preset.presetId = presetId

section Checks

variable {lowercase : String → String} {library imported updated : PresetLibrary}
  {preset : ConversionPreset} {u : Unit} {presets : List ConversionPreset}

/-- The loop over the presets checks each, and each column against the values seen. -/
theorem validatePresets_eq_ok {ids : List Uuid}
    {names : List String} :
    validatePresets lowercase ids names presets = .ok u ↔
      (∀ preset ∈ presets, preset.validate = .ok ()) ∧
      (Table.Keyed ConversionPreset.presetId presets ∧
        ∀ preset ∈ presets, preset.presetId ∉ ids) ∧
      (Table.Keyed (foldedName lowercase) presets ∧
        ∀ preset ∈ presets, foldedName lowercase preset ∉ names) := by
  induction presets generalizing ids names with
  | nil => simp [validatePresets, Table.Keyed]
  | cons preset rest ih =>
    simp only [validatePresets, bind_eq_ok, failWhen_eq_ok, ih, Table.Keyed, List.map_cons,
      List.nodup_cons, List.mem_map, List.mem_cons, not_or, forall_eq_or_imp, not_exists, not_and]
    grind

theorem validateBindings_eq_ok {verbIds : List String}
    {bindings : List ShellVerbBinding} :
    validateBindings presets verbIds bindings = .ok u ↔
      (∀ binding ∈ bindings, validVerbId binding.verbId) ∧
      (Table.Keyed ShellVerbBinding.verbId bindings ∧
        ∀ binding ∈ bindings, binding.verbId ∉ verbIds) ∧
      ∀ binding ∈ bindings, ∀ presetId ∈ binding.presetId,
        ∃ preset ∈ presets, preset.presetId = presetId := by
  induction bindings generalizing verbIds with
  | nil => simp [validateBindings, Table.Keyed]
  | cons binding rest ih =>
    simp only [validateBindings, bind_eq_ok, failWhen_eq_ok, ih, Table.Keyed, List.map_cons,
      List.nodup_cons, List.mem_map, List.mem_cons, not_or, forall_eq_or_imp, not_exists, not_and,
      not_not, Option.any_eq_true, List.any_eq_true, decide_eq_true_eq, Option.mem_def]
    grind

theorem validate_eq_ok : library.validate lowercase = .ok u ↔ library.Valid lowercase := by
  simp only [PresetLibrary.validate, bind_eq_ok, failWhen_eq_ok, validatePresets_eq_ok,
    validateBindings_eq_ok, not_lt, not_not, List.not_mem_nil, not_false_iff, implies_true, and_true]
  constructor
  · rintro ⟨-, hversion, -, hcount, -, ⟨hpresets, hids, hnames⟩, -, hverbCount, hverbs, hverbIds,
      hbound⟩
    exact ⟨hversion, hcount, hpresets, hids, hnames, hverbCount, hverbs, hverbIds, hbound⟩
  · intro h
    exact ⟨(), h.version, (), h.count, (), ⟨h.presets, h.ids, h.names⟩, (), h.verbCount, h.verbs,
      h.verbIds, h.bound⟩

/-! ## `upsert` and `merge` on valid libraries -/

theorem PresetLibrary.Valid.of_perm
    (h : library.Valid lowercase) (hperm : library.presets.Perm presets) :
    PresetLibrary.Valid lowercase { library with presets := presets } where
  version := h.version
  count := hperm.length_eq ▸ h.count
  presets := fun preset hpreset => h.presets preset (hperm.mem_iff.mpr hpreset)
  ids := (hperm.map _).nodup_iff.mp h.ids
  names := (hperm.map _).nodup_iff.mp h.names
  verbCount := h.verbCount
  verbs := h.verbs
  verbIds := h.verbIds
  bound := by
    intro binding hbinding presetId hpresetId
    obtain ⟨preset, hpreset, hid⟩ := h.bound binding hbinding presetId hpresetId
    exact ⟨preset, hperm.mem_iff.mp hpreset, hid⟩

@[simp] theorem foldedName_normalized : foldedName lowercase preset.normalized =
    foldedName lowercase preset := by
  rw [foldedName, ConversionPreset.normalized, trim_trim]; rfl

/-- The presets of a library besides one. -/
def PresetLibrary.others (library : PresetLibrary) (presetId : Uuid) : List ConversionPreset :=
  library.presets.filter fun preset => preset.presetId ≠ presetId

/-- The presets `upsert` stores. -/
def PresetLibrary.stored (lowercase : String → String) (library : PresetLibrary)
    (preset : ConversionPreset) : List ConversionPreset :=
  (Table.upsert ConversionPreset.presetId preset.normalized library.presets).insertionSort
    (storedBefore lowercase)

theorem PresetLibrary.Valid.stored_perm (h : library.Valid lowercase) :
    (library.stored lowercase preset).Perm (preset.normalized :: library.others preset.presetId) :=
  (List.perm_insertionSort _ _).trans h.ids.upsert_perm

/-- The preset's name is taken by a preset with another id, as `upsert` compares names:
    its own comparison, or that of `validate`. -/
def NameTaken (lowercase : String → String) (preset candidate : ConversionPreset) : Prop :=
  candidate.presetId ≠ preset.presetId ∧
    (lowercase candidate.name = foldedName lowercase preset ∨
      foldedName lowercase candidate = foldedName lowercase preset)

instance (lowercase : String → String) : DecidableRel (NameTaken lowercase) :=
  fun _ _ => inferInstanceAs (Decidable (_ ∧ _))

theorem PresetLibrary.Valid.stored_iff (h : library.Valid lowercase)
    (hpreset : preset.normalized.validate = .ok ()) :
    PresetLibrary.Valid lowercase { library with presets := library.stored lowercase preset } ↔
      (library.others preset.presetId).length < 4096 ∧
      ∀ candidate ∈ library.presets, candidate.presetId ≠ preset.presetId →
        foldedName lowercase candidate ≠ foldedName lowercase preset := by
  have hperm : (library.stored lowercase preset).Perm
      (preset.normalized :: library.others preset.presetId) := h.stored_perm
  have hmem : ∀ candidate, candidate ∈ library.others preset.presetId ↔
      candidate ∈ library.presets ∧ candidate.presetId ≠ preset.presetId := by
    intro candidate
    rw [PresetLibrary.others, List.mem_filter, decide_eq_true_iff]
  constructor
  · intro hstored
    have hvalid := hstored.of_perm hperm
    refine ⟨hvalid.count, fun candidate hcandidate hid hname => ?_⟩
    have hnames := (List.nodup_cons.mp hvalid.names).1
    refine hnames (List.mem_map.mpr ⟨candidate, (hmem candidate).mpr ⟨hcandidate, hid⟩, ?_⟩)
    rw [foldedName_normalized]; exact hname
  · rintro ⟨hcount, hnames⟩
    have hothers : (library.others preset.presetId).Sublist library.presets := List.filter_sublist
    suffices hcons : PresetLibrary.Valid lowercase
        { library with presets := preset.normalized :: library.others preset.presetId } from
      hcons.of_perm hperm.symm
    refine ⟨h.version, hcount, ?_, ?_, ?_, h.verbCount, h.verbs, h.verbIds, ?_⟩
    · intro candidate hcandidate
      rcases List.mem_cons.mp hcandidate with rfl | hcandidate
      · exact hpreset
      · exact h.presets candidate (hothers.subset hcandidate)
    · refine List.nodup_cons.mpr ⟨fun hid => ?_, h.ids.sublist (hothers.map _)⟩
      obtain ⟨candidate, hcandidate, hid⟩ := List.mem_map.mp hid
      exact ((hmem candidate).mp hcandidate).2 hid
    · refine List.nodup_cons.mpr ⟨fun hname => ?_, h.names.sublist (hothers.map _)⟩
      obtain ⟨candidate, hcandidate, hname⟩ := List.mem_map.mp hname
      rw [foldedName_normalized] at hname
      obtain ⟨hmember, hid⟩ := (hmem candidate).mp hcandidate
      exact hnames candidate hmember hid hname
    · intro binding hbinding presetId hpresetId
      obtain ⟨candidate, hcandidate, hid⟩ := h.bound binding hbinding presetId hpresetId
      by_cases hsame : candidate.presetId = preset.presetId
      · exact ⟨preset.normalized, by simp, hsame.symm.trans hid⟩
      · exact ⟨candidate, List.mem_cons_of_mem _ ((hmem candidate).mpr ⟨hcandidate, hsame⟩), hid⟩

/-- `upsert` on a valid library: the preset is valid in its normal form, no other preset
    has its name, and there is room. -/
theorem upserted_eq_ok (h : library.Valid lowercase) :
    library.upserted lowercase preset = .ok updated ↔
      preset.normalized.validate = .ok () ∧
      (library.others preset.presetId).length < 4096 ∧
      (∀ candidate ∈ library.presets, ¬ NameTaken lowercase preset candidate) ∧
      updated = { library with presets := library.stored lowercase preset } := by
  simp only [PresetLibrary.upserted, bind_eq_ok, failWhen_eq_ok, validate_eq_ok]
  constructor
  · rintro ⟨_, hpreset, _, hnames, _, hvalid, hupdated⟩
    cases hupdated
    have hstored := (h.stored_iff hpreset).mp hvalid
    refine ⟨hpreset, hstored.1, ?_, rfl⟩
    rintro candidate hcandidate ⟨hid, hname | hname⟩
    · exact hnames ⟨candidate, hcandidate, hid, hname⟩
    · exact hstored.2 candidate hcandidate hid hname
  · rintro ⟨hpreset, hcount, hnames, rfl⟩
    refine ⟨(), hpreset, (), ?_, (), (h.stored_iff hpreset).mpr ⟨hcount, ?_⟩, rfl⟩
    · rintro ⟨candidate, hcandidate, hid, hname⟩
      exact hnames candidate hcandidate ⟨hid, .inl hname⟩
    · intro candidate hcandidate hid hname
      exact hnames candidate hcandidate ⟨hid, .inr hname⟩

/-- `upsert` checks the library it makes. -/
theorem upserted_valid (h : library.upserted lowercase preset = .ok updated) :
    updated.Valid lowercase := by
  simp only [PresetLibrary.upserted, bind_eq_ok, validate_eq_ok] at h
  obtain ⟨_, -, _, -, _, hvalid, hupdated⟩ := h
  cases hupdated
  exact hvalid

/-- `merge` keeps a library valid, upsert by upsert. -/
theorem merged_valid {count : ℕ} (h : library.Valid lowercase)
    (hmerged : library.merged lowercase imported = .ok (count, updated)) :
    updated.Valid lowercase := by
  simp only [PresetLibrary.merged, bind_eq_ok] at hmerged
  obtain ⟨_, -, merged, hfold, hresult⟩ := hmerged
  cases hresult
  exact foldlM_invariant hfold h fun _ _ hupserted => upserted_valid hupserted

/-! ## Runs of calls -/

/-- A call of one of the operations that change a library. -/
inductive PresetCall where
  | upsert (preset : ConversionPreset)
  | remove (presetId : Uuid)
  | merge (imported : PresetLibrary)

/-- Whether the call returns `Ok` (`true` for `remove`), and the library after it. -/
def PresetLibrary.call (lowercase : String → String) (library : PresetLibrary) :
    PresetCall → Bool × PresetLibrary
  | .upsert preset =>
    let (result, library) := library.upsert lowercase preset
    (result.isOk, library)
  | .remove presetId => library.remove presetId
  | .merge imported =>
    let (result, library) := library.merge lowercase imported
    (result.isOk, library)

/-- The library after some calls. -/
def PresetLibrary.afterCalls (lowercase : String → String) (library : PresetLibrary)
    (calls : List PresetCall) : PresetLibrary :=
  calls.foldl (fun library call => (library.call lowercase call).2) library

/-- The call removes a preset that a binding points at. -/
def PresetCall.OrphansBinding (library : PresetLibrary) (call : PresetCall) : Prop :=
  ∃ binding ∈ library.shellVerbs, ∃ presetId ∈ binding.presetId, call = .remove presetId

/-- The call leaves the library valid, and as it was if it failed. -/
def PresetCall.Safe (lowercase : String → String) (library : PresetLibrary) (call : PresetCall) :
    Prop :=
  (library.call lowercase call).2.validate lowercase = .ok () ∧
    ((library.call lowercase call).1 = false → (library.call lowercase call).2 = library)

theorem PresetLibrary.Valid.remove_iff (h : library.Valid lowercase) {presetId : Uuid} :
    PresetLibrary.Valid lowercase (library.remove presetId).2 ↔
      ¬ PresetCall.OrphansBinding library (.remove presetId) := by
  have hkept : (library.remove presetId).2.presets.Sublist library.presets := List.filter_sublist
  constructor
  · rintro hvalid ⟨binding, hbinding, bound, hbound, hcall⟩
    cases hcall
    obtain ⟨preset, hpreset, hid⟩ := hvalid.bound binding hbinding presetId hbound
    have hne := (List.mem_filter.mp hpreset).2
    rw [decide_eq_true_iff] at hne
    exact hne hid
  · intro hfree
    refine ⟨h.version, hkept.length_le.trans h.count, fun preset hpreset =>
      h.presets preset (hkept.subset hpreset), h.ids.sublist (hkept.map _),
      h.names.sublist (hkept.map _), h.verbCount, h.verbs, h.verbIds, ?_⟩
    intro binding hbinding bound hbound
    obtain ⟨preset, hpreset, hid⟩ := h.bound binding hbinding bound hbound
    refine ⟨preset, List.mem_filter.mpr ⟨hpreset, decide_eq_true ?_⟩, hid⟩
    intro hremoved
    exact hfree ⟨binding, hbinding, bound, hbound, by rw [← hid, hremoved]⟩

/-- A `remove` that finds nothing changes nothing. -/
theorem PresetLibrary.remove_eq_self {presetId : Uuid}
    (h : (library.remove presetId).1 = false) : (library.remove presetId).2 = library := by
  have hlength : library.presets.length =
      (library.presets.filter fun preset => preset.presetId ≠ presetId).length := by
    simpa [PresetLibrary.remove] using h
  have hsame : (library.presets.filter fun preset => preset.presetId ≠ presetId) =
      library.presets := List.filter_sublist.eq_of_length hlength.symm
  rw [PresetLibrary.remove, hsame]

/-- **Step.** On a valid library a call is safe exactly when it orphans no binding. -/
theorem PresetLibrary.Valid.safe_iff (h : library.Valid lowercase) {call : PresetCall} :
    call.Safe lowercase library ↔ ¬ call.OrphansBinding library := by
  unfold PresetCall.Safe
  rw [validate_eq_ok]
  cases call with
  | remove presetId =>
    rw [← h.remove_iff]
    exact ⟨fun hsafe => hsafe.1, fun hvalid => ⟨hvalid, PresetLibrary.remove_eq_self⟩⟩
  | upsert preset =>
    have hfree : ¬ PresetCall.OrphansBinding library (.upsert preset) := by
      rintro ⟨_, -, _, -, hcall⟩
      cases hcall
    refine iff_of_true ?_ hfree
    simp only [PresetLibrary.call, PresetLibrary.upsert]
    cases hresult : library.upserted lowercase preset with
    | error error => exact ⟨h, fun _ => rfl⟩
    | ok updated => exact ⟨upserted_valid hresult, fun hfailed => by cases hfailed⟩
  | merge imported =>
    have hfree : ¬ PresetCall.OrphansBinding library (.merge imported) := by
      rintro ⟨_, -, _, -, hcall⟩
      cases hcall
    refine iff_of_true ?_ hfree
    simp only [PresetLibrary.call, PresetLibrary.merge]
    cases hresult : library.merged lowercase imported with
    | error error => exact ⟨h, fun _ => rfl⟩
    | ok result => exact ⟨merged_valid h hresult, fun hfailed => by cases hfailed⟩

/-- **Runs of calls.** From a valid library, every call of a run leaves the library
    valid, and as it was if it failed, exactly when no call of the run removes a preset
    that a binding points at. -/
theorem stays_valid_iff (lowercase : String → String) (library : PresetLibrary)
    (hvalid : library.validate lowercase = .ok ()) (calls : List PresetCall) :
    (∀ past call future, calls = past ++ call :: future →
      call.Safe lowercase (library.afterCalls lowercase past)) ↔
    ∀ past call future, calls = past ++ call :: future →
      ¬ call.OrphansBinding (library.afterCalls lowercase past) := by
  rw [validate_eq_ok] at hvalid
  induction calls generalizing library with
  | nil => simp
  | cons first rest ih =>
    -- the calls after the first start from the library that it leaves
    have hsplit : ∀ P : PresetLibrary → PresetCall → Prop,
        (∀ past call future, first :: rest = past ++ call :: future →
          P (library.afterCalls lowercase past) call) ↔
        P library first ∧ ∀ past call future, rest = past ++ call :: future →
          P ((library.call lowercase first).2.afterCalls lowercase past) call := by
      intro P
      constructor
      · intro h
        refine ⟨h [] first rest rfl, fun past call future hrest => ?_⟩
        exact h (first :: past) call future (by rw [hrest]; rfl)
      · rintro ⟨hfirst, hrest⟩ past call future hcalls
        cases past with
        | nil =>
          cases hcalls
          exact hfirst
        | cons _ past =>
          rw [List.cons_append, List.cons.injEq] at hcalls
          obtain ⟨rfl, hcalls⟩ := hcalls
          exact hrest past call future hcalls
    rw [hsplit fun library call => call.Safe lowercase library,
      hsplit fun library call => ¬ call.OrphansBinding library, hvalid.safe_iff]
    refine and_congr_right fun hfree => ih _ ?_
    exact validate_eq_ok.mp (hvalid.safe_iff.mpr hfree).1

end Checks

namespace Sample

-- on the ASCII names of the samples `str::to_lowercase` is `str::to_ascii_lowercase`

def preset (presetId : Uuid) (name : String) : ConversionPreset :=
  { schemaVersion := 2, presetId := presetId, name := name, targetFormat := "webp",
    quality := some 78, width := none, dpi := none, colorMode := none, videoCrf := none,
    videoPreset := none, audioBitrateKbps := none, preserveAllStreams := true }

/-- One preset, and an Explorer verb that uses it. -/
def library : PresetLibrary :=
  { schemaVersion := 2, presets := [preset 1 "Web"],
    shellVerbs := [{ verbId := "Anole.ToWebp", enabled := true, presetId := some 1 }] }

theorem library_valid : library.validate toAsciiLowercase = .ok () := by decide

/-- Removing the bound preset of a valid library leaves a library that is not valid, and
    that refuses a preset any library can hold. -/
theorem remove_orphans_binding :
    library.validate toAsciiLowercase = .ok () ∧
    (library.call toAsciiLowercase (.remove 1)).1 = true ∧
    (library.call toAsciiLowercase (.remove 1)).2.validate toAsciiLowercase =
      .error (invalidPreset
        "Shell-verb binding points at a preset that is not in this library"
        "Import the preset first, then rebind the Explorer verb.") ∧
    ¬ (∀ past call future, [PresetCall.remove 1] = past ++ call :: future →
      call.Safe toAsciiLowercase (library.afterCalls toAsciiLowercase past)) ∧
    ((library.call toAsciiLowercase (.remove 1)).2.call toAsciiLowercase (.upsert (preset 2 "Mail"))).1 =
      false := by
  have hinvalid : (library.call toAsciiLowercase (.remove 1)).2.validate toAsciiLowercase =
      .error (invalidPreset
        "Shell-verb binding points at a preset that is not in this library"
        "Import the preset first, then rebind the Explorer verb.") := by decide
  refine ⟨library_valid, by decide, hinvalid, fun hsafe => ?_, by decide⟩
  have hvalid := (hsafe [] (.remove 1) [] rfl).1
  rw [show library.afterCalls toAsciiLowercase [] = library from rfl, hinvalid] at hvalid
  cases hvalid

theorem stays_valid_iff_remove :
    (∀ past call future, [PresetCall.remove 1] = past ++ call :: future →
      call.Safe toAsciiLowercase (library.afterCalls toAsciiLowercase past)) ↔
    ∀ past call future, [PresetCall.remove 1] = past ++ call :: future →
      ¬ call.OrphansBinding (library.afterCalls toAsciiLowercase past) :=
  stays_valid_iff toAsciiLowercase library library_valid [.remove 1]

end Sample

end Preset

end Anole
