import Anole.Engine.Registry

/-!
# Downgrades of engines

`EngineRegistry::rollback` (`crates/core/src/engine_registry.rs`, lines 318–366) and the order
of `installed_versions` (lines 169–235).

* `rollback_needs_authorization_iff`: when a rollback that is not authorised keeps the active
  version from being undercut.

**Deviation.** A part such as `1-39` is compared as text, and the guard is skipped when the
active pack no longer verifies (`Sample.rollback_downgrades`).
-/

open Common Common.Proc

namespace Anole

namespace EngineRegistry

/-! ## The order of the installed versions -/

theorem mem_insertVersion {version other : InstalledEngineVersion}
    {versions : List InstalledEngineVersion} (h : other ∈ insertVersion version versions) :
    other = version ∨ other ∈ versions := by
  induction versions with
  | nil => exact .inl (List.mem_singleton.mp h)
  | cons first rest ih =>
    unfold insertVersion at h
    split at h
    · exact List.mem_cons.mp h
    · exact (List.mem_cons.mp h).imp_right (List.mem_cons_of_mem _)
    · rcases List.mem_cons.mp h with h | h
      · exact .inr (h ▸ List.mem_cons_self)
      · exact (ih h).imp_right (List.mem_cons_of_mem _)

/-! ## The guard of a rollback -/

section Guard

variable {codec : RegistryCodec} {tools : PackTools} {disk : PackDisk}
  {registered : RegisteredEngines} {files : RegistryDirectory} {stems : List String}
  {engineId version : String} {target : InstalledEngineVersion} {allowDowngrade : Bool}
  {nonce : Uuid} {entries : List EngineRegistryIdentity} {active : EngineRegistryIdentity}

/-- The pack of a rollback's target verifies, its names are unclaimed, and the pointer to it
    can be written. -/
def Activatable (codec : RegistryCodec) (tools : PackTools) (disk : PackDisk)
    (registered : RegisteredEngines) (target : InstalledEngineVersion) : Prop :=
  ∃ verified, verifyEnginePack tools disk target.manifestPath = .ok verified ∧
    Unclaimed registered verified ∧ Writable codec verified

theorem setActive_writable {verified : VerifiedEnginePack} {s : RegistryDirectory} :
    wp (setActive codec .none verified nonce) (fun _ => True) (fun _ _ => True)
      (fun _ _ => Writable codec verified) s := by
  unfold setActive
  rw [wp_bind, wp_tryOp]
  refine ⟨fun _ _ => trivial, fun _ => ⟨trivial, ?_⟩⟩
  rw [wp_bind, wp_lift]
  exact ⟨fun _ _ => trivial, fun bytes hbytes => wp_const ⟨bytes, mapError_eq_ok.mp hbytes⟩⟩

/-- **What a rollback asks for.** -/
theorem rollback_isOk (hentries : readActiveEntries codec files stems = .ok entries)
    (hactive : activeEntry tools disk engineId entries = some active) :
    (∃ verified, (rollback codec .none tools disk registered stems engineId target allowDowngrade
        nonce files).result = .ok verified) ↔
      target.engineId = engineId ∧
        isBlockedDowngrade tools disk target allowDowngrade active = false ∧
        Activatable codec tools disk registered target := by
  constructor
  · rintro ⟨verified, hresult⟩
    have hwp : wp (rollback codec .none tools disk registered stems engineId target allowDowngrade nonce)
        (fun _ => True) (fun _ _ => True)
        (fun _ _ => target.engineId = engineId ∧
          isBlockedDowngrade tools disk target allowDowngrade active = false ∧
          Activatable codec tools disk registered target) files := by
      unfold rollback
      simp only [wp_bind, wp_get, wp_ite, wp_fail, wp_lift, wp_pure]
      refine ⟨fun _ => trivial, fun hengine => ⟨fun _ _ => trivial, fun found hfound => ?_⟩⟩
      rw [hentries] at hfound
      cases hfound
      rw [hactive]
      refine ⟨fun _ => trivial, fun hguard => ⟨fun _ _ => trivial, ?_⟩⟩
      rintro ⟨pack, registered'⟩ hactivate
      obtain ⟨hpack, hregister⟩ := activateEnginePack_eq_ok.mp hactivate
      refine setActive_writable.mono (fun _ h => h) (fun _ _ h => h) fun _ _ hwritable => ?_
      exact ⟨not_not.mp hengine, Bool.eq_false_iff.mpr hguard, pack, hpack,
        registerEnginePackPaths_isOk.mp ⟨registered', hregister⟩, hwritable⟩
    have hsucceeds : Succeeds (rollback codec .none tools disk registered stems engineId target
        allowDowngrade nonce) files verified _ := ⟨hresult, rfl⟩
    exact hsucceeds.of_wp hwp
  · rintro ⟨hengine, hguard, pack, hverified, hunclaimed, hwritable⟩
    have hwp : wp (rollback codec .none tools disk registered stems engineId target allowDowngrade nonce)
        (fun _ => True) (fun _ _ => False) (fun _ _ => True) files := by
      obtain ⟨registered', hregister⟩ := registerEnginePackPaths_isOk.mpr hunclaimed
      have hactivate := activateEnginePack_eq_ok.mpr ⟨hverified, hregister⟩
      unfold rollback
      simp only [wp_bind, wp_get, wp_ite, wp_fail, wp_lift, wp_pure, hentries, hactivate]
      refine ⟨fun hne => absurd hengine hne, fun _ => ⟨fun _ h => (by cases h), ?_⟩⟩
      rintro _ ⟨⟩
      rw [hactive]
      refine ⟨fun hblocked => absurd hblocked (by simp [hguard]), fun _ => ⟨fun _ h => (by cases h), ?_⟩⟩
      rintro _ ⟨⟩
      exact setActive_succeeds_wp hwritable
    obtain ⟨verified, _, hsucceeds, -⟩ := hwp.succeeds
    exact ⟨verified, hsucceeds.1⟩

theorem IsPackVersion.ne_empty {version : String} (h : IsPackVersion version) : version ≠ "" := by
  rintro rfl
  exact (h [] (by decide) [] (by decide)).1 rfl

/-- The guard looks at the version of an active pack that verifies, and at nothing else. -/
theorem isBlockedDowngrade_iff (hversion : manifestVersion tools disk active.manifestPath = some version)
    (hpack : IsPackVersion version) :
    isBlockedDowngrade tools disk target false active = true ↔
      (∃ pack, verifyEnginePack tools disk active.manifestPath = .ok pack) ∧
        (VersionKey.parse target.version).compare (VersionKey.parse version) = .lt := by
  unfold isBlockedDowngrade activeVersion
  cases hverify : verifyEnginePack tools disk active.manifestPath with
  | error error => simp
  | ok pack =>
    have hsame := manifestVersion_of_verify hverify
    rw [hversion] at hsame
    cases hsame
    simp [IsPackVersion.ne_empty hpack]

/-- **Downgrades and authorisation.** The order of the versions is total. For a target and an
    active pointer whose versions are numbers separated by `.` and `-`: the order agrees with
    that of the numbers, and a rollback without authorisation does not undercut the version
    that the active manifest names, exactly when the versions are fit for the order and the
    active pack verifies, or else the target is not older or cannot be activated. -/
theorem rollback_needs_authorization_iff (hentries : readActiveEntries codec files stems = .ok entries)
    (hactive : activeEntry tools disk engineId entries = some active)
    (hversion : manifestVersion tools disk active.manifestPath = some version)
    (htarget : IsPackVersion target.version) (hpack : IsPackVersion version) :
    ((∀ a b : VersionKey, b.compare a = (a.compare b).swap) ∧
      (∀ a b : VersionKey, a.compare b = .eq ↔ a = b) ∧
      (∀ a b c : VersionKey, (a.compare b).isLE → (b.compare c).isLE → (a.compare c).isLE)) ∧
    (((∀ verified, (rollback codec .none tools disk registered stems engineId target false nonce
          files).result = .ok verified →
        compare (versionNumbers target.version) (versionNumbers version) ≠ .lt) ∧
      (VersionKey.parse target.version).compare (VersionKey.parse version) =
        compare (versionNumbers target.version) (versionNumbers version)) ↔
    FirstDifferenceFits (versionParts target.version) (versionParts version) ∧
      ((∃ pack, verifyEnginePack tools disk active.manifestPath = .ok pack) ∨
        compare (versionNumbers target.version) (versionNumbers version) ≠ .lt ∨
        target.engineId ≠ engineId ∨ ¬ Activatable codec tools disk registered target)) := by
  refine ⟨⟨fun a b => ?_, fun a b => ?_, fun a b c hab hbc => ?_⟩, ?_⟩
  · exact Std.OrientedCmp.eq_swap
  · exact Std.LawfulEqCmp.compare_eq_iff_eq
  · exact Std.TransCmp.isLE_trans hab hbc
  have hok := @rollback_isOk codec tools disk registered files stems engineId target false nonce
    entries active hentries hactive
  have hagree := VersionKey.compare_eq_numeric_iff htarget hpack
  have hguard : isBlockedDowngrade tools disk target false active = true ↔ _ :=
    isBlockedDowngrade_iff hversion hpack
  constructor
  · rintro ⟨hsafe, horder⟩
    refine ⟨hagree.mp horder, ?_⟩
    by_contra hnot
    push Not at hnot
    obtain ⟨hbroken, holder, hengine, hactivatable⟩ := hnot
    have hfree : isBlockedDowngrade tools disk target false active = false := by
      rw [Bool.eq_false_iff, ne_eq, hguard]
      rintro ⟨⟨pack, hverify⟩, -⟩
      exact hbroken pack hverify
    obtain ⟨verified, hresult⟩ := hok.mpr ⟨hengine, hfree, hactivatable⟩
    exact hsafe verified hresult holder
  · rintro ⟨hfits, hcases⟩
    have horder := hagree.mpr hfits
    refine ⟨fun verified hresult holder => ?_, horder⟩
    obtain ⟨hengine, hfree, hactivatable⟩ := hok.mp ⟨verified, hresult⟩
    rcases hcases with hverifies | hnewer | hother | hfails
    · have hblocked := hguard.mpr ⟨hverifies, horder.trans holder⟩
      rw [hfree] at hblocked
      cases hblocked
    · exact hnewer holder
    · exact hother hengine
    · exact hfails hactivatable

end Guard

end EngineRegistry

namespace EngineRegistry.Sample

open EngineRegistry

/-- A manifest of the engine `im` without files. -/
def manifest (version : String) : EngineManifest :=
  { engineId := "im", version := version, executables := [], runtimeFiles := [], licenses := []
    supplyChain := none, signaturePresent := false }

/-- Three manifests, as the bytes 1, 2 and 3; the application accepts those for which
    `compatible` holds. -/
def tools (compatible : Bytes → Bool) : PackTools :=
  { fromSlice := fun bytes =>
      if bytes = [1] then .ok (manifest "7.1.1-39") else if bytes = [2] then .ok (manifest "7.1.1-9")
      else if bytes = [3] then .ok (manifest "6.0.0") else .error "expected value"
    checkManifest := fun bytes => failWhen (compatible bytes = false)
      (engineError "Engine manifest is invalid" "protocol 2 does not match supported protocol 1")
    sha256 := fun bytes => if bytes = [1] then "1" else if bytes = [2] then "2" else "3"
    reviewSupplyChain := fun _ _ _ => .ok .missing }

/-- A directory with nothing but the given manifest. -/
def pack (root : String) (content : Bytes) : PathBuf × PackFiles :=
  (.ofString root, fun path => if path = manifestName then some (.file content) else none)

def newer : PathBuf := .ofString "new/manifest.json"

def older : PathBuf := .ofString "old/manifest.json"

def oldest : PathBuf := .ofString "oldest/manifest.json"

def disk : PackDisk := fun path =>
  if path = newer then some (pack "new" [1]) else if path = older then some (pack "old" [2])
  else if path = oldest then some (pack "oldest" [3]) else none

/-- A serialiser for the pointers to the three packs. -/
def codec : RegistryCodec :=
  { toVecPretty := fun identity =>
      if identity = ⟨some "im", newer⟩ then .ok [1] else if identity = ⟨some "im", older⟩ then .ok [2]
      else if identity = ⟨some "im", oldest⟩ then .ok [3]
      else .error "path contains invalid UTF-8 characters"
    fromSlice := fun bytes =>
      if bytes = [1] then .ok ⟨some "im", newer⟩ else if bytes = [2] then .ok ⟨some "im", older⟩
      else if bytes = [3] then .ok ⟨some "im", oldest⟩ else .error "expected value"
    pathLe := fun _ _ => true }

/-- The newest version is active. -/
def files : RegistryDirectory := fun file => if file = .entry "im" then some [1] else none

/-- A rollback to a version that differs in its first part asks for authorisation. -/
theorem rollback_needs_authorization_iff_plain :
    (VersionKey.parse "6.0.0").compare (VersionKey.parse "7.1.1-39") =
        compare (versionNumbers "6.0.0") (versionNumbers "7.1.1-39") ∧
      ∀ verified, (rollback codec .none (tools fun _ => true) disk (fun _ => none) ["im"] "im"
        ⟨"im", "6.0.0", "3", oldest⟩ false 1 files).result = .ok verified →
        compare (versionNumbers "6.0.0") (versionNumbers "7.1.1-39") ≠ .lt := by
  have hentries : readActiveEntries codec files ["im"] = .ok [⟨some "im", newer⟩] := by
    decide +kernel
  have hactive : activeEntry (tools fun _ => true) disk "im" [⟨some "im", newer⟩] =
      some ⟨some "im", newer⟩ := by decide
  have hversion : manifestVersion (tools fun _ => true) disk newer = some "7.1.1-39" := by decide
  have hfits : FirstDifferenceFits (versionParts "6.0.0") (versionParts "7.1.1-39") := by
    rw [show versionParts "6.0.0" = ["6".toList, "0".toList, "0".toList] by decide,
      show versionParts "7.1.1-39" = ["7".toList, "1".toList, "1-39".toList] by decide,
      FirstDifferenceFits, if_neg (by decide)]
    exact .inl ⟨by decide, by decide⟩
  refine And.symm ?_
  exact (rollback_needs_authorization_iff hentries hactive hversion (by decide) (by decide)).2.mpr
    ⟨hfits, .inl ⟨_, rfl⟩⟩

/-- The rollback from `7.1.1-39` to `7.1.1-9` is not seen as a downgrade; nor is that to
    `6.0.0` once the active pack no longer verifies. -/
theorem rollback_downgrades :
    (rollback codec .none (tools fun _ => true) disk (fun _ => none) ["im"] "im"
      ⟨"im", "7.1.1-9", "2", older⟩ false 1 files).result.isOk ∧
    manifestVersion (tools fun _ => true) disk newer = some "7.1.1-39" ∧
    compare (versionNumbers "7.1.1-9") (versionNumbers "7.1.1-39") = .lt ∧
    (rollback codec .none (tools fun bytes => bytes ≠ [1]) disk (fun _ => none) ["im"] "im"
      ⟨"im", "6.0.0", "3", oldest⟩ false 1 files).result.isOk ∧
    manifestVersion (tools fun bytes => bytes ≠ [1]) disk newer = some "7.1.1-39" ∧
    compare (versionNumbers "6.0.0") (versionNumbers "7.1.1-39") = .lt := by
  decide +kernel

end EngineRegistry.Sample

end Anole
