import Anole.Engine.Version
import Anole.Engine.Pack
import Anole.State.LiveComponents

/-!
# The registry of active engines

Model of `EngineRegistry` (`crates/core/src/engine_registry.rs`, lines 1–407): one pointer for
each engine, replaced through a partial file and a backup in the same directory, and the
versions of an engine in the store.

The process may stop after any file operation of an activation, and the system may refuse
some of them (`RegistryIo`).

* `setActive_wp`: what an activation leaves at every moment.
-/

open Common Common.Proc

namespace Anole

/-- The files of the registry directory: `{stem}.json`, `.{engine_id}.backup` and
    `.{engine_id}.{uuid}.partial` (lines 107–112). -/
inductive RegistryFile where
  | entry (stem : String)
  | backup (engineId : String)
  | partialFile (engineId : String) (nonce : Uuid)
  deriving DecidableEq

/-- The registry directory. -/
abbrev RegistryDirectory := Files RegistryFile Bytes

/-- `serde_json` on `EngineRegistryIdentity`, and the order of paths. -/
structure RegistryCodec where
  toVecPretty : EngineRegistryIdentity → Except String Bytes
  fromSlice : Bytes → Except String EngineRegistryIdentity
  /-- `Ord for PathBuf` -/
  pathLe : PathBuf → PathBuf → Bool

/-- What is written reads back. -/
def RegistryCodec.Lossless (codec : RegistryCodec) : Prop :=
  ∀ identity bytes, codec.toVecPretty identity = .ok bytes → codec.fromSlice bytes = .ok identity

/-- What the system refuses to an activation. -/
structure RegistryIo where
  createDir : Option String
  /-- `fs::write` stops after so many bytes. -/
  stage : Option (ℕ × String)
  backUp : Option String
  publish : Option String

/-- Nothing is refused. -/
def RegistryIo.none : RegistryIo := ⟨.none, .none, .none, .none⟩

/-- `registry_error` (lines 478–480). -/
def registryError (message diagnostic : String) : AnoleError :=
  .new .storageFailed .store message diagnostic

namespace EngineRegistry

/-- A procedure of the registry. -/
abbrev Body (α : Type) := Proc RegistryDirectory AnoleError α

section Calls

variable (codec : RegistryCodec) (io : RegistryIo)

/-- The backup of the pointer (lines 125–138). -/
def backUpPointer (engineId : String) (staged : RegistryFile) : Body Unit := do
  let files ← get
  if files (.entry engineId) ≠ none then
    op (·.remove (.backup engineId))
    match io.backUp with
    | some error =>
      op (·.remove staged)
      fail (registryError s!"Cannot back up the previous engine registry entry: {engineId}.json" error)
    | none => op (·.rename (.entry engineId) (.backup engineId))

/-- The return of the backup after a publication that failed (lines 146–148). -/
def restorePointer (engineId : String) : Body Unit := do
  let files ← get
  if files (.backup engineId) ≠ none then
    op (·.rename (.backup engineId) (.entry engineId))

/-- The publication of the staged pointer (lines 139–155). -/
def publishPointer (engineId : String) (staged : RegistryFile) : Body Unit :=
  match io.publish with
  | none => do
    op (·.rename staged (.entry engineId))
    op (·.remove (.backup engineId))
  | some error => do
    op (·.remove staged)
    restorePointer engineId
    fail (registryError s!"Cannot publish engine registry entry: {engineId}.json" error)

/-- The staging of a pointer (lines 119–124). -/
def stagePointer (staged : RegistryFile) (bytes : Bytes) : Body Unit :=
  match io.stage with
  | some (written, error) => do
    through (fun files => (bytes.take written).inits.map (files.put staged))
      (·.put staged (bytes.take written))
    fail (registryError "Cannot stage engine registry entry" error)
  | none => through (fun files => bytes.inits.map (files.put staged)) (·.put staged bytes)

/-- `EngineRegistry::set_active` (lines 86–156), with the value of `Uuid::new_v4()`. -/
def setActive (verified : VerifiedEnginePack) (nonce : Uuid) : Body Unit := do
  tryOp (io.createDir.map (registryError "Cannot create engine registry")) id
  let engineId := verified.manifest.engineId
  let bytes ← lift ((codec.toVecPretty ⟨some engineId, verified.manifestPath⟩).mapError
    (registryError "Engine registry entry failed to serialize"))
  let staged := .partialFile engineId nonce
  stagePointer io staged bytes
  backUpPointer io engineId staged
  publishPointer io engineId staged

/-- The names that `read_dir` lists with the extension `json`, in its order. -/
def Listing (files : RegistryDirectory) (stems : List String) : Prop :=
  stems.Nodup ∧ ∀ stem, stem ∈ stems ↔ files (.entry stem) ≠ none

/-- The reading of one entry (lines 388–402). -/
def readEntry (files : RegistryDirectory) (stem : String) : Except AnoleError EngineRegistryIdentity :=
  match files (.entry stem) with
  | none => .error (registryError s!"Cannot read engine registry entry: {stem}.json"
      "No such file or directory (os error 2)")
  | some bytes => (codec.fromSlice bytes).mapError
      (registryError s!"Invalid engine registry entry: {stem}.json")

/-- `read_active_entries` (lines 369–407). -/
def readActiveEntries (files : RegistryDirectory) (stems : List String) :
    Except AnoleError (List EngineRegistryIdentity) := do
  let entries ← stems.mapM (readEntry codec files)
  return entries.mergeSort fun a b => codec.pathLe a.manifestPath b.manifestPath

end Calls

/-! ## Installed versions -/

/-- `InstalledEngineVersion`. -/
structure InstalledEngineVersion where
  engineId : String
  version : String
  manifestSha256 : String
  manifestPath : PathBuf
  deriving DecidableEq

/-- The store: its place, the names that `read_dir` lists for an engine (version directories,
    each with the directories in it), and the packs of the disk. -/
structure EngineStore where
  root : PathBuf
  listing : String → List (String × List String)
  disk : PackDisk

/-- `Path::is_file` for the path of a manifest. -/
def isManifestFile (disk : PackDisk) (manifestPath : PathBuf) : Bool :=
  (disk manifestPath).any fun (_, files) => ((files manifestName).bind PackEntry.content).isSome

/-- `byte.is_ascii_hexdigit()`. -/
def isHexDigit (c : Char) : Bool := c.isDigit || ('a' ≤ c && c ≤ 'f') || ('A' ≤ c && c ≤ 'F')

/-- The packs of an engine in the store, as they are listed (lines 182–233). -/
def EngineStore.packs (store : EngineStore) (engineId : String) : List InstalledEngineVersion :=
  (store.listing engineId).flatMap fun (version, names) => names.filterMap fun name =>
    let manifestPath := packFile (packFile (packFile (packFile store.root (.ofString engineId))
      (.ofString version)) (.ofString name)) manifestName
    if name.utf8ByteSize = 64 ∧ name.toList.all isHexDigit ∧ isManifestFile store.disk manifestPath then
      some ⟨engineId, version, toAsciiLowercase name, manifestPath⟩
    else none

/-- The order of the keys `(VersionKey, String)`. -/
def InstalledEngineVersion.compareKey (a b : InstalledEngineVersion) : Ordering :=
  ((VersionKey.parse a.version).compare (VersionKey.parse b.version)).then
    (compare a.manifestSha256 b.manifestSha256)

/-- `BTreeMap::insert`. -/
def insertVersion (version : InstalledEngineVersion) :
    List InstalledEngineVersion → List InstalledEngineVersion
  | [] => [version]
  | other :: rest =>
    match version.compareKey other with
    | .lt => version :: other :: rest
    | .eq => version :: rest
    | .gt => other :: insertVersion version rest

/-- `EngineRegistry::installed_versions` (lines 176–235). -/
def EngineStore.installedVersions (store : EngineStore) (engineId : String) :
    List InstalledEngineVersion :=
  ((store.packs engineId).foldl (fun versions version => insertVersion version versions) []).reverse

/-! ## Rollback -/

section Rollback

variable (codec : RegistryCodec) (io : RegistryIo) (tools : PackTools) (disk : PackDisk)
  (registered : RegisteredEngines)

/-- The pointer of an engine: the first that names it, or whose pack does (lines 338–342). -/
def activeEntry (engineId : String) (entries : List EngineRegistryIdentity) :
    Option EngineRegistryIdentity :=
  entries.find? fun entry => entry.engineId = some engineId ||
    match verifyEnginePack tools disk entry.manifestPath with
    | .ok verified => verified.manifest.engineId = engineId
    | .error _ => false

/-- The version of the active pack, empty when it does not verify (lines 344–346). -/
def activeVersion (active : EngineRegistryIdentity) : String :=
  match verifyEnginePack tools disk active.manifestPath with
  | .ok verified => verified.manifest.version
  | .error _ => ""

/-- The guard of a rollback (lines 343–361). -/
def isBlockedDowngrade (target : InstalledEngineVersion) (allowDowngrade : Bool)
    (active : EngineRegistryIdentity) : Bool :=
  let version := activeVersion tools disk active
  version ≠ "" &&
    (VersionKey.parse target.version).compare (VersionKey.parse version) = .lt && !allowDowngrade

/-- `EngineRegistry::rollback` (lines 327–366). -/
def rollback (stems : List String) (engineId : String) (target : InstalledEngineVersion)
    (allowDowngrade : Bool) (nonce : Uuid) : Body VerifiedEnginePack := do
  if target.engineId ≠ engineId then
    fail (registryError "Rollback target belongs to a different engine"
      s!"expected {engineId}, got {target.engineId}")
  let files ← get
  let entries ← lift (readActiveEntries codec files stems)
  let active := activeEntry tools disk engineId entries
  if active.any (isBlockedDowngrade tools disk target allowDowngrade) then
    let version := active.elim "" (activeVersion tools disk)
    fail (.new .policyBlocked .doctor
      s!"Rolling {engineId} from {version} back to {target.version} is a downgrade"
      "Pass allow_downgrade=true to authorize the downgrade explicitly.")
  let (verified, _) ← lift (activateEnginePack tools disk registered target.manifestPath)
  setActive codec io verified nonce
  pure verified

end Rollback

/-! ## What an activation leaves -/

section Parts

variable {codec : RegistryCodec} {io : RegistryIo} {tools : PackTools} {engineId : String}
  {nonce : Uuid} {verified : VerifiedEnginePack} {s t : RegistryDirectory} {manifestPath : PathBuf} {bytes : Bytes}

/-- Every pointer, and every backup of one, names its engine. -/
def PointersNamed (codec : RegistryCodec) (files : RegistryDirectory) : Prop :=
  ∀ engineId bytes, files (.entry engineId) = some bytes ∨ files (.backup engineId) = some bytes →
    ∃ manifestPath, codec.fromSlice bytes = .ok ⟨some engineId, manifestPath⟩

/-- The pointer of an engine is in its backup only. -/
def PointerAway (files : RegistryDirectory) (engineId : String) : Prop :=
  files (.entry engineId) = none ∧ files (.backup engineId) ≠ none

/-- What an activation keeps: the pointers name their engines, and a pointer that was there is
    still there or away. -/
def PointersKept (codec : RegistryCodec) (s t : RegistryDirectory) : Prop :=
  PointersNamed codec t ∧
    ∀ engineId, s (.entry engineId) ≠ none → t (.entry engineId) ≠ none ∨ PointerAway t engineId

theorem PointersKept.refl (h : PointersNamed codec s) : PointersKept codec s s :=
  ⟨h, fun _ => .inl⟩

theorem PointersKept.staged (h : PointersKept codec s t) (content : Option Bytes) :
    PointersKept codec s (Function.update t (.partialFile engineId nonce) content) := by
  have hentry : ∀ id, Function.update t (.partialFile engineId nonce) content (.entry id) =
      t (.entry id) := fun id => Function.update_of_ne (by simp) _ _
  have hbackup : ∀ id, Function.update t (.partialFile engineId nonce) content (.backup id) =
      t (.backup id) := fun id => Function.update_of_ne (by simp) _ _
  refine ⟨fun id bytes hbytes => ?_, fun id hid => ?_⟩
  · rw [hentry, hbackup] at hbytes
    exact h.1 id bytes hbytes
  · unfold PointerAway
    rw [hentry, hbackup]
    exact h.2 id hid

/-- Only the pointer of one engine and its backup are different, and hold what was in one of
    them or the new pointer. -/
theorem PointersKept.of_engine (hs : PointersNamed codec s)
    (hnamed : codec.fromSlice bytes = .ok ⟨some engineId, manifestPath⟩)
    (hothers : ∀ other, other ≠ engineId →
      t (.entry other) = s (.entry other) ∧ t (.backup other) = s (.backup other))
    (hentry : t (.entry engineId) = none ∨ t (.entry engineId) = s (.entry engineId) ∨
      t (.entry engineId) = s (.backup engineId) ∨ t (.entry engineId) = some bytes)
    (hbackup : t (.backup engineId) = none ∨ t (.backup engineId) = s (.entry engineId) ∨
      t (.backup engineId) = s (.backup engineId))
    (hthere : s (.entry engineId) ≠ none → t (.entry engineId) ≠ none ∨ t (.backup engineId) ≠ none) :
    PointersKept codec s t := by
  refine ⟨fun id content hcontent => ?_, fun id hid => ?_⟩
  · by_cases hne : id = engineId
    · subst hne
      have hcases : s (.entry id) = some content ∨ s (.backup id) = some content ∨ content = bytes := by
        rcases hcontent with h | h
        · rcases hentry with he | he | he | he <;> rw [h] at he
          · cases he
          · exact .inl he.symm
          · exact .inr (.inl he.symm)
          · exact .inr (.inr (Option.some.inj he))
        · rcases hbackup with he | he | he <;> rw [h] at he
          · cases he
          · exact .inl he.symm
          · exact .inr (.inl he.symm)
      rcases hcases with h | h | rfl
      · exact hs id content (.inl h)
      · exact hs id content (.inr h)
      · exact ⟨manifestPath, hnamed⟩
    · rw [(hothers id hne).1, (hothers id hne).2] at hcontent
      exact hs id content hcontent
  · by_cases hne : id = engineId
    · subst hne
      by_cases hnone : t (.entry id) = none
      · exact .inr ⟨hnone, (hthere hid).resolve_left (not_not.mpr hnone)⟩
      · exact .inl hnone
    · rw [(hothers id hne).1]
      exact .inl hid

variable (engineId nonce s) in
/-- What is there when the staged pointer is about to be published. -/
structure ReadyToPublish (bytes : Bytes) (t : RegistryDirectory) : Prop where
  entry : t (.entry engineId) = none
  staged : t (.partialFile engineId nonce) = some bytes
  others : ∀ other, other ≠ engineId →
    t (.entry other) = s (.entry other) ∧ t (.backup other) = s (.backup other)
  backup : t (.backup engineId) = s (.entry engineId) ∨ t (.backup engineId) = s (.backup engineId)
  there : s (.entry engineId) ≠ none → t (.backup engineId) ≠ none

theorem backUpPointer_wp (hs : PointersNamed codec s)
    (hstaged : s (.partialFile engineId nonce) = some bytes)
    (hnamed : codec.fromSlice bytes = .ok ⟨some engineId, manifestPath⟩) :
    wp (backUpPointer io engineId (.partialFile engineId nonce)) (PointersKept codec s)
      (fun _ => PointersKept codec s) (fun _ => ReadyToPublish engineId nonce s bytes) s := by
  have hremove : ∀ other : RegistryFile, other ≠ .backup engineId →
      s.remove (.backup engineId) other = s other := fun _ => Files.remove_of_ne
  have hdropped : PointersKept codec s (s.remove (.backup engineId)) := by
    refine .of_engine hs hnamed (fun other hne => ?_) (.inr (.inl (hremove _ (by simp))))
      (.inl Files.remove_self) fun hthere => .inl ?_
    · exact ⟨hremove _ (by simp), hremove _ (by simpa using hne)⟩
    · rwa [hremove _ (by simp)]
  unfold backUpPointer
  rw [wp_bind, wp_get, wp_ite]
  constructor
  · intro hthere
    rw [wp_bind, wp_op]
    refine ⟨hdropped, ?_⟩
    cases io.backUp with
    | some error =>
      simp only [wp_bind, wp_op, wp_fail]
      exact ⟨hdropped.staged none, hdropped.staged none⟩
    | none =>
      rw [wp_op]
      have hothers : ∀ other, other ≠ engineId →
          (s.remove (.backup engineId)).rename (.entry engineId) (.backup engineId) (.entry other) =
            s (.entry other) ∧
          (s.remove (.backup engineId)).rename (.entry engineId) (.backup engineId) (.backup other) =
            s (.backup other) := by
        intro other hne
        rw [Files.rename_of_ne (by simpa using hne) (by simp), Files.rename_of_ne (by simp)
          (by simpa using hne), hremove _ (by simp), hremove _ (by simpa using hne)]
        exact ⟨rfl, rfl⟩
      have hbackup : (s.remove (.backup engineId)).rename (.entry engineId) (.backup engineId)
          (.backup engineId) = s (.entry engineId) := by
        rw [Files.rename_target (by simp), hremove _ (by simp)]
      refine ⟨.of_engine hs hnamed hothers (.inl Files.rename_source) (.inr (.inl hbackup))
        fun _ => .inr (hbackup ▸ hthere), Files.rename_source, ?_, hothers, .inl hbackup,
        fun _ => hbackup ▸ hthere⟩
      rw [Files.rename_of_ne (by simp) (by simp), hremove _ (by simp), hstaged]
  · intro hnone
    have hentry : s (.entry engineId) = none := not_not.mp hnone
    rw [wp_pure]
    exact ⟨hentry, hstaged, fun _ _ => ⟨rfl, rfl⟩, .inr rfl, fun h => absurd hentry h⟩

theorem publishPointer_wp (hs : PointersNamed codec s)
    (hnamed : codec.fromSlice bytes = .ok ⟨some engineId, manifestPath⟩)
    (ht : ReadyToPublish engineId nonce s bytes t) :
    wp (publishPointer io engineId (.partialFile engineId nonce)) (PointersKept codec s)
      (fun _ => PointersKept codec s)
      (fun _ t => PointersKept codec s t ∧ t (.entry engineId) ≠ none) t := by
  unfold publishPointer
  cases io.publish with
  | none =>
    have hentry : t.rename (.partialFile engineId nonce) (.entry engineId) (.entry engineId) =
        some bytes := by
      rw [Files.rename_target (by simp), ht.staged]
    have hpublished : PointersKept codec s (t.rename (.partialFile engineId nonce) (.entry engineId)) := by
      refine .of_engine hs hnamed (fun other hne => ?_) (.inr (.inr (.inr hentry))) ?_
        fun _ => .inl (hentry ▸ Option.some_ne_none _)
      · rw [Files.rename_of_ne (by simp) (by simpa using hne), Files.rename_of_ne (by simp) (by simp)]
        exact ht.others other hne
      · rw [Files.rename_of_ne (by simp) (by simp)]
        exact .inr ht.backup
    have hkept : ∀ file : RegistryFile, file ≠ .backup engineId →
        (t.rename (.partialFile engineId nonce) (.entry engineId)).remove (.backup engineId) file =
          t.rename (.partialFile engineId nonce) (.entry engineId) file := fun _ => Files.remove_of_ne
    have hcleaned : PointersKept codec s
        ((t.rename (.partialFile engineId nonce) (.entry engineId)).remove (.backup engineId)) := by
      refine .of_engine hs hnamed (fun other hne => ?_)
        (.inr (.inr (.inr ((hkept _ (by simp)).trans hentry)))) (.inl Files.remove_self)
        fun _ => .inl ((hkept _ (by simp)).trans hentry ▸ Option.some_ne_none _)
      rw [hkept _ (by simp), hkept _ (by simpa using hne), Files.rename_of_ne (by simp)
        (by simpa using hne), Files.rename_of_ne (by simp) (by simp)]
      exact ht.others other hne
    simp only [wp_bind, wp_op]
    exact ⟨hpublished, hcleaned, hcleaned, (hkept _ (by simp)).trans hentry ▸ Option.some_ne_none _⟩
  | some error =>
    have hsame : ∀ file : RegistryFile, file ≠ .partialFile engineId nonce →
        t.remove (.partialFile engineId nonce) file = t file := fun _ => Files.remove_of_ne
    have hdiscarded : PointersKept codec s (t.remove (.partialFile engineId nonce)) := by
      refine .of_engine hs hnamed (fun other hne => ?_) (.inl ((hsame _ (by simp)).trans ht.entry)) ?_
        fun hthere => .inr ?_
      · rw [hsame _ (by simp), hsame _ (by simp)]
        exact ht.others other hne
      · rw [hsame _ (by simp)]
        exact .inr ht.backup
      · rw [hsame _ (by simp)]
        exact ht.there hthere
    simp only [restorePointer, wp_bind, wp_op, wp_get, wp_ite, wp_pure, wp_fail]
    refine ⟨hdiscarded, fun hbackup => ?_, fun _ => hdiscarded⟩
    have hentry : (t.remove (.partialFile engineId nonce)).rename (.backup engineId) (.entry engineId)
        (.entry engineId) = t (.backup engineId) := by
      rw [Files.rename_target (by simp), hsame _ (by simp)]
    have hrestored : PointersKept codec s
        ((t.remove (.partialFile engineId nonce)).rename (.backup engineId) (.entry engineId)) := by
      refine .of_engine hs hnamed (fun other hne => ?_) ?_ (.inl Files.rename_source)
        fun hthere => .inl (hentry ▸ ht.there hthere)
      · rw [Files.rename_of_ne (by simp) (by simpa using hne), Files.rename_of_ne (by simpa using hne)
          (by simp), hsame _ (by simp), hsame _ (by simp)]
        exact ht.others other hne
      · rw [hentry]
        exact .inr (ht.backup.imp_right .inl)
    exact ⟨hrestored, hrestored⟩

theorem stagePointer_wp (hs : PointersNamed codec s) :
    wp (stagePointer io (.partialFile engineId nonce) bytes) (PointersKept codec s)
      (fun _ => PointersKept codec s)
      (fun _ t => PointersNamed codec t ∧ t (.partialFile engineId nonce) = some bytes ∧
        (∀ id, t (.entry id) = s (.entry id)) ∧ ∀ id, t (.backup id) = s (.backup id)) s := by
  have hkept : ∀ content : Bytes, PointersKept codec s (s.put (.partialFile engineId nonce) content) :=
    fun content => (PointersKept.refl hs).staged (some content)
  have hbegun : ∀ bytes : Bytes, ∀ m ∈ bytes.inits.map (s.put (.partialFile engineId nonce)),
      PointersKept codec s m := by
    intro bytes m hm
    obtain ⟨content, -, rfl⟩ := List.mem_map.mp hm
    exact hkept content
  unfold stagePointer
  cases io.stage with
  | none =>
    rw [wp_through]
    exact ⟨hbegun bytes, hkept bytes, (hkept bytes).1, Files.put_self,
      fun _ => Files.put_of_ne (by simp), fun _ => Files.put_of_ne (by simp)⟩
  | some refusal =>
    simp only [wp_bind, wp_through, wp_fail]
    exact ⟨hbegun _, hkept _, hkept _⟩

/-- **What an activation leaves.** At every moment the pointers name their engines and no
    pointer is lost, up to one that is away; at the end the engine has a pointer. -/
theorem setActive_wp (hcodec : codec.Lossless) (hs : PointersNamed codec s) :
    wp (setActive codec io verified nonce) (PointersKept codec s) (fun _ => PointersKept codec s)
      (fun _ t => PointersKept codec s t ∧ t (.entry verified.manifest.engineId) ≠ none) s := by
  unfold setActive
  rw [wp_bind, wp_tryOp]
  refine ⟨fun _ _ => .refl hs, fun _ => ⟨.refl hs, ?_⟩⟩
  rw [wp_bind, wp_lift]
  refine ⟨fun _ _ => .refl hs, fun bytes hbytes => ?_⟩
  have hnamed := hcodec _ _ (mapError_eq_ok.mp hbytes)
  rw [wp_bind]
  refine (stagePointer_wp hs).mono (fun _ h => h) (fun _ _ h => h) ?_
  rintro - t ⟨ht, hstaged, hentry, hbackup⟩
  -- what follows keeps the pointers of `t`, which are those of `s`
  have hkept : ∀ u, PointersKept codec t u → PointersKept codec s u :=
    fun u hu => ⟨hu.1, fun id hid => hu.2 id (by rwa [hentry])⟩
  rw [wp_bind]
  refine (backUpPointer_wp ht hstaged hnamed).mono hkept (fun _ => hkept) ?_
  intro _ u hu
  refine (publishPointer_wp ht hnamed hu).mono hkept (fun _ => hkept) ?_
  exact fun _ v hv => ⟨hkept v hv.1, hv.2⟩

/-- The pointer to a pack can be written: its path is valid Unicode. -/
def Writable (codec : RegistryCodec) (verified : VerifiedEnginePack) : Prop :=
  ∃ bytes, codec.toVecPretty ⟨some verified.manifest.engineId, verified.manifestPath⟩ = .ok bytes

/-- An activation to which nothing is refused succeeds. -/
theorem setActive_succeeds_wp (hwritable : Writable codec verified) :
    wp (setActive codec .none verified nonce) (fun _ => True) (fun _ _ => False) (fun _ _ => True) s := by
  obtain ⟨bytes, hbytes⟩ := hwritable
  simp only [setActive, stagePointer, backUpPointer, publishPointer, RegistryIo.none, hbytes,
    Option.map_none, Except.mapError, wp_bind, wp_tryOp, wp_lift, wp_through, wp_get, wp_ite, wp_op,
    wp_pure]
  simp

/-- A rollback does what the activation of its target does. -/
theorem rollback_wp (hcodec : codec.Lossless) (hs : PointersNamed codec s) {disk : PackDisk}
    {registered : RegisteredEngines} {stems : List String} {target : InstalledEngineVersion}
    {allowDowngrade : Bool} :
    wp (rollback codec io tools disk registered stems engineId target allowDowngrade nonce)
      (PointersKept codec s) (fun _ => PointersKept codec s)
      (fun verified t => PointersKept codec s t ∧ t (.entry verified.manifest.engineId) ≠ none) s := by
  have hrefl : PointersKept codec s s := .refl hs
  unfold rollback
  simp only [wp_bind, wp_get, wp_ite, wp_fail, wp_lift, wp_pure]
  refine ⟨fun _ => hrefl, fun _ => ⟨fun _ _ => hrefl, fun entries _ => ⟨fun _ => hrefl, fun _ => ?_⟩⟩⟩
  exact ⟨fun _ _ => hrefl, fun result _ => setActive_wp hcodec hs⟩

end Parts

end EngineRegistry

end Anole
