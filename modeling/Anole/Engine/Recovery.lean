import Anole.Engine.Downgrade

/-!
# The recovery of the engines at startup

`EngineRegistry::recover` (`crates/core/src/engine_registry.rs`, lines 237–316), after any
activations and rollbacks, each of which may be cut off.

* `recovery_complete`: after a run in which no step leaves a pointer away or a malformed
  entry, for at most 64 engines whose executables have different names, every engine that was
  ever activated gets one outcome, and an engine with an installed version that verifies is
  activated or falls back.

**Deviation.** A pointer that is away when an activation is cut off is not looked for, and
one malformed entry makes the whole recovery fail (`Sample.recovery_incomplete`).
-/

open Common Common.Proc

namespace Anole

namespace EngineRegistry

/-- `EngineFallback` (lines 37–43). -/
structure EngineFallback where
  failedVersion : String
  failedManifestSha256 : String
  reason : String
  fallbackVersion : String
  deriving DecidableEq

/-- `EngineRecovery` (lines 45–67). -/
inductive EngineRecovery where
  | activated (engineId version manifestSha256 : String)
  | fellBack (engineId : String) (fallback : EngineFallback)
  | failed (engineId failedVersion reason : String)
  deriving DecidableEq

/-- The engine an outcome is about. -/
def EngineRecovery.engineId : EngineRecovery → String
  | .activated engineId _ _ => engineId
  | .fellBack engineId _ => engineId
  | .failed engineId _ _ => engineId

/-- The engine is usable. -/
def EngineRecovery.recovered : EngineRecovery → Bool
  | .failed _ _ _ => false
  | _ => true

/-- `MAX_REPORTED_ENGINES` (line 28). -/
def maxReportedEngines : ℕ := 64

/-- The name of the directory of a file. -/
def parentName (path : PathBuf) : String :=
  PathBuf.toStringLossy ((path.splitOn (.char '/')).dropLast.getLast?.getD [])

section Recover

variable (codec : RegistryCodec) (io : RegistryIo) (tools : PackTools) (store : EngineStore)
  (nonces : String → Uuid)

/-- The search for a fallback (lines 288–307). -/
def fallBack (activePath : PathBuf) : List InstalledEngineVersion → RegisteredEngines →
    Body (Option InstalledEngineVersion × RegisteredEngines)
  | [], registered => pure (none, registered)
  | candidate :: candidates, registered =>
    if candidate.manifestPath = activePath then fallBack activePath candidates registered
    else match activateEnginePack tools store.disk registered candidate.manifestPath with
      | .ok (verified, registered) => do
        setActive codec io verified (nonces verified.manifest.engineId)
        pure (some candidate, registered)
      | .error _ => fallBack activePath candidates registered

/-- `EngineRegistry::recover_engine` (lines 269–316). -/
def recoverEngine (engineId : String) (activePath : PathBuf) (registered : RegisteredEngines) :
    Body (EngineRecovery × RegisteredEngines) :=
  match activateEnginePack tools store.disk registered activePath with
  | .ok (verified, registered) =>
    pure (.activated engineId verified.manifest.version verified.manifestSha256, registered)
  | .error error => do
    let failedVersion := (manifestVersion tools store.disk activePath).getD "unknown"
    let (candidate, registered) ←
      fallBack codec io tools store nonces activePath (store.installedVersions engineId) registered
    match candidate with
    | some candidate =>
      pure (.fellBack engineId ⟨failedVersion, parentName activePath, error.message, candidate.version⟩,
        registered)
    | none => pure (.failed engineId failedVersion error.message, registered)

/-- The loop of `recover` over the entries (lines 248–266). -/
def recoverEntries : List EngineRegistryIdentity → List EngineRecovery → RegisteredEngines →
    Body (List EngineRecovery)
  | [], outcomes, _ => pure outcomes
  | entry :: entries, outcomes, registered =>
    if maxReportedEngines ≤ outcomes.length then pure outcomes
    else
      let recoverNamed (engineId : String) : Body (List EngineRecovery) := do
        let (outcome, registered) ←
          recoverEngine codec io tools store nonces engineId entry.manifestPath registered
        recoverEntries entries (outcomes ++ [outcome]) registered
      match entry.engineId with
      | some engineId => recoverNamed engineId
      | none => match verifyEnginePack tools store.disk entry.manifestPath with
        | .ok verified => recoverNamed verified.manifest.engineId
        | .error error =>
          recoverEntries entries
            (outcomes ++ [.failed entry.manifestPath.toStringLossy "unknown" error.message]) registered

/-- `EngineRegistry::recover` (lines 237–267). -/
def recover (stems : List String) (registered : RegisteredEngines) : Body (List EngineRecovery) := do
  let files ← get
  let entries ← lift (readActiveEntries codec files stems)
  recoverEntries codec io tools store nonces entries [] registered

end Recover

/-! ## Runs of the registry -/

/-- The registry directory, and the engines whose activation has completed once. -/
structure RegistryState where
  files : RegistryDirectory
  completed : List String

/-- What happens to the registry: calls that end or are cut off anywhere, with any disk and
    any registered executables, and entries that something else writes. -/
inductive RegistryEvent where
  | setActive (io : RegistryIo) (verified : VerifiedEnginePack) (nonce : Uuid)
  | rollback (io : RegistryIo) (disk : PackDisk) (registered : RegisteredEngines)
      (stems : List String) (engineId : String) (target : InstalledEngineVersion)
      (allowDowngrade : Bool) (nonce : Uuid)
  | malformed (stem : String) (bytes : Bytes)

section Runs

variable (codec : RegistryCodec) (tools : PackTools)

/-- A call leaves `t` and, when it succeeds, has activated its pack. -/
inductive RegistryStep (s : RegistryState) : RegistryEvent → RegistryState → Prop
  | leftActivation (io : RegistryIo) (verified : VerifiedEnginePack) (nonce : Uuid)
      {t : RegistryDirectory} : Leaves (setActive codec io verified nonce) s.files t →
      RegistryStep s (.setActive io verified nonce) { s with files := t }
  | activation (io : RegistryIo) (verified : VerifiedEnginePack) (nonce : Uuid)
      {t : RegistryDirectory} : Succeeds (setActive codec io verified nonce) s.files () t →
      RegistryStep s (.setActive io verified nonce)
        ⟨t, verified.manifest.engineId :: s.completed⟩
  | leftRollback (io : RegistryIo) (disk : PackDisk) (registered : RegisteredEngines)
      (stems : List String) (engineId : String) (target : InstalledEngineVersion)
      (allowDowngrade : Bool) (nonce : Uuid) {t : RegistryDirectory} :
      Leaves (rollback codec io tools disk registered stems engineId target allowDowngrade nonce)
        s.files t →
      RegistryStep s (.rollback io disk registered stems engineId target allowDowngrade nonce)
        { s with files := t }
  | rollback (io : RegistryIo) (disk : PackDisk) (registered : RegisteredEngines)
      (stems : List String) (engineId : String) (target : InstalledEngineVersion)
      (allowDowngrade : Bool) (nonce : Uuid) {verified : VerifiedEnginePack} {t : RegistryDirectory} :
      Succeeds (rollback codec io tools disk registered stems engineId target allowDowngrade nonce)
        s.files verified t →
      RegistryStep s (.rollback io disk registered stems engineId target allowDowngrade nonce)
        ⟨t, verified.manifest.engineId :: s.completed⟩
  | malformed (stem : String) (bytes : Bytes) {error : String} : codec.fromSlice bytes = .error error →
      RegistryStep s (.malformed stem bytes) { s with files := s.files.put (.entry stem) bytes }

/-- A step that leaves no pointer away, and is not the appearance of a malformed entry. -/
def HealthyStep (s : RegistryState) (event : RegistryEvent) (t : RegistryState) : Prop :=
  RegistryStep codec tools s event t ∧ (∀ stem bytes, event ≠ .malformed stem bytes) ∧
    ∀ engineId, ¬ PointerAway t.files engineId

/-- The runs of such steps from an empty directory. -/
abbrev HealthyRun (events : List RegistryEvent) (s : RegistryState) : Prop :=
  Trace (HealthyStep codec tools) ⟨fun _ => none, []⟩ events s

end Runs

/-- What a healthy run keeps. -/
structure RegistryState.Inv (codec : RegistryCodec) (s : RegistryState) : Prop where
  named : PointersNamed codec s.files
  completed : ∀ engineId ∈ s.completed, s.files (.entry engineId) ≠ none

section Runs

variable {codec : RegistryCodec} {tools : PackTools} {s t : RegistryState} {event : RegistryEvent}
  {events : List RegistryEvent}

/-- A step that keeps the pointers keeps those of the completed activations. -/
theorem RegistryState.Inv.kept (hs : s.Inv codec) {files : RegistryDirectory}
    (hkept : PointersKept codec s.files files) (haway : ∀ engineId, ¬ PointerAway files engineId) :
    RegistryState.Inv codec { s with files := files } :=
  ⟨hkept.1, fun engineId hengine =>
    (hkept.2 engineId (hs.completed engineId hengine)).resolve_right (haway engineId)⟩

theorem RegistryState.Inv.activated (hs : s.Inv codec) {files : RegistryDirectory} {engineId : String}
    (hkept : PointersKept codec s.files files ∧ files (.entry engineId) ≠ none)
    (haway : ∀ engineId, ¬ PointerAway files engineId) :
    RegistryState.Inv codec ⟨files, engineId :: s.completed⟩ :=
  ⟨hkept.1.1, List.forall_mem_cons.mpr ⟨hkept.2, (hs.kept hkept.1 haway).completed⟩⟩

theorem HealthyStep.inv (hcodec : codec.Lossless) (h : HealthyStep codec tools s event t)
    (hs : s.Inv codec) : t.Inv codec := by
  obtain ⟨hstep, hformed, haway⟩ := h
  have hrefl : PointersKept codec s.files s.files := .refl hs.named
  cases hstep with
  | leftActivation io verified nonce hleft =>
    exact hs.kept (hleft.of_wp ((setActive_wp hcodec hs.named).mono (fun _ h => h) (fun _ _ h => h)
      fun _ _ h => h.1) hrefl) haway
  | activation io verified nonce hdone =>
    exact hs.activated (hdone.of_wp (setActive_wp hcodec hs.named)) haway
  | leftRollback io disk registered stems engineId target allowDowngrade nonce hleft =>
    exact hs.kept (hleft.of_wp ((rollback_wp hcodec hs.named).mono (fun _ h => h) (fun _ _ h => h)
      fun _ _ h => h.1) hrefl) haway
  | rollback io disk registered stems engineId target allowDowngrade nonce hdone =>
    exact hs.activated (hdone.of_wp (rollback_wp hcodec hs.named)) haway
  | malformed stem bytes herror => exact absurd rfl (hformed stem bytes)

theorem HealthyRun.inv (hcodec : codec.Lossless) (h : HealthyRun codec tools events s) :
    s.Inv codec := by
  refine Trace.invariant h ⟨fun _ _ hbytes => ?_, fun _ hengine => by cases hengine⟩
    fun hs hstep => hstep.inv hcodec hs
  rcases hbytes with hbytes | hbytes <;> cases hbytes

end Runs

/-! ## What the recovery finds -/

section Finds

variable {codec : RegistryCodec} {tools : PackTools} {store : EngineStore} {nonces : String → Uuid}
  {files : RegistryDirectory} {stems : List String} {entries : List EngineRegistryIdentity}
  {registered registered' : RegisteredEngines} {path : PathBuf} {engineId : String}
  {verified : VerifiedEnginePack} {version : InstalledEngineVersion} {s : RegistryDirectory}

theorem map_engineId_eq {entries : List EngineRegistryIdentity}
    (h : ∀ entry ∈ entries, entry.engineId ≠ none) :
    entries.map EngineRegistryIdentity.engineId =
      (entries.filterMap EngineRegistryIdentity.engineId).map some := by
  induction entries with
  | nil => rfl
  | cons entry entries ih =>
    obtain ⟨hentry, hentries⟩ := List.forall_mem_cons.mp h
    obtain ⟨id, hid⟩ := Option.ne_none_iff_exists'.mp hentry
    rw [List.map_cons, List.filterMap_cons_some hid, List.map_cons, hid, ih hentries]

/-- The entries of a directory whose pointers name their engines: one for each listed name. -/
theorem readActiveEntries_named (hnamed : PointersNamed codec files) (hlisting : Listing files stems) :
    ∃ entries, ∃ ids : List String, readActiveEntries codec files stems = .ok entries ∧
      entries.map EngineRegistryIdentity.engineId = ids.map some ∧ ids.Perm stems := by
  have hread : ∀ l : List String, (∀ stem ∈ l, files (.entry stem) ≠ none) → ∃ found,
      l.mapM (readEntry codec files) = .ok found ∧
        found.map EngineRegistryIdentity.engineId = l.map some := by
    intro l
    induction l with
    | nil => exact fun _ => ⟨[], rfl, rfl⟩
    | cons stem l ih =>
      intro hthere
      obtain ⟨hstem, hl⟩ := List.forall_mem_cons.mp hthere
      obtain ⟨found, hfound, hids⟩ := ih hl
      obtain ⟨bytes, hbytes⟩ := Option.ne_none_iff_exists'.mp hstem
      obtain ⟨manifestPath, hparse⟩ := hnamed stem bytes (.inl hbytes)
      have hentry : readEntry codec files stem = .ok ⟨some stem, manifestPath⟩ := by
        simp only [readEntry, hbytes, hparse]
        rfl
      refine ⟨⟨some stem, manifestPath⟩ :: found, ?_, by rw [List.map_cons, List.map_cons, hids]⟩
      exact mapM_eq_ok.mpr (.cons hentry (mapM_eq_ok.mp hfound))
  obtain ⟨found, hfound, hids⟩ := hread stems fun stem hstem => (hlisting.2 stem).mp hstem
  have hsorted : (found.mergeSort fun a b => codec.pathLe a.manifestPath b.manifestPath).Perm found :=
    List.mergeSort_perm _ _
  have hfoundIds : found.filterMap EngineRegistryIdentity.engineId = stems := by
    calc found.filterMap EngineRegistryIdentity.engineId
        = (found.map EngineRegistryIdentity.engineId).filterMap id := by
          rw [List.filterMap_map, Function.id_comp]
      _ = stems := by rw [hids, List.filterMap_map, Function.id_comp, List.filterMap_some]
  refine ⟨found.mergeSort fun a b => codec.pathLe a.manifestPath b.manifestPath, _, ?_,
    map_engineId_eq fun entry hentry hnone => ?_, ?_⟩
  · unfold readActiveEntries
    exact bind_eq_ok.mpr ⟨found, hfound, rfl⟩
  · have hin : entry.engineId ∈ found.map EngineRegistryIdentity.engineId :=
      List.mem_map_of_mem (hsorted.mem_iff.mp hentry)
    rw [hids, hnone] at hin
    simp at hin
  · rw [← hfoundIds]
    exact hsorted.filterMap _

/-- Two packs of an engine in the store are one if their keys are equal. -/
def KeysApart (store : EngineStore) : Prop :=
  ∀ engineId, ∀ a ∈ store.packs engineId, ∀ b ∈ store.packs engineId, a.compareKey b = .eq → a = b

theorem mem_insertVersion_self
    {versions : List InstalledEngineVersion} : version ∈ insertVersion version versions := by
  induction versions with
  | nil => exact List.mem_cons_self
  | cons first rest ih =>
    unfold insertVersion
    split
    · exact List.mem_cons_self
    · exact List.mem_cons_self
    · exact List.mem_cons_of_mem _ ih

theorem mem_insertVersion_of_ne {version other : InstalledEngineVersion}
    {versions : List InstalledEngineVersion} (hother : other ∈ versions)
    (hne : version.compareKey other = .eq → version = other) : other ∈ insertVersion version versions := by
  induction versions with
  | nil => cases hother
  | cons first rest ih =>
    unfold insertVersion
    rcases List.mem_cons.mp hother with rfl | hother
    · split
      · exact List.mem_cons_of_mem _ List.mem_cons_self
      · rename_i heq
        rw [hne heq]
        exact List.mem_cons_self
      · exact List.mem_cons_self
    · split
      · exact List.mem_cons_of_mem _ (List.mem_cons_of_mem _ hother)
      · exact List.mem_cons_of_mem _ hother
      · exact List.mem_cons_of_mem _ (ih hother)

/-- With different keys, every pack of the store is listed. -/
theorem mem_installedVersions (hkeys : KeysApart store)
    (h : version ∈ store.packs engineId) : version ∈ store.installedVersions engineId := by
  have hfold : ∀ (packs versions : List InstalledEngineVersion),
      (∀ pack ∈ packs, pack ∈ store.packs engineId) → version ∈ packs ∨ version ∈ versions →
      version ∈ packs.foldl (fun versions version => insertVersion version versions) versions := by
    intro packs
    induction packs with
    | nil => exact fun _ _ hin => hin.resolve_left List.not_mem_nil
    | cons pack packs ih =>
      intro versions hpacks hin
      obtain ⟨hpack, hpacks⟩ := List.forall_mem_cons.mp hpacks
      refine ih _ hpacks ?_
      rcases hin with hin | hin
      · rcases List.mem_cons.mp hin with rfl | hin
        · exact .inr mem_insertVersion_self
        · exact .inl hin
      · exact .inr (mem_insertVersion_of_ne hin (hkeys engineId pack hpack version h))
  unfold EngineStore.installedVersions
  exact List.mem_reverse.mpr (hfold _ _ (fun _ h => h) (.inl h))

theorem mem_packs_of_installed
    (h : version ∈ store.installedVersions engineId) : version ∈ store.packs engineId := by
  have hfold : ∀ (packs versions : List InstalledEngineVersion),
      version ∈ packs.foldl (fun versions version => insertVersion version versions) versions →
      version ∈ packs ∨ version ∈ versions := by
    intro packs
    induction packs with
    | nil => exact fun _ hin => .inr hin
    | cons pack packs ih =>
      intro versions hin
      rcases ih _ hin with hin | hin
      · exact .inl (List.mem_cons_of_mem _ hin)
      · rcases mem_insertVersion hin with rfl | hin
        · exact .inl List.mem_cons_self
        · exact .inr hin
  unfold EngineStore.installedVersions at h
  exact (hfold _ _ (List.mem_reverse.mp h)).resolve_right List.not_mem_nil

/-! ## Claims of names -/

/-- The packs the recovery may activate: those of the pointers and those of the store. -/
def Candidate (store : EngineStore) (entries : List EngineRegistryIdentity) (path : PathBuf) : Prop :=
  (∃ entry ∈ entries, entry.manifestPath = path) ∨
    ∃ engineId, ∃ version ∈ store.packs engineId, version.manifestPath = path

/-- No two candidates of different engines have an executable of one name, and the pointer to
    every candidate can be written. -/
structure CandidatesApart (codec : RegistryCodec) (tools : PackTools) (store : EngineStore)
    (entries : List EngineRegistryIdentity) : Prop where
  names : ∀ p q v w, Candidate store entries p → Candidate store entries q →
    verifyEnginePack tools store.disk p = .ok v → verifyEnginePack tools store.disk q = .ok w →
    v.manifest.engineId ≠ w.manifest.engineId → ∀ name ∈ v.names, name ∉ w.names
  writable : ∀ p v, Candidate store entries p → verifyEnginePack tools store.disk p = .ok v →
    Writable codec v

/-- The registered executables are those of candidates. -/
def RegisteredCandidates (tools : PackTools) (store : EngineStore)
    (entries : List EngineRegistryIdentity) (registered : RegisteredEngines) : Prop :=
  ∀ name existing, registered name = some existing → ∃ p v, Candidate store entries p ∧
    verifyEnginePack tools store.disk p = .ok v ∧ existing.packId = v.manifest.engineId ∧ name ∈ v.names

theorem CandidatesApart.unclaimed (h : CandidatesApart codec tools store entries)
    (hregistered : RegisteredCandidates tools store entries registered)
    (hpath : Candidate store entries path)
    (hverified : verifyEnginePack tools store.disk path = .ok verified) :
    Unclaimed registered verified := by
  intro name hname existing hexisting
  obtain ⟨p, v, hp, hv, hpack, hnamed⟩ := hregistered name existing hexisting
  by_contra hne
  exact h.names p path v verified hp hpath hv hverified (fun he => hne (hpack.trans he)) name hnamed hname

theorem RegisteredCandidates.activate (hregistered : RegisteredCandidates tools store entries registered)
    (hpath : Candidate store entries path)
    (hactivate : activateEnginePack tools store.disk registered path = .ok (verified, registered')) :
    RegisteredCandidates tools store entries registered' := by
  obtain ⟨hverified, hregister⟩ := activateEnginePack_eq_ok.mp hactivate
  intro name existing hexisting
  rcases registerEnginePackPaths_registered hregister hexisting with hold | ⟨hpack, hname⟩
  · exact hregistered name existing hold
  · exact ⟨path, verified, hpath, hverified, hpack, hname⟩

theorem CandidatesApart.activates (h : CandidatesApart codec tools store entries)
    (hregistered : RegisteredCandidates tools store entries registered)
    (hpath : Candidate store entries path)
    (hverified : verifyEnginePack tools store.disk path = .ok verified) :
    ∃ registered', activateEnginePack tools store.disk registered path = .ok (verified, registered') := by
  obtain ⟨registered', hregister⟩ :=
    registerEnginePackPaths_isOk.mpr (h.unclaimed hregistered hpath hverified)
  exact ⟨registered', activateEnginePack_eq_ok.mpr ⟨hverified, hregister⟩⟩

/-! ## The loops -/

/-- The pack at a path verifies. -/
def Verifies (tools : PackTools) (store : EngineStore) (path : PathBuf) : Prop :=
  ∃ verified, verifyEnginePack tools store.disk path = .ok verified

theorem fallBack_wp (h : CandidatesApart codec tools store entries)
    {candidates : List InstalledEngineVersion}
    (hcandidates : ∀ version ∈ candidates, Candidate store entries version.manifestPath)
    (hregistered : RegisteredCandidates tools store entries registered) :
    wp (fallBack codec .none tools store nonces path candidates registered) (fun _ => True)
      (fun _ _ => False)
      (fun result _ => RegisteredCandidates tools store entries result.2 ∧
        ((∃ version ∈ candidates, version.manifestPath ≠ path ∧
          Verifies tools store version.manifestPath) → result.1 ≠ none)) s := by
  induction candidates with
  | nil =>
    unfold fallBack
    rw [wp_pure]
    exact ⟨hregistered, fun ⟨_, hin, _⟩ => absurd hin List.not_mem_nil⟩
  | cons candidate candidates ih =>
    obtain ⟨hcandidate, hcandidates⟩ := List.forall_mem_cons.mp hcandidates
    -- a candidate that is passed over is not one to be found
    have hskip : (candidate.manifestPath ≠ path → ¬ Verifies tools store candidate.manifestPath) →
        (∃ version ∈ candidate :: candidates, version.manifestPath ≠ path ∧
          Verifies tools store version.manifestPath) →
        ∃ version ∈ candidates, version.manifestPath ≠ path ∧
          Verifies tools store version.manifestPath := by
      rintro hpassed ⟨version, hin, hne, hverifies⟩
      rcases List.mem_cons.mp hin with rfl | hin
      · exact absurd hverifies (hpassed hne)
      · exact ⟨version, hin, hne, hverifies⟩
    unfold fallBack
    rw [wp_ite]
    refine ⟨fun hactive => ?_, fun _ => ?_⟩
    · exact (ih hcandidates).mono (fun _ h => h) (fun _ _ h => h) fun _ _ hresult =>
        ⟨hresult.1, fun hfound => hresult.2 (hskip (fun hne => absurd hactive hne) hfound)⟩
    · cases hactivate : activateEnginePack tools store.disk registered candidate.manifestPath with
      | error error =>
        refine (ih hcandidates).mono (fun _ h => h) (fun _ _ h => h) fun _ _ hresult =>
          ⟨hresult.1, fun hfound => hresult.2 (hskip (fun _ ⟨verified, hverified⟩ => ?_) hfound)⟩
        obtain ⟨registered', hok⟩ := h.activates hregistered hcandidate hverified
        rw [hactivate] at hok
        cases hok
      | ok result =>
        obtain ⟨verified, registered'⟩ := result
        have hwritable := h.writable _ _ hcandidate (activateEnginePack_eq_ok.mp hactivate).1
        simp only [wp_bind, wp_pure]
        refine (setActive_succeeds_wp hwritable).mono (fun _ h => h) (fun _ _ h => h) fun _ _ _ => ?_
        exact ⟨hregistered.activate hcandidate hactivate, fun _ => Option.some_ne_none _⟩

variable (tools store) in
/-- The outcome is about the engine, which is usable if some installed version verifies. -/
def Reports (engineId : String) (outcome : EngineRecovery) : Prop :=
  outcome.engineId = engineId ∧
    ((∃ version ∈ store.packs engineId, Verifies tools store version.manifestPath) →
      outcome.recovered = true)

theorem recoverEngine_wp (hkeys : KeysApart store) (h : CandidatesApart codec tools store entries)
    (hpath : Candidate store entries path)
    (hregistered : RegisteredCandidates tools store entries registered) :
    wp (recoverEngine codec .none tools store nonces engineId path registered) (fun _ => True)
      (fun _ _ => False)
      (fun result _ => Reports tools store engineId result.1 ∧
        RegisteredCandidates tools store entries result.2) s := by
  unfold recoverEngine
  cases hactivate : activateEnginePack tools store.disk registered path with
  | ok result =>
    obtain ⟨verified, registered'⟩ := result
    exact wp_pure.mpr ⟨⟨rfl, fun _ => rfl⟩, hregistered.activate hpath hactivate⟩
  | error error =>
    have hcandidates : ∀ version ∈ store.installedVersions engineId,
        Candidate store entries version.manifestPath :=
      fun version hversion => .inr ⟨engineId, version, mem_packs_of_installed hversion, rfl⟩
    rw [wp_bind]
    refine (fallBack_wp h hcandidates hregistered).mono (fun _ h => h) (fun _ _ h => h) ?_
    rintro ⟨candidate, registered'⟩ t ⟨hregistered', hfound⟩
    cases candidate with
    | some candidate => exact wp_pure.mpr ⟨⟨rfl, fun _ => rfl⟩, hregistered'⟩
    | none =>
      refine wp_pure.mpr ⟨⟨rfl, ?_⟩, hregistered'⟩
      rintro ⟨version, hversion, hverifies⟩
      refine absurd rfl (hfound ⟨version, mem_installedVersions hkeys hversion, ?_, hverifies⟩)
      -- the active pack itself could not be activated
      rintro rfl
      obtain ⟨verified, hverified⟩ := hverifies
      obtain ⟨registered', hok⟩ := h.activates hregistered hpath hverified
      rw [hactivate] at hok
      cases hok

theorem recoverEntries_wp (hkeys : KeysApart store) (h : CandidatesApart codec tools store entries)
    {rest : List EngineRegistryIdentity} {ids : List String} {outcomes : List EngineRecovery}
    (hids : rest.map EngineRegistryIdentity.engineId = ids.map some)
    (hrest : ∀ entry ∈ rest, entry ∈ entries) (hroom : outcomes.length + rest.length ≤ maxReportedEngines)
    (hregistered : RegisteredCandidates tools store entries registered) :
    wp (recoverEntries codec .none tools store nonces rest outcomes registered) (fun _ => True)
      (fun _ _ => False)
      (fun result _ => ∃ found, result = outcomes ++ found ∧
        List.Forall₂ (Reports tools store) ids found) s := by
  induction rest generalizing ids outcomes registered s with
  | nil =>
    have hnil : ids = [] := by simpa using hids.symm
    subst hnil
    unfold recoverEntries
    exact wp_pure.mpr ⟨[], (List.append_nil _).symm, .nil⟩
  | cons entry rest ih =>
    obtain ⟨engineId, ids, rfl⟩ : ∃ engineId tail, ids = engineId :: tail := by
      cases ids with
      | nil => simp at hids
      | cons engineId ids => exact ⟨engineId, ids, rfl⟩
    rw [List.map_cons, List.map_cons, List.cons.injEq] at hids
    obtain ⟨hentry, hrest⟩ := List.forall_mem_cons.mp hrest
    rw [List.length_cons] at hroom
    unfold recoverEntries
    rw [wp_ite]
    refine ⟨fun hfull => absurd hfull (by omega), fun _ => ?_⟩
    simp only [hids.1]
    rw [wp_bind]
    refine (recoverEngine_wp hkeys h (.inl ⟨entry, hentry, rfl⟩) hregistered).mono (fun _ h => h)
      (fun _ _ h => h) ?_
    rintro ⟨outcome, registered'⟩ t ⟨hreports, hregistered'⟩
    have hroom' : (outcomes ++ [outcome]).length + rest.length ≤ maxReportedEngines := by
      rw [List.length_append, List.length_singleton]
      omega
    refine (ih hids.2 hrest hroom' hregistered').mono (fun _ h => h) (fun _ _ h => h) ?_
    rintro result u ⟨found, rfl, hfound⟩
    exact ⟨outcome :: found, by rw [List.append_assoc, List.singleton_append], .cons hreports hfound⟩

/-- Among different engines, one outcome is about each. -/
theorem filter_reports {ids : List String} {found : List EngineRecovery} (hnodup : ids.Nodup)
    (hfound : List.Forall₂ (Reports tools store) ids found) (hengine : engineId ∈ ids) :
    ∃ outcome, found.filter (·.engineId = engineId) = [outcome] ∧
      Reports tools store engineId outcome := by
  induction hfound with
  | nil => cases hengine
  | @cons id outcome ids found hreports hfound ih =>
    obtain ⟨hnew, hnodup⟩ := List.nodup_cons.mp hnodup
    rw [List.filter_cons]
    by_cases hid : id = engineId
    · subst hid
      have hothers : found.filter (·.engineId = id) = [] := by
        rw [List.filter_eq_nil_iff]
        intro other hother hsame
        obtain ⟨k, hk, hother⟩ := List.mem_iff_getElem.mp hother
        have hk' : k < ids.length := by rw [hfound.length_eq]; exact hk
        have hreport := hfound.get hk' hk
        rw [List.get_eq_getElem, List.get_eq_getElem, hother] at hreport
        refine hnew (List.mem_iff_getElem.mpr ⟨k, hk', ?_⟩)
        rw [← hreport.1]
        exact of_decide_eq_true hsame
      rw [if_pos (decide_eq_true hreports.1), hothers]
      exact ⟨outcome, rfl, hreports⟩
    · rw [if_neg (by simpa [hreports.1] using hid)]
      exact ih hnodup ((List.mem_cons.mp hengine).resolve_left (Ne.symm hid))

end Finds

/-- **The recovery at startup is complete.** After a run of activations and rollbacks, each
    cut off or refused somewhere, that leaves no pointer away and meets no malformed entry, with
    at most 64 pointers, different executable names of different engines, pointers that can be
    written, and different keys of the packs in the store: the recovery succeeds, with one
    outcome for every engine that was ever activated, and the engine is usable whenever an
    installed version verifies. -/
theorem recovery_complete {codec : RegistryCodec} {tools : PackTools} {store : EngineStore}
    {nonces : String → Uuid} {stems : List String} {events : List RegistryEvent} {s : RegistryState}
    (hcodec : codec.Lossless) (hrun : HealthyRun codec tools events s)
    (hlisting : Listing s.files stems) (hroom : stems.length ≤ maxReportedEngines)
    (hkeys : KeysApart store)
    (hcandidates : ∀ entries, readActiveEntries codec s.files stems = .ok entries →
      CandidatesApart codec tools store entries) :
    ∃ outcomes, (recover codec .none tools store nonces stems (fun _ => none) s.files).result =
        .ok outcomes ∧
      ∀ engineId ∈ s.completed, ∃ outcome, outcomes.filter (·.engineId = engineId) = [outcome] ∧
        ((∃ version ∈ store.packs engineId, Verifies tools store version.manifestPath) →
          outcome.recovered = true) := by
  have hinv := hrun.inv hcodec
  obtain ⟨entries, ids, hentries, hnames, hperm⟩ := readActiveEntries_named hinv.named hlisting
  have hlength : entries.length = ids.length := by simpa using congrArg List.length hnames
  have hroom' : ([] : List EngineRecovery).length + entries.length ≤ maxReportedEngines := by
    rw [List.length_nil, hlength, hperm.length_eq]
    omega
  have hwp : wp (recover codec .none tools store nonces stems fun _ => none) (fun _ => True)
      (fun _ _ => False) (fun outcomes _ => List.Forall₂ (Reports tools store) ids outcomes) s.files := by
    unfold recover
    simp only [wp_bind, wp_get, wp_lift, hentries]
    refine ⟨fun _ h => (by cases h), ?_⟩
    rintro _ ⟨⟩
    refine (recoverEntries_wp hkeys (hcandidates entries hentries) hnames (fun _ h => h) hroom'
      fun _ _ h => by cases h).mono (fun _ h => h) (fun _ _ h => h) ?_
    rintro outcomes t ⟨found, rfl, hfound⟩
    exact hfound
  obtain ⟨outcomes, t, hsucceeds, hreports⟩ := hwp.succeeds
  refine ⟨outcomes, hsucceeds.1, fun engineId hengine => ?_⟩
  have hlisted : engineId ∈ ids :=
    hperm.mem_iff.mpr ((hlisting.2 engineId).mpr (hinv.completed engineId hengine))
  obtain ⟨outcome, hone, hreport⟩ := filter_reports (hperm.nodup_iff.mpr hlisting.1) hreports hlisted
  exact ⟨outcome, hone, hreport.2⟩

end EngineRegistry

namespace EngineRegistry.Sample

open EngineRegistry

def hash : String := "0123456789abcdef0123456789abcdef0123456789abcdef0123456789abcdef"

/-- The directory of an installed version. -/
def installed : PathBuf :=
  packFile (packFile (packFile (.ofString "store") (.ofString "im")) (.ofString "7.1.1-9")) (.ofString hash)

/-- A store with one version, and the pack that is active. -/
def store : EngineStore :=
  { root := .ofString "store"
    listing := fun engineId => if engineId = "im" then [("7.1.1-9", [hash])] else []
    disk := fun path =>
      if path = newer then some (pack "new" [1])
      else if path = packFile installed manifestName then some (installed, (pack "" [2]).2) else none }

/-- A serialiser for the pointers to the two packs. -/
def storeCodec : RegistryCodec :=
  { toVecPretty := fun identity =>
      if identity = ⟨some "im", newer⟩ then .ok [1]
      else if identity = ⟨some "im", packFile installed manifestName⟩ then .ok [2]
      else .error "path contains invalid UTF-8 characters"
    fromSlice := fun bytes =>
      if bytes = [1] then .ok ⟨some "im", newer⟩
      else if bytes = [2] then .ok ⟨some "im", packFile installed manifestName⟩
      else .error "expected value"
    pathLe := fun _ _ => true }

theorem storeCodec_lossless : storeCodec.Lossless := by
  intro identity bytes h
  simp only [storeCodec] at h ⊢
  split_ifs at h with hnewer holder
  · cases h
    rw [hnewer]
    rfl
  · cases h
    rw [holder]
    rfl

/-- The active pack no longer verifies. -/
abbrev brokenTools : PackTools := tools fun bytes => bytes ≠ [1]

/-- What was verified when the engine was activated. -/
def verifiedNewer : VerifiedEnginePack := (manifest "7.1.1-39").verified (.ofString "new") "1" .missing

def verifiedInstalled : VerifiedEnginePack := (manifest "7.1.1-9").verified installed "2" .missing

/-- The directory after a first activation. -/
def activated : RegistryDirectory :=
  ((Files.put (fun _ => none) (.partialFile "im" 1) [1]).rename (.partialFile "im" 1)
    (.entry "im")).remove (.backup "im")

/-- The second activation is cut off between its two renames. -/
def cutOff : RegistryDirectory :=
  ((activated.put (.partialFile "im" 2) [2]).remove (.backup "im")).rename (.entry "im") (.backup "im")

/-- Something else writes an entry. -/
def damaged : RegistryDirectory := activated.put (.entry "other") [3]

theorem activation_step : RegistryStep storeCodec brokenTools ⟨fun _ => none, []⟩
    (.setActive .none verifiedNewer 1) ⟨activated, ["im"]⟩ :=
  .activation .none verifiedNewer 1 ⟨by decide, rfl⟩

theorem cutOff_step : RegistryStep storeCodec brokenTools ⟨activated, ["im"]⟩
    (.setActive .none verifiedInstalled 2) ⟨cutOff, ["im"]⟩ :=
  .leftActivation .none verifiedInstalled 2 (.inl (.inr (List.mem_of_getElem? (i := 5) rfl)))

theorem damaged_step : RegistryStep storeCodec brokenTools ⟨activated, ["im"]⟩
    (.malformed "other" [3]) ⟨damaged, ["im"]⟩ :=
  .malformed "other" [3] rfl

theorem activated_entry (stem : String) :
    activated (.entry stem) = if stem = "im" then some [1] else none := by
  simp [activated, Files.rename, Files.remove, Files.put, Function.update_apply]

theorem activated_backup (engineId : String) : activated (.backup engineId) = none := by
  simp [activated, Files.rename, Files.remove, Files.put, Function.update_apply]

theorem verifies_installed : ∃ version ∈ store.packs "im", Verifies brokenTools store version.manifestPath := by
  refine ⟨⟨"im", "7.1.1-9", hash, packFile installed manifestName⟩, by decide, ?_⟩
  exact ⟨verifiedInstalled, by decide⟩

/-- Nothing else on the disk verifies. -/
theorem eq_verifiedInstalled {path : PathBuf} {verified : VerifiedEnginePack}
    (h : verifyEnginePack brokenTools store.disk path = .ok verified) : verified = verifiedInstalled := by
  by_cases hnewer : path = newer
  · have hbroken : (verifyEnginePack brokenTools store.disk newer).isOk = false := by decide
    rw [← hnewer, h] at hbroken
    cases hbroken
  · by_cases hinstalled : path = packFile installed manifestName
    · have hok : verifyEnginePack brokenTools store.disk (packFile installed manifestName) =
          .ok verifiedInstalled := by decide
      rw [← hinstalled, h] at hok
      exact Except.ok.inj hok
    · have hnone : store.disk path = none := by simp [store, hnewer, hinstalled]
      unfold verifyEnginePack at h
      rw [hnone] at h
      cases h

theorem keysApart : KeysApart store := by
  intro engineId a ha b hb _
  by_cases hengine : engineId = "im"
  · subst hengine
    have hpacks : store.packs "im" = [⟨"im", "7.1.1-9", hash, packFile installed manifestName⟩] := by
      decide
    rw [hpacks, List.mem_singleton] at ha hb
    rw [ha, hb]
  · have hpacks : store.packs engineId = [] := by simp [EngineStore.packs, store, hengine]
    rw [hpacks] at ha
    cases ha

/-- After the cut the recovery reports nothing about the engine; with the damaged entry it
    fails. -/
theorem recovery_incomplete :
    (∃ events, Trace (RegistryStep storeCodec brokenTools) ⟨fun _ => none, []⟩ events ⟨cutOff, ["im"]⟩) ∧
    Listing cutOff [] ∧
    (recover storeCodec .none brokenTools store (fun _ => 3) [] (fun _ => none) cutOff).result = .ok [] ∧
    (∃ version ∈ store.packs "im", Verifies brokenTools store version.manifestPath) ∧
    (∃ events, Trace (RegistryStep storeCodec brokenTools) ⟨fun _ => none, []⟩ events ⟨damaged, ["im"]⟩) ∧
    Listing damaged ["im", "other"] ∧
    (recover storeCodec .none brokenTools store (fun _ => 3) ["im", "other"] (fun _ => none)
      damaged).result.isOk = false := by
  refine ⟨⟨_, .cons activation_step (.cons cutOff_step .nil)⟩, ⟨List.nodup_nil, fun stem => ?_⟩,
    by decide +kernel, verifies_installed, ⟨_, .cons activation_step (.cons damaged_step .nil)⟩,
    ⟨by decide, fun stem => ?_⟩, by decide⟩
  · have hother : cutOff (.entry stem) = none := by
      simp [cutOff, Files.rename, Files.remove, Files.put, Function.update_apply, activated_entry]
    simp [hother]
  · have hother : damaged (.entry stem) = if stem = "other" then some [3] else
        if stem = "im" then some [1] else none := by
      simp [damaged, Files.put, Function.update_apply, activated_entry]
    rw [hother]
    by_cases h : stem = "other" <;> simp [h]

/-- The engine whose active pack is broken falls back to the installed version. -/
theorem recovery_complete_fallBack : ∃ outcomes,
    (recover storeCodec .none brokenTools store (fun _ => 3) ["im"] (fun _ => none) activated).result =
      .ok outcomes ∧
    ∃ outcome, outcomes.filter (·.engineId = "im") = [outcome] ∧ outcome.recovered = true := by
  have hrun : HealthyRun storeCodec brokenTools [.setActive .none verifiedNewer 1] ⟨activated, ["im"]⟩ := by
    refine .cons ⟨activation_step, nofun, fun engineId haway => ?_⟩ .nil
    exact haway.2 (activated_backup engineId)
  have hlisting : Listing activated ["im"] := by
    refine ⟨List.nodup_singleton _, fun stem => ?_⟩
    rw [activated_entry]
    simp
  have hcandidates : ∀ entries, readActiveEntries storeCodec activated ["im"] = .ok entries →
      CandidatesApart storeCodec brokenTools store entries := by
    refine fun entries _ => ⟨fun p q v w _ _ hv hw hne => absurd ?_ hne, fun p v _ hv => ?_⟩
    · rw [eq_verifiedInstalled hv, eq_verifiedInstalled hw]
    · rw [eq_verifiedInstalled hv]
      exact ⟨[2], rfl⟩
  obtain ⟨outcomes, hresult, hreports⟩ :=
    recovery_complete storeCodec_lossless hrun hlisting (by decide) keysApart hcandidates
  obtain ⟨outcome, hone, hrecovered⟩ := hreports "im" (by decide)
  exact ⟨outcomes, hresult, outcome, hone, hrecovered verifies_installed⟩

end EngineRegistry.Sample

end Anole
