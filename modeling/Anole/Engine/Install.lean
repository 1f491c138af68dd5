import Anole.Engine.Pack

/-!
# The installation of engine packs

`install_engine_pack` (`crates/core/src/engine_pack.rs`, lines 284–431) for any number of calls
on a shared disk. Every look at a file, every copy and every rename is a step; the steps of the
calls interleave in any order with what other processes do to the packs.

* `installed_pack_addressed`: in a run in which the manifests keep the hashes that they are
  stored or accepted under, a call that succeeds reports the pack that the verification of
  its source accepted, in the directory of its hash.

**Deviation.** A pack that is found at the destination is verified, and so is the copy, but
neither is compared with the source (`Sample.install_reports_another`).
-/

open Common

namespace Anole

/-- The directory of a pack: a source, a staging directory (lines 320–324), or its place in
    the store (lines 306–316). -/
inductive PackDir where
  | source (path : PathBuf)
  | staging (engineId version sha256 : String) (nonce : Uuid)
  | store (engineId version sha256 : String)
  deriving DecidableEq

/-- The hash in the name of a directory. -/
def PackDir.sha256 : PackDir → Option String
  | .source _ => none
  | .staging _ _ sha256 _ => some sha256
  | .store _ _ sha256 => some sha256

/-- The path of a directory. -/
def PackDir.path (storeRoot : PathBuf) : PackDir → PathBuf
  | .source path => path
  | .staging engineId version sha256 nonce =>
    packFile (packFile (packFile storeRoot (.ofString engineId)) (.ofString version))
      (.ofString s!".{sha256}.{nonce.toText}.partial")
  | .store engineId version sha256 =>
    packFile (packFile (packFile storeRoot (.ofString engineId)) (.ofString version))
      (.ofString sha256)

/-- The directories with their files. -/
abbrev PackDirs := PackDir → Option PackFiles

/-- The files of a directory that may not be there. -/
def PackDirs.files (dirs : PackDirs) (dir : PackDir) : PackFiles := (dirs dir).getD fun _ => none

/-- The content of the manifest of a directory. -/
def PackDirs.manifest (dirs : PackDirs) (dir : PackDir) : Option Bytes :=
  (dirs.files dir manifestName).bind PackEntry.content

/-! ## Verification, look by look -/

/-- What a verification has accepted: the directory it really looked at, the bytes of the
    manifest, and the contents whose hashes it compared. -/
structure Accepted where
  dir : PackDir
  pack : VerifiedEnginePack
  bytes : Bytes
  seen : List (PathBuf × Bytes)

/-- The next look of `verify_engine_pack`. -/
inductive VerifyPc where
  | canonicalize (dir : PackDir)
  | readManifest (dir : PackDir)
  | check (dir : PackDir) (manifest : EngineManifest) (bytes : Bytes)
      (seen : List (PathBuf × Bytes)) (todo : List PackCheck)

/-- What follows a look. -/
inductive VerifyNext where
  | goOn (pc : VerifyPc)
  | accepted (accepted : Accepted)
  | rejected (error : AnoleError)

section Steps

variable (tools : PackTools) (storeRoot : PathBuf) (dirs : PackDirs) (manifestAt : PackDir → PackDir)

/-- What a check has hashed. -/
def PackCheck.hashed (files : PackFiles) : PackCheck → List (PathBuf × Bytes)
  | .present _ _ => []
  | .digest _ relative _ => ((files relative).bind PackEntry.content).toList.map fun c => (relative, c)

/-- One look of `verify_engine_pack` (lines 109–205). -/
def verifyStep : VerifyPc → VerifyNext
  | .canonicalize dir =>
    match dirs.manifest dir with
    | none => .rejected (engineError "Engine manifest is unavailable" "No such file or directory (os error 2)")
    | some _ => .goOn (.readManifest (manifestAt dir))
  | .readManifest dir =>
    match readManifest tools (dirs.files dir) with
    | .error error => .rejected error
    | .ok (manifest, bytes) => .goOn (.check dir manifest bytes [] manifest.checks)
  | .check dir manifest bytes seen (check :: todo) =>
    match check.run tools (dirs.files dir) with
    | .error error => .rejected error
    | .ok () => .goOn (.check dir manifest bytes (seen ++ check.hashed (dirs.files dir)) todo)
  | .check dir manifest bytes seen [] =>
    match reviewPack tools (dirs.files dir) manifest with
    | .error error => .rejected error
    | .ok review =>
      .accepted ⟨dir, manifest.verified (dir.path storeRoot) (tools.sha256 bytes) review, bytes, seen⟩

/-! ## Installation, step by step -/

/-- `copy_pack_relative` (lines 409–417): the look at the source, and the copy. -/
inductive CopyStep where
  | resolve (purpose : String) (relative : PathBuf)
  | copy (purpose : String) (relative : PathBuf)

/-- The copies of `stage_verified_pack` after the manifest (lines 374–405). -/
def EngineManifest.copies (manifest : EngineManifest) : List CopyStep :=
  let files : List (String × PathBuf) :=
    (manifest.executables.map fun e => ("engine executable", e.relativePath)) ++
    (manifest.runtimeFiles.map fun f => ("engine runtime file", f.relativePath)) ++
    (manifest.licenses.flatMap fun license => ("license notice", license.noticePath) ::
      (license.sourceOfferPath.toList.map fun path => ("source offer", path))) ++
    (manifest.supplyChain.toList.flatMap fun chain =>
      [("engine SBOM", chain.sbomPath), ("engine source inventory", chain.sourcesPath)])
  files.flatMap fun (purpose, relative) => [.resolve purpose relative, .copy purpose relative]

/-- The next step of `install_engine_pack`. -/
inductive InstallPc where
  | verifySource (pc : VerifyPc)
  | lookForPack (source : Accepted)
  | createStaging (source : Accepted)
  | copyManifest (source : Accepted)
  | copy (source : Accepted) (todo : List CopyStep)
  | verifyStaging (source : Accepted) (pc : VerifyPc)
  | publish (source : Accepted)
  | lookAgain (source : Accepted)
  | dropStaging (source : Accepted)
  | activate (source : Accepted) (staged : Bool) (pc : VerifyPc)
  | register (source : Accepted) (staged : Bool) (found : Accepted)
  | cleanUp (source : Accepted) (error : AnoleError)
  | returned (source : Option Accepted) (result : Except AnoleError Accepted)

/-- The place of a pack in the store. -/
def Accepted.destination (source : Accepted) : PackDir :=
  .store source.pack.manifest.engineId source.pack.manifest.version source.pack.manifestSha256

/-- Its staging directory. -/
def Accepted.staging (source : Accepted) (nonce : Uuid) : PackDir :=
  .staging source.pack.manifest.engineId source.pack.manifest.version source.pack.manifestSha256 nonce

/-- `fs::copy` of a file of one directory into another, with `create_dir_all` for its parent.
    A link at the destination is followed. -/
def copyFile (source destination : PackDir) (relative : PathBuf) : Except AnoleError PackDirs :=
  match (dirs.files source relative).bind PackEntry.content with
  | none => .error (engineError s!"Cannot copy {relative.toStringLossy}"
      "No such file or directory (os error 2)")
  | some content =>
    match dirs.files destination relative with
    | some .directory => .error (engineError s!"Cannot copy {relative.toStringLossy}"
        "Is a directory (os error 21)")
    | some (.outside _) => .ok (Function.update dirs destination
        (some (Function.update (dirs.files destination) relative (some (.outside content)))))
    | _ => .ok (Function.update dirs destination
        (some (Function.update (dirs.files destination) relative (some (.file content)))))

/-- One step of a call; `renames` says whether the system carries out a rename. -/
def installStep (registered : RegisteredEngines) (nonce : Uuid) (renames : Bool) :
    InstallPc → PackDirs × RegisteredEngines × InstallPc
  | .verifySource pc => match verifyStep tools storeRoot dirs manifestAt pc with
    | .goOn pc => (dirs, registered, .verifySource pc)
    | .rejected error => (dirs, registered, .returned none (.error error))
    | .accepted source => (dirs, registered, .lookForPack source)
  | .lookForPack source =>
    if dirs.manifest source.destination = none then (dirs, registered, .createStaging source)
    else (dirs, registered, .activate source false (.canonicalize source.destination))
  | .createStaging source =>
    if (dirs (source.staging nonce)).isSome then
      (dirs, registered, .returned (some source) (.error (engineError
        "Cannot create engine staging directory" "File exists (os error 17)")))
    else (Function.update dirs (source.staging nonce) (some fun _ => none), registered,
      .copyManifest source)
  | .copyManifest source => match copyFile dirs source.dir (source.staging nonce) manifestName with
    | .error error => (dirs, registered, .cleanUp source error)
    | .ok dirs => (dirs, registered, .copy source source.pack.manifest.copies)
  | .copy source (.resolve purpose relative :: todo) =>
    match resolvePackFile (dirs.files source.dir) relative purpose with
    | .error error => (dirs, registered, .cleanUp source error)
    | .ok () => (dirs, registered, .copy source todo)
  | .copy source (.copy _ relative :: todo) =>
    match copyFile dirs source.dir (source.staging nonce) relative with
    | .error error => (dirs, registered, .cleanUp source error)
    | .ok dirs => (dirs, registered, .copy source todo)
  | .copy source [] => (dirs, registered, .verifyStaging source (.canonicalize (source.staging nonce)))
  | .verifyStaging source pc => match verifyStep tools storeRoot dirs manifestAt pc with
    | .goOn pc => (dirs, registered, .verifyStaging source pc)
    | .rejected error => (dirs, registered, .cleanUp source error)
    | .accepted _ => (dirs, registered, .publish source)
  | .publish source =>
    if renames ∧ (dirs (source.staging nonce)).isSome then
      (Function.update (Function.update dirs source.destination (dirs (source.staging nonce)))
        (source.staging nonce) none, registered,
        .activate source true (.canonicalize source.destination))
    else (dirs, registered, .lookAgain source)
  | .lookAgain source =>
    if dirs.manifest source.destination = none then
      (dirs, registered, .cleanUp source (engineError "Cannot publish engine pack"
        "Directory not empty (os error 39)"))
    else (dirs, registered, .dropStaging source)
  | .dropStaging source => (Function.update dirs (source.staging nonce) none, registered,
      .activate source true (.canonicalize source.destination))
  | .activate source staged pc => match verifyStep tools storeRoot dirs manifestAt pc with
    | .goOn pc => (dirs, registered, .activate source staged pc)
    | .rejected error => (dirs, registered,
        if staged then .cleanUp source error else .returned (some source) (.error error))
    | .accepted found => (dirs, registered, .register source staged found)
  | .register source staged found => match registerEnginePackPaths registered found.pack with
    | .error error => (dirs, registered,
        if staged then .cleanUp source error else .returned (some source) (.error error))
    | .ok registered => (dirs, registered, .returned (some source) (.ok found))
  | .cleanUp source error => (Function.update dirs (source.staging nonce) none, registered,
      .returned (some source) (.error error))
  | .returned source result => (dirs, registered, .returned source result)

end Steps

/-! ## Interleavings -/

/-- The shared disk, where the manifest of each directory really is, the executables of the
    process, and how far the calls are. -/
structure InstallWorld where
  dirs : PackDirs
  manifestAt : PackDir → PackDir
  registered : RegisteredEngines
  calls : ℕ → InstallPc

/-- A step of a call, or what another process does: a directory gets other content or goes, a
    manifest becomes a link to another one. -/
inductive InstallEvent where
  | call (i : ℕ) (renames : Bool)
  | write (dir : PackDir) (files : Option PackFiles)
  | link (dir target : PackDir)

section Interleavings

variable (tools : PackTools) (storeRoot : PathBuf) (nonces : ℕ → Uuid)

def InstallWorld.step (world : InstallWorld) : InstallEvent → InstallWorld
  | .call i renames =>
    let (dirs, registered, pc) := installStep tools storeRoot world.dirs world.manifestAt
      world.registered (nonces i) renames (world.calls i)
    { world with dirs := dirs, registered := registered, calls := Function.update world.calls i pc }
  | .write dir files => { world with dirs := Function.update world.dirs dir files }
  | .link dir target => { world with manifestAt := Function.update world.manifestAt dir target }

/-- The calls at their start, on a disk with any content. -/
def InstallWorld.start (dirs : PackDirs) (manifestAt : PackDir → PackDir)
    (registered : RegisteredEngines) (paths : ℕ → PathBuf) : InstallWorld :=
  ⟨dirs, manifestAt, registered, fun i => .verifySource (.canonicalize (.source (paths i)))⟩

/-- What a call relies on between two steps: its source still has the manifest that was read. -/
def VerifyPc.guards : VerifyPc → Option (PackDir × String)
  | .check dir _ bytes _ _ => some (dir, tools.sha256 bytes)
  | _ => none

def InstallPc.guards : InstallPc → Option (PackDir × String)
  | .verifySource pc => pc.guards tools
  | .lookForPack source | .createStaging source | .copyManifest source | .copy source _ =>
    some (source.dir, source.pack.manifestSha256)
  | _ => none

/-- The manifest of a directory has a hash, if there is one. -/
def Kept (dirs : PackDirs) (dir : PackDir) (sha256 : String) : Prop :=
  ∀ bytes, dirs.manifest dir = some bytes → tools.sha256 bytes = sha256

/-- The manifest of a directory has the hash in the name of the directory. -/
def Addressed (dirs : PackDirs) (dir : PackDir) : Prop :=
  ∀ sha256, dir.sha256 = some sha256 → Kept tools dirs dir sha256

/-- Other processes keep the manifests: in a directory with a hash in its name they put a
    manifest with that hash or none, and no link; and they leave the manifest of a source
    alone between its verification and its last copy. -/
def InstallWorld.Undisturbed (world : InstallWorld) : InstallEvent → Prop
  | .call _ _ => True
  | .write dir files =>
    Addressed tools (Function.update world.dirs dir files) dir ∧
    ∀ i sha256, (world.calls i).guards tools = some (dir, sha256) →
      Kept tools (Function.update world.dirs dir files) dir sha256
  | .link dir target => dir.sha256 = none ∨ target = dir

/-- Runs in which other processes keep the manifests. -/
abbrev KeptRun : InstallWorld → List InstallEvent → InstallWorld → Prop :=
  Trace fun world event world' => world.Undisturbed tools event ∧
    world' = world.step tools storeRoot nonces event

end Interleavings

/-! ## Manifests under the steps -/

section Frame

variable {tools : PackTools} {dirs dirs' : PackDirs} {dir dir' source destination : PackDir}
  {files : Option PackFiles} {sha256 : String} {relative : PathBuf}

theorem manifest_update_self :
    PackDirs.manifest (Function.update dirs dir files) dir =
      ((files.getD fun _ => none) manifestName).bind PackEntry.content := by
  unfold PackDirs.manifest PackDirs.files
  rw [Function.update_self]

theorem manifest_update_of_ne (h : dir' ≠ dir) :
    PackDirs.manifest (Function.update dirs dir files) dir' = dirs.manifest dir' := by
  unfold PackDirs.manifest PackDirs.files
  rw [Function.update_of_ne h]

/-- A copy brings the manifest of the source, or leaves the manifests alone. -/
theorem copyFile_manifest (h : copyFile dirs source destination relative = .ok dirs')
    (dir : PackDir) : dirs'.manifest dir = dirs.manifest dir ∨
      dir = destination ∧ dirs'.manifest dir = dirs.manifest source := by
  obtain ⟨content, entry, hcontent, hentry, rfl⟩ : ∃ content entry,
      (dirs.files source relative).bind PackEntry.content = some content ∧
        PackEntry.content entry = some content ∧ dirs' = Function.update dirs destination
          (some (Function.update (dirs.files destination) relative (some entry))) := by
    unfold copyFile at h
    split at h
    · cases h
    · next content hcontent =>
      split at h
      · cases h
      · exact ⟨content, .outside content, hcontent, rfl, (Except.ok.inj h).symm⟩
      · exact ⟨content, .file content, hcontent, rfl, (Except.ok.inj h).symm⟩
  by_cases hdir : dir = destination
  · rw [hdir, manifest_update_self, Option.getD_some]
    by_cases hname : manifestName = relative
    · rw [hname, Function.update_self]
      refine .inr ⟨rfl, ?_⟩
      rw [PackDirs.manifest, hname, hcontent]
      exact hentry
    · rw [Function.update_of_ne hname]
      exact .inl rfl
  · exact .inl (manifest_update_of_ne hdir)

/-- What a step of a call may do to the manifests: it puts one with the right hash, or none,
    in a directory with a hash in its name. -/
def Frame (tools : PackTools) (dirs dirs' : PackDirs) : Prop :=
  ∀ dir, dirs'.manifest dir = dirs.manifest dir ∨
    ∃ sha256, dir.sha256 = some sha256 ∧ Kept tools dirs' dir sha256

theorem Frame.refl : Frame tools dirs dirs := fun _ => .inl rfl

/-- A guard: the manifest still has its hash, which is that of the name of the directory. -/
def Guarded (tools : PackTools) (dirs : PackDirs) (dir : PackDir) (sha256 : String) : Prop :=
  Kept tools dirs dir sha256 ∧ ∀ name, dir.sha256 = some name → sha256 = name

theorem Frame.addressed (h : Frame tools dirs dirs') (hdir : Addressed tools dirs dir) :
    Addressed tools dirs' dir := by
  intro sha256 hsha bytes hbytes
  rcases h dir with hsame | ⟨name, hname, hkept⟩
  · exact hdir sha256 hsha bytes (hsame ▸ hbytes)
  · rw [hname, Option.some.injEq] at hsha
    exact hsha ▸ hkept bytes hbytes

theorem Frame.guarded (h : Frame tools dirs dirs') (hdir : Guarded tools dirs dir sha256) :
    Guarded tools dirs' dir sha256 := by
  refine ⟨fun bytes hbytes => ?_, hdir.2⟩
  rcases h dir with hsame | ⟨name, hname, hkept⟩
  · exact hdir.1 bytes (hsame ▸ hbytes)
  · exact (hkept bytes hbytes).trans (hdir.2 name hname).symm

end Frame

/-! ## What a call knows -/

/-- The hash that a check compares, in lower case. -/
def PackCheck.declared : PackCheck → Option (PathBuf × String)
  | .present _ _ => none
  | .digest _ relative sha256 => some (relative, toAsciiLowercase sha256)

/-- The payload of a manifest: the files with their hashes. -/
def EngineManifest.digests (manifest : EngineManifest) : List (PathBuf × String) :=
  manifest.checks.filterMap PackCheck.declared

section Knowledge

variable (tools : PackTools) (storeRoot : PathBuf)

/-- The contents that were hashed, with their hashes. -/
def digestsOf (seen : List (PathBuf × Bytes)) : List (PathBuf × String) :=
  seen.map fun (relative, content) => (relative, toAsciiLowercase (tools.sha256 content))

/-- What a verification has seen is what its manifest declares, as far as it has come. -/
def VerifyPc.Sound : VerifyPc → Prop
  | .check _ manifest bytes seen todo => tools.fromSlice bytes = .ok manifest ∧
      digestsOf tools seen ++ todo.filterMap PackCheck.declared = manifest.digests
  | _ => True

/-- A verification of the directory `dir`, and that of a manifest with a hash. -/
def VerifyPc.At (dir : PackDir) (sha256 : String) : VerifyPc → Prop
  | .canonicalize dir' | .readManifest dir' => dir' = dir
  | .check dir' _ bytes _ _ => dir' = dir ∧ tools.sha256 bytes = sha256

/-- What an accepted pack is. -/
structure Accepted.Sound (accepted : Accepted) : Prop where
  parsed : tools.fromSlice accepted.bytes = .ok accepted.pack.manifest
  hashed : accepted.pack.manifestSha256 = tools.sha256 accepted.bytes
  place : accepted.pack.manifestPath = packFile (accepted.dir.path storeRoot) manifestName
  payload : digestsOf tools accepted.seen = accepted.pack.manifest.digests

/-- The pack that was found for a source is in the directory of the source's hash, with a
    manifest of that hash. -/
structure Accepted.FoundFor (found source : Accepted) : Prop where
  sourceSound : source.Sound tools storeRoot
  foundSound : found.Sound tools storeRoot
  dir : found.dir = source.destination
  sha256 : tools.sha256 found.bytes = source.pack.manifestSha256

/-- What a call knows. -/
def InstallPc.Sound : InstallPc → Prop
  | .verifySource pc => pc.Sound tools
  | .lookForPack source | .createStaging source | .copyManifest source | .copy source _
  | .verifyStaging source _ | .publish source | .lookAgain source | .dropStaging source
  | .cleanUp source _ => source.Sound tools storeRoot
  | .activate source _ pc => source.Sound tools storeRoot ∧ pc.Sound tools ∧
      pc.At tools source.destination source.pack.manifestSha256
  | .register source _ found | .returned (some source) (.ok found) =>
    found.FoundFor tools storeRoot source
  | .returned _ _ => True

end Knowledge

section VerifyStep

variable {tools : PackTools} {storeRoot : PathBuf} {dirs : PackDirs}
  {manifestAt : PackDir → PackDir} {pc pc' : VerifyPc} {found : Accepted} {dir : PackDir}
  {sha256 : String}

/-- The looks after which a verification goes on. -/
theorem verifyStep_goOn (h : verifyStep tools storeRoot dirs manifestAt pc = .goOn pc') :
    (∃ dir, pc = .canonicalize dir ∧ pc' = .readManifest (manifestAt dir)) ∨
    (∃ dir manifest bytes, pc = .readManifest dir ∧ dirs.manifest dir = some bytes ∧
      tools.fromSlice bytes = .ok manifest ∧ pc' = .check dir manifest bytes [] manifest.checks) ∨
    (∃ dir manifest bytes seen check todo, pc = .check dir manifest bytes seen (check :: todo) ∧
      check.run tools (dirs.files dir) = .ok () ∧
      pc' = .check dir manifest bytes (seen ++ check.hashed (dirs.files dir)) todo) := by
  unfold verifyStep at h
  split at h
  · next dir =>
    split at h
    · cases h
    · exact .inl ⟨dir, rfl, (VerifyNext.goOn.inj h).symm⟩
  · next dir =>
    split at h
    · cases h
    · next manifest bytes hread =>
      obtain ⟨hbytes, hparse, -⟩ := readManifest_eq_ok.mp hread
      exact .inr (.inl ⟨dir, manifest, bytes, rfl, hbytes, hparse, (VerifyNext.goOn.inj h).symm⟩)
  · next dir manifest bytes seen check todo =>
    split at h
    · cases h
    · next hrun =>
      exact .inr (.inr ⟨dir, manifest, bytes, seen, check, todo, rfl, hrun,
        (VerifyNext.goOn.inj h).symm⟩)
  · split at h <;> cases h

theorem verifyStep_accepted (h : verifyStep tools storeRoot dirs manifestAt pc = .accepted found) :
    ∃ dir manifest bytes seen review, pc = .check dir manifest bytes seen [] ∧
      found = ⟨dir, manifest.verified (dir.path storeRoot) (tools.sha256 bytes) review, bytes, seen⟩ := by
  unfold verifyStep at h
  split at h
  · split at h <;> cases h
  · split at h <;> cases h
  · split at h <;> cases h
  · next dir manifest bytes seen =>
    split at h
    · cases h
    · next review _ =>
      exact ⟨dir, manifest, bytes, seen, review, rfl, (VerifyNext.accepted.inj h).symm⟩

/-- A check that succeeds has seen what it declares. -/
theorem digestsOf_hashed {check : PackCheck} {files : PackFiles}
    (h : check.run tools files = .ok ()) :
    digestsOf tools (check.hashed files) = check.declared.toList := by
  cases check with
  | present purpose relative => rfl
  | digest mismatch relative expected =>
    rw [PackCheck.run] at h
    rw [PackCheck.hashed, PackCheck.declared, digestsOf]
    cases hcontent : (files relative).bind PackEntry.content with
    | none =>
      rw [hcontent] at h
      cases h
    | some content =>
      rw [hcontent] at h
      have hsame : toAsciiLowercase (tools.sha256 content) = toAsciiLowercase expected :=
        not_not.mp (failWhen_eq_ok.mp h)
      simp [hsame]

theorem VerifyPc.Sound.goOn (hpc : pc.Sound tools)
    (h : verifyStep tools storeRoot dirs manifestAt pc = .goOn pc') : pc'.Sound tools := by
  obtain ⟨dir, rfl, rfl⟩ | ⟨dir, manifest, bytes, rfl, -, hparse, rfl⟩ |
    ⟨dir, manifest, bytes, seen, check, todo, rfl, hrun, rfl⟩ := verifyStep_goOn h
  · trivial
  · exact ⟨hparse, rfl⟩
  · obtain ⟨hparse, hseen⟩ := hpc
    refine ⟨hparse, ?_⟩
    rw [← hseen, digestsOf, List.map_append, List.append_assoc]
    congr 1
    have hhashed := digestsOf_hashed hrun
    unfold digestsOf at hhashed
    rw [hhashed, List.filterMap_cons]
    cases check.declared <;> rfl

theorem VerifyPc.Sound.accepted (hpc : pc.Sound tools)
    (h : verifyStep tools storeRoot dirs manifestAt pc = .accepted found) :
    found.Sound tools storeRoot := by
  obtain ⟨dir, manifest, bytes, seen, review, rfl, rfl⟩ := verifyStep_accepted h
  obtain ⟨hparse, hseen⟩ := hpc
  rw [List.filterMap_nil, List.append_nil] at hseen
  exact ⟨hparse, rfl, rfl, hseen⟩

/-- A verification of an addressed directory stays there, and finds its hash. -/
theorem VerifyPc.At.goOn (hpc : pc.At tools dir sha256) (hdir : dir.sha256 = some sha256)
    (haddressed : Addressed tools dirs dir) (hlink : manifestAt dir = dir)
    (h : verifyStep tools storeRoot dirs manifestAt pc = .goOn pc') : pc'.At tools dir sha256 := by
  obtain ⟨_, rfl, rfl⟩ | ⟨_, manifest, bytes, rfl, hbytes, -, rfl⟩ |
    ⟨_, manifest, bytes, seen, check, todo, rfl, -, rfl⟩ := verifyStep_goOn h
  · cases hpc
    exact hlink
  · cases hpc
    exact ⟨rfl, haddressed sha256 hdir bytes hbytes⟩
  · exact hpc

theorem VerifyPc.At.accepted (hpc : pc.At tools dir sha256)
    (h : verifyStep tools storeRoot dirs manifestAt pc = .accepted found) :
    found.dir = dir ∧ tools.sha256 found.bytes = sha256 := by
  obtain ⟨_, manifest, bytes, seen, review, rfl, rfl⟩ := verifyStep_accepted h
  exact hpc

/-- The source of a verification is guarded from the moment its manifest is read. -/
theorem guards_goOn (haddressed : ∀ dir, Addressed tools dirs dir)
    (hpc : ∀ dir sha256, pc.guards tools = some (dir, sha256) → Guarded tools dirs dir sha256)
    (h : verifyStep tools storeRoot dirs manifestAt pc = .goOn pc')
    (hguard : pc'.guards tools = some (dir, sha256)) : Guarded tools dirs dir sha256 := by
  obtain ⟨_, rfl, rfl⟩ | ⟨_, manifest, bytes, rfl, hbytes, -, rfl⟩ |
    ⟨_, manifest, bytes, seen, check, todo, rfl, -, rfl⟩ := verifyStep_goOn h
  · cases hguard
  · cases hguard
    refine ⟨fun bytes' hbytes' => ?_, fun name hname => haddressed _ name hname bytes hbytes⟩
    rw [hbytes, Option.some.injEq] at hbytes'
    rw [hbytes']
  · exact hpc dir sha256 hguard

end VerifyStep

/-! ## Steps and runs -/

section Run

variable {tools : PackTools} {storeRoot : PathBuf} {dirs dirs' : PackDirs}
  {manifestAt : PackDir → PackDir} {registered : RegisteredEngines} {nonce : Uuid}
  {nonces : ℕ → Uuid} {renames : Bool} {pc pc' : InstallPc} {world : InstallWorld}
  {event : InstallEvent} {source : Accepted}

/-- The guard of a call holds. -/
def InstallPc.Guarded (tools : PackTools) (dirs : PackDirs) (pc : InstallPc) : Prop :=
  ∀ dir sha256, pc.guards tools = some (dir, sha256) → Anole.Guarded tools dirs dir sha256

/-- What a step of a call keeps. -/
structure Keeps (tools : PackTools) (storeRoot : PathBuf) (dirs : PackDirs)
    (next : PackDirs × RegisteredEngines × InstallPc) : Prop where
  frame : Frame tools dirs next.1
  sound : next.2.2.Sound tools storeRoot
  guarded : next.2.2.Guarded tools next.1

theorem InstallPc.Guarded.frame (h : pc.Guarded tools dirs) (hframe : Frame tools dirs dirs') :
    pc.Guarded tools dirs' := fun dir sha256 hguard => hframe.guarded (h dir sha256 hguard)

/-- A pack that leaves its staging directory leaves no manifest there. -/
theorem frame_dropStaging :
    Frame tools dirs (Function.update dirs (source.staging nonce) none) := by
  intro dir
  by_cases hdir : dir = source.staging nonce
  · refine .inr ⟨source.pack.manifestSha256, by rw [hdir]; rfl, fun bytes hbytes => ?_⟩
    rw [hdir, manifest_update_self] at hbytes
    cases hbytes
  · exact .inl (manifest_update_of_ne hdir)

/-- The copies bring the manifest that the staging directory is named after. -/
theorem frame_copyFile {relative : PathBuf} (hsource : Kept tools dirs source.dir source.pack.manifestSha256)
    (h : copyFile dirs source.dir (source.staging nonce) relative = .ok dirs') :
    Frame tools dirs dirs' := by
  intro dir
  rcases copyFile_manifest h dir with hsame | ⟨rfl, hsame⟩
  · exact .inl hsame
  · exact .inr ⟨source.pack.manifestSha256, rfl, fun bytes hbytes => hsource bytes (hsame ▸ hbytes)⟩

/-- The publication moves a manifest between two directories that are named after it. -/
theorem frame_publish (haddressed : Addressed tools dirs (source.staging nonce)) :
    Frame tools dirs (Function.update
      (Function.update dirs source.destination (dirs (source.staging nonce)))
      (source.staging nonce) none) := by
  intro dir
  by_cases hstaging : dir = source.staging nonce
  · refine .inr ⟨source.pack.manifestSha256, by rw [hstaging]; rfl, fun bytes hbytes => ?_⟩
    rw [hstaging, manifest_update_self] at hbytes
    cases hbytes
  · rw [manifest_update_of_ne hstaging]
    by_cases hdestination : dir = source.destination
    · refine .inr ⟨source.pack.manifestSha256, by rw [hdestination]; rfl, fun bytes hbytes => ?_⟩
      rw [manifest_update_of_ne hstaging, hdestination, manifest_update_self] at hbytes
      exact haddressed _ rfl bytes hbytes
    · exact .inl (manifest_update_of_ne hdestination)

/-- **Step of a call.** -/
theorem installStep_keeps (haddressed : ∀ dir, Addressed tools dirs dir)
    (hlinks : ∀ dir, dir.sha256 ≠ none → manifestAt dir = dir)
    (hsound : pc.Sound tools storeRoot) (hguarded : pc.Guarded tools dirs) :
    Keeps tools storeRoot dirs
      (installStep tools storeRoot dirs manifestAt registered nonce renames pc) := by
  have hunguarded : ∀ {pc : InstallPc} {dirs : PackDirs}, pc.guards tools = none →
      pc.Guarded tools dirs := by
    intro pc dirs hnone dir sha256 hguard
    rw [hnone] at hguard
    cases hguard
  cases pc with
  | verifySource pc =>
    rw [installStep]
    cases hstep : verifyStep tools storeRoot dirs manifestAt pc with
    | goOn pc' =>
      exact ⟨.refl, hsound.goOn hstep, fun _ _ hguard => guards_goOn haddressed hguarded hstep hguard⟩
    | rejected error => exact ⟨.refl, trivial, hunguarded rfl⟩
    | accepted source =>
      refine ⟨.refl, hsound.accepted hstep, ?_⟩
      obtain ⟨dir, manifest, bytes, seen, review, rfl, rfl⟩ := verifyStep_accepted hstep
      exact hguarded
  | lookForPack source =>
    rw [installStep]
    split
    · exact ⟨.refl, hsound, hguarded⟩
    · exact ⟨.refl, ⟨hsound, trivial, rfl⟩, hunguarded rfl⟩
  | createStaging source =>
    rw [installStep]
    split
    · exact ⟨.refl, trivial, hunguarded rfl⟩
    · have hframe : Frame tools dirs
          (Function.update dirs (source.staging nonce) (some fun _ => none)) := by
        intro dir
        by_cases hdir : dir = source.staging nonce
        · refine .inr ⟨source.pack.manifestSha256, by rw [hdir]; rfl, fun bytes hbytes => ?_⟩
          rw [hdir, manifest_update_self] at hbytes
          cases hbytes
        · exact .inl (manifest_update_of_ne hdir)
      have hsource : (InstallPc.copyManifest source).Guarded tools dirs := hguarded
      exact ⟨hframe, hsound, hsource.frame hframe⟩
  | copyManifest source =>
    have hsource := hguarded source.dir source.pack.manifestSha256 rfl
    rw [installStep]
    cases hcopy : copyFile dirs source.dir (source.staging nonce) manifestName with
    | error error => exact ⟨.refl, hsound, hunguarded rfl⟩
    | ok dirs' =>
      have hframe := frame_copyFile hsource.1 hcopy
      have hnext : (InstallPc.copy source source.pack.manifest.copies).Guarded tools dirs := hguarded
      exact ⟨hframe, hsound, hnext.frame hframe⟩
  | copy source todo =>
    have hsource := hguarded source.dir source.pack.manifestSha256 rfl
    cases todo with
    | nil => exact ⟨.refl, hsound, hunguarded rfl⟩
    | cons next todo =>
      have hnext : (InstallPc.copy source todo).Guarded tools dirs := hguarded
      cases next with
      | resolve purpose relative =>
        rw [installStep]
        cases resolvePackFile (dirs.files source.dir) relative purpose with
        | error error => exact ⟨.refl, hsound, hunguarded rfl⟩
        | ok _ => exact ⟨.refl, hsound, hnext⟩
      | copy purpose relative =>
        rw [installStep]
        cases hcopy : copyFile dirs source.dir (source.staging nonce) relative with
        | error error => exact ⟨.refl, hsound, hunguarded rfl⟩
        | ok dirs' =>
          have hframe := frame_copyFile hsource.1 hcopy
          exact ⟨hframe, hsound, hnext.frame hframe⟩
  | verifyStaging source pc =>
    rw [installStep]
    cases verifyStep tools storeRoot dirs manifestAt pc <;> exact ⟨.refl, hsound, hunguarded rfl⟩
  | publish source =>
    rw [installStep]
    split
    · exact ⟨frame_publish (haddressed _), ⟨hsound, trivial, rfl⟩, hunguarded rfl⟩
    · exact ⟨.refl, hsound, hunguarded rfl⟩
  | lookAgain source =>
    rw [installStep]
    split <;> exact ⟨.refl, hsound, hunguarded rfl⟩
  | dropStaging source => exact ⟨frame_dropStaging, ⟨hsound, trivial, rfl⟩, hunguarded rfl⟩
  | activate source staged pc =>
    obtain ⟨hsource, hpc, hat⟩ := hsound
    rw [installStep]
    cases hstep : verifyStep tools storeRoot dirs manifestAt pc with
    | goOn pc' =>
      have hat' := hat.goOn rfl (haddressed _) (hlinks _ (by simp [Accepted.destination, PackDir.sha256])) hstep
      exact ⟨.refl, ⟨hsource, hpc.goOn hstep, hat'⟩, hunguarded rfl⟩
    | rejected error =>
      cases staged
      · exact ⟨.refl, trivial, hunguarded rfl⟩
      · exact ⟨.refl, hsource, hunguarded rfl⟩
    | accepted found =>
      obtain ⟨hdir, hsha⟩ := hat.accepted hstep
      exact ⟨.refl, ⟨hsource, hpc.accepted hstep, hdir, hsha⟩, hunguarded rfl⟩
  | register source staged found =>
    rw [installStep]
    cases registerEnginePackPaths registered found.pack with
    | error error =>
      cases staged
      · exact ⟨.refl, trivial, hunguarded rfl⟩
      · exact ⟨.refl, hsound.sourceSound, hunguarded rfl⟩
    | ok registered' => exact ⟨.refl, hsound, hunguarded rfl⟩
  | cleanUp source error => exact ⟨frame_dropStaging, trivial, hunguarded rfl⟩
  | returned source result => exact ⟨.refl, hsound, hunguarded rfl⟩

/-- What holds in every state of a run in which the manifests are kept. -/
structure InstallWorld.Invariant (tools : PackTools) (storeRoot : PathBuf) (world : InstallWorld) :
    Prop where
  addressed : ∀ dir, Addressed tools world.dirs dir
  links : ∀ dir, dir.sha256 ≠ none → world.manifestAt dir = dir
  sound : ∀ i, (world.calls i).Sound tools storeRoot
  guarded : ∀ i, (world.calls i).Guarded tools world.dirs

/-- **Step.** -/
theorem InstallWorld.Invariant.step (h : world.Invariant tools storeRoot)
    (hevent : world.Undisturbed tools event) :
    (world.step tools storeRoot nonces event).Invariant tools storeRoot := by
  cases event with
  | call i renames =>
    have hkeeps : Keeps tools storeRoot world.dirs (installStep tools storeRoot world.dirs
        world.manifestAt world.registered (nonces i) renames (world.calls i)) :=
      installStep_keeps h.addressed h.links (h.sound i) (h.guarded i)
    refine ⟨fun dir => hkeeps.frame.addressed (h.addressed dir), h.links, fun j => ?_, fun j => ?_⟩
    · by_cases hj : j = i
      · rw [hj]
        simpa [InstallWorld.step] using hkeeps.sound
      · simpa [InstallWorld.step, hj] using h.sound j
    · by_cases hj : j = i
      · rw [hj]
        simpa [InstallWorld.step] using hkeeps.guarded
      · simpa [InstallWorld.step, hj] using (h.guarded j).frame hkeeps.frame
  | write dir files =>
    obtain ⟨hdir, hguards⟩ := hevent
    refine ⟨fun dir' => ?_, h.links, h.sound, fun i dir' sha256 hguard => ?_⟩
    · by_cases hsame : dir' = dir
      · rw [hsame]
        exact hdir
      · intro sha256 hsha bytes hbytes
        exact h.addressed dir' sha256 hsha bytes ((manifest_update_of_ne hsame).symm.trans hbytes)
    · have hold := h.guarded i dir' sha256 hguard
      refine ⟨?_, hold.2⟩
      by_cases hsame : dir' = dir
      · rw [hsame] at hguard ⊢
        exact hguards i sha256 hguard
      · intro bytes hbytes
        exact hold.1 bytes ((manifest_update_of_ne hsame).symm.trans hbytes)
  | link dir target =>
    refine ⟨h.addressed, fun dir' hnamed => ?_, h.sound, h.guarded⟩
    show Function.update world.manifestAt dir target dir' = dir'
    by_cases hsame : dir' = dir
    · rw [hsame] at hnamed ⊢
      rw [Function.update_self]
      exact hevent.resolve_left hnamed
    · rw [Function.update_of_ne hsame]
      exact h.links dir' hnamed

/-- What a successful installation reports: a pack whose manifest has the hash of the one that
    was accepted, in the directory of that hash; and the same manifest has the same payload. -/
structure Installed (tools : PackTools) (storeRoot : PathBuf) (source found : Accepted) : Prop where
  sha256 : found.pack.manifestSha256 = source.pack.manifestSha256
  hashes : tools.sha256 found.bytes = found.pack.manifestSha256 ∧
    tools.sha256 source.bytes = source.pack.manifestSha256
  place : found.pack.manifestPath = packFile (source.destination.path storeRoot) manifestName
  payload : found.bytes = source.bytes →
    found.pack.manifest = source.pack.manifest ∧
      digestsOf tools found.seen = digestsOf tools source.seen

theorem Accepted.FoundFor.installed {found : Accepted}
    (h : found.FoundFor tools storeRoot source) : Installed tools storeRoot source found := by
  obtain ⟨hsource, hfound, hdir, hsha⟩ := h
  refine ⟨hfound.hashed.trans hsha, ⟨hfound.hashed.symm, hsource.hashed.symm⟩, ?_, ?_⟩
  · rw [hfound.place, hdir]
  · intro hbytes
    have hmanifest : found.pack.manifest = source.pack.manifest := by
      have hparsed := hfound.parsed
      rw [hbytes, hsource.parsed] at hparsed
      exact (Except.ok.inj hparsed).symm
    exact ⟨hmanifest, by rw [hfound.payload, hsource.payload, hmanifest]⟩

/-- **In a run in which the manifests are kept**, an installation that succeeds reports the pack
    that the verification of its source accepted, in the directory of its hash. -/
theorem installed_pack_addressed {paths : ℕ → PathBuf} {events : List InstallEvent} {i : ℕ}
    {found : Accepted} (haddressed : ∀ dir, Addressed tools dirs dir)
    (hlinks : ∀ dir, dir.sha256 ≠ none → manifestAt dir = dir)
    (hrun : KeptRun tools storeRoot nonces (.start dirs manifestAt registered paths) events world)
    (hreturned : world.calls i = .returned (some source) (.ok found)) :
    Installed tools storeRoot source found := by
  have hstart : (InstallWorld.start dirs manifestAt registered paths).Invariant tools storeRoot :=
    ⟨haddressed, hlinks, fun _ => trivial, fun _ _ _ hguard => by cases hguard⟩
  have hinvariant : world.Invariant tools storeRoot := by
    refine hrun.invariant hstart fun {s event t} h hstep => ?_
    rw [hstep.2]
    exact h.step hstep.1
  have hsound := hinvariant.sound i
  rw [hreturned] at hsound
  exact Accepted.FoundFor.installed hsound

end Run

/-! ## Samples -/

namespace InstallEngine.Sample

/-- The runtime file of the two packs. -/
def library : PathBuf := .ofString "im.so"

/-- Two manifests of one version. -/
def manifest (sha256 : String) : EngineManifest :=
  { engineId := "im", version := "7", executables := [], runtimeFiles := [⟨library, sha256⟩],
    licenses := [], supplyChain := none, signaturePresent := false }

def tools : PackTools where
  fromSlice
    | [1] => .ok (manifest "a1")
    | [2] => .ok (manifest "a2")
    | _ => .error "expected value"
  checkManifest _ := .ok ()
  sha256
    | [1] => "m1"
    | [2] => "m2"
    | [11] => "a1"
    | _ => "a2"
  reviewSupplyChain _ _ _ := .ok .missing

/-- A pack with a manifest and a runtime file. -/
def packFiles (bytes content : Bytes) : PackFiles := fun relative =>
  if relative = manifestName then some (.file bytes)
  else if relative = library then some (.file content) else none

def sourcePath : PathBuf := .ofString "im"

/-- The source, and no store. -/
def fresh : PackDirs := fun dir =>
  if dir = .source sourcePath then some (packFiles [1] [11]) else none

/-- The directory of the source's hash holds another pack. -/
def occupied : PackDirs := fun dir =>
  if dir = .source sourcePath then some (packFiles [1] [11])
  else if dir = .store "im" "7" "m1" then some (packFiles [2] [12]) else none

/-- The first call, step after step. -/
def steps (n : ℕ) : List InstallEvent := List.replicate n (.call 0 true)

/-- The disk `dirs`, after some steps of the first call. -/
def after (dirs : PackDirs) (n : ℕ) : InstallWorld :=
  (steps n).foldl (InstallWorld.step tools [] fun _ => 0)
    (.start dirs id (fun _ => none) fun _ => sourcePath)

/-- What the verification of a pack accepts. -/
def accepted (dir : PackDir) (bytes content : Bytes) (sha256 : String) : Accepted :=
  ⟨dir, (manifest sha256).verified (dir.path []) (tools.sha256 bytes) .missing, bytes,
    [(library, content)]⟩

/-- Steps of calls keep the manifests by themselves. -/
theorem keptRun_after (dirs : PackDirs) (n : ℕ) :
    KeptRun tools [] (fun _ => 0) (.start dirs id (fun _ => none) fun _ => sourcePath) (steps n)
      (after dirs n) := by
  have hrun : ∀ world : InstallWorld, KeptRun tools [] (fun _ => 0) world (steps n)
      ((steps n).foldl (InstallWorld.step tools [] fun _ => 0) world) := by
    induction n with
    | zero => exact fun _ => .nil
    | succ n ih => exact fun world => .cons ⟨trivial, rfl⟩ (ih _)
  exact hrun _

/-- An installation into an empty store. -/
theorem installed_pack_addressed_fresh :
    Installed tools [] (accepted (.source sourcePath) [1] [11] "a1")
      (accepted (.store "im" "7" "m1") [1] [11] "a1") := by
  have haddressed : ∀ dir, Addressed tools fresh dir := by
    intro dir sha256 hsha bytes hbytes
    unfold PackDirs.manifest PackDirs.files fresh at hbytes
    by_cases hdir : dir = .source sourcePath
    · rw [hdir] at hsha
      cases hsha
    · rw [if_neg hdir] at hbytes
      cases hbytes
  have hreturned : (after fresh 23).calls 0 =
      .returned (some (accepted (.source sourcePath) [1] [11] "a1"))
        (.ok (accepted (.store "im" "7" "m1") [1] [11] "a1")) := rfl
  exact installed_pack_addressed haddressed (fun _ _ => rfl) (keptRun_after fresh 23) hreturned

/-- **Counterexample.** No other process does anything, but the directory of the source's hash
    holds another pack: the installation succeeds with that one. -/
theorem install_reports_another : ∃ (events : List InstallEvent) (world : InstallWorld)
      (source found : Accepted),
    Trace (fun world event world' => world' = InstallWorld.step tools [] (fun _ => 0) world event)
      (.start occupied id (fun _ => none) fun _ => sourcePath) events world ∧
    world.calls 0 = .returned (some source) (.ok found) ∧
    source.pack.manifestSha256 = "m1" ∧ found.pack.manifestSha256 = "m2" ∧
    found.dir = source.destination ∧ ¬ Installed tools [] source found := by
  refine ⟨steps 12, after occupied 12, accepted (.source sourcePath) [1] [11] "a1",
    accepted (.store "im" "7" "m1") [2] [12] "a2", (keptRun_after occupied 12).mono And.right, rfl,
    rfl, rfl, rfl, fun h => ?_⟩
  exact absurd h.sha256 (by decide)

end InstallEngine.Sample

end Anole
