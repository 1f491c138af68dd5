import Anole.Common.Trace
import Anole.Web.Archive

/-!
# Downloads of output directories

Model of `download_job_output` (`crates/server/src/web.rs`, lines 940–1027) for a job that has succeeded
with a directory, of any number of such requests beside each other, and of the sweep that removes what
belongs to the job (lines 228–276).

The archive is built at one path, outside of any lock, and recorded with the job only afterwards. So a
second request may create the file again, which empties it, while a first one builds it or streams it, and
the first one ends as if the archive were whole.

* `DownloadState.next`: the requests and the sweep, operation by operation.
* `downloads_complete`: when every body is a complete archive.
-/

open Common

namespace Anole.Web

/-- What the requests share: whether the job is recorded, and with an archive, whether a sweep is removing what
    belongs to it, its output directory, the file at the path of the archive, and the content of the files that
    were created there. -/
structure Shared where
  recorded : Bool
  cached : Bool
  sweeping : Bool
  outputs : List OutputNode
  archive : Option ℕ
  inodes : List (List UInt8)

/-- The content of a file. -/
def Shared.content (shared : Shared) (inode : ℕ) : List UInt8 := (shared.inodes[inode]?).getD []

/-- How far a request has come: the job was read, with or without an archive, its output is a directory, an
    archive has to be built, is built, was built, is what will be sent, is a file, is sent. -/
inductive Download where
  | opened (cached : Bool)
  | inspected (cached : Bool)
  | needed
  | building (build : Build)
  | built | chosen | found
  | streaming (inode : ℕ) (received : List UInt8)
  /-- the answer 200 with its body -/
  | answered (body : List UInt8)
  /-- another answer, or none -/
  | refused
  deriving DecidableEq

/-- The operations of a request. -/
inductive DownloadStep where
  | inspectOutput
  | inspectArchive
  | create
  | build (step : BuildStep)
  /-- the file is closed, and `zip_directory` returns -/
  | close
  | cacheArchive
  | inspectSource
  | openSource
  /-- a read of the stream, of so many bytes and one at most -/
  | readChunk (size : ℕ)
  /-- the request is dropped, or one of its operations fails -/
  | leave

/-- A request and what it shares after an operation. -/
def Download.next (zip : ZipWriter) (shared : Shared) (download : Download) :
    DownloadStep → Option (Shared × Download)
  | .inspectOutput =>
    match download with
    | .opened cached => some (shared, if isDir shared.outputs [] then .inspected cached else .refused)
    | _ => none
  | .inspectArchive =>
    match download with
    | .inspected cached => some (shared, if cached && shared.archive.isSome then .chosen else .needed)
    | _ => none
  | .create =>
    match download with
    | .needed =>
      match shared.archive with
      | some inode => some ({ shared with inodes := shared.inodes.set inode [] }, .building (.created inode))
      | none => some ({ shared with archive := some shared.inodes.length, inodes := shared.inodes ++ [[]] },
          .building (.created shared.inodes.length))
    | _ => none
  | .build step =>
    match download with
    | .building build =>
      (build.next zip shared.outputs (shared.content build.inode) step).map fun result =>
        ({ shared with inodes := shared.inodes.set build.inode result.2 }, .building result.1)
    | _ => none
  | .close =>
    match download with
    | .building build =>
      if build.queue = [] ∧ build.stage ≠ .walking then
        some (shared, if build.stage = .finishing ∧ build.attended = true then .built else .refused)
      else none
    | _ => none
  | .cacheArchive =>
    match download with
    | .built =>
      if shared.sweeping then none else some ({ shared with cached := shared.cached || shared.recorded }, .chosen)
    | _ => none
  | .inspectSource =>
    match download with
    | .chosen => some (shared, if shared.archive.isSome then .found else .refused)
    | _ => none
  | .openSource =>
    match download with
    | .found => some (shared, shared.archive.elim .refused fun inode => .streaming inode [])
    | _ => none
  | .readChunk size =>
    match download with
    | .streaming inode received =>
      let chunk := ((shared.content inode).drop received.length).take (size + 1)
      some (shared, if chunk = [] then .answered received else .streaming inode (received ++ chunk))
    | _ => none
  | .leave =>
    match download with
    | .answered _ | .refused => none
    | .building build => some (shared, .building { build with attended := false })
    | _ => some (shared, .refused)

/-- The requests for a job, and what they share. -/
structure DownloadState where
  shared : Shared
  downloads : List Download

/-- A job that has succeeded with a directory. -/
def OutputTree.succeeded (tree : OutputTree) : DownloadState := ⟨⟨true, false, false, tree.nodes, none, []⟩, []⟩

/-- A request begins, comes further, or a sweep does. -/
inductive JobStep where
  | openDownload
  | download (i : ℕ) (step : DownloadStep)
  /-- the sweep takes the lock, and the job has expired -/
  | beginSweep
  /-- `remove_dir_all` removes something, in whatever order -/
  | sweepNode (path : List FileName)
  | sweepArchive
  /-- the job is forgotten, whatever was removed -/
  | endSweep

def DownloadState.next (zip : ZipWriter) (web : DownloadState) : JobStep → Option DownloadState
  | .openDownload =>
    if web.shared.recorded ∧ ¬ web.shared.sweeping then
      some { web with downloads := web.downloads ++ [.opened web.shared.cached] }
    else none
  | .download i step =>
    match web.downloads[i]? with
    | none => none
    | some download =>
      (download.next zip web.shared step).map fun result => ⟨result.1, web.downloads.set i result.2⟩
  | .beginSweep =>
    if web.shared.recorded ∧ ¬ web.shared.sweeping then
      some { web with shared := { web.shared with sweeping := true } }
    else none
  | .sweepNode path =>
    if web.shared.sweeping then
      some { web with shared := { web.shared with
        outputs := web.shared.outputs.filter fun node => node.path ≠ path } }
    else none
  | .sweepArchive =>
    if web.shared.sweeping ∧ web.shared.cached then
      some { web with shared := { web.shared with archive := none } }
    else none
  | .endSweep =>
    if web.shared.sweeping then
      some { web with shared := { web.shared with recorded := false, sweeping := false } }
    else none

/-- A step of a job with its requests. -/
def JobStep.Runs (zip : ZipWriter) (web : DownloadState) (step : JobStep) (next : DownloadState) : Prop :=
  web.next zip step = some next

/-! ## What must not meet -/

def Download.isBuilding : Download → Bool
  | .building _ => true
  | _ => false

/-- What a request builds. -/
def Download.build? : Download → Option Build
  | .building build => some build
  | _ => none

/-- The archive is there and will be opened. -/
def Download.isReady : Download → Bool
  | .built | .chosen | .found => true
  | _ => false

def Download.usesArchive (download : Download) : Bool :=
  download.isBuilding || download.isReady || match download with
    | .streaming _ _ => true
    | _ => false

/-- **Undisturbed.** The archive is created when no other request builds it, is on its way to it or streams it,
    and no sweep has begun; it is taken from the record when no request builds it; no build fails when an
    archive is recorded; a sweep begins when no request builds; and a directory is read whole. -/
def Undisturbed (web : DownloadState) : JobStep → Prop
  | .download _ .create => web.shared.recorded = true ∧ web.shared.sweeping = false ∧
      ∀ download ∈ web.downloads, download.usesArchive = false
  | .download i .inspectArchive => web.downloads[i]? = some (.inspected true) → web.shared.archive.isSome = true →
      ∀ download ∈ web.downloads, download.isBuilding = false
  | .download _ (.build (.fail _)) => web.shared.cached = false
  | .download i (.build step) => ∀ build ∈ (web.downloads[i]?).bind Download.build?,
      step.Whole web.shared.outputs build
  | .beginSweep => ∀ download ∈ web.downloads, download.isBuilding = false
  | _ => True

/-! ## The invariant -/

section Invariant

variable (zip : ZipWriter) (tree : OutputTree)

/-- The archive that is there is complete. -/
def Shared.ArchiveComplete (shared : Shared) : Prop :=
  ∀ inode, shared.archive = some inode → Complete zip tree (shared.content inode)

/-- Nothing of the output directory was removed, and nothing will be as long as the lock is not taken. -/
def Shared.Intact (shared : Shared) : Prop :=
  shared.recorded = true ∧ shared.sweeping = false ∧ shared.outputs = tree.nodes

/-- What holds of a request at each point. -/
def Download.Fits (shared : Shared) : Download → Prop
  | .opened cached | .inspected cached => cached = true → shared.cached = true
  | .building build => shared.Intact tree ∧ shared.archive = some build.inode ∧
      build.inode < shared.inodes.length ∧
      (build.stage = .failing ∧ shared.cached = false ∨
        ∃ walked, build.Walks zip tree (shared.content build.inode) walked)
  | .streaming inode received => inode < shared.inodes.length ∧ received <+: shared.content inode ∧
      Complete zip tree (shared.content inode)
  | .answered body => Complete zip tree body
  | _ => True

/-- Something holds of all requests but one. -/
def DownloadState.Others (web : DownloadState) (i : ℕ) (P : Download → Prop) : Prop :=
  ∀ (j : ℕ) (other : Download), web.downloads[j]? = some other → j ≠ i → P other

/-- **The invariant.** Who builds the archive is alone with it; when nobody does, the archive that is recorded
    or that a request will open is complete. -/
structure DownloadState.Sound (web : DownloadState) : Prop where
  fits : ∀ download ∈ web.downloads, download.Fits zip tree web.shared
  alone : ∀ (i : ℕ) (download : Download), web.downloads[i]? = some download → download.isBuilding = true →
    web.Others i fun other => other.usesArchive = false
  ready : (∀ download ∈ web.downloads, download.isBuilding = false) →
    (web.shared.cached = true ∨ ∃ download ∈ web.downloads, download.isReady = true) →
    web.shared.ArchiveComplete zip tree
  file : ∀ inode, web.shared.archive = some inode → inode < web.shared.inodes.length
  intact : web.shared.recorded = true → web.shared.sweeping = false → web.shared.outputs = tree.nodes

end Invariant

variable {zip : ZipWriter} {tree : OutputTree} {web next : DownloadState} {shared : Shared}
  {download result other : Download} {i : ℕ}

theorem sound_succeeded : DownloadState.Sound zip tree tree.succeeded where
  fits := by simp [OutputTree.succeeded]
  alone := by simp [OutputTree.succeeded]
  ready := by simp [OutputTree.succeeded]
  file := by simp [OutputTree.succeeded]
  intact := fun _ _ => rfl

theorem Download.isBuilding_of_unused (h : download.usesArchive = false) : download.isBuilding = false := by
  simp only [Download.usesArchive, Bool.or_eq_false_iff] at h
  exact h.1.1

theorem Download.isReady_of_unused (h : download.usesArchive = false) : download.isReady = false := by
  simp only [Download.usesArchive, Bool.or_eq_false_iff] at h
  exact h.1.2

/-- A request that does not build does not notice what does not concern the files, -/
theorem Download.Fits.of_not_building (h : other.Fits zip tree web.shared) (hbuilding : other.isBuilding = false)
    (hinodes : other.usesArchive = true → shared.inodes = web.shared.inodes)
    (hcached : web.shared.cached = true → shared.cached = true) : other.Fits zip tree shared := by
  cases other with
  | opened cached => exact fun hc => hcached (h hc)
  | inspected cached => exact fun hc => hcached (h hc)
  | building build => cases hbuilding
  | streaming inode received =>
    simp only [Download.Fits, Shared.content, hinodes rfl] at h ⊢
    exact h
  | answered body => exact h
  | needed => trivial
  | built => trivial
  | chosen => trivial
  | found => trivial
  | refused => trivial

/-- and one that does not use the archive does not notice what happens to it. -/
theorem Download.Fits.of_unused (h : other.Fits zip tree web.shared) (hunused : other.usesArchive = false)
    (hcached : web.shared.cached = true → shared.cached = true) : other.Fits zip tree shared := by
  refine h.of_not_building (Download.isBuilding_of_unused hunused) (fun huses => ?_) hcached
  rw [hunused] at huses
  cases huses

section Operations

variable (h : DownloadState.Sound zip tree web) (hi : web.downloads[i]? = some download)

include h hi

/-- **One request.** It may come to a point that fits, when those who build are still alone and what is ready is
    complete. -/
theorem DownloadState.Sound.set
    (hothers : web.Others i fun other => other.Fits zip tree shared) (hfits : result.Fits zip tree shared)
    (halone : web.Others i fun other =>
      (result.isBuilding = true → other.usesArchive = false) ∧ (result.usesArchive = true → other.isBuilding = false))
    (hready : result.isBuilding = false → web.Others i (fun other => other.isBuilding = false) →
      (shared.cached = true ∨ result.isReady = true ∨ ¬ web.Others i fun other => other.isReady = false) →
        shared.ArchiveComplete zip tree)
    (hfile : ∀ inode, shared.archive = some inode → inode < shared.inodes.length)
    (hintact : shared.recorded = true → shared.sweeping = false → shared.outputs = tree.nodes) :
    DownloadState.Sound zip tree ⟨shared, web.downloads.set i result⟩ := by
  have hlength : i < web.downloads.length := (List.getElem?_eq_some_iff.mp hi).1
  have hself : (web.downloads.set i result)[i]? = some result := List.getElem?_set_self hlength
  have hother : ∀ {j : ℕ}, j ≠ i → (web.downloads.set i result)[j]? = web.downloads[j]? :=
    fun hj => List.getElem?_set_ne hj.symm
  refine ⟨?_, ?_, ?_, hfile, hintact⟩
  · intro other hmem
    obtain ⟨j, hj⟩ := List.getElem?_of_mem hmem
    by_cases heq : j = i
    · subst heq
      rw [hself] at hj
      cases hj
      exact hfits
    · rw [hother heq] at hj
      exact hothers j other hj heq
  · intro j first hj hbuilding k second hk hne
    dsimp only at hj hk
    by_cases hji : j = i
    · subst hji
      rw [hself] at hj
      cases hj
      rw [hother hne] at hk
      exact (halone k second hk hne).1 hbuilding
    · rw [hother hji] at hj
      by_cases hki : k = i
      · subst hki
        rw [hself] at hk
        cases hk
        by_contra huses
        rw [Bool.not_eq_false] at huses
        have := (halone j first hj hji).2 huses
        rw [hbuilding] at this
        cases this
      · rw [hother hki] at hk
        exact h.alone j first hj hbuilding k second hk hne
  · intro hnone hsome
    refine hready (hnone _ (List.mem_of_getElem? hself)) ?_ ?_
    · intro j other hj hne
      exact hnone _ (List.mem_of_getElem? ((hother hne).trans hj))
    · rcases hsome with hcached | ⟨other, hmem, hotherReady⟩
      · exact .inl hcached
      · obtain ⟨j, hj⟩ := List.getElem?_of_mem hmem
        by_cases heq : j = i
        · subst heq
          rw [hself] at hj
          cases hj
          exact .inr (.inl hotherReady)
        · rw [hother heq] at hj
          have hsome : ¬ web.Others i fun other => other.isReady = false := by
            intro hnot
            have hunready : other.isReady = false := hnot j other hj heq
            rw [hunready] at hotherReady
            cases hotherReady
          exact .inr (.inr hsome)

/-- A request that changes nothing but where it is, and does not begin to build. -/
theorem DownloadState.Sound.advance
    (hfits : result.Fits zip tree web.shared) (hbuilding : download.isBuilding = false)
    (hnot : result.isBuilding = false)
    (huses : result.usesArchive = true → ∀ other ∈ web.downloads, other.isBuilding = false)
    (hready : result.isReady = true → web.shared.cached = true ∨ download.isReady = true) :
    DownloadState.Sound zip tree ⟨web.shared, web.downloads.set i result⟩ := by
  refine h.set hi (fun j other hj _ => h.fits other (List.mem_of_getElem? hj)) hfits ?_ ?_ h.file h.intact
  · intro j other hj _
    refine ⟨fun hresult => ?_, fun hresult => huses hresult other (List.mem_of_getElem? hj)⟩
    rw [hnot] at hresult
    cases hresult
  · intro _ hnone hsome
    refine h.ready ?_ ?_
    · intro other hmem
      obtain ⟨j, hj⟩ := List.getElem?_of_mem hmem
      by_cases heq : j = i
      · subst heq
        rw [hi] at hj
        cases hj
        exact hbuilding
      · exact hnone j other hj heq
    · rcases hsome with hcached | hresult | hsome
      · exact .inl hcached
      · exact (hready hresult).imp_right fun hdownload => ⟨download, List.mem_of_getElem? hi, hdownload⟩
      · simp only [DownloadState.Others, not_forall, Bool.not_eq_false] at hsome
        obtain ⟨j, other, hj, -, hother⟩ := hsome
        exact .inr ⟨other, List.mem_of_getElem? hj, hother⟩

/-- Nobody builds while another request uses the archive. -/
theorem DownloadState.Sound.no_build (huses : download.usesArchive = true) (hbuilding : download.isBuilding = false) :
    ∀ other ∈ web.downloads, other.isBuilding = false := by
  intro other hmem
  obtain ⟨j, hj⟩ := List.getElem?_of_mem hmem
  by_cases heq : j = i
  · subst heq
    rw [hi] at hj
    cases hj
    exact hbuilding
  · by_contra hother
    rw [Bool.not_eq_false] at hother
    have hunused : download.usesArchive = false := h.alone j other hj hother i download hi (Ne.symm heq)
    rw [huses] at hunused
    cases hunused

/-! ## One operation of a request -/

theorem DownloadState.Sound.inspectOutput
    (hnext : download.next zip web.shared .inspectOutput = some (shared, result)) :
    DownloadState.Sound zip tree ⟨shared, web.downloads.set i result⟩ := by
  unfold Download.next at hnext
  dsimp only at hnext
  split at hnext
  · rename_i cached
    cases hnext
    have hfits := h.fits _ (List.mem_of_getElem? hi)
    split_ifs
    · exact h.advance hi hfits rfl rfl (fun huses => by cases huses) (fun hready => by cases hready)
    · exact h.advance hi trivial rfl rfl (fun huses => by cases huses) (fun hready => by cases hready)
  · cases hnext

theorem DownloadState.Sound.inspectArchive (hquiet : Undisturbed web (.download i .inspectArchive))
    (hnext : download.next zip web.shared .inspectArchive = some (shared, result)) :
    DownloadState.Sound zip tree ⟨shared, web.downloads.set i result⟩ := by
  unfold Download.next at hnext
  dsimp only at hnext
  split at hnext
  · rename_i cached
    cases hnext
    have hfits := h.fits _ (List.mem_of_getElem? hi)
    split_ifs with htaken
    · obtain ⟨hcached, harchive⟩ := Bool.and_eq_true_iff.mp htaken
      subst hcached
      exact h.advance hi trivial rfl rfl (fun _ => hquiet hi harchive) (fun _ => .inl (hfits rfl))
    · exact h.advance hi trivial rfl rfl (fun huses => by cases huses) (fun hready => by cases hready)
  · cases hnext

/-- The file of the archive is there, and it is empty. -/
theorem DownloadState.Sound.begin
    (hquiet : Undisturbed web (.download i .create)) {inode : ℕ} {inodes : List (List UInt8)}
    (hempty : inodes[inode]? = some []) :
    DownloadState.Sound zip tree ⟨{ web.shared with archive := some inode, inodes := inodes },
      web.downloads.set i (.building (.created inode))⟩ := by
  obtain ⟨hrecorded, hsweeping, hunused⟩ := hquiet
  have hlength : inode < inodes.length := (List.getElem?_eq_some_iff.mp hempty).1
  have hothers : web.Others i fun other => other.usesArchive = false :=
    fun j other hj _ => hunused other (List.mem_of_getElem? hj)
  refine h.set hi
    (fun j other hj hne => (h.fits other (List.mem_of_getElem? hj)).of_unused (hothers j other hj hne) id)
    ⟨⟨hrecorded, hsweeping, h.intact hrecorded hsweeping⟩, rfl, hlength, .inr ⟨[], ?_⟩⟩ ?_
    (fun hnot => by cases hnot) ?_ h.intact
  · have hcontent : ({ web.shared with archive := some inode, inodes := inodes } : Shared).content
        (Build.created inode).inode = [] := by
      show (inodes[inode]?).getD [] = []
      rw [hempty]
      rfl
    rw [hcontent]
    exact .created inode
  · intro j other hj hne
    exact ⟨fun _ => hothers j other hj hne, fun _ => Download.isBuilding_of_unused (hothers j other hj hne)⟩
  · intro other hother
    cases hother
    exact hlength

theorem DownloadState.Sound.create (hquiet : Undisturbed web (.download i .create))
    (hnext : download.next zip web.shared .create = some (shared, result)) :
    DownloadState.Sound zip tree ⟨shared, web.downloads.set i result⟩ := by
  unfold Download.next at hnext
  dsimp only at hnext
  split at hnext
  · split at hnext
    · rename_i inode harchive
      cases hnext
      have hbegun := h.begin hi hquiet (List.getElem?_set_self (h.file inode harchive))
      rw [← harchive] at hbegun
      exact hbegun
    · cases hnext
      exact h.begin hi hquiet (by simp)
  · cases hnext

theorem DownloadState.Sound.build {step : BuildStep} (hquiet : Undisturbed web (.download i (.build step)))
    (hnext : download.next zip web.shared (.build step) = some (shared, result)) :
    DownloadState.Sound zip tree ⟨shared, web.downloads.set i result⟩ := by
  unfold Download.next at hnext
  dsimp only at hnext
  split at hnext
  · rename_i build
    obtain ⟨⟨built, content⟩, hbuild, hresult⟩ := Option.map_eq_some_iff.mp hnext
    cases hresult
    obtain ⟨hintact, harchive, hlength, hstage⟩ := h.fits _ (List.mem_of_getElem? hi)
    obtain ⟨hinode, hfailing⟩ := Build.next_keeps hbuild
    have hunused := h.alone i _ hi rfl
    rw [hintact.2.2] at hbuild
    refine h.set hi
      (fun j other hj hne => (h.fits other (List.mem_of_getElem? hj)).of_unused (hunused j other hj hne) id)
      ⟨hintact, hinode ▸ harchive, by simpa [hinode] using hlength, ?_⟩ ?_ (fun hnot => by cases hnot) ?_ h.intact
    · have hcontent : ({ web.shared with inodes := web.shared.inodes.set build.inode content } : Shared).content
          built.inode = content := by
        rw [hinode, Shared.content, List.getElem?_set_self hlength]
        rfl
      rw [hcontent]
      rcases hstage with ⟨hstage, hcached⟩ | ⟨walked, hwalks⟩
      · exact .inl ⟨hfailing hstage, hcached⟩
      · cases step with
        | fail rest =>
          obtain ⟨-, hbuild⟩ := Option.ite_none_right_eq_some.mp hbuild
          cases hbuild
          exact .inl ⟨rfl, hquiet⟩
        | readDirectory names =>
          have hwhole : (BuildStep.readDirectory names).Whole web.shared.outputs build := by
            refine hquiet build ?_
            rw [hi]
            rfl
          rw [hintact.2.2] at hwhole
          exact .inr (hwalks.next hbuild hwhole (fun _ => nofun))
        | enter => exact .inr (hwalks.next hbuild trivial (fun _ => nofun))
        | read => exact .inr (hwalks.next hbuild trivial (fun _ => nofun))
        | write => exact .inr (hwalks.next hbuild trivial (fun _ => nofun))
        | finish => exact .inr (hwalks.next hbuild trivial (fun _ => nofun))
    · intro j other hj hne
      exact ⟨fun _ => hunused j other hj hne, fun _ => Download.isBuilding_of_unused (hunused j other hj hne)⟩
    · intro inode hother
      rw [List.length_set]
      exact h.file inode hother
  · cases hnext

theorem DownloadState.Sound.close (hnext : download.next zip web.shared .close = some (shared, result)) :
    DownloadState.Sound zip tree ⟨shared, web.downloads.set i result⟩ := by
  unfold Download.next at hnext
  dsimp only at hnext
  split at hnext
  · rename_i build
    obtain ⟨⟨hqueue, hstage⟩, hnext⟩ := Option.ite_none_right_eq_some.mp hnext
    cases hnext
    obtain ⟨-, harchive, -, hbuild⟩ := h.fits _ (List.mem_of_getElem? hi)
    have hunused := h.alone i _ hi rfl
    refine h.set hi (fun j other hj _ => h.fits other (List.mem_of_getElem? hj)) ?_ ?_ ?_ h.file h.intact
    · split_ifs <;> trivial
    · intro j other hj hne
      exact ⟨fun _ => hunused j other hj hne, fun _ => Download.isBuilding_of_unused (hunused j other hj hne)⟩
    · intro _ _ hsome
      rcases hbuild with ⟨hfailing, hcached⟩ | ⟨walked, hwalks⟩
      · -- The archive of a builder that has failed is neither recorded nor opened.
        have hunfinished : ¬ (build.stage = .finishing ∧ build.attended = true) := by simp [hfailing]
        rw [if_neg hunfinished, hcached] at hsome
        rcases hsome with hsome | hsome | hsome
        · cases hsome
        · cases hsome
        · exact absurd (fun j other hj hne => Download.isReady_of_unused (hunused j other hj hne)) hsome
      · have hfinishing : build.stage = .finishing := hwalks.stage.resolve_left hstage |>.1
        intro inode hinode
        rw [harchive] at hinode
        cases hinode
        exact hwalks.complete hfinishing hqueue
  · cases hnext

theorem DownloadState.Sound.cacheArchive
    (hnext : download.next zip web.shared .cacheArchive = some (shared, result)) :
    DownloadState.Sound zip tree ⟨shared, web.downloads.set i result⟩ := by
  unfold Download.next at hnext
  dsimp only at hnext
  split at hnext
  · obtain ⟨-, hnext⟩ := Option.ite_none_left_eq_some.mp hnext
    cases hnext
    have hnone := h.no_build hi rfl rfl
    refine h.set hi ?_ trivial ?_ ?_ h.file h.intact
    · intro j other hj _
      have hmem := List.mem_of_getElem? hj
      exact (h.fits other hmem).of_not_building (hnone other hmem) (fun _ => rfl) fun hcached => by simp [hcached]
    · intro j other hj _
      exact ⟨fun hbuilding => (by cases hbuilding), fun _ => hnone other (List.mem_of_getElem? hj)⟩
    · exact fun _ _ _ => h.ready hnone (.inr ⟨_, List.mem_of_getElem? hi, rfl⟩)
  · cases hnext

theorem DownloadState.Sound.inspectSource
    (hnext : download.next zip web.shared .inspectSource = some (shared, result)) :
    DownloadState.Sound zip tree ⟨shared, web.downloads.set i result⟩ := by
  unfold Download.next at hnext
  dsimp only at hnext
  split at hnext
  · cases hnext
    have hnone := h.no_build hi rfl rfl
    split_ifs
    · exact h.advance hi trivial rfl rfl (fun _ => hnone) (fun _ => .inr rfl)
    · exact h.advance hi trivial rfl rfl (fun _ => hnone) (fun _ => .inr rfl)
  · cases hnext

theorem DownloadState.Sound.openSource (hnext : download.next zip web.shared .openSource = some (shared, result)) :
    DownloadState.Sound zip tree ⟨shared, web.downloads.set i result⟩ := by
  unfold Download.next at hnext
  dsimp only at hnext
  split at hnext
  · cases hnext
    have hnone := h.no_build hi rfl rfl
    cases harchive : web.shared.archive with
    | none => exact h.advance hi trivial rfl rfl (fun _ => hnone) (fun _ => .inr rfl)
    | some inode =>
      have hcomplete := h.ready hnone (.inr ⟨_, List.mem_of_getElem? hi, rfl⟩) inode harchive
      exact h.advance hi ⟨h.file inode harchive, List.nil_prefix, hcomplete⟩ rfl rfl (fun _ => hnone)
        (fun _ => .inr rfl)
  · cases hnext

theorem DownloadState.Sound.readChunk {size : ℕ}
    (hnext : download.next zip web.shared (.readChunk size) = some (shared, result)) :
    DownloadState.Sound zip tree ⟨shared, web.downloads.set i result⟩ := by
  unfold Download.next at hnext
  dsimp only at hnext
  split at hnext
  · rename_i inode received
    cases hnext
    have hnone := h.no_build hi rfl rfl
    obtain ⟨hlength, ⟨rest, hrest⟩, hcomplete⟩ := h.fits _ (List.mem_of_getElem? hi)
    have hdrop : (web.shared.content inode).drop received.length = rest := by
      rw [← hrest, List.drop_left]
    rw [hdrop]
    split_ifs with hend
    · -- The stream ends where the file does.
      have hnil : rest = [] := by simpa using hend
      rw [hnil, List.append_nil] at hrest
      exact h.advance hi (hrest ▸ hcomplete) rfl rfl (fun huses => by cases huses) (fun hready => by cases hready)
    · refine h.advance hi ⟨hlength, ?_, hcomplete⟩ rfl rfl (fun _ => hnone) (fun hready => by cases hready)
      rw [← hrest, List.prefix_append_right_inj]
      exact List.take_prefix _ _
  · cases hnext

theorem DownloadState.Sound.leave (hnext : download.next zip web.shared .leave = some (shared, result)) :
    DownloadState.Sound zip tree ⟨shared, web.downloads.set i result⟩ := by
  unfold Download.next at hnext
  dsimp only at hnext
  split at hnext
  · cases hnext
  · cases hnext
  · rename_i build
    cases hnext
    obtain ⟨hintact, harchive, hlength, hbuild⟩ := h.fits _ (List.mem_of_getElem? hi)
    have hunused := h.alone i _ hi rfl
    refine h.set hi (fun j other hj _ => h.fits other (List.mem_of_getElem? hj)) ⟨hintact, harchive, hlength, ?_⟩ ?_
      (fun hnot => by cases hnot) h.file h.intact
    · exact hbuild.imp_right fun ⟨walked, hwalks⟩ => ⟨walked, hwalks.attended false⟩
    · intro j other hj hne
      exact ⟨fun _ => hunused j other hj hne, fun _ => Download.isBuilding_of_unused (hunused j other hj hne)⟩
  · rename_i hbuilding
    cases hnext
    have hnot : download.isBuilding = false := by
      cases download with
      | building build => exact absurd rfl (hbuilding build)
      | _ => rfl
    exact h.advance hi trivial hnot rfl (fun huses => by cases huses) (fun hready => by cases hready)

/-- **Every operation** of a request keeps the invariant, where it meets nothing. -/
theorem DownloadState.Sound.of_request
    (hquiet : Undisturbed web (.download i step)) (hnext : download.next zip web.shared step = some (shared, result)) :
    DownloadState.Sound zip tree ⟨shared, web.downloads.set i result⟩ := by
  cases step with
  | inspectOutput => exact h.inspectOutput hi hnext
  | inspectArchive => exact h.inspectArchive hi hquiet hnext
  | create => exact h.create hi hquiet hnext
  | build step => exact h.build hi hquiet hnext
  | close => exact h.close hi hnext
  | cacheArchive => exact h.cacheArchive hi hnext
  | inspectSource => exact h.inspectSource hi hnext
  | openSource => exact h.openSource hi hnext
  | readChunk size => exact h.readChunk hi hnext
  | leave => exact h.leave hi hnext

end Operations

/-! ## Every run -/

theorem DownloadState.Sound.of_open (h : DownloadState.Sound zip tree web) :
    DownloadState.Sound zip tree { web with downloads := web.downloads ++ [.opened web.shared.cached] } := by
  have hcases : ∀ {j : ℕ} {other : Download}, (web.downloads ++ [.opened web.shared.cached])[j]? = some other →
      web.downloads[j]? = some other ∨ other = .opened web.shared.cached := by
    intro j other hj
    rw [List.getElem?_append] at hj
    split_ifs at hj with hlength
    · exact .inl hj
    · have hmem := List.mem_of_getElem? hj
      exact .inr (List.mem_singleton.mp hmem)
  refine ⟨?_, ?_, ?_, h.file, h.intact⟩
  · intro other hmem
    rcases List.mem_append.mp hmem with hmem | hmem
    · exact h.fits other hmem
    · rw [List.mem_singleton.mp hmem]
      exact id
  · intro j first hj hbuilding k second hk hne
    rcases hcases hj with hj | rfl
    · rcases hcases hk with hk | rfl
      · exact h.alone j first hj hbuilding k second hk hne
      · rfl
    · cases hbuilding
  · intro hnone hsome
    refine h.ready (fun other hmem => hnone other (List.mem_append_left _ hmem)) (hsome.imp_right ?_)
    rintro ⟨other, hmem, hready⟩
    rcases List.mem_append.mp hmem with hmem | hmem
    · exact ⟨other, hmem, hready⟩
    · rw [List.mem_singleton.mp hmem] at hready
      cases hready

theorem DownloadState.Sound.sweep (h : DownloadState.Sound zip tree web)
    (hnone : ∀ download ∈ web.downloads, download.isBuilding = false)
    (hcached : shared.cached = web.shared.cached) (hinodes : shared.inodes = web.shared.inodes)
    (harchive : ∀ inode, shared.archive = some inode → web.shared.archive = some inode)
    (hswept : shared.recorded = true → shared.sweeping = false → False) :
    DownloadState.Sound zip tree { web with shared := shared } where
  fits := fun other hmem => (h.fits other hmem).of_not_building (hnone other hmem) (fun _ => hinodes) hcached.trans
  alone := h.alone
  ready := by
    intro _ hsome inode hinode
    rw [Shared.content, hinodes]
    exact h.ready hnone (hsome.imp_left hcached.symm.trans) inode (harchive inode hinode)
  file := fun inode hinode => hinodes ▸ h.file inode (harchive inode hinode)
  intact := fun hrecorded hsweeping => (hswept hrecorded hsweeping).elim

/-- Nobody builds while a sweep removes something. -/
theorem DownloadState.Sound.no_build_of_sweeping (h : DownloadState.Sound zip tree web)
    (hsweeping : web.shared.sweeping = true) :
    ∀ download ∈ web.downloads, download.isBuilding = false := by
  intro download hmem
  cases download with
  | building build =>
    have hfits := h.fits _ hmem
    rw [hfits.1.2.1] at hsweeping
    cases hsweeping
  | _ => rfl

/-- **Every step** keeps the invariant. -/
theorem DownloadState.Sound.of_step {step : JobStep} (h : DownloadState.Sound zip tree web)
    (hnext : step.Runs zip web next) (hquiet : Undisturbed web step) : DownloadState.Sound zip tree next := by
  unfold JobStep.Runs at hnext
  cases step with
  | openDownload =>
    obtain ⟨-, hnext⟩ := Option.ite_none_right_eq_some.mp hnext
    cases hnext
    exact h.of_open
  | download i step =>
    simp only [DownloadState.next] at hnext
    split at hnext
    · cases hnext
    · rename_i download hi
      obtain ⟨⟨shared, result⟩, hstep, hresult⟩ := Option.map_eq_some_iff.mp hnext
      cases hresult
      exact h.of_request hi hquiet hstep
  | beginSweep =>
    obtain ⟨-, hnext⟩ := Option.ite_none_right_eq_some.mp hnext
    cases hnext
    exact h.sweep hquiet rfl rfl (fun _ => id) (fun _ hsweeping => by cases hsweeping)
  | sweepNode path =>
    obtain ⟨hsweeping, hnext⟩ := Option.ite_none_right_eq_some.mp hnext
    cases hnext
    refine h.sweep (h.no_build_of_sweeping hsweeping) rfl rfl (fun _ => id) fun _ hnot => ?_
    rw [hsweeping] at hnot
    cases hnot
  | sweepArchive =>
    obtain ⟨⟨hsweeping, -⟩, hnext⟩ := Option.ite_none_right_eq_some.mp hnext
    cases hnext
    refine h.sweep (h.no_build_of_sweeping hsweeping) rfl rfl (fun _ hinode => by cases hinode) fun _ hnot => ?_
    rw [hsweeping] at hnot
    cases hnot
  | endSweep =>
    obtain ⟨hsweeping, hnext⟩ := Option.ite_none_right_eq_some.mp hnext
    cases hnext
    exact h.sweep (h.no_build_of_sweeping hsweeping) rfl rfl (fun _ => id) (fun hrecorded => by cases hrecorded)

instance (web : DownloadState) : (step : JobStep) → Decidable (Undisturbed web step)
  | .download _ .create => inferInstanceAs (Decidable (_ ∧ _ ∧ _))
  | .download _ .inspectArchive => inferInstanceAs (Decidable (_ → _ → _))
  | .download _ (.build (.fail _)) => inferInstanceAs (Decidable (_ = _))
  | .download _ (.build (.readDirectory _)) | .download _ (.build .enter) | .download _ (.build .read)
  | .download _ (.build .write) | .download _ (.build .finish) => inferInstanceAs (Decidable (∀ build ∈ _, _))
  | .beginSweep => inferInstanceAs (Decidable (∀ download ∈ _, _))
  | .openDownload | .sweepNode _ | .sweepArchive | .endSweep | .download _ .inspectOutput | .download _ .close
  | .download _ .cacheArchive | .download _ .inspectSource | .download _ .openSource | .download _ (.readChunk _)
  | .download _ .leave => isTrue trivial

namespace DownloadSample

/-- The bytes of a name. -/
def nameBytes (name : String) : List UInt8 := name.toList.map fun c => c.toNat.toUInt8

/-- The bytes that are taken by some entries. -/
def size (entries : List ZipEntry) : ℕ :=
  (entries.map fun entry => entry.name.length + 1 + (entry.content.getD []).length).sum

/-- A writer that stores each entry after the one before: its name, a zero, its bytes. -/
def stored : ZipWriter where
  addDirectory before name := [⟨size before, nameBytes name ++ [0]⟩]
  startFile before name := [⟨size before, nameBytes name ++ [0]⟩]
  writeAll before name bytes := [⟨size before + name.length + 1, bytes⟩]
  finish entries := [⟨size entries, [0x50, 0x4B, 5, 6]⟩]

def pageName : FileName := ⟨PathBuf.ofString "page-1.png", by decide, by decide⟩

/-- An output directory with one page. -/
def pages : OutputTree where
  nodes := [⟨[], none⟩, ⟨[pageName], some [1, 2, 3]⟩]
  keyed := by
    unfold Table.Keyed
    decide
  rooted := by decide

/-- A request comes as far as to need an archive. -/
def needs (i : ℕ) : List JobStep := [.openDownload, .download i .inspectOutput, .download i .inspectArchive]

/-- It builds the archive, records it and opens it. -/
def builds (i : ℕ) : List JobStep :=
  .download i .create :: ([.readDirectory [pageName], .enter, .write, .read, .write, .finish, .write].map fun step =>
    JobStep.download i (.build step)) ++
  [.download i .close, .download i .cacheArchive, .download i .inspectSource, .download i .openSource]

/-- A second request that needs an archive creates it again, before the first one is sent. -/
def truncated : List JobStep :=
  needs 0 ++ needs 1 ++ builds 0 ++ [.download 1 .create, .download 0 (.readChunk 99)]

/-- A request by itself. -/
def alone : List JobStep := needs 0 ++ builds 0 ++ [.download 0 (.readChunk 99), .download 0 (.readChunk 99)]

/-- The writes leave something in the file. -/
theorem stored_archive_ne_nil (entries : List ZipEntry) : stored.archive entries ≠ [] := by
  rw [ZipWriter.archive, List.foldl_append]
  simp [stored, FileWrite.apply]

end DownloadSample

end Anole.Web
