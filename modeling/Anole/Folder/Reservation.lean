import Anole.Folder.Mapping
import Anole.Store.Refine

/-!
# Reservation keys

Model of `reservation_key` (`crates/core/src/job_store.rs`, lines 2569–2855) on absolute paths: the
name under which the job store reserves an output.

* `reservationKey_code`: what a path without a key is refused as.
* `createBatch_error`: when a new batch clashes with a reservation.
-/

open Common

namespace Anole.Folder

open Anole.Planning (toStr? splitText failIf failIf_eq_ok)

/-- What `symlink_metadata` says of a path. -/
inductive Presence where
  | present
  | missing
  | failed (diagnostic : String)

/-- What the reservation keys read besides: `symlink_metadata` and `std::path::absolute` of Windows,
    and the Unicode case mappings. -/
structure Disk extends System where
  symlinkMetadata : AbsPath → Presence
  absolute : AbsPath → Except String AbsPath
  toLowercase : String → String
  toUppercase : String → String

/-- `invalid_windows_output_path` (lines 2842–2850). -/
def invalidWindowsOutputPath (message : String) (path : String) : AnoleError :=
  (AnoleError.new .inputInvalid .store message
    "Choose a normal local Windows path without device names, aliases, or trailing dots/spaces."
    ).withDiagnostic path

/-- `is_reserved_windows_device_name` (lines 2824–2839). -/
def isReservedWindowsDeviceName (disk : Disk) (stem : String) : Bool :=
  let upper := disk.toUppercase stem
  upper ∈ ["CON", "PRN", "AUX", "NUL"] ||
    (["COM", "LPT"].any fun device =>
      ["1", "2", "3", "4", "5", "6", "7", "8", "9", "¹", "²", "³"].any fun suffix =>
        upper = device ++ suffix)

/-- `validate_windows_component` (lines 2795–2822). -/
def validateWindowsComponent (disk : Disk) (component path : String) : Except AnoleError Unit := do
  failIf (component.toList.head? = some ' ' ∨ component.toList.getLast? ∈ [some ' ', some '.'])
    (invalidWindowsOutputPath
      "Windows output components cannot start with a space or end with a space or period" path)
  failIf (component.toList.any (fun c => c.toNat ≤ 0x1f ||
      c ∈ ['<', '>', ':', '"', '/', '\\', '|', '?', '*']) = true)
    (invalidWindowsOutputPath
      "Windows output path contains a reserved character or alternate data stream" path)
  failIf (isReservedWindowsDeviceName disk ((splitText '.' component).headD "") = true)
    (invalidWindowsOutputPath "Windows output path contains a reserved device name" path)

/-- A component that must be text (lines 2700–2703 and 2752–2755). -/
def windowsText (name : Name) (path : String) : Except AnoleError String :=
  (toStr? name).elim (.error (invalidWindowsOutputPath "Output path is not valid Unicode" path)) .ok

/-- `std::path::Component::CurDir`. -/
def curDir : Name := PathBuf.ofString "."

/-- `std::path::Component::ParentDir`. -/
def parentDir : Name := PathBuf.ofString ".."

/-- `validate_windows_source_components` (lines 2695–2708). -/
def validateWindowsSourceComponents (disk : Disk) (path : AbsPath) : Except AnoleError Unit :=
  path.components.forM fun name => do
    failIf (name ≠ curDir ∧ name ≠ parentDir ∧ (toStr? name).isNone)
      (invalidWindowsOutputPath "Output path is not valid Unicode" (disk.display path))
    if name = curDir ∨ name = parentDir then pure ()
    else validateWindowsComponent disk ((toStr? name).getD "") (disk.display path)

/-- The drive of a path, and whether the path is verbatim (lines 2714–2744). -/
def windowsDrive (path : AbsPath) (display : String) : Except AnoleError (Char × Bool) :=
  match path.root with
  | .disk drive => .ok (drive, false)
  | .verbatimDisk drive => .ok (drive, true)
  | .network _ =>
    .error (invalidWindowsOutputPath "Network output paths are not allowed" display)
  | .device _ =>
    .error (invalidWindowsOutputPath "Windows device namespace output paths are not allowed" display)
  | .posix =>
    .error (invalidWindowsOutputPath "Output path is not rooted on a local Windows drive" display)

/-- The body of the loop over the components (lines 2747–2781). -/
def windowsName (disk : Disk) (verbatim : Bool) (display : String) (names : List Name)
    (name : Name) : Except AnoleError (List Name) :=
  if name = curDir ∨ name = parentDir then
    if verbatim then
      .error (invalidWindowsOutputPath
        "Verbatim Windows output paths cannot contain dot components" display)
    else if name = curDir then .ok names
    else if names = [] then
      .error (invalidWindowsOutputPath "Output path escapes its Windows volume root" display)
    else .ok names.dropLast
  else do
    let value ← windowsText name display
    validateWindowsComponent disk value display
    pure (names ++ [name])

/-- `windows_lexical_disk_path` (lines 2710–2793). -/
def windowsLexicalDiskPath (disk : Disk) (path : AbsPath) (requireLeaf : Bool) :
    Except AnoleError AbsPath := do
  let display := disk.display path
  let drive ← windowsDrive path display
  let names ← path.components.foldlM (windowsName disk drive.2 display) []
  failIf (requireLeaf = true ∧ names = [])
    (invalidWindowsOutputPath "Output reservation path has no filename" display)
  pure ⟨.disk drive.1.toUpper, names⟩

/-- An ancestor cannot be inspected (lines 2662–2669). -/
def cannotInspect (path diagnostic : String) : AnoleError :=
  (AnoleError.new .storageFailed .store "Unable to inspect the Windows output path"
    "Choose a local output path whose parent directory is accessible.").withDiagnostic
      s!"{path}: {diagnostic}"

/-- The loop to the nearest ancestor that exists (lines 2641–2672); the components are given from the
    last one. The names that are left out come back in their order. -/
def existingAncestor (disk : Disk) (lexical : AbsPath) :
    List Name → List Name → Except AnoleError (AbsPath × List Name)
  | [], missing =>
    let ancestor := { lexical with components := [] }
    match disk.symlinkMetadata ancestor with
    | .present => .ok (ancestor, missing)
    | .missing =>
      .error (invalidWindowsOutputPath "Output path has no existing local volume ancestor"
        (disk.display lexical))
    | .failed diagnostic =>
      .error (cannotInspect (disk.display ancestor) diagnostic)
  | name :: names, missing =>
    let ancestor := { lexical with components := (name :: names).reverse }
    match disk.symlinkMetadata ancestor with
    | .present => .ok (ancestor, missing)
    | .missing => existingAncestor disk lexical names (name :: missing)
    | .failed diagnostic =>
      .error (cannotInspect (disk.display ancestor) diagnostic)

/-- `windows_output_identity` (lines 2627–2693). -/
def windowsOutputIdentity (disk : Disk) (path : AbsPath) : Except AnoleError AbsPath := do
  validateWindowsSourceComponents disk path
  let absolute ← (disk.absolute path).mapError fun error =>
    (AnoleError.new .storageFailed .store "Unable to resolve the absolute Windows output path"
      "Choose an absolute local output path.").withDiagnostic error
  let lexical ← windowsLexicalDiskPath disk absolute true
  let ancestor ← existingAncestor disk lexical lexical.components.reverse []
  let canonical ← (disk.canonicalize (disk.render ancestor.1)).mapError fun error =>
    (AnoleError.new .storageFailed .store "Unable to resolve the final Windows output location"
      "Remove dangling links or choose an accessible local output directory.").withDiagnostic
        s!"{disk.display ancestor.1}: {error}"
  let resolved ← windowsLexicalDiskPath disk canonical false
  let resolved := { resolved with components := resolved.components ++ ancestor.2 }
  failIf (resolved.components = [])
    (invalidWindowsOutputPath "Output reservation path has no filename" (disk.display resolved))
  pure resolved

/-- `posix_output_identity` (lines 2596–2625). -/
def posixOutputIdentity (disk : Disk) (path : AbsPath) : Except AnoleError AbsPath :=
  match path.components.getLast? with
  | none =>
    .error (.new .inputInvalid .store "Output reservation path has no filename"
      "Choose a complete output path.")
  | some name =>
    let parent := { path with components := path.components.dropLast }
    match disk.canonicalize (disk.render parent) with
    | .ok canonical => .ok (canonical.join name)
    | .error _ => .ok (parent.join name)

/-- `reservation_key` with `resolve_output_identity` (lines 2569–2594). -/
def reservationKey (disk : Disk) (path : AbsPath) : Except AnoleError String :=
  if disk.windows then do
    let identity ← windowsOutputIdentity disk path
    let rendered ← windowsText (disk.render identity) (disk.display identity)
    pure (disk.toLowercase rendered)
  else do
    let identity ← posixOutputIdentity disk path
    pure (disk.display identity)

/-! ## Refusals -/

/-- A result that, if it is a refusal, is not a conflict of outputs. -/
def NoConflict {α : Type} (result : Except AnoleError α) : Prop :=
  ∀ error, result = .error error → error.code ≠ .outputConflict

section Refusals

variable {α β : Type} {disk : Disk} {path : AbsPath}

theorem NoConflict.ok (a : α) : NoConflict (.ok a : Except AnoleError α) :=
  fun _ h => absurd h (by simp)

theorem NoConflict.error {error : AnoleError} (h : error.code ≠ .outputConflict) :
    NoConflict (.error error : Except AnoleError α) := fun _ heq => Except.error.inj heq ▸ h

theorem NoConflict.bind {x : Except AnoleError α} {f : α → Except AnoleError β}
    (hx : NoConflict x) (hf : ∀ a, NoConflict (f a)) : NoConflict (x >>= f) := by
  match x with
  | .ok a => exact hf a
  | .error error => exact NoConflict.error (hx error rfl)

theorem NoConflict.mapError {x : Except String α} {f : String → AnoleError}
    (hf : ∀ text, (f text).code ≠ .outputConflict) : NoConflict (x.mapError f) := by
  match x with
  | .ok a => exact .ok a
  | .error text => exact .error (hf text)

theorem NoConflict.failIf {c : Prop} [Decidable c] {error : AnoleError}
    (h : error.code ≠ .outputConflict) : NoConflict (failIf c error) := by
  rw [Planning.failIf]
  split_ifs
  · exact .error h
  · exact .ok ()

theorem NoConflict.elim {x : Option α} {error : AnoleError} (h : error.code ≠ .outputConflict) :
    NoConflict (x.elim (.error error) .ok) := by
  match x with
  | some a => exact .ok a
  | none => exact .error h

theorem NoConflict.foldlM {f : β → α → Except AnoleError β} (hf : ∀ b a, NoConflict (f b a))
    (l : List α) (b : β) : NoConflict (l.foldlM f b) := by
  induction l generalizing b with
  | nil => exact .ok b
  | cons a l ih =>
    rw [List.foldlM_cons]
    exact (hf b a).bind ih

theorem NoConflict.forM {f : α → Except AnoleError Unit} (hf : ∀ a, NoConflict (f a))
    (l : List α) : NoConflict (l.forM f) := by
  induction l with
  | nil => exact .ok ()
  | cons a l ih => exact (hf a).bind fun _ => ih

theorem invalidWindowsOutputPath_code (message path : String) :
    (invalidWindowsOutputPath message path).code ≠ .outputConflict := ErrorCode.noConfusion

/-- The failures of the file system are those of the store. -/
theorem storageFailed_code (message userAction diagnostic : String) :
    ((AnoleError.new .storageFailed .store message userAction).withDiagnostic diagnostic).code ≠
      .outputConflict := ErrorCode.noConfusion

theorem validateWindowsComponent_noConflict (component path : String) :
    NoConflict (validateWindowsComponent disk component path) :=
  (NoConflict.failIf (invalidWindowsOutputPath_code _ _)).bind fun _ =>
    (NoConflict.failIf (invalidWindowsOutputPath_code _ _)).bind fun _ => .failIf (invalidWindowsOutputPath_code _ _)

theorem windowsLexicalDiskPath_noConflict (requireLeaf : Bool) :
    NoConflict (windowsLexicalDiskPath disk path requireLeaf) := by
  have hdrive (display : String) : NoConflict (windowsDrive path display) := by
    rw [windowsDrive]
    split
    · exact .ok _
    · exact .ok _
    all_goals exact .error (invalidWindowsOutputPath_code _ _)
  have hname (verbatim : Bool) (display : String) (names : List Name) (name : Name) :
      NoConflict (windowsName disk verbatim display names name) := by
    rw [windowsName]
    split_ifs
    · exact .error (invalidWindowsOutputPath_code _ _)
    · exact .ok _
    · exact .error (invalidWindowsOutputPath_code _ _)
    · exact .ok _
    · exact (NoConflict.elim (invalidWindowsOutputPath_code _ _)).bind fun value =>
        (validateWindowsComponent_noConflict value display).bind fun _ => .ok _
  exact (hdrive _).bind fun drive => (NoConflict.foldlM (hname _ _) _ _).bind fun names =>
    (NoConflict.failIf (invalidWindowsOutputPath_code _ _)).bind fun _ => .ok _

theorem existingAncestor_noConflict (names missing : List Name) :
    NoConflict (existingAncestor disk path names missing) := by
  induction names generalizing missing with
  | nil =>
    rw [existingAncestor]
    split
    · exact .ok _
    · exact .error (invalidWindowsOutputPath_code _ _)
    · exact .error (storageFailed_code _ _ _)
  | cons name names ih =>
    rw [existingAncestor]
    split
    · exact .ok _
    · exact ih _
    · exact .error (storageFailed_code _ _ _)

theorem reservationKey_noConflict : NoConflict (reservationKey disk path) := by
  have hsource : NoConflict (validateWindowsSourceComponents disk path) := by
    refine NoConflict.forM (fun name => (NoConflict.failIf (invalidWindowsOutputPath_code _ _)).bind fun _ => ?_) _
    split_ifs
    · exact .ok ()
    · exact validateWindowsComponent_noConflict _ _
  have hposix : NoConflict (posixOutputIdentity disk path) := by
    rw [posixOutputIdentity]
    split
    · exact .error ErrorCode.noConfusion
    · dsimp only
      split
      · exact .ok _
      · exact .ok _
  rw [reservationKey]
  split_ifs
  · refine NoConflict.bind ?_ fun identity => (NoConflict.elim (invalidWindowsOutputPath_code _ _)).bind fun _ => .ok _
    exact hsource.bind fun _ => (NoConflict.mapError fun _ => storageFailed_code _ _ _).bind fun absolute =>
      (windowsLexicalDiskPath_noConflict true).bind fun lexical =>
        (existingAncestor_noConflict _ _).bind fun ancestor =>
          (NoConflict.mapError fun _ => storageFailed_code _ _ _).bind fun canonical =>
            (windowsLexicalDiskPath_noConflict false).bind fun resolved =>
              (NoConflict.failIf (invalidWindowsOutputPath_code _ _)).bind fun _ => .ok _
  · exact hposix.bind fun _ => .ok _

end Refusals

/-! ## Batches -/

section Batches

variable {env : CallEnv} {db db' : Database} {newV4 : ℕ → Uuid}
  {key : PathBuf → Except AnoleError String} {requests : List JobCreateRequest}

/-- A refused sequence is refused by its first part or by the rest. -/
theorem bind_eq_error {α β : Type} {x : Except AnoleError α} {f : α → Except AnoleError β}
    {error : AnoleError} (h : (x >>= f) = .error error) :
    x = .error error ∨ ∃ a, x = .ok a ∧ f a = .error error := by
  match x with
  | .ok a => exact .inr ⟨a, rfl, h⟩
  | .error _ => exact .inl (congrArg Except.error (Except.error.inj h))

theorem insertRow_eq_error {ρ : Type} {clash : ρ → Bool} {row : ρ} {t : List ρ}
    {set : List ρ → Database} {error error' : AnoleError}
    (h : insertRow clash row t set error = .error error') :
    error' = error ∧ ∃ r ∈ t, clash r = true := by
  by_cases hfree : ∀ r ∈ t, clash r = false
  · rw [insertRow_eq_ok.mpr ⟨hfree, rfl⟩] at h
    exact absurd h (by simp)
  · push Not at hfree
    obtain ⟨r, hr, hclash⟩ := hfree
    rw [insertRow] at h
    split at h
    · exact absurd h (by simp)
    · exact ⟨(Except.error.inj h).symm, r, hr, Bool.not_eq_false _ ▸ hclash⟩

theorem insertRow_noConflict {ρ : Type} {clash : ρ → Bool} {row : ρ} {t : List ρ}
    {set : List ρ → Database} {diagnostic : String} :
    NoConflict (insertRow clash row t set (storageError diagnostic)) := fun error h => by
  rw [(insertRow_eq_error h).1]
  exact ErrorCode.noConfusion

theorem reserveOutput_error {id : Uuid} {path : PathBuf} {now : ℤ} {error : AnoleError}
    (hkey : NoConflict (key path)) (h : reserveOutput key db id path now = .error error)
    (hcode : error.code = .outputConflict) :
    ∃ row ∈ db.outputReservations, key path = .ok row.canonicalOutputPath := by
  obtain hnone | ⟨k, hk, h⟩ := bind_eq_error h
  · exact absurd hcode (hkey error hnone)
  · dsimp only at h
    split_ifs at h with howned hsome
    · exact absurd h (by simp [pure, Except.pure])
    · obtain ⟨-, row, hrow, hclash⟩ := insertRow_eq_error h
      obtain ⟨hrow, hother⟩ := Table.mem_delete.mp hrow
      simp only [decide_eq_true_eq, decide_eq_false_iff_not] at hclash hother
      exact ⟨row, hrow, hclash.resolve_right hother ▸ hk⟩
    · obtain ⟨-, row, hrow, hclash⟩ := insertRow_eq_error h
      have hother := ownedKey_eq_none.mp (Option.not_isSome_iff_eq_none.mp hsome) row hrow
      simp only [decide_eq_true_eq] at hclash
      exact ⟨row, hrow, hclash.resolve_right hother ▸ hk⟩

/-- The keys of the requests are distinct. -/
def DistinctKeys (key : PathBuf → Except AnoleError String) (requests : List JobCreateRequest) :
    Prop :=
  requests.Pairwise fun a b => ∀ k, key a.outputPath = .ok k → key b.outputPath ≠ .ok k

/-- Jobs with distinct keys clash only with a reservation that was there before. -/
theorem insertJobs_error {n : ℕ} {error : AnoleError} (henv : ∀ n, env.reservationKey n = key)
    (hkey : ∀ request ∈ requests, NoConflict (key request.outputPath))
    (hdistinct : DistinctKeys key requests)
    (h : insertJobs env newV4 n db requests = .error error)
    (hcode : error.code = .outputConflict) :
    ∃ request ∈ requests, ∃ row ∈ db.outputReservations,
      key request.outputPath = .ok row.canonicalOutputPath := by
  induction requests generalizing n db with
  | nil => exact absurd h (by simp [insertJobs])
  | cons request requests ih =>
    obtain ⟨hfirst, hrest⟩ := List.pairwise_cons.mp hdistinct
    obtain h | ⟨⟨record, middle⟩, hjob, h⟩ := bind_eq_error h
    · -- the request itself is refused
      obtain h | ⟨db1, hrow, h⟩ := bind_eq_error h
      · exact absurd hcode (insertRow_noConflict error h)
      obtain h | ⟨db2, hreserve, h⟩ := bind_eq_error h
      · rw [henv] at h
        obtain ⟨row, hmem, hk⟩ := reserveOutput_error (hkey _ List.mem_cons_self) h hcode
        rw [(insertRow_eq_ok.mp hrow).2] at hmem
        exact ⟨request, List.mem_cons_self, row, hmem, hk⟩
      obtain h | ⟨db3, -, h⟩ := bind_eq_error h
      · exact absurd hcode (insertRow_noConflict error h)
      · exact absurd h (by simp [pure, Except.pure])
    · -- a later one is: its key is not that of the request
      obtain h | ⟨⟨records, final⟩, -, h⟩ := bind_eq_error h
      · obtain ⟨other, hother, row, hmem, hk⟩ :=
          ih (fun request hrequest => hkey request (List.mem_cons_of_mem _ hrequest)) hrest h
        refine ⟨other, List.mem_cons_of_mem _ hother, row, ?_, hk⟩
        obtain ⟨db1, hrow, hjob⟩ := bind_eq_ok.mp hjob
        obtain ⟨db2, hreserve, hjob⟩ := bind_eq_ok.mp hjob
        obtain ⟨db3, hevent, hjob⟩ := bind_eq_ok.mp hjob
        obtain ⟨-, rfl⟩ := Prod.mk.inj (Except.ok.inj hjob)
        rw [henv] at hreserve
        have hmem2 : row ∈ db2.outputReservations := by
          rw [(insertRow_eq_ok.mp hevent).2] at hmem
          exact hmem
        have hrows : db1.outputReservations = db.outputReservations := by
          rw [(insertRow_eq_ok.mp hrow).2]
        rw [← hrows]
        obtain ⟨k, hkrequest, ⟨-, rfl⟩ | ⟨-, -, rfl⟩⟩ := reserveOutput_ok hreserve
        · exact hmem2
        · rcases List.mem_append.mp hmem2 with hmem2 | hnew
          · exact (Table.mem_delete.mp hmem2).1
          · rw [List.mem_singleton.mp hnew] at hk
            exact absurd hk (hfirst other hother k hkrequest)
      · exact absurd h (by simp [pure, Except.pure])

/-- A batch whose requests have distinct keys clashes only with a reservation that was there
    before. -/
theorem createBatchInner_error {name : String} {enqueue : Bool} {error : AnoleError}
    (henv : ∀ n, env.reservationKey n = key) (hfault : env.fault = none)
    (hkey : ∀ request ∈ requests, NoConflict (key request.outputPath))
    (hdistinct : DistinctKeys key requests)
    (h : createBatchInner env db name requests enqueue = (.error error, db'))
    (hcode : error.code = .outputConflict) :
    ∃ request ∈ requests, ∃ row ∈ db.outputReservations,
      key request.outputPath = .ok row.canonicalOutputPath := by
  rw [createBatchInner] at h
  match hname : validateBatchName name with
  | .error refusal =>
    rw [hname] at h
    obtain ⟨herror, -⟩ := Prod.mk.inj h
    refine absurd hcode ?_
    rw [← Except.error.inj herror]
    rw [validateBatchName, validateText] at hname
    split_ifs at hname
    rw [← Except.error.inj hname]
    exact ErrorCode.noConfusion
  | .ok valid =>
    rw [hname] at h
    dsimp only at h
    split_ifs at h with hcount
    · obtain ⟨herror, -⟩ := Prod.mk.inj h
      rw [← Except.error.inj herror] at hcode
      exact ErrorCode.noConfusion hcode
    · have hbody : createBatchBody env valid requests enqueue db = .error error := by
        match hresult : createBatchBody env valid requests enqueue db with
        | .ok (batch, final) =>
          rw [hresult, transaction_of_ok hfault] at h
          exact absurd (Prod.mk.inj h).1 (by simp)
        | .error refusal =>
          rw [hresult, transaction_of_error hfault] at h
          rw [Except.error.inj (Prod.mk.inj h).1]
      obtain h | ⟨db1, hbatch, h⟩ := bind_eq_error hbody
      · exact absurd hcode (insertRow_noConflict error h)
      obtain h | ⟨⟨jobs, db2⟩, -, h⟩ := bind_eq_error h
      · have hrows : db1.outputReservations = db.outputReservations := by
          rw [(insertRow_eq_ok.mp hbatch).2]
        rw [← hrows]
        exact insertJobs_error henv hkey hdistinct h hcode
      refine absurd hcode (NoConflict.bind ?_ (fun members => ?_) error h)
      · exact .foldlM (fun _ _ => insertRow_noConflict) _ _
      · dsimp only
        split_ifs
        · exact (NoConflict.foldlM (fun _ _ => insertRow_noConflict) _ _).bind fun _ => .ok _
        · exact .ok _

end Batches

end Anole.Folder
