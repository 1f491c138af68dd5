import Anole.Web.Requests

/-!
# Uploads

Model of `upload` (`crates/server/src/web.rs`, lines 387–499): the parts of the body up to the first
part `file`, and the loop that stores it.

The loop writes with `tokio::fs::File`. A write takes the bytes and goes on in the background; the next
write waits for it, and reports its error. But after the last one the file is dropped, without the
`flush` that would wait for it (line 453), and the answer 200 is given. And of the three exits of the
loop with an error only one removes the file (lines 432–465).

* `storeLoop_eq`: the loop as its writes and the end of the stream.
* `upload_whole_iff`: when the answer of `upload` can be relied on.
-/

open Common

namespace Anole.Web

/-! ## Files that are written in the background -/

/-- The bytes that have arrived in a file, those of a write in the background, and the number of
    writes. -/
structure BackgroundFile where
  arrived : List UInt8
  inFlight : Option (List UInt8)
  writes : ℕ

/-- `tokio::fs::File::create`. -/
def BackgroundFile.created : BackgroundFile := ⟨[], none, 0⟩

/-- How many bytes arrive of a write that may fail: of one that fails not all. -/
def arriving (bytes : List UInt8) : Option ℕ → ℕ
  | none => bytes.length
  | some stop => min stop (bytes.length - 1)

/-- The write in the background ends. -/
def BackgroundFile.settle (faults : ℕ → Option ℕ) (file : BackgroundFile) : Except BackgroundFile BackgroundFile :=
  match file.inFlight with
  | none => .ok file
  | some bytes =>
    let fault := faults (file.writes - 1)
    let settled := ⟨file.arrived ++ bytes.take (arriving bytes fault), none, file.writes⟩
    if fault = none then .ok settled else .error settled

/-- `poll_write` of as many bytes as it takes. -/
def BackgroundFile.write (faults : ℕ → Option ℕ) (file : BackgroundFile) (bytes : List UInt8) :
    Except BackgroundFile BackgroundFile := do
  let file ← file.settle faults
  pure { file with inFlight := some bytes, writes := file.writes + 1 }

/-- The bytes as they are taken, of which there are `size` at most each time. -/
def pieces (size : ℕ) : ℕ → List UInt8 → List (List UInt8)
  | 0, _ => []
  | fuel + 1, bytes => if bytes = [] then [] else bytes.take size :: pieces size fuel (bytes.drop size)

/-- The content that is read after some bytes of the write in the background have arrived. -/
def BackgroundFile.content (faults : ℕ → Option ℕ) (reached : ℕ) (file : BackgroundFile) : List UInt8 :=
  match file.inFlight with
  | none => file.arrived
  | some bytes => file.arrived ++ bytes.take (min reached (arriving bytes (faults (file.writes - 1))))

/-! ## The loop -/

/-- `field.chunk().await`. -/
inductive StreamEvent where
  | chunk (bytes : List UInt8)
  | failed (error : String)

/-- A part of a multipart body. -/
structure Part where
  name : Option String
  fileName : Option String
  stream : List StreamEvent

/-- `multipart.next_field().await`. -/
inductive MultipartEvent where
  | part (part : Part)
  | failed (error : String)

/-- The server: its limit, how many bytes a file takes at a time, the errors of its directory and of
    the creation of the file, and what becomes of the writes. -/
structure UploadEnv where
  isAlphanumeric : Char → Bool
  maxUploadBytes : ℕ
  ttlSecs : ℕ
  maxBufSize : ℕ
  maxBufSize_pos : 0 < maxBufSize
  directory : Option String
  creation : Option String
  faults : ℕ → Option ℕ
  writeError : String

/-- `write_all`. -/
def UploadEnv.writeAll (env : UploadEnv) (file : BackgroundFile) (bytes : List UInt8) :
    Except BackgroundFile BackgroundFile :=
  (pieces env.maxBufSize bytes.length bytes).foldlM (BackgroundFile.write env.faults) file

/-- How the loop ends. -/
inductive StoreExit where
  | stored (sizeBytes : ℕ)
  | streamFailed (error : String)
  | writeFailed
  | tooLarge

/-- The loop over the chunks (lines 434–452). -/
def UploadEnv.storeLoop (env : UploadEnv) : List StreamEvent → ℕ → BackgroundFile → StoreExit × BackgroundFile
  | [], sizeBytes, writer => (.stored sizeBytes, writer)
  | .failed error :: _, _, writer => (.streamFailed error, writer)
  | .chunk bytes :: stream, sizeBytes, writer =>
    let sizeBytes := sizeBytes + bytes.length
    if env.maxUploadBytes < sizeBytes then (.tooLarge, writer)
    else match env.writeAll writer bytes with
      | .error writer => (.writeFailed, writer)
      | .ok writer => env.storeLoop stream sizeBytes writer

/-- `INPUT_EXTENSIONS` (lines 54–67). -/
def inputExtensions : List String :=
  ["json", "csv", "yaml", "yml", "xml", "txt", "md", "markdown", "html", "htm", "pdf", "docx", "xlsx", "pptx", "odt",
    "xls", "xlsm", "xlsb", "mp4", "webm", "mkv", "mov", "avi", "m4v", "flv", "wmv", "mpg", "mpeg", "gif", "wav", "flac",
    "aac", "m4a", "ogg", "opus", "mp3", "png", "jpg", "jpeg", "webp", "avif", "tiff", "tif", "bmp", "heic", "heif", "psd",
    "dng", "cr2", "cr3", "arw", "nef", "orf", "rw2", "pef", "raf", "eml", "msg", "mbox", "zip", "7z", "tar", "gz", "tgz",
    "taz"]

/-- `storage_failure` (lines 329–341). -/
def storageFailure (message : String) (diagnostic : String) : WebError :=
  .refused ((AnoleError.new .storageFailed .store message
    "Retry the upload; if it keeps failing, check server disk space.").withDiagnostic diagnostic)

/-- What an upload leaves: its answer, with the size of the upload, the file at its path, and the
    record. -/
structure Uploaded where
  answer : Except WebError ℕ
  file : Option BackgroundFile
  record : Option UploadRecord

def Uploaded.refuse (error : WebError) : Uploaded := ⟨.error error, none, none⟩

/-- The storage of a part (lines 424–499). -/
def UploadEnv.store (env : UploadEnv) (uploadId : Uuid) (now : ℕ) (fileName extension : String)
    (stream : List StreamEvent) : Uploaded :=
  let storedPath : WebPath := .upload uploadId extension
  match env.creation with
  | some error => .refuse (storageFailure "cannot store the upload" error)
  | none =>
    let (exit, writer) := env.storeLoop stream 0 .created
    match exit with
    | .streamFailed error =>
      ⟨.error (invalidInput ("upload stream failed: " ++ error) "Retry the upload."), some writer, none⟩
    | .writeFailed => ⟨.error (storageFailure "cannot write the upload" env.writeError), some writer, none⟩
    | .tooLarge => .refuse (invalidInput
        ("upload exceeds the " ++ toString (env.maxUploadBytes / (1024 * 1024)) ++ " MiB limit")
        "Compress or split the file, then retry.")
    | .stored sizeBytes => ⟨.ok sizeBytes, some writer, some ⟨uploadId, fileName, storedPath, now + env.ttlSecs⟩⟩

/-- The loop over the parts (lines 401–472). -/
def UploadEnv.parts (env : UploadEnv) (uploadId : Uuid) (now : ℕ) : List MultipartEvent → Uploaded
  | [] => .refuse (invalidInput "multipart body has no `file` part" "Attach exactly one file part named `file`.")
  | .failed error :: _ => .refuse (invalidInput ("invalid multipart body: " ++ error)
      "Send the file as the `file` part of a multipart/form-data request.")
  | .part part :: body =>
    if part.name ≠ some "file" then env.parts uploadId now body
    else match part.fileName with
      | none => .refuse (invalidInput "the `file` part is missing its filename"
          "Attach the file with a filename so the format can be checked.")
      | some rawName =>
        let fileName := sanitizeFileName env.isAlphanumeric rawName
        let extension := (fileExtension fileName).getD ""
        if extension ∉ inputExtensions then
          .refuse (invalidInput ("unsupported input extension: ." ++ extension)
            "Check the supported input formats list and retry with a supported file.")
        else env.store uploadId now fileName extension part.stream

/-- `upload`. -/
def UploadEnv.upload (env : UploadEnv) (uploadId : Uuid) (now : ℕ) (body : List MultipartEvent) : Uploaded :=
  match env.directory with
  | some error => .refuse (storageFailure "cannot create the uploads directory" error)
  | none => env.parts uploadId now body

/-! ## The stream against the limit -/

/-- The chunks before the stream fails or exceeds the limit, after some bytes. -/
def accepted (limit : ℕ) : ℕ → List StreamEvent → List (List UInt8)
  | _, [] => []
  | _, .failed _ :: _ => []
  | sizeBytes, .chunk bytes :: stream =>
    if limit < sizeBytes + bytes.length then [] else bytes :: accepted limit (sizeBytes + bytes.length) stream

/-- How a stream ends. -/
inductive StreamEnd where
  | whole | failed (error : String) | exceeds

/-- How the stream ends, after some bytes. -/
def streamEnd (limit : ℕ) : ℕ → List StreamEvent → StreamEnd
  | _, [] => .whole
  | _, .failed error :: _ => .failed error
  | sizeBytes, .chunk bytes :: stream =>
    if limit < sizeBytes + bytes.length then .exceeds else streamEnd limit (sizeBytes + bytes.length) stream

/-- The bytes of a stream. -/
def bytesOf (stream : List StreamEvent) : List UInt8 := stream.flatMap fun
  | .chunk bytes => bytes
  | .failed _ => []

/-- The writes of an upload. -/
def UploadEnv.writesOf (env : UploadEnv) (stream : List StreamEvent) : List (List UInt8) :=
  (accepted env.maxUploadBytes 0 stream).flatMap fun bytes => pieces env.maxBufSize bytes.length bytes

/-- All writes but the last succeed. -/
def UploadEnv.AwaitedSucceed (env : UploadEnv) (writes : List (List UInt8)) : Prop :=
  ∀ i, i + 1 < writes.length → env.faults i = none

/-- The last write has arrived when so many of its bytes are read. -/
def UploadEnv.LastArrives (env : UploadEnv) (reached : ℕ) (writes : List (List UInt8)) : Prop :=
  ∀ bytes ∈ writes.getLast?, env.faults (writes.length - 1) = none ∧ bytes.length ≤ reached

/-! ## Pieces -/

theorem pieces_flatten {size : ℕ} (hsize : 0 < size) {fuel : ℕ} {bytes : List UInt8} (h : bytes.length ≤ fuel) :
    (pieces size fuel bytes).flatten = bytes := by
  induction fuel generalizing bytes with
  | zero =>
    rw [List.length_eq_zero_iff.mp (Nat.le_zero.mp h)]
    rfl
  | succ fuel ih =>
    rw [pieces]
    split
    · rename_i hnil
      exact hnil.symm
    · have hrest : (bytes.drop size).length ≤ fuel := by
        rw [List.length_drop]
        omega
      rw [List.flatten_cons, ih hrest, List.take_append_drop]

theorem ne_nil_of_mem_pieces {size : ℕ} (hsize : 0 < size) {fuel : ℕ} {bytes piece : List UInt8}
    (h : piece ∈ pieces size fuel bytes) : piece ≠ [] := by
  induction fuel generalizing bytes with
  | zero => cases h
  | succ fuel ih =>
    rw [pieces] at h
    split at h
    · cases h
    · rename_i hbytes
      rcases List.mem_cons.mp h with rfl | hrest
      · intro hnil
        rcases List.take_eq_nil_iff.mp hnil with hzero | hempty
        · omega
        · exact hbytes hempty
      · exact ih hrest

variable {stream : List StreamEvent}

/-- An upload whose stream is whole writes its bytes. -/
theorem accepted_flatten {limit : ℕ} {sizeBytes : ℕ}
    (h : streamEnd limit sizeBytes stream = .whole) : (accepted limit sizeBytes stream).flatten = bytesOf stream := by
  induction stream generalizing sizeBytes with
  | nil => rfl
  | cons event stream ih =>
    cases event with
    | failed error => cases h
    | chunk bytes =>
      rw [streamEnd] at h
      rw [accepted]
      split at h
      · cases h
      · rename_i hwithin
        rw [if_neg hwithin, List.flatten_cons, ih h]
        rfl

theorem UploadEnv.writesOf_flatten (env : UploadEnv)
    (h : streamEnd env.maxUploadBytes 0 stream = .whole) : (env.writesOf stream).flatten = bytesOf stream := by
  rw [← accepted_flatten h, UploadEnv.writesOf]
  induction accepted env.maxUploadBytes 0 stream with
  | nil => rfl
  | cons bytes chunks ih =>
    rw [List.flatMap_cons, List.flatten_append, ih, List.flatten_cons, pieces_flatten env.maxBufSize_pos le_rfl]

theorem UploadEnv.ne_nil_of_mem_writesOf (env : UploadEnv) {bytes : List UInt8}
    (h : bytes ∈ env.writesOf stream) : bytes ≠ [] := by
  obtain ⟨chunk, -, hpiece⟩ := List.mem_flatMap.mp h
  exact ne_nil_of_mem_pieces env.maxBufSize_pos hpiece

/-! ## The writes -/

variable {env : UploadEnv} {writes : List (List UInt8)}

/-- One more write waits for the one before. -/
theorem awaited_append {last : List UInt8} :
    env.AwaitedSucceed (writes ++ [last]) ↔
      env.AwaitedSucceed writes ∧ (writes ≠ [] → env.faults (writes.length - 1) = none) := by
  rw [UploadEnv.AwaitedSucceed, List.length_append, List.length_singleton]
  constructor
  · intro h
    refine ⟨fun i hi => h i (by omega), fun hne => h _ ?_⟩
    have hpos := List.length_pos_iff.mpr hne
    omega
  · rintro ⟨hbefore, hlast⟩ i hi
    by_cases hmiddle : i + 1 < writes.length
    · exact hbefore i hmiddle
    · have hi' : i = writes.length - 1 := by omega
      rw [hi']
      refine hlast (List.length_pos_iff.mp ?_)
      omega

theorem write_ok (h : writes ≠ [] → env.faults (writes.length - 1) = none)
    (last : List UInt8) :
    BackgroundFile.write env.faults ⟨writes.dropLast.flatten, writes.getLast?, writes.length⟩ last =
      .ok ⟨writes.flatten, some last, writes.length + 1⟩ := by
  rcases List.eq_nil_or_concat writes with rfl | ⟨before, bytes, rfl⟩
  · rfl
  · have hfault := h (by simp)
    have harrived : before.flatten ++ bytes.take (arriving bytes none) = (before ++ [bytes]).flatten := by
      rw [arriving, List.take_length, List.flatten_append, List.flatten_singleton]
    rw [List.concat_eq_append] at hfault ⊢
    rw [BackgroundFile.write, BackgroundFile.settle, List.dropLast_concat, List.getLast?_concat]
    simp only [hfault, if_true, harrived]
    rfl

theorem write_error (hne : writes ≠ []) (h : env.faults (writes.length - 1) ≠ none)
    (last : List UInt8) : ∃ file,
    BackgroundFile.write env.faults ⟨writes.dropLast.flatten, writes.getLast?, writes.length⟩ last = .error file := by
  obtain ⟨bytes, hbytes⟩ := Option.isSome_iff_exists.mp (List.getLast?_isSome.mpr hne)
  rw [BackgroundFile.write, BackgroundFile.settle, hbytes]
  simp only [if_neg h]
  exact ⟨_, rfl⟩

theorem foldlM_write_singleton (file : BackgroundFile) (last : List UInt8) :
    [last].foldlM (BackgroundFile.write env.faults) file = BackgroundFile.write env.faults file last := by
  rw [List.foldlM_cons]
  exact bind_pure _

/-- **The writes** succeed when all but the last do, and the last is then in the background. -/
theorem writes_ok (h : env.AwaitedSucceed writes) :
    writes.foldlM (BackgroundFile.write env.faults) .created =
      .ok ⟨writes.dropLast.flatten, writes.getLast?, writes.length⟩ := by
  induction writes using List.reverseRecOn with
  | nil => rfl
  | append_singleton writes last ih =>
    obtain ⟨hbefore, hlast⟩ := awaited_append.mp h
    rw [List.foldlM_append, ih hbefore, List.dropLast_concat, List.getLast?_concat, List.length_append,
      List.length_singleton]
    exact (foldlM_write_singleton _ _).trans (write_ok hlast last)

/-- They fail when another one does. -/
theorem writes_error (h : ¬ env.AwaitedSucceed writes) :
    ∃ file, writes.foldlM (BackgroundFile.write env.faults) .created = .error file := by
  induction writes using List.reverseRecOn with
  | nil => exact absurd (fun i hi => absurd hi (Nat.not_lt_zero _)) h
  | append_singleton writes last ih =>
    by_cases hbefore : env.AwaitedSucceed writes
    · have hlast : writes ≠ [] ∧ env.faults (writes.length - 1) ≠ none := by
        rw [awaited_append, not_and] at h
        exact Classical.not_imp.mp (h hbefore)
      obtain ⟨file, hfile⟩ := write_error hlast.1 hlast.2 last
      rw [List.foldlM_append, writes_ok hbefore]
      exact ⟨file, (foldlM_write_singleton _ _).trans hfile⟩
    · obtain ⟨file, hfile⟩ := ih hbefore
      rw [List.foldlM_append, hfile]
      exact ⟨file, rfl⟩

/-! ## The loop and the upload -/

/-- The loop by the end of the stream. -/
def StreamEnd.exit (sizeBytes : ℕ) : StreamEnd → StoreExit
  | .whole => .stored sizeBytes
  | .failed error => .streamFailed error
  | .exceeds => .tooLarge

/-- **The loop** is its writes, and then the end of the stream. -/
theorem storeLoop_eq (env : UploadEnv) (stream : List StreamEvent) (sizeBytes : ℕ) (writer : BackgroundFile) :
    env.storeLoop stream sizeBytes writer =
      match ((accepted env.maxUploadBytes sizeBytes stream).flatMap fun bytes =>
          pieces env.maxBufSize bytes.length bytes).foldlM (BackgroundFile.write env.faults) writer with
      | .error writer => (.writeFailed, writer)
      | .ok writer => ((streamEnd env.maxUploadBytes sizeBytes stream).exit (sizeBytes + (bytesOf stream).length), writer) := by
  induction stream generalizing sizeBytes writer with
  | nil => rfl
  | cons event stream ih =>
    cases event with
    | failed error => rfl
    | chunk bytes =>
      rw [UploadEnv.storeLoop, accepted, streamEnd]
      split
      · rfl
      · rw [List.flatMap_cons, List.foldlM_append, UploadEnv.writeAll]
        cases hwrite : (pieces env.maxBufSize bytes.length bytes).foldlM (BackgroundFile.write env.faults) writer with
        | error writer => rfl
        | ok writer =>
          have hbytes : bytesOf (.chunk bytes :: stream) = bytes ++ bytesOf stream := rfl
          dsimp only
          rw [ih, hbytes, List.length_append, ← Nat.add_assoc]
          rfl

/-- The stream that an upload stores: that of the first part `file`, if its name is accepted and its
    file can be created. -/
def UploadEnv.storedStream (env : UploadEnv) : List MultipartEvent → Option (List StreamEvent)
  | [] => none
  | .failed _ :: _ => none
  | .part part :: body =>
    if part.name ≠ some "file" then env.storedStream body
    else part.fileName.bind fun rawName =>
      if (fileExtension (sanitizeFileName env.isAlphanumeric rawName)).getD "" ∉ inputExtensions then none
      else if env.creation = none then some part.stream
      else none

/-- The file of an upload, when the server can create it. -/
def UploadEnv.receives (env : UploadEnv) (body : List MultipartEvent) : Option (List StreamEvent) :=
  if env.directory = none then env.storedStream body else none

/-- When an upload is accepted its file holds the bytes of the part once so many bytes of the write in
    the background have arrived; and when it is not, there is neither a file nor a record. -/
def UploadEnv.Kept (env : UploadEnv) (reached : ℕ) (body : List MultipartEvent) (uploaded : Uploaded) : Prop :=
  match uploaded.answer with
  | .ok sizeBytes => ∃ stream file, env.receives body = some stream ∧ uploaded.file = some file ∧
      file.content env.faults reached = bytesOf stream ∧ sizeBytes = (bytesOf stream).length
  | .error _ => uploaded.file = none ∧ uploaded.record = none

theorem upload_cases (env : UploadEnv) (uploadId : Uuid) (now : ℕ) (body : List MultipartEvent) :
    (env.receives body = none ∧ ∃ error, env.upload uploadId now body = .refuse error) ∨
      ∃ stream fileName extension, env.receives body = some stream ∧ env.creation = none ∧
        env.upload uploadId now body = env.store uploadId now fileName extension stream := by
  have hparts : (env.storedStream body = none ∧ ∃ error, env.parts uploadId now body = .refuse error) ∨
      ∃ stream fileName extension, env.storedStream body = some stream ∧ env.creation = none ∧
        env.parts uploadId now body = env.store uploadId now fileName extension stream := by
    induction body with
    | nil => exact .inl ⟨rfl, _, rfl⟩
    | cons event body ih =>
      cases event with
      | failed error => exact .inl ⟨rfl, _, rfl⟩
      | part part =>
        rw [UploadEnv.storedStream, UploadEnv.parts]
        by_cases hname : part.name ≠ some "file"
        · rw [if_pos hname, if_pos hname]
          exact ih
        · rw [if_neg hname, if_neg hname]
          cases part.fileName with
          | none => exact .inl ⟨rfl, _, rfl⟩
          | some rawName =>
            rw [Option.bind_some]
            dsimp only
            split
            · exact .inl ⟨rfl, _, rfl⟩
            · cases hcreation : env.creation with
              | none => exact .inr ⟨part.stream, _, _, rfl, rfl, rfl⟩
              | some error =>
                refine .inl ⟨rfl, storageFailure "cannot store the upload" error, ?_⟩
                rw [UploadEnv.store, hcreation]
  rw [UploadEnv.receives, UploadEnv.upload]
  cases env.directory with
  | none => simpa using hparts
  | some error => exact .inl ⟨rfl, _, rfl⟩

/-- When the answer of an upload of a stream can be relied on: the writes but the last succeed, and the
    stream exceeds the limit, or is whole and the last write arrives. -/
def UploadEnv.Reliable (env : UploadEnv) (reached : ℕ) (stream : List StreamEvent) : Prop :=
  env.AwaitedSucceed (env.writesOf stream) ∧
    (streamEnd env.maxUploadBytes 0 stream = .exceeds ∨
      streamEnd env.maxUploadBytes 0 stream = .whole ∧ env.LastArrives reached (env.writesOf stream))

/-- The content is whole when the last write has arrived. -/
theorem content_eq_iff (env : UploadEnv) (h : ∀ bytes ∈ writes, bytes ≠ []) (reached : ℕ) :
    BackgroundFile.content env.faults reached ⟨writes.dropLast.flatten, writes.getLast?, writes.length⟩ =
      writes.flatten ↔ env.LastArrives reached writes := by
  rcases List.eq_nil_or_concat writes with rfl | ⟨before, bytes, rfl⟩
  · exact iff_of_true rfl nofun
  · rw [List.concat_eq_append] at h ⊢
    have hpos : 0 < bytes.length := List.length_pos_iff.mpr (h bytes (by simp))
    rw [BackgroundFile.content, List.dropLast_concat, List.getLast?_concat, List.flatten_append, List.flatten_singleton]
    dsimp only
    rw [List.append_cancel_left_eq, List.take_eq_self_iff, UploadEnv.LastArrives, List.getLast?_concat]
    simp only [Option.mem_def, Option.some.injEq, forall_eq']
    cases env.faults ((before ++ [bytes]).length - 1) with
    | none =>
      rw [arriving]
      simp only [true_and]
      omega
    | some stop =>
      rw [arriving]
      simp only [reduceCtorEq, false_and, iff_false]
      omega

/-- **An upload** keeps what its answer says exactly when the stream that it stores is reliable. -/
theorem upload_whole_iff (env : UploadEnv) (reached : ℕ) (uploadId : Uuid) (now : ℕ) (body : List MultipartEvent) :
    env.Kept reached body (env.upload uploadId now body) ↔ ∀ stream ∈ env.receives body, env.Reliable reached stream := by
  rcases upload_cases env uploadId now body with ⟨hnone, error, hrefused⟩ | ⟨stream, fileName, extension, hstream, hcreation,
    hupload⟩
  · rw [hrefused, hnone]
    exact iff_of_true ⟨rfl, rfl⟩ nofun
  · rw [hstream, hupload, UploadEnv.store, hcreation]
    simp only [Option.mem_def, Option.some.injEq, forall_eq']
    rw [storeLoop_eq, ← UploadEnv.writesOf, UploadEnv.Reliable]
    by_cases hawaited : env.AwaitedSucceed (env.writesOf stream)
    · rw [writes_ok hawaited]
      dsimp only
      cases hend : streamEnd env.maxUploadBytes 0 stream with
      | failed error =>
        refine iff_of_false (fun hkept => ?_) ?_
        · cases hkept.1
        · rintro ⟨-, hexceeds | ⟨hwhole, -⟩⟩
          · cases hexceeds
          · cases hwhole
      | exceeds => exact iff_of_true ⟨rfl, rfl⟩ ⟨hawaited, .inl rfl⟩
      | whole =>
        have hpieces : ∀ bytes ∈ env.writesOf stream, bytes ≠ [] := fun bytes => env.ne_nil_of_mem_writesOf
        have hcontent := content_eq_iff env hpieces reached
        rw [env.writesOf_flatten hend] at hcontent
        constructor
        · rintro ⟨stream', file, hstream', hfile, hbytes, -⟩
          cases Option.some.inj (hstream.symm.trans hstream')
          cases hfile
          exact ⟨hawaited, .inr ⟨rfl, hcontent.mp hbytes⟩⟩
        · rintro ⟨-, hexceeds | ⟨-, harrives⟩⟩
          · cases hexceeds
          · exact ⟨stream, _, hstream, rfl, hcontent.mpr harrives, Nat.zero_add _⟩
    · obtain ⟨file, hfile⟩ := writes_error hawaited
      rw [hfile]
      refine iff_of_false (fun hkept => ?_) fun hreliable => hawaited hreliable.1
      cases hkept.1

/-! ## A short file, and a file that stays -/

namespace UploadSample

def serverWith (faults : ℕ → Option ℕ) : UploadEnv where
  isAlphanumeric := Char.isAlphanum
  maxUploadBytes := 10
  ttlSecs := 3600
  maxBufSize := 4
  maxBufSize_pos := by decide
  directory := none
  creation := none
  faults := faults
  writeError := "No space left on device"

def body (stream : List StreamEvent) : List MultipartEvent := [.part ⟨some "file", some "notes.txt", stream⟩]

/-- The second write fails: it is the last one. -/
def lastFails : ℕ → Option ℕ
  | 1 => some 0
  | _ => none

/-- **The answer is 200, and the file is short**; and a stream that fails leaves its file. -/
theorem upload_short :
    ((serverWith lastFails).upload 1 0 (body [.chunk [1, 2, 3], .chunk [4, 5]])).answer = .ok 5 ∧
      ¬ (serverWith lastFails).Kept 5 (body [.chunk [1, 2, 3], .chunk [4, 5]])
        ((serverWith lastFails).upload 1 0 (body [.chunk [1, 2, 3], .chunk [4, 5]])) ∧
      ((serverWith fun _ => none).upload 1 0 (body [.chunk [1, 2, 3], .failed "reset"])).file ≠ none := by
  refine ⟨rfl, ?_, by decide⟩
  rintro ⟨stream, file, hstream, hfile, hbytes, -⟩
  cases hstream
  cases hfile
  exact absurd hbytes (by decide)

/-- An upload whose writes all arrive is whole. -/
example : (serverWith fun _ => none).Kept 2 (body [.chunk [1, 2, 3], .chunk [4, 5]])
    ((serverWith fun _ => none).upload 1 0 (body [.chunk [1, 2, 3], .chunk [4, 5]])) :=
  ⟨_, _, rfl, rfl, by decide, rfl⟩

end UploadSample

end Anole.Web
