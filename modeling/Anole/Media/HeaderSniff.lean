import Mathlib.Data.List.Infix
import Mathlib.Data.Nat.Notation
import Mathlib.Tactic.Common
import Mathlib.Tactic.SplitIfs

/-!
# Header sniffing

Model of `sniff_header_prefix`, `is_mp3_frame` and `is_mpeg_transport_stream` (`crates/core/src/inspect.rs`, lines
126–252), which find the demuxer that `inspect_media` (lines 23–44) forces on a file by the bytes it begins with. The
languages of such headers follow the signatures of the formats.

Results:
* `sniffHeaderPrefix_sound`, `sniffHeaderPrefix_complete`: a demuxer is found in the headers of its languages only, and
  in all of them, but for the headers below.
* `sniffing_iff`: which headers get the demuxer of their language.

**Deviation.** For a bitmap the bytes 14 to 18 must be zero; these are the size of the DIB header, which is never zero,
and the reserved bytes are 6 to 10. So no bitmap is found, and other files are taken for one. The frames of an ADTS
stream, with layer bits 00, are taken for MPEG audio. And a second sync byte at 376 is enough for a transport stream.
-/

namespace Anole.Media.Header

/-- `HeaderHint`. -/
structure HeaderHint where
  demuxer : String
  formatId : Option String

/-- `prefix.starts_with(bytes)`. -/
def startsWith (bytes header : List UInt8) : Bool := bytes.isPrefixOf header

/-- `prefix.get(start..end)`. -/
def slice (header : List UInt8) (start stop : ℕ) : Option (List UInt8) :=
  if stop ≤ header.length then some ((header.drop start).take (stop - start)) else none

/-- A byte string. -/
def ascii (text : String) : List UInt8 := text.toList.map Char.toUInt8

/-- `is_mp3_frame`. -/
def isMp3Frame : List UInt8 → Bool
  | b0 :: b1 :: _ => b0 == 0xff && b1 &&& 0xe0 == 0xe0
  | _ => false

/-- `is_mpeg_transport_stream`. -/
def isMpegTransportStream (header : List UInt8) : Bool :=
  header.head? == some 0x47 && (header[188]? == some 0x47 || header[376]? == some 0x47)

/-- The image formats of an `ftyp` box, by its brand (lines 176–183). -/
def brandFormatId (brand : Option (List UInt8)) : Option String :=
  if brand = some (ascii "avif") ∨ brand = some (ascii "avis") then some "avif"
  else if brand = some (ascii "heic") ∨ brand = some (ascii "heix") ∨ brand = some (ascii "hevc") ∨
      brand = some (ascii "hevx") ∨ brand = some (ascii "heim") ∨ brand = some (ascii "heis") ∨
      brand = some (ascii "mif1") then some "heic"
  else none

/-- The forms of a RIFF file (lines 208–222). -/
def riffHint (form : Option (List UInt8)) : Option HeaderHint :=
  if form = some (ascii "WEBP") then some ⟨"webp_pipe", some "webp"⟩
  else if form = some (ascii "WAVE") then some ⟨"wav", none⟩
  else if form = some (ascii "AVI ") then some ⟨"avi", none⟩
  else none

/-- `sniff_header_prefix`. -/
def sniffHeaderPrefix (header : List UInt8) : Option HeaderHint :=
  if startsWith [0x89, 0x50, 0x4e, 0x47, 0x0d, 0x0a, 0x1a, 0x0a] header then some ⟨"png_pipe", some "png"⟩
  else if startsWith [0xff, 0xd8, 0xff] header then some ⟨"image2", some "jpeg"⟩
  else if startsWith (ascii "GIF87a") header ∨ startsWith (ascii "GIF89a") header then some ⟨"gif", some "gif"⟩
  else if startsWith [0x1a, 0x45, 0xdf, 0xa3] header then some ⟨"matroska", none⟩
  else if startsWith [0x49, 0x49, 0x2a, 0x00] header ∨ startsWith [0x4d, 0x4d, 0x00, 0x2a] header then
    some ⟨"tiff_pipe", some "tiff"⟩
  else if startsWith (ascii "BM") header ∧ slice header 14 18 = some [0, 0, 0, 0] then some ⟨"bmp_pipe", some "bmp"⟩
  else if slice header 4 8 = some (ascii "ftyp") then some ⟨"mov", brandFormatId (slice header 8 12)⟩
  else if startsWith (ascii "OggS") header then some ⟨"ogg", none⟩
  else if startsWith (ascii "fLaC") header then some ⟨"flac", none⟩
  else if startsWith (ascii "FLV") header then some ⟨"flv", none⟩
  else if startsWith (ascii ".RMF") header then some ⟨"rm", none⟩
  else if startsWith (ascii "RIFF") header then riffHint (slice header 8 12)
  else if startsWith (ascii "ID3") header ∨ isMp3Frame header then some ⟨"mp3", none⟩
  else if startsWith [0x00, 0x00, 0x01, 0xba] header then some ⟨"mpeg", none⟩
  else if isMpegTransportStream header then some ⟨"mpegts", none⟩
  else none

/-- The arguments of `inspect_media` that force a demuxer (lines 41–43). -/
def demuxerArguments (hint : Option HeaderHint) : List String :=
  match hint with
  | some hint => ["-f", hint.demuxer]
  | none => []

/-! ## Signatures -/

/-- The formats with a signature. -/
inductive Language where
  | png | jpeg | gif | ebml | tiff | bmp | isoBmff | ogg | flac | flv | rmf | webp | wave | avi | mp3 | mpegProgram
  | mpegTransport
  deriving DecidableEq

/-- The sizes of a DIB header. -/
def dibHeaderSizes : List UInt8 := [12, 40, 52, 56, 64, 108, 124]

/-- A byte behind `0xff` of the header of an MPEG audio frame: eleven bits of sync, and a layer. -/
def isAudioFrameByte (b : UInt8) : Bool := b &&& 0xe0 == 0xe0 && b &&& 0x06 != 0

def Language.Contains : Language → List UInt8 → Prop
  | png, header => startsWith [0x89, 0x50, 0x4e, 0x47, 0x0d, 0x0a, 0x1a, 0x0a] header
  | jpeg, header => startsWith [0xff, 0xd8, 0xff] header
  | gif, header => startsWith (ascii "GIF87a") header ∨ startsWith (ascii "GIF89a") header
  | ebml, header => startsWith [0x1a, 0x45, 0xdf, 0xa3] header
  | tiff, header => startsWith (ascii "II" ++ [0x2a, 0]) header ∨ startsWith (ascii "MM" ++ [0, 0x2a]) header
  | bmp, header => startsWith (ascii "BM") header ∧ slice header 6 10 = some [0, 0, 0, 0] ∧
      ∃ size ∈ dibHeaderSizes, slice header 14 18 = some [size, 0, 0, 0]
  | isoBmff, header => slice header 4 8 = some (ascii "ftyp")
  | ogg, header => startsWith (ascii "OggS") header
  | flac, header => startsWith (ascii "fLaC") header
  | flv, header => startsWith (ascii "FLV") header
  | rmf, header => startsWith (ascii ".RMF") header
  | webp, header => startsWith (ascii "RIFF") header ∧ slice header 8 12 = some (ascii "WEBP")
  | wave, header => startsWith (ascii "RIFF") header ∧ slice header 8 12 = some (ascii "WAVE")
  | avi, header => startsWith (ascii "RIFF") header ∧ slice header 8 12 = some (ascii "AVI ")
  | mp3, header => startsWith (ascii "ID3") header ∨
      header[0]? = some 0xff ∧ ∃ b, header[1]? = some b ∧ isAudioFrameByte b = true
  | mpegProgram, header => startsWith [0, 0, 1, 0xba] header
  | mpegTransport, header => header[0]? = some 0x47 ∧ header[188]? = some 0x47

def Language.demuxer : Language → String
  | png => "png_pipe"
  | jpeg => "image2"
  | gif => "gif"
  | ebml => "matroska"
  | tiff => "tiff_pipe"
  | bmp => "bmp_pipe"
  | isoBmff => "mov"
  | ogg => "ogg"
  | flac => "flac"
  | flv => "flv"
  | rmf => "rm"
  | webp => "webp_pipe"
  | wave => "wav"
  | avi => "avi"
  | mp3 => "mp3"
  | mpegProgram => "mpeg"
  | mpegTransport => "mpegts"

/-- A header of one language gets its demuxer and a header of none gets none; and what is forced is the demuxer of a
language of the header. -/
structure Follows (header : List UInt8) : Prop where
  only : ∀ language : Language, language.Contains header →
    (∀ other : Language, other.Contains header → other = language) →
    (sniffHeaderPrefix header).map HeaderHint.demuxer = some language.demuxer
  none : (∀ language : Language, ¬ language.Contains header) → sniffHeaderPrefix header = none
  forced : ∀ demuxer, demuxerArguments (sniffHeaderPrefix header) = ["-f", demuxer] →
    ∃ language : Language, language.Contains header ∧ language.demuxer = demuxer

/-! ## The bytes of a header -/

section

variable {a header : List UInt8}

theorem startsWith_iff : startsWith a header = true ↔ a <+: header := List.isPrefixOf_iff_prefix

/-- A byte of a signature is a byte of the header. -/
theorem getElem?_of_startsWith (h : startsWith a header = true) {i : ℕ} {byte : UInt8} (hbyte : a[i]? = some byte) :
    header[i]? = some byte := by
  obtain ⟨rest, rfl⟩ := startsWith_iff.mp h
  rw [List.getElem?_append_left (List.getElem?_eq_some_iff.mp hbyte).1, hbyte]

/-- A header with another byte does not have a signature. -/
theorem not_startsWith {i : ℕ} {byte other : UInt8} (hheader : header[i]? = some byte) (hbyte : a[i]? = some other)
    (hne : byte ≠ other) : ¬ startsWith a header = true := by
  intro h
  rw [getElem?_of_startsWith h hbyte] at hheader
  exact hne (Option.some.inj hheader).symm

/-- A byte of a part of the header. -/
theorem getElem?_of_slice {start stop : ℕ} (h : slice header start stop = some a) {i : ℕ} {byte : UInt8}
    (hbyte : a[i]? = some byte) : header[start + i]? = some byte := by
  unfold slice at h
  split_ifs at h
  rw [← Option.some.inj h, List.getElem?_take] at hbyte
  split_ifs at hbyte
  rwa [List.getElem?_drop] at hbyte

theorem isMp3Frame_iff : isMp3Frame header = true ↔
    header[0]? = some 0xff ∧ ∃ byte, header[1]? = some byte ∧ byte &&& 0xe0 = 0xe0 := by
  rcases header with _ | ⟨b0, _ | ⟨b1, rest⟩⟩ <;> simp [isMp3Frame]

theorem isMpegTransportStream_iff : isMpegTransportStream header = true ↔
    header[0]? = some 0x47 ∧ (header[188]? = some 0x47 ∨ header[376]? = some 0x47) := by
  rw [isMpegTransportStream, List.head?_eq_getElem?, Bool.and_eq_true, Bool.or_eq_true, beq_iff_eq, beq_iff_eq,
    beq_iff_eq]

end

/-! ## Misreadings -/

/-- A file with zeros where a bitmap has the size of its DIB header. -/
def LooksLikeBitmap (header : List UInt8) : Prop :=
  startsWith (ascii "BM") header ∧ slice header 14 18 = some [0, 0, 0, 0]

/-- An ADTS frame, or another frame with layer bits 00, outside of an `ftyp` box. -/
def LooksLikeMp3 (header : List UInt8) : Prop :=
  (header[0]? = some 0xff ∧ ∃ b : UInt8, header[1]? = some b ∧ b &&& 0xe0 = 0xe0 ∧ b &&& 0x06 = 0) ∧
    slice header 4 8 ≠ some (ascii "ftyp")

/-- A sync byte that comes back at 376 only, in a file that is neither a GIF nor in an `ftyp` box. -/
def LooksLikeTransport (header : List UInt8) : Prop :=
  (header[0]? = some 0x47 ∧ header[188]? ≠ some 0x47 ∧ header[376]? = some 0x47) ∧
    ¬ Language.gif.Contains header ∧ slice header 4 8 ≠ some (ascii "ftyp")

/-- No header that is misread. -/
structure Clear (header : List UInt8) : Prop where
  bitmap : ¬ Language.bmp.Contains header
  notBitmap : ¬ LooksLikeBitmap header
  notMp3 : ¬ LooksLikeMp3 header
  notTransport : ¬ LooksLikeTransport header

variable {header : List UInt8}

theorem riffHint_sound (hriff : startsWith (ascii "RIFF") header = true) {hint : HeaderHint}
    (h : riffHint (slice header 8 12) = some hint) :
    ∃ language : Language, language.Contains header ∧ language.demuxer = hint.demuxer := by
  unfold riffHint at h
  rcases ite_eq_iff.mp h with ⟨hwebp, h⟩ | ⟨-, h⟩
  · exact ⟨.webp, ⟨hriff, hwebp⟩, by rw [← Option.some.inj h]; rfl⟩
  rcases ite_eq_iff.mp h with ⟨hwave, h⟩ | ⟨-, h⟩
  · exact ⟨.wave, ⟨hriff, hwave⟩, by rw [← Option.some.inj h]; rfl⟩
  rcases ite_eq_iff.mp h with ⟨havi, h⟩ | ⟨-, h⟩
  · exact ⟨.avi, ⟨hriff, havi⟩, by rw [← Option.some.inj h]; rfl⟩
  · cases h

theorem sniffHeaderPrefix_sound (hclear : Clear header) {hint : HeaderHint}
    (h : sniffHeaderPrefix header = some hint) :
    ∃ language : Language, language.Contains header ∧ language.demuxer = hint.demuxer := by
  have hfound : ∀ (language : Language) {formatId : Option String}, language.Contains header →
      some (HeaderHint.mk language.demuxer formatId) = some hint →
      ∃ language : Language, language.Contains header ∧ language.demuxer = hint.demuxer :=
    fun _ _ hcontains heq => ⟨_, hcontains, by rw [← Option.some.inj heq]⟩
  unfold sniffHeaderPrefix at h
  rcases ite_eq_iff.mp h with ⟨hpng, h⟩ | ⟨-, h⟩
  · exact hfound .png hpng h
  rcases ite_eq_iff.mp h with ⟨hjpeg, h⟩ | ⟨-, h⟩
  · exact hfound .jpeg hjpeg h
  rcases ite_eq_iff.mp h with ⟨hgif, h⟩ | ⟨hgif, h⟩
  · exact hfound .gif hgif h
  rcases ite_eq_iff.mp h with ⟨hebml, h⟩ | ⟨-, h⟩
  · exact hfound .ebml hebml h
  rcases ite_eq_iff.mp h with ⟨htiff, h⟩ | ⟨-, h⟩
  · exact hfound .tiff htiff h
  rcases ite_eq_iff.mp h with ⟨hbmp, -⟩ | ⟨-, h⟩
  · exact absurd hbmp hclear.notBitmap
  rcases ite_eq_iff.mp h with ⟨hftyp, h⟩ | ⟨hftyp, h⟩
  · exact hfound .isoBmff hftyp h
  rcases ite_eq_iff.mp h with ⟨hogg, h⟩ | ⟨-, h⟩
  · exact hfound .ogg hogg h
  rcases ite_eq_iff.mp h with ⟨hflac, h⟩ | ⟨-, h⟩
  · exact hfound .flac hflac h
  rcases ite_eq_iff.mp h with ⟨hflv, h⟩ | ⟨-, h⟩
  · exact hfound .flv hflv h
  rcases ite_eq_iff.mp h with ⟨hrmf, h⟩ | ⟨-, h⟩
  · exact hfound .rmf hrmf h
  rcases ite_eq_iff.mp h with ⟨hriff, h⟩ | ⟨-, h⟩
  · exact riffHint_sound hriff h
  rcases ite_eq_iff.mp h with ⟨hmp3, h⟩ | ⟨-, h⟩
  · refine hfound .mp3 (hmp3.imp_right fun hframe => ?_) h
    obtain ⟨hfirst, byte, hsecond, hsync⟩ := isMp3Frame_iff.mp hframe
    have hlayer : byte &&& 0x06 ≠ 0 := fun hzero => hclear.notMp3 ⟨⟨hfirst, byte, hsecond, hsync, hzero⟩, hftyp⟩
    refine ⟨hfirst, byte, hsecond, ?_⟩
    rw [isAudioFrameByte, hsync, beq_self_eq_true, Bool.true_and, bne_iff_ne]
    exact hlayer
  rcases ite_eq_iff.mp h with ⟨hprogram, h⟩ | ⟨-, h⟩
  · exact hfound .mpegProgram hprogram h
  rcases ite_eq_iff.mp h with ⟨htransport, h⟩ | ⟨-, h⟩
  · obtain ⟨hfirst, hsecond⟩ := isMpegTransportStream_iff.mp htransport
    refine hfound .mpegTransport ⟨hfirst, ?_⟩ h
    by_contra hnext
    exact hclear.notTransport ⟨⟨hfirst, hnext, hsecond.resolve_left hnext⟩, hgif, hftyp⟩
  · cases h

theorem of_ite_eq_none {α : Type} {p : Prop} [Decidable p] {a : α} {rest : Option α}
    (h : (if p then some a else rest) = none) : ¬ p ∧ rest = none := by
  rcases ite_eq_iff.mp h with ⟨-, hsome⟩ | hrest
  · cases hsome
  · exact hrest

theorem sniffHeaderPrefix_complete (h : sniffHeaderPrefix header = none) {language : Language}
    (hbmp : language ≠ .bmp) : ¬ language.Contains header := by
  intro hcontains
  unfold sniffHeaderPrefix at h
  obtain ⟨hpng, h⟩ := of_ite_eq_none h
  obtain ⟨hjpeg, h⟩ := of_ite_eq_none h
  obtain ⟨hgif, h⟩ := of_ite_eq_none h
  obtain ⟨hebml, h⟩ := of_ite_eq_none h
  obtain ⟨htiff, h⟩ := of_ite_eq_none h
  obtain ⟨-, h⟩ := of_ite_eq_none h
  obtain ⟨hftyp, h⟩ := of_ite_eq_none h
  obtain ⟨hogg, h⟩ := of_ite_eq_none h
  obtain ⟨hflac, h⟩ := of_ite_eq_none h
  obtain ⟨hflv, h⟩ := of_ite_eq_none h
  obtain ⟨hrmf, h⟩ := of_ite_eq_none h
  have hriff : startsWith (ascii "RIFF") header = true → riffHint (slice header 8 12) = none := by
    intro hriff
    rwa [if_pos hriff] at h
  have hrest : ¬ startsWith (ascii "RIFF") header = true →
      ¬ (startsWith (ascii "ID3") header = true ∨ isMp3Frame header = true) ∧
      ¬ startsWith [0x00, 0x00, 0x01, 0xba] header = true ∧ ¬ isMpegTransportStream header = true := by
    intro hriff
    rw [if_neg hriff] at h
    obtain ⟨hmp3, h⟩ := of_ite_eq_none h
    obtain ⟨hprogram, h⟩ := of_ite_eq_none h
    exact ⟨hmp3, hprogram, (of_ite_eq_none h).1⟩
  have hform : ∀ {form : String}, startsWith (ascii "RIFF") header = true → slice header 8 12 = some (ascii form) →
      riffHint (some (ascii form)) = none := fun hstart hslice => hslice ▸ hriff hstart
  have hother : ∀ {byte : UInt8}, header[0]? = some byte → byte ≠ 0x52 → ¬ startsWith (ascii "RIFF") header = true :=
    fun hbyte hne => not_startsWith hbyte rfl hne
  cases language with
  | png => exact hpng hcontains
  | jpeg => exact hjpeg hcontains
  | gif => exact hgif hcontains
  | ebml => exact hebml hcontains
  | tiff => exact htiff hcontains
  | bmp => exact hbmp rfl
  | isoBmff => exact hftyp hcontains
  | ogg => exact hogg hcontains
  | flac => exact hflac hcontains
  | flv => exact hflv hcontains
  | rmf => exact hrmf hcontains
  | webp => exact absurd (hform hcontains.1 hcontains.2) (by decide)
  | wave => exact absurd (hform hcontains.1 hcontains.2) (by decide)
  | avi => exact absurd (hform hcontains.1 hcontains.2) (by decide)
  | mp3 =>
    rcases hcontains with hid | ⟨hfirst, byte, hsecond, hframe⟩
    · exact (hrest (hother (getElem?_of_startsWith hid rfl) (by decide))).1 (.inl hid)
    · refine (hrest (hother hfirst (by decide))).1 (.inr (isMp3Frame_iff.mpr ⟨hfirst, byte, hsecond, ?_⟩))
      rw [isAudioFrameByte, Bool.and_eq_true, beq_iff_eq] at hframe
      exact hframe.1
  | mpegProgram => exact (hrest (hother (getElem?_of_startsWith hcontains rfl) (by decide))).2.1 hcontains
  | mpegTransport =>
    exact (hrest (hother hcontains.1 (by decide))).2.2 (isMpegTransportStream_iff.mpr ⟨hcontains.1, .inl hcontains.2⟩)

/-! ## Where another demuxer is found -/

theorem sniffHeaderPrefix_bitmap (h : LooksLikeBitmap header) :
    sniffHeaderPrefix header = some ⟨"bmp_pipe", some "bmp"⟩ := by
  have hfirst : header[0]? = some 0x42 := getElem?_of_startsWith h.1 rfl
  unfold sniffHeaderPrefix
  rw [if_neg (not_startsWith hfirst rfl (by decide)), if_neg (not_startsWith hfirst rfl (by decide)),
    if_neg (not_or.mpr ⟨not_startsWith hfirst rfl (by decide), not_startsWith hfirst rfl (by decide)⟩),
    if_neg (not_startsWith hfirst rfl (by decide)),
    if_neg (not_or.mpr ⟨not_startsWith hfirst rfl (by decide), not_startsWith hfirst rfl (by decide)⟩)]
  exact if_pos h

/-- No bitmap is found. -/
theorem sniffHeaderPrefix_bmp (h : Language.bmp.Contains header) : sniffHeaderPrefix header = none := by
  obtain ⟨hbm, hreserved, size, hsize, hdib⟩ := h
  have hfirst : header[0]? = some 0x42 := getElem?_of_startsWith hbm rfl
  have hsixth : header[6]? = some 0 := getElem?_of_slice hreserved (i := 0) rfl
  have hzero : slice header 14 18 ≠ some [0, 0, 0, 0] := by
    rw [hdib]
    intro heq
    rw [(List.cons.inj (Option.some.inj heq)).1] at hsize
    exact absurd hsize (by decide)
  have hftyp : slice header 4 8 ≠ some (ascii "ftyp") := by
    intro hslice
    rw [getElem?_of_slice hslice (i := 2) rfl] at hsixth
    exact absurd hsixth (by decide)
  have hmp3 : ¬ isMp3Frame header = true := by
    rw [isMp3Frame_iff, hfirst]
    exact fun h => absurd h.1 (by decide)
  have htransport : ¬ isMpegTransportStream header = true := by
    rw [isMpegTransportStream_iff, hfirst]
    exact fun h => absurd h.1 (by decide)
  unfold sniffHeaderPrefix
  rw [if_neg (not_startsWith hfirst rfl (by decide)), if_neg (not_startsWith hfirst rfl (by decide)),
    if_neg (not_or.mpr ⟨not_startsWith hfirst rfl (by decide), not_startsWith hfirst rfl (by decide)⟩),
    if_neg (not_startsWith hfirst rfl (by decide)),
    if_neg (not_or.mpr ⟨not_startsWith hfirst rfl (by decide), not_startsWith hfirst rfl (by decide)⟩),
    if_neg fun h => hzero h.2, if_neg hftyp, if_neg (not_startsWith hfirst rfl (by decide)),
    if_neg (not_startsWith hfirst rfl (by decide)), if_neg (not_startsWith hfirst rfl (by decide)),
    if_neg (not_startsWith hfirst rfl (by decide)), if_neg (not_startsWith hfirst rfl (by decide)),
    if_neg (not_or.mpr ⟨not_startsWith hfirst rfl (by decide), hmp3⟩), if_neg (not_startsWith hfirst rfl (by decide)),
    if_neg htransport]

/-- A frame with layer bits 00 is read as MPEG audio. -/
theorem sniffHeaderPrefix_mp3 (h : LooksLikeMp3 header) : sniffHeaderPrefix header = some ⟨"mp3", none⟩ := by
  obtain ⟨⟨hfirst, byte, hsecond, hsync, -⟩, hftyp⟩ := h
  have hjpeg : ¬ startsWith [0xff, 0xd8, 0xff] header = true := by
    refine not_startsWith hsecond (i := 1) rfl ?_
    rintro rfl
    exact absurd hsync (by decide)
  unfold sniffHeaderPrefix
  rw [if_neg (not_startsWith hfirst rfl (by decide)), if_neg hjpeg,
    if_neg (not_or.mpr ⟨not_startsWith hfirst rfl (by decide), not_startsWith hfirst rfl (by decide)⟩),
    if_neg (not_startsWith hfirst rfl (by decide)),
    if_neg (not_or.mpr ⟨not_startsWith hfirst rfl (by decide), not_startsWith hfirst rfl (by decide)⟩),
    if_neg fun h => not_startsWith hfirst rfl (by decide) h.1, if_neg hftyp,
    if_neg (not_startsWith hfirst rfl (by decide)), if_neg (not_startsWith hfirst rfl (by decide)),
    if_neg (not_startsWith hfirst rfl (by decide)), if_neg (not_startsWith hfirst rfl (by decide)),
    if_neg (not_startsWith hfirst rfl (by decide))]
  exact if_pos (.inr (isMp3Frame_iff.mpr ⟨hfirst, byte, hsecond, hsync⟩))

theorem sniffHeaderPrefix_transport (h : LooksLikeTransport header) :
    sniffHeaderPrefix header = some ⟨"mpegts", none⟩ := by
  obtain ⟨⟨hfirst, -, hlater⟩, hnotGif, hftyp⟩ := h
  have hgif : ¬ (startsWith (ascii "GIF87a") header = true ∨ startsWith (ascii "GIF89a") header = true) := hnotGif
  have hmp3 : ¬ isMp3Frame header = true := by
    rw [isMp3Frame_iff, hfirst]
    exact fun h => absurd h.1 (by decide)
  unfold sniffHeaderPrefix
  rw [if_neg (not_startsWith hfirst rfl (by decide)), if_neg (not_startsWith hfirst rfl (by decide)), if_neg hgif,
    if_neg (not_startsWith hfirst rfl (by decide)),
    if_neg (not_or.mpr ⟨not_startsWith hfirst rfl (by decide), not_startsWith hfirst rfl (by decide)⟩),
    if_neg fun h => not_startsWith hfirst rfl (by decide) h.1, if_neg hftyp,
    if_neg (not_startsWith hfirst rfl (by decide)), if_neg (not_startsWith hfirst rfl (by decide)),
    if_neg (not_startsWith hfirst rfl (by decide)), if_neg (not_startsWith hfirst rfl (by decide)),
    if_neg (not_startsWith hfirst rfl (by decide)),
    if_neg (not_or.mpr ⟨not_startsWith hfirst rfl (by decide), hmp3⟩), if_neg (not_startsWith hfirst rfl (by decide))]
  exact if_pos (isMpegTransportStream_iff.mpr ⟨hfirst, .inr hlater⟩)

/-! ## Which headers are read as they should be -/

theorem follows_of_clear (hclear : Clear header) : Follows header := by
  refine ⟨fun language hcontains hunique => ?_, fun hnone => ?_, fun demuxer hforced => ?_⟩
  · cases hsniff : sniffHeaderPrefix header with
    | none =>
      have hbmp : language ≠ .bmp := fun heq => hclear.bitmap (heq ▸ hcontains)
      exact absurd hcontains (sniffHeaderPrefix_complete hsniff hbmp)
    | some hint =>
      obtain ⟨found, hfound, hdemuxer⟩ := sniffHeaderPrefix_sound hclear hsniff
      rw [Option.map_some, ← hdemuxer, hunique found hfound]
  · cases hsniff : sniffHeaderPrefix header with
    | none => rfl
    | some hint =>
      obtain ⟨found, hfound, -⟩ := sniffHeaderPrefix_sound hclear hsniff
      exact absurd hfound (hnone found)
  · cases hsniff : sniffHeaderPrefix header with
    | none =>
      rw [hsniff] at hforced
      cases hforced
    | some hint =>
      rw [hsniff] at hforced
      obtain ⟨found, hfound, hdemuxer⟩ := sniffHeaderPrefix_sound hclear hsniff
      exact ⟨found, hfound, hdemuxer.trans (List.cons.inj (List.cons.inj hforced).2).1⟩

/-- A demuxer that is forced is that of its language. -/
theorem Follows.contains (h : Follows header) (language : Language) {formatId : Option String}
    (hsniff : sniffHeaderPrefix header = some ⟨language.demuxer, formatId⟩) : language.Contains header := by
  obtain ⟨found, hfound, hdemuxer⟩ := h.forced language.demuxer (by rw [hsniff]; rfl)
  have heq : found = language := by
    cases found <;> cases language <;> first | rfl | exact absurd hdemuxer (by decide)
  rwa [← heq]

theorem clear_of_follows (h : Follows header) : Clear header := by
  refine ⟨fun hbmp => ?_, fun hbitmap => ?_, fun hmp3 => ?_, fun htransport => ?_⟩
  · have hnone := sniffHeaderPrefix_bmp hbmp
    have honly := h.only .bmp hbmp fun other hother => by
      by_contra hne
      exact sniffHeaderPrefix_complete hnone hne hother
    rw [hnone] at honly
    cases honly
  · obtain ⟨-, -, size, hsize, hdib⟩ := h.contains .bmp (sniffHeaderPrefix_bitmap hbitmap)
    rw [hbitmap.2] at hdib
    rw [← (List.cons.inj (Option.some.inj hdib)).1] at hsize
    exact absurd hsize (by decide)
  · obtain ⟨⟨hfirst, byte, hsecond, -, hzero⟩, -⟩ := id hmp3
    rcases h.contains .mp3 (sniffHeaderPrefix_mp3 hmp3) with hid | ⟨-, other, hother, hframe⟩
    · exact not_startsWith hfirst rfl (by decide) hid
    · rw [hsecond, Option.some.injEq] at hother
      rw [isAudioFrameByte, ← hother, hzero, Bool.and_eq_true] at hframe
      exact absurd hframe.2 (by decide)
  · have hcontains := h.contains .mpegTransport (sniffHeaderPrefix_transport htransport)
    exact htransport.1.2.1 hcontains.2

/-- A header is read by its signature if and only if it is no bitmap, has not the zeros that are asked of a bitmap, is
no frame with layer bits 00, and has no sync byte that comes back at 376 only. -/
theorem sniffing_iff (header : List UInt8) : Follows header ↔ Clear header := ⟨clear_of_follows, follows_of_clear⟩

/-- The header of a bitmap, `BM` with zeros, an ADTS frame, and a sync byte at 376. -/
theorem headers_misread :
    ¬ Follows (ascii "BM" ++ [0x36, 0, 0, 0, 0, 0, 0, 0, 0x36, 0, 0, 0, 40, 0, 0, 0]) ∧
    ¬ Follows (ascii "BM" ++ List.replicate 16 0) ∧ ¬ Follows [0xff, 0xf1] ∧
    ¬ Follows (0x47 :: (List.replicate 375 0 ++ [0x47])) := by
  refine ⟨fun h => (clear_of_follows h).bitmap ?_, fun h => (clear_of_follows h).notBitmap ?_,
    fun h => (clear_of_follows h).notMp3 ?_, fun h => (clear_of_follows h).notTransport ?_⟩
  · exact ⟨by decide, by decide, 40, by decide, by decide⟩
  · exact ⟨by decide, by decide⟩
  · exact ⟨⟨rfl, 0xf1, rfl, by decide, by decide⟩, by decide⟩
  · refine ⟨⟨rfl, ?_, ?_⟩, ?_, ?_⟩
    · decide
    · decide
    · unfold Language.Contains
      decide
    · decide +kernel

end Anole.Media.Header
