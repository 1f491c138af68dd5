import Anole.Engine.ManifestBytes

/-!
# The signature of an engine manifest

Model of `ReleaseKeyring::validate` and `verify_manifest_signature` (`crates/engine-sdk/src/lib.rs`, lines 331–401
and 443–521). The Ed25519 implementation is a parameter.

* `validate_keys`: a keyring that passes has no key twice.
* `signature_trust_iff`: when the verdicts on two manifests can be trusted.
-/

open Common
open Anole.ApplicationState (validEngineId)

namespace Anole.Sdk

/-! ## Keyrings -/

/-- `ReleaseKey`. -/
structure ReleaseKey where
  keyId : String
  algorithm : String
  purpose : String
  publicKey : String
  validFromUnixMs : ℕ
  validUntilUnixMs : ℕ

/-- `KeyRevocation`. -/
structure KeyRevocation where
  keyId : String
  revokedUnixMs : ℕ
  reason : String

/-- `ReleaseKeyring`. -/
structure ReleaseKeyring where
  schemaVersion : ℕ
  keys : List ReleaseKey
  revocations : List KeyRevocation

/-- `KeyringValidationError`. -/
structure KeyringValidationError where
  message : String

/-- A condition that refuses a keyring. -/
def keyringCheck (refused : Prop) [Decidable refused] (message : String) : Except KeyringValidationError Unit :=
  failWhen refused ⟨message⟩

/-- The loop body over the keys (lines 346–379). -/
def validateKey (keyIds : List String) (key : ReleaseKey) : Except KeyringValidationError (List String) := do
  keyringCheck (validEngineId key.keyId = false) s!"key_id must match [a-z0-9][a-z0-9._-]+: {key.keyId}"
  keyringCheck (key.keyId ∈ keyIds) s!"duplicate key_id {key.keyId}"
  keyringCheck (key.algorithm ≠ "ed25519") s!"key {key.keyId} algorithm must be ed25519"
  keyringCheck (key.purpose ≠ "engine-manifest") s!"key {key.keyId} purpose must be engine-manifest"
  keyringCheck (isLowerHex key.publicKey 32 = false)
    s!"key {key.keyId} public_key must be 64 lowercase hex characters"
  keyringCheck (key.validFromUnixMs = 0 ∨ key.validUntilUnixMs ≤ key.validFromUnixMs)
    s!"key {key.keyId} validity window is empty or inverted"
  pure (key.keyId :: keyIds)

/-- The loop body over the revocations (lines 381–397). -/
def validateRevocation (revokedIds : List String) (revocation : KeyRevocation) :
    Except KeyringValidationError (List String) := do
  keyringCheck (validEngineId revocation.keyId = false)
    s!"revocation key_id must match [a-z0-9][a-z0-9._-]+: {revocation.keyId}"
  keyringCheck (revocation.keyId ∈ revokedIds) s!"duplicate revocation for {revocation.keyId}"
  keyringCheck (revocation.revokedUnixMs = 0) s!"revocation for {revocation.keyId} must carry a timestamp"
  pure (revocation.keyId :: revokedIds)

/-- `ReleaseKeyring::validate` (lines 338–400). -/
def ReleaseKeyring.validate (keyring : ReleaseKeyring) : Except KeyringValidationError Unit := do
  keyringCheck (keyring.schemaVersion ≠ 1) s!"unsupported schema version {keyring.schemaVersion}"
  let _ ← keyring.keys.foldlM validateKey []
  let _ ← keyring.revocations.foldlM validateRevocation []

/-! ## Verification -/

/-- `ed25519_dalek`, with its keys. -/
structure Ed25519 (κ : Type) where
  /-- `VerifyingKey::from_bytes` -/
  fromBytes : List UInt8 → Option κ
  /-- `verify_strict` accepts a message with a signature. -/
  verifyStrict : κ → ByteArray → List UInt8 → Bool

/-- `SignatureTrust`. -/
inductive SignatureTrust where
  | trusted (keyId : String)
  | unsigned
  | unknownKey (keyId : String)
  | revoked (keyId : String)
  | expired (keyId : String)
  | invalidSignature

/-- The value of a lowercase hexadecimal digit. -/
def lowerHexValue (c : Char) : ℕ := if c.isDigit then c.toNat - '0'.toNat else c.toNat - 'a'.toNat + 10

/-- `u8::from_str_radix` on two lowercase hexadecimal digits. -/
def hexByte : List Char → Option UInt8
  | [high, low] => some (UInt8.ofNat (16 * lowerHexValue high + lowerHexValue low))
  | _ => none

/-- `decode_lower_hex` (lines 514–521). -/
def decodeLowerHex (value : String) (expectedBytes : ℕ) : Option (List UInt8) :=
  if isLowerHex value expectedBytes then
    (List.range expectedBytes).mapM fun index => hexByte ((value.toList.drop (index * 2)).take 2)
  else none

section Verify

variable {φ κ : Type} (decimals : DecimalText φ) (ed25519 : Ed25519 κ) {keyring : ReleaseKeyring}

/-- Ed25519 accepts the canonical bytes of a manifest under a key and a signature in hexadecimal digits
    (lines 477–504). -/
def acceptsManifest (manifest : EngineManifest φ) (publicKey value : String) : Option Bool :=
  match decodeLowerHex publicKey 32, decodeLowerHex value 64 with
  | some verifyingBytes, some signatureBytes =>
    match ed25519.fromBytes verifyingBytes with
    | none => some false
    | some verifying =>
      (canonicalManifestBytes decimals manifest).map fun bytes => ed25519.verifyStrict verifying bytes signatureBytes
  | _, _ => some false

/-- `verify_manifest_signature` (lines 448–505), which panics where the canonical bytes do. -/
def verifyManifestSignature (manifest : EngineManifest φ) (keyring : ReleaseKeyring) (nowUnixMs : ℕ) :
    Option SignatureTrust :=
  match manifest.signature with
  | none => some .unsigned
  | some signature =>
    match keyring.keys.find? fun key => key.keyId = signature.keyId with
    | none => some (.unknownKey signature.keyId)
    | some key =>
      if keyring.revocations.any (fun revocation => revocation.keyId = signature.keyId) then
        some (.revoked signature.keyId)
      else if nowUnixMs < key.validFromUnixMs ∨ key.validUntilUnixMs < nowUnixMs then some (.expired key.keyId)
      else
        (acceptsManifest decimals ed25519 manifest key.publicKey signature.value).map fun accepted =>
          if accepted then .trusted key.keyId else .invalidSignature

/-! ## Keyrings that pass -/

theorem validateKey_eq_ok {keyIds keyIds' : List String} {key : ReleaseKey}
    (h : validateKey keyIds key = .ok keyIds') : keyIds' = key.keyId :: keyIds ∧ key.keyId ∉ keyIds := by
  simp only [validateKey, keyringCheck, bind_eq_ok, failWhen_eq_ok] at h
  obtain ⟨-, -, -, hnew, -, -, -, -, -, -, -, -, heq⟩ := h
  cases heq
  exact ⟨rfl, hnew⟩

theorem validateKeys_nodup {keyIds keyIds' : List String} {keys : List ReleaseKey} (hnodup : keyIds.Nodup)
    (h : keys.foldlM validateKey keyIds = .ok keyIds') :
    keyIds'.Nodup ∧ keyIds' = (keys.map ReleaseKey.keyId).reverse ++ keyIds := by
  induction keys generalizing keyIds with
  | nil =>
    cases h
    exact ⟨hnodup, rfl⟩
  | cons key keys ih =>
    rw [List.foldlM_cons, bind_eq_ok] at h
    obtain ⟨next, hkey, hkeys⟩ := h
    obtain ⟨rfl, hnew⟩ := validateKey_eq_ok hkey
    obtain ⟨hnodup', heq⟩ := ih (List.nodup_cons.mpr ⟨hnew, hnodup⟩) hkeys
    refine ⟨hnodup', ?_⟩
    rw [heq, List.map_cons, List.reverse_cons, List.append_assoc, List.singleton_append]

/-- A keyring that passes has no key twice. -/
theorem validate_keys (h : keyring.validate = .ok ()) :
    (keyring.keys.map ReleaseKey.keyId).Nodup := by
  simp only [ReleaseKeyring.validate, bind_eq_ok] at h
  obtain ⟨-, -, keyIds, hkeys, -⟩ := h
  obtain ⟨hnodup, heq⟩ := validateKeys_nodup List.nodup_nil hkeys
  rw [heq, List.append_nil, List.nodup_reverse] at hnodup
  exact hnodup

/-- The key that is found under an identifier is the only one. -/
theorem filter_of_find {keys : List ReleaseKey} {key : ReleaseKey} {keyId : String}
    (hnodup : (keys.map ReleaseKey.keyId).Nodup) (h : keys.find? (fun other => other.keyId = keyId) = some key) :
    keys.filter (fun other => other.keyId = keyId) = [key] := by
  induction keys with
  | nil => cases h
  | cons first keys ih =>
    rw [List.map_cons, List.nodup_cons] at hnodup
    by_cases hfirst : first.keyId = keyId
    · rw [List.find?_cons_of_pos (by simpa using hfirst), Option.some.injEq] at h
      have hrest : keys.filter (fun other => other.keyId = keyId) = [] := by
        rw [List.filter_eq_nil_iff]
        intro other hother hsame
        apply hnodup.1
        rw [hfirst, ← of_decide_eq_true hsame]
        exact List.mem_map_of_mem hother
      rw [List.filter_cons_of_pos (by simpa using hfirst), hrest, h]
    · rw [List.find?_cons_of_neg (by simpa using hfirst)] at h
      rw [List.filter_cons_of_neg (by simpa using hfirst)]
      exact ih hnodup.2 h

/-! ## Trust -/

/-- Ed25519 accepts the canonical bytes of a manifest. -/
structure Accepted (manifest : EngineManifest φ) (publicKey value : String) (verifying : κ)
    (signatureBytes : List UInt8) (bytes : ByteArray) : Prop where
  key : (decodeLowerHex publicKey 32).bind ed25519.fromBytes = some verifying
  signature : decodeLowerHex value 64 = some signatureBytes
  canonical : canonicalManifestBytes decimals manifest = some bytes
  verified : ed25519.verifyStrict verifying bytes signatureBytes = true

variable {decimals ed25519} in
theorem accepted_of_acceptsManifest {manifest : EngineManifest φ} {publicKey value : String}
    (h : acceptsManifest decimals ed25519 manifest publicKey value = some true) :
    ∃ verifying signatureBytes bytes, Accepted decimals ed25519 manifest publicKey value verifying signatureBytes
      bytes := by
  unfold acceptsManifest at h
  split at h
  next verifyingBytes signatureBytes hkey hsignature =>
    split at h
    next => cases h
    next verifying hverifying =>
      obtain ⟨bytes, hbytes, hverified⟩ := Option.map_eq_some_iff.mp h
      refine ⟨verifying, signatureBytes, bytes, ?_, hsignature, hbytes, hverified⟩
      rw [hkey, Option.bind_some, hverifying]
  next => cases h

/-- What a verdict of trust on a manifest says: there is one key with its identifier, which is not revoked and
    valid, and under which Ed25519 accepts the manifest. -/
structure Trustworthy (manifest : EngineManifest φ) (keyring : ReleaseKeyring) (nowUnixMs : ℕ) (keyId : String)
    (key : ReleaseKey) (signature : ManifestSignature) : Prop where
  signed : manifest.signature = some signature
  named : signature.keyId = keyId
  unique : keyring.keys.filter (fun other => other.keyId = keyId) = [key]
  unrevoked : ∀ revocation ∈ keyring.revocations, revocation.keyId ≠ keyId
  started : key.validFromUnixMs ≤ nowUnixMs
  unexpired : nowUnixMs ≤ key.validUntilUnixMs
  accepted : ∃ verifying signatureBytes bytes,
    Accepted decimals ed25519 manifest key.publicKey signature.value verifying signatureBytes bytes

variable {decimals ed25519} in
theorem trustworthy_of_trusted {manifest : EngineManifest φ} {nowUnixMs : ℕ}
    {keyId : String} (hkeyring : keyring.validate = .ok ())
    (h : verifyManifestSignature decimals ed25519 manifest keyring nowUnixMs = some (.trusted keyId)) :
    ∃ key signature, Trustworthy decimals ed25519 manifest keyring nowUnixMs keyId key signature := by
  unfold verifyManifestSignature at h
  split at h
  next => cases h
  next signature hsignature =>
    split at h
    next => cases h
    next key hkey =>
      split at h
      next => cases h
      next hrevoked =>
        split at h
        next => cases h
        next hwindow =>
          obtain ⟨accepted, haccepted, hverdict⟩ := Option.map_eq_some_iff.mp h
          cases accepted with
          | false => cases hverdict
          | true =>
            cases hverdict
            have hname : key.keyId = signature.keyId := by simpa using List.find?_some hkey
            rw [not_or, not_lt, not_lt] at hwindow
            rw [List.any_eq_true] at hrevoked
            refine ⟨key, signature, hsignature, hname.symm, ?_,
              fun revocation hmem heq => hrevoked ⟨revocation, hmem, ?_⟩, hwindow.1, hwindow.2, accepted_of_acceptsManifest haccepted⟩
            · rw [hname]
              exact filter_of_find (validate_keys hkeyring) hkey
            · rw [heq, hname]
              exact decide_eq_true rfl

/-- A signature is accepted for one message only. -/
def Ed25519.Binds : Prop :=
  ∀ verifying message other signatureBytes, ed25519.verifyStrict verifying message signatureBytes = true →
    ed25519.verifyStrict verifying other signatureBytes = true → message = other

/-- A manifest under another signature. -/
def EngineManifest.signed (manifest : EngineManifest φ) (signature : ManifestSignature) : EngineManifest φ :=
  { manifest with signature := some signature }

/-- The verdicts on two manifests can be trusted. -/
structure TrustSound (manifest other : EngineManifest φ) : Prop where
  trusted : ∀ m ∈ [manifest, other], ∀ signature keyring nowUnixMs keyId, keyring.validate = .ok () →
    verifyManifestSignature decimals ed25519 { m with signature := signature } keyring nowUnixMs =
      some (.trusted keyId) →
    ∃ key value, Trustworthy decimals ed25519 { m with signature := signature } keyring nowUnixMs keyId key value
  canonical : ∃ bytes otherBytes, canonicalManifestBytes decimals manifest = some bytes ∧
    canonicalManifestBytes decimals other = some otherBytes ∧
      (bytes = otherBytes ↔ manifest.unsigned = other.unsigned)
  bound : ed25519.Binds → ∀ signature keyring nowUnixMs otherUnixMs keyId otherId, keyring.validate = .ok () →
    verifyManifestSignature decimals ed25519 (manifest.signed signature) keyring nowUnixMs = some (.trusted keyId) →
    verifyManifestSignature decimals ed25519 (other.signed signature) keyring otherUnixMs = some (.trusted otherId) →
      manifest.unsigned = other.unsigned

variable {decimals ed25519}

/-- Two manifests that one signature is trusted for have the same fields. -/
theorem unsigned_eq_of_trusted (hbinds : ed25519.Binds) {manifest other : EngineManifest φ}
    {signature : ManifestSignature} {nowUnixMs otherUnixMs : ℕ} {keyId otherId : String}
    (hkeyring : keyring.validate = .ok ())
    (h : verifyManifestSignature decimals ed25519 (manifest.signed signature) keyring nowUnixMs =
      some (.trusted keyId))
    (hother : verifyManifestSignature decimals ed25519 (other.signed signature) keyring otherUnixMs =
      some (.trusted otherId)) : manifest.unsigned = other.unsigned := by
  obtain ⟨key, first, htrust⟩ := trustworthy_of_trusted hkeyring h
  obtain ⟨key', second, htrust'⟩ := trustworthy_of_trusted hkeyring hother
  cases htrust.signed
  cases htrust'.signed
  have hkey : key = key' := by
    have hunique := htrust.unique
    rw [← htrust.named, htrust'.named, htrust'.unique] at hunique
    exact (List.singleton_inj.mp hunique).symm
  subst hkey
  obtain ⟨verifying, signatureBytes, bytes, haccepted⟩ := htrust.accepted
  obtain ⟨verifying', signatureBytes', bytes', haccepted'⟩ := htrust'.accepted
  cases haccepted.key.symm.trans haccepted'.key
  cases haccepted.signature.symm.trans haccepted'.signature
  have hbytes := hbinds verifying bytes bytes' signatureBytes haccepted.verified haccepted'.verified
  exact canonicalManifestBytes_inj haccepted.canonical (hbytes ▸ haccepted'.canonical)

/-- The verdicts on two manifests can be trusted if and only if every path in them is Unicode. -/
theorem signature_trust_iff (manifest other : EngineManifest φ) : TrustSound decimals ed25519 manifest other ↔
    ∀ path ∈ manifest.paths ++ other.paths, path.IsUnicode := by
  rw [List.forall_mem_append]
  constructor
  · intro h
    obtain ⟨bytes, otherBytes, hbytes, hother, -⟩ := h.canonical
    exact ⟨isUnicode_of_canonicalManifestBytes hbytes, isUnicode_of_canonicalManifestBytes hother⟩
  · rintro ⟨hpaths, hothers⟩
    obtain ⟨bytes, hbytes⟩ := Option.isSome_iff_exists.mp (canonicalManifestBytes_isSome_iff.mpr hpaths)
    obtain ⟨otherBytes, hother⟩ := Option.isSome_iff_exists.mp (canonicalManifestBytes_isSome_iff.mpr hothers)
    refine ⟨fun m _ signature keyring nowUnixMs keyId hkeyring => trustworthy_of_trusted hkeyring,
      ⟨bytes, otherBytes, hbytes, hother, ?_, ?_⟩,
      fun hbinds signature keyring nowUnixMs otherUnixMs keyId otherId => unsigned_eq_of_trusted hbinds⟩
    · rintro rfl
      exact canonicalManifestBytes_inj hbytes hother
    · intro heq
      have hsame : canonicalManifestBytes decimals manifest = canonicalManifestBytes decimals other := by
        rw [canonicalManifestBytes, heq, canonicalManifestBytes]
      rw [hbytes, hother] at hsame
      exact Option.some.inj hsame

end Verify

namespace SignatureSample

/-- No number with a fraction. -/
def noDecimals : DecimalText Empty where
  text := Empty.elim
  injective := fun x => x.elim
  numeric := fun x => x.elim
  fractional := fun x => x.elim

/-- An implementation that accepts nothing. -/
def refusing : Ed25519 Unit := ⟨fun _ => some (), fun _ _ _ => false⟩

/-- A manifest of one executable. -/
def manifest (executable : PathBuf) : EngineManifest Empty where
  schemaVersion := 1
  engineId := "fixture-engine"
  version := "1.0.0"
  platform := .linux
  architecture := .x8664
  protocolVersion := 1
  anoleCompatibility := ⟨"0.1.0", "0.2.0"⟩
  executables := [⟨"fixture", executable, String.ofList (List.replicate 64 'a')⟩]
  runtimeFiles := []
  source := ⟨"https://example.invalid/project", "https://example.invalid/source", "v1.0.0", "test-only"⟩
  licenses := [⟨"Apache-2.0", PathBuf.ofString "NOTICE.txt", none⟩]
  supplyChain := none
  capabilities := [⟨"fixture.copy", ["bin"], ["bin"], .transform, .none, []⟩]
  signature := none

/-- A manifest that passes has no canonical bytes if the name of its executable is a byte that is not UTF-8. -/
theorem manifest_without_bytes :
    (manifest [.illFormed [0xFF]]).validate 1 = .ok () ∧
      canonicalManifestBytes noDecimals (manifest [.illFormed [0xFF]]) = none ∧
      ¬ TrustSound noDecimals refusing (manifest [.illFormed [0xFF]]) (manifest [.illFormed [0xFF]]) := by
  have hnone : canonicalManifestBytes noDecimals (manifest [.illFormed [0xFF]]) = none := rfl
  refine ⟨by decide, hnone, fun h => ?_⟩
  obtain ⟨bytes, -, hbytes, -⟩ := h.canonical
  rw [hnone] at hbytes
  cases hbytes

end SignatureSample

end Anole.Sdk
