import OpmsgKeystore.Normalize

/-!
# The key provider

OpenSSL is outside the core (spec §4.1): the model sees it through `KeyProvider`, over a
type `K` of `EVP_PKEY`s and a type `P` of DH parameter sets. PEM parsing and the DER inside
a PEM block are opaque. What is not opaque is the framing `PEM_write_bio_PUBKEY` puts around
the base64 lines of a public key (`pemPubkey`): base64 has no `-`, so a written public key
is its own canonical form (`writePubkey_canonical`). Key and parameter generation draw
entropy; the model passes what was drawn as an argument.
-/

namespace OpmsgKeystore

/-- `EVP_PKEY_type` of a key. -/
inductive KeyKind
  | rsa
  | ec
  | dh
  | other
  deriving DecidableEq, Repr

/-- The cryptographic primitives `keystore.cc` calls. -/
structure KeyProvider (K P : Type) where
  /-- `EVP_PKEY_type(evp->type)`. -/
  kind : K → KeyKind
  /-- The base64 lines of a key's SubjectPublicKeyInfo. -/
  pubBody : K → String
  /-- `PEM_write_bio_PrivateKey` without a password. -/
  privPem : K → String
  /-- `PEM_read_bio_PUBKEY`, `PEM_read_PUBKEY`. -/
  readPubkey : String → Option K
  /-- `PEM_read_bio_PrivateKey`, `PEM_read_PrivateKey`. -/
  readPrivateKey : String → Option K
  /-- `dh->pub_key` of a DH key. -/
  dhPubKey : K → Nat
  /-- `PEM_read_DHparams`. -/
  readDHparams : String → Option P
  /-- `PEM_write_DHparams`. -/
  writeDHparams : P → String
  /-- `EC_KEY_generate_key` on the configured curve and `EC_KEY_check_key`, wrapped in an
  `EVP_PKEY`, from the entropy drawn. -/
  genEcKey : Nat → Option K
  /-- `DHparams_dup`, `DH_generate_key` and `DH_check`. -/
  genDhKey : P → Nat → Option K
  /-- `DH_generate_parameters_ex(dh, config::dh_plen, 5, cb)` and `DH_check`. -/
  genDhParams : Nat → Option P
  pubBody_noDash : ∀ k, '-' ∉ (pubBody k).data
  genEcKey_kind : ∀ r k, genEcKey r = some k → kind k = .ec
  genDhKey_kind : ∀ prm r k, genDhKey prm r = some k → kind k = .dh

namespace KeyProvider

variable {K P : Type} (kp : KeyProvider K P)

/-- `PEM_write_bio_PUBKEY`. -/
def writePubkey (k : K) : String := pemPubkey (kp.pubBody k)

/-- `gen_ec(pub, priv, err)`: a fresh EC key pair as public and private PEM. -/
def genEc (seed : Nat) : Option (String × String) :=
  (kp.genEcKey seed).map fun k => (kp.writePubkey k, kp.privPem k)

theorem writePubkey_canonical {cfg : Config} (md : Md cfg) (k : K) :
    normalizeAndHexhash md (kp.writePubkey k) =
      (kp.writePubkey k, some (md.hexdigest (kp.writePubkey k))) :=
  normalizeAndHexhash_pemPubkey md (kp.pubBody_noDash k)

/-- A reader that parses no empty text parses only non-empty ones. -/
theorem length_pos_of_read {α : Type} {read : String → Option α} (hempty : read "" = none)
    {s : String} {a : α} (h : read s = some a) : 0 < s.data.length :=
  List.length_pos.mpr fun h0 => by
    rw [show s = "" from String.ext h0, hempty] at h
    cases h

end KeyProvider

end OpmsgKeystore
