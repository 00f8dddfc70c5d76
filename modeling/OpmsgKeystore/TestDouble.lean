import OpmsgKeystore.Keystore

/-!
# A deterministic key provider

The spec (§9) asks for the key provider to sit behind an interface so that a deterministic
test double can replace OpenSSL. This is one: three keys, one of each type, with PEM texts
that parse back, one DH parameter set, and generation that always yields the same key.
Statements about the code at a chosen input run over it.
-/

namespace OpmsgKeystore

namespace TestDouble

/-- The keys of the test double. -/
inductive Key
  | rsa
  | ec
  | dh
  deriving DecidableEq, Repr

theorem digitChar_isLowerHexDigit : ∀ d < 16, isLowerHexDigit (Nat.digitChar d) := by decide

/-- Hex ids of 16 to 128 lowercase hex digits. -/
def config : Config where
  isHexHash s := decide (16 ≤ s.data.length ∧ s.data.length ≤ 128 ∧ ∀ c ∈ s.data, isLowerHexDigit c)
  rsaKexId := "0000000000000000"
  ecKexId := "1111111111111111"
  isHexHash_digits s h := by simp only [decide_eq_true_eq] at h; exact h.2.2
  isHexHash_length s h := by simp only [decide_eq_true_eq] at h; exact h.2.1

/-- A digest of 16 hex digits that depends on the length of its input. -/
def md : Md config where
  hexdigest s := ⟨List.replicate 16 (Nat.digitChar (s.data.length % 16))⟩
  hexdigest_isHexHash s := by
    simp only [config, decide_eq_true_eq, List.length_replicate, List.mem_replicate]
    exact ⟨le_refl _, by norm_num, fun c hc =>
      hc.2 ▸ digitChar_isLowerHexDigit _ (Nat.mod_lt _ (by norm_num))⟩

/-- The base64 lines of each key. -/
def pubBody : Key → String
  | .rsa => "UlNB\n"
  | .ec => "RUM=\n"
  | .dh => "REg=\n"

/-- The private PEM of each key. -/
def privText : Key → String
  | .rsa => "RSA PRIVATE KEY"
  | .ec => "EC PRIVATE KEY"
  | .dh => "DH PRIVATE KEY"

def provider : KeyProvider Key Nat where
  kind
    | .rsa => .rsa
    | .ec => .ec
    | .dh => .dh
  pubBody := pubBody
  privPem := privText
  readPubkey s := [Key.rsa, .ec, .dh].find? fun k => pemPubkey (pubBody k) = s
  readPrivateKey s := [Key.rsa, .ec, .dh].find? fun k => privText k = s
  dhPubKey
    | .dh => 5
    | _ => 0
  readDHparams s := if s = "DH PARAMETERS" then some 0 else none
  writeDHparams _ := "DH PARAMETERS"
  genEcKey _ := some .ec
  genDhKey _ _ := some .dh
  genDhParams _ := some 0
  pubBody_noDash k := by cases k <;> decide
  genEcKey_kind _ _ h := by cases h; rfl
  genDhKey_kind _ _ _ h := by cases h; rfl

/-- A keystore on `/ks`, with no persona loaded. -/
def keystore : Keystore config Key Nat := ⟨["ks"], md, .empty⟩

/-- A file system with only the base directory. -/
def baseOnly : FS := ⟨[(["ks"], .dir)]⟩

/-- An EC persona of the keystore, with no kex keys loaded. -/
def ecPersona : Persona Key Nat := { Persona.new ["ks"] "0123456789abcdef" "" with ptype := .ec }

/-- The base directory and the directory of `ecPersona`. -/
def withPersona : FS := ⟨[(["ks", "0123456789abcdef"], .dir), (["ks"], .dir)]⟩

/-- An environment in which every `fdopen` fails. -/
def fdopenFails : Env := fun c => c matches .fdopen _

/-- `add_persona` of the EC public key alone, with no name, private key or DH parameters. -/
def addEc : Prog (Except String (Persona Key Nat) × Keystore config Key Nat) :=
  keystore.addPersona provider "" (provider.writePubkey .ec) "" "" 0 ⟨1, 2⟩ 7

/-- The persona `addEc` returns. -/
def ecAdded : Persona Key Nat :=
  { Persona.new ["ks"] "9999999999999999" "" with
    ptype := .ec, pkey := some { PKEYbox.new (some .ec) none with pubPem := provider.writePubkey .ec } }

/-- The kex key `gen_kex_key` makes for `ecPersona` from any seed. -/
def ecKexBox : PKEYbox Key :=
  ⟨some .ec, some .ec, provider.writePubkey .ec, privText .ec, "9999999999999999", ""⟩

/-- The box `add_dh_pubkey` makes for `ecPersona` from the EC public key. -/
def ecImportBox : PKEYbox Key :=
  ⟨some .ec, none, provider.writePubkey .ec, "", "9999999999999999", ""⟩

/-- `add_persona` of the RSA key pair, asking for new DH parameters. -/
def addRsaDh : Prog (Except String (Persona Key Nat) × Keystore config Key Nat) :=
  keystore.addPersona provider "" (provider.writePubkey .rsa) (privText .rsa) "new" 0 ⟨1, 2⟩ 7

/-- `add_persona` of the RSA key pair under the name `alice`, with new DH parameters. -/
def addAlice : Prog (Except String (Persona Key Nat) × Keystore config Key Nat) :=
  keystore.addPersona provider "alice" (provider.writePubkey .rsa) (privText .rsa) "new" 0 ⟨1, 2⟩ 7

/-- The persona `addAlice` returns. -/
def alice : Persona Key Nat :=
  { (Persona.new ["ks"] "9999999999999999" "alice" : Persona Key Nat) with
    ptype := .rsa, dhParams := some ⟨some 0, "DH PARAMETERS"⟩,
    pkey := some { PKEYbox.new (some .rsa) (some .rsa) with
      pubPem := provider.writePubkey .rsa, privPem := privText .rsa } }

/-- `addAlice` under a name with a newline in it. -/
def addNewline : Prog (Except String (Persona Key Nat) × Keystore config Key Nat) :=
  keystore.addPersona provider "a\nb" (provider.writePubkey .rsa) (privText .rsa) "new" 0 ⟨1, 2⟩ 7

end TestDouble

end OpmsgKeystore
