import OpmsgKeystore.PersonaOps

/-!
# The keystore

The keystore is a base directory with one persona directory per hex id, and the map of
the personas it has loaded. `keystore::load(hex)` and `keystore::load()` only read;
`keystore::add_persona` stages a new persona directory and publishes it with `rename`,
then, for an RSA persona asked for DH parameters, writes `dhparams.pem` into the published
directory through `persona::new_dh_params`.

`add_persona` is split where the source moves on: `writeName` (the `name` file),
`addPersonaKeys` (the public key file), `addPersonaPriv` (the private key file),
`addPersonaPublish` (the rename, its clean-up, and the new persona) and `addPersonaFinish`
(the map update after `new_dh_params`).
-/

namespace OpmsgKeystore

/-- A keystore: its base directory, digest, and personas by id. -/
structure Keystore (cfg : Config) (K P : Type) where
  cfgbase : Path
  md : Md cfg
  personas : KeyMap (Persona K P)

namespace Keystore

open Prog

variable {cfg : Config} {K P : Type} (kp : KeyProvider K P)

/-- `keystore::load(hex)`. The result of `persona::load` is not looked at: the persona goes
into the map whatever it is. -/
def loadHex (fs : FS) (ks : Keystore cfg K P) (hex : String) :
    Except String Unit × Keystore cfg K P :=
  if cfg.isHexHash hex = false then (.error "keystore::load: Invalid hex id.", ks)
  else
    let p := ((Persona.new ks.cfgbase hex "").load cfg kp fs "").2
    (.ok (), { ks with personas := ks.personas.insert hex p })

/-- One entry of `keystore::load()`: a hex-named entry whose persona loads goes into the
map; any other entry is skipped. -/
def loadEntry (fs : FS) (ks : Keystore cfg K P) (m : KeyMap (Persona K P)) (hex : String) :
    KeyMap (Persona K P) :=
  if cfg.isHexHash hex = false then m else
  match (Persona.new ks.cfgbase hex "").load cfg kp fs "" with
  | (.ok (), p) => m.insert hex p
  | (.error _, _) => m

/-- `keystore::load()`: every entry of the base directory. -/
def load (fs : FS) (ks : Keystore cfg K P) : Except String Unit × Keystore cfg K P :=
  if ¬ fs.isDir ks.cfgbase then (.error "load::opendir:", ks)
  else (.ok (), { ks with personas := (fs.readdir ks.cfgbase).foldl (loadEntry kp fs ks) ks.personas })

/-- `keystore::find_persona(hex)`: a 16-character id is first tried as a prefix, in map
order. -/
def findPersona (ks : Keystore cfg K P) (hex : String) : Except String (Persona K P) :=
  if cfg.isHexHash hex = false then .error "find_persona: Invalid id." else
  match (if hex.data.length = 16 then
      ks.personas.entries.find? (fun e => find hex.data e.1.data = some 0) else none) with
  | some e => .ok e.2
  | none =>
    match ks.personas.find hex with
    | some p => .ok p
    | none => .error "find_persona: No such persona."

/-- The persona type of a key type, `marker::ec` or `marker::rsa`. -/
def typeOf : KeyKind → Option PType
  | .ec => some .ec
  | .rsa => some .rsa
  | _ => none

theorem typeOf_ne_unknown {k : KeyKind} {t : PType} (h : typeOf k = some t) : t ≠ .unknown := by
  cases k <;> simp only [typeOf, Option.some.injEq, reduceCtorEq] at h <;> simp [← h]

/-- The `name` file of `add_persona`: `name` and a newline, when `name` is not empty. -/
def writeName {α : Type} (tmpdir : Path) (name : String) (eOpen eWrite : α) (k : Prog α) :
    Prog α :=
  if name.data.length > 0 then
    check (.openExcl (tmpdir ++ ["name"])) eOpen <|
    check (.write (tmpdir ++ ["name"]) name) eWrite <|
    check (.write (tmpdir ++ ["name"]) "\n") eWrite k
  else k

/-- The end of `add_persona` after `new_dh_params`: the persona goes into the map only if
that succeeded. -/
def addPersonaFinish (ks : Keystore cfg K P) (hex : String) :
    Except String (DHbox P) × Persona K P → Prog (Except String (Persona K P) × Keystore cfg K P)
  | (.error m, _) => ret (.error m, ks)
  | (.ok _, p) => ret (.ok p, { ks with personas := ks.personas.insert hex p })

/-- The rename that publishes the staging directory as `<base>/<hex>`, its clean-up, and
the new persona; an RSA persona asked for DH parameters gets them through
`new_dh_params`, and goes into the map only if that succeeds. -/
def addPersonaPublish (ks : Keystore cfg K P) (tmpdir : Path) (hex name pubPem privPem
    dhparamsPem : String) (seed : Nat) (kpub kpriv : Option K) (type1 : PType) :
    Prog (Except String (Persona K P) × Keystore cfg K P) :=
  call (.rename tmpdir (ks.cfgbase ++ [hex])) fun r =>
  if ¬ r.ok then
    seq (.unlink (tmpdir ++ [type1.privFile])) <| seq (.unlink (tmpdir ++ [type1.pubFile])) <|
    seq (.unlink (tmpdir ++ ["name"])) <| seq (.rmdir tmpdir) <|
    ret (.error ("add_persona::rename: Error creating persona " ++ hex), ks)
  else
  let p : Persona K P := { Persona.new ks.cfgbase hex name with
    pkey := some { PKEYbox.new kpub kpriv with pubPem := pubPem, privPem := privPem },
    ptype := type1 }
  if dhparamsPem.data.length > 0 ∧ type1 = .rsa then
    if dhparamsPem = "new" then (p.newDhParams kp seed).bind (addPersonaFinish ks hex)
    else (p.newDhParamsPem kp dhparamsPem).bind (addPersonaFinish ks hex)
  else ret (.ok p, { ks with personas := ks.personas.insert hex p })

/-- The private key file of `add_persona`, when `priv_pem` is not empty: it must parse, be
RSA or EC, and agree with the public key's type. -/
def addPersonaPriv (ks : Keystore cfg K P) (tmpdir : Path) (hex name pubPem privPem
    dhparamsPem : String) (seed : Nat) (kpub : Option K) (type1 : PType) :
    Prog (Except String (Persona K P) × Keystore cfg K P) :=
  if privPem.data.length > 0 then
    match kp.readPrivateKey privPem with
    | none => ret (.error "add_persona::PEM_read_bio_PrivateKey: Error reading PEM key", ks)
    | some kpriv =>
      match typeOf (kp.kind kpriv) with
      | none => ret (.error "add_persona: Unknown persona type.", ks)
      | some type2 =>
        if type1 ≠ .unknown ∧ type1 ≠ type2 then
          ret (.error ("add_persona: Different persona keytypes " ++ type1.marker ++ " vs. " ++
            type2.marker), ks)
        else
          check (.openExcl (tmpdir ++ [type2.privFile])) (.error "add_persona::open:", ks) <|
          seq (.write (tmpdir ++ [type2.privFile]) privPem) <|
          addPersonaPublish kp ks tmpdir hex name pubPem privPem dhparamsPem seed kpub
            (some kpriv) type1
  else addPersonaPublish kp ks tmpdir hex name pubPem privPem dhparamsPem seed kpub none type1

/-- The public key file of `add_persona`: the key must parse and be RSA or EC; the file is
created exclusively and written, and what `write` returns is ignored. -/
def addPersonaKeys (ks : Keystore cfg K P) (tmpdir : Path) (hex name pubPem privPem
    dhparamsPem : String) (seed : Nat) : Prog (Except String (Persona K P) × Keystore cfg K P) :=
  if pubPem.data.length > 0 then
    match kp.readPubkey pubPem with
    | none => ret (.error "add_persona::PEM_read_bio_PUBKEY: Error reading PEM key", ks)
    | some kpub =>
      match typeOf (kp.kind kpub) with
      | none => ret (.error "add_persona: Unknown persona type.", ks)
      | some type1 =>
        check (.openExcl (tmpdir ++ [type1.pubFile])) (.error "add_persona::open:", ks) <|
        seq (.write (tmpdir ++ [type1.pubFile]) pubPem) <|
        addPersonaPriv kp ks tmpdir hex name pubPem privPem dhparamsPem seed (some kpub) type1
  else addPersonaPriv kp ks tmpdir hex name pubPem privPem dhparamsPem seed none .unknown

/-- `keystore::add_persona(name, c_pub_pem, priv_pem, dhparams_pem)`. -/
def addPersona (ks : Keystore cfg K P) (name cPubPem privPem dhparamsPem : String) (seed : Nat)
    (tv : Timeval) (pid : Nat) : Prog (Except String (Persona K P) × Keystore cfg K P) :=
  match normalizeAndHexhash ks.md cPubPem with
  | (_, none) => ret (.error "add_persona: Invalid pubkey blob. Missing BEGIN/END markers?", ks)
  | (pubPem, some hex) =>
    let tmpdir := ks.cfgbase ++ [uniqueName tv pid]
    check (.mkdir tmpdir) (.error "add_persona::mkdir:", ks) <|
    writeName tmpdir name (.error "add_persona::open:", ks) (.error "add_persona::write:", ks) <|
    addPersonaKeys kp ks tmpdir hex name pubPem privPem dhparamsPem seed

end Keystore

end OpmsgKeystore
