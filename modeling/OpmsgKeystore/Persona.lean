import OpmsgKeystore.FileSystem
import OpmsgKeystore.Provider

/-!
# Personas and how they are loaded

A persona is an identity on disk: `<base>/<id>/` with its long-term key files, optional
`name`, `srclink` and `dhparams.pem`, and one subdirectory per kex key. This module has
the in-memory records (`PKEYbox`, `DHbox`, `Persona`) and the functions of `keystore.cc`
that only read the disk: `persona::load_dh`, `persona::check_type`, `persona::load` and
`persona::find_dh_key`. Reading changes no file, so each is a function of the file system
state; each returns the persona as the source leaves it, also when it fails part way.

`persona::load` is split at the places where the source moves to the next file:
`loadLongTerm` (the key files), `readDhParams` (`dhparams.pem`) and `loadKex` (the kex
keys), with `load` composing them in the source's order.
-/

namespace OpmsgKeystore

/-- A key pair (either half may be missing), its PEM texts, its id and its peer. -/
structure PKEYbox (K : Type) where
  pub : Option K
  priv : Option K
  pubPem : String
  privPem : String
  hex : String
  peerId : String

/-- `new PKEYbox(pub, priv)`. The constructor lives in `keystore.h`; modelled from the spec:
both PEM texts, the id and the peer id start empty. -/
def PKEYbox.new {K : Type} (pub priv : Option K) : PKEYbox K := ⟨pub, priv, "", "", "", ""⟩

/-- DH parameters and their PEM text. -/
structure DHbox (P : Type) where
  pub : Option P
  pubPem : String

/-- A persona in memory. -/
structure Persona (K P : Type) where
  cfgbase : Path
  id : String
  name : String
  ptype : PType
  linkSrc : String
  pkey : Option (PKEYbox K)
  dhParams : Option (DHbox P)
  keys : KeyMap (PKEYbox K)

namespace Persona

variable {K P : Type}

/-- `persona(cfgbase, hex, name)`: type unknown, no keys. -/
def new (cfgbase : Path) (id name : String) : Persona K P :=
  ⟨cfgbase, id, name, .unknown, "", none, none, .empty⟩

/-- `cfgbase + "/" + id`. -/
def dir (p : Persona K P) : Path := p.cfgbase ++ [p.id]

/-- `cfgbase + "/" + id + "/" + hex`. -/
def kexDir (p : Persona K P) (hex : String) : Path := p.cfgbase ++ [p.id, hex]

end Persona

/-- `fread(buf, 1, sizeof(buf), f)` into `char buf[8192]`: the first 8192 bytes. -/
def freadBuf (c : String) : String := ⟨c.data.take 8192⟩

/-- `fgets(s, n + 1, f)`: up to `n` bytes, through the first newline. -/
def fgetsRaw : Nat → List Char → List Char
  | 0, _ => []
  | _, [] => []
  | n + 1, c :: cs => if c = '\n' then [c] else c :: fgetsRaw n cs

/-- A one-line file as `load` and `load_dh` read it: `fgets(s, sizeof(s) - 1, f)` into a
zeroed `char s[512]`, taken up to its first NUL (`strlen`), without a final newline. -/
def readLine (c : String) : String :=
  let s := (fgetsRaw 510 c.data).takeWhile (· ≠ '\x00')
  ⟨if s.getLast? = some '\n' then s.dropLast else s⟩

namespace Persona

variable {K P : Type} (cfg : Config) (kp : KeyProvider K P)

/-- The end of `load_dh` once both halves are read: a box with neither half is dropped
(an empty directory is the tombstone of a deleted key), otherwise a valid hex in `peer`
becomes the peer id. -/
def loadDhPeer (fs : FS) (p : Persona K P) (hex : String) (pbox : PKEYbox K) :
    Except String Unit × Persona K P :=
  if pbox.pub.isNone ∧ pbox.priv.isNone then (.ok (), { p with keys := p.keys.erase hex })
  else
    let pbox := match fs.fopen (p.kexDir hex ++ ["peer"]) with
      | some c => if cfg.isHexHash (readLine c) then { pbox with peerId := readLine c } else pbox
      | none => pbox
    (.ok (), { p with keys := p.keys.insert hex pbox })

/-- `persona::load_dh(hex)`: the public half if it reads and parses, then the private half,
which must parse if its file opens. The box is in `keys` before the private half is read. -/
def loadDh (fs : FS) (p : Persona K P) (hex : String) : Except String Unit × Persona K P :=
  if cfg.isHexHash hex = false then (.error "load_dh: Not a valid (EC)DH hex id", p) else
  let pbox : PKEYbox K := { PKEYbox.new none none with hex := hex }
  let pbox := match fs.fopen (p.kexDir hex ++ ["dh.pub.pem"]) with
    | some c =>
      if c.data.length = 0 then pbox else
      match kp.readPubkey c with
      | some k => { pbox with pub := some k, pubPem := freadBuf c }
      | none => pbox
    | none => pbox
  let p := { p with keys := p.keys.insert hex pbox }
  match fs.fopen (p.kexDir hex ++ ["dh.priv.pem"]) with
  | some c =>
    if c.data.length = 0 then (.error ("load_dh::fread: invalid (EC)DH privkey " ++ hex), p) else
    match kp.readPrivateKey c with
    | none => (.error ("load_dh::PEM_read_PrivateKey: Error reading (EC)DH privkey " ++ hex), p)
    | some k => loadDhPeer cfg fs p hex { pbox with priv := some k, privPem := freadBuf c }
  | none => loadDhPeer cfg fs p hex pbox

/-- `persona::check_type()`: `rsa.pub.pem` first, then `ec.pub.pem`. -/
def checkType (fs : FS) (p : Persona K P) : Except String Unit × Persona K P :=
  if cfg.isHexHash p.id = false then (.error "check_type: Not a valid persona id", p)
  else if (fs.statSize (p.dir ++ [PType.rsa.pubFile])).isSome then (.ok (), { p with ptype := .rsa })
  else if (fs.statSize (p.dir ++ [PType.ec.pubFile])).isSome then (.ok (), { p with ptype := .ec })
  else (.error "check_type: Neither RSA nor EC keys found for persona.", p)

/-- The long-term key files of `persona::load`: `<type>.pub.pem`, which must open, parse
and read, and `<type>.priv.pem`, which must parse and read if it opens. -/
def loadLongTerm (fs : FS) (p : Persona K P) : Except String (PKEYbox K) :=
  match fs.fopen (p.dir ++ [p.ptype.pubFile]) with
  | none => .error ("load: Error reading public key file for " ++ p.id)
  | some c =>
    match kp.readPubkey c with
    | none => .error ("load::PEM_read_PUBKEY: Error reading public key file for " ++ p.id)
    | some kpub =>
      if c.data.length = 0 then .error "load::fread:" else
      match fs.fopen (p.dir ++ [p.ptype.privFile]) with
      | none => .ok { PKEYbox.new (some kpub) none with pubPem := freadBuf c }
      | some c' =>
        match kp.readPrivateKey c' with
        | none => .error ("load::PEM_read_PrivateKey: Error reading private key file for " ++ p.id)
        | some kpriv =>
          if c'.data.length = 0 then .error "load::fread:" else
          .ok { PKEYbox.new (some kpub) (some kpriv) with
            pubPem := freadBuf c, privPem := freadBuf c' }

/-- `dhparams.pem` of an RSA persona: absent, or it must parse. The source never fills the
PEM text of parameters it loads. -/
def readDhParams (fs : FS) (p : Persona K P) : Except String (Option (DHbox P)) :=
  if p.ptype = .rsa then
    match fs.fopen (p.dir ++ ["dhparams.pem"]) with
    | none => .ok none
    | some c =>
      match kp.readDHparams c with
      | none => .error ("load::PEM_read_DHparams: Error reading DH params for " ++ p.id)
      | some prm => .ok (some ⟨some prm, ""⟩)
  else .ok none

/-- The kex keys of `persona::load`: only `dh_hex` when one is given (none at all for a
reserved id), otherwise every hex-named entry of the persona directory, whatever
`load_dh` returns for it. -/
def loadKex (fs : FS) (p : Persona K P) (dhHex : String) : Except String Unit × Persona K P :=
  if dhHex.data.length > 0 then
    if dhHex = cfg.rsaKexId ∨ dhHex = cfg.ecKexId then (.ok (), p) else loadDh cfg kp fs p dhHex
  else if ¬ fs.isDir p.dir then (.error "load_keys::opendir:", p)
  else (.ok (), (fs.readdir p.dir).foldl
    (fun p hex => if cfg.isHexHash hex then (loadDh cfg kp fs p hex).2 else p) p)

/-- `persona::load(dh_hex)`. -/
def load (fs : FS) (p : Persona K P) (dhHex : String) : Except String Unit × Persona K P :=
  if cfg.isHexHash p.id = false then (.error "load: Not a valid persona id", p)
  else if dhHex.data.length > 0 ∧ cfg.isHexHash dhHex = false then
    (.error "load: Not a valid session-key hex id", p)
  else
  match (if p.ptype = .unknown then checkType cfg fs p else (.ok (), p)) with
  | (.error m, p) => (.error m, p)
  | (.ok (), p) =>
  let p := match fs.fopen (p.dir ++ ["name"]) with
    | some c => { p with name := readLine c }
    | none => p
  let p := match fs.fopen (p.dir ++ ["srclink"]) with
    | some c => { p with linkSrc := readLine c }
    | none => p
  match loadLongTerm kp fs p with
  | .error m => (.error m, p)
  | .ok box =>
  let p := { p with pkey := some box }
  match readDhParams kp fs p with
  | .error m => (.error m, p)
  | .ok dh =>
  let p := match dh with
    | some b => { p with dhParams := some b }
    | none => p
  loadKex cfg kp fs p dhHex

/-- `persona::find_dh_key(hex)`: an EC persona answers `ec_kex_id` with its long-term key
(a null `pkey` comes back without a message). -/
def findDhKey (p : Persona K P) (hex : String) : Except String (PKEYbox K) :=
  if hex = cfg.ecKexId ∧ p.ptype = .ec then
    match p.pkey with
    | some b => .ok b
    | none => .error ""
  else match p.keys.find hex with
    | some b => .ok b
    | none => .error "find_dh_key: No such key."

end Persona

end OpmsgKeystore
