import OpmsgKeystore.Persona

/-!
# Operations that change a persona

Each operation of `keystore.cc` that writes to disk is a `Prog`: its system calls in the
source's order, with the source's early returns and clean-up paths. Its result is what the
source returns (`nullptr` or `-1` as `.error` with the message `build_error` records) and
the persona as it leaves it. Entropy a call draws (`gen_ec`, `gen_dh_key`,
`new_dh_params()`) is the argument `seed`; the time and process id `mkdir_helper` prints
into a staging name are `tv` and `pid`.

Writing a kex key follows the staging discipline of the spec (§4.5): make a uniquely named
directory next to the final one, create the files in it, check that the final name is free,
and `rename`. Only the `stat`/`rename` failure cleans the staging directory up.

The key files go through `fdopen`ed streams (`fwrite`): what the stream still buffers reaches
the file when `f.reset()` closes it or `rewind` flushes it, and the source looks at neither
result. `new_dh_params` reads back what the flush wrote; the kex calls go on to publish.
-/

namespace OpmsgKeystore

namespace Persona

open Prog

variable {K P : Type} (cfg : Config) (kp : KeyProvider K P)

/-! ## DH parameters -/

/-- `persona::new_dh_params(pem)`: truncate `dhparams.pem`, write `pem` into the stream,
`rewind` and read it back as DH parameters. -/
def newDhParamsPem (p : Persona K P) (pem : String) :
    Prog (Except String (DHbox P) × Persona K P) :=
  let file := p.dir ++ ["dhparams.pem"]
  check (.openTrunc file) (.error ("new_dh_params::open: Error opening DH params for " ++ p.id), p) <|
  check (.fdopen file) (.error "new_dh_params::fdopen:", p) <|
  fwrite file pem (.error "new_dh_params::fwrite:", p) fun flushed =>
  rewindRead file flushed fun c =>
    match c.bind kp.readDHparams with
    | none =>
      ret (.error ("new_dh_params::PEM_read_DHparams: Error reading DH params for " ++ p.id), p)
    | some prm => ret (.ok ⟨some prm, pem⟩, { p with dhParams := some ⟨some prm, pem⟩ })

/-- `persona::new_dh_params()`: generate parameters with generator 5, truncate
`dhparams.pem`, write them into the stream (`PEM_write_DHparams`), `rewind` and read back at
most 8192 bytes as their PEM text. -/
def newDhParams (p : Persona K P) (seed : Nat) : Prog (Except String (DHbox P) × Persona K P) :=
  match kp.genDhParams seed with
  | none => ret (.error ("new_dh_paramms::DH_generate_parameters_ex: Error generating DH params for "
      ++ p.id), p)
  | some prm =>
    let file := p.dir ++ ["dhparams.pem"]
    check (.openTrunc file) (.error ("new_dh_params::open: Error opening DH params for " ++ p.id), p) <|
    check (.fdopen file) (.error "new_dh_params::fdopen:", p) <|
    streamWrite file (kp.writeDHparams prm)
      (.error ("new_dh_params::PEM_write_DHparams: Error writing DH params for " ++ p.id), p)
      fun flushed =>
    rewindRead file flushed fun c =>
      if (c.getD "").data.length = 0 then
        ret (.error ("new_dh_params::fread: Error generating DH params for " ++ p.id), p)
      else
        let box : DHbox P := ⟨some prm, freadBuf (c.getD "")⟩
        ret (.ok box, { p with dhParams := some box })

/-! ## New kex keys -/

/-- `persona::gen_dh_key(md, pub, priv, hex)`: a DH key pair from the persona's
parameters, with the id of its public integer. -/
def genDhKey (md : Md cfg) (p : Persona K P) (seed : Nat) : Except String (String × String × String) :=
  match p.dhParams with
  | none => .error ("gen_dh_key: Invalid persona. No DH params for " ++ p.id)
  | some box =>
    match box.pub.bind fun prm => kp.genDhKey prm seed with
    | none => .error ("gen_dh_key::DH_generate_key: Error generating DH key for " ++ p.id)
    | some k =>
      match bn2hexhash md (kp.dhPubKey k) with
      | none => .error "gen_dh_key::bn2hexhash: Error hashing DH key."
      | some hex => .ok (kp.writePubkey k, kp.privPem k, hex)

/-- The key material of `gen_kex_key`: public PEM, private PEM and id. An EC persona
normalises the public PEM in place and hashes it; any other persona makes a DH key. -/
def kexMaterial (md : Md cfg) (p : Persona K P) (seed : Nat) :
    Except String (String × String × String) :=
  if p.ptype = .ec then
    match kp.genEc seed with
    | none => .error "persona::gen_kex_key::"
    | some (pub, priv) =>
      match normalizeAndHexhash md pub with
      | (pub, some hex) => .ok (pub, priv, hex)
      | (_, none) => .error "gen_kex_key::normalize_and_hexhash: Cant hash key."
  else genDhKey cfg kp md p seed

/-- The `peer` file of `gen_kex_key`: written when `peer` is a valid hex, unlinked again
when the write fails; no failure here is fatal. -/
def writePeer {α : Type} (peerfile : Path) (peer : String) (k : Prog α) : Prog α :=
  if peer.data.length > 0 ∧ cfg.isHexHash peer then
    call (.openTrunc peerfile) fun r =>
      if r.ok then
        call (.write peerfile (peer ++ "\n")) fun w => if w.ok then k else seq (.unlink peerfile) k
      else k
  else k

@[simp] theorem returns_writePeer {α : Type} {Q : α → Prop} {peerfile : Path} {peer : String}
    {k : Prog α} : (writePeer cfg peerfile peer k).Returns Q ↔ k.Returns Q := by
  unfold writePeer
  split
  · constructor
    · intro h
      simpa [Reply.ok] using h (.status false)
    · intro hk r
      dsimp only
      split
      · intro w
        dsimp only
        split <;> simp [hk]
      · exact hk
  · rfl

/-- `stat(hexdir) == 0 || rename(tmpdir, hexdir) < 0`: publish the staging directory
under a free final name, else take the clean-up path. -/
def publish {α : Type} (tmpdir hexdir : Path) (onOk onFail : Prog α) : Prog α :=
  call (.stat hexdir) fun r =>
    if r.ok then onFail else call (.rename tmpdir hexdir) fun r => if r.ok then onOk else onFail

@[simp] theorem returns_publish {α : Type} {Q : α → Prop} {tmpdir hexdir : Path}
    {onOk onFail : Prog α} :
    (publish tmpdir hexdir onOk onFail).Returns Q ↔ onOk.Returns Q ∧ onFail.Returns Q := by
  simp only [publish, returns_call]
  constructor
  · intro h
    exact ⟨by simpa [Reply.ok] using h (.size none) (.status true),
      by simpa [Reply.ok] using h (.size (some 0))⟩
  · rintro ⟨ho, hf⟩ r
    split
    · exact hf
    · intro r'
      dsimp only
      split <;> assumption

/-- `persona::gen_kex_key(md, peer)`. -/
def genKexKey (md : Md cfg) (p : Persona K P) (peer : String) (seed : Nat) (tv : Timeval)
    (pid : Nat) : Prog (Except String (PKEYbox K) × Persona K P) :=
  match kexMaterial cfg kp md p seed with
  | .error m => ret (.error m, p)
  | .ok (pubPem, privPem, hex) =>
  match p.keys.find hex with
  | some b => ret (.ok b, p)
  | none =>
  match kp.readPubkey pubPem with
  | none => ret (.error "gen_kex_key::PEM_read_bio_PUBKEY: Error reading PEM key", p)
  | some kpub =>
  match kp.readPrivateKey privPem with
  | none => ret (.error "gen_kex_key::PEM_read_bio_PrivateKey: Error reading PEM key", p)
  | some kpriv =>
  let tmpdir := p.dir ++ [uniqueName tv pid]
  let pbox : PKEYbox K := ⟨some kpub, some kpriv, pubPem, privPem, hex, peer⟩
  check (.mkdir tmpdir) (.error "gen_kex_key::mkdir:", p) <|
  check (.openExcl (tmpdir ++ ["dh.pub.pem"])) (.error "gen_kex_key::open:", p) <|
  check (.fdopen (tmpdir ++ ["dh.pub.pem"])) (.error "gen_kex_key::fdopen:", p) <|
  fwrite (tmpdir ++ ["dh.pub.pem"]) pubPem (.error "gen_kex_key::fwrite:", p) fun _ =>
  check (.openExcl (tmpdir ++ ["dh.priv.pem"])) (.error "gen_kex_key::open:", p) <|
  check (.fdopen (tmpdir ++ ["dh.priv.pem"])) (.error "gen_kex_key::fdopen:", p) <|
  fwrite (tmpdir ++ ["dh.priv.pem"]) privPem (.error "gen_kex_key::fwrite:", p) fun _ =>
  writePeer cfg (tmpdir ++ ["peer"]) peer <|
  publish tmpdir (p.kexDir hex) (ret (.ok pbox, { p with keys := p.keys.insert hex pbox })) <|
  seq (.unlink (tmpdir ++ ["dh.pub.pem"])) <| seq (.unlink (tmpdir ++ ["dh.priv.pem"])) <|
  seq (.unlink (tmpdir ++ ["peer"])) <| seq (.rmdir tmpdir) <|
  ret (.error ("gen_kex_key: Error storing ECDH keys " ++ hex), p)

/-- The id step of `add_dh_pubkey`: parse, then hash the public integer of a DH key or the
normalised PEM of an EC key; with the caller's string as this step leaves it. -/
def dhPubkeyId (md : Md cfg) (pem : String) : Except String (K × String) × String :=
  match kp.readPubkey pem with
  | none => (.error "add_dh_pubkey::PEM_read_bio_PUBKEY: Error reading PEM key", pem)
  | some k =>
    match kp.kind k with
    | .dh =>
      match bn2hexhash md (kp.dhPubKey k) with
      | none => (.error "add_dh_key::bn2hexhash: Error hashing DH pubkey.", pem)
      | some hex => (.ok (k, hex), pem)
    | .ec =>
      match normalizeAndHexhash md pem with
      | (pem, none) => (.error "add_dh_key:: Error hashing ECDH pubkey.", pem)
      | (pem, some hex) => (.ok (k, hex), pem)
    | _ => (.error "add_dh_pubkey: Unknown key type.", pem)

/-- `persona::add_dh_pubkey(md, pub_pem)`, returning also `pub_pem`, which the source
takes by reference. -/
def addDhPubkey (md : Md cfg) (p : Persona K P) (pem : String) (tv : Timeval) (pid : Nat) :
    Prog (Except String (PKEYbox K) × Persona K P × String) :=
  match dhPubkeyId cfg kp md pem with
  | (.error m, pem) => ret (.error m, p, pem)
  | (.ok (kpub, hex), pem) =>
  match p.keys.find hex with
  | some b => ret (.ok b, p, pem)
  | none =>
  let tmpdir := p.dir ++ [uniqueName tv pid]
  let pbox : PKEYbox K := ⟨some kpub, none, pem, "", hex, ""⟩
  check (.mkdir tmpdir) (.error "add_dh_key::mkdir:", p, pem) <|
  check (.openExcl (tmpdir ++ ["dh.pub.pem"])) (.error "add_dh_key::open:", p, pem) <|
  check (.fdopen (tmpdir ++ ["dh.pub.pem"])) (.error "add_dh_key::fdopen:", p, pem) <|
  fwrite (tmpdir ++ ["dh.pub.pem"]) pem (.error "add_dh_key::fwrite:", p, pem) fun _ =>
  publish tmpdir (p.kexDir hex) (ret (.ok pbox, { p with keys := p.keys.insert hex pbox }, pem)) <|
  seq (.unlink (tmpdir ++ ["dh.pub.pem"])) <| seq (.rmdir tmpdir) <|
  ret (.error ("add_dh_key: Error storing (EC)DH pubkey " ++ hex), p, pem)

/-! ## Deleting and marking kex keys -/

/-- Is `hex` one of the reserved kex ids? -/
def reserved (hex : String) : Prop := hex = cfg.rsaKexId ∨ hex = cfg.ecKexId

instance (hex : String) : Decidable (reserved cfg hex) := by unfold reserved; infer_instance

/-- `persona::del_dh_id(hex)`: drop the box, then `rmdir` the key directory and return
what `rmdir` returns (a failure carries no message). -/
def delDhId (p : Persona K P) (hex : String) : Prog (Except String Unit × Persona K P) :=
  if cfg.isHexHash hex = false then ret (.error "del_dh_id: Invalid key id.", p)
  else if reserved cfg hex then ret (.ok (), p)
  else
    let p := { p with keys := p.keys.erase hex }
    call (.rmdir (p.kexDir hex)) fun r => ret (if r.ok then .ok () else .error "", p)

/-- 512 zero bytes, the `buf` of `del_dh_priv`. -/
def zeroBlock : String := ⟨List.replicate 512 '\x00'⟩

/-- The shredding loop of `del_dh_priv`: `n` more blocks of zeros, each written at the
descriptor's offset `off` (which a failed write does not advance) and followed by
`sync()`. The source ignores what `write` returns. -/
def shred {α : Type} (file : Path) : Nat → Nat → Prog α → Prog α
  | 0, _, k => k
  | n + 1, off, k =>
    call (.writeAt file off zeroBlock) fun r =>
      seq .sync (shred file n (if r.ok then off + zeroBlock.data.length else off) k)

@[simp] theorem returns_shred {α : Type} {Q : α → Prop} (file : Path) (n off : Nat)
    (k : Prog α) : (shred file n off k).Returns Q ↔ k.Returns Q := by
  induction n generalizing off with
  | zero => rfl
  | succ n ih => simp [shred, ih]

/-- `persona::del_dh_priv(hex)`: overwrite `dh.priv.pem` with zeros block by block, unlink
it with `used` and `peer`, and drop the private half of the box. -/
def delDhPriv (p : Persona K P) (hex : String) : Prog (Except String Unit × Persona K P) :=
  if cfg.isHexHash hex = false then ret (.error "del_dh_priv: Invalid key id.", p)
  else if reserved cfg hex then ret (.ok (), p)
  else
  let file := p.kexDir hex ++ ["dh.priv.pem"]
  call (.stat file) fun r =>
  match r.sizeOf with
  | none => ret (.error "del_dh_priv: Invalid keyfile.", p)
  | some size =>
  check (.openRW file) (.error "del_dh_priv: Unable to open keyfile for shredding.", p) <|
  shred file ((size + 511) / 512) 0 <|
  seq (.unlink file) <| seq (.unlink (p.kexDir hex ++ ["used"])) <|
  seq (.unlink (p.kexDir hex ++ ["peer"])) <|
  ret (.ok (), { p with keys := match p.keys.find hex with
    | some b => p.keys.insert hex { b with privPem := "", priv := none }
    | none => p.keys })

/-- `persona::del_dh_pub(hex)`: unlink `dh.pub.pem`, drop the public half of the box. -/
def delDhPub (p : Persona K P) (hex : String) : Prog (Except String Unit × Persona K P) :=
  if cfg.isHexHash hex = false then ret (.error "del_dh_pub: Invalid key id.", p)
  else if reserved cfg hex then ret (.ok (), p)
  else
  seq (.unlink (p.kexDir hex ++ ["dh.pub.pem"])) <|
  ret (.ok (), { p with keys := match p.keys.find hex with
    | some b => p.keys.insert hex { b with pubPem := "", pub := none }
    | none => p.keys })

/-- `persona::used_key(hexid, u)`: create or remove the empty `used` marker. -/
def usedKey (p : Persona K P) (hexid : String) (u : Bool) : Prog Unit :=
  if cfg.isHexHash hexid = false then ret ()
  else if reserved cfg hexid then ret ()
  else if u then seq (.openExcl (p.kexDir hexid ++ ["used"])) (ret ())
  else seq (.unlink (p.kexDir hexid ++ ["used"])) (ret ())

section Reserved

variable {hex : String} (p : Persona K P) (valid : cfg.isHexHash hex = true)
  (res : reserved cfg hex)
include valid res

/-! On a reserved id that is a valid hex id the calls on one kex id return at once, the
deleting ones with success, before any system call. -/

@[simp] theorem delDhId_reserved : p.delDhId cfg hex = ret (.ok (), p) := by
  simp [delDhId, valid, res]

@[simp] theorem delDhPriv_reserved : p.delDhPriv cfg hex = ret (.ok (), p) := by
  simp [delDhPriv, valid, res]

@[simp] theorem delDhPub_reserved : p.delDhPub cfg hex = ret (.ok (), p) := by
  simp [delDhPub, valid, res]

@[simp] theorem usedKey_reserved (u : Bool) : p.usedKey cfg hex u = ret () := by
  simp [usedKey, valid, res]

end Reserved

/-- `persona::link(hex)`: write `hex` and a newline into `srclink`. -/
def link (p : Persona K P) (hex : String) : Prog (Except String Unit × Persona K P) :=
  if cfg.isHexHash hex = false then ret (.error "link: Invalid src id.", p)
  else
    call (.openTrunc (p.dir ++ ["srclink"])) fun r =>
      if r.ok then
        seq (.write (p.dir ++ ["srclink"]) hex) <| seq (.write (p.dir ++ ["srclink"]) "\n") <|
        ret (.ok (), p)
      else ret (.error "link: ", p)

end Persona

end OpmsgKeystore
