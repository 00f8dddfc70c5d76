import OpmsgKeystore.RoundTrip

/-!
# Content addressing

A persona's id is the digest of its canonical public key text, the text
`normalize_and_hexhash` cuts out of a PEM blob. This module follows that law through every run
of `keystore::add_persona`, `keystore::load()` and `keystore::load(hex)` from a keystore with
an empty map on an empty base directory (`Keystore.Reachable`).

`add_persona` does not look at what the `write` of the public key file returns. Under an
environment in which that write fails it publishes a persona directory whose public key file
is empty, so the law does not hold of every run (`addPersona_write_fails_empty_key`). It holds
of every run in which no write fails and every public key given to `add_persona` normalises
to at most 8192 bytes, the one `fread` of `persona::load` (`content_addressed`): every
persona directory `<base>/<h>` is a directory with a public key file, every public key file
in it holds a canonical text with digest `h`, and every persona in the map, and every persona
`add_persona` returns, carries a canonical key text whose digest is its id.

The invariant is `Addressing`. It holds initially (`Addressing.init`) and each call keeps it
(`Addressing.addPersona`, `Addressing.load`, `Addressing.loadHex`): `add_persona` either
changes nothing but its staging directory or publishes `<base>/<hex>` holding the normalized
key (`Keystore.addPersona_cases`), and `persona::load` takes its key text from a public key
file of the directory it loads (`Persona.load_pkey`), which it reads whole.
-/

namespace OpmsgKeystore

open Prog FS

variable {cfg : Config} {K P : Type} (kp : KeyProvider K P)

/-! ## The invariant -/

/-- A public key text stored under the id `h`: canonical, with digest `h`, and read whole by
the one 8192-byte `fread` of `persona::load`. -/
def Addressed (md : Md cfg) (h c : String) : Prop :=
  normalizeAndHexhash md c = (c, some h) ∧ c.length ≤ 8192

/-- The persona directory `d` of id `h` is a directory with a public key file, and each of its
public key files holds a text `Addressed` by `h`. -/
def PersonaDirAddressed (md : Md cfg) (fs : FS) (d : Path) (h : String) : Prop :=
  fs.get d = some .dir ∧ (∃ t c, fs.get (d ++ [PType.pubFile t]) = some (.file c)) ∧
    ∀ t n, fs.get (d ++ [PType.pubFile t]) = some n → ∃ c, n = .file c ∧ Addressed md h c

/-- Every entry `<base>/<h>` of a valid id `h` is an addressed persona directory. -/
def DirsAddressed (base : Path) (md : Md cfg) (fs : FS) : Prop :=
  ∀ h, cfg.isHexHash h = true → (fs.get (base ++ [h])).isSome →
    PersonaDirAddressed md fs (base ++ [h]) h

/-- The persona's key box, when it has one, holds a canonical public key text whose digest is
the persona's id. -/
def Persona.KeyAddressed (md : Md cfg) (p : Persona K P) : Prop :=
  ∀ b, p.pkey = some b → normalizeAndHexhash md b.pubPem = (b.pubPem, some p.id)

/-- The invariant of a keystore and its file system: a tree, the keystore on `base` with the
digest `md`, its persona directories addressed, and every persona of its map addressed. -/
structure Addressing (base : Path) (md : Md cfg) (s : Keystore cfg K P × FS) : Prop where
  tree : s.2.Tree
  cfgbase : s.1.cfgbase = base
  md_eq : s.1.md = md
  dirs : DirsAddressed base md s.2
  personas : ∀ h p, s.1.personas.find h = some p → p.KeyAddressed md

/-! ## Paths -/

/-- Two entries of one directory lie below neither one another. -/
theorem not_prefix_of_sibling {base q : Path} {u h : String} (hne : h ≠ u)
    (hq : base ++ [h] <+: q) : ¬ base ++ [u] <+: q := by
  intro hu
  rcases prefix_comparable hq hu with h1 | h1 <;>
    simp only [List.prefix_append_right_inj, List.prefix_cons_inj, List.prefix_nil] at h1 <;>
    simp_all

theorem PersonaDirAddressed.congr {md : Md cfg} {fs fs' : FS} {d : Path} {h : String}
    (hp : PersonaDirAddressed md fs d h) (hq : ∀ q, d <+: q → fs'.get q = fs.get q) :
    PersonaDirAddressed md fs' d h := by
  have hx : ∀ x, fs'.get (d ++ [x]) = fs.get (d ++ [x]) := fun x => hq _ (List.prefix_append _ _)
  unfold PersonaDirAddressed
  rw [hq d (List.prefix_refl _)]
  simpa only [hx] using hp

/-- A persona directory in which nothing has changed is still addressed. -/
theorem DirsAddressed.keep {base : Path} {md : Md cfg} {fs fs' : FS}
    (hd : DirsAddressed base md fs) {h : String} (hh : cfg.isHexHash h = true)
    (hq : ∀ q, base ++ [h] <+: q → fs'.get q = fs.get q) (hs : (fs'.get (base ++ [h])).isSome) :
    PersonaDirAddressed md fs' (base ++ [h]) h :=
  (hd h hh (by rwa [← hq _ (List.prefix_refl _)])).congr hq

/-- The directory `add_persona` publishes holds its normalized key as the one public key file. -/
theorem personaDirAddressed_of_added {md : Md cfg} {fs : FS} {d : Path} {h name pubPem privPem : String}
    {type1 : PType} (hdir : fs.get d = some .dir)
    (hfiles : ∀ x, x ≠ "dhparams.pem" →
      fs.get (d ++ [x]) = Keystore.addedFiles name type1 pubPem privPem none x)
    (ha : Addressed md h pubPem) : PersonaDirAddressed md fs d h := by
  have hpub : ∀ t : PType, fs.get (d ++ [t.pubFile]) =
      if t = type1 then some (.file pubPem) else none := fun t => by
    rw [hfiles _ (by cases t <;> decide), Keystore.addedFiles_pubFile_eq]
  refine ⟨hdir, ⟨type1, pubPem, by simp [hpub]⟩, fun t n hn => ⟨pubPem, ?_, ha⟩⟩
  rw [hpub] at hn
  split_ifs at hn
  exact (Option.some.inj hn).symm

/-! ## `load` -/

/-- A persona `persona::load` builds from an addressed directory is addressed. -/
theorem load_keyAddressed {base : Path} {md : Md cfg} {fs : FS} (htree : fs.Tree)
    (hd : DirsAddressed base md fs) {hex : String} (hhex : cfg.isHexHash hex = true)
    (dhHex : String) : ((Persona.new base hex "").load cfg kp fs dhHex).2.KeyAddressed md := by
  obtain ⟨-, hid, hnone | ⟨t, c, box, hc, hb, hpk⟩⟩ := Persona.load_pkey cfg kp fs (Persona.new base hex "") dhHex
  · intro b hb
    rw [hnone] at hb
    cases hb
  intro b hbox
  rw [hpk] at hbox
  cases hbox
  have hc' : fs.get (base ++ [hex] ++ [t.pubFile]) = some (.file c) := hc
  have hs : (fs.get (base ++ [hex])).isSome := by
    have := htree.isDir_dropLast (p := base ++ [hex] ++ [t.pubFile]) (by rw [hc']; rfl)
    simp only [List.dropLast_concat, isDir] at this
    rcases this with h0 | h0
    · simp at h0
    · simp [h0]
  obtain ⟨c', hcc, hnorm, hlen⟩ := (hd hex hhex hs).2.2 t _ hc'
  cases hcc
  rw [hb, hid, freadBuf_of_length_le hlen]
  exact hnorm

section Steps

variable {base : Path} {md : Md cfg}

/-- `keystore::load()` keeps the invariant. -/
theorem Addressing.load {ks : Keystore cfg K P} {fs : FS} (hI : Addressing base md (ks, fs)) :
    Addressing base md ((ks.load kp fs).2, fs) := by
  have hfold : ∀ (l : List String) (m : KeyMap (Persona K P)),
      (∀ h p, m.find h = some p → p.KeyAddressed md) →
      ∀ h p, (l.foldl (Keystore.loadEntry kp fs ks) m).find h = some p → p.KeyAddressed md := by
    intro l
    induction l with
    | nil => exact fun m hm => hm
    | cons x l ih =>
      intro m hm
      refine ih _ fun h p hp => ?_
      unfold Keystore.loadEntry at hp
      split_ifs at hp with hx
      · exact hm h p hp
      split at hp
      · rename_i q hq
        rw [KeyMap.find_insert] at hp
        split_ifs at hp
        · cases hp
          have := load_keyAddressed kp hI.tree (hI.cfgbase ▸ hI.dirs) (by simpa using hx) ""
          rwa [hq] at this
        · exact hm h p hp
      · exact hm h p hp
  unfold Keystore.load
  split_ifs
  · exact ⟨hI.tree, hI.cfgbase, hI.md_eq, hI.dirs, hfold _ _ hI.personas⟩
  · exact hI

/-- `keystore::load(hex)` keeps the invariant, whatever `persona::load` made of the persona it
puts into the map. -/
theorem Addressing.loadHex {ks : Keystore cfg K P} {fs : FS} (hI : Addressing base md (ks, fs))
    (hex : String) : Addressing base md ((ks.loadHex kp fs hex).2, fs) := by
  unfold Keystore.loadHex
  split_ifs with hh
  · exact hI
  refine ⟨hI.tree, hI.cfgbase, hI.md_eq, hI.dirs, fun x q hq => ?_⟩
  dsimp only at hq
  rw [KeyMap.find_insert] at hq
  split_ifs at hq
  · cases hq
    exact load_keyAddressed kp hI.tree (hI.cfgbase ▸ hI.dirs) (by simpa using hh) ""
  · exact hI.personas x q hq

/-! ## `add_persona` -/

/-- `add_persona` keeps the invariant when no write fails and its public key normalises to at
most 8192 bytes. -/
theorem Addressing.addPersona {ks : Keystore cfg K P} {fs fs' : FS} {env : Env}
    {name cPubPem privPem dhparamsPem : String} {seed : Nat} {tv : Timeval} {pid : Nat}
    {a : Except String (Persona K P) × Keystore cfg K P} (hI : Addressing base md (ks, fs))
    (hw : env.WritesOk)
    (hfit : ∀ pem h, normalizeAndHexhash md cPubPem = (pem, some h) → pem.length ≤ 8192)
    (h : (ks.addPersona kp name cPubPem privPem dhparamsPem seed tv pid).run env fs = (a, fs')) :
    Addressing base md (a.2, fs') := by
  obtain ⟨htree, hbase, hmd, hd, hm⟩ := hI
  dsimp only at htree hbase hmd hd hm
  subst hbase hmd
  have htree' : fs'.Tree := by
    have := run_tree env (ks.addPersona kp name cPubPem privPem dhparamsPem seed tv pid) htree
    rwa [h] at this
  rcases Keystore.addPersona_cases kp ks hw htree h with ⟨m, rfl, hs⟩ | ⟨pubPem, hex, kpub, kpriv, type1,
    hnorm, -, -, -, hframe, hdir, hfiles, hres⟩
  · exact ⟨htree', rfl, rfl, fun x hx hsx => hd.keep hx
      (fun q hq => hs q (not_prefix_of_sibling (ne_uniqueName hx tv pid) hq)) hsx, hm⟩
  have hA : Addressed ks.md hex pubPem := ⟨normalizeAndHexhash_idem hnorm, hfit pubPem hex hnorm⟩
  have hdirs : DirsAddressed ks.cfgbase ks.md fs' := fun x hx hsx => by
    by_cases hxe : x = hex
    · subst hxe
      exact personaDirAddressed_of_added hdir hfiles hA
    · exact hd.keep hx (fun q hq => hframe q (not_prefix_of_sibling (ne_uniqueName hx tv pid) hq)
        (not_prefix_of_sibling hxe hq)) hsx
  rcases hres with ⟨m, rfl⟩ | ⟨p, rfl, -, hid, -, -, hpk, -⟩
  · exact ⟨htree', rfl, rfl, hdirs, hm⟩
  refine ⟨htree', rfl, rfl, hdirs, fun x q hq => ?_⟩
  dsimp only at hq
  rw [KeyMap.find_insert] at hq
  split_ifs at hq
  · cases hq
    intro b hb
    rw [hpk] at hb
    cases hb
    rw [hid]
    exact hA.1
  · exact hm x q hq

/-- The persona a successful `add_persona` returns is addressed, when no write fails. -/
theorem addPersona_keyAddressed {ks : Keystore cfg K P} {fs fs' : FS} {env : Env}
    {name cPubPem privPem dhparamsPem : String} {seed : Nat} {tv : Timeval} {pid : Nat}
    {p : Persona K P} {ks' : Keystore cfg K P} (htree : fs.Tree) (hw : env.WritesOk)
    (h : (ks.addPersona kp name cPubPem privPem dhparamsPem seed tv pid).run env fs =
      ((.ok p, ks'), fs')) : p.KeyAddressed ks.md := by
  rcases Keystore.addPersona_cases kp ks hw htree h with ⟨m, he, -⟩ | ⟨pubPem, hex, kpub, kpriv, type1,
    hnorm, -, -, -, -, -, -, ⟨m, he⟩ | ⟨p', he, -, hid, -, -, hpk, -⟩⟩
  · cases he
  · cases he
  obtain ⟨⟨⟩, -⟩ := Prod.mk.inj he
  intro b hb
  rw [hpk] at hb
  cases hb
  rw [hid]
  exact normalizeAndHexhash_idem hnorm

/-! ## Every run -/

/-- The calls the law is about. -/
inductive Keystore.Op
  | addPersona (name cPubPem privPem dhparamsPem : String) (seed : Nat) (tv : Timeval) (pid : Nat)
  | load
  | loadHex (hex : String)

/-- One call under `env`: the keystore and the file system it leaves. What the call returns
is dropped. -/
def Keystore.Op.run (env : Env) : Keystore.Op → Keystore cfg K P × FS → Keystore cfg K P × FS
  | .addPersona name cPubPem privPem dhparamsPem seed tv pid, (ks, fs) =>
    let r := (ks.addPersona kp name cPubPem privPem dhparamsPem seed tv pid).run env fs
    (r.1.2, r.2)
  | .load, (ks, fs) => ((ks.load kp fs).2, fs)
  | .loadHex hex, (ks, fs) => ((ks.loadHex kp fs hex).2, fs)

/-- The public key an `add_persona` call is given normalises to at most 8192 bytes. -/
def Keystore.Op.Fits (md : Md cfg) : Keystore.Op → Prop
  | .addPersona _ cPubPem _ _ _ _ _ =>
    ∀ pem h, normalizeAndHexhash md cPubPem = (pem, some h) → pem.length ≤ 8192
  | _ => True

/-- The states reachable from a keystore on `base` with the digest `md` and an empty map, over
a tree whose base directory is empty, by calls that `allowed` admits under their
environments. -/
inductive Keystore.Reachable (base : Path) (md : Md cfg) (allowed : Env → Keystore.Op → Prop) :
    Keystore cfg K P × FS → Prop
  | init {fs : FS} : fs.Tree → fs.get base = some .dir → ¬ fs.HasBelow base →
      Reachable base md allowed (⟨base, md, .empty⟩, fs)
  | step {s : Keystore cfg K P × FS} {env : Env} {op : Keystore.Op} : Reachable base md allowed s →
      allowed env op → Reachable base md allowed (op.run kp env s)

theorem Addressing.init {fs : FS} (htree : fs.Tree) (hbelow : ¬ fs.HasBelow base) :
    Addressing base md ((⟨base, md, .empty⟩ : Keystore cfg K P), fs) := by
  refine ⟨htree, rfl, rfl, fun h _ hs => absurd ?_ hbelow, fun h p hp => by simp at hp⟩
  exact ⟨(base ++ [h], (fs.get (base ++ [h])).get hs), mem_entries_of_get (Option.some_get hs).symm,
    List.prefix_append _ _, by simp⟩

/-- One call keeps the invariant when no write fails and its key fits. -/
theorem Addressing.step {s : Keystore cfg K P × FS} {env : Env} {op : Keystore.Op}
    (hI : Addressing base md s) (hw : env.WritesOk) (hfit : op.Fits md) :
    Addressing base md (op.run kp env s) := by
  obtain ⟨ks, fs⟩ := s
  cases op with
  | addPersona name cPubPem privPem dhparamsPem seed tv pid =>
    exact hI.addPersona kp hw hfit (Prod.mk.eta).symm
  | load => exact hI.load kp
  | loadHex hex => exact hI.loadHex kp hex

/-- Content addressing over every run in which no write fails and every public key fits the
8192-byte buffer of `persona::load`: the persona directories and the map are addressed, and so
is every persona `add_persona` returns from such a state. -/
theorem content_addressed {s : Keystore cfg K P × FS}
    (reach : Keystore.Reachable kp base md (fun env op => env.WritesOk ∧ op.Fits md) s) :
    Addressing base md s ∧
      ∀ env name cPubPem privPem dhparamsPem seed tv pid p ks' fs', env.WritesOk →
        (s.1.addPersona kp name cPubPem privPem dhparamsPem seed tv pid).run env s.2 =
          ((.ok p, ks'), fs') → p.KeyAddressed md := by
  have hI : Addressing base md s := by
    induction reach with
    | init htree _ hbelow => exact Addressing.init htree hbelow
    | step _ hallowed ih => exact ih.step kp hallowed.1 hallowed.2
  refine ⟨hI, fun env name cPubPem privPem dhparamsPem seed tv pid p ks' fs' hw hrun => ?_⟩
  have := addPersona_keyAddressed kp hI.tree hw hrun
  rwa [hI.md_eq] at this

end Steps

section TestRuns

open TestDouble

/-- An environment in which every `write` fails. -/
def writesFail : Env := fun c => c matches .write _ _

/-- `add_persona` of the EC public key alone, as a call. -/
def addEcOp : Keystore.Op := .addPersona "" (provider.writePubkey .ec) "" "" 0 ⟨1, 2⟩ 7

/-- The state that `add_persona` of the EC key leaves on an empty base, with no write failing. -/
theorem content_addressed_ec :
    Keystore.Reachable provider ["ks"] md (fun env op => env.WritesOk ∧ op.Fits md)
      (addEcOp.run provider Env.none (keystore, baseOnly)) ∧
    (Addressing ["ks"] md (addEcOp.run provider Env.none (keystore, baseOnly)) ∧
      ∀ env name cPubPem privPem dhparamsPem seed tv pid p ks' fs', env.WritesOk →
        ((addEcOp.run provider Env.none (keystore, baseOnly)).1.addPersona provider name cPubPem
          privPem dhparamsPem seed tv pid).run env (addEcOp.run provider Env.none (keystore, baseOnly)).2 =
          ((.ok p, ks'), fs') → p.KeyAddressed md) :=
  have hn : normalizeAndHexhash md (provider.writePubkey .ec) =
      (provider.writePubkey .ec, some "9999999999999999") := by decide
  have hfit : addEcOp.Fits md := fun pem h e => by
    obtain ⟨rfl, -⟩ := Prod.mk.inj (e.symm.trans hn)
    decide
  have hr : Keystore.Reachable provider ["ks"] md (fun env op => env.WritesOk ∧ op.Fits md)
      (addEcOp.run provider Env.none (keystore, baseOnly)) :=
    .step (.init baseOnly_tree (by decide) (by decide)) ⟨fun _ _ => rfl, hfit⟩
  ⟨hr, content_addressed provider hr⟩

/-- Under an environment in which every `write` fails, `add_persona` of the EC key publishes
`/ks/9999999999999999` with an empty `ec.pub.pem`, a text without markers and so without an
id. -/
theorem addPersona_write_fails_empty_key :
    Keystore.Reachable provider ["ks"] md (fun _ _ => True)
      (addEcOp.run provider writesFail (keystore, baseOnly)) ∧
    (addEcOp.run provider writesFail (keystore, baseOnly)).2.get ["ks", "9999999999999999"] =
      some .dir ∧
    (addEcOp.run provider writesFail (keystore, baseOnly)).2.get
      ["ks", "9999999999999999", "ec.pub.pem"] = some (.file "") ∧
    (normalizeAndHexhash md "").2 = none ∧
    ¬ DirsAddressed ["ks"] md (addEcOp.run provider writesFail (keystore, baseOnly)).2 := by
  have hget : (addEcOp.run provider writesFail (keystore, baseOnly)).2.get
      ["ks", "9999999999999999", "ec.pub.pem"] = some (.file "") := by decide
  refine ⟨.step (.init baseOnly_tree (by decide) (by decide)) trivial, by decide, hget, by decide,
    fun hd => ?_⟩
  obtain ⟨c, hc, hA⟩ := (hd "9999999999999999" (by decide) (by decide)).2.2 .ec _ hget
  cases hc
  exact absurd hA.1 (by decide)

end TestRuns

end OpmsgKeystore
