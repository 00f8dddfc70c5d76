import OpmsgKeystore.Mirror

/-!
# What `load_dh` leaves in `keys`

`persona::load_dh(hex)` reads the public half of a kex key, puts the box into `keys`, and only
then reads the private half. A private key file that opens but is empty or does not parse
makes it return `-1` with the box already in `keys`; when the public half was not usable
either, that box holds no key at all. `persona::load` ignores what `load_dh` returns, so the
box stays in the persona it loads.

Results:
* `loadDh_ok_cases`: a successful `load_dh` leaves the id absent, or a box under it that has
  the id and holds a public or a private key;
* `loadDh_error_keeps_box`: a bad private key file makes `load_dh` fail with the box of the
  public half in `keys`, and `persona::load` of the directory keeps that box;
* `loadDh_garbage_priv`: a kex directory holding only an unreadable `dh.priv.pem` loads as an
  empty box.
-/

namespace OpmsgKeystore

namespace Persona

variable {cfg : Config} {K P : Type} (kp : KeyProvider K P)

/-- The box `load_dh` builds from `dh.pub.pem` before it reads the private half. -/
def loadDhPub (fs : FS) (p : Persona K P) (hex : String) : PKEYbox K :=
  let pbox : PKEYbox K := { PKEYbox.new none none with hex := hex }
  match fs.fopen (p.kexDir hex ++ ["dh.pub.pem"]) with
  | some c =>
    if c.data.length = 0 then pbox else
    match kp.readPubkey c with
    | some k => { pbox with pub := some k, pubPem := freadBuf c }
    | none => pbox
  | none => pbox

section LoadDhPub

variable (fs : FS) (p : Persona K P) (hex : String)

@[simp] theorem loadDhPub_hex : (loadDhPub kp fs p hex).hex = hex := by
  unfold loadDhPub
  split
  · split_ifs
    · rfl
    · split <;> rfl
  · rfl

@[simp] theorem loadDhPub_priv : (loadDhPub kp fs p hex).priv = none := by
  unfold loadDhPub
  split
  · split_ifs
    · rfl
    · split <;> rfl
  · rfl

/-- The public half is missing exactly when `dh.pub.pem` does not open, is empty or does not
parse. -/
theorem loadDhPub_pub_eq_none : (loadDhPub kp fs p hex).pub = none ↔
    ∀ c, fs.fopen (p.kexDir hex ++ ["dh.pub.pem"]) = some c →
      c.data.length = 0 ∨ kp.readPubkey c = none := by
  unfold loadDhPub
  rcases fs.fopen (p.kexDir hex ++ ["dh.pub.pem"]) with _ | c
  · exact iff_of_true rfl nofun
  have hc : ∀ Q : String → Prop, (∀ c', some c = some c' → Q c') ↔ Q c :=
    fun Q => ⟨fun h => h c rfl, fun h c' hc' => Option.some.inj hc' ▸ h⟩
  rw [hc]
  dsimp only
  by_cases h0 : c.data.length = 0
  · rw [if_pos h0]
    exact iff_of_true rfl (.inl h0)
  rw [if_neg h0]
  rcases kp.readPubkey c with _ | k
  · exact iff_of_true rfl (.inr rfl)
  · exact iff_of_false nofun (by rintro (h | h) <;> first | exact h0 h | cases h)

end LoadDhPub

variable (cfg)

/-- `load_dh` of a valid id, with its public half named: the box goes into `keys`, then the
private key file decides. -/
theorem loadDh_eq (fs : FS) (p : Persona K P) {hex : String} (hh : cfg.isHexHash hex = true) :
    loadDh cfg kp fs p hex =
      let p' := { p with keys := p.keys.insert hex (loadDhPub kp fs p hex) }
      match fs.fopen (p.kexDir hex ++ ["dh.priv.pem"]) with
      | some c =>
        if c.data.length = 0 then (.error ("load_dh::fread: invalid (EC)DH privkey " ++ hex), p') else
        match kp.readPrivateKey c with
        | none => (.error ("load_dh::PEM_read_PrivateKey: Error reading (EC)DH privkey " ++ hex), p')
        | some k =>
          loadDhPeer cfg fs p' hex { loadDhPub kp fs p hex with priv := some k, privPem := freadBuf c }
      | none => loadDhPeer cfg fs p' hex (loadDhPub kp fs p hex) := by
  simp only [loadDh, hh, Bool.true_eq_false, if_false]
  rfl

/-- The end of `load_dh`: the box is dropped when it has no key, and otherwise stored with its
id and a key. -/
theorem loadDhPeer_cases (fs : FS) (p : Persona K P) {hex : String} {b : PKEYbox K}
    (hb : b.hex = hex) : (loadDhPeer cfg fs p hex b).2.keys.find hex = none ∨ ∃ b',
      (loadDhPeer cfg fs p hex b).2.keys.find hex = some b' ∧ b'.hex = hex ∧
        (b'.pub.isSome ∨ b'.priv.isSome) := by
  unfold loadDhPeer
  split_ifs with hn
  · simp
  · have hkey : b.pub.isSome ∨ b.priv.isSome := by
      cases hpub : b.pub <;> cases hpriv : b.priv <;> simp_all
    refine .inr ⟨_, by rw [KeyMap.find_insert, if_pos rfl], ?_, ?_⟩ <;>
      split <;> (try split_ifs) <;> first | exact hb | exact hkey

/-- A successful `load_dh` of a valid id leaves the id absent, or a box under it that has the
id and holds a public or a private key. -/
theorem loadDh_ok_cases (fs : FS) (p : Persona K P) {hex : String} (hh : cfg.isHexHash hex = true)
    (hok : (loadDh cfg kp fs p hex).1 = .ok ()) :
    (loadDh cfg kp fs p hex).2.keys.find hex = none ∨ ∃ b,
      (loadDh cfg kp fs p hex).2.keys.find hex = some b ∧ b.hex = hex ∧
        (b.pub.isSome ∨ b.priv.isSome) := by
  rw [loadDh_eq cfg kp fs p hh] at hok ⊢
  revert hok
  rcases fs.fopen (p.kexDir hex ++ ["dh.priv.pem"]) with _ | c
  · exact fun _ => loadDhPeer_cases cfg fs _ (loadDhPub_hex ..)
  dsimp only
  split_ifs
  · exact nofun
  rcases kp.readPrivateKey c with _ | k
  · exact nofun
  · exact fun _ => loadDhPeer_cases cfg fs _ (loadDhPub_hex ..)

/-- When `dh.priv.pem` of a valid kex id opens but is empty or does not parse, `load_dh` fails
with the box of the public half under the id, which has no private key, and no key at all when
`dh.pub.pem` is not usable either; `persona::load` of the directory keeps that box. -/
theorem loadDh_error_keeps_box (fs : FS) (p : Persona K P) {hex c : String}
    (valid : cfg.isHexHash hex = true) (opened : fs.fopen (p.kexDir hex ++ ["dh.priv.pem"]) = some c)
    (unusable : c.data.length = 0 ∨ kp.readPrivateKey c = none) :
    (∃ m, (loadDh cfg kp fs p hex).1 = .error m) ∧
      (loadDh cfg kp fs p hex).2.keys.find hex = some (loadDhPub kp fs p hex) ∧
      (loadDhPub kp fs p hex).hex = hex ∧ (loadDhPub kp fs p hex).priv = none ∧
      ((loadDhPub kp fs p hex).pub = none ↔ ∀ cp, fs.fopen (p.kexDir hex ++ ["dh.pub.pem"]) = some cp →
        cp.data.length = 0 ∨ kp.readPubkey cp = none) ∧
      ∀ q, (Persona.new p.cfgbase p.id "" : Persona K P).load cfg kp fs "" = (.ok (), q) →
        fs.get (p.dir ++ [hex]) = some .dir → q.keys.find hex = some (loadDhPub kp fs p hex) := by
  -- `load_dh` reads the same files for every persona record of the same base and id
  have core : ∀ p' : Persona K P, p'.cfgbase = p.cfgbase → p'.id = p.id →
      (∃ m, (loadDh cfg kp fs p' hex).1 = .error m) ∧
        (loadDh cfg kp fs p' hex).2.keys.find hex = some (loadDhPub kp fs p hex) := by
    intro p' hb hi
    have hc' : fs.fopen (p'.cfgbase ++ [p'.id, hex] ++ ["dh.priv.pem"]) = some c := by
      rw [hb, hi]
      exact opened
    have hpub : loadDhPub kp fs p' hex = loadDhPub kp fs p hex := by
      simp only [loadDhPub, kexDir, hb, hi]
    rw [loadDh_eq cfg kp fs p' valid, kexDir, hc', hpub]
    dsimp only
    have hfind : ({ p' with keys := p'.keys.insert hex (loadDhPub kp fs p hex) } : Persona K P).keys.find
        hex = some (loadDhPub kp fs p hex) := (KeyMap.find_insert _ _ _ _).trans (if_pos rfl)
    by_cases h0 : c.data.length = 0
    · rw [if_pos h0]
      exact ⟨⟨_, rfl⟩, hfind⟩
    · rw [if_neg h0, unusable.resolve_left h0]
      exact ⟨⟨_, rfl⟩, hfind⟩
  refine ⟨(core p rfl rfl).1, (core p rfl rfl).2, loadDhPub_hex .., loadDhPub_priv ..,
    loadDhPub_pub_eq_none .., fun q hq hdir => ?_⟩
  obtain ⟨hb, hi, -⟩ := load_pkey cfg kp fs (Persona.new p.cfgbase p.id "" : Persona K P) ""
  rw [hq] at hb hi
  obtain ⟨-, hqd, hkeys⟩ := (mirrors_iff cfg kp fs q).mp (mirrors_of_load cfg kp hq)
  dsimp only [Persona.new] at hb hi
  have hqdir : q.dir = p.dir := by simp only [dir, hb, hi]
  rw [hkeys, loadedKeys_find, if_pos ⟨hqd, valid, by rw [hqdir, hdir]; rfl⟩, kexRead]
  exact (core _ (by simp [Persona.new, hb]) (by simp [Persona.new, hi])).2

/-- The EC persona `0123456789abcdef` with one kex directory, which holds only a
`dh.priv.pem` the provider does not read. -/
def garbagePrivFs : FS := ⟨[
  (["ks", "0123456789abcdef", "9999999999999999", "dh.priv.pem"], .file "garbage"),
  (["ks", "0123456789abcdef", "9999999999999999"], .dir),
  (["ks", "0123456789abcdef", "ec.pub.pem"], .file (TestDouble.provider.writePubkey .ec)),
  (["ks", "0123456789abcdef"], .dir),
  (["ks"], .dir)]⟩

/-- `load_dh` fails and leaves a box with no key under the id, and `persona::load` of the
directory succeeds with that box in `keys`. -/
theorem loadDh_garbage_priv :
    TestDouble.config.isHexHash "9999999999999999" = true ∧
      garbagePrivFs.fopen (TestDouble.ecPersona.kexDir "9999999999999999" ++ ["dh.priv.pem"]) =
        some "garbage" ∧
      ("garbage".data.length = 0 ∨ TestDouble.provider.readPrivateKey "garbage" = none) ∧
      ((∃ m, (loadDh TestDouble.config TestDouble.provider garbagePrivFs TestDouble.ecPersona
          "9999999999999999").1 = .error m) ∧
        (loadDh TestDouble.config TestDouble.provider garbagePrivFs TestDouble.ecPersona
          "9999999999999999").2.keys.find "9999999999999999" =
            some (loadDhPub TestDouble.provider garbagePrivFs TestDouble.ecPersona "9999999999999999") ∧
        (loadDhPub TestDouble.provider garbagePrivFs TestDouble.ecPersona "9999999999999999").hex =
          "9999999999999999" ∧
        (loadDhPub TestDouble.provider garbagePrivFs TestDouble.ecPersona "9999999999999999").priv =
          none ∧
        ((loadDhPub TestDouble.provider garbagePrivFs TestDouble.ecPersona "9999999999999999").pub =
            none ↔ ∀ cp, garbagePrivFs.fopen (TestDouble.ecPersona.kexDir "9999999999999999" ++
              ["dh.pub.pem"]) = some cp → cp.data.length = 0 ∨ TestDouble.provider.readPubkey cp = none) ∧
        ∀ q, (Persona.new TestDouble.ecPersona.cfgbase TestDouble.ecPersona.id "" : Persona TestDouble.Key Nat).load
            TestDouble.config TestDouble.provider garbagePrivFs "" = (.ok (), q) →
          garbagePrivFs.get (TestDouble.ecPersona.dir ++ ["9999999999999999"]) = some .dir →
          q.keys.find "9999999999999999" =
            some (loadDhPub TestDouble.provider garbagePrivFs TestDouble.ecPersona "9999999999999999")) ∧
      loadDhPub TestDouble.provider garbagePrivFs TestDouble.ecPersona "9999999999999999" =
        ⟨none, none, "", "", "9999999999999999", ""⟩ ∧
      ((Persona.new ["ks"] "0123456789abcdef" "" : Persona TestDouble.Key Nat).load TestDouble.config
        TestDouble.provider garbagePrivFs "").1 = .ok () :=
  have hh : TestDouble.config.isHexHash "9999999999999999" = true := by decide
  have hc : garbagePrivFs.fopen (TestDouble.ecPersona.kexDir "9999999999999999" ++ ["dh.priv.pem"]) =
      some "garbage" := rfl
  have hbad : "garbage".data.length = 0 ∨ TestDouble.provider.readPrivateKey "garbage" = none :=
    .inr (by decide)
  ⟨hh, hc, hbad, loadDh_error_keeps_box TestDouble.config TestDouble.provider garbagePrivFs
    TestDouble.ecPersona hh hc hbad, rfl, rfl⟩

end Persona

end OpmsgKeystore
