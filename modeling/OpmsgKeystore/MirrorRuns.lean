import OpmsgKeystore.KexImport

/-!
# The kex keys over runs of persona calls

The spec says that a persona that `persona::load` or `keystore::add_persona` returned, after
any sequence of `gen_kex_key`, `add_dh_pubkey`, `del_dh_id`, `del_dh_priv`, `del_dh_pub`,
`used_key`, `link` and `new_dh_params`, equals what `persona::load` rebuilds from its
directory. It does not (`mirror_broken`). `link` writes `srclink` and leaves `link_src` as it
was, so a reload has a link the persona does not. `del_dh_pub` of an imported key leaves a box
with neither half in `keys`, and `load_dh` drops such a box. The creating calls write their key
files through a `FILE` stream and drop what the flush returns, so when the flush fails they
publish an empty key file and store the box all the same.

What holds is the agreement of the kex keys (`KeysMirror`, from `Mirror`):
* `PersonaOp.keysMirror_prog`: one call keeps it, from a tree, for every call but the three
  deleting ones, when it is admitted by `KeepsMirror`: the creating calls run where no write
  fails, the key texts `load_dh` reads back fit its 8192-byte reads, the provider reads an
  imported EC key back from its normalised text, and a non-empty peer of `gen_kex_key` is a
  valid id whose file the environment lets it open; the other calls in any environment.
* `keysMirror_of_reachable`: it holds in every state of a run that `mirrorAdmits` admits:
  from a persona that `persona::load("")` rebuilt, or that `add_persona` returned when no
  write failed, by such calls; and a successful reload of the directory has exactly the
  persona's kex keys.
-/

namespace OpmsgKeystore

open Prog FS

variable {cfg : Config} {K P : Type} (kp : KeyProvider K P)

namespace Persona

variable {p q : Persona K P} {fs : FS}

/-- The paths `load_keys` reads for `p`: its directory, the entry of each valid kex id, and
the key files in that entry. -/
def KexPath (cfg : Config) (p : Persona K P) (r : Path) : Prop :=
  r = p.dir ∨ ∃ y, cfg.isHexHash y = true ∧ (r = p.dir ++ [y] ∨ ∃ x ∈ kexFiles, r = p.dir ++ [y, x])

/-- A file of the persona directory is not read by `load_keys`. -/
theorem KexPath.ne_file {r : Path} (hr : KexPath cfg p r) {x : String} (hx : x ∈ headFiles) :
    r ≠ p.dir ++ [x] := by
  rcases hr with rfl | ⟨y, hy, rfl | ⟨z, -, rfl⟩⟩
  · simp
  · intro e
    rw [List.append_cancel_left_eq, List.singleton_inj] at e
    rw [e, headFiles_not_hex cfg hx] at hy
    cases hy
  · simp

/-- A file of a kex directory other than the key files is not read by `load_keys`. -/
theorem KexPath.ne_kexFile {r : Path} (hr : KexPath cfg p r) {x : String} (hx : x ∉ kexFiles)
    (y : String) : r ≠ p.dir ++ [y, x] := by
  rcases hr with rfl | ⟨z, -, rfl | ⟨w, hw, rfl⟩⟩
  · simp
  · simp
  · intro e
    simp only [List.append_cancel_left_eq, List.cons.injEq, and_true] at e
    exact hx (e.2 ▸ hw)

/-- What `load_keys` reads for a persona depends on its base and id only. -/
theorem loadedKeys_find_of_keepsKex (h : p.KeepsKex q) (fs : FS) (y : String) :
    (loadedKeys cfg kp fs q).find y = (loadedKeys cfg kp fs p).find y := by
  simp only [loadedKeys_find, kexRead, dir, h.2.1, h.2.2]

/-- A program that touches no path `load_keys` reads for `p`, and returns a persona with the
kex keys, base and id of `p`, keeps the kex keys mirrored. -/
theorem KeysMirror.of_avoids {α : Type} {prog : Prog α} (hm : KeysMirror cfg kp fs p)
    (hq : p.KeepsKex q) (hav : ∀ r, KexPath cfg p r → prog.Avoids r) (env : Env) :
    KeysMirror cfg kp (prog.run env fs).2 q := by
  intro y
  rw [hq.1, hm y, loadedKeys_find_of_keepsKex kp hq]
  by_cases hy : cfg.isHexHash y = true
  · have hget : ∀ r, KexPath cfg p r → (prog.run env fs).2.get r = fs.get r :=
      fun r hr => run_get_of_avoids (hav r hr) env fs
    exact (loadedKeys_find_congr cfg kp (hget _ (.inl rfl)) (hget _ (.inr ⟨y, hy, .inl rfl⟩))
      fun x hx => hget _ (.inr ⟨y, hy, .inr ⟨x, hx, rfl⟩⟩)).symm
  · simp only [Bool.not_eq_true] at hy
    rw [loadedKeys_find_of_not_hex cfg kp _ _ hy, loadedKeys_find_of_not_hex cfg kp _ _ hy]

theorem usedKey_avoids {r : Path} (hr : KexPath cfg p r) (hex : String) (u : Bool) :
    (p.usedKey cfg hex u).Avoids r := by
  have hne := hr.ne_kexFile (x := "used") (by simp [kexFiles]) hex
  unfold usedKey
  split_ifs <;> simp [Call.touches, kexDir_eq, hne]

theorem link_avoids {r : Path} (hr : KexPath cfg p r) (hex : String) :
    (p.link cfg hex).Avoids r := by
  have hne := hr.ne_file (x := "srclink") (by simp [headFiles])
  unfold link
  split_ifs
  · trivial
  · exact ⟨hne, fun _ => by dsimp only; split <;> simp [Call.touches, hne]⟩

/-- A persona `persona::load("")` rebuilds from a directory has the kex keys `load_keys`
reads there. -/
theorem load_find {fs : FS} {q : Persona K P}
    (h : (Persona.new p.cfgbase p.id "" : Persona K P).load cfg kp fs "" = (.ok (), q)) (y : String) :
    q.keys.find y = (loadedKeys cfg kp fs p).find y := by
  obtain ⟨hb, hi, hk⟩ := loadHead_snd cfg kp fs (Persona.new p.cfgbase p.id "" : Persona K P) ""
  rw [load_eq_loadHead] at h
  generalize loadHead cfg kp fs (Persona.new p.cfgbase p.id "") "" = r at h hb hi hk
  rcases r with ⟨_ | ⟨⟩, m⟩
  · cases h
  dsimp only [Persona.new] at h hb hi hk
  have hdir : m.dir = p.dir := by simp only [Persona.dir, hb, hi]
  have hq : q = (loadKex cfg kp fs m "").2 := by rw [h]
  rw [hq, loadKex_find, loadedKeys_find, hdir]
  simp only [hk, kexRead, hb, hi, KeyMap.find_empty]

/-- A persona that `persona::load("")` rebuilds mirrors the kex keys of its directory. -/
theorem keysMirror_of_load {base : Path} {hex : String}
    (h : (Persona.new base hex "" : Persona K P).load cfg kp fs "" = (.ok (), q)) :
    KeysMirror cfg kp fs q :=
  ((mirrors_iff cfg kp fs q).1 (mirrors_of_load cfg kp h)).2.2

end Persona

namespace Keystore

/-- `add_persona` writes no entry with a valid kex id. -/
theorem addedFiles_of_hex {y : String} (hy : cfg.isHexHash y = true) (name : String) (t : PType)
    (pubPem privPem : String) (dh : Option String) : addedFiles name t pubPem privPem dh y = none := by
  have hne : ∀ x ∈ Persona.headFiles, y ≠ x := fun x hx e => by
    rw [e, Persona.headFiles_not_hex cfg hx] at hy
    cases hy
  have h1 := hne _ (Persona.pubFile_mem_headFiles t)
  have h2 := hne _ (Persona.privFile_mem_headFiles t)
  have h3 := hne "name" (by simp [Persona.headFiles])
  have h4 := hne "dhparams.pem" (by simp [Persona.headFiles])
  unfold addedFiles
  split_ifs <;> cases dh <;> simp [putFile_apply, h1, h2, h3, h4]

variable (ks : Keystore cfg K P) {env : Env} {fs : FS}

/-- A persona `add_persona` returned from a tree, with no write failing, mirrors the kex keys
of its new directory: it has none, and the directory has no kex entry. -/
theorem keysMirror_of_added (hw : env.WritesOk) (htree : fs.Tree) {name cPubPem privPem dhparamsPem : String}
    {seed : Nat} {tv : Timeval} {pid : Nat} {p : Persona K P}
    (h : ((ks.addPersona kp name cPubPem privPem dhparamsPem seed tv pid).run env fs).1.1 = .ok p) :
    Persona.KeysMirror cfg kp ((ks.addPersona kp name cPubPem privPem dhparamsPem seed tv pid).run
      env fs).2 p := by
  have hk : p.keys = .empty := run_fst_of_returns
    (addPersona_noKex kp ks name privPem dhparamsPem seed cPubPem tv pid) env fs p h
  rcases hrun : (ks.addPersona kp name cPubPem privPem dhparamsPem seed tv pid).run env fs with
    ⟨⟨r, ks'⟩, fs'⟩
  rw [hrun] at h
  obtain rfl : r = .ok p := h
  rcases addPersona_cases kp ks hw htree hrun with ⟨m, he, -⟩ | ⟨pubPem, hex, kpub, kpriv, type1,
    -, -, -, -, -, -, hfiles, ⟨m, he⟩ | ⟨p', he, hb, hid, -⟩⟩
  · cases he
  · cases he
  obtain ⟨⟨⟩, -⟩ := Prod.mk.inj he
  intro y
  rw [hk, KeyMap.find_empty, Persona.loadedKeys_find]
  split_ifs with hc
  · obtain ⟨-, hy, hs⟩ := hc
    have hd : y ≠ "dhparams.pem" := fun e => by
      rw [e, Persona.headFiles_not_hex cfg (by simp [Persona.headFiles])] at hy
      cases hy
    rw [Persona.dir, hb, hid, hfiles y hd, addedFiles_of_hex hy] at hs
    cases hs
  · rfl

end Keystore

namespace PersonaOp

/-- What a call needs to keep the kex keys mirrored when it runs on `p` in `env`.
`gen_kex_key` and `add_dh_pubkey`: no write fails, for the flush of a key file fails unseen and
would publish the file short while the box is stored. `gen_kex_key`: key texts that fit the
8192-byte reads of `load_dh`, and a peer that is empty or a valid id whose file the environment
lets it open. `add_dh_pubkey`: a provider that reads an EC key back from its normalised text,
and a stored text that fits the read. `used_key`, `link` and `new_dh_params` need nothing; the
deleting calls are not admitted. -/
def KeepsMirror (env : Env) (p : Persona K P) : PersonaOp cfg → Prop
  | genKexKey md peer seed tv pid =>
    (∀ pub priv hex, Persona.kexMaterial cfg kp md p seed = .ok (pub, priv, hex) →
      pub.length ≤ 8192 ∧ priv.length ≤ 8192) ∧ env.WritesOk ∧
    (peer = "" ∨ cfg.isHexHash peer = true ∧
      env (.openTrunc (p.dir ++ [uniqueName tv pid] ++ ["peer"])) = false)
  | addDhPubkey md pem _ _ =>
    kp.ReadsNormalized md ∧ env.WritesOk ∧
      ∀ r pem', Persona.dhPubkeyId cfg kp md pem = (.ok r, pem') → pem'.length ≤ 8192
  | delDhId _ | delDhPriv _ | delDhPub _ => False
  | usedKey _ _ | link _ | newDhParams _ | newDhParamsPem _ => True

/-- One call that `KeepsMirror` admits keeps the kex keys mirrored, from a tree and in any
environment, whether it succeeds or fails. -/
theorem keysMirror_prog {o : PersonaOp cfg} {env : Env} {p : Persona K P} {fs : FS}
    (hm : Persona.KeysMirror cfg kp fs p) (htree : fs.Tree) (ho : o.KeepsMirror kp env p) :
    Persona.KeysMirror cfg kp ((o.prog kp p).run env fs).2 ((o.prog kp p).run env fs).1 := by
  have hpath : ∀ x ∈ Persona.headFiles, ∀ r, Persona.KexPath cfg p r → r ≠ p.dir ++ [x] :=
    fun x hx r hr => hr.ne_file hx
  cases o with
  | genKexKey md peer seed tv pid =>
    obtain ⟨hlen, hw, hpeer⟩ := ho
    rw [prog, run_bind]
    have htree' := run_tree env (p.genKexKey cfg kp md peer seed tv pid) htree
    rcases hr : (p.genKexKey cfg kp md peer seed tv pid).run env fs with ⟨⟨r, p'⟩, fs'⟩
    rw [hr] at htree'
    rcases Persona.genKexKey_cases kp htree (hpeer.imp_right fun h => ⟨h.1, h.2, hw _ _⟩) hr with
      ⟨rfl, hs⟩ |
      ⟨pub, priv, hex, kpub, kpriv, hmat, hkpub, hkpriv, hpub, hpriv, rfl, hframe, c₁, c₂, hc, hd⟩
    · exact hm.of_sameOutside kp hs
    · have hh := Persona.kexMaterial_isHexHash kp hmat
      obtain ⟨hpl, hprl⟩ := hlen pub priv hex hmat
      obtain ⟨rfl, rfl⟩ := hc hw
      exact hm.publish kp htree' hh hframe hd.1 (Persona.kexRead_genKexKey kp hd hh hkpub hkpriv
        hpub hpriv hpl hprl (hpeer.imp_right (·.1)))
  | addDhPubkey md pem tv pid =>
    obtain ⟨hread, hw, hlen⟩ := ho
    rw [prog, run_bind]
    have htree' := run_tree env (p.addDhPubkey cfg kp md pem tv pid) htree
    rcases hr : (p.addDhPubkey cfg kp md pem tv pid).run env fs with ⟨⟨r, p', pem''⟩, fs'⟩
    rw [hr] at htree'
    rcases Persona.addDhPubkey_cases kp htree hr with ⟨rfl, hs⟩ |
      ⟨kpub, hex, pem', hid, hpos, rfl, hframe, c, hc, hd⟩
    · exact hm.of_sameOutside kp hs
    · obtain rfl := hc hw
      have hh := Persona.dhPubkeyId_isHexHash kp (congrArg Prod.fst hid)
      have hk := (Persona.dhPubkeyId_ok kp (Persona.dhPubkeyId_again kp hread hid)).1
      exact hm.publish kp htree' hh hframe hd.1
        (Persona.kexRead_addDhPubkey kp hd hh hk hpos (hlen _ _ hid))
  | delDhId _ | delDhPriv _ | delDhPub _ => exact ho.elim
  | usedKey hex u =>
    rw [prog, run_bind]
    exact hm.of_avoids kp p.keepsKex_refl (fun r hr => Persona.usedKey_avoids hr hex u) env
  | link hex =>
    rw [prog, run_bind]
    exact hm.of_avoids kp (run_fst_of_returns (p.link_keepsKex hex) env fs)
      (fun r hr => Persona.link_avoids hr hex) env
  | newDhParams seed =>
    rw [prog, run_bind]
    exact hm.of_avoids kp (run_fst_of_returns (p.newDhParams_keepsKex kp seed) env fs)
      (fun r hr => Persona.newDhParams_avoids kp (hpath _ (by simp [Persona.headFiles]) r hr) seed) env
  | newDhParamsPem pem =>
    rw [prog, run_bind]
    exact hm.of_avoids kp (run_fst_of_returns (p.newDhParamsPem_keepsKex kp pem) env fs)
      (fun r hr => Persona.newDhParamsPem_avoids kp (hpath _ (by simp [Persona.headFiles]) r hr) pem)
      env

end PersonaOp

variable (cfg) in
/-- The runs the kex-key mirror is stated for: a persona that `persona::load("")` rebuilt from
a tree, or one that `add_persona` returned from a tree with no write failing, then any calls
that `KeepsMirror` admits, each in its own environment. -/
def mirrorAdmits : Admits cfg K P :=
  ⟨fun fs _ => fs.Tree, fun env fs => env.WritesOk ∧ fs.Tree, fun env o p => o.KeepsMirror kp env p⟩

/-- Every such state is a tree whose persona mirrors its kex keys. -/
theorem keysMirror_tree_of_reachable {s : Persona K P × FS}
    (h : Reachable kp (mirrorAdmits cfg kp) s) : Persona.KeysMirror cfg kp s.2 s.1 ∧ s.2.Tree := by
  induction h with
  | loaded base hex htree h => exact ⟨Persona.keysMirror_of_load kp h, htree⟩
  | added ks env fs name cPubPem privPem dhparamsPem seed tv pid p hstart h =>
    exact ⟨Keystore.keysMirror_of_added kp ks hstart.1 hstart.2 h, run_tree _ _ hstart.2⟩
  | step o env _ ho ih => exact ⟨PersonaOp.keysMirror_prog kp ih.1 ih.2 ho, run_tree _ _ ih.2⟩

end OpmsgKeystore
