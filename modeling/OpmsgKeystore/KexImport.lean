import OpmsgKeystore.LoadDh

/-!
# Kex keys handed back: `persona::add_dh_pubkey` and `persona::gen_kex_key`

Both calls compute the id of the key first, and when a box is stored under that id they
return it as it is. `del_dh_pub` and `del_dh_priv` keep the box in `keys` and only drop one
of its halves, so after them the box handed back can lack the very key the call was asked
to store.

Results:
* `kexBox_of_reachable`: in every state reachable from `add_persona` or `persona::load`, a box
  either call returns carries the id of the key; it is the box stored under that id before, or
  a new box that holds the public key (and, from `gen_kex_key`, the private key).
  `addDhPubkey_after_delDhPub` is a reachable state in which the box returned has no public
  key.
* `addDhPubkey_twice`: a second `add_dh_pubkey` on the string the first call left returns the
  same box, repeats a parse error, and fails again on an id whose directory exists; it then
  leaves the directory as it was unless one of its own calls fails after its `mkdir`
  (`addDhPubkey_error_keeps_staging`).
-/

namespace OpmsgKeystore

open Prog

section Before

variable {α : Type} {stop : Call → Bool} {q : Path} {Q : α → Prop} {R : Prog α → Prop}

/-- A program that returns only values satisfying `Q` up to its first call satisfying `stop`,
where it is a program that returns only such values, returns only such values. -/
theorem returns_of_before {p : Prog α} (h : p.Before stop q Q R)
    (hR : ∀ p', R p' → p'.Returns Q) : p.Returns Q := by
  induction p with
  | ret a => exact h
  | call c k ih =>
    rcases h with ⟨-, hr⟩ | ⟨-, hk⟩
    · exact hR _ hr
    · exact fun r => ih r (hk r)

end Before

variable {cfg : Config} {K P : Type} (kp : KeyProvider K P)

namespace Persona

variable (p : Persona K P)

/-! ## What a call returns -/

/-- Every result of `add_dh_pubkey`: an error leaves the persona alone; a box comes with the
id `h` of the key, and is the box stored under `h` before, or a new box holding the public
key, which the persona now stores under `h`. -/
theorem addDhPubkey_returns (md : Md cfg) (pem : String) (tv : Timeval) (pid : Nat) :
    (p.addDhPubkey cfg kp md pem tv pid).Returns fun r =>
      (∀ m, r.1 = .error m → r.2.1 = p) ∧ ∀ b, r.1 = .ok b →
        ∃ k h, dhPubkeyId cfg kp md pem = (.ok (k, h), r.2.2) ∧
          (p.keys.find h = some b ∧ r.2.1 = p ∨
            p.keys.find h = none ∧ b = ⟨some k, none, r.2.2, "", h, ""⟩ ∧
              0 < r.2.2.data.length ∧ r.2.1 = { p with keys := p.keys.insert h b }) := by
  unfold addDhPubkey
  split
  · exact ⟨fun _ _ => rfl, fun _ => nofun⟩
  rename_i k h pem' hid
  split
  · rename_i b hb
    exact ⟨fun _ => nofun, fun b' hb' => ⟨k, h, hid, .inl ⟨Except.ok.inj hb' ▸ hb, rfl⟩⟩⟩
  · rename_i hb
    refine returns_check.mpr ⟨⟨fun _ _ => rfl, nofun⟩, returns_check.mpr ⟨⟨fun _ _ => rfl, nofun⟩,
      returns_check.mpr ⟨⟨fun _ _ => rfl, nofun⟩,
        returns_fwrite ⟨fun _ _ => rfl, nofun⟩ fun hpos _ => ?_⟩⟩⟩
    simp only [returns_publish, returns_seq, returns_ret, reduceCtorEq, false_implies, implies_true,
      and_true, true_and, Except.ok.injEq, forall_eq']
    exact ⟨k, h, hid, .inr ⟨hb, rfl, hpos, rfl⟩⟩

/-- Every result of `gen_kex_key`: an error leaves the persona alone; a box comes with the
key material of id `h`, and is the box stored under `h` before, or a new box holding both
keys parsed from that material, which the persona now stores under `h`. -/
theorem genKexKey_returns (md : Md cfg) (peer : String) (seed : Nat) (tv : Timeval) (pid : Nat) :
    (p.genKexKey cfg kp md peer seed tv pid).Returns fun r =>
      (∀ m, r.1 = .error m → r.2 = p) ∧ ∀ b, r.1 = .ok b →
        ∃ pub priv h, kexMaterial cfg kp md p seed = .ok (pub, priv, h) ∧
          (p.keys.find h = some b ∧ r.2 = p ∨
            p.keys.find h = none ∧ (∃ kpub kpriv, kp.readPubkey pub = some kpub ∧
              kp.readPrivateKey priv = some kpriv ∧ b = ⟨some kpub, some kpriv, pub, priv, h, peer⟩) ∧
              0 < pub.data.length ∧ 0 < priv.data.length ∧
              r.2 = { p with keys := p.keys.insert h b }) := by
  unfold genKexKey
  split
  · exact ⟨fun _ _ => rfl, fun _ => nofun⟩
  rename_i pub priv h hmat
  split
  · rename_i b hb
    exact ⟨fun _ => nofun, fun b' hb' => ⟨pub, priv, h, hmat, .inl ⟨Except.ok.inj hb' ▸ hb, rfl⟩⟩⟩
  rename_i hb
  split
  · exact ⟨fun _ _ => rfl, fun _ => nofun⟩
  rename_i kpub hkpub
  split
  · exact ⟨fun _ _ => rfl, fun _ => nofun⟩
  rename_i kpriv hkpriv
  refine returns_check.mpr ⟨⟨fun _ _ => rfl, nofun⟩, returns_check.mpr ⟨⟨fun _ _ => rfl, nofun⟩,
    returns_check.mpr ⟨⟨fun _ _ => rfl, nofun⟩, returns_fwrite ⟨fun _ _ => rfl, nofun⟩ fun hpub _ =>
      returns_check.mpr ⟨⟨fun _ _ => rfl, nofun⟩, returns_check.mpr ⟨⟨fun _ _ => rfl, nofun⟩,
        returns_fwrite ⟨fun _ _ => rfl, nofun⟩ fun hpriv _ => ?_⟩⟩⟩⟩⟩
  simp only [returns_publish, returns_seq, returns_ret, returns_writePeer, reduceCtorEq,
    false_implies, implies_true, and_true, true_and, Except.ok.injEq, forall_eq']
  exact ⟨pub, priv, h, hmat, .inr ⟨hb, ⟨kpub, kpriv, hkpub, hkpriv, rfl⟩, hpub, hpriv, rfl⟩⟩

/-! ## Calls that leave the kex keys alone -/

/-- `q` has the kex keys, the base and the id of `p`: all of a persona that `load_keys` and
the kex-key calls look at. -/
def KeepsKex (q : Persona K P) : Prop := q.keys = p.keys ∧ q.cfgbase = p.cfgbase ∧ q.id = p.id

@[simp] theorem keepsKex_refl : p.KeepsKex p := ⟨rfl, rfl, rfl⟩

@[simp] theorem keepsKex_dhParams (d : Option (DHbox P)) : p.KeepsKex { p with dhParams := d } :=
  ⟨rfl, rfl, rfl⟩

theorem link_keepsKex (hex : String) : (p.link cfg hex).Returns (p.KeepsKex ·.2) := by
  unfold link
  split_ifs
  · exact p.keepsKex_refl
  · intro r
    dsimp only
    split <;> simp

theorem newDhParams_keepsKex (seed : Nat) : (p.newDhParams kp seed).Returns (p.KeepsKex ·.2) := by
  unfold newDhParams
  split
  · exact p.keepsKex_refl
  · refine returns_check.mpr ⟨p.keepsKex_refl, returns_check.mpr ⟨p.keepsKex_refl,
      returns_streamWrite p.keepsKex_refl fun _ => returns_rewindRead fun d => ?_⟩⟩
    split <;> simp

theorem newDhParamsPem_keepsKex (pem : String) :
    (p.newDhParamsPem kp pem).Returns (p.KeepsKex ·.2) := by
  unfold newDhParamsPem
  refine returns_check.mpr ⟨p.keepsKex_refl, returns_check.mpr ⟨p.keepsKex_refl,
    returns_fwrite_of p.keepsKex_refl fun _ => returns_rewindRead fun d => ?_⟩⟩
  split <;> simp

/-! ## Every box under its own id -/

/-- Every box of `keys` carries the id it is stored under. -/
def HexKeyed : Prop := ∀ h b, p.keys.find h = some b → b.hex = h

variable {p}

theorem HexKeyed.of_keys {q : Persona K P} (hp : p.HexKeyed) (hq : q.keys = p.keys) :
    q.HexKeyed :=
  fun h b hb => hp h b (hq ▸ hb)

theorem HexKeyed.insert (hp : p.HexKeyed) {h : String} {b : PKEYbox K} (hb : b.hex = h) :
    HexKeyed { p with keys := p.keys.insert h b } := by
  intro x b' hx
  simp only [KeyMap.find_insert] at hx
  split_ifs at hx with e
  · cases hx
    exact e ▸ hb
  · exact hp x b' hx

theorem HexKeyed.erase (hp : p.HexKeyed) (h : String) : HexKeyed { p with keys := p.keys.erase h } := by
  intro x b hx
  simp only [KeyMap.find_erase] at hx
  split_ifs at hx
  exact hp x b hx

@[simp] theorem hexKeyed_dhParams (d : Option (DHbox P)) :
    HexKeyed { p with dhParams := d } ↔ p.HexKeyed := Iff.rfl

theorem HexKeyed.loadDhPeer (hp : p.HexKeyed) (fs : FS) {hex : String} {b : PKEYbox K}
    (hb : b.hex = hex) : (Persona.loadDhPeer cfg fs p hex b).2.HexKeyed := by
  unfold Persona.loadDhPeer
  split_ifs
  · exact hp.erase hex
  · exact hp.insert (by split <;> (try split_ifs) <;> exact hb)

/-- `load_dh` of a valid id stores only a box that carries the id, whatever it returns. -/
theorem HexKeyed.loadDh (hp : p.HexKeyed) (fs : FS) {hex : String}
    (hh : cfg.isHexHash hex = true) : (Persona.loadDh cfg kp fs p hex).2.HexKeyed := by
  rw [loadDh_eq cfg kp fs p hh]
  have hpub := hp.insert (loadDhPub_hex kp fs p hex)
  rcases fs.fopen (p.kexDir hex ++ ["dh.priv.pem"]) with _ | c
  · exact hpub.loadDhPeer fs (loadDhPub_hex ..)
  dsimp only
  split_ifs
  · exact hpub
  rcases kp.readPrivateKey c with _ | k
  · exact hpub
  · exact hpub.loadDhPeer fs (loadDhPub_hex ..)

/-- `load_keys` of the whole directory keeps every box under its own id. -/
theorem HexKeyed.loadKex (hp : p.HexKeyed) (fs : FS) :
    (Persona.loadKex cfg kp fs p "").2.HexKeyed := by
  have hfold : ∀ (l : List String) (q : Persona K P), q.HexKeyed → (l.foldl
      (fun q hex => if cfg.isHexHash hex then (Persona.loadDh cfg kp fs q hex).2 else q) q).HexKeyed := by
    intro l
    induction l with
    | nil => exact fun _ hq => hq
    | cons x l ih =>
      intro q hq
      refine ih _ ?_
      dsimp only
      split_ifs with hx
      exacts [hq.loadDh kp fs hx, hq]
  have h0 : ¬ ("" : String).data.length > 0 := lt_irrefl 0
  unfold Persona.loadKex
  rw [if_neg h0]
  split_ifs
  exacts [hfold _ p hp, hp]

/-- A persona `persona::load("")` rebuilds keeps every box under its own id. -/
theorem hexKeyed_of_load {fs : FS} {base : Path} {hex : String} {q : Persona K P}
    (h : (Persona.new base hex "" : Persona K P).load cfg kp fs "" = (.ok (), q)) : q.HexKeyed := by
  rw [load_eq_loadHead] at h
  obtain ⟨-, -, hkeys⟩ := loadHead_snd cfg kp fs (Persona.new base hex "" : Persona K P) ""
  split at h
  · rename_i q1 hq1
    have hq1 : q1.HexKeyed := fun y b hb => by
      rw [hq1] at hkeys
      rw [hkeys] at hb
      cases hb
    have hk : (Persona.loadKex cfg kp fs q1 "").2.HexKeyed := hq1.loadKex kp fs
    rwa [h] at hk
  · rename_i hne
    exact (hne q h).elim

variable (hp : p.HexKeyed)
include hp

theorem genKexKey_hexKeyed (md : Md cfg) (peer : String) (seed : Nat) (tv : Timeval) (pid : Nat) :
    (p.genKexKey cfg kp md peer seed tv pid).Returns (HexKeyed ·.2) :=
  returns_mono (p.genKexKey_returns kp md peer seed tv pid) fun r ⟨herr, hok⟩ => by
    rcases hr : r.1 with m | b
    · exact herr m hr ▸ hp
    · obtain ⟨_, _, _, -, ⟨-, he⟩ | ⟨-, ⟨_, _, -, -, rfl⟩, -, -, he⟩⟩ := hok b hr
      · exact he ▸ hp
      · exact he ▸ hp.insert rfl

theorem addDhPubkey_hexKeyed (md : Md cfg) (pem : String) (tv : Timeval) (pid : Nat) :
    (p.addDhPubkey cfg kp md pem tv pid).Returns (HexKeyed ·.2.1) :=
  returns_mono (p.addDhPubkey_returns kp md pem tv pid) fun r ⟨herr, hok⟩ => by
    rcases hr : r.1 with m | b
    · exact herr m hr ▸ hp
    · obtain ⟨_, _, -, ⟨-, he⟩ | ⟨-, rfl, -, he⟩⟩ := hok b hr
      · exact he ▸ hp
      · exact he ▸ hp.insert rfl

theorem delDhId_hexKeyed (hex : String) : (p.delDhId cfg hex).Returns (HexKeyed ·.2) := by
  unfold delDhId
  split_ifs
  · exact hp
  · exact hp
  · exact fun _ => hp.erase hex

theorem delDhPriv_hexKeyed (hex : String) : (p.delDhPriv cfg hex).Returns (HexKeyed ·.2) := by
  unfold delDhPriv
  split_ifs
  · exact hp
  · exact hp
  · simp only [returns_call]
    intro r
    split
    · exact hp
    · simp only [returns_check, returns_shred, returns_seq, returns_ret]
      refine ⟨hp, ?_⟩
      split
      · rename_i b hb
        exact hp.insert (hp hex b hb)
      · exact hp

theorem delDhPub_hexKeyed (hex : String) : (p.delDhPub cfg hex).Returns (HexKeyed ·.2) := by
  unfold delDhPub
  split_ifs
  · exact hp
  · exact hp
  · simp only [returns_seq, returns_ret]
    split
    · rename_i b hb
      exact hp.insert (hp hex b hb)
    · exact hp

theorem link_hexKeyed (hex : String) : (p.link cfg hex).Returns (HexKeyed ·.2) :=
  returns_mono (p.link_keepsKex hex) fun _ h => hp.of_keys h.1

theorem newDhParams_hexKeyed (seed : Nat) : (p.newDhParams kp seed).Returns (HexKeyed ·.2) :=
  returns_mono (p.newDhParams_keepsKex kp seed) fun _ h => hp.of_keys h.1

theorem newDhParamsPem_hexKeyed (pem : String) : (p.newDhParamsPem kp pem).Returns (HexKeyed ·.2) :=
  returns_mono (p.newDhParamsPem_keepsKex kp pem) fun _ h => hp.of_keys h.1

end Persona

namespace PersonaOp

/-- Every operation keeps every box under its own id. -/
theorem prog_hexKeyed (o : PersonaOp cfg) {p : Persona K P} (hp : p.HexKeyed) :
    (o.prog kp p).Returns Persona.HexKeyed := by
  cases o with
  | genKexKey md peer seed tv pid =>
    exact returns_bind (p.genKexKey_hexKeyed kp hp md peer seed tv pid) fun _ => id
  | addDhPubkey md pem tv pid => exact returns_bind (p.addDhPubkey_hexKeyed kp hp md pem tv pid) fun _ => id
  | delDhId hex => exact returns_bind (p.delDhId_hexKeyed hp hex) fun _ => id
  | delDhPriv hex => exact returns_bind (p.delDhPriv_hexKeyed hp hex) fun _ => id
  | delDhPub hex => exact returns_bind (p.delDhPub_hexKeyed hp hex) fun _ => id
  | usedKey hex u => exact returns_bind (returns_const trivial _) fun _ _ => hp
  | link hex => exact returns_bind (p.link_hexKeyed hp hex) fun _ => id
  | newDhParams seed => exact returns_bind (p.newDhParams_hexKeyed kp hp seed) fun _ => id
  | newDhParamsPem pem => exact returns_bind (p.newDhParamsPem_hexKeyed kp hp pem) fun _ => id

end PersonaOp

namespace Keystore

/-- Every persona in the result keeps every box under its own id. -/
def OkHexKeyed (r : Except String (Persona K P) × Keystore cfg K P) : Prop :=
  ∀ p, r.1 = .ok p → p.HexKeyed

variable (ks : Keystore cfg K P) (tmpdir : Path) (hex name pubPem privPem dhparamsPem : String)
  (seed : Nat)

/-- Every persona in the result has no kex keys. -/
def OkNoKex (r : Except String (Persona K P) × Keystore cfg K P) : Prop :=
  ∀ p, r.1 = .ok p → p.keys = .empty

theorem addPersonaPublish_noKex (kpub kpriv : Option K) (type1 : PType) :
    (addPersonaPublish kp ks tmpdir hex name pubPem privPem dhparamsPem seed kpub kpriv
      type1).Returns OkNoKex := by
  unfold addPersonaPublish
  simp only [returns_call]
  intro r
  split
  · simp [OkNoKex]
  · have hfin : ∀ q : Except String (DHbox P) × Persona K P, q.2.keys = .empty →
        (addPersonaFinish ks hex q).Returns OkNoKex := by
      rintro ⟨_ | _, q⟩ (hq : q.keys = _) <;> simp [addPersonaFinish, OkNoKex, hq]
    split
    · split
      · exact returns_bind (Persona.newDhParams_keepsKex kp _ seed) fun q h => hfin q h.1
      · exact returns_bind (Persona.newDhParamsPem_keepsKex kp _ _) fun q h => hfin q h.1
    · simp [OkNoKex, Persona.new]

/-- A persona `add_persona` returns has no kex keys. -/
theorem addPersona_noKex (cPubPem : String) (tv : Timeval) (pid : Nat) :
    (ks.addPersona kp name cPubPem privPem dhparamsPem seed tv pid).Returns OkNoKex := by
  unfold addPersona
  split
  · simp [OkNoKex]
  · rename_i pubPem hex hn
    have hq : ∀ x, ks.cfgbase ++ [uniqueName tv pid] ≠ ks.cfgbase ++ [uniqueName tv pid] ++ [x] :=
      fun x => append_singleton_ne _ x
    refine returns_check.mpr ⟨by simp [OkNoKex], returns_of_before (R := (·.Returns OkNoKex))
      (writeName_before _ hq (by simp [OkNoKex]) (by simp [OkNoKex])
        (addPersonaKeys_before kp ks _ hq (by simp [OkNoKex]) hex name pubPem privPem dhparamsPem
          seed fun kpub kpriv type1 => addPersonaPublish_noKex kp ks _ hex name pubPem privPem
            dhparamsPem seed kpub kpriv type1)) fun _ => id⟩

/-- A persona `add_persona` returns keeps every box under its own id: it has none. -/
theorem addPersona_hexKeyed (cPubPem : String) (tv : Timeval) (pid : Nat) :
    (ks.addPersona kp name cPubPem privPem dhparamsPem seed tv pid).Returns OkHexKeyed :=
  returns_mono (addPersona_noKex kp ks name privPem dhparamsPem seed cPubPem tv pid)
    fun _ h p hp x b hb => by rw [h p hp, KeyMap.find_empty] at hb; cases hb

end Keystore

/-- In every reachable state every box is stored under its own id. -/
theorem hexKeyed_of_reachable {a : Admits cfg K P} {s : Persona K P × FS} (h : Reachable kp a s) :
    s.1.HexKeyed := by
  induction h with
  | loaded base hex _ h => exact Persona.hexKeyed_of_load kp h
  | added ks env fs name cPubPem privPem dhparamsPem seed tv pid p _ h =>
    exact run_fst_of_returns (Keystore.addPersona_hexKeyed kp ks name privPem dhparamsPem seed
      cPubPem tv pid) env fs p h
  | step o env _ _ ih => exact run_fst_of_returns (o.prog_hexKeyed kp ih) env _

/-- In every reachable state, a box `add_dh_pubkey` returns carries the id of the key it was
given, and is the box stored under that id before or a new box holding the key with its
non-empty PEM; a box `gen_kex_key` returns carries the id of the key material, and is the box
stored under that id before or a new box holding both keys. -/
theorem kexBox_of_reachable {a : Admits cfg K P} {s : Persona K P × FS} (reach : Reachable kp a s)
    (env : Env) :
    (∀ md pem tv pid b, ((s.1.addDhPubkey cfg kp md pem tv pid).run env s.2).1.1 = .ok b →
      ∃ k h, (Persona.dhPubkeyId cfg kp md pem).1 = .ok (k, h) ∧ b.hex = h ∧
        (s.1.keys.find h = some b ∨
          s.1.keys.find h = none ∧ b.pub = some k ∧ 0 < b.pubPem.data.length)) ∧
    (∀ md peer seed tv pid b, ((s.1.genKexKey cfg kp md peer seed tv pid).run env s.2).1.1 = .ok b →
      ∃ pub priv h, Persona.kexMaterial cfg kp md s.1 seed = .ok (pub, priv, h) ∧ b.hex = h ∧
        (s.1.keys.find h = some b ∨ s.1.keys.find h = none ∧ b.pub.isSome ∧ b.priv.isSome ∧
          0 < b.pubPem.data.length)) := by
  have hk := hexKeyed_of_reachable kp reach
  refine ⟨fun md pem tv pid b hb => ?_, fun md peer seed tv pid b hb => ?_⟩
  · obtain ⟨k, h, hid, ⟨hf, -⟩ | ⟨hf, rfl, hpos, -⟩⟩ :=
      (run_fst_of_returns (s.1.addDhPubkey_returns kp md pem tv pid) env s.2).2 b hb
    · exact ⟨k, h, congrArg Prod.fst hid, hk h b hf, .inl hf⟩
    · exact ⟨k, h, congrArg Prod.fst hid, rfl, .inr ⟨hf, rfl, hpos⟩⟩
  · obtain ⟨pub, priv, h, hmat, ⟨hf, -⟩ | ⟨hf, ⟨kpub, kpriv, -, -, rfl⟩, hpos, -, -⟩⟩ :=
      (run_fst_of_returns (s.1.genKexKey_returns kp md peer seed tv pid) env s.2).2 b hb
    · exact ⟨pub, priv, h, hmat, hk h b hf, .inl hf⟩
    · exact ⟨pub, priv, h, hmat, rfl, .inr ⟨hf, rfl, rfl, hpos⟩⟩

/-! ## `add_dh_pubkey` twice -/

/-- The provider reads the canonical text of a PEM it parses as the same key. For
`PEM_read_bio_PUBKEY` the canonical text is the first PEM block itself, with what stood
around it cut off. -/
def KeyProvider.ReadsNormalized (md : Md cfg) : Prop :=
  ∀ pem k pem' h, kp.readPubkey pem = some k → normalizeAndHexhash md pem = (pem', some h) →
    kp.readPubkey pem' = some k

/-- With no failing call, a call does what the file system state lets it do. -/
theorem step_none (c : Call) (fs : FS) : c.step Env.none fs = c.exec fs := by
  simp [Call.step, Env.none]

theorem statSize_isSome {fs : FS} {p : Path} (h : (fs.get p).isSome) : (fs.statSize p).isSome := by
  unfold FS.statSize
  split_ifs
  · rfl
  · split <;> simp_all

/-- A program that up to its publishing step returns only values satisfying `Q`, and whose
clean-up path does too, returns such a value from a state in which the final name is taken. -/
theorem run_of_before_publish {α : Type} {Q : α → Prop} {p : Prog α} {hexdir : Path}
    (h : p.Before Call.publishing hexdir Q fun p' => ∃ tmpdir onOk onFail,
      p' = Persona.publish tmpdir hexdir onOk onFail ∧ onFail.Returns Q)
    {fs : FS} (hdir : (fs.get hexdir).isSome) (env : Env) : Q (p.run env fs).1 := by
  rcases before_run h env fs with ⟨hQ, -⟩ | ⟨p', s, pre, ⟨tmpdir, onOk, onFail, rfl, hfail⟩, hs, hrun, -, -⟩
  · exact hQ
  · rw [← hs] at hdir
    simp only [hrun, Persona.publish, run_call, step_stat, Reply.ok, statSize_isSome hdir, if_true]
    exact run_fst_of_returns hfail env s

namespace Persona

variable {md : Md cfg} {pem pem' h : String} {k : K}

/-- The id step of `add_dh_pubkey` on the string it left computes the same key and id. -/
theorem dhPubkeyId_again (hread : kp.ReadsNormalized md)
    (hid : dhPubkeyId cfg kp md pem = (.ok (k, h), pem')) :
    dhPubkeyId cfg kp md pem' = (.ok (k, h), pem') := by
  unfold dhPubkeyId at hid
  split at hid
  · cases hid
  rename_i k' hk
  split at hid
  · split at hid
    · cases hid
    · obtain ⟨⟨⟩, rfl⟩ := Prod.mk.inj hid
      simp only [dhPubkeyId, hk, *]
  · split at hid
    · cases hid
    · rename_i hn
      obtain ⟨⟨⟩, rfl⟩ := Prod.mk.inj hid
      simp only [dhPubkeyId, hread _ _ _ _ hk hn, normalizeAndHexhash_idem hn, *]
  · cases hid

/-- `add_dh_pubkey` of a PEM whose id step fails makes no call. -/
theorem addDhPubkey_of_error (p : Persona K P) {m : String} (tv : Timeval) (pid : Nat)
    (hid : dhPubkeyId cfg kp md pem = (.error m, pem')) :
    p.addDhPubkey cfg kp md pem tv pid = ret (.error m, p, pem') := by
  simp only [addDhPubkey, hid]

/-- `add_dh_pubkey` of a key whose id is in `keys` makes no call and returns the stored box. -/
theorem addDhPubkey_of_find {p : Persona K P} {b : PKEYbox K} (tv : Timeval) (pid : Nat)
    (hid : dhPubkeyId cfg kp md pem = (.ok (k, h), pem')) (hb : p.keys.find h = some b) :
    p.addDhPubkey cfg kp md pem tv pid = ret (.ok b, p, pem') := by
  simp only [addDhPubkey, hid, hb]

/-- A kex directory is neither a staging directory of the persona nor below one. -/
theorem kexDir_ne_staging (p : Persona K P) (hh : cfg.isHexHash h = true) (tv : Timeval)
    (pid : Nat) (x : Path) : p.kexDir h ≠ p.dir ++ [uniqueName tv pid] ++ x := by
  simp [kexDir, dir, ne_uniqueName hh tv pid]

variable (p : Persona K P) (tv : Timeval) (pid : Nat)
  (hid : dhPubkeyId cfg kp md pem = (.ok (k, h), pem')) (hnone : p.keys.find h = none)
  {fs : FS} (hdir : (fs.get (p.kexDir h)).isSome)
include hid hnone hdir

/-- `add_dh_pubkey` of a key not in `keys` whose directory exists fails, in every
environment, and leaves the persona alone. -/
theorem addDhPubkey_conflict_fails (env : Env) :
    ∃ m, ((p.addDhPubkey cfg kp md pem tv pid).run env fs).1 = (.error m, p, pem') := by
  have hK := kexDir_ne_staging p (dhPubkeyId_isHexHash kp (congrArg Prod.fst hid)) tv pid
  unfold addDhPubkey
  simp only [hid, hnone]
  refine run_of_before_publish (Q := fun r : Except String (PKEYbox K) × Persona K P × String =>
    ∃ m, r = (.error m, p, pem')) ?_ hdir env
  refine before_check.mpr (.inr ⟨by simpa using hK [], ⟨_, rfl⟩, before_check.mpr (.inr ⟨hK _,
    ⟨_, rfl⟩, before_check.mpr (.inr ⟨nofun, ⟨_, rfl⟩, ?_⟩)⟩)⟩)
  exact before_fwrite (hK _) ⟨_, rfl⟩ fun _ => before_publish ⟨_, _, _, rfl, fun _ _ => ⟨_, rfl⟩⟩

/-- Run without a failing call from a tree, `add_dh_pubkey` of a key not in `keys` whose
directory exists removes its staging directory again and leaves every path as it was. -/
theorem addDhPubkey_conflict_restores (htree : fs.Tree) (hpos : 0 < pem'.data.length) (q : Path) :
    ((p.addDhPubkey cfg kp md pem tv pid).run Env.none fs).2.get q = fs.get q := by
  have hK := kexDir_ne_staging p (dhPubkeyId_isHexHash kp (congrArg Prod.fst hid)) tv pid
  unfold addDhPubkey
  simp only [hid, hnone]
  set S := p.dir ++ [uniqueName tv pid]
  by_cases hm : fs.get S = none ∧ S ≠ [] ∧ fs.isDir S.dropLast
  · set F := S ++ ["dh.pub.pem"] with hFdef
    have hF : fs.get F = none := htree.get_append_eq_none hm.2.1 hm.1 _
    have hbelow : ¬ fs.HasBelow S := htree.not_hasBelow hm.2.1 (by simp [hm.1])
    have hFS : F ≠ S := by simp [hFdef]
    set fs1 := fs.set S .dir
    set fs2 := fs1.set F (.file "")
    set fs3 := fs2.set F (.file ("" ++ pem'))
    set fs4 := fs3.remove F
    have h1 : (Call.mkdir S).step Env.none fs = (.status true, fs1) := by
      rw [step_none, Call.exec, if_pos hm]
    have h2 : (Call.openExcl F).step Env.none fs1 = (.status true, fs2) := by
      rw [step_none, Call.exec, if_pos ⟨by simp [fs1, FS.get_set, hFS, hF], by simp [hFdef],
        .inr (by simp [fs1, FS.get_set, hFdef, List.dropLast_concat])⟩]
    have h3 : (Call.fdopen F).step Env.none fs2 = (.status true, fs2) := by
      rw [step_none, Call.exec]
    have h4 : fs2.get F = some (.file "") := FS.get_set_self _ _ _
    have h5 : (Call.unlink F).step Env.none fs3 = (.status true, fs4) := by
      simp [step_none, Call.exec, fs3, FS.get_set, fs4]
    have hsz : (fs3.statSize (p.kexDir h)).isSome := statSize_isSome (by
      simpa [fs3, fs2, fs1, FS.get_set, by simpa using hK [], hK ["dh.pub.pem"]] using hdir)
    have hb4 : ¬ fs4.HasBelow S := by
      rw [FS.hasBelow_iff]
      rintro ⟨x, hx, hxS, hsome⟩
      by_cases hxF : x = F
      · simp [fs4, hxF] at hsome
      · refine hbelow ((FS.hasBelow_iff fs S).mpr ⟨x, hx, hxS, ?_⟩)
        simpa [fs4, fs3, fs2, fs1, FS.get_set, hxF, hxS] using hsome
    have h6 : (Call.rmdir S).step Env.none fs4 = (.status true, fs4.remove S) := by
      rw [step_none, Call.exec, if_pos ⟨by simp [fs4, fs3, fs2, fs1, FS.get_set, hFS.symm], hb4⟩]
    simp only [check, run_call, h1, h2, h3, Reply.ok, if_true]
    rw [run_fwrite (fun _ _ => rfl) h4 hpos]
    simp only [Persona.publish, seq, run_call, run_ret, h5, h6, step_stat, Reply.ok, if_true, hsz]
    simp only [fs4, fs3, fs2, fs1, FS.get_set, FS.get_remove]
    by_cases hqS : q = S
    · rw [if_pos hqS, hqS, hm.1]
    · by_cases hqF : q = F
      · rw [if_neg hqS, if_pos hqF, hqF, hF]
      · simp only [if_neg hqS, if_neg hqF]
  · simp only [check, run_call, step_none, Call.exec, if_neg hm, Reply.ok, Bool.false_eq_true,
      if_false, run_ret]

end Persona

/-- `add_dh_pubkey(md, s)` twice, the second time on `s` as the first call left it: when the
first call returns a box, the second returns the same box and changes nothing; a PEM that does
not parse fails twice the same way with nothing changed; a key not in `keys` whose directory
exists fails twice with the persona unchanged, and a second call in which no call fails leaves
every path as the first call left it. -/
theorem addDhPubkey_twice (p : Persona K P) (md : Md cfg) (pem : String) (tv : Timeval)
    (pid : Nat) (tv' : Timeval) (pid' : Nat) (env env' : Env) (fs : FS)
    (normalizedReads : kp.ReadsNormalized md) :
    let r₁ := (p.addDhPubkey cfg kp md pem tv pid).run env fs
    let r₂ := (r₁.1.2.1.addDhPubkey cfg kp md r₁.1.2.2 tv' pid').run env' r₁.2
    (∀ b, r₁.1.1 = .ok b → r₂ = ((.ok b, r₁.1.2.1, r₁.1.2.2), r₁.2)) ∧
    (kp.readPubkey pem = none → ∃ m, r₁ = ((.error m, p, pem), fs) ∧ r₂ = r₁) ∧
    (fs.Tree → kp.readPubkey "" = none → ∀ k h pem',
      Persona.dhPubkeyId cfg kp md pem = (.ok (k, h), pem') → p.keys.find h = none →
      (fs.get (p.kexDir h)).isSome →
      (∃ m, r₁.1 = (.error m, p, pem')) ∧ (∃ m, r₂.1 = (.error m, p, pem')) ∧
      (env' = Env.none → ∀ q, r₂.2.get q = r₁.2.get q)) := by
  intro r₁ r₂
  refine ⟨fun b hb => ?_, fun hparse => ?_, fun htree hempty k h pem' hid hnone hdir => ?_⟩
  · obtain ⟨k, h, hid, hcase⟩ :=
      (run_fst_of_returns (p.addDhPubkey_returns kp md pem tv pid) env fs).2 b hb
    have hfind : r₁.1.2.1.keys.find h = some b := by
      rcases hcase with ⟨hf, he⟩ | ⟨-, -, -, he⟩
      · rw [he, hf]
      · rw [he]
        simp
    show (r₁.1.2.1.addDhPubkey cfg kp md r₁.1.2.2 tv' pid').run env' r₁.2 = _
    rw [Persona.addDhPubkey_of_find kp tv' pid' (Persona.dhPubkeyId_again kp normalizedReads hid) hfind]
    rfl
  · have hid : Persona.dhPubkeyId cfg kp md pem =
        (.error "add_dh_pubkey::PEM_read_bio_PUBKEY: Error reading PEM key", pem) := by
      simp [Persona.dhPubkeyId, hparse]
    have h₁ : r₁ = ((.error "add_dh_pubkey::PEM_read_bio_PUBKEY: Error reading PEM key", p, pem), fs) := by
      simp only [r₁, Persona.addDhPubkey_of_error kp p tv pid hid, run_ret]
    refine ⟨_, h₁, ?_⟩
    simp only [r₂, h₁, Persona.addDhPubkey_of_error kp p tv' pid' hid, run_ret]
  · obtain ⟨m, hm⟩ := Persona.addDhPubkey_conflict_fails kp p tv pid hid hnone hdir env
    have hne := ne_uniqueName (Persona.dhPubkeyId_isHexHash kp (congrArg Prod.fst hid)) tv pid
    have hout : FS.SameOutside (p.dir ++ [uniqueName tv pid]) fs r₁.2 := by
      rcases Persona.addDhPubkey_cases kp htree (show (p.addDhPubkey cfg kp md pem tv pid).run env fs =
          ((r₁.1.1, r₁.1.2.1, r₁.1.2.2), r₁.2) from rfl) with ⟨-, hs⟩ | ⟨kpub, hex, pem'', hid', -, hp', -⟩
      · exact hs
      · rw [hid] at hid'
        obtain ⟨⟨⟩, -⟩ := Prod.mk.inj hid'
        have hkeys := congrArg (fun q : Persona K P => q.keys.find h) (hp'.symm.trans (congrArg (·.2.1) hm))
        simp [hnone] at hkeys
    have hdir' : (r₁.2.get (p.kexDir h)).isSome := by
      rw [hout _ (not_prefix_of_sibling hne (by rw [Persona.kexDir_eq]))]
      exact hdir
    have hid₂ := Persona.dhPubkeyId_again kp normalizedReads hid
    have hr₂ : r₂ = (p.addDhPubkey cfg kp md pem' tv' pid').run env' r₁.2 := by
      simp only [r₂, show r₁.1 = _ from hm]
    refine ⟨⟨m, hm⟩, hr₂ ▸ Persona.addDhPubkey_conflict_fails kp p tv' pid' hid₂ hnone hdir' env',
      fun hnf q => ?_⟩
    rw [hr₂, hnf]
    exact Persona.addDhPubkey_conflict_restores kp p tv' pid' hid₂ hnone hdir' (run_tree env _ htree)
      (Persona.dhPubkeyId_pem_pos kp hempty hid₂) q

/-- The test double reads only its three canonical texts, each its own normal form. -/
theorem readsNormalized_testDouble : TestDouble.provider.ReadsNormalized TestDouble.md := by
  intro pem k pem' h hk hn
  have hpem : TestDouble.provider.writePubkey k = pem := by
    simpa using List.find?_some hk
  rw [← hpem, KeyProvider.writePubkey_canonical] at hn
  obtain ⟨rfl, -⟩ := Prod.mk.inj hn
  rwa [hpem]

/-- `add_dh_pubkey` of the EC key twice on `ecPersona`, after a first call that stores it. -/
theorem addDhPubkey_twice_ec :
    TestDouble.provider.ReadsNormalized TestDouble.md ∧
    let r₁ := (TestDouble.ecPersona.addDhPubkey TestDouble.config TestDouble.provider TestDouble.md
      (TestDouble.provider.writePubkey .ec) ⟨1, 2⟩ 7).run Env.none TestDouble.withPersona
    let r₂ := (r₁.1.2.1.addDhPubkey TestDouble.config TestDouble.provider TestDouble.md r₁.1.2.2
      ⟨1, 2⟩ 8).run Env.none r₁.2
    (∀ b, r₁.1.1 = .ok b → r₂ = ((.ok b, r₁.1.2.1, r₁.1.2.2), r₁.2)) ∧
    (TestDouble.provider.readPubkey (TestDouble.provider.writePubkey .ec) = none →
      ∃ m, r₁ = ((.error m, TestDouble.ecPersona, TestDouble.provider.writePubkey .ec),
        TestDouble.withPersona) ∧ r₂ = r₁) ∧
    (TestDouble.withPersona.Tree → TestDouble.provider.readPubkey "" = none → ∀ k h pem',
      Persona.dhPubkeyId TestDouble.config TestDouble.provider TestDouble.md
        (TestDouble.provider.writePubkey .ec) = (.ok (k, h), pem') →
      TestDouble.ecPersona.keys.find h = none →
      (TestDouble.withPersona.get (TestDouble.ecPersona.kexDir h)).isSome →
      (∃ m, r₁.1 = (.error m, TestDouble.ecPersona, pem')) ∧
      (∃ m, r₂.1 = (.error m, TestDouble.ecPersona, pem')) ∧
      (Env.none = Env.none → ∀ q, r₂.2.get q = r₁.2.get q)) :=
  ⟨readsNormalized_testDouble, addDhPubkey_twice TestDouble.provider TestDouble.ecPersona
    TestDouble.md _ ⟨1, 2⟩ 7 ⟨1, 2⟩ 8 Env.none Env.none TestDouble.withPersona
    readsNormalized_testDouble⟩

/-- The boxes handed back in the state `add_persona` of the EC key leaves. -/
theorem kexBox_of_reachable_ec :
    Reachable TestDouble.provider (Admits.any : Admits TestDouble.config _ _)
      (TestDouble.ecAdded, (TestDouble.addEc.run Env.none TestDouble.baseOnly).2) ∧
    (∀ md pem tv pid b, ((TestDouble.ecAdded.addDhPubkey TestDouble.config TestDouble.provider md
        pem tv pid).run Env.none (TestDouble.addEc.run Env.none TestDouble.baseOnly).2).1.1 = .ok b →
      ∃ k h, (Persona.dhPubkeyId TestDouble.config TestDouble.provider md pem).1 = .ok (k, h) ∧
        b.hex = h ∧ (TestDouble.ecAdded.keys.find h = some b ∨
          TestDouble.ecAdded.keys.find h = none ∧ b.pub = some k ∧ 0 < b.pubPem.data.length)) ∧
    (∀ md peer seed tv pid b, ((TestDouble.ecAdded.genKexKey TestDouble.config TestDouble.provider
        md peer seed tv pid).run Env.none (TestDouble.addEc.run Env.none TestDouble.baseOnly).2).1.1 =
          .ok b →
      ∃ pub priv h, Persona.kexMaterial TestDouble.config TestDouble.provider md TestDouble.ecAdded
          seed = .ok (pub, priv, h) ∧ b.hex = h ∧
        (TestDouble.ecAdded.keys.find h = some b ∨ TestDouble.ecAdded.keys.find h = none ∧
          b.pub.isSome ∧ b.priv.isSome ∧ 0 < b.pubPem.data.length)) :=
  have hs : Reachable TestDouble.provider (Admits.any : Admits TestDouble.config _ _)
      (TestDouble.ecAdded, (TestDouble.addEc.run Env.none TestDouble.baseOnly).2) :=
    .added TestDouble.keystore Env.none TestDouble.baseOnly "" _ "" "" 0 ⟨1, 2⟩ 7 _ trivial rfl
  ⟨hs, kexBox_of_reachable TestDouble.provider hs Env.none⟩

/-- The EC persona `add_persona` returns, after `add_dh_pubkey` of its own public key. -/
def ecImported : Persona TestDouble.Key Nat × FS :=
  ((PersonaOp.addDhPubkey TestDouble.md (TestDouble.provider.writePubkey .ec) ⟨1, 2⟩ 8 :
    PersonaOp TestDouble.config).prog TestDouble.provider TestDouble.ecAdded).run
      Env.none (TestDouble.addEc.run Env.none TestDouble.baseOnly).2

/-- Then `del_dh_pub` of that key's id. -/
def ecPubDropped : Persona TestDouble.Key Nat × FS :=
  ((PersonaOp.delDhPub "9999999999999999" : PersonaOp TestDouble.config).prog TestDouble.provider
    ecImported.1).run Env.none ecImported.2

/-- A second `add_dh_pubkey` of that key returns the box `del_dh_pub` emptied, with no public
key. -/
theorem addDhPubkey_after_delDhPub :
    Reachable TestDouble.provider (Admits.any : Admits TestDouble.config _ _) ecPubDropped ∧
    ((ecPubDropped.1.addDhPubkey TestDouble.config TestDouble.provider TestDouble.md
      (TestDouble.provider.writePubkey .ec) ⟨1, 2⟩ 9).run Env.none ecPubDropped.2).1.1 =
        .ok ⟨none, none, "", "", "9999999999999999", ""⟩ := by
  refine ⟨.step _ _ (.step _ _ (.added TestDouble.keystore Env.none TestDouble.baseOnly "" _ "" ""
    0 ⟨1, 2⟩ 7 _ trivial rfl) trivial) trivial, ?_⟩
  have hkeys : ecPubDropped.1.keys = ecImported.1.keys.insert "9999999999999999"
      ⟨none, none, "", "", "9999999999999999", ""⟩ := rfl
  have hfind : ecPubDropped.1.keys.find "9999999999999999" =
      some ⟨none, none, "", "", "9999999999999999", ""⟩ := by
    rw [hkeys, KeyMap.find_insert, if_pos rfl]
  have hid : Persona.dhPubkeyId TestDouble.config TestDouble.provider TestDouble.md
      (TestDouble.provider.writePubkey .ec) =
        (.ok (.ec, "9999999999999999"), TestDouble.provider.writePubkey .ec) := rfl
  rw [Persona.addDhPubkey_of_find TestDouble.provider ⟨1, 2⟩ 9 hid hfind]
  rfl

end OpmsgKeystore
