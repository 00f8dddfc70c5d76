import OpmsgKeystore.KexId

/-!
# A published directory is complete

The staging discipline is there so that no reader ever sees a half-written directory: the
files go into a staging directory, and one `rename` gives it its final name. A reader in
another process sees the file system states of a run (`Prog.states`), one after each call.

`OnlyAtEnd q Q p` says that in a run of `p` that returns a value satisfying `Q`, the path `q`
exists in no state but the final one, which therefore holds every file the run wrote under
`q` with its final contents. `publish` (the `stat` and `rename` of the kex keys) satisfies it
(`publishesLast_publish`), and what comes before it in `gen_kex_key` and `add_dh_pubkey` never
touches the final name (`Prog.Before`), so both satisfy it (`genKexKey_publishes_last`,
`addDhPubkey_publishes_last`). So does `add_persona` when it writes no DH parameters and the
final name was free (`addPersona_publishes_last`): there the `rename` is the last call. It
checks no final name before its `rename`, which replaces an empty directory
(`addPersona_over_empty_dir`).
`add_persona` with DH parameters writes `dhparams.pem` into the directory after the `rename`
that published it (`addPersona_dhparams_after_publish`).
-/

namespace OpmsgKeystore

open Prog

section Visibility

variable {α : Type} {q : Path} {Q : α → Prop}

/-- In a run that returns a value satisfying `Q`, `q` exists in no state but the final one. -/
def OnlyAtEnd (q : Path) (Q : α → Prop) (p : Prog α) : Prop :=
  ∀ env fs, Q (p.run env fs).1 → ∀ t ∈ p.states env fs, (t.get q).isSome → t = (p.run env fs).2

/-- In a run that returns a value satisfying `Q`, `q` is missing at the start and exists in no
state but the final one. -/
def PublishesLast (q : Path) (Q : α → Prop) (p : Prog α) : Prop :=
  ∀ env fs, Q (p.run env fs).1 →
    fs.get q = none ∧ ∀ t ∈ p.states env fs, (t.get q).isSome → t = (p.run env fs).2

/-- A program that leaves `q` alone and fails until its publishing step, which publishes last,
shows `q` only at the end. -/
theorem onlyAtEnd_of_before {p : Prog α}
    (h : p.Before Call.publishing q (fun a => ¬ Q a) (PublishesLast q Q)) : OnlyAtEnd q Q p := by
  intro env fs hQ t ht hq
  rcases before_run h env fs with ⟨hn, -⟩ | ⟨p', s, pre, hR, hs, hrun, hst, hpre⟩
  · exact absurd hQ hn
  · rw [hrun] at hQ ⊢
    obtain ⟨hs0, hend⟩ := hR env s hQ
    rw [hst, List.mem_append] at ht
    rcases ht with ht | ht
    · rw [hpre t ht, ← hs, hs0] at hq
      exact absurd hq (by simp)
    · exact hend t ht hq

/-- From a state where `q` is missing, a run that returns a value satisfying `Q` has `q` in no
state but the final one. -/
def OnlyAtEndFrom (q : Path) (Q : α → Prop) (p : Prog α) : Prop :=
  ∀ env fs, fs.get q = none → Q (p.run env fs).1 →
    ∀ t ∈ p.states env fs, (t.get q).isSome → t = (p.run env fs).2

theorem onlyAtEndFrom_of_before {p : Prog α}
    (h : p.Before Call.publishing q (fun a => ¬ Q a) (OnlyAtEndFrom q Q)) :
    OnlyAtEndFrom q Q p := by
  intro env fs h0 hQ t ht hq
  rcases before_run h env fs with ⟨hn, -⟩ | ⟨p', s, pre, hR, hs, hrun, hst, hpre⟩
  · exact absurd hQ hn
  · rw [hrun] at hQ ⊢
    rw [hst, List.mem_append] at ht
    rcases ht with ht | ht
    · rw [hpre t ht, h0] at hq
      exact absurd hq (by simp)
    · exact hR env s (hs.trans h0) hQ t ht hq

theorem before_publish {R : Prog α → Prop} {tmpdir hexdir : Path} {onOk onFail : Prog α}
    (h : R (Persona.publish tmpdir hexdir onOk onFail)) :
    (Persona.publish tmpdir hexdir onOk onFail).Before Call.publishing q Q R :=
  .inl ⟨rfl, h⟩

/-- A successful `publish` finds the final name missing, and its `rename` is the last call. -/
theorem publishesLast_publish {tmpdir : Path} {a : α} {onFail : Prog α} (hq : q ≠ [])
    (hfail : onFail.Returns fun a => ¬ Q a) :
    PublishesLast q Q (Persona.publish tmpdir q (ret a) onFail) := by
  intro env fs hQ
  have hfail' := run_fst_of_returns hfail env
  simp only [Persona.publish, run_call, states, step_stat] at hQ ⊢
  cases hs : fs.statSize q with
  | some n =>
    simp only [hs, Reply.ok, Option.isSome_some, if_true] at hQ
    exact absurd hQ (hfail' _)
  | none =>
    have hnone : fs.get q = none := (statSize_eq_none_iff hq).mp hs
    simp only [hs, Reply.ok, Option.isSome_none, Bool.false_eq_true, if_false, run_call,
      states] at hQ ⊢
    refine ⟨hnone, ?_⟩
    split at hQ
    · rename_i hok
      simp only [hok, if_true, run_ret, states, List.mem_cons, List.mem_singleton] at hQ ⊢
      rintro t (rfl | rfl | rfl | h) ht
      · simp [hnone] at ht
      · simp [hnone] at ht
      · rfl
      · simp at h
    · exact absurd hQ (hfail' _)

end Visibility

variable {cfg : Config} {K P : Type} (kp : KeyProvider K P)

namespace Persona

theorem kexMaterial_isHexHash {md : Md cfg} {p : Persona K P} {seed : Nat}
    {pub priv hex : String} (h : kexMaterial cfg kp md p seed = .ok (pub, priv, hex)) :
    cfg.isHexHash hex = true := by
  unfold kexMaterial at h
  split_ifs at h
  · split at h
    · cases h
    · split at h
      · rename_i hn
        cases h
        exact normalizeAndHexhash_isHexHash hn
      · cases h
  · unfold genDhKey at h
    split at h
    · cases h
    · split at h
      · cases h
      · split at h
        · cases h
        · rename_i hh
          cases h
          exact bn2hexhash_isHexHash hh

theorem dhPubkeyId_isHexHash {md : Md cfg} {pem : String} {k : K} {hex : String}
    (h : (dhPubkeyId cfg kp md pem).1 = .ok (k, hex)) : cfg.isHexHash hex = true := by
  unfold dhPubkeyId at h
  split at h
  · cases h
  · split at h
    · split at h
      · cases h
      · rename_i hh
        cases h
        exact bn2hexhash_isHexHash hh
    · split at h
      · cases h
      · rename_i hn
        cases h
        exact normalizeAndHexhash_isHexHash hn
    · cases h

/-- In a run of `gen_kex_key` that returns a box `b`, the kex directory of `b` exists in no
state but the final one. -/
theorem genKexKey_publishes_last (md : Md cfg) (p : Persona K P) (peer : String) (seed : Nat)
    (tv : Timeval) (pid : Nat) (b : PKEYbox K) :
    OnlyAtEnd (p.kexDir b.hex) (·.1 = .ok b) (p.genKexKey cfg kp md peer seed tv pid) := by
  intro env fs hb
  unfold genKexKey at hb ⊢
  rcases hm : kexMaterial cfg kp md p seed with m | ⟨pub, priv, hex⟩
  · simp [hm] at hb
  have hne := ne_uniqueName (kexMaterial_isHexHash kp hm) tv pid
  rcases hf : p.keys.find hex with _ | b'
  · rcases hpk : kp.readPubkey pub with _ | kpub
    · simp [hm, hf, hpk] at hb
    rcases hsk : kp.readPrivateKey priv with _ | kpriv
    · simp [hm, hf, hpk, hsk] at hb
    simp only [hm, hf, hpk, hsk] at hb ⊢
    have hbhex : b.hex = hex :=
      run_fst_of_returns (?_ : Returns (fun r : Except String (PKEYbox K) × Persona K P =>
        ∀ b, r.1 = .ok b → b.hex = hex) _) env fs b hb
    swap
    · simp
    rw [hbhex]
    have hK : ∀ x, p.kexDir hex ≠ p.dir ++ [uniqueName tv pid] ++ x := fun x => by
      simp [kexDir, dir, hne]
    have herr : ∀ m, ¬ ∃ b', ((.error m : Except String (PKEYbox K)), p).1 = .ok b' := by simp
    refine @onlyAtEnd_of_before _ _ (fun r : Except String (PKEYbox K) × Persona K P =>
      ∃ b, r.1 = .ok b) _ ?_ env fs ⟨b, hb⟩
    refine before_check.mpr (.inr ⟨by simpa using hK [], herr _, before_check.mpr (.inr ⟨hK _,
      herr _, before_check.mpr (.inr ⟨nofun, herr _, before_fwrite (hK _) (herr _) fun _ => ?_⟩)⟩)⟩)
    refine before_check.mpr (.inr ⟨hK _, herr _, before_check.mpr (.inr ⟨nofun, herr _,
      before_fwrite (hK _) (herr _) fun _ => ?_⟩)⟩)
    exact (writePeer_before (hK _).symm).mpr (before_publish (publishesLast_publish (by simp [kexDir]) (by simp)))
  · simp only [hm, hf] at hb ⊢
    simp [states]

/-- In a run of `add_dh_pubkey` that returns a box `b`, the kex directory of `b` exists in no
state but the final one. -/
theorem addDhPubkey_publishes_last (md : Md cfg) (p : Persona K P) (pem : String) (tv : Timeval)
    (pid : Nat) (b : PKEYbox K) :
    OnlyAtEnd (p.kexDir b.hex) (·.1 = .ok b) (p.addDhPubkey cfg kp md pem tv pid) := by
  intro env fs hb
  unfold addDhPubkey at hb ⊢
  rcases hd : dhPubkeyId cfg kp md pem with ⟨_ | ⟨kpub, hex⟩, pem'⟩
  · simp [hd] at hb
  have hne := ne_uniqueName (dhPubkeyId_isHexHash kp (congrArg Prod.fst hd)) tv pid
  rcases hf : p.keys.find hex with _ | b'
  · simp only [hd, hf] at hb ⊢
    have hbhex : b.hex = hex :=
      run_fst_of_returns (?_ : Returns (fun r : Except String (PKEYbox K) × Persona K P × String =>
        ∀ b, r.1 = .ok b → b.hex = hex) _) env fs b hb
    swap
    · simp
    rw [hbhex]
    have hK : ∀ x, p.kexDir hex ≠ p.dir ++ [uniqueName tv pid] ++ x := fun x => by
      simp [kexDir, dir, hne]
    have herr : ∀ m, ¬ ∃ b', ((.error m : Except String (PKEYbox K)), p, pem').1 = .ok b' := by simp
    refine @onlyAtEnd_of_before _ _ (fun r : Except String (PKEYbox K) × Persona K P × String =>
      ∃ b, r.1 = .ok b) _ ?_ env fs ⟨b, hb⟩
    refine before_check.mpr (.inr ⟨by simpa using hK [], herr _, before_check.mpr (.inr ⟨hK _,
      herr _, before_check.mpr (.inr ⟨nofun, herr _, before_fwrite (hK _) (herr _) fun _ => ?_⟩)⟩)⟩)
    exact before_publish (publishesLast_publish (by simp [kexDir]) (by simp))
  · simp only [hd, hf] at hb ⊢
    simp [states]

end Persona

/-! ## `add_persona` -/

namespace Keystore

/-- `add_persona` returned a persona for which it wrote no DH parameters: none were asked for,
or the persona is EC. -/
def OkWithoutDh (dhparamsPem : String) (r : Except String (Persona K P) × Keystore cfg K P) :
    Prop :=
  ∃ p, r.1 = .ok p ∧ (dhparamsPem.data.length = 0 ∨ p.ptype = .ec)

theorem addPersonaFinish_ptype (ks : Keystore cfg K P) (hex : String)
    (r : Except String (DHbox P) × Persona K P) :
    (addPersonaFinish ks hex r).Returns fun x => ∀ p, x.1 = .ok p → p.ptype = r.2.ptype := by
  obtain ⟨_ | _, q⟩ := r <;> simp [addPersonaFinish]

variable (ks : Keystore cfg K P) (tmpdir : Path) (hex name pubPem privPem dhparamsPem : String)
  (seed : Nat)

/-- The `rename` of `add_persona` is its last call when it writes no DH parameters. -/
theorem addPersonaPublish_onlyAtEndFrom (kpub kpriv : Option K) (type1 : PType) :
    OnlyAtEndFrom (ks.cfgbase ++ [hex]) (OkWithoutDh dhparamsPem)
      (addPersonaPublish kp ks tmpdir hex name pubPem privPem dhparamsPem seed kpub kpriv type1) := by
  intro env fs h0 hQ
  unfold addPersonaPublish at hQ ⊢
  simp only [run_call, states] at hQ ⊢
  by_cases hok : ((Call.rename tmpdir (ks.cfgbase ++ [hex])).step env fs).1.ok
  · simp only [hok, not_true_eq_false, ↓reduceIte] at hQ ⊢
    by_cases hcond : dhparamsPem.data.length > 0 ∧ type1 = .rsa
    · exfalso
      rw [if_pos hcond] at hQ
      have hdh : ∀ r : Except String (DHbox P) × Persona K P, r.2.ptype = type1 →
          (addPersonaFinish ks hex r).Returns fun x => ¬ OkWithoutDh dhparamsPem x := by
        intro r hr
        refine returns_mono (addPersonaFinish_ptype ks hex r) fun x hx ⟨p, hp, hd⟩ => ?_
        have := (hx p hp).trans hr
        rcases hd with hd | hd
        · omega
        · rw [this] at hd
          exact absurd (hcond.2.symm.trans hd) (by decide)
      split at hQ
      · exact run_fst_of_returns (returns_bind (Persona.newDhParams_keepsKey kp _ _)
          fun r h => hdh r h.1) env _ hQ
      · exact run_fst_of_returns (returns_bind (Persona.newDhParamsPem_keepsKey kp _ _)
          fun r h => hdh r h.1) env _ hQ
    · rw [if_neg hcond]
      simp only [run_ret, states, List.mem_cons, List.mem_singleton]
      rintro t (rfl | rfl | h) ht
      · simp [h0] at ht
      · rfl
      · simp at h
  · simp [hok, OkWithoutDh, seq] at hQ

/-- In a run of `add_persona` from a state where `<base>/<hex>` is free, that returns a persona
for which it wrote no DH parameters, `<base>/<hex>` exists in no state but the final one. -/
theorem addPersona_publishes_last (cPubPem : String) (tv : Timeval) (pid : Nat)
    (hn : (normalizeAndHexhash ks.md cPubPem).2 = some hex) :
    OnlyAtEndFrom (ks.cfgbase ++ [hex]) (OkWithoutDh dhparamsPem)
      (ks.addPersona kp name cPubPem privPem dhparamsPem seed tv pid) := by
  intro env fs hfree hok
  obtain ⟨pubPem, hnorm⟩ : ∃ pubPem, normalizeAndHexhash ks.md cPubPem = (pubPem, some hex) :=
    ⟨_, Prod.ext rfl hn⟩
  have hne := ne_uniqueName (normalizeAndHexhash_isHexHash hnorm) tv pid
  have hq : ∀ x, ks.cfgbase ++ [hex] ≠ ks.cfgbase ++ [uniqueName tv pid] ++ [x] := by simp
  unfold addPersona at hok ⊢
  simp only [hnorm] at hok ⊢
  refine onlyAtEndFrom_of_before (before_check.mpr (.inr ⟨by simp [Call.touches, hne],
    by simp [OkWithoutDh], writeName_before _ hq (by simp [OkWithoutDh]) (by simp [OkWithoutDh])
      (addPersonaKeys_before kp ks _ hq (by simp [OkWithoutDh]) hex name pubPem privPem dhparamsPem
        seed fun kpub kpriv type1 => addPersonaPublish_onlyAtEndFrom kp ks _ hex name pubPem
          privPem dhparamsPem seed kpub kpriv type1)⟩)) env fs hfree hok

end Keystore

/-- A reader never sees a published directory before its last file is in place: in every run
of `gen_kex_key` or `add_dh_pubkey` that returns a box, and in every run of `add_persona` that
returns a persona without writing DH parameters into a final name that was free, the
directory the run publishes exists in no state but the final one. -/
theorem published_dir_complete :
    (∀ (md : Md cfg) (p : Persona K P) (peer : String) (seed : Nat) (tv : Timeval) (pid : Nat)
      (b : PKEYbox K),
      OnlyAtEnd (p.kexDir b.hex) (·.1 = .ok b) (p.genKexKey cfg kp md peer seed tv pid)) ∧
    (∀ (md : Md cfg) (p : Persona K P) (pem : String) (tv : Timeval) (pid : Nat) (b : PKEYbox K),
      OnlyAtEnd (p.kexDir b.hex) (·.1 = .ok b) (p.addDhPubkey cfg kp md pem tv pid)) ∧
    (∀ (ks : Keystore cfg K P) (name cPubPem privPem dhparamsPem : String) (seed : Nat)
      (tv : Timeval) (pid : Nat) (hex : String),
      (normalizeAndHexhash ks.md cPubPem).2 = some hex →
      OnlyAtEndFrom (ks.cfgbase ++ [hex]) (Keystore.OkWithoutDh dhparamsPem)
        (ks.addPersona kp name cPubPem privPem dhparamsPem seed tv pid)) :=
  ⟨Persona.genKexKey_publishes_last kp, Persona.addDhPubkey_publishes_last kp,
    fun ks name cPubPem privPem dhparamsPem seed tv pid hex =>
      Keystore.addPersona_publishes_last kp ks hex name privPem dhparamsPem seed cPubPem tv pid⟩

section TestRuns

open TestDouble

/-- The kex key of `ecPersona`, the imported EC key, and the EC persona of `addEc` are each
published complete. -/
theorem published_dir_complete_ec :
    ((ecPersona.genKexKey config provider md "" 0 ⟨1, 2⟩ 7).run Env.none withPersona).1.1 =
        .ok ecKexBox ∧
      OnlyAtEnd (ecPersona.kexDir ecKexBox.hex) (·.1 = .ok ecKexBox)
        (ecPersona.genKexKey config provider md "" 0 ⟨1, 2⟩ 7) ∧
      ((ecPersona.addDhPubkey config provider md (provider.writePubkey .ec) ⟨1, 2⟩ 7).run
        Env.none withPersona).1.1 = .ok ecImportBox ∧
      OnlyAtEnd (ecPersona.kexDir ecImportBox.hex) (·.1 = .ok ecImportBox)
        (ecPersona.addDhPubkey config provider md (provider.writePubkey .ec) ⟨1, 2⟩ 7) ∧
      (normalizeAndHexhash keystore.md (provider.writePubkey .ec)).2 = some "9999999999999999" ∧
      OnlyAtEndFrom (keystore.cfgbase ++ ["9999999999999999"]) (Keystore.OkWithoutDh "") addEc :=
  have hn : (normalizeAndHexhash keystore.md (provider.writePubkey .ec)).2 =
      some "9999999999999999" := by decide
  ⟨rfl, (published_dir_complete provider).1 md ecPersona "" 0 ⟨1, 2⟩ 7 ecKexBox, rfl,
    (published_dir_complete provider).2.1 md ecPersona _ ⟨1, 2⟩ 7 ecImportBox, hn,
    (published_dir_complete provider).2.2 keystore "" _ "" "" 0 ⟨1, 2⟩ 7 _ hn⟩

/-- A base directory in which `<base>/<hex>` of the EC key is already an empty directory. -/
def ecDirTaken : FS := ⟨[(["ks", "9999999999999999"], .dir), (["ks"], .dir)]⟩

/-- The final name must be free: `rename` replaces an empty directory, so `add_persona` of the
EC key over an empty `<base>/<hex>` returns the persona, and a state of its run has
`<base>/<hex>` without the public key file the run ends with. -/
theorem addPersona_over_empty_dir :
    (∃ p, (addEc.run Env.none ecDirTaken).1.1 = .ok p) ∧
      ∃ t ∈ addEc.states Env.none ecDirTaken, (t.get ["ks", "9999999999999999"]).isSome ∧
        t.get ["ks", "9999999999999999", "ec.pub.pem"] ≠
          (addEc.run Env.none ecDirTaken).2.get ["ks", "9999999999999999", "ec.pub.pem"] :=
  ⟨⟨_, rfl⟩, by decide⟩

/-- `add_persona` of an RSA persona with new DH parameters succeeds, and a state of its run has
the persona directory without the `dhparams.pem` it ends with. -/
theorem addPersona_dhparams_after_publish :
    (∃ p, (addRsaDh.run Env.none baseOnly).1.1 = .ok p) ∧
      ∃ t ∈ addRsaDh.states Env.none baseOnly, (t.get ["ks", "9999999999999999"]).isSome ∧
        t.get ["ks", "9999999999999999", "dhparams.pem"] ≠
          (addRsaDh.run Env.none baseOnly).2.get ["ks", "9999999999999999", "dhparams.pem"] :=
  ⟨⟨_, rfl⟩, by decide⟩

end TestRuns

end OpmsgKeystore
