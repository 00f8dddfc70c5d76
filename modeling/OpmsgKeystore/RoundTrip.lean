import OpmsgKeystore.LoadMap
import OpmsgKeystore.Added

/-!
# Reloading what `add_persona` wrote

`keystore::load()` of the base directory after a successful `add_persona` rebuilds the persona
`add_persona` returned: the same id, name and type, the same public and private key texts, and
DH parameters exactly when it has them (`addPersona_load_roundtrip`). After `persona::link(h)`
a reload has `link_src = h`. This holds when no write fails, the file system is a tree, the
name is one line of at most 510 bytes without NUL, the key texts fit the 8192-byte buffer, and
the provider parses the DH parameters it writes: the reader takes only the first line of
`name`, reads each PEM with one `fread` into 8192 bytes, and never fills the PEM text of the
DH parameters it loads. A name with a newline in it reloads as its first line, and the DH
parameters reload without their PEM text (`addPersona_newline_reload`).

`reload_added` is the reading half: a directory holding the entries `add_persona` gives it,
with any `srclink`, loads back. `link_run` is what `link` writes.
-/

namespace OpmsgKeystore

open Prog FS

variable {cfg : Config} {K P : Type} (kp : KeyProvider K P)

/-- A directory holding the entries `add_persona` gives a persona, and any `srclink`, loads
back as that persona. -/
theorem reload_added {fs : FS} (md : Md cfg) {base : Path} {hex name pubPem privPem : String}
    {t : PType} {dh : Option String} {files : String → Option Node} (htree : fs.Tree)
    (hd : fs.DirHolds (base ++ [hex]) files)
    (hfiles : ∀ x, x ≠ "srclink" → files x = Keystore.addedFiles name t pubPem privPem dh x)
    (hhex : cfg.isHexHash hex = true) (ht : t = .rsa ∨ t = .ec)
    (hkpub : (kp.readPubkey pubPem).isSome) (hlen : 0 < pubPem.length)
    (hpubLen : pubPem.length ≤ 8192)
    (hkpriv : privPem.data.length > 0 → (kp.readPrivateKey privPem).isSome)
    (hprivLen : privPem.length ≤ 8192)
    (hdh : ∀ c, dh = some c → t = .rsa ∧ (kp.readDHparams c).isSome)
    (hname : '\n' ∉ name.data ∧ '\x00' ∉ name.data ∧ name.length ≤ 510) :
    ∃ q, (({ cfgbase := base, md := md, personas := .empty } : Keystore cfg K P).load kp fs).2.personas.find
        hex = some q ∧ q.id = hex ∧ q.name = name ∧ q.ptype = t ∧
      q.linkSrc = ((fs.fopen (base ++ [hex, "srclink"])).map readLine).getD "" ∧
      q.pkey.map PKEYbox.pubPem = some pubPem ∧ q.pkey.map PKEYbox.privPem = some privPem ∧
      (q.dhParams.isSome ↔ dh.isSome) := by
  have hget : ∀ x, x ≠ "srclink" → fs.get (base ++ [hex, x]) = Keystore.addedFiles name t pubPem privPem dh x :=
    fun x hx => by simpa using (hd.2 x).trans (hfiles x hx)
  obtain ⟨q, hq, hid, hpt, hqn, hql, hqpub, hqpriv, hqdh⟩ := Persona.load_new cfg kp hhex hd.1 ht
    (by rw [hget _ (by cases t <;> decide), Keystore.addedFiles_pubFile])
    (by rintro rfl; rw [hget _ (by decide), Keystore.addedFiles_rsa_of_ec])
    hkpub hlen (by rw [hget _ (by cases t <;> decide), Keystore.addedFiles_privFile]) hkpriv
    (fun hr c hc => by
      rw [FS.fopen, hget _ (by decide), Keystore.addedFiles_dhparams] at hc
      rcases dh with _ | c' <;> simp at hc
      exact hc ▸ (hdh c' rfl).2)
  have hbase : fs.isDir base :=
    htree.2 (base ++ [hex]) base (by simp [hd.1]) (List.prefix_append _ _) (by simp)
  refine ⟨q, Keystore.load_find kp _ hbase hhex (by simp [hd.1]) hq, hid, ?_, hpt, hql, ?_, ?_, ?_⟩
  · rw [hqn, FS.fopen, hget _ (by decide), Keystore.addedFiles_name]
    split_ifs with hn
    · simp [readLine_line hname.1 hname.2.1 hname.2.2]
    · exact String.ext (List.length_eq_zero.mp (Nat.eq_zero_of_not_pos hn)).symm
  · rw [hqpub, freadBuf_of_length_le hpubLen]
  · rw [hqpriv, freadBuf_of_length_le hprivLen]
  · rw [hqdh, FS.fopen, hget _ (by decide), Keystore.addedFiles_dhparams]
    rcases dh with _ | c
    · simp
    · simp [(hdh c rfl).1]

/-- `persona::link(h)` that succeeds, when no write fails, leaves `h` and a newline in
`srclink`. -/
theorem link_run {env : Env} {fs : FS} (hw : env.WritesOk) {p : Persona K P}
    {files : String → Option Node} (hd : fs.DirHolds p.dir files) {h : String}
    (hok : ((p.link cfg h).run env fs).1.1 = .ok ()) :
    ((p.link cfg h).run env fs).2.DirHolds p.dir (putFile files "srclink" (.file (h ++ "\n"))) := by
  unfold Persona.link at hok ⊢
  split_ifs at hok ⊢
  · simp at hok
  simp only [run_call] at hok ⊢
  by_cases ho : ((Call.openTrunc (p.dir ++ ["srclink"])).step env fs).1.ok
  · rw [step_openTrunc_of_ok ho]
    simp only [Reply.ok, if_true, seq, run_call, step_write_set hw, run_ret]
    simpa [String.append_assoc] using ((hd.set "srclink" (.file "")).set "srclink"
      (.file ("" ++ h))).set "srclink" (.file ("" ++ h ++ "\n"))
  · simp [ho] at hok

/-- A valid id is one line of at most 510 bytes without NUL. -/
theorem isHexHash_line {h : String} (hh : cfg.isHexHash h = true) :
    '\n' ∉ h.data ∧ '\x00' ∉ h.data ∧ h.length ≤ 510 :=
  ⟨fun hc => by simpa [isLowerHexDigit] using cfg.isHexHash_digits h hh _ hc,
    fun hc => by simpa [isLowerHexDigit] using cfg.isHexHash_digits h hh _ hc,
    (cfg.isHexHash_length h hh).trans (by norm_num)⟩

/-- After a successful `add_persona` from a tree with no failed write, of a one-line name of at
most 510 bytes and key texts of at most 8192 bytes, `keystore::load()` of the base directory
finds the persona `add_persona` returned, with its id, name, type and key texts, and with DH
parameters exactly when it has them. After a successful `link(h)` with no failed write, it
finds that persona with `link_src = h`. -/
theorem addPersona_load_roundtrip {env : Env} {fs : FS} (writesOk : env.WritesOk)
    (dhRoundTrip : ∀ prm, (kp.readDHparams (kp.writeDHparams prm)).isSome) (tree : fs.Tree)
    (ks : Keystore cfg K P) (name cPubPem privPem dhparamsPem : String) (seed : Nat)
    (tv : Timeval) (pid : Nat) (p : Persona K P)
    (nameOk : '\n' ∉ name.data ∧ '\x00' ∉ name.data ∧ name.length ≤ 510)
    (added : ((ks.addPersona kp name cPubPem privPem dhparamsPem seed tv pid).run env fs).1.1 = .ok p)
    (fits : ∀ b, p.pkey = some b → b.pubPem.length ≤ 8192 ∧ b.privPem.length ≤ 8192) :
    (∃ q, ({ ks with personas := .empty }.load kp
        ((ks.addPersona kp name cPubPem privPem dhparamsPem seed tv pid).run env fs).2).2.personas.find
          p.id = some q ∧
      q.id = p.id ∧ q.name = name ∧ q.ptype = p.ptype ∧ q.linkSrc = "" ∧
      q.pkey.map PKEYbox.pubPem = p.pkey.map PKEYbox.pubPem ∧
      q.pkey.map PKEYbox.privPem = p.pkey.map PKEYbox.privPem ∧
      (q.dhParams.isSome ↔ p.dhParams.isSome)) ∧
    ∀ (env' : Env) (h : String), env'.WritesOk → cfg.isHexHash h = true →
      ((p.link cfg h).run env'
        ((ks.addPersona kp name cPubPem privPem dhparamsPem seed tv pid).run env fs).2).1.1 = .ok () →
      ∃ q, ({ ks with personas := .empty }.load kp ((p.link cfg h).run env'
        ((ks.addPersona kp name cPubPem privPem dhparamsPem seed tv pid).run env fs).2).2).2.personas.find
          p.id = some q ∧ q.linkSrc = h := by
  have htree' := run_tree env (ks.addPersona kp name cPubPem privPem dhparamsPem seed tv pid) tree
  rcases hrun : (ks.addPersona kp name cPubPem privPem dhparamsPem seed tv pid).run env fs with
    ⟨⟨r, ks'⟩, fs'⟩
  rw [hrun] at added htree'
  obtain rfl : r = .ok p := added
  obtain ⟨box, dh, hb, hnorm, -, hpk, hpriv, hkpub, ht, hkpriv, hdhs, hdhc, hd⟩ :=
    Keystore.addPersona_run kp ks writesOk dhRoundTrip tree hrun
  obtain ⟨hpubLen, hprivLen⟩ := fits box hpk
  subst hpriv
  have hhex := normalizeAndHexhash_isHexHash hnorm
  have hlen := normalizeAndHexhash_length_pos hnorm
  refine ⟨?_, fun env' h hw' hh hlink => ?_⟩
  · obtain ⟨q, hq, hid, hqn, hpt, hql, hqpub, hqpriv, hqdh⟩ := reload_added kp ks.md htree' hd
      (fun _ _ => rfl) hhex ht hkpub hlen hpubLen hkpriv hprivLen hdhc nameOk
    refine ⟨q, hq, hid, hqn, hpt, ?_, by rw [hqpub, hpk]; rfl, by rw [hqpriv, hpk]; rfl,
      hqdh.trans hdhs.symm⟩
    rw [hql, FS.fopen, show ks.cfgbase ++ [p.id, "srclink"] = ks.cfgbase ++ [p.id] ++ ["srclink"]
      by simp, hd.2, Keystore.addedFiles_srclink]
    rfl
  · have hdp : fs'.DirHolds p.dir
        (Keystore.addedFiles name p.ptype box.pubPem box.privPem dh) := by
      rw [Persona.dir, hb]; exact hd
    have hd' := link_run hw' hdp hlink
    rw [Persona.dir, hb] at hd'
    obtain ⟨q, hq, -, -, -, hql, -⟩ := reload_added kp ks.md (run_tree env' _ htree') hd'
      (fun x hx => by simp [putFile_apply, hx]) hhex ht hkpub hlen hpubLen hkpriv hprivLen hdhc nameOk
    refine ⟨q, hq, ?_⟩
    rw [hql, FS.fopen, show ks.cfgbase ++ [p.id, "srclink"] = ks.cfgbase ++ [p.id] ++ ["srclink"]
      by simp, hd'.2]
    simp [putFile_apply, readLine_line (isHexHash_line hh).1 (isHexHash_line hh).2.1
      (isHexHash_line hh).2.2]

section TestRuns

open TestDouble

theorem baseOnly_tree : baseOnly.Tree := by
  refine ⟨rfl, fun q r hq hrq hne => .inl ?_⟩
  obtain rfl : q = ["ks"] := by
    by_contra h
    simp [baseOnly, Ne.symm h] at hq
  rcases List.prefix_cons_iff.mp hrq with hr | ⟨t, rfl, ht⟩
  · exact hr
  · exact absurd (by rw [List.prefix_nil.mp ht]) hne

/-- `alice`, an RSA persona with a name and new DH parameters, reloads from a base directory
that held nothing else. -/
theorem addAlice_load_roundtrip :
    Env.none.WritesOk ∧ (∀ prm, (provider.readDHparams (provider.writeDHparams prm)).isSome) ∧
      baseOnly.Tree ∧ ('\n' ∉ "alice".data ∧ '\x00' ∉ "alice".data ∧ "alice".length ≤ 510) ∧
      (addAlice.run Env.none baseOnly).1.1 = .ok alice ∧
      (∀ b, alice.pkey = some b → b.pubPem.length ≤ 8192 ∧ b.privPem.length ≤ 8192) ∧
      (∃ q, ({ keystore with personas := .empty }.load provider
          (addAlice.run Env.none baseOnly).2).2.personas.find alice.id = some q ∧
        q.id = alice.id ∧ q.name = "alice" ∧ q.ptype = alice.ptype ∧ q.linkSrc = "" ∧
        q.pkey.map PKEYbox.pubPem = alice.pkey.map PKEYbox.pubPem ∧
        q.pkey.map PKEYbox.privPem = alice.pkey.map PKEYbox.privPem ∧
        (q.dhParams.isSome ↔ alice.dhParams.isSome)) ∧
      ∀ (env' : Env) (h : String), env'.WritesOk → config.isHexHash h = true →
        ((alice.link config h).run env' (addAlice.run Env.none baseOnly).2).1.1 = .ok () →
        ∃ q, ({ keystore with personas := .empty }.load provider ((alice.link config h).run env'
          (addAlice.run Env.none baseOnly).2).2).2.personas.find alice.id = some q ∧
            q.linkSrc = h :=
  have hw : Env.none.WritesOk := fun _ _ => rfl
  have hdh : ∀ prm, (provider.readDHparams (provider.writeDHparams prm)).isSome := fun _ => rfl
  have hname : '\n' ∉ "alice".data ∧ '\x00' ∉ "alice".data ∧ "alice".length ≤ 510 := by decide
  have hok : (addAlice.run Env.none baseOnly).1.1 = .ok alice := rfl
  have hsize : ∀ b, alice.pkey = some b → b.pubPem.length ≤ 8192 ∧ b.privPem.length ≤ 8192 := by
    rintro b ⟨⟩
    decide
  ⟨hw, hdh, baseOnly_tree, hname, hok, hsize, addPersona_load_roundtrip provider hw hdh baseOnly_tree
    keystore "alice" (provider.writePubkey .rsa) (privText .rsa) "new" 0 ⟨1, 2⟩ 7 alice hname hok
    hsize⟩

/-- A name with a newline in it reloads as its first line, and DH parameters reload without
their PEM text. -/
theorem addPersona_newline_reload :
    ∃ p q, (addNewline.run Env.none baseOnly).1.1 = .ok p ∧
      ({ keystore with personas := .empty }.load provider
        (addNewline.run Env.none baseOnly).2).2.personas.find p.id = some q ∧
      q.name ≠ p.name ∧ q.dhParams.map DHbox.pubPem ≠ p.dhParams.map DHbox.pubPem :=
  ⟨_, _, rfl, rfl, by decide, by decide⟩

end TestRuns

end OpmsgKeystore
