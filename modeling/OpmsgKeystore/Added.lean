import OpmsgKeystore.Tree
import OpmsgKeystore.Keystore

/-!
# What `add_persona` leaves on disk

When no `write` fails (`Env.WritesOk`: no `ENOSPC`, no `EIO`), the unchecked writes of
`add_persona` write what they are given. Every run of `add_persona` then ends in one of two
ways. Either it returns an error before its `rename` succeeds, and only its staging directory
has changed (`SameOutside`); or the `rename` published the staging directory under
`<base>/<hex>` holding exactly the entries the function wrote, and after it only
`dhparams.pem` can change.

The lemmas follow a run one function at a time, each saying how its part can end and what it
leaves in the staging directory (`writeName_run`, `addPersonaKeys_run`, `addPersonaPriv_run`)
or in the published directory (`addPersonaPublish_run`, with `newDhParams_run` and
`newDhParamsPem_run`). `addPersona_run` puts them together: the published directory holds
`addedFiles`, the name line, the normalized public key, the private key when one was given, and
the DH parameters `new_dh_params` wrote when the run returns a persona.
-/

namespace OpmsgKeystore

/-! ## Calls -/

section Steps

open FS

variable {env : Env} {fs fs' : FS}

/-- A call that fails changes nothing. -/
theorem step_snd_of_not_ok {c : Call} (h : (c.step env fs).1.ok = false) :
    (c.step env fs).2 = fs := by
  unfold Call.step at h ⊢
  split
  · rfl
  · rename_i hf
    rw [if_neg hf] at h
    cases c <;> simp only [Call.exec] at h ⊢ <;> (repeat' split) <;> simp_all [Reply.ok]

/-- A `write` to a file that holds `c`, when no write fails, appends to it. -/
theorem step_write_set (hw : env.WritesOk) (fs : FS) (p : Path) (c d : String) :
    (Call.write p d).step env (fs.set p (.file c)) =
      (.status true, (fs.set p (.file c)).set p (.file (c ++ d))) := by
  simp [Call.step, hw p d, Call.exec]

theorem step_openExcl_of_ok {p : Path} (h : ((Call.openExcl p).step env fs).1.ok) :
    (Call.openExcl p).step env fs = (.status true, fs.set p (.file "")) := by
  simp only [Call.step, Call.exec] at h ⊢
  split_ifs at h ⊢ <;> simp_all [Reply.ok]

theorem step_openTrunc_of_ok {p : Path} (h : ((Call.openTrunc p).step env fs).1.ok) :
    (Call.openTrunc p).step env fs = (.status true, fs.set p (.file "")) := by
  simp only [Call.step, Call.exec] at h ⊢
  rcases hg : fs.get p with _ | ⟨_ | c⟩ <;> simp only [hg] at h ⊢ <;> split_ifs at h ⊢ <;>
    simp_all [Reply.ok]

theorem step_fdopen (env : Env) (p : Path) : ((Call.fdopen p).step env fs).2 = fs := by
  simp only [Call.step, Call.exec]
  split <;> rfl

theorem step_mkdir_of_ok {p : Path} (h : ((Call.mkdir p).step env fs).1.ok) :
    fs.get p = none ∧ p ≠ [] ∧ (Call.mkdir p).step env fs = (.status true, fs.set p .dir) := by
  simp only [Call.step, Call.exec] at h ⊢
  split_ifs at h ⊢ <;> simp_all [Reply.ok]

theorem step_rename_of_ok {src dst : Path} (h : ((Call.rename src dst).step env fs).1.ok) :
    ¬ src <+: dst ∧ ¬ dst <+: src ∧
      (Call.rename src dst).step env fs = (.status true, fs.move src dst) := by
  simp only [Call.step, Call.exec] at h ⊢
  split_ifs at h ⊢ <;> simp_all [Reply.ok]

theorem step_read_set (env : Env) (fs : FS) (p : Path) (c : String) :
    (Call.read p).step env (fs.set p (.file c)) = (.contents (some c), fs.set p (.file c)) := by
  simp [Call.step, Call.faultable, Call.exec]

open Prog

variable {α : Type} {a e : α} {c : Call} {k : Prog α}

/-- A run of `check c e k`: `c` failed and the run returned `e` with nothing changed, or `c`
passed and `k` ran on. -/
theorem run_check_cases (h : (check c e k).run env fs = (a, fs')) :
    (a = e ∧ fs' = fs) ∨ ((c.step env fs).1.ok ∧ k.run env (c.step env fs).2 = (a, fs')) := by
  simp only [check, run_call] at h
  by_cases hok : (c.step env fs).1.ok
  · rw [if_pos hok] at h
    exact .inr ⟨hok, h⟩
  · rw [if_neg hok, run_ret, Prod.mk.injEq] at h
    exact .inl ⟨h.1.symm, h.2 ▸ step_snd_of_not_ok (by simpa using hok)⟩

/-- A run of `check c e k` that does not return `e` went past `c`. -/
theorem run_check_eq (h : (check c e k).run env fs = (a, fs')) (ha : a ≠ e) :
    (c.step env fs).1.ok ∧ k.run env (c.step env fs).2 = (a, fs') :=
  (run_check_cases h).resolve_left fun h' => ha h'.1

/-- A checked `write` to a file that holds `c`, when no write fails. -/
theorem run_check_write (hw : env.WritesOk) (fs : FS) (p : Path) (c d : String) :
    (check (.write p d) e k).run env (fs.set p (.file c)) =
      k.run env ((fs.set p (.file c)).set p (.file (c ++ d))) := by
  simp [check, step_write_set hw, Reply.ok]

/-- `open(O_CREAT|O_EXCL)` of an entry of `d` and a `write` of `data`, when no write fails:
the `open` fails and nothing changed, or the entry holds `data`. -/
theorem run_create_write (hw : env.WritesOk) {d : Path} {files : String → Option Node}
    (hd : fs.DirHolds d files) {x data : String}
    (h : (check (.openExcl (d ++ [x])) e (seq (.write (d ++ [x]) data) k)).run env fs = (a, fs')) :
    (a = e ∧ fs' = fs) ∨ ∃ fs1, fs1.DirHolds d (putFile files x (.file data)) ∧
      SameOutside d fs fs1 ∧ k.run env fs1 = (a, fs') := by
  rcases run_check_cases h with he | ⟨hok, h⟩
  · exact .inl he
  rw [step_openExcl_of_ok hok] at h
  simp only [seq, run_call, step_write_set hw] at h
  exact .inr ⟨_, by simpa using (hd.set x (.file "")).set x (.file ("" ++ data)),
    (sameOutside_set x _).trans (sameOutside_set x _), h⟩

end Steps

/-! ## `add_persona` -/

open Prog FS

variable {K P : Type} (kp : KeyProvider K P) {env : Env} {fs fs' : FS}

namespace Persona

variable {p p' : Persona K P} {files : String → Option Node} {box : DHbox P}

/-- `new_dh_params()` touches `dhparams.pem` only. -/
theorem newDhParams_avoids {q : Path} (hq : q ≠ p.dir ++ ["dhparams.pem"]) (seed : Nat) :
    (p.newDhParams kp seed).Avoids q := by
  unfold newDhParams
  split
  · trivial
  · exact avoids_check.mpr ⟨hq, avoids_check.mpr ⟨nofun, avoids_streamWrite hq fun _ =>
      avoids_rewindRead fun _ => by split <;> trivial⟩⟩

/-- `new_dh_params(pem)` touches `dhparams.pem` only. -/
theorem newDhParamsPem_avoids {q : Path} (hq : q ≠ p.dir ++ ["dhparams.pem"]) (pem : String) :
    (p.newDhParamsPem kp pem).Avoids q := by
  unfold newDhParamsPem
  exact avoids_check.mpr ⟨hq, avoids_check.mpr ⟨nofun, avoids_fwrite hq fun _ =>
    avoids_rewindRead fun _ => by split <;> trivial⟩⟩

/-- `new_dh_params()` that succeeds has written the parameters it generated to
`dhparams.pem`. -/
theorem newDhParams_run (hw : env.WritesOk) (hd : fs.DirHolds p.dir files) {seed : Nat}
    (h : (p.newDhParams kp seed).run env fs = ((.ok box, p'), fs')) :
    ∃ prm, kp.genDhParams seed = some prm ∧ p' = { p with dhParams := some box } ∧
      fs'.DirHolds p.dir (putFile files "dhparams.pem" (.file (kp.writeDHparams prm))) := by
  unfold newDhParams at h
  split at h
  · simp at h
  rename_i prm hprm
  dsimp only at h
  obtain ⟨hok, h⟩ := run_check_eq h (by simp)
  rw [step_openTrunc_of_ok hok] at h
  obtain ⟨-, h⟩ := run_check_eq h (by simp)
  rw [step_fdopen] at h
  rcases Nat.eq_zero_or_pos (kp.writeDHparams prm).data.length with hzero | hpos
  · simp only [streamWrite, hzero, Nat.zero_div, Nat.zero_mul, lt_self_iff_false, if_false, if_true,
      rewindRead, readThen, run_call, step_read_set, Reply.data, Option.getD_some] at h
    simp at h
  rw [run_streamWrite hw (FS.get_set_self _ _ _) hpos] at h
  simp only [rewindRead, if_true, readThen, run_call, step_read_set, Reply.data,
    Option.getD_some] at h
  split at h
  · simp at h
  simp only [run_ret, Prod.mk.injEq, Except.ok.injEq] at h
  obtain ⟨⟨rfl, rfl⟩, rfl⟩ := h
  have hd' := (hd.set "dhparams.pem" (.file "")).set "dhparams.pem" (.file (kp.writeDHparams prm))
  exact ⟨prm, hprm, rfl, by simpa using hd'⟩

/-- `new_dh_params(pem)` that succeeds has written `pem` to `dhparams.pem`, and `pem` parses. -/
theorem newDhParamsPem_run (hw : env.WritesOk) (hd : fs.DirHolds p.dir files) {pem : String}
    (h : (p.newDhParamsPem kp pem).run env fs = ((.ok box, p'), fs')) :
    ∃ prm, kp.readDHparams pem = some prm ∧ p' = { p with dhParams := some box } ∧
      fs'.DirHolds p.dir (putFile files "dhparams.pem" (.file pem)) := by
  unfold newDhParamsPem at h
  dsimp only at h
  obtain ⟨hok, h⟩ := run_check_eq h (by simp)
  rw [step_openTrunc_of_ok hok] at h
  obtain ⟨-, h⟩ := run_check_eq h (by simp)
  rw [step_fdopen] at h
  rcases Nat.eq_zero_or_pos pem.data.length with hzero | hpos
  · simp [fwrite, hzero] at h
  rw [run_fwrite hw (FS.get_set_self _ _ _) hpos] at h
  simp only [rewindRead, if_true, readThen, run_call, step_read_set, Reply.data, Option.some_bind,
    String.empty_append] at h
  split at h
  · simp at h
  rename_i prm hprm
  simp only [run_ret, Prod.mk.injEq, Except.ok.injEq] at h
  obtain ⟨⟨rfl, rfl⟩, rfl⟩ := h
  have hd' := (hd.set "dhparams.pem" (.file "")).set "dhparams.pem" (.file pem)
  exact ⟨prm, hprm, rfl, by simpa using hd'⟩

end Persona

namespace Keystore

variable {cfg : Config}

theorem writeName_run (hw : env.WritesOk) {α : Type} {tmpdir : Path} {name : String}
    {eOpen eWrite a : α} {k : Prog α} {files : String → Option Node}
    (hd : fs.DirHolds tmpdir files) (h : (writeName tmpdir name eOpen eWrite k).run env fs = (a, fs')) :
    (a = eOpen ∧ fs' = fs) ∨ ∃ fs1, fs1.DirHolds tmpdir
      (if name.data.length > 0 then putFile files "name" (.file (name ++ "\n")) else files) ∧
      SameOutside tmpdir fs fs1 ∧ k.run env fs1 = (a, fs') := by
  unfold writeName at h
  split_ifs at h with hn
  · rcases run_check_cases h with he | ⟨hok, h⟩
    · exact .inl he
    rw [step_openExcl_of_ok hok] at h
    dsimp only at h
    rw [run_check_write hw, run_check_write hw] at h
    refine .inr ⟨_, ?_, (sameOutside_set _ _).trans ((sameOutside_set _ _).trans
      (sameOutside_set _ _)), h⟩
    rw [if_pos hn]
    simpa using ((hd.set "name" (.file "")).set "name" (.file ("" ++ name))).set "name"
      (.file ("" ++ name ++ "\n"))
  · exact .inr ⟨fs, by rwa [if_neg hn], .refl _ _, h⟩

variable (ks : Keystore cfg K P) {tmpdir : Path} {hex name pubPem privPem dhparamsPem : String}
  {seed : Nat} {files : String → Option Node} {a : Except String (Persona K P) × Keystore cfg K P}

/-- The public key file: an error with nothing changed, or the key parses, is RSA or EC, and its
file holds `pub_pem`. -/
theorem addPersonaKeys_run (hw : env.WritesOk) (hd : fs.DirHolds tmpdir files)
    (hpub : pubPem.data.length > 0)
    (h : (addPersonaKeys kp ks tmpdir hex name pubPem privPem dhparamsPem seed).run env fs =
      (a, fs')) :
    (∃ m, a = (.error m, ks) ∧ fs' = fs) ∨
      ∃ kpub type1 fs1, kp.readPubkey pubPem = some kpub ∧ typeOf (kp.kind kpub) = some type1 ∧
        fs1.DirHolds tmpdir (putFile files type1.pubFile (.file pubPem)) ∧ SameOutside tmpdir fs fs1 ∧
        (addPersonaPriv kp ks tmpdir hex name pubPem privPem dhparamsPem seed (some kpub) type1).run
          env fs1 = (a, fs') := by
  unfold addPersonaKeys at h
  rw [if_pos hpub] at h
  split at h
  · exact .inl ⟨_, (Prod.mk.inj h).1.symm, (Prod.mk.inj h).2.symm⟩
  split at h
  · exact .inl ⟨_, (Prod.mk.inj h).1.symm, (Prod.mk.inj h).2.symm⟩
  rcases run_create_write hw hd h with ⟨rfl, rfl⟩ | ⟨fs1, hd1, hs1, h1⟩
  · exact .inl ⟨_, rfl, rfl⟩
  · exact .inr ⟨_, _, fs1, ‹_›, ‹_›, hd1, hs1, h1⟩

/-- The private key file, when `priv_pem` is not empty: an error with nothing changed, or the key
parses, has the public key's type, and its file holds `priv_pem`. -/
theorem addPersonaPriv_run (hw : env.WritesOk) (hd : fs.DirHolds tmpdir files) {kpub : Option K}
    {type1 : PType} (htype : type1 ≠ .unknown)
    (h : (addPersonaPriv kp ks tmpdir hex name pubPem privPem dhparamsPem seed kpub type1).run
      env fs = (a, fs')) :
    (∃ m, a = (.error m, ks) ∧ fs' = fs) ∨
      ∃ kpriv fs1, (privPem.data.length > 0 → (kp.readPrivateKey privPem).isSome) ∧
        fs1.DirHolds tmpdir (if privPem.data.length > 0 then
          putFile files type1.privFile (.file privPem) else files) ∧ SameOutside tmpdir fs fs1 ∧
        (addPersonaPublish kp ks tmpdir hex name pubPem privPem dhparamsPem seed kpub kpriv type1).run
          env fs1 = (a, fs') := by
  unfold addPersonaPriv at h
  split_ifs at h with hp
  · split at h
    · exact .inl ⟨_, (Prod.mk.inj h).1.symm, (Prod.mk.inj h).2.symm⟩
    rename_i kpriv hkpriv
    split at h
    · exact .inl ⟨_, (Prod.mk.inj h).1.symm, (Prod.mk.inj h).2.symm⟩
    rename_i type2 _
    split_ifs at h with hdiff
    · exact .inl ⟨_, (Prod.mk.inj h).1.symm, (Prod.mk.inj h).2.symm⟩
    obtain rfl : type1 = type2 := by tauto
    rcases run_create_write hw hd h with ⟨rfl, rfl⟩ | ⟨fs1, hd1, hs1, h1⟩
    · exact .inl ⟨_, rfl, rfl⟩
    · exact .inr ⟨_, fs1, by simp [hkpriv], by rwa [if_pos hp], hs1, h1⟩
  · exact .inr ⟨none, fs, fun h => absurd h hp, by rwa [if_neg hp], .refl _ _, h⟩

/-- The end of `add_persona`: the state is the one `new_dh_params` left; the result is an error
with the map unchanged, or the persona it returned, inserted under `hex`. -/
theorem addPersonaFinish_cases {q : Prog (Except String (DHbox P) × Persona K P)}
    (h : (q.bind (addPersonaFinish ks hex)).run env fs = (a, fs')) :
    fs' = (q.run env fs).2 ∧ ((∃ m, a = (.error m, ks)) ∨
      ∃ box p, a = (.ok p, { ks with personas := ks.personas.insert hex p }) ∧
        q.run env fs = ((.ok box, p), fs')) := by
  rw [run_bind] at h
  rcases hq : q.run env fs with ⟨⟨m | box, p1⟩, fs2⟩ <;> rw [hq] at h <;>
    obtain ⟨rfl, rfl⟩ := Prod.mk.inj h
  · exact ⟨rfl, .inl ⟨m, rfl⟩⟩
  · exact ⟨rfl, .inr ⟨box, p1, rfl, rfl⟩⟩

/-- What a returned persona and its directory look like: the persona `add_persona` builds, and
`dh` the text of the `dhparams.pem` it wrote, if any. -/
def PublishedAs (hex name pubPem privPem : String) (kpub kpriv : Option K) (type1 : PType)
    (files : String → Option Node) (fs' : FS) (p : Persona K P) : Prop :=
  p.cfgbase = ks.cfgbase ∧ p.id = hex ∧ p.name = name ∧ p.ptype = type1 ∧
    p.pkey = some { PKEYbox.new kpub kpriv with pubPem := pubPem, privPem := privPem } ∧
    ∃ dh : Option String, (p.dhParams.isSome ↔ dh.isSome) ∧
      (∀ c, dh = some c → type1 = .rsa ∧
        ((kp.readDHparams c).isSome ∨ ∃ prm, c = kp.writeDHparams prm)) ∧
      fs'.DirHolds (ks.cfgbase ++ [hex]) (dh.elim files fun c => putFile files "dhparams.pem" (.file c))

/-- The `rename` and what follows it. The `rename` fails, the clean-up runs inside the staging
directory, and the result is an error; or the staging entries are now those of `<base>/<hex>`,
after which only `dhparams.pem` changes, and a returned persona is `PublishedAs` and is in the
map under `hex`. -/
theorem addPersonaPublish_run (hw : env.WritesOk) (hd : fs.DirHolds tmpdir files)
    {kpub kpriv : Option K} {type1 : PType}
    (h : (addPersonaPublish kp ks tmpdir hex name pubPem privPem dhparamsPem seed kpub kpriv type1).run
      env fs = (a, fs')) :
    (∃ m, a = (.error m, ks) ∧ SameOutside tmpdir fs fs') ∨
      (¬ tmpdir <+: ks.cfgbase ++ [hex] ∧ ¬ ks.cfgbase ++ [hex] <+: tmpdir ∧
        (∀ q, q ≠ ks.cfgbase ++ [hex, "dhparams.pem"] →
          fs'.get q = (fs.move tmpdir (ks.cfgbase ++ [hex])).get q) ∧
        ((∃ m, a = (.error m, ks)) ∨ ∃ p, a = (.ok p, { ks with personas := ks.personas.insert hex p }) ∧
          PublishedAs kp ks hex name pubPem privPem kpub kpriv type1 files fs' p)) := by
  unfold addPersonaPublish at h
  simp only [run_call] at h
  by_cases hok : ((Call.rename tmpdir (ks.cfgbase ++ [hex])).step env fs).1.ok
  swap
  · rw [if_pos hok, step_snd_of_not_ok (by simpa using hok)] at h
    have ha := congrArg Prod.fst h
    have hf := congrArg Prod.snd h
    dsimp only at ha hf
    subst ha hf
    refine .inl ⟨_, rfl, sameOutside_run (fun q hq => ?_) env fs⟩
    have hx : ∀ x, q ≠ tmpdir ++ [x] := fun x hx => hq (hx ▸ List.prefix_append _ _)
    have ht : q ≠ tmpdir := fun e => hq (e ▸ List.prefix_refl _)
    simp [Call.touches, hx, ht]
  obtain ⟨hsd, hds, hstep⟩ := step_rename_of_ok hok
  rw [if_neg (by simpa using hok), hstep] at h
  have hd1 := hd.move hsd hds
  refine .inr ⟨hsd, hds, ?_⟩
  have hq' : ∀ {q : Path} {p : Persona K P}, p.cfgbase = ks.cfgbase → p.id = hex →
      q ≠ ks.cfgbase ++ [hex, "dhparams.pem"] → q ≠ p.dir ++ ["dhparams.pem"] := by
    intro q p hb hi hq
    simpa [Persona.dir, hb, hi] using hq
  split_ifs at h with hcond hnew
  · obtain ⟨rfl, ⟨m, rfl⟩ | ⟨box, p, rfl, hr⟩⟩ := addPersonaFinish_cases ks h <;>
      refine ⟨fun q hq => run_get_of_avoids (Persona.newDhParams_avoids kp (hq' rfl rfl hq) _) env _, ?_⟩
    · exact .inl ⟨m, rfl⟩
    obtain ⟨prm, -, rfl, hd2⟩ := Persona.newDhParams_run kp hw hd1 hr
    exact .inr ⟨_, rfl, rfl, rfl, rfl, rfl, rfl, some _, by simp,
      fun c hc => by cases hc; exact ⟨hcond.2, .inr ⟨prm, rfl⟩⟩, hd2⟩
  · obtain ⟨rfl, ⟨m, rfl⟩ | ⟨box, p, rfl, hr⟩⟩ := addPersonaFinish_cases ks h <;>
      refine ⟨fun q hq => run_get_of_avoids (Persona.newDhParamsPem_avoids kp (hq' rfl rfl hq) _) env _, ?_⟩
    · exact .inl ⟨m, rfl⟩
    obtain ⟨prm, hprm, rfl, hd2⟩ := Persona.newDhParamsPem_run kp hw hd1 hr
    exact .inr ⟨_, rfl, rfl, rfl, rfl, rfl, rfl, some _, by simp,
      fun c hc => by cases hc; exact ⟨hcond.2, .inl (by simp [hprm])⟩, hd2⟩
  · obtain ⟨rfl, rfl⟩ := Prod.mk.inj h
    exact ⟨fun _ _ => rfl, .inr ⟨_, rfl, rfl, rfl, rfl, rfl, rfl, none, by simp [Persona.new], by simp,
      hd1⟩⟩

/-- The entries `add_persona` writes into its staging directory, and `dhparams.pem` when `dh`
is the text `new_dh_params` wrote. -/
def addedFiles (name : String) (t : PType) (pubPem privPem : String) (dh : Option String) :
    String → Option Node :=
  let files : String → Option Node :=
    if name.data.length > 0 then putFile (fun _ => none) "name" (.file (name ++ "\n"))
    else fun _ => none
  let files := putFile files t.pubFile (.file pubPem)
  let files := if privPem.data.length > 0 then putFile files t.privFile (.file privPem) else files
  dh.elim files fun c => putFile files "dhparams.pem" (.file c)

/-- The only public key file is the one of the key's type. -/
theorem addedFiles_pubFile_eq (name : String) (type1 t : PType) (pubPem privPem : String)
    (dh : Option String) : addedFiles name type1 pubPem privPem dh t.pubFile =
      if t = type1 then some (.file pubPem) else none := by
  cases t <;> cases type1 <;> cases dh <;>
    simp [addedFiles, putFile_apply, ite_apply, PType.pubFile, PType.privFile, PType.marker]

theorem addedFiles_pubFile (name : String) (t : PType) (pubPem privPem : String)
    (dh : Option String) : addedFiles name t pubPem privPem dh t.pubFile = some (.file pubPem) := by
  simp [addedFiles_pubFile_eq]

/-- An EC persona's directory has no `rsa.pub.pem`. -/
theorem addedFiles_rsa_of_ec (name pubPem privPem : String) (dh : Option String) :
    addedFiles name .ec pubPem privPem dh PType.rsa.pubFile = none := by
  simp [addedFiles_pubFile_eq]

theorem addedFiles_privFile (name : String) (t : PType) (pubPem privPem : String)
    (dh : Option String) : addedFiles name t pubPem privPem dh t.privFile =
      if privPem.data.length > 0 then some (.file privPem) else none := by
  cases t <;> cases dh <;> simp [addedFiles, putFile_apply, ite_apply, PType.pubFile, PType.privFile, PType.marker]

theorem addedFiles_name (name : String) (t : PType) (pubPem privPem : String)
    (dh : Option String) : addedFiles name t pubPem privPem dh "name" =
      if name.data.length > 0 then some (.file (name ++ "\n")) else none := by
  cases t <;> cases dh <;> simp [addedFiles, putFile_apply, ite_apply, PType.pubFile, PType.privFile, PType.marker]

/-- `add_persona` writes no `srclink`. -/
theorem addedFiles_srclink (name : String) (t : PType) (pubPem privPem : String)
    (dh : Option String) : addedFiles name t pubPem privPem dh "srclink" = none := by
  cases t <;> cases dh <;> simp [addedFiles, putFile_apply, ite_apply, PType.pubFile, PType.privFile, PType.marker]

theorem addedFiles_dhparams (name : String) (t : PType) (pubPem privPem : String)
    (dh : Option String) : addedFiles name t pubPem privPem dh "dhparams.pem" = dh.map .file := by
  cases t <;> cases dh <;> simp [addedFiles, putFile_apply, ite_apply, PType.pubFile, PType.privFile, PType.marker]

/-- Every run of `add_persona` from a tree, when no write fails. Either it fails before its
`rename` publishes anything, and only its staging directory `<base>/<unique name>` has changed;
or the normalized key `pubPem` has id `hex` and parses as a key of type `type1`, the staging
directory is now `<base>/<hex>` holding the `addedFiles` (`dhparams.pem` aside), nothing else
outside the staging directory has changed, and the result is an error or a persona that is
`PublishedAs` and in the map under `hex`. -/
theorem addPersona_cases (hw : env.WritesOk) (htree : fs.Tree)
    {cPubPem : String} {tv : Timeval} {pid : Nat}
    (h : (ks.addPersona kp name cPubPem privPem dhparamsPem seed tv pid).run env fs = (a, fs')) :
    (∃ m, a = (.error m, ks) ∧ SameOutside (ks.cfgbase ++ [uniqueName tv pid]) fs fs') ∨
    ∃ pubPem hex kpub kpriv type1, normalizeAndHexhash ks.md cPubPem = (pubPem, some hex) ∧
      kp.readPubkey pubPem = some kpub ∧ typeOf (kp.kind kpub) = some type1 ∧
      (privPem.data.length > 0 → (kp.readPrivateKey privPem).isSome) ∧
      (∀ q, ¬ ks.cfgbase ++ [uniqueName tv pid] <+: q → ¬ ks.cfgbase ++ [hex] <+: q →
        fs'.get q = fs.get q) ∧
      fs'.get (ks.cfgbase ++ [hex]) = some .dir ∧
      (∀ x, x ≠ "dhparams.pem" →
        fs'.get (ks.cfgbase ++ [hex] ++ [x]) = addedFiles name type1 pubPem privPem none x) ∧
      ((∃ m, a = (.error m, ks)) ∨
        ∃ p, a = (.ok p, { ks with personas := ks.personas.insert hex p }) ∧
          PublishedAs kp ks hex name pubPem privPem (some kpub) kpriv type1
            (addedFiles name type1 pubPem privPem none) fs' p) := by
  unfold addPersona at h
  split at h
  · obtain ⟨rfl, rfl⟩ := Prod.mk.inj h
    exact .inl ⟨_, rfl, .refl _ _⟩
  rename_i pubPem hex hnorm
  dsimp only at h
  rcases run_check_cases h with ⟨rfl, rfl⟩ | ⟨hok, h⟩
  · exact .inl ⟨_, rfl, .refl _ _⟩
  obtain ⟨hn, hne, hstep⟩ := step_mkdir_of_ok hok
  rw [hstep] at h
  have hs0 : SameOutside (ks.cfgbase ++ [uniqueName tv pid]) fs
      (fs.set (ks.cfgbase ++ [uniqueName tv pid]) .dir) := fun q hq => by
    rw [get_set, if_neg (by rintro rfl; exact hq (List.prefix_refl _))]
  rcases writeName_run hw (htree.dirHolds_set hne hn) h with ⟨rfl, rfl⟩ | ⟨fs1, hd1, hs1, h⟩
  · exact .inl ⟨_, rfl, hs0⟩
  rcases addPersonaKeys_run kp ks hw hd1 (normalizeAndHexhash_length_pos hnorm) h with
    ⟨m, rfl, rfl⟩ | ⟨kpub, type1, fs2, hkpub, htype, hd2, hs2, h⟩
  · exact .inl ⟨m, rfl, hs0.trans hs1⟩
  rcases addPersonaPriv_run kp ks hw hd2 (typeOf_ne_unknown htype) h with
    ⟨m, rfl, rfl⟩ | ⟨kpriv, fs3, hkpriv, hd3, hs3, h⟩
  · exact .inl ⟨m, rfl, (hs0.trans hs1).trans hs2⟩
  have hs03 := ((hs0.trans hs1).trans hs2).trans hs3
  rcases addPersonaPublish_run kp ks hw hd3 h with ⟨m, rfl, hs4⟩ | ⟨hsd, hds, hframe, hres⟩
  · exact .inl ⟨m, rfl, hs03.trans hs4⟩
  have hm := hd3.move hsd hds
  have hne : ∀ x, x ≠ "dhparams.pem" → ks.cfgbase ++ [hex] ++ [x] ≠ ks.cfgbase ++ [hex, "dhparams.pem"] :=
    fun x hx e => hx (by simpa using e)
  refine .inr ⟨pubPem, hex, kpub, kpriv, type1, hnorm, hkpub, htype, hkpriv, fun q hqt hqd => ?_,
    ?_, fun x hx => (hframe _ (hne x hx)).trans (hm.2 x), hres⟩
  · rw [hframe q (by rintro rfl; exact hqd ⟨["dhparams.pem"], by simp⟩), get_move _ hsd hds, if_neg hqd,
      if_neg hqt, hs03 q hqt]
  · rw [hframe _ fun e => by simp at e]
    exact hm.1

/-- What a successful `add_persona` from a tree has done, when no write fails: the persona's id
is the digest of the normalized public key, its key texts are the normalized public key and
the private key it was given, its keys parse, and its directory holds exactly the
`addedFiles`. -/
theorem addPersona_run (hw : env.WritesOk)
    (hdh : ∀ prm, (kp.readDHparams (kp.writeDHparams prm)).isSome) (htree : fs.Tree)
    {cPubPem : String} {tv : Timeval} {pid : Nat} {p : Persona K P} {ks' : Keystore cfg K P}
    (h : (ks.addPersona kp name cPubPem privPem dhparamsPem seed tv pid).run env fs =
      ((.ok p, ks'), fs')) :
    ∃ (box : PKEYbox K) (dh : Option String), p.cfgbase = ks.cfgbase ∧
      normalizeAndHexhash ks.md cPubPem = (box.pubPem, some p.id) ∧ p.name = name ∧
      p.pkey = some box ∧ box.privPem = privPem ∧ (kp.readPubkey box.pubPem).isSome ∧
      (p.ptype = .rsa ∨ p.ptype = .ec) ∧
      (privPem.data.length > 0 → (kp.readPrivateKey privPem).isSome) ∧
      (p.dhParams.isSome ↔ dh.isSome) ∧
      (∀ c, dh = some c → p.ptype = .rsa ∧ (kp.readDHparams c).isSome) ∧
      fs'.DirHolds (ks.cfgbase ++ [p.id]) (addedFiles name p.ptype box.pubPem privPem dh) := by
  rcases addPersona_cases kp ks hw htree h with ⟨m, he, -⟩ | ⟨pubPem, hex, kpub, kpriv, type1,
    hnorm, hkpub, htype, hkpriv, -, -, -, ⟨m, he⟩ | ⟨p', he, hb, hid, hname, hpt, hpk, dh, hdhs,
    hdhc, hd⟩⟩
  · cases he
  · cases he
  obtain ⟨⟨⟩, -⟩ := Prod.mk.inj he
  subst hid hpt
  have ht : p.ptype = .rsa ∨ p.ptype = .ec := by
    cases hk : kp.kind kpub <;> simp_all [typeOf]
  refine ⟨_, dh, hb, hnorm, hname, hpk, rfl, by simp [hkpub], ht, hkpriv, hdhs, fun c hc => ?_, hd⟩
  obtain ⟨hrsa, hr | ⟨prm, rfl⟩⟩ := hdhc c hc
  exacts [⟨hrsa, hr⟩, ⟨hrsa, hdh prm⟩]

end Keystore

end OpmsgKeystore
