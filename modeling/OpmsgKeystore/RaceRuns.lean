import OpmsgKeystore.Race
import OpmsgKeystore.TestDouble

/-!
# Two `add_persona` calls racing on one id

The spec says two concurrent `add_persona` calls of the same public key resolve so that one
`rename` succeeds and the other call fails with a conflict, and that the loser leaves nothing
behind. `runBoth_race` reduces every interleaving of two programs of the publishing shape to
their lone runs; this module shows that `add_persona` has that shape and works out its two lone
runs, the one whose `rename` succeeds and the one whose `rename` fails.

* `cleanup_run`: the clean-up after a failed `rename` removes every file of the staging
  directory and the directory itself.
* `addPersona_reaches_rename`: with key texts it accepts (`Keystore.Accepts`), a fresh staging
  name and no failing call, `add_persona` reaches its `rename` with the staging directory
  holding its `addedFiles`.
* `addPersona_publishes`: `add_persona` has the publishing shape.
* `addPersona_rename_fails`: its lone run whose `rename` fails returns the `rename` error and
  leaves the file system as it found it.
-/

namespace OpmsgKeystore

open Prog FS

/-! ## The clean-up of a staging directory -/

section Cleanup

variable {α : Type} {env : Env} {fs : FS} {d : Path} {files : String → Option Node}

/-- In a tree, a directory whose entries are all missing has nothing below it. -/
theorem FS.Tree.not_hasBelow_of_empty (h : fs.Tree) (hd : fs.DirHolds d files)
    (hf : ∀ y, files y = none) : ¬ fs.HasBelow d := by
  rw [hasBelow_iff]
  rintro ⟨q, ⟨_ | ⟨y, l⟩, rfl⟩, hne, hq⟩
  · simp at hne
  have hy : fs.get (d ++ [y]) = none := (hd.2 y).trans (hf y)
  by_cases hl : l = []
  · subst hl
    simp [hy] at hq
  · rcases h.2 _ (d ++ [y]) hq ⟨l, by simp⟩ (by simp [hl]) with h' | h'
    · simp at h'
    · rw [hy] at h'
      cases h'

/-- `unlink` of an entry of a directory, when that entry is not a directory: afterwards the
entry is missing. -/
theorem FS.DirHolds.unlink (hd : fs.DirHolds d files) {f : String} (hf : files f ≠ some .dir)
    (hr : env.RemovesOk) :
    ((Call.unlink (d ++ [f])).step env fs).2.DirHolds d fun y => if y = f then none else files y := by
  simp only [Call.step, (hr _).1, Bool.false_and, Bool.false_eq_true, if_false, Call.exec, hd.2]
  cases hfile : files f with
  | none =>
    refine ⟨hd.1, fun y => ?_⟩
    dsimp only
    split_ifs with h
    · rw [h, hd.2, hfile]
    · exact hd.2 y
  | some n =>
    cases n with
    | dir => exact absurd hfile hf
    | file c => exact ⟨by simp [hd.1], fun y => by by_cases h : y = f <;> simp [h, hd.2]⟩

/-- The clean-up of a staging directory `d` of a tree whose entries are files named in `xs`,
when no `unlink` or `rmdir` fails: afterwards nothing is at or below `d`, and nothing else has
changed. -/
theorem cleanup_run (hr : env.RemovesOk) (a : α) : ∀ (xs : List String) {fs : FS} {files : String → Option Node},
    fs.Tree → fs.DirHolds d files → (∀ y, files y ≠ none → y ∈ xs ∧ files y ≠ some .dir) →
    (∀ q, d <+: q → ((xs.foldr (fun f k => seq (.unlink (d ++ [f])) k)
        (seq (.rmdir d) (ret a))).run env fs).2.get q = none) ∧
      SameOutside d fs ((xs.foldr (fun f k => seq (.unlink (d ++ [f])) k)
        (seq (.rmdir d) (ret a))).run env fs).2
  | [], fs, files, ht, hd, hf => by
    have hb : ¬ fs.HasBelow d := ht.not_hasBelow_of_empty hd fun y => by
      by_contra h
      exact List.not_mem_nil y (hf y h).1
    have hstep : (Call.rmdir d).step env fs = (.status true, fs.remove d) := by
      simp [Call.step, (hr _).2, Call.exec, hd.1, hb]
    simp only [List.foldr_nil, seq, run_call, hstep, run_ret]
    refine ⟨fun q hq => ?_, fun q hq => ?_⟩
    · rw [get_remove]
      split_ifs with h
      · rfl
      · by_contra hs
        exact hb ((hasBelow_iff fs d).2 ⟨q, hq, h, Option.ne_none_iff_isSome.mp hs⟩)
    · rw [get_remove, if_neg (by rintro rfl; exact hq (List.prefix_refl _))]
  | f :: xs, fs, files, ht, hd, hf => by
    have hfd : files f ≠ some .dir := fun h => (hf f (by simp [h])).2 h
    have hrest : ∀ y, (if y = f then none else files y) ≠ none →
        y ∈ xs ∧ (if y = f then none else files y) ≠ some .dir := fun y hy => by
      by_cases h : y = f
      · simp [h] at hy
      · rw [if_neg h] at hy ⊢
        exact ⟨((List.mem_cons.mp (hf y hy).1).resolve_left h), (hf y hy).2⟩
    obtain ⟨h₁, h₂⟩ := cleanup_run hr a xs (step_tree ht env _) (hd.unlink hfd hr) hrest
    simp only [List.foldr_cons, seq, run_call]
    exact ⟨h₁, (sameOutside_step (fun q hq => hq ▸ List.prefix_append _ _) env fs).trans h₂⟩

/-- The clean-up returns the value it ends with. -/
theorem cleanup_fst (env : Env) (d : Path) (a : α) : ∀ (xs : List String) (fs : FS),
    ((xs.foldr (fun f k => seq (.unlink (d ++ [f])) k) (seq (.rmdir d) (ret a))).run env fs).1 = a
  | [], _ => rfl
  | _ :: xs, _ => cleanup_fst env d a xs _

end Cleanup

/-! ## `add_persona` up to its `rename` -/

theorem PType.pubFile_ne_name (t : PType) : t.pubFile ≠ "name" := by cases t <;> decide

theorem PType.privFile_ne_name (t : PType) : t.privFile ≠ "name" := by cases t <;> decide

theorem PType.privFile_ne_pubFile (t : PType) : t.privFile ≠ t.pubFile := by cases t <;> decide

theorem PType.pubFile_ne_dhparams (t : PType) : t.pubFile ≠ "dhparams.pem" := by cases t <;> decide

section Reach

variable {α : Type} {env : Env} {fs : FS} {d : Path} {files : String → Option Node}

/-- `mkdir` of a missing entry of a directory of a tree, when the environment lets it through:
an empty directory, and nothing else changed. -/
theorem run_mkdir_fresh (ht : fs.Tree) (hdir : fs.isDir d) {u : String}
    (hfresh : fs.get (d ++ [u]) = none) (he : env (.mkdir (d ++ [u])) = false) :
    ∃ fs1, fs1.Tree ∧ fs1.DirHolds (d ++ [u]) (fun _ => none) ∧ SameOutside (d ++ [u]) fs fs1 ∧
      ∀ {α : Type} (e : α) (k : Prog α), (check (.mkdir (d ++ [u])) e k).run env fs = k.run env fs1 := by
  have hmk : (Call.mkdir (d ++ [u])).step env fs = (.status true, fs.set (d ++ [u]) .dir) := by
    simp [Call.step, he, Call.exec, hfresh, hdir]
  have ht1 := step_tree ht env (.mkdir (d ++ [u]))
  rw [hmk] at ht1
  refine ⟨_, ht1, ht.dirHolds_set (by simp) hfresh, fun q hq => ?_, fun e k => ?_⟩
  · rw [get_set, if_neg (by rintro rfl; exact hq (List.prefix_refl _))]
  · rw [run_check_of_ok (by rw [hmk]; rfl), hmk]

/-- `open(O_CREAT|O_EXCL)` of a missing entry of a directory, when the environment lets it
through. -/
theorem step_openExcl_fresh (hd : fs.DirHolds d files) {x : String} (hx : files x = none)
    (he : env (.openExcl (d ++ [x])) = false) :
    (Call.openExcl (d ++ [x])).step env fs = (.status true, fs.set (d ++ [x]) (.file "")) := by
  simp [Call.step, he, Call.exec, hd.2, hx, FS.isDir, hd.1]

/-- `rename` of a directory onto a missing entry of a directory, neither at or below the
other, when the environment lets it through. -/
theorem step_rename_fresh {t dst : Path} (ht : fs.get t = some .dir) (htd : ¬ t <+: dst)
    (hdt : ¬ dst <+: t) (hne : dst ≠ []) (hdir : fs.isDir dst.dropLast) (hfree : fs.get dst = none)
    (he : env (.rename t dst) = false) :
    (Call.rename t dst).step env fs = (.status true, fs.move t dst) := by
  simp only [Call.step, he, Bool.false_and, Bool.false_eq_true, if_false, Call.exec]
  rw [if_pos ⟨ht, htd, hdt, hne, hdir, .inl hfree⟩]

/-- `open(O_CREAT|O_EXCL)` of a missing entry and a `write` to it, when neither fails. -/
theorem run_create_write_fresh (hw : env.WritesOk) (ht : fs.Tree) (hd : fs.DirHolds d files)
    {x : String} (hx : files x = none) (he : env (.openExcl (d ++ [x])) = false) (data : String)
    (e : α) (k : Prog α) :
    ∃ fs1, fs1.Tree ∧ fs1.DirHolds d (putFile files x (.file data)) ∧ SameOutside d fs fs1 ∧
      (check (.openExcl (d ++ [x])) e (seq (.write (d ++ [x]) data) k)).run env fs =
        k.run env fs1 := by
  have hs := step_openExcl_fresh hd hx he
  have ht1 := step_tree (step_tree ht env (.openExcl (d ++ [x]))) env (.write (d ++ [x]) data)
  rw [hs, step_write_set hw] at ht1
  refine ⟨_, ht1, by simpa using (hd.set x (.file "")).set x (.file ("" ++ data)),
    (sameOutside_set x _).trans (sameOutside_set x _), ?_⟩
  rw [run_check_of_ok (by rw [hs]; rfl), hs]
  simp only [seq, run_call, step_write_set hw]

/-- The `name` file, when its `open` does not fail. -/
theorem writeName_run_fresh (hw : env.WritesOk) (ht : fs.Tree) (hd : fs.DirHolds d files)
    (hx : files "name" = none) (he : env (.openExcl (d ++ ["name"])) = false) (name : String)
    (eOpen eWrite : α) (k : Prog α) :
    ∃ fs1, fs1.Tree ∧ fs1.DirHolds d
        (if name.data.length > 0 then putFile files "name" (.file (name ++ "\n")) else files) ∧
      SameOutside d fs fs1 ∧ (Keystore.writeName d name eOpen eWrite k).run env fs = k.run env fs1 := by
  unfold Keystore.writeName
  split_ifs with hn
  · have hs := step_openExcl_fresh hd hx he
    have ht1 := step_tree (step_tree (step_tree ht env (.openExcl (d ++ ["name"]))) env
      (.write (d ++ ["name"]) name)) env (.write (d ++ ["name"]) "\n")
    rw [hs, step_write_set hw, step_write_set hw] at ht1
    have hd' := ((hd.set "name" (.file "")).set "name" (.file ("" ++ name))).set "name"
      (.file ("" ++ name ++ "\n"))
    refine ⟨_, ht1, by simpa using hd',
      (sameOutside_set _ _).trans ((sameOutside_set _ _).trans (sameOutside_set _ _)), ?_⟩
    rw [run_check_of_ok (by rw [hs]; rfl), hs, run_check_write hw, run_check_write hw]
  · exact ⟨fs, ht, hd, .refl _ _, rfl⟩

end Reach

namespace Keystore

variable {cfg : Config} {K P : Type} (kp : KeyProvider K P)

/-- The key texts `add_persona` accepts, for the id `hex`: the public key normalizes to a text
with id `hex` that parses as an RSA or EC key, and the private key, if given, parses as a key of
the same type. -/
def Accepts (ks : Keystore cfg K P) (cPubPem privPem hex : String) : Prop :=
  ∃ pubPem kpub type1, normalizeAndHexhash ks.md cPubPem = (pubPem, some hex) ∧
    kp.readPubkey pubPem = some kpub ∧ typeOf (kp.kind kpub) = some type1 ∧
    (privPem.data.length > 0 →
      ∃ kpriv, kp.readPrivateKey privPem = some kpriv ∧ typeOf (kp.kind kpriv) = some type1)

theorem Accepts.isHexHash {ks : Keystore cfg K P} {cPubPem privPem hex : String}
    (h : ks.Accepts kp cPubPem privPem hex) : cfg.isHexHash hex = true :=
  let ⟨_, _, _, hnorm, _⟩ := h
  normalizeAndHexhash_isHexHash hnorm

variable (ks : Keystore cfg K P) {env : Env} {fs : FS} {tmpdir : Path}
  {hex name pubPem privPem dhparamsPem : String} {seed : Nat} {files : String → Option Node}

theorem addPersonaKeys_run_valid (hw : env.WritesOk) (he : ∀ p, env (.openExcl p) = false)
    (ht : fs.Tree) (hd : fs.DirHolds tmpdir files) {kpub : K} {type1 : PType} (hpub : pubPem.data.length > 0)
    (hk : kp.readPubkey pubPem = some kpub) (htype : typeOf (kp.kind kpub) = some type1)
    (hx : files type1.pubFile = none) :
    ∃ fs1, fs1.Tree ∧ fs1.DirHolds tmpdir (putFile files type1.pubFile (.file pubPem)) ∧
      SameOutside tmpdir fs fs1 ∧
      (ks.addPersonaKeys kp tmpdir hex name pubPem privPem dhparamsPem seed).run env fs =
        (ks.addPersonaPriv kp tmpdir hex name pubPem privPem dhparamsPem seed (some kpub)
          type1).run env fs1 := by
  unfold addPersonaKeys
  rw [if_pos hpub]
  simp only [hk, htype]
  exact run_create_write_fresh hw ht hd hx (he _) _ _ _

theorem addPersonaPriv_run_valid (hw : env.WritesOk) (he : ∀ p, env (.openExcl p) = false)
    (ht : fs.Tree) (hd : fs.DirHolds tmpdir files) {kpub : Option K} {type1 : PType}
    (hpriv : privPem.data.length > 0 →
      ∃ kpriv, kp.readPrivateKey privPem = some kpriv ∧ typeOf (kp.kind kpriv) = some type1)
    (hx : files type1.privFile = none) :
    ∃ kpriv fs1, fs1.Tree ∧ fs1.DirHolds tmpdir (if privPem.data.length > 0 then
        putFile files type1.privFile (.file privPem) else files) ∧ SameOutside tmpdir fs fs1 ∧
      (ks.addPersonaPriv kp tmpdir hex name pubPem privPem dhparamsPem seed kpub type1).run env fs =
        (ks.addPersonaPublish kp tmpdir hex name pubPem privPem dhparamsPem seed kpub kpriv
          type1).run env fs1 := by
  unfold addPersonaPriv
  split_ifs with hp
  · obtain ⟨kpriv, hk, htype⟩ := hpriv hp
    simp only [hk, htype, ne_eq, not_true_eq_false, and_false, ↓reduceIte]
    exact ⟨some kpriv, run_create_write_fresh hw ht hd hx (he _) privPem _ _⟩
  · exact ⟨none, fs, ht, hd, .refl _ _, rfl⟩

/-- With key texts it accepts, a fresh staging name in the base directory of a tree, and no
failing `mkdir`, `open` or `write`, `add_persona` reaches its `rename` with the staging
directory holding the `addedFiles`, and nothing else changed. -/
theorem addPersona_reaches_rename (hw : env.WritesOk)
    (he : ∀ p, env (.mkdir p) = false ∧ env (.openExcl p) = false) (htree : fs.Tree)
    (hbase : fs.isDir ks.cfgbase) {tv : Timeval} {pid : Nat}
    (hfresh : fs.get (ks.cfgbase ++ [uniqueName tv pid]) = none) {cPubPem : String} {kpub : K}
    {type1 : PType} (hnorm : normalizeAndHexhash ks.md cPubPem = (pubPem, some hex))
    (hk : kp.readPubkey pubPem = some kpub) (htype : typeOf (kp.kind kpub) = some type1)
    (hpriv : privPem.data.length > 0 →
      ∃ kpriv, kp.readPrivateKey privPem = some kpriv ∧ typeOf (kp.kind kpriv) = some type1)
    (name dhparamsPem : String) (seed : Nat) :
    ∃ kpriv fs1, fs1.Tree ∧ fs1.DirHolds (ks.cfgbase ++ [uniqueName tv pid])
        (addedFiles name type1 pubPem privPem none) ∧
      SameOutside (ks.cfgbase ++ [uniqueName tv pid]) fs fs1 ∧
      (ks.addPersona kp name cPubPem privPem dhparamsPem seed tv pid).run env fs =
        (ks.addPersonaPublish kp (ks.cfgbase ++ [uniqueName tv pid]) hex name pubPem privPem
          dhparamsPem seed (some kpub) kpriv type1).run env fs1 := by
  obtain ⟨fs0, ht0, hd0, hs0, h0⟩ := run_mkdir_fresh htree hbase hfresh (he _).1
  obtain ⟨fs1, ht1, hd1, hs1, h1⟩ := writeName_run_fresh hw ht0 hd0 rfl (he _).2 name
    (.error "add_persona::open:", ks)
    (.error "add_persona::write:", ks) (ks.addPersonaKeys kp _ hex name pubPem privPem dhparamsPem seed)
  obtain ⟨fs2, ht2, hd2, hs2, h2⟩ := addPersonaKeys_run_valid kp ks hw (fun p => (he p).2) ht1 hd1
    (normalizeAndHexhash_length_pos hnorm) hk htype
    (by split_ifs <;> simp [putFile, type1.pubFile_ne_name])
  obtain ⟨kpriv, fs3, ht3, hd3, hs3, h3⟩ := addPersonaPriv_run_valid kp ks hw (fun p => (he p).2)
    ht2 hd2 hpriv (by split_ifs <;> simp [putFile, type1.privFile_ne_name, type1.privFile_ne_pubFile])
  refine ⟨kpriv, fs3, ht3, hd3, ((hs0.trans hs1).trans hs2).trans hs3, ?_⟩
  unfold addPersona
  simp only [hnorm]
  rw [h0, h1, h2, h3]

end Keystore

/-! ## `add_persona` has the publishing shape -/

theorem seesBelow_readThen {α : Type} {d p : Path} {k : Option String → Prog α} (hp : d <+: p)
    (hk : ∀ c, SeesBelow d (k c)) : SeesBelow d (readThen p k) :=
  ⟨fun _ h => h ▸ hp, fun _ => hk _⟩

theorem seesBelow_rewindRead {α : Type} {d p : Path} {b : Bool} {k : Option String → Prog α}
    (hp : d <+: p) (hk : ∀ c, SeesBelow d (k c)) : SeesBelow d (rewindRead p b k) := by
  unfold rewindRead
  split
  exacts [seesBelow_readThen hp hk, hk none]

namespace Persona

variable {cfg : Config} {K P : Type} (kp : KeyProvider K P) (p : Persona K P)

/-- `new_dh_params()` sees only the persona directory and `dhparams.pem`. -/
theorem newDhParams_seesBelow {d : Path} (hd : p.dir = d) (seed : Nat) :
    SeesBelow d (p.newDhParams kp seed) := by
  subst hd
  unfold newDhParams
  split
  · trivial
  · exact seesBelow_check (sees_below_of_file fun _ h => h) <| seesBelow_check nofun <|
      seesBelow_streamWrite (List.prefix_append _ _) fun _ =>
      seesBelow_rewindRead (List.prefix_append _ _) fun _ => by split <;> trivial

/-- `new_dh_params(pem)` sees only the persona directory and `dhparams.pem`. -/
theorem newDhParamsPem_seesBelow {d : Path} (hd : p.dir = d) (pem : String) :
    SeesBelow d (p.newDhParamsPem kp pem) := by
  subst hd
  exact seesBelow_check (sees_below_of_file fun _ h => h) <| seesBelow_check nofun <|
    seesBelow_fwrite (List.prefix_append _ _) fun _ =>
    seesBelow_rewindRead (List.prefix_append _ _) fun _ => by split <;> trivial

end Persona

namespace Keystore

variable {cfg : Config} {K P : Type} (kp : KeyProvider K P) (ks : Keystore cfg K P)
  {tmpdir : Path} {hex name pubPem privPem dhparamsPem : String} {seed : Nat} {x : String}

/-- The end of `add_persona` makes no call. -/
theorem addPersonaFinish_inert (a : Except String (DHbox P) × Persona K P) :
    (∀ d, SeesBelow d (addPersonaFinish ks hex a)) ∧ ∀ q, (addPersonaFinish ks hex a).Avoids q := by
  rcases a with ⟨_ | _, _⟩ <;> exact ⟨fun _ => trivial, fun _ => trivial⟩

/-- After its `rename`, `add_persona` sees only the new directory and writes only
`dhparams.pem`; after a failed one, only its staging directory. -/
theorem addPersonaPublish_publishes (hx : x ≠ "dhparams.pem") (kpub kpriv : Option K)
    (type1 : PType) :
    Publishes tmpdir (ks.cfgbase ++ [hex]) x
      (ks.addPersonaPublish kp tmpdir hex name pubPem privPem dhparamsPem seed kpub kpriv type1) := by
  have hd : ks.cfgbase ++ [hex] ≠ ks.cfgbase ++ [hex] ++ ["dhparams.pem"] := by simp
  have hdx : ks.cfgbase ++ [hex] ++ [x] ≠ ks.cfgbase ++ [hex] ++ ["dhparams.pem"] := by simpa
  refine .rename (fun r hr => ?_) (fun r hr => ?_)
  · simp only [hr, not_true_eq_false, ↓reduceIte]
    split_ifs
    · exact ⟨seesBelow_bind (Persona.newDhParams_seesBelow kp _ (by rfl) seed)
          fun a => (addPersonaFinish_inert ks a).1 _,
        avoids_bind (Persona.newDhParams_avoids kp hd seed) fun a => (addPersonaFinish_inert ks a).2 _,
        avoids_bind (Persona.newDhParams_avoids kp hdx seed)
          fun a => (addPersonaFinish_inert ks a).2 _⟩
    · exact ⟨seesBelow_bind (Persona.newDhParamsPem_seesBelow kp _ (by rfl) _)
          fun a => (addPersonaFinish_inert ks a).1 _,
        avoids_bind (Persona.newDhParamsPem_avoids kp hd _) fun a => (addPersonaFinish_inert ks a).2 _,
        avoids_bind (Persona.newDhParamsPem_avoids kp hdx _)
          fun a => (addPersonaFinish_inert ks a).2 _⟩
    · exact ⟨trivial, trivial, trivial⟩
  · simp only [hr, Bool.false_eq_true, not_false_eq_true, ↓reduceIte]
    exact seesBelow_cleanup _ [_, _, _]

theorem addPersonaPriv_publishes (hx : x ≠ "dhparams.pem") (kpub : Option K) (type1 : PType) :
    Publishes tmpdir (ks.cfgbase ++ [hex]) x
      (ks.addPersonaPriv kp tmpdir hex name pubPem privPem dhparamsPem seed kpub type1) := by
  unfold addPersonaPriv
  split_ifs
  · split
    · exact .ret _
    split
    · exact .ret _
    split_ifs
    · exact .ret _
    · exact publishes_check (stages_openExcl _ _) <| publishes_seq (stages_write _ _ _) <|
        addPersonaPublish_publishes kp ks hx _ _ _
  · exact addPersonaPublish_publishes kp ks hx _ _ _

theorem addPersonaKeys_publishes (hx : x ≠ "dhparams.pem") :
    Publishes tmpdir (ks.cfgbase ++ [hex]) x
      (ks.addPersonaKeys kp tmpdir hex name pubPem privPem dhparamsPem seed) := by
  unfold addPersonaKeys
  split_ifs
  · split
    · exact .ret _
    split
    · exact .ret _
    · exact publishes_check (stages_openExcl _ _) <| publishes_seq (stages_write _ _ _) <|
        addPersonaPriv_publishes kp ks hx _ _
  · exact addPersonaPriv_publishes kp ks hx _ _

theorem writeName_publishes {α : Type} {t dst : Path} {eOpen eWrite : α} {k : Prog α}
    (hk : Publishes t dst x k) : Publishes t dst x (writeName t name eOpen eWrite k) := by
  unfold writeName
  split_ifs
  · exact publishes_check (stages_openExcl _ _) <| publishes_check (stages_write _ _ _) <|
      publishes_check (stages_write _ _ _) hk
  · exact hk

/-- `add_persona` of a key with id `hex` stages under its unique name and publishes as
`<base>/<hex>`, for every file name `x` but `dhparams.pem`. -/
theorem addPersona_publishes (hx : x ≠ "dhparams.pem") {cPubPem : String}
    (hnorm : (normalizeAndHexhash ks.md cPubPem).2 = some hex) (tv : Timeval) (pid : Nat) :
    Publishes (ks.cfgbase ++ [uniqueName tv pid]) (ks.cfgbase ++ [hex]) x
      (ks.addPersona kp name cPubPem privPem dhparamsPem seed tv pid) := by
  unfold addPersona
  split
  · exact .ret _
  next hex' h =>
    obtain rfl : hex' = hex := Option.some.inj (by rw [← hnorm, h])
    exact publishes_check (stages_mkdir _) <| writeName_publishes <| addPersonaKeys_publishes kp ks hx

end Keystore

/-! ## The two lone runs of `add_persona` -/

/-- In a tree, nothing is at or below a missing path. -/
theorem FS.Tree.get_eq_none_of_prefix {fs : FS} (h : fs.Tree) {p : Path} (hp : p ≠ [])
    (hn : fs.get p = none) {q : Path} (hq : p <+: q) : fs.get q = none := by
  by_cases hpq : p = q
  · exact hpq ▸ hn
  by_contra hs
  rcases h.2 q p (Option.ne_none_iff_isSome.mp hs) hq hpq with h' | h'
  · exact hp h'
  · simp [hn] at h'

/-- Two entries of one directory are not at or below each other. -/
theorem not_prefix_sibling {base : Path} {a b : String} (h : a ≠ b) : ¬ base ++ [a] <+: base ++ [b] :=
  fun hp => h (by simpa using hp.eq_of_length (by simp))

theorem apart_siblings {base : Path} {a b c : String} (hab : a ≠ b) (hca : c ≠ a) (hcb : c ≠ b) :
    Apart (base ++ [a]) (base ++ [b]) (base ++ [c]) :=
  ⟨not_prefix_sibling hab, not_prefix_sibling hab.symm, not_prefix_sibling hca.symm,
    not_prefix_sibling hca, not_prefix_sibling hcb.symm, not_prefix_sibling hcb, by simp⟩

/-- Two creating calls of a tree that stage under distinct unique names beside the free
directory of a hex id: every interleaving ends as one of them alone. -/
theorem Creates.race_unique {α β : Type} {cfg : Config} {fs : FS} {base : Path} {hex : String}
    (hhex : cfg.isHexHash hex = true) {tvA tvB : Timeval} {pidA pidB : Nat} {pA : Prog α}
    {pB : Prog β} {errA : α} {errB : β}
    (hA : Creates (base ++ [uniqueName tvA pidA]) (base ++ [hex]) errA fs pA)
    (hB : Creates (base ++ [uniqueName tvB pidB]) (base ++ [hex]) errB fs pB)
    (hu : uniqueName tvA pidA ≠ uniqueName tvB pidB) (htree : fs.Tree)
    (hfree : fs.get (base ++ [hex]) = none) (s : List Bool) :
    EndsAsAlone pA pB errA errB fs (runBoth Env.none s pA pB fs) :=
  hA.race hB (apart_siblings hu (ne_uniqueName hhex _ _) (ne_uniqueName hhex _ _))
    (fun _ => htree.get_eq_none_of_prefix (by simp) hfree) s

namespace Keystore

/-- The staging directory of `add_persona` holds files only, under the names its clean-up
unlinks. -/
theorem addedFiles_mem (name : String) (t : PType) (pubPem privPem y : String)
    (hy : addedFiles name t pubPem privPem none y ≠ none) :
    y ∈ [t.privFile, t.pubFile, "name"] ∧ addedFiles name t pubPem privPem none y ≠ some .dir := by
  simp only [addedFiles, Option.elim] at hy ⊢
  split_ifs at hy ⊢ <;> simp only [putFile_apply] at hy ⊢ <;> split_ifs at hy ⊢ <;> simp_all

variable {cfg : Config} {K P : Type} (kp : KeyProvider K P) (ks : Keystore cfg K P) {env : Env}
  {fs : FS} {hex pubPem privPem : String}

/-- The two lone runs of `add_persona` that a race compares, with key texts it accepts, from a
tree whose base directory holds neither its staging name nor `<base>/<hex>`, when no call fails
but maybe the `rename`: if the `rename` goes through, `<base>/<hex>` is published with the
public key file in it; if it fails, the call returns the `rename` error and leaves the file
system as it found it. -/
theorem addPersona_lone (hw : env.WritesOk) (hr : env.RemovesOk)
    (he : ∀ p, env (.mkdir p) = false ∧ env (.openExcl p) = false) (htree : fs.Tree)
    (hbase : fs.isDir ks.cfgbase) {tv : Timeval} {pid : Nat}
    (hfresh : fs.get (ks.cfgbase ++ [uniqueName tv pid]) = none)
    (hfree : fs.get (ks.cfgbase ++ [hex]) = none) {cPubPem : String} {kpub : K} {type1 : PType}
    (hnorm : normalizeAndHexhash ks.md cPubPem = (pubPem, some hex))
    (hk : kp.readPubkey pubPem = some kpub) (htype : typeOf (kp.kind kpub) = some type1)
    (hpriv : privPem.data.length > 0 →
      ∃ kpriv, kp.readPrivateKey privPem = some kpriv ∧ typeOf (kp.kind kpriv) = some type1)
    (name dhparamsPem : String) (seed : Nat) :
    (env (.rename (ks.cfgbase ++ [uniqueName tv pid]) (ks.cfgbase ++ [hex])) = false →
      (((ks.addPersona kp name cPubPem privPem dhparamsPem seed tv pid).run env fs).2.get
          (ks.cfgbase ++ [hex])).isSome ∧
        (((ks.addPersona kp name cPubPem privPem dhparamsPem seed tv pid).run env fs).2.get
          (ks.cfgbase ++ [hex] ++ [type1.pubFile])).isSome) ∧
    (env (.rename (ks.cfgbase ++ [uniqueName tv pid]) (ks.cfgbase ++ [hex])) = true →
      ((ks.addPersona kp name cPubPem privPem dhparamsPem seed tv pid).run env fs).1 =
          (.error ("add_persona::rename: Error creating persona " ++ hex), ks) ∧
        ∀ q, ((ks.addPersona kp name cPubPem privPem dhparamsPem seed tv pid).run env fs).2.get q =
          fs.get q) := by
  obtain ⟨kpriv, fs1, ht1, hd1, hs1, hrun⟩ :=
    addPersona_reaches_rename kp ks hw he htree hbase hfresh hnorm hk htype hpriv name dhparamsPem seed
  have hne := ne_uniqueName (normalizeAndHexhash_isHexHash hnorm) tv pid
  have htd : ¬ ks.cfgbase ++ [uniqueName tv pid] <+: ks.cfgbase ++ [hex] := not_prefix_sibling hne.symm
  have hdt : ¬ ks.cfgbase ++ [hex] <+: ks.cfgbase ++ [uniqueName tv pid] := not_prefix_sibling hne
  rw [hrun]
  unfold addPersonaPublish
  refine ⟨fun hren => ?_, fun hren => ?_⟩
  · have hb : ¬ ks.cfgbase ++ [uniqueName tv pid] <+: ks.cfgbase := fun h => by
      simpa using h.length_le
    have hdir : fs1.isDir (ks.cfgbase ++ [hex]).dropLast := by
      simpa only [List.dropLast_concat, FS.isDir, hs1 _ hb] using hbase
    have hstep := step_rename_fresh hd1.1 htd hdt (by simp) hdir ((hs1 _ htd).trans hfree) hren
    have hP : Publishes _ _ _ (ks.addPersonaPublish kp (ks.cfgbase ++ [uniqueName tv pid]) hex name pubPem privPem dhparamsPem seed
        (some kpub) kpriv type1) :=
      addPersonaPublish_publishes kp ks type1.pubFile_ne_dhparams (some kpub) kpriv type1
    obtain ⟨h₁, h₂⟩ := hP.run_of_rename_ok htd (by rw [hstep]; rfl)
    have hm := hd1.move htd hdt
    rw [hstep] at h₁ h₂
    exact ⟨by rw [h₁, hm.1]; rfl, by rw [h₂, hm.2, addedFiles_pubFile]; rfl⟩
  · have hstep : (Call.rename (ks.cfgbase ++ [uniqueName tv pid]) (ks.cfgbase ++ [hex])).step env fs1 =
        (.status false, fs1) := by
      simp [Call.step, hren, Call.faultable]
    simp only [run_call, hstep, Reply.ok, Bool.false_eq_true, not_false_eq_true, ↓reduceIte]
    obtain ⟨hc₁, hc₂⟩ := cleanup_run hr
      ((.error ("add_persona::rename: Error creating persona " ++ hex), ks) :
        Except String (Persona K P) × Keystore cfg K P)
      [type1.privFile, type1.pubFile, "name"] ht1 hd1 (addedFiles_mem name type1 pubPem privPem)
    refine ⟨rfl, fun q => ?_⟩
    by_cases hq : ks.cfgbase ++ [uniqueName tv pid] <+: q
    · exact (hc₁ q hq).trans (htree.get_eq_none_of_prefix (by simp) hfresh hq).symm
    · exact (hc₂ q hq).trans (hs1 q hq)

/-- `add_persona` of key texts it accepts, from a tree whose base directory holds neither its
staging name nor `<base>/<hex>`, creates `<base>/<hex>`, and loses with the `rename` error. -/
theorem addPersona_creates (htree : fs.Tree) (hbase : fs.isDir ks.cfgbase) {tv : Timeval}
    {pid : Nat} (hfresh : fs.get (ks.cfgbase ++ [uniqueName tv pid]) = none)
    (hfree : fs.get (ks.cfgbase ++ [hex]) = none) {cPubPem : String}
    (hacc : ks.Accepts kp cPubPem privPem hex) (name dhparamsPem : String) (seed : Nat) :
    Creates (ks.cfgbase ++ [uniqueName tv pid]) (ks.cfgbase ++ [hex])
      (.error ("add_persona::rename: Error creating persona " ++ hex), ks) fs
      (ks.addPersona kp name cPubPem privPem dhparamsPem seed tv pid) := by
  obtain ⟨pubPem, kpub, type1, hnorm, hk, htype, hpriv⟩ := hacc
  have h₀ := (addPersona_lone kp ks (show Env.none.WritesOk from fun _ _ => rfl)
    (fun _ => ⟨rfl, rfl⟩) (fun _ => ⟨rfl, rfl⟩) htree hbase hfresh hfree hnorm hk htype hpriv name dhparamsPem seed).1 rfl
  have h₁ := (addPersona_lone kp ks
    (failRename_writesOk (ks.cfgbase ++ [uniqueName tv pid]) (ks.cfgbase ++ [hex]) true)
    (failRename_removesOk _ _ true) (failRename_staging _ _ true) htree hbase hfresh hfree hnorm hk htype hpriv name dhparamsPem
    seed).2 (failRename_rename _ _ true)
  exact ⟨type1.pubFile, addPersona_publishes kp ks type1.pubFile_ne_dhparams (by rw [hnorm]) tv pid,
    h₀.1, h₀.2, h₁⟩

end Keystore

end OpmsgKeystore