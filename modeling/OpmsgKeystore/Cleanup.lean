import OpmsgKeystore.TestDouble

/-!
# What a failed create leaves behind

`add_persona`, `gen_kex_key` and `add_dh_pubkey` make a staging directory with
`mkdir_helper`, fill it, and only then publish it under its final name. Only the publishing
step cleans up after itself: the `rename` failure of `add_persona`, the `stat`/`rename`
failure of the kex keys. Every earlier error return comes after the `mkdir` and before that
step, and none of them touches the staging directory again.

`Prog.Before` says what a program does up to its first publishing call. The lemmas below walk
every path of each operation up to that call (`addPersonaKeys_before`; `writePeer_before`
for the peer file of `gen_kex_key`); with `Prog.run_of_before`, a run that fails before it publishes
returns an error with the state it was given, and its staging directory is still there
(`addPersona_error_keeps_staging`, `genKexKey_error_keeps_staging`,
`addDhPubkey_error_keeps_staging`). `addDhPubkey_conflict_keeps_staging` is a second
`add_dh_pubkey` of one PEM whose `open` fails: unlike the first, which fails on the taken id and
cleans up, it leaves its staging directory behind.
-/

namespace OpmsgKeystore

open Prog

variable {cfg : Config} {K P : Type} (kp : KeyProvider K P)

/-- What an operation may return before it publishes: an error, with the state (keystore or
persona) it was given. -/
def FailedAs {β σ : Type} (s : σ) (r : Except String β × σ) : Prop := (∃ m, r.1 = .error m) ∧ r.2 = s

theorem failedAs_error {β σ : Type} (s : σ) (m : String) : FailedAs s ((.error m : Except String β), s) :=
  ⟨⟨m, rfl⟩, rfl⟩

/-- A child of a directory is not the directory. -/
@[simp] theorem append_singleton_ne (t : Path) (x : String) : ¬ t = t ++ [x] := by simp

section Stop

variable {α : Type} {t : Path} {Q : α → Prop} {R : Prog α → Prop}

@[simp] theorem before_rename {a b : Path} {k : Reply → Prog α} :
    (call (.rename a b) k).Before Call.publishing t Q (fun _ => True) := .inl ⟨rfl, trivial⟩

@[simp] theorem before_stat {a : Path} {k : Reply → Prog α} :
    (call (.stat a) k).Before Call.publishing t Q (fun _ => True) := .inl ⟨rfl, trivial⟩

end Stop

/-! ## `add_persona` -/

namespace Keystore

variable (ks : Keystore cfg K P) (tmpdir : Path) {q : Path}
  {Q : Except String (Persona K P) × Keystore cfg K P → Prop}
  {R : Prog (Except String (Persona K P) × Keystore cfg K P) → Prop}

/-- The staging steps of `add_persona` leave alone every path that is not a file of the
staging directory; they return only errors, with the keystore as it was. These lemmas walk
them up to the `rename`, for any `Q` that holds of such an error and any `R` that holds of
the program at the `rename`. -/
theorem writeName_before {name : String} {eOpen eWrite : Except String (Persona K P) × Keystore cfg K P}
    {k : Prog (Except String (Persona K P) × Keystore cfg K P)} (hq : ∀ x, q ≠ tmpdir ++ [x])
    (ho : Q eOpen) (hw : Q eWrite) (hk : k.Before Call.publishing q Q R) :
    (writeName tmpdir name eOpen eWrite k).Before Call.publishing q Q R := by
  unfold writeName
  split
  · simp [Call.touches, hq, ho, hw, hk]
  · exact hk

theorem addPersonaPriv_before (hq : ∀ x, q ≠ tmpdir ++ [x]) (hQ : ∀ m, Q (.error m, ks))
    (hex name pubPem privPem dhparamsPem : String) (seed : Nat) (kpub : Option K) (type1 : PType)
    (hR : ∀ kpriv, R (addPersonaPublish kp ks tmpdir hex name pubPem privPem dhparamsPem seed
      kpub kpriv type1)) :
    (addPersonaPriv kp ks tmpdir hex name pubPem privPem dhparamsPem seed kpub type1).Before
      Call.publishing q Q R := by
  unfold addPersonaPriv
  split
  · split
    · exact hQ _
    · split
      · exact hQ _
      · split
        · exact hQ _
        · simp only [before_check, before_seq, Call.touches, Call.publishing, hq,
            Bool.false_eq_true, false_and, false_or, not_false_eq_true, true_and, hQ]
          exact .inl ⟨rfl, hR _⟩
  · exact .inl ⟨rfl, hR _⟩

theorem addPersonaKeys_before (hq : ∀ x, q ≠ tmpdir ++ [x]) (hQ : ∀ m, Q (.error m, ks))
    (hex name pubPem privPem dhparamsPem : String) (seed : Nat)
    (hR : ∀ kpub kpriv type1, R (addPersonaPublish kp ks tmpdir hex name pubPem privPem
      dhparamsPem seed kpub kpriv type1)) :
    (addPersonaKeys kp ks tmpdir hex name pubPem privPem dhparamsPem seed).Before
      Call.publishing q Q R := by
  unfold addPersonaKeys
  split
  · split
    · exact hQ _
    · split
      · exact hQ _
      · simp only [before_check, before_seq, Call.touches, Call.publishing, hq,
          Bool.false_eq_true, false_and, false_or, not_false_eq_true, true_and, hQ]
        exact addPersonaPriv_before kp ks tmpdir hq hQ _ _ _ _ _ _ _ _ fun _ => hR _ _ _
  · exact addPersonaPriv_before kp ks tmpdir hq hQ _ _ _ _ _ _ _ _ fun _ => hR _ _ _

/-- A run of `add_persona` that made its staging directory and then failed before its
`rename` returns an error, leaves the persona map alone, and leaves the staging directory
in place. -/
theorem addPersona_error_keeps_staging (env : Env) (fs : FS)
    (name cPubPem privPem dhparamsPem : String) (seed : Nat) (tv : Timeval) (pid : Nat)
    (normalized : (normalizeAndHexhash ks.md cPubPem).2.isSome)
    (staged : ((Call.mkdir (ks.cfgbase ++ [uniqueName tv pid])).step env fs).1.ok)
    (unpublished : ∀ c ∈ (ks.addPersona kp name cPubPem privPem dhparamsPem seed tv pid).calls env fs,
      c.publishing = false) :
    FailedAs ks ((ks.addPersona kp name cPubPem privPem dhparamsPem seed tv pid).run env fs).1 ∧
      ((ks.addPersona kp name cPubPem privPem dhparamsPem seed tv pid).run env fs).2.get
        (ks.cfgbase ++ [uniqueName tv pid]) = some .dir := by
  obtain ⟨pubPem, hex, hn⟩ : ∃ pubPem hex, normalizeAndHexhash ks.md cPubPem = (pubPem, some hex) := by
    rcases h : normalizeAndHexhash ks.md cPubPem with ⟨pubPem, _ | hex⟩
    · simp [h] at normalized
    · exact ⟨pubPem, hex, rfl⟩
  simp only [addPersona, hn, run_check_of_ok staged, calls_check_of_ok staged, List.mem_cons,
    forall_eq_or_imp] at unpublished ⊢
  rw [← get_mkdir_of_ok staged]
  have hq : ∀ x, ks.cfgbase ++ [uniqueName tv pid] ≠ ks.cfgbase ++ [uniqueName tv pid] ++ [x] :=
    fun x => append_singleton_ne _ x
  exact run_of_before (writeName_before _ hq (failedAs_error ks _) (failedAs_error ks _)
    (addPersonaKeys_before kp ks _ hq (failedAs_error ks) hex name pubPem privPem dhparamsPem seed
      fun _ _ _ => trivial) : Before Call.publishing _ _ (fun _ => True) _) env _ unpublished.2

/-- An RSA public key with an EC private key, in an empty base directory: `add_persona`
fails on the type mismatch and leaves its staging directory behind. -/
theorem addPersona_mismatch_keeps_staging :
    (normalizeAndHexhash TestDouble.keystore.md
      (TestDouble.provider.writePubkey .rsa)).2.isSome ∧
    ((Call.mkdir (TestDouble.keystore.cfgbase ++ [uniqueName ⟨1, 2⟩ 7])).step Env.none
      TestDouble.baseOnly).1.ok ∧
    (∀ c ∈ (TestDouble.keystore.addPersona TestDouble.provider "alice"
      (TestDouble.provider.writePubkey .rsa) (TestDouble.privText .ec) "" 0 ⟨1, 2⟩ 7).calls
        Env.none TestDouble.baseOnly, c.publishing = false) ∧
    FailedAs TestDouble.keystore ((TestDouble.keystore.addPersona TestDouble.provider "alice"
      (TestDouble.provider.writePubkey .rsa) (TestDouble.privText .ec) "" 0 ⟨1, 2⟩ 7).run
        Env.none TestDouble.baseOnly).1 ∧
    ((TestDouble.keystore.addPersona TestDouble.provider "alice"
      (TestDouble.provider.writePubkey .rsa) (TestDouble.privText .ec) "" 0 ⟨1, 2⟩ 7).run
        Env.none TestDouble.baseOnly).2.get ["ks", uniqueName ⟨1, 2⟩ 7] = some .dir :=
  have hnorm : (normalizeAndHexhash TestDouble.keystore.md
      (TestDouble.provider.writePubkey .rsa)).2.isSome := by decide
  have hmkdir : ((Call.mkdir (TestDouble.keystore.cfgbase ++ [uniqueName ⟨1, 2⟩ 7])).step
      Env.none TestDouble.baseOnly).1.ok := by decide
  have hpub : ∀ c ∈ (TestDouble.keystore.addPersona TestDouble.provider "alice"
      (TestDouble.provider.writePubkey .rsa) (TestDouble.privText .ec) "" 0 ⟨1, 2⟩ 7).calls
        Env.none TestDouble.baseOnly, c.publishing = false := by decide
  ⟨hnorm, hmkdir, hpub, addPersona_error_keeps_staging TestDouble.provider TestDouble.keystore
    Env.none TestDouble.baseOnly "alice" _ _ "" 0 ⟨1, 2⟩ 7 hnorm hmkdir hpub⟩

end Keystore

/-! ## `gen_kex_key` -/

namespace Persona

@[simp] theorem writePeer_before {α : Type} {Q : α → Prop} {R : Prog α → Prop} {q : Path}
    {peerfile : Path} {peer : String} {k : Prog α} (hq : peerfile ≠ q) :
    (writePeer cfg peerfile peer k).Before Call.publishing q Q R ↔
      k.Before Call.publishing q Q R := by
  have hnt : ∀ {c : Call}, (∀ q', c.touches q' → q' = peerfile) → ¬ c.touches q :=
    fun h ht => hq (h _ ht).symm
  unfold writePeer
  split
  · constructor
    · rintro (⟨h, -⟩ | ⟨-, h⟩)
      · exact absurd h Bool.false_ne_true
      · simpa [Reply.ok] using h (.status false)
    · intro hk
      refine .inr ⟨hnt fun _ h => h, fun r => ?_⟩
      dsimp only
      split
      · refine .inr ⟨hnt fun _ h => h, fun w => ?_⟩
        dsimp only
        split
        · exact hk
        · exact before_seq.mpr (.inr ⟨hnt fun _ h => h, hk⟩)
      · exact hk
  · rfl

/-- A run of `gen_kex_key` that made its staging directory and then failed before it
checked the final name returns an error, leaves the persona alone, and leaves the staging
directory in place. -/
theorem genKexKey_error_keeps_staging (md : Md cfg) (p : Persona K P) (peer : String)
    (seed : Nat) (tv : Timeval) (pid : Nat) (env : Env) (fs : FS) {pubPem privPem hex : String}
    {kpub kpriv : K} (generated : kexMaterial cfg kp md p seed = .ok (pubPem, privPem, hex))
    (absent : p.keys.find hex = none) (pubParses : kp.readPubkey pubPem = some kpub)
    (privParses : kp.readPrivateKey privPem = some kpriv)
    (staged : ((Call.mkdir (p.dir ++ [uniqueName tv pid])).step env fs).1.ok)
    (unpublished : ∀ c ∈ (genKexKey cfg kp md p peer seed tv pid).calls env fs, c.publishing = false) :
    FailedAs p ((genKexKey cfg kp md p peer seed tv pid).run env fs).1 ∧
      ((genKexKey cfg kp md p peer seed tv pid).run env fs).2.get
        (p.dir ++ [uniqueName tv pid]) = some .dir := by
  simp only [genKexKey, generated, absent, pubParses, privParses, run_check_of_ok staged,
    calls_check_of_ok staged, List.mem_cons, forall_eq_or_imp] at unpublished ⊢
  rw [← get_mkdir_of_ok staged]
  refine run_of_before (?_ : Before Call.publishing _ _ (fun _ => True) _) env _ unpublished.2
  have hfile : ∀ x, p.dir ++ [uniqueName tv pid] ≠ p.dir ++ [uniqueName tv pid] ++ [x] :=
    append_singleton_ne _
  refine before_check.mpr (.inr ⟨hfile _, failedAs_error _ _, before_check.mpr (.inr ⟨nofun,
    failedAs_error _ _, before_fwrite (hfile _) (failedAs_error _ _) fun _ => ?_⟩)⟩)
  refine before_check.mpr (.inr ⟨hfile _, failedAs_error _ _, before_check.mpr (.inr ⟨nofun,
    failedAs_error _ _, before_fwrite (hfile _) (failedAs_error _ _) fun _ => ?_⟩)⟩)
  exact (writePeer_before (hfile _).symm).mpr (.inl ⟨rfl, trivial⟩)

/-- An EC persona whose `fdopen` of `dh.pub.pem` fails: `gen_kex_key` returns an error and
leaves the staging directory, with an empty `dh.pub.pem` in it. -/
theorem genKexKey_fdopen_keeps_staging :
    kexMaterial TestDouble.config TestDouble.provider TestDouble.md TestDouble.ecPersona 0 =
      .ok (TestDouble.provider.writePubkey .ec, TestDouble.privText .ec, "9999999999999999") ∧
    TestDouble.ecPersona.keys.find "9999999999999999" = none ∧
    TestDouble.provider.readPubkey (TestDouble.provider.writePubkey .ec) = some .ec ∧
    TestDouble.provider.readPrivateKey (TestDouble.privText .ec) = some .ec ∧
    ((Call.mkdir (TestDouble.ecPersona.dir ++ [uniqueName ⟨1, 2⟩ 7])).step
      TestDouble.fdopenFails TestDouble.withPersona).1.ok ∧
    (∀ c ∈ (genKexKey TestDouble.config TestDouble.provider TestDouble.md TestDouble.ecPersona
      "" 0 ⟨1, 2⟩ 7).calls TestDouble.fdopenFails TestDouble.withPersona,
        c.publishing = false) ∧
    FailedAs TestDouble.ecPersona ((genKexKey TestDouble.config TestDouble.provider TestDouble.md
      TestDouble.ecPersona "" 0 ⟨1, 2⟩ 7).run TestDouble.fdopenFails TestDouble.withPersona).1 ∧
    ((genKexKey TestDouble.config TestDouble.provider TestDouble.md TestDouble.ecPersona "" 0
      ⟨1, 2⟩ 7).run TestDouble.fdopenFails TestDouble.withPersona).2.get
        (TestDouble.ecPersona.dir ++ [uniqueName ⟨1, 2⟩ 7]) = some .dir :=
  have hmat : kexMaterial TestDouble.config TestDouble.provider TestDouble.md
      TestDouble.ecPersona 0 =
        .ok (TestDouble.provider.writePubkey .ec, TestDouble.privText .ec, "9999999999999999") :=
    rfl
  have hnew : TestDouble.ecPersona.keys.find "9999999999999999" = none := rfl
  have hpub : TestDouble.provider.readPubkey (TestDouble.provider.writePubkey .ec) = some .ec := by
    decide
  have hpriv : TestDouble.provider.readPrivateKey (TestDouble.privText .ec) = some .ec := by
    decide
  have hmkdir : ((Call.mkdir (TestDouble.ecPersona.dir ++ [uniqueName ⟨1, 2⟩ 7])).step
      TestDouble.fdopenFails TestDouble.withPersona).1.ok := by decide
  have hstop : ∀ c ∈ (genKexKey TestDouble.config TestDouble.provider TestDouble.md
      TestDouble.ecPersona "" 0 ⟨1, 2⟩ 7).calls TestDouble.fdopenFails TestDouble.withPersona,
        c.publishing = false := by decide
  ⟨hmat, hnew, hpub, hpriv, hmkdir, hstop, genKexKey_error_keeps_staging TestDouble.provider
    TestDouble.md TestDouble.ecPersona "" 0 ⟨1, 2⟩ 7 TestDouble.fdopenFails TestDouble.withPersona
    hmat hnew hpub hpriv hmkdir hstop⟩

/-- A run of `add_dh_pubkey` that made its staging directory and then failed before it
checked the final name returns an error, leaves the persona and the caller's string alone, and
leaves the staging directory in place. -/
theorem addDhPubkey_error_keeps_staging (md : Md cfg) (p : Persona K P) (pem : String)
    (tv : Timeval) (pid : Nat) (env : Env) (fs : FS) {kpub : K} {hex pem' : String}
    (parsed : dhPubkeyId cfg kp md pem = (.ok (kpub, hex), pem')) (absent : p.keys.find hex = none)
    (staged : ((Call.mkdir (p.dir ++ [uniqueName tv pid])).step env fs).1.ok)
    (unpublished : ∀ c ∈ (addDhPubkey cfg kp md p pem tv pid).calls env fs, c.publishing = false) :
    FailedAs (p, pem') ((addDhPubkey cfg kp md p pem tv pid).run env fs).1 ∧
      ((addDhPubkey cfg kp md p pem tv pid).run env fs).2.get
        (p.dir ++ [uniqueName tv pid]) = some .dir := by
  simp only [addDhPubkey, parsed, absent, run_check_of_ok staged, calls_check_of_ok staged,
    List.mem_cons, forall_eq_or_imp] at unpublished ⊢
  rw [← get_mkdir_of_ok staged]
  refine run_of_before (?_ : Before Call.publishing _ _ (fun _ => True) _) env _ unpublished.2
  have hfile : ∀ x, p.dir ++ [uniqueName tv pid] ≠ p.dir ++ [uniqueName tv pid] ++ [x] :=
    append_singleton_ne _
  exact before_check.mpr (.inr ⟨hfile _, failedAs_error _ _, before_check.mpr (.inr ⟨nofun,
    failedAs_error _ _, before_fwrite (hfile _) (failedAs_error _ _) fun _ => before_stat⟩)⟩)

/-- The directory of the EC kex key of `ecPersona` already exists. -/
def ecKexTaken : FS :=
  ⟨[(["ks", "0123456789abcdef", "9999999999999999"], .dir), (["ks", "0123456789abcdef"], .dir),
    (["ks"], .dir)]⟩

/-- An environment in which every `open(O_CREAT|O_EXCL)` fails. -/
def openExclFails : Env := fun c => c matches .openExcl _

/-- `add_dh_pubkey` of the EC key twice on `ecPersona` whose kex directory exists: the first
call fails on the taken id and removes its staging directory; the second, on the string the
first left, fails on its `open` and leaves its staging directory behind. -/
theorem addDhPubkey_conflict_keeps_staging :
    let r₁ := (TestDouble.ecPersona.addDhPubkey TestDouble.config TestDouble.provider TestDouble.md
      (TestDouble.provider.writePubkey .ec) ⟨1, 2⟩ 7).run Env.none ecKexTaken
    r₁.1.1 = .error "add_dh_key: Error storing (EC)DH pubkey 9999999999999999" ∧
    r₁.2.get ["ks", "0123456789abcdef", uniqueName ⟨1, 2⟩ 7] = none ∧
    dhPubkeyId TestDouble.config TestDouble.provider TestDouble.md r₁.1.2.2 =
      (.ok (.ec, "9999999999999999"), r₁.1.2.2) ∧
    r₁.1.2.1.keys.find "9999999999999999" = none ∧
    ((Call.mkdir (r₁.1.2.1.dir ++ [uniqueName ⟨1, 2⟩ 8])).step openExclFails r₁.2).1.ok ∧
    (∀ c ∈ (r₁.1.2.1.addDhPubkey TestDouble.config TestDouble.provider TestDouble.md r₁.1.2.2
      ⟨1, 2⟩ 8).calls openExclFails r₁.2, c.publishing = false) ∧
    FailedAs (r₁.1.2.1, r₁.1.2.2) ((r₁.1.2.1.addDhPubkey TestDouble.config TestDouble.provider
      TestDouble.md r₁.1.2.2 ⟨1, 2⟩ 8).run openExclFails r₁.2).1 ∧
    ((r₁.1.2.1.addDhPubkey TestDouble.config TestDouble.provider TestDouble.md r₁.1.2.2
      ⟨1, 2⟩ 8).run openExclFails r₁.2).2.get (r₁.1.2.1.dir ++ [uniqueName ⟨1, 2⟩ 8]) = some .dir :=
  have hid : dhPubkeyId TestDouble.config TestDouble.provider TestDouble.md
      (TestDouble.provider.writePubkey .ec) =
        (.ok (.ec, "9999999999999999"), TestDouble.provider.writePubkey .ec) := rfl
  have hnew : TestDouble.ecPersona.keys.find "9999999999999999" = none := rfl
  have hmkdir : ((Call.mkdir (TestDouble.ecPersona.dir ++ [uniqueName ⟨1, 2⟩ 8])).step
      openExclFails ((TestDouble.ecPersona.addDhPubkey TestDouble.config TestDouble.provider
        TestDouble.md (TestDouble.provider.writePubkey .ec) ⟨1, 2⟩ 7).run Env.none
          ecKexTaken).2).1.ok := by decide
  have hstop : ∀ c ∈ (TestDouble.ecPersona.addDhPubkey TestDouble.config TestDouble.provider
      TestDouble.md (TestDouble.provider.writePubkey .ec) ⟨1, 2⟩ 8).calls openExclFails
        ((TestDouble.ecPersona.addDhPubkey TestDouble.config TestDouble.provider TestDouble.md
          (TestDouble.provider.writePubkey .ec) ⟨1, 2⟩ 7).run Env.none ecKexTaken).2,
        c.publishing = false := by decide
  ⟨rfl, rfl, hid, hnew, hmkdir, hstop, addDhPubkey_error_keeps_staging TestDouble.provider
    TestDouble.md TestDouble.ecPersona _ ⟨1, 2⟩ 8 openExclFails _ hid hnew hmkdir hstop⟩

end Persona

end OpmsgKeystore
