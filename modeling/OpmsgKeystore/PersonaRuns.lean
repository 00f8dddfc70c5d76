import OpmsgKeystore.LoadMap

/-!
# A persona over a sequence of operations

A persona that `add_persona` returned, or that `persona::load("")` rebuilt from its
directory, goes on to live through the operations of `keystore.cc` that change it: new and
imported kex keys, deletions, `used` marks, the source link and new DH parameters.
`PersonaOp` names them, `PersonaOp.prog` runs one as a program that returns the persona it
leaves, and `Reachable` closes both kinds of start under these steps. `Admits` says which
starts and which steps a run admits, each step in its own environment.

The type discipline of a persona (DH parameters only for RSA, long-term keys of the
persona's type) holds for what `add_persona` returns (`addPersona_typeInv`), and for what
`persona::load` rebuilds when the key files hold keys of the type their names say
(`typeInv_of_load`); every operation but `new_dh_params` leaves type, key and parameters
alone (`PersonaOp.prog_keepsLongTerm`). Neither `check_type` nor `new_dh_params` looks at a
key: a `rsa.pub.pem` holding an EC key loads as an RSA persona with an EC key, and on an EC
persona `new_dh_params` sets DH parameters (`typeInv_broken`). With typed key files and
`new_dh_params` called only for RSA personas, as `add_persona` does, every reachable persona
keeps the discipline (`typeInv_of_reachable`).
-/

namespace OpmsgKeystore

open Prog

variable {cfg : Config} {K P : Type} (kp : KeyProvider K P)

/-- An operation of this file on a persona, with the arguments the caller passes and the
entropy, time and process id it draws. -/
inductive PersonaOp (cfg : Config)
  | genKexKey (md : Md cfg) (peer : String) (seed : Nat) (tv : Timeval) (pid : Nat)
  | addDhPubkey (md : Md cfg) (pem : String) (tv : Timeval) (pid : Nat)
  | delDhId (hex : String)
  | delDhPriv (hex : String)
  | delDhPub (hex : String)
  | usedKey (hex : String) (u : Bool)
  | link (hex : String)
  | newDhParams (seed : Nat)
  | newDhParamsPem (pem : String)

namespace PersonaOp

/-- The operation as a program that returns the persona it leaves. -/
def prog : PersonaOp cfg → Persona K P → Prog (Persona K P)
  | genKexKey md peer seed tv pid, p => (p.genKexKey cfg kp md peer seed tv pid).bind (ret ·.2)
  | addDhPubkey md pem tv pid, p => (p.addDhPubkey cfg kp md pem tv pid).bind (ret ·.2.1)
  | delDhId hex, p => (p.delDhId cfg hex).bind (ret ·.2)
  | delDhPriv hex, p => (p.delDhPriv cfg hex).bind (ret ·.2)
  | delDhPub hex, p => (p.delDhPub cfg hex).bind (ret ·.2)
  | usedKey hex u, p => (p.usedKey cfg hex u).bind fun _ => ret p
  | link hex, p => (p.link cfg hex).bind (ret ·.2)
  | newDhParams seed, p => (p.newDhParams kp seed).bind (ret ·.2)
  | newDhParamsPem pem, p => (p.newDhParamsPem kp pem).bind (ret ·.2)

/-- `new_dh_params()` and `new_dh_params(pem)`, the operations that set DH parameters. -/
def setsDhParams : PersonaOp cfg → Bool
  | newDhParams _ | newDhParamsPem _ => true
  | _ => false

end PersonaOp

/-- What a run of a persona admits: the disk and persona directory a `persona::load("")`
starts from, the environment and disk an `add_persona` runs in, and each operation in its
environment on the persona it is given. -/
structure Admits (cfg : Config) (K P : Type) where
  load : FS → Path → Prop
  add : Env → FS → Prop
  op : Env → PersonaOp cfg → Persona K P → Prop

/-- Every start and every operation, in every environment. -/
def Admits.any : Admits cfg K P := ⟨fun _ _ => True, fun _ _ => True, fun _ _ _ => True⟩

/-- The persona states of a run: a persona that `persona::load("")` rebuilt from its directory,
or that `add_persona` returned, then the operations the run admits, each in its own
environment. -/
inductive Reachable (a : Admits cfg K P) : Persona K P × FS → Prop
  | loaded {fs : FS} (base : Path) (hex : String) {q : Persona K P} (hstart : a.load fs (base ++ [hex]))
      (h : (Persona.new base hex "" : Persona K P).load cfg kp fs "" = (.ok (), q)) :
      Reachable a (q, fs)
  | added (ks : Keystore cfg K P) (env : Env) (fs : FS) (name cPubPem privPem dhparamsPem : String)
      (seed : Nat) (tv : Timeval) (pid : Nat) (p : Persona K P) (hstart : a.add env fs)
      (h : ((ks.addPersona kp name cPubPem privPem dhparamsPem seed tv pid).run env fs).1.1 =
        .ok p) :
      Reachable a (p, ((ks.addPersona kp name cPubPem privPem dhparamsPem seed tv pid).run
        env fs).2)
  | step (o : PersonaOp cfg) (env : Env) {p : Persona K P} {fs : FS} :
      Reachable a (p, fs) → a.op env o p → Reachable a ((o.prog kp p).run env fs)

/-! ## What each operation does to type, key and parameters -/

namespace Persona

/-- `q` has the type, long-term key and DH parameters of `p`. -/
def KeepsLongTerm (p q : Persona K P) : Prop :=
  q.ptype = p.ptype ∧ q.pkey = p.pkey ∧ q.dhParams = p.dhParams

@[simp] theorem keepsLongTerm_keys (p : Persona K P) (keys : KeyMap (PKEYbox K)) :
    KeepsLongTerm p { p with keys := keys } := ⟨rfl, rfl, rfl⟩

@[simp] theorem keepsLongTerm_refl (p : Persona K P) : KeepsLongTerm p p := ⟨rfl, rfl, rfl⟩

variable (p : Persona K P)

theorem genKexKey_keepsLongTerm (md : Md cfg) (peer : String) (seed : Nat) (tv : Timeval)
    (pid : Nat) : (p.genKexKey cfg kp md peer seed tv pid).Returns (KeepsLongTerm p ·.2) := by
  unfold genKexKey
  split
  · simp
  · split
    · simp
    · split
      · simp
      · split <;> simp

theorem addDhPubkey_keepsLongTerm (md : Md cfg) (pem : String) (tv : Timeval) (pid : Nat) :
    (p.addDhPubkey cfg kp md pem tv pid).Returns (KeepsLongTerm p ·.2.1) := by
  unfold addDhPubkey
  split
  · simp
  · split <;> simp

theorem delDhId_keepsLongTerm (hex : String) :
    (p.delDhId cfg hex).Returns (KeepsLongTerm p ·.2) := by
  unfold delDhId
  split_ifs <;> simp

theorem delDhPriv_keepsLongTerm (hex : String) :
    (p.delDhPriv cfg hex).Returns (KeepsLongTerm p ·.2) := by
  unfold delDhPriv
  split_ifs
  · simp
  · simp
  · simp only [returns_call]
    intro r
    split <;> simp

theorem delDhPub_keepsLongTerm (hex : String) :
    (p.delDhPub cfg hex).Returns (KeepsLongTerm p ·.2) := by
  unfold delDhPub
  split_ifs <;> simp

theorem link_keepsLongTerm (hex : String) : (p.link cfg hex).Returns (KeepsLongTerm p ·.2) := by
  unfold link
  split_ifs
  · simp
  · simp only [returns_call]
    intro r
    split <;> simp

/-- `new_dh_params` keeps the type and the long-term key. -/
theorem newDhParams_keepsKey (seed : Nat) :
    (p.newDhParams kp seed).Returns fun r => r.2.ptype = p.ptype ∧ r.2.pkey = p.pkey := by
  unfold newDhParams
  split
  · simp
  · refine returns_check.mpr ⟨⟨rfl, rfl⟩, returns_check.mpr ⟨⟨rfl, rfl⟩,
      returns_streamWrite ⟨rfl, rfl⟩ fun _ => returns_rewindRead fun d => ?_⟩⟩
    split <;> simp

theorem newDhParamsPem_keepsKey (pem : String) :
    (p.newDhParamsPem kp pem).Returns fun r => r.2.ptype = p.ptype ∧ r.2.pkey = p.pkey := by
  unfold newDhParamsPem
  refine returns_check.mpr ⟨⟨rfl, rfl⟩, returns_check.mpr ⟨⟨rfl, rfl⟩,
    returns_fwrite_of ⟨rfl, rfl⟩ fun _ => returns_rewindRead fun d => ?_⟩⟩
  split <;> simp

end Persona

/-! ## The type discipline -/

/-- A key slot holds nothing, or a key whose type is `t`. -/
def KeyOfType (t : PType) : Option K → Prop
  | none => True
  | some k => Keystore.typeOf (kp.kind k) = some t

instance (t : PType) : (k : Option K) → Decidable (KeyOfType kp t k)
  | none => isTrue trivial
  | some k => inferInstanceAs (Decidable (Keystore.typeOf (kp.kind k) = some t))

/-- DH parameters only on an RSA persona, and long-term keys of the persona's type. -/
def TypeInv (p : Persona K P) : Prop :=
  (p.dhParams.isSome → p.ptype = .rsa) ∧
    ∀ b, p.pkey = some b → KeyOfType kp p.ptype b.pub ∧ KeyOfType kp p.ptype b.priv

namespace PersonaOp

/-- Every operation keeps the type and the long-term key; all but `new_dh_params` keep the DH
parameters too. -/
theorem prog_keepsLongTerm (o : PersonaOp cfg) (p : Persona K P) :
    (o.prog kp p).Returns fun q => q.ptype = p.ptype ∧ q.pkey = p.pkey ∧
      (o.setsDhParams = false → q.dhParams = p.dhParams) := by
  have keep : ∀ {α : Type} (f : α → Persona K P) (a : α),
      Persona.KeepsLongTerm p (f a) → (ret (f a)).Returns fun q => q.ptype = p.ptype ∧
        q.pkey = p.pkey ∧ (o.setsDhParams = false → q.dhParams = p.dhParams) :=
    fun _ _ h => ⟨h.1, h.2.1, fun _ => h.2.2⟩
  cases o with
  | genKexKey md peer seed tv pid =>
    exact returns_bind (p.genKexKey_keepsLongTerm kp md peer seed tv pid) fun r => keep (·.2) r
  | addDhPubkey md pem tv pid =>
    exact returns_bind (p.addDhPubkey_keepsLongTerm kp md pem tv pid) fun r => keep (·.2.1) r
  | delDhId hex => exact returns_bind (p.delDhId_keepsLongTerm hex) fun r => keep (·.2) r
  | delDhPriv hex => exact returns_bind (p.delDhPriv_keepsLongTerm hex) fun r => keep (·.2) r
  | delDhPub hex => exact returns_bind (p.delDhPub_keepsLongTerm hex) fun r => keep (·.2) r
  | usedKey hex u => exact returns_bind (returns_const trivial _) fun _ _ => ⟨rfl, rfl, fun _ => rfl⟩
  | link hex => exact returns_bind (p.link_keepsLongTerm hex) fun r => keep (·.2) r
  | newDhParams seed =>
    exact returns_bind (p.newDhParams_keepsKey kp seed) fun _ h => ⟨h.1, h.2, nofun⟩
  | newDhParamsPem pem =>
    exact returns_bind (p.newDhParamsPem_keepsKey kp pem) fun _ h => ⟨h.1, h.2, nofun⟩

end PersonaOp

/-- One operation keeps the type discipline, provided `new_dh_params` runs on an RSA
persona. -/
theorem typeInv_prog {o : PersonaOp cfg} {p : Persona K P} (hp : TypeInv kp p)
    (ho : o.setsDhParams → p.ptype = .rsa) (env : Env) (fs : FS) :
    TypeInv kp ((o.prog kp p).run env fs).1 := by
  obtain ⟨hty, hkey, hdh⟩ := run_fst_of_returns (o.prog_keepsLongTerm kp p) env fs
  refine ⟨fun h => hty ▸ ?_, fun b hb => hty ▸ hp.2 b (hkey ▸ hb)⟩
  cases hs : o.setsDhParams
  · exact hp.1 (hdh hs ▸ h)
  · exact ho hs

/-! ## What `add_persona` returns -/

namespace Keystore

/-- Every persona in the result satisfies the type discipline. -/
def OkTyped (r : Except String (Persona K P) × Keystore cfg K P) : Prop :=
  ∀ p, r.1 = .ok p → TypeInv kp p

theorem addPersonaFinish_typed (ks : Keystore cfg K P) (hex : String)
    (q : Except String (DHbox P) × Persona K P) (hq : q.2.ptype = .rsa)
    (hkey : ∀ b, q.2.pkey = some b → KeyOfType kp .rsa b.pub ∧ KeyOfType kp .rsa b.priv) :
    (addPersonaFinish ks hex q).Returns (OkTyped kp) := by
  obtain ⟨_ | _, q⟩ := q
  · simp [addPersonaFinish, OkTyped]
  · simp only [addPersonaFinish, returns_ret, OkTyped, Except.ok.injEq, forall_eq']
    exact ⟨fun _ => hq, hq ▸ hkey⟩

variable (ks : Keystore cfg K P) (tmpdir : Path) (hex name pubPem privPem dhparamsPem : String)
  (seed : Nat)

theorem addPersonaPublish_typed (kpub kpriv : Option K) (type1 : PType)
    (hpub : KeyOfType kp type1 kpub) (hpriv : KeyOfType kp type1 kpriv) :
    (addPersonaPublish kp ks tmpdir hex name pubPem privPem dhparamsPem seed kpub kpriv
      type1).Returns (OkTyped kp) := by
  unfold addPersonaPublish
  simp only [returns_call]
  intro r
  split
  · simp [OkTyped]
  · split
    · rename_i hcond
      have hfin : ∀ q : Except String (DHbox P) × Persona K P, q.2.ptype = type1 ∧
          q.2.pkey = some { PKEYbox.new kpub kpriv with pubPem := pubPem, privPem := privPem } →
          (addPersonaFinish ks hex q).Returns (OkTyped kp) := by
        rintro q ⟨hty, hkey⟩
        refine addPersonaFinish_typed kp ks hex q (hty.trans hcond.2) fun b hb => ?_
        rw [hkey, Option.some.injEq] at hb
        subst hb
        exact hcond.2 ▸ ⟨hpub, hpriv⟩
      split
      · exact returns_bind (Persona.newDhParams_keepsKey kp _ _) hfin
      · exact returns_bind (Persona.newDhParamsPem_keepsKey kp _ _) hfin
    · simp [OkTyped, TypeInv, Persona.new, PKEYbox.new, hpub, hpriv]

theorem addPersonaPriv_typed (kpub : Option K) (type1 : PType) (hpub : KeyOfType kp type1 kpub)
    (ht : type1 ≠ .unknown) :
    (addPersonaPriv kp ks tmpdir hex name pubPem privPem dhparamsPem seed kpub type1).Returns
      (OkTyped kp) := by
  unfold addPersonaPriv
  split
  · split
    · simp [OkTyped]
    · split
      · simp [OkTyped]
      · rename_i kpriv _ _ type2 htype2
        split
        · simp [OkTyped]
        · rename_i hsame
          have h12 : type1 = type2 := by
            by_contra hne
            exact hsame ⟨ht, hne⟩
          exact returns_check.mpr ⟨by simp [OkTyped], returns_seq.mpr
            (addPersonaPublish_typed kp ks tmpdir hex name pubPem privPem dhparamsPem seed kpub
              (some kpriv) type1 hpub (h12 ▸ htype2))⟩
  · exact addPersonaPublish_typed kp ks tmpdir hex name pubPem privPem dhparamsPem seed kpub none
      type1 hpub trivial

theorem addPersonaKeys_typed (hpem : 0 < pubPem.data.length) :
    (addPersonaKeys kp ks tmpdir hex name pubPem privPem dhparamsPem seed).Returns
      (OkTyped kp) := by
  unfold addPersonaKeys
  rw [if_pos hpem]
  split
  · simp [OkTyped]
  · rename_i kpub _
    split
    · simp [OkTyped]
    · rename_i type1 htype1
      exact returns_check.mpr ⟨by simp [OkTyped], returns_seq.mpr
        (addPersonaPriv_typed kp ks tmpdir hex name pubPem privPem dhparamsPem seed (some kpub)
          type1 htype1 (typeOf_ne_unknown htype1))⟩

theorem returns_writeName {α : Type} {Q : α → Prop} {eOpen eWrite : α} {k : Prog α}
    (ho : Q eOpen) (hw : Q eWrite) (hk : k.Returns Q) :
    (writeName tmpdir name eOpen eWrite k).Returns Q := by
  unfold writeName
  split <;> simp [ho, hw, hk]

/-- Every persona `add_persona` returns satisfies the type discipline. -/
theorem addPersona_typeInv (cPubPem : String) (tv : Timeval) (pid : Nat) :
    (ks.addPersona kp name cPubPem privPem dhparamsPem seed tv pid).Returns (OkTyped kp) := by
  unfold addPersona
  split
  · simp [OkTyped]
  · rename_i pubPem hex hn
    exact returns_check.mpr ⟨by simp [OkTyped], returns_writeName _ _ (by simp [OkTyped])
      (by simp [OkTyped]) (addPersonaKeys_typed kp ks _ hex name pubPem privPem dhparamsPem seed
        (normalizeAndHexhash_length_pos hn))⟩

end Keystore

/-! ## What `persona::load` rebuilds -/

/-- The long-term key files of the persona directory `d` hold keys of the type their names say:
a key that `rsa.pub.pem` or `rsa.priv.pem` parses to is an RSA key, one that `ec.pub.pem` or
`ec.priv.pem` parses to an EC key. `persona::load` trusts the file names: `check_type` picks the
type by which public key file exists and nothing compares it with the key. -/
def KeyFilesTyped (fs : FS) (d : Path) : Prop :=
  ∀ t : PType, t ≠ .unknown → ∀ c,
    (fs.fopen (d ++ [t.pubFile]) = some c → KeyOfType kp t (kp.readPubkey c)) ∧
    (fs.fopen (d ++ [t.privFile]) = some c → KeyOfType kp t (kp.readPrivateKey c))

namespace Persona

theorem checkType_ok {fs : FS} {p q : Persona K P} (h : checkType cfg fs p = (.ok (), q)) :
    ∃ t, t ≠ .unknown ∧ q = { p with ptype := t } := by
  unfold checkType at h
  split_ifs at h <;> cases h
  exacts [⟨.rsa, nofun, rfl⟩, ⟨.ec, nofun, rfl⟩]

/-- A key box `loadLongTerm` reads from typed key files holds keys of the persona's type. -/
theorem loadLongTerm_typed {fs : FS} {p : Persona K P} {box : PKEYbox K}
    (ht : p.ptype ≠ .unknown) (typed : KeyFilesTyped kp fs p.dir)
    (h : loadLongTerm kp fs p = .ok box) :
    KeyOfType kp p.ptype box.pub ∧ KeyOfType kp p.ptype box.priv := by
  unfold loadLongTerm at h
  split at h
  · cases h
  rename_i c hc
  split at h
  · cases h
  rename_i kpub hkpub
  split_ifs at h
  have hpub : KeyOfType kp p.ptype (some kpub) := hkpub ▸ (typed _ ht c).1 hc
  split at h
  · cases h
    exact ⟨hpub, trivial⟩
  rename_i c' hc'
  split at h
  · cases h
  rename_i kpriv hkpriv
  split_ifs at h
  cases h
  exact ⟨hpub, hkpriv ▸ (typed _ ht c').2 hc'⟩

theorem readDhParams_rsa {fs : FS} {p : Persona K P} {b : DHbox P}
    (h : readDhParams kp fs p = .ok (some b)) : p.ptype = .rsa := by
  unfold readDhParams at h
  split_ifs at h with ht
  · exact ht
  · cases h

/-- A successful `persona::load` of a new record settles on a type other than `unknown`, sets
DH parameters only for RSA, and takes its key box from `loadLongTerm` of the directory under
that type. -/
theorem load_new_longTerm {fs : FS} {base : Path} {hex dhHex : String} {q : Persona K P}
    (h : (Persona.new base hex "" : Persona K P).load cfg kp fs dhHex = (.ok (), q)) :
    q.ptype ≠ .unknown ∧ (q.dhParams.isSome → q.ptype = .rsa) ∧
      ∃ (p2 : Persona K P) (box : PKEYbox K), loadLongTerm kp fs p2 = .ok box ∧
        p2.dir = base ++ [hex] ∧ p2.ptype = q.ptype ∧ q.pkey = some box := by
  have hnew : (Persona.new base hex "" : Persona K P).ptype = .unknown := rfl
  unfold load at h
  rw [if_pos hnew] at h
  split_ifs at h
  · cases h
  · cases h
  rcases hc : checkType cfg fs (Persona.new base hex "" : Persona K P) with ⟨_ | ⟨⟩, p1⟩
  · rw [hc] at h
    cases h
  obtain ⟨t, ht, rfl⟩ := checkType_ok hc
  rw [hc] at h
  simp only [Persona.dir, Persona.new] at h
  rcases hn : fs.fopen (base ++ [hex] ++ ["name"]) with _ | cn <;>
  rcases hl : fs.fopen (base ++ [hex] ++ ["srclink"]) with _ | cl <;>
  simp only [hn, hl] at h
  all_goals
    split at h
    · cases h
    rename_i box hbox
    split at h
    · cases h
    rename_i dh hdh
    obtain ⟨keys, hk⟩ := loadKex_snd cfg kp fs _ dhHex
    have hq := congrArg Prod.snd h
    rw [hk] at hq
    subst hq
    rcases dh with _ | b
    exacts [⟨ht, nofun, _, _, hbox, rfl, rfl, rfl⟩,
      ⟨ht, fun _ => readDhParams_rsa kp hdh, _, _, hbox, rfl, rfl, rfl⟩]

end Persona

/-- A persona that `persona::load` rebuilds from typed key files keeps the type discipline. -/
theorem typeInv_of_load {fs : FS} {base : Path} {hex dhHex : String} {q : Persona K P}
    (typed : KeyFilesTyped kp fs (base ++ [hex]))
    (h : (Persona.new base hex "" : Persona K P).load cfg kp fs dhHex = (.ok (), q)) :
    TypeInv kp q := by
  obtain ⟨ht, hdh, p2, box, hbox, hdir, hty, hkey⟩ := Persona.load_new_longTerm kp h
  refine ⟨hdh, fun b hb => ?_⟩
  rw [hkey, Option.some.injEq] at hb
  subst hb
  rw [← hty]
  exact Persona.loadLongTerm_typed kp (hty ▸ ht) (hdir ▸ typed) hbox

/-! ## Every reachable persona -/

/-- `new_dh_params` is admitted only on an RSA persona, as `add_persona` calls it. -/
def RsaDhOnly (cfg : Config) (o : PersonaOp cfg) (p : Persona K P) : Prop :=
  o.setsDhParams → p.ptype = .rsa

variable (cfg) in
/-- The runs the type discipline is stated for: loads of directories whose key files are typed,
any `add_persona`, and `new_dh_params` only on RSA personas. -/
def typeAdmits : Admits cfg K P := ⟨KeyFilesTyped kp, fun _ _ => True, fun _ => RsaDhOnly cfg⟩

/-- With `new_dh_params` called only on RSA personas, every persona reachable from one that
`add_persona` returned, or that `persona::load` rebuilt from typed key files, keeps the type
discipline. -/
theorem typeInv_of_reachable {s : Persona K P × FS} (reach : Reachable kp (typeAdmits cfg kp) s) :
    TypeInv kp s.1 := by
  induction reach with
  | loaded base hex typed h => exact typeInv_of_load kp typed h
  | added ks env fs name cPubPem privPem dhparamsPem seed tv pid p _ h =>
    exact run_fst_of_returns (Keystore.addPersona_typeInv kp ks name privPem dhparamsPem seed
      cPubPem tv pid) env fs p h
  | step o env _ hallowed ih => exact typeInv_prog kp ih hallowed env _

/-- The EC persona `add_persona` returned, before any operation. -/
theorem typeInv_of_added_ec :
    Reachable TestDouble.provider (typeAdmits TestDouble.config TestDouble.provider)
      (TestDouble.ecAdded, (TestDouble.addEc.run Env.none TestDouble.baseOnly).2) ∧
    TypeInv TestDouble.provider TestDouble.ecAdded :=
  have h : Reachable TestDouble.provider (typeAdmits TestDouble.config TestDouble.provider)
      (TestDouble.ecAdded, (TestDouble.addEc.run Env.none TestDouble.baseOnly).2) :=
    .added TestDouble.keystore Env.none TestDouble.baseOnly "" _ "" "" 0 ⟨1, 2⟩ 7 _ trivial rfl
  ⟨h, typeInv_of_reachable TestDouble.provider h⟩

/-- A persona directory whose `rsa.pub.pem` holds the EC key of the test double. -/
def ecInRsaFile : FS :=
  ⟨[(["ks", "0123456789abcdef", "rsa.pub.pem"], .file (TestDouble.provider.writePubkey .ec)),
    (["ks", "0123456789abcdef"], .dir), (["ks"], .dir)]⟩

/-- The RSA persona with the EC key that `persona::load("")` rebuilds from it. -/
def ecAsRsa : Persona TestDouble.Key Nat :=
  { Persona.new ["ks"] "0123456789abcdef" "" with
    ptype := .rsa, pkey := some { PKEYbox.new (some .ec) none with
      pubPem := TestDouble.provider.writePubkey .ec } }

/-- Two reachable personas off the type discipline: `persona::load("")` of a directory whose
`rsa.pub.pem` holds an EC key rebuilds an RSA persona with an EC key, and `new_dh_params()` on
the EC persona `add_persona` returned sets DH parameters. -/
theorem typeInv_broken :
    (Persona.new ["ks"] "0123456789abcdef" "" : Persona TestDouble.Key Nat).load
        TestDouble.config TestDouble.provider ecInRsaFile "" = (.ok (), ecAsRsa) ∧
      Reachable TestDouble.provider (Admits.any : Admits TestDouble.config _ _) (ecAsRsa, ecInRsaFile) ∧
      ¬ TypeInv TestDouble.provider ecAsRsa ∧
    Reachable TestDouble.provider (Admits.any : Admits TestDouble.config _ _)
      (((PersonaOp.newDhParams 0 : PersonaOp TestDouble.config).prog TestDouble.provider
        TestDouble.ecAdded).run Env.none (TestDouble.addEc.run Env.none TestDouble.baseOnly).2) ∧
    ¬ TypeInv TestDouble.provider
      (((PersonaOp.newDhParams 0 : PersonaOp TestDouble.config).prog TestDouble.provider
        TestDouble.ecAdded).run Env.none (TestDouble.addEc.run Env.none TestDouble.baseOnly).2).1 :=
  ⟨rfl, .loaded ["ks"] "0123456789abcdef" trivial rfl, fun h => absurd (h.2 _ rfl).1 (by decide),
    .step _ Env.none (.added TestDouble.keystore Env.none TestDouble.baseOnly "" _ "" "" 0 ⟨1, 2⟩ 7
      _ trivial rfl) trivial, fun h => absurd (h.1 (by decide)) (by decide)⟩

end OpmsgKeystore
