import OpmsgKeystore.Isolation
import OpmsgKeystore.Shred

/-!
# Forgetting a kex key

The spec's `delete_kex(hex)` expects the files of the key to have been erased by the calls
before it: a kex key is forgotten by `del_dh_priv(hex)`, `del_dh_pub(hex)` and then
`del_dh_id(hex)`. These three calls, and `used_key(hex, u)`, change only the box of `hex` in
memory and only what is below the key directory `<base>/<id>/<hex>` on disk.

* `PersonaOp.progs_onKey`: any run of such calls keeps every other kex key, and the disk
  outside the key directory.
* `forgetKex_keysMirror`: the three calls in that order, on a persona whose kex keys mirror its
  directory, in any environment that lets `del_dh_priv` open the key file and lets the unlinks
  of the key directory through, leave a persona
  without the key that still mirrors its directory, so that a reload does not bring the key
  back; no key file of it is left, and every other key is kept, in memory and on disk.
* `keysMirror_of_forgetReachable`: so the mirror holds over whole runs that also forget keys.
* `kexKeys_independent`: calls on one kex id, from one process, never interfere with calls on
  another kex id of the same persona, or with the creation of another kex id, from another.
-/

namespace OpmsgKeystore

open Prog FS

variable {cfg : Config} {K P : Type} (kp : KeyProvider K P)

namespace Persona

/-- `q` has the base and id of `p`, and every kex key of `p` but perhaps the one of `hex`. -/
def KeepsOtherKex (p : Persona K P) (hex : String) (q : Persona K P) : Prop :=
  q.cfgbase = p.cfgbase ∧ q.id = p.id ∧ ∀ y, y ≠ hex → q.keys.find y = p.keys.find y

variable {p q r : Persona K P} {hex : String}

theorem keepsOtherKex_refl (p : Persona K P) (hex : String) : p.KeepsOtherKex hex p :=
  ⟨rfl, rfl, fun _ _ => rfl⟩

theorem KeepsOtherKex.trans (h₁ : p.KeepsOtherKex hex q) (h₂ : q.KeepsOtherKex hex r) :
    p.KeepsOtherKex hex r :=
  ⟨h₂.1.trans h₁.1, h₂.2.1.trans h₁.2.1, fun y hy => (h₂.2.2 y hy).trans (h₁.2.2 y hy)⟩

theorem KeepsOtherKex.kexDir_eq (h : p.KeepsOtherKex hex q) (y : String) :
    q.kexDir y = p.kexDir y := by
  simp only [kexDir, h.1, h.2.1]

/-- What `load_keys` reads for a persona depends on its base and id only. -/
theorem KeepsOtherKex.loadedKeys_find (h : p.KeepsOtherKex hex q) (fs : FS) (y : String) :
    (loadedKeys cfg kp fs q).find y = (loadedKeys cfg kp fs p).find y := by
  simp only [Persona.loadedKeys_find, kexRead, dir, h.1, h.2.1]

/-- Replacing the box of `hex`, as `del_dh_priv` and `del_dh_pub` do, keeps the others. -/
theorem keepsOtherKex_update (p : Persona K P) (hex : String) (f : PKEYbox K → PKEYbox K) :
    p.KeepsOtherKex hex { p with keys := match p.keys.find hex with
      | some b => p.keys.insert hex (f b)
      | none => p.keys } :=
  ⟨rfl, rfl, fun y hy => by split <;> simp [hy]⟩

/-! ## The calls on one kex id -/

variable (cfg p hex)

theorem delDhId_keepsOtherKex : (p.delDhId cfg hex).Returns (p.KeepsOtherKex hex ·.2) := by
  unfold delDhId
  split_ifs
  exacts [p.keepsOtherKex_refl hex, p.keepsOtherKex_refl hex,
    fun _ => ⟨rfl, rfl, fun y hy => by simp [hy]⟩]

theorem delDhPriv_keepsOtherKex : (p.delDhPriv cfg hex).Returns (p.KeepsOtherKex hex ·.2) := by
  unfold delDhPriv
  split_ifs
  · exact p.keepsOtherKex_refl hex
  · exact p.keepsOtherKex_refl hex
  refine fun r => ?_
  dsimp only
  split
  · exact p.keepsOtherKex_refl hex
  · simp only [returns_check, returns_shred, returns_seq]
    exact ⟨p.keepsOtherKex_refl hex, p.keepsOtherKex_update hex _⟩

theorem delDhPub_keepsOtherKex : (p.delDhPub cfg hex).Returns (p.KeepsOtherKex hex ·.2) := by
  unfold delDhPub
  split_ifs
  exacts [p.keepsOtherKex_refl hex, p.keepsOtherKex_refl hex,
    fun _ => p.keepsOtherKex_update hex _]

theorem delDhPub_avoids_priv : (p.delDhPub cfg hex).Avoids (p.kexDir hex ++ ["dh.priv.pem"]) := by
  unfold delDhPub
  split_ifs
  exacts [trivial, trivial, ⟨by simp [Call.touches], fun _ => trivial⟩]

theorem delDhId_avoids_file (x : String) : (p.delDhId cfg hex).Avoids (p.kexDir hex ++ [x]) := by
  unfold delDhId
  split_ifs
  exacts [trivial, trivial, ⟨by simp [Call.touches, kexDir], fun _ => trivial⟩]

/-- `del_dh_id` of a valid, non-reserved id drops its box. -/
theorem delDhId_erases (hh : cfg.isHexHash hex = true) (hres : ¬ reserved cfg hex) :
    (p.delDhId cfg hex).Returns (·.2.keys.find hex = none) := by
  simp only [delDhId, hh, Bool.true_eq_false, if_false, hres]
  exact fun _ => by simp

variable {cfg} {α : Type} {env : Env} {file : Path} {k : Prog α}

/-- Whatever each `write` returns, the shredding loop leaves a file at `file`. -/
theorem run_shred_file (env : Env) :
    ∀ (n off : Nat) (fs : FS) (c : String), fs.get file = some (.file c) →
    ∃ fs' c', fs'.get file = some (.file c') ∧ (shred file n off k).run env fs = k.run env fs'
  | 0, _, fs, c, hc => ⟨fs, c, hc, rfl⟩
  | n + 1, off, fs, c, hc => by
    obtain ⟨c', hc'⟩ : ∃ c', ((Call.writeAt file off zeroBlock).step env fs).2.get file =
        some (.file c') := by
      unfold Call.step
      split
      · exact ⟨c, hc⟩
      · simp [Call.exec, hc]
    simpa [shred, seq, Call.step, Call.faultable, Call.exec] using run_shred_file env n _ _ c' hc'

/-- `del_dh_priv` of a valid, non-reserved id, when the key file is a file or absent and its
`open` and `unlink` succeed, leaves no key file. -/
theorem delDhPriv_removes (hh : cfg.isHexHash hex = true) (hres : ¬ reserved cfg hex) {fs : FS}
    (hpriv : FileOrNone fs (p.kexDir hex ++ ["dh.priv.pem"]))
    (hopen : env (.openRW (p.kexDir hex ++ ["dh.priv.pem"])) = false)
    (hunlink : env (.unlink (p.kexDir hex ++ ["dh.priv.pem"])) = false) :
    ((p.delDhPriv cfg hex).run env fs).2.get (p.kexDir hex ++ ["dh.priv.pem"]) = none := by
  rcases hpriv with hn | ⟨c, hc⟩
  · have hne : p.kexDir hex ++ ["dh.priv.pem"] ≠ [] := by simp
    simpa [delDhPriv, hh, hres, (statSize_eq_none_iff hne).2 hn, Reply.sizeOf] using hn
  · obtain ⟨fs', c', hc', hrun⟩ := run_shred_file (k := delDhPrivTail p hex) env
      ((c.data.length + 511) / 512) 0 fs c hc
    rw [delDhPriv_run cfg p hh hres hc hopen, hrun]
    exact (delDhPrivTail_run p hex env fs').2 _ (.inl rfl) (.inr ⟨c', hc'⟩) hunlink

/-- `del_dh_pub` of a valid, non-reserved id, when its `unlink` succeeds, leaves no public key
file. -/
theorem delDhPub_removes (hh : cfg.isHexHash hex = true) (hres : ¬ reserved cfg hex)
    (hunlink : env (.unlink (p.kexDir hex ++ ["dh.pub.pem"])) = false) (fs : FS) (c : String) :
    ((p.delDhPub cfg hex).run env fs).2.get (p.kexDir hex ++ ["dh.pub.pem"]) ≠ some (.file c) := by
  simp only [delDhPub, hh, Bool.true_eq_false, if_false, hres, seq, run_call, run_ret, Call.step,
    hunlink, Bool.false_and, Bool.false_eq_true, if_false, Call.exec]
  split <;> simp_all

/-- A key directory with neither a private key file nor a public key file reads as no key. -/
theorem kexRead_eq_none {fs : FS} (hpriv : fs.get (p.kexDir hex ++ ["dh.priv.pem"]) = none)
    (hpub : ∀ c, fs.get (p.kexDir hex ++ ["dh.pub.pem"]) ≠ some (.file c)) :
    kexRead cfg kp fs p hex = none := by
  simp only [kexDir] at hpriv hpub
  unfold kexRead loadDh
  split_ifs
  · rfl
  simp only [FS.fopen, kexDir, Persona.new, hpriv]
  rcases h : fs.get (p.cfgbase ++ [p.id, hex] ++ ["dh.pub.pem"]) with _ | _ | c
  · simp [loadDhPeer, PKEYbox.new]
  · simp [loadDhPeer, PKEYbox.new]
  · exact absurd h (hpub c)

end Persona

namespace PersonaOp

/-- The calls on the kex id `hex` alone. -/
def OnKey (hex : String) : PersonaOp cfg → Prop
  | delDhId h | delDhPriv h | delDhPub h | usedKey h _ => h = hex
  | _ => False

/-- One call on the kex id `hex` reads and changes only what is below its key directory, and
keeps every other kex key. -/
theorem prog_onKey {hex : String} {o : PersonaOp cfg} (ho : o.OnKey hex) (p : Persona K P) :
    Within (p.kexDir hex <+: ·) (p.kexDir hex <+: ·) (o.prog kp p) ∧
      (o.prog kp p).Returns (p.KeepsOtherKex hex) := by
  have below : ∀ {β : Type} {q : Prog β}, SeesBelow (p.kexDir hex) q →
      Within (p.kexDir hex <+: ·) (p.kexDir hex <+: ·) q := fun h => h.within (fun _ => id) fun _ => id
  cases o <;> simp only [OnKey] at ho <;> subst ho
  · exact ⟨within_bind (below (p.delDhId_seesBelow _)) fun _ => trivial,
      returns_bind (p.delDhId_keepsOtherKex _ _) fun _ => id⟩
  · exact ⟨within_bind (below (p.delDhPriv_seesBelow _)) fun _ => trivial,
      returns_bind (p.delDhPriv_keepsOtherKex _ _) fun _ => id⟩
  · exact ⟨within_bind (below (p.delDhPub_seesBelow _)) fun _ => trivial,
      returns_bind (p.delDhPub_keepsOtherKex _ _) fun _ => id⟩
  · exact ⟨within_bind (below (p.usedKey_seesBelow _ _)) fun _ => trivial,
      returns_bind (returns_const trivial _) fun _ _ => p.keepsOtherKex_refl _⟩

/-- Every run of calls on the kex id `hex` reads and changes only what is below its key
directory, and keeps every other kex key. -/
theorem progs_onKey (hex : String) : ∀ (os : List (PersonaOp cfg)) (p : Persona K P),
    (∀ o ∈ os, o.OnKey hex) → Within (p.kexDir hex <+: ·) (p.kexDir hex <+: ·) (progs kp os p) ∧
      (progs kp os p).Returns (p.KeepsOtherKex hex)
  | [], p, _ => ⟨trivial, p.keepsOtherKex_refl hex⟩
  | o :: os, p, hos =>
    have one := prog_onKey kp (hos o (List.mem_cons_self _ _)) p
    have rest := fun q => progs_onKey hex os q fun o ho => hos o (List.mem_cons_of_mem _ ho)
    ⟨within_bind_of_returns one.1 one.2 fun q hq => hq.kexDir_eq hex ▸ (rest q).1,
      returns_bind one.2 fun q hq => returns_mono (rest q).2 fun _ h => hq.trans h⟩

end PersonaOp

/-! ## Forgetting a key -/

/-- The three calls keep every other kex key and change nothing outside the key directory, in
any environment. -/
theorem forgetKex_frame (p : Persona K P) (hex : String) (env : Env) (fs : FS) :
    let r := (PersonaOp.progs kp ([.delDhPriv hex, .delDhPub hex, .delDhId hex] : List (PersonaOp cfg)) p).run
      env fs
    p.KeepsOtherKex hex r.1 ∧ SameOutside (p.kexDir hex) fs r.2 :=
  have h := PersonaOp.progs_onKey kp hex [.delDhPriv hex, .delDhPub hex, .delDhId hex] p
    (by simp [PersonaOp.OnKey])
  ⟨run_fst_of_returns h.2 env fs, Prog.sameOutside_run (fun _ hq => h.1.avoids hq) env fs⟩

section Forget

variable {p : Persona K P} {hex : String} {env : Env} {fs : FS}
  (hh : cfg.isHexHash hex = true) (hres : ¬ Persona.reserved cfg hex)
  (hpriv : Persona.FileOrNone fs (p.kexDir hex ++ ["dh.priv.pem"]))
  (hopen : env (.openRW (p.kexDir hex ++ ["dh.priv.pem"])) = false)
  (hunlink : ∀ x, env (.unlink (p.kexDir hex ++ [x])) = false)
include hh hres hpriv hopen hunlink

/-- After the three calls the box of `hex` is gone, and so are the private key file and every
public key file. -/
theorem forgetKex_files :
    let r := (PersonaOp.progs kp ([.delDhPriv hex, .delDhPub hex, .delDhId hex] : List (PersonaOp cfg)) p).run
      env fs
    r.1.keys.find hex = none ∧ r.2.get (p.kexDir hex ++ ["dh.priv.pem"]) = none ∧
      ∀ c, r.2.get (p.kexDir hex ++ ["dh.pub.pem"]) ≠ some (.file c) := by
  simp only [PersonaOp.progs, PersonaOp.prog, run_bind, run_ret]
  have k₁ := run_fst_of_returns (p.delDhPriv_keepsOtherKex cfg hex) env fs
  have e₁ := p.delDhPriv_removes hex hh hres hpriv hopen (hunlink _)
  set p₁ := ((p.delDhPriv cfg hex).run env fs).1.2
  set fs₁ := ((p.delDhPriv cfg hex).run env fs).2
  rw [← k₁.kexDir_eq] at e₁ ⊢
  have k₂ := run_fst_of_returns (p₁.delDhPub_keepsOtherKex cfg hex) env fs₁
  have e₂ := run_get_of_avoids (p₁.delDhPub_avoids_priv cfg hex) env fs₁
  have e₂' := p₁.delDhPub_removes hex hh hres (k₁.kexDir_eq hex ▸ hunlink _) fs₁
  set p₂ := ((p₁.delDhPub cfg hex).run env fs₁).1.2
  set fs₂ := ((p₁.delDhPub cfg hex).run env fs₁).2
  rw [← k₂.kexDir_eq] at e₁ e₂ e₂' ⊢
  rw [run_get_of_avoids (p₂.delDhId_avoids_file cfg hex _) env fs₂,
    run_get_of_avoids (p₂.delDhId_avoids_file cfg hex _) env fs₂]
  exact ⟨run_fst_of_returns (p₂.delDhId_erases cfg hex hh hres) env fs₂, e₂.trans e₁, e₂'⟩

/-- The three calls on a persona whose kex keys are those a load of its directory reads leave
a persona whose kex keys are still those a load reads. -/
theorem forgetKex_mirror (hm : Persona.KeysMirror cfg kp fs p) :
    let r := (PersonaOp.progs kp ([.delDhPriv hex, .delDhPub hex, .delDhId hex] : List (PersonaOp cfg)) p).run
      env fs
    Persona.KeysMirror cfg kp r.2 r.1 := by
  intro r
  obtain ⟨hk, hout⟩ := forgetKex_frame kp p hex env fs
  obtain ⟨hgone, hpriv', hpub'⟩ := forgetKex_files kp hh hres hpriv hopen hunlink
  intro y
  rw [hk.loadedKeys_find]
  by_cases hy : y = hex
  · subst hy
    rw [hgone, Persona.loadedKeys_find, Persona.kexRead_eq_none kp p y hpriv' hpub', ite_self]
  · rw [Persona.kexDir_eq] at hout
    rw [hk.2.2 y hy, hm y, Persona.loadedKeys_find_of_below cfg kp
      (hout _ (Persona.dir_not_below_child p _ _ rfl)) fun q hq => hout q (not_prefix_of_sibling hy hq)]

/-- Forgetting a kex key with `del_dh_priv`, `del_dh_pub` and `del_dh_id`, on a persona whose
kex keys are those a load of its directory reads: the persona no longer has the key and still
has exactly the keys a load reads, so a reload does not bring the key back; the private key file
is gone and no public key file is left; every other key is kept in memory, and nothing outside
the key directory changes. -/
theorem forgetKex_keysMirror (mirrored : Persona.KeysMirror cfg kp fs p) :
    let r := (PersonaOp.progs kp ([.delDhPriv hex, .delDhPub hex, .delDhId hex] : List (PersonaOp cfg)) p).run
      env fs
    Persona.KeysMirror cfg kp r.2 r.1 ∧ r.1.keys.find hex = none ∧
      (∀ y, y ≠ hex → r.1.keys.find y = p.keys.find y) ∧
      r.2.get (p.kexDir hex ++ ["dh.priv.pem"]) = none ∧
      (∀ c, r.2.get (p.kexDir hex ++ ["dh.pub.pem"]) ≠ some (.file c)) ∧
      SameOutside (p.kexDir hex) fs r.2 :=
  have hf := forgetKex_files kp hh hres hpriv hopen hunlink
  have hk := forgetKex_frame kp p hex env fs
  ⟨forgetKex_mirror kp hh hres hpriv hopen hunlink mirrored, hf.1, hk.1.2.2, hf.2.1, hf.2.2, hk.2⟩

end Forget

/-- The persona `addEc` returns, once `gen_kex_key` has made its kex key `9999999999999999`. -/
def ecKexed : Persona TestDouble.Key Nat × FS :=
  ((PersonaOp.genKexKey TestDouble.md "" 0 ⟨1, 2⟩ 8 : PersonaOp TestDouble.config).prog
    TestDouble.provider TestDouble.ecAdded).run Env.none (TestDouble.addEc.run Env.none TestDouble.baseOnly).2

/-- Forgetting that key, whose private key file is there to shred. -/
theorem forgetKex_keysMirror_ec :
    Persona.KeysMirror TestDouble.config TestDouble.provider ecKexed.2 ecKexed.1 ∧
    (ecKexed.1.keys.find "9999999999999999").isSome ∧
    let r := (PersonaOp.progs TestDouble.provider ([.delDhPriv "9999999999999999",
      .delDhPub "9999999999999999", .delDhId "9999999999999999"] : List (PersonaOp TestDouble.config))
      ecKexed.1).run Env.none ecKexed.2
    Persona.KeysMirror TestDouble.config TestDouble.provider r.2 r.1 ∧
      r.1.keys.find "9999999999999999" = none :=
  have hm : Persona.KeysMirror TestDouble.config TestDouble.provider ecKexed.2 ecKexed.1 :=
    PersonaOp.keysMirror_prog TestDouble.provider
      (Keystore.keysMirror_of_added TestDouble.provider TestDouble.keystore (fun _ _ => rfl)
        baseOnly_tree rfl) (run_tree _ _ baseOnly_tree) ⟨fun _ _ _ h => by cases h; decide, fun _ _ => rfl, .inl rfl⟩
  have h := forgetKex_keysMirror TestDouble.provider
    (show TestDouble.config.isHexHash "9999999999999999" = true by decide) (by decide)
    (by exact .inr ⟨_, rfl⟩) (show Env.none (.openRW _) = false from rfl) (fun _ => rfl) hm
  ⟨hm, rfl, h.1, h.2.1⟩

/-! ## The mirror over runs that forget keys -/

variable (cfg) in
/-- The states of the runs `mirrorAdmits` admits, then any calls that `KeepsMirror` admits and any forgets of
a valid, non-reserved kex id whose private key file is a file or absent, in environments that
let `del_dh_priv` open it and let the unlinks of its key directory through. -/
inductive ForgetReachable : Persona K P × FS → Prop
  | reach {s : Persona K P × FS} : Reachable kp (mirrorAdmits cfg kp) s → ForgetReachable s
  | step (o : PersonaOp cfg) (env : Env) {p : Persona K P} {fs : FS} :
      ForgetReachable (p, fs) → o.KeepsMirror kp env p → ForgetReachable ((o.prog kp p).run env fs)
  | forget (hex : String) (env : Env) {p : Persona K P} {fs : FS} : ForgetReachable (p, fs) →
      cfg.isHexHash hex = true → ¬ Persona.reserved cfg hex →
      Persona.FileOrNone fs (p.kexDir hex ++ ["dh.priv.pem"]) →
      env (.openRW (p.kexDir hex ++ ["dh.priv.pem"])) = false →
      (∀ x, env (.unlink (p.kexDir hex ++ [x])) = false) →
      ForgetReachable ((PersonaOp.progs kp
        ([.delDhPriv hex, .delDhPub hex, .delDhId hex] : List (PersonaOp cfg)) p).run env fs)

/-- Every such state is a tree whose persona mirrors its kex keys. -/
theorem keysMirror_tree_of_forgetReachable {s : Persona K P × FS} (h : ForgetReachable cfg kp s) :
    Persona.KeysMirror cfg kp s.2 s.1 ∧ s.2.Tree := by
  induction h with
  | reach h => exact keysMirror_tree_of_reachable kp h
  | step o env _ ho ih => exact ⟨PersonaOp.keysMirror_prog kp ih.1 ih.2 ho, run_tree _ _ ih.2⟩
  | forget hex env _ hh hres hpriv hopen hunlink ih =>
    exact ⟨forgetKex_mirror kp hh hres hpriv hopen hunlink ih.1, run_tree _ _ ih.2⟩

/-- Forgetting kex keys keeps the mirror over whole runs: in every state reached from a persona
that `persona::load("")` rebuilt or that `add_persona` returned with no write failing, by calls
that `KeepsMirror` admits and by forgets of kex keys, the persona's kex keys are those
`load_keys` reads from its directory, and a successful reload has exactly those keys. -/
theorem keysMirror_of_forgetReachable {s : Persona K P × FS} (reach : ForgetReachable cfg kp s) :
    Persona.KeysMirror cfg kp s.2 s.1 ∧
      ∀ q, (Persona.new s.1.cfgbase s.1.id "" : Persona K P).load cfg kp s.2 "" = (.ok (), q) →
        ∀ hex, q.keys.find hex = s.1.keys.find hex := by
  have hm := (keysMirror_tree_of_forgetReachable kp reach).1
  exact ⟨hm, fun q hq hex => (Persona.load_find kp hq hex).trans (hm hex).symm⟩

/-- `ecKexed` with its kex key forgotten is such a state. -/
theorem keysMirror_of_forgetReachable_ec :
    let s := (PersonaOp.progs TestDouble.provider ([.delDhPriv "9999999999999999",
      .delDhPub "9999999999999999", .delDhId "9999999999999999"] : List (PersonaOp TestDouble.config))
      ecKexed.1).run Env.none ecKexed.2
    ForgetReachable TestDouble.config TestDouble.provider s ∧
      Persona.KeysMirror TestDouble.config TestDouble.provider s.2 s.1 :=
  have h : ForgetReachable TestDouble.config TestDouble.provider
      ((PersonaOp.progs TestDouble.provider ([.delDhPriv "9999999999999999",
        .delDhPub "9999999999999999", .delDhId "9999999999999999"] : List (PersonaOp TestDouble.config))
        ecKexed.1).run Env.none ecKexed.2) :=
    .forget _ _ (.step _ _ (.reach (.added TestDouble.keystore Env.none TestDouble.baseOnly "" _ "" ""
      0 ⟨1, 2⟩ 7 _ ⟨fun _ _ => rfl, baseOnly_tree⟩ rfl)) ⟨fun _ _ _ h => by cases h; decide, fun _ _ => rfl, .inl rfl⟩) (by decide) (by decide)
      (.inr ⟨_, rfl⟩) rfl fun _ => rfl
  ⟨h, (keysMirror_of_forgetReachable TestDouble.provider h).1⟩

/-! ## Calls on different kex ids -/

/-- Calls on one kex id of a persona never interfere with calls on another kex id of the same
persona, nor with the creation of another kex id by `gen_kex_key` or `add_dh_pubkey`: whatever
the interleaving and whatever fails, each returns what it returns alone, and each key directory,
and the creator's staging directory, ends as its own process leaves it. -/
theorem kexKeys_independent (env : Env) (fs : FS) (s : List Bool) {h : String}
    (valid : cfg.isHexHash h = true) (pA pB : Persona K P) (sameDir : pB.dir = pA.dir)
    (osA : List (PersonaOp cfg)) (onKey : ∀ o ∈ osA, o.OnKey h) :
    (∀ (h' : String) (osB : List (PersonaOp cfg)), (∀ o ∈ osB, o.OnKey h') → h' ≠ h →
      EndsAsBoth (pA.kexDir h <+: ·) (pA.kexDir h' <+: ·) (PersonaOp.progs kp osA pA)
        (PersonaOp.progs kp osB pB) env fs
        (runBoth env s (PersonaOp.progs kp osA pA) (PersonaOp.progs kp osB pB) fs)) ∧
    (∀ (md : Md cfg) (peer : String) (seed : Nat) (tv : Timeval) (pid : Nat) (pub priv hex : String),
      Persona.kexMaterial cfg kp md pB seed = .ok (pub, priv, hex) → hex ≠ h →
      EndsAsBoth (pA.kexDir h <+: ·) (StagedReads (pA.dir ++ [uniqueName tv pid]) (pA.kexDir hex))
        (PersonaOp.progs kp osA pA) (pB.genKexKey cfg kp md peer seed tv pid) env fs
        (runBoth env s (PersonaOp.progs kp osA pA) (pB.genKexKey cfg kp md peer seed tv pid) fs)) ∧
    (∀ (md : Md cfg) (pem pem' : String) (k : K) (hex : String) (tv : Timeval) (pid : Nat),
      Persona.dhPubkeyId cfg kp md pem = (.ok (k, hex), pem') → hex ≠ h →
      EndsAsBoth (pA.kexDir h <+: ·) (StagedReads (pA.dir ++ [uniqueName tv pid]) (pA.kexDir hex))
        (PersonaOp.progs kp osA pA) (pB.addDhPubkey cfg kp md pem tv pid) env fs
        (runBoth env s (PersonaOp.progs kp osA pA) (pB.addDhPubkey cfg kp md pem tv pid) fs)) := by
  have hA := (PersonaOp.progs_onKey kp h osA pA onKey).1
  simp only [Persona.kexDir_eq] at hA ⊢
  have creator : ∀ {β : Type} {q : Prog β} {tv : Timeval} {pid : Nat} {hex : String}, hex ≠ h →
      Publishes (pA.dir ++ [uniqueName tv pid]) (pA.dir ++ [hex]) "" q →
      EndsAsBoth (pA.dir ++ [h] <+: ·) (StagedReads (pA.dir ++ [uniqueName tv pid]) (pA.dir ++ [hex]))
        (PersonaOp.progs kp osA pA) q env fs (runBoth env s (PersonaOp.progs kp osA pA) q fs) :=
    fun {_ _ tv pid _} hne hB =>
      have hu := ne_uniqueName valid tv pid
      runBoth_independent (fun q hq => staged_apart hu hne.symm hu hne.symm q (.inl hq))
        (fun q hq hh' => staged_apart hu.symm hu.symm hne hne q hq (.inl hh')) env hA (hB.within (by simp)) s fs
  refine ⟨fun h' osB hosB hne => ?_, fun md peer seed tv pid pub priv hex hm hne => ?_,
    fun md pem pem' k hex tv pid hd hne => ?_⟩
  · have hB := (PersonaOp.progs_onKey kp h' osB pB hosB).1
    rw [Persona.kexDir_eq, sameDir] at hB
    exact runBoth_independent (fun q hq => not_prefix_of_sibling hne.symm hq)
      (fun q hq => not_prefix_of_sibling hne hq) env hA hB s fs
  · have hB := Persona.genKexKey_publishes kp md pB hm "" peer tv pid
    rw [Persona.kexDir_eq, sameDir] at hB
    exact creator hne hB
  · have hB := Persona.addDhPubkey_publishes kp md pB hd "" tv pid
    rw [Persona.kexDir_eq, sameDir] at hB
    exact creator hne hB

/-- Forgetting the kex key of `ecKexed` beside marking another kex id of the same persona used. -/
theorem kexKeys_independent_ec :
    EndsAsBoth (ecKexed.1.kexDir "9999999999999999" <+: ·) (ecKexed.1.kexDir "aaaaaaaaaaaaaaaa" <+: ·)
      (PersonaOp.progs TestDouble.provider ([.delDhPriv "9999999999999999",
        .delDhPub "9999999999999999", .delDhId "9999999999999999"] : List (PersonaOp TestDouble.config))
        ecKexed.1)
      (PersonaOp.progs TestDouble.provider [(.usedKey "aaaaaaaaaaaaaaaa" true : PersonaOp TestDouble.config)]
        ecKexed.1) Env.none ecKexed.2
      (runBoth Env.none [true, false, true, true]
        (PersonaOp.progs TestDouble.provider ([.delDhPriv "9999999999999999",
          .delDhPub "9999999999999999", .delDhId "9999999999999999"] : List (PersonaOp TestDouble.config))
          ecKexed.1)
        (PersonaOp.progs TestDouble.provider [(.usedKey "aaaaaaaaaaaaaaaa" true : PersonaOp TestDouble.config)]
          ecKexed.1) ecKexed.2) :=
  (kexKeys_independent TestDouble.provider Env.none ecKexed.2 [true, false, true, true] (by decide)
    ecKexed.1 ecKexed.1 rfl _ (by simp [PersonaOp.OnKey])).1 "aaaaaaaaaaaaaaaa" _
    (by simp [PersonaOp.OnKey]) (by decide)

end OpmsgKeystore
