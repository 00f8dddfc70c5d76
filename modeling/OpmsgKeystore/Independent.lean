import OpmsgKeystore.KexRace

/-!
# Two calls that change nothing the other reads

Two creating calls for different ids stage and publish under four distinct names of one
directory, and read that directory itself only. What one of them changes the other never reads,
so they cannot interfere, whatever fails: in every interleaving and under every environment each
returns what it returns alone, and every path ends as the call it belongs to leaves it alone.

* `Within S T p`: every call of `p` reads only paths of `S` and changes only paths of `T`.
* `runBoth_independent`: two programs, each changing nothing the other reads, end every
  interleaving as `EndsAsBoth` says.
* `Publishes.within`: a program of the publishing shape reads its staging directory, its final
  name and their directory, and changes only the first two.
* `creators_independent`: two `add_persona`s of different ids, or two of `gen_kex_key` and
  `add_dh_pubkey` storing different kex ids in one persona directory, never interfere.
-/

namespace OpmsgKeystore

open Prog FS

/-! ## Footprints and interleavings -/

section Footprint

variable {α β : Type} {S T SA SB TA TB : Path → Prop} {fs σ σA σB : FS}

/-- Every call of `p`, on every branch, reads only paths of `S` and changes only paths of `T`. -/
def Within (S T : Path → Prop) : Prog α → Prop
  | ret _ => True
  | call c k => (∀ q, c.sees q → S q) ∧ (∀ q, c.touches q → T q) ∧ ∀ r, Within S T (k r)

theorem Within.mono {S' T' : Path → Prop} (hS : ∀ q, S q → S' q) (hT : ∀ q, T q → T' q) :
    ∀ {p : Prog α}, Within S T p → Within S' T' p
  | ret _, _ => trivial
  | call _ _, h => ⟨fun q hq => hS q (h.1 q hq), fun q hq => hT q (h.2.1 q hq),
      fun r => Within.mono hS hT (h.2.2 r)⟩

theorem within_bind {p : Prog α} {f : α → Prog β} (hp : Within S T p) (hf : ∀ a, Within S T (f a)) :
    Within S T (p.bind f) := by
  induction p with
  | ret a => exact hf a
  | call c k ih => exact ⟨hp.1, hp.2.1, fun r => ih r (hp.2.2 r)⟩

theorem within_bind_of_returns {R : α → Prop} {p : Prog α} {f : α → Prog β} (hp : Within S T p)
    (hR : p.Returns R) (hf : ∀ a, R a → Within S T (f a)) : Within S T (p.bind f) := by
  induction p with
  | ret a => exact hf a hR
  | call c k ih => exact ⟨hp.1, hp.2.1, fun r => ih r (hp.2.2 r) (hR r)⟩

/-- A program that changes only paths of `T` leaves every other path alone. -/
theorem Within.avoids {q : Path} (hq : ¬ T q) : ∀ {p : Prog α}, Within S T p → p.Avoids q
  | ret _, _ => trivial
  | call _ _, h => ⟨fun ht => hq (h.2.1 q ht), fun r => Within.avoids hq (h.2.2 r)⟩

theorem SeesBelow.within {d : Path} (hS : ∀ q, d <+: q → S q) (hT : ∀ q, d <+: q → T q) :
    ∀ {p : Prog α}, SeesBelow d p → Within S T p
  | ret _, _ => trivial
  | call _ _, h => ⟨fun q hq => hS q (h.1 q hq), fun q hq => hT q (h.1 q (Call.sees_of_touches hq)),
      fun r => SeesBelow.within hS hT (h.2 r)⟩

/-- The state of two runs that do not interfere, against their lone states `σA` and `σB`: the
first's on what the first reads, the second's on what the second reads, and the start
elsewhere. -/
def Merged (SA SB : Path → Prop) (fs σ σA σB : FS) : Prop :=
  (∀ q, SA q → σ.get q = σA.get q) ∧ (∀ q, SB q → σ.get q = σB.get q) ∧
    ∀ q, ¬ SA q → ¬ SB q → σ.get q = fs.get q

theorem Merged.swap (h : Merged SA SB fs σ σA σB) : Merged SB SA fs σ σB σA :=
  ⟨h.2.1, h.1, fun q hb ha => h.2.2 q ha hb⟩

/-- How an interleaving `res` of two calls that do not interfere ends: each with what it
returns alone, and the file system merged from their lone final states. -/
def EndsAsBoth (SA SB : Path → Prop) (pA : Prog α) (pB : Prog β) (env : Env) (fs : FS)
    (res : (α × β) × FS) : Prop :=
  res.1 = ((pA.run env fs).1, (pB.run env fs).1) ∧
    Merged SA SB fs res.2 (pA.run env fs).2 (pB.run env fs).2

variable (hAB : ∀ q, SA q → ¬ TB q) (hBA : ∀ q, SB q → ¬ TA q) (env : Env)

include hBA in
/-- A call of the first program, on the merged state and on its lone state: the same reply,
and the states stay merged. -/
theorem Merged.stepA {c : Call} (hs : ∀ q, c.sees q → SA q) (ht : ∀ q, c.touches q → TA q)
    (h : Merged SA SB fs σ σA σB) :
    (c.step env σ).1 = (c.step env σA).1 ∧ Merged SA SB fs (c.step env σ).2 (c.step env σA).2 σB := by
  obtain ⟨hr, hag⟩ := step_agree hs rfl h.1
  have hkeep : ∀ q, ¬ c.touches q → (c.step env σ).2.get q = σ.get q :=
    fun q hq => get_step_of_not_touches hq env σ
  exact ⟨hr, hag, fun q hq => (hkeep q fun h' => hBA q hq (ht q h')).trans (h.2.1 q hq),
    fun q ha hb => (hkeep q fun h' => ha (hs q (Call.sees_of_touches h'))).trans (h.2.2 q ha hb)⟩

include hBA in
/-- The first program running to its end. -/
theorem Merged.runA : ∀ {p : Prog α} {σ σA : FS}, Within SA TA p → Merged SA SB fs σ σA σB →
    (p.run env σ).1 = (p.run env σA).1 ∧ Merged SA SB fs (p.run env σ).2 (p.run env σA).2 σB
  | ret _, _, _, _, h => ⟨rfl, h⟩
  | call _ k, _, _, hw, h =>
    let ⟨hr, h'⟩ := h.stepA hBA env hw.1 hw.2.1
    by rw [run_call, run_call, hr]; exact Merged.runA (hw.2.2 _) h'

include hAB hBA in
/-- Every interleaving keeps the states merged and gives each program its lone replies. -/
theorem Merged.runBoth : ∀ (s : List Bool) {pA : Prog α} {pB : Prog β} {σ σA σB : FS},
    Within SA TA pA → Within SB TB pB → Merged SA SB fs σ σA σB →
    (runBoth env s pA pB σ).1 = ((pA.run env σA).1, (pB.run env σB).1) ∧
      Merged SA SB fs (runBoth env s pA pB σ).2 (pA.run env σA).2 (pB.run env σB).2
  | [], _, _, _, _, _, hA, hB, h =>
    let ⟨h₁, hA'⟩ := h.runA hBA env hA
    let ⟨h₂, hB'⟩ := hA'.swap.runA hAB env hB
    ⟨Prod.ext h₁ h₂, hB'.swap⟩
  | true :: s, call _ k, _, _, _, _, hA, hB, h =>
    let ⟨hr, h'⟩ := h.stepA hBA env hA.1 hA.2.1
    by rw [run_call, ← hr]; exact Merged.runBoth s (hA.2.2 _) hB h'
  | true :: s, ret _, _, _, _, _, hA, hB, h => Merged.runBoth s hA hB h
  | false :: s, _, call _ k, _, _, _, hA, hB, h =>
    let ⟨hr, h'⟩ := h.swap.stepA hAB env hB.1 hB.2.1
    by rw [run_call, ← hr]; exact Merged.runBoth s hA (hB.2.2 _) h'.swap
  | false :: s, ret _, ret _, _, _, _, hA, hB, h => Merged.runBoth s hA hB h
  | false :: s, call _ _, ret _, _, _, _, hA, hB, h => Merged.runBoth s hA hB h

include hAB hBA in
/-- Two programs, each changing nothing the other reads: whatever the environment and the
interleaving, each returns what it returns alone, and every path ends as the program that reads
it leaves it alone, or as it was. -/
theorem runBoth_independent {pA : Prog α} {pB : Prog β} (hA : Within SA TA pA)
    (hB : Within SB TB pB) (s : List Bool) (fs : FS) :
    EndsAsBoth SA SB pA pB env fs (runBoth env s pA pB fs) :=
  Merged.runBoth hAB hBA env s hA hB ⟨fun _ _ => rfl, fun _ _ => rfl, fun _ _ _ => rfl⟩

end Footprint

/-! ## Creating calls for different ids -/

section Creating

variable {α β : Type} {t dst : Path} {x : String}

/-- What a call that stages `t` and publishes it as `dst` reads: both, what is below them, and
the directory of `dst`. -/
def StagedReads (t dst q : Path) : Prop := t <+: q ∨ dst <+: q ∨ q = dst.dropLast

/-- What such a call changes: `t`, `dst` and what is below them. -/
def StagedChanges (t dst q : Path) : Prop := t <+: q ∨ dst <+: q

/-- A program of the publishing shape, staging in the directory of its final name, reads and
changes only what `StagedReads` and `StagedChanges` say. -/
theorem Publishes.within {p : Prog α} (h : Publishes t dst x p) (hpar : t.dropLast = dst.dropLast) :
    Within (StagedReads t dst) (StagedChanges t dst) p := by
  induction h with
  | ret _ => trivial
  | stage hc _ ih =>
    exact ⟨fun q hq => (hc.1 q hq).elim .inl fun e => .inr (.inr (e.trans hpar)),
      fun q hq => .inl (hc.2 q hq), ih⟩
  | rename hok hfail =>
    refine ⟨fun _ => id, fun _ => id, fun r => ?_⟩
    cases hr : r.ok
    · exact (hfail r hr).within (fun _ => .inl) fun _ => .inl
    · exact (hok r hr).1.within (fun _ h => .inr (.inl h)) fun _ => .inr
  | publish hok hfail =>
    have hlost := hfail.within (S := StagedReads t dst) (T := StagedChanges t dst)
      (fun _ => .inl) fun _ => .inl
    refine ⟨fun q hq => .inr (.inl (by subst hq; exact List.prefix_refl _)), nofun, fun r => ?_⟩
    dsimp only
    split
    · exact hlost
    refine ⟨fun _ => id, fun _ => id, fun r => ?_⟩
    dsimp only
    split
    exacts [hok.1.within (fun _ h => .inr (.inl h)) fun _ => .inr, hlost]

/-- Two entries of one directory at or above one path are the same entry. -/
theorem eq_of_prefix_siblings {base q : Path} {a b : String} (ha : base ++ [a] <+: q)
    (hb : base ++ [b] <+: q) : a = b := by
  simpa using (List.prefix_of_prefix_length_le ha hb (by simp)).eq_of_length (by simp)

/-- Staging and publishing under two names of a directory reads nothing that staging and
publishing under two other names changes. -/
theorem staged_apart {base : Path} {a b c d : String} (hac : a ≠ c) (had : a ≠ d) (hbc : b ≠ c)
    (hbd : b ≠ d) (q : Path) (hq : StagedReads (base ++ [a]) (base ++ [b]) q) :
    ¬ StagedChanges (base ++ [c]) (base ++ [d]) q := by
  have hbase : ∀ e, ¬ base ++ [e] <+: (base ++ [b]).dropLast := fun e h => by
    simpa using h.length_le
  rcases hq with ha | hb | rfl <;> rintro (hc | hd)
  exacts [hac (eq_of_prefix_siblings ha hc), had (eq_of_prefix_siblings ha hd),
    hbc (eq_of_prefix_siblings hb hc), hbd (eq_of_prefix_siblings hb hd), hbase c hc, hbase d hd]

/-- Two programs of the publishing shape under four distinct names of one directory never
interfere. -/
theorem Publishes.independent {base : Path} {uA hA uB hB xA xB : String} {pA : Prog α}
    {pB : Prog β} (hPA : Publishes (base ++ [uA]) (base ++ [hA]) xA pA)
    (hPB : Publishes (base ++ [uB]) (base ++ [hB]) xB pB) (hu : uA ≠ uB) (hh : hA ≠ hB)
    (hAu : hA ≠ uB) (hBu : hB ≠ uA) (env : Env) (s : List Bool) (fs : FS) :
    EndsAsBoth (StagedReads (base ++ [uA]) (base ++ [hA])) (StagedReads (base ++ [uB]) (base ++ [hB]))
      pA pB env fs (runBoth env s pA pB fs) :=
  runBoth_independent (staged_apart hu hBu.symm hAu hh) (staged_apart hu.symm hAu.symm hBu hh.symm)
    env (hPA.within (by simp)) (hPB.within (by simp)) s fs

/-- Two creators of kex ids in one persona directory, staging under distinct unique names, for
different valid ids, never interfere. -/
theorem Persona.kexCreators_independent {cfg : Config} {K P : Type} {pA pB : Persona K P}
    (hdir : pB.dir = pA.dir) {hexA hexB : String} (hA : cfg.isHexHash hexA = true)
    (hB : cfg.isHexHash hexB = true) (hne : hexA ≠ hexB) {tvA tvB : Timeval} {pidA pidB : Nat}
    (hu : uniqueName tvA pidA ≠ uniqueName tvB pidB) {xA xB : String} {qA : Prog α} {qB : Prog β}
    (hPA : Publishes (pA.dir ++ [uniqueName tvA pidA]) (pA.kexDir hexA) xA qA)
    (hPB : Publishes (pB.dir ++ [uniqueName tvB pidB]) (pB.kexDir hexB) xB qB) (env : Env)
    (s : List Bool) (fs : FS) :
    EndsAsBoth (StagedReads (pA.dir ++ [uniqueName tvA pidA]) (pA.kexDir hexA))
      (StagedReads (pA.dir ++ [uniqueName tvB pidB]) (pA.kexDir hexB)) qA qB env fs
      (runBoth env s qA qB fs) := by
  rw [Persona.kexDir_eq] at hPA hPB ⊢
  rw [Persona.kexDir_eq]
  rw [hdir] at hPB
  exact hPA.independent hPB hu hne (ne_uniqueName hA _ _) (ne_uniqueName hB _ _) env s fs

end Creating

/-- Two calls that create directories for different ids, staging under distinct unique names:
two `add_persona`s of keys with different ids in one base directory, or any two of
`gen_kex_key` and `add_dh_pubkey` storing different kex ids in one persona directory. Whatever
the interleaving and whatever system calls fail, each returns what it returns alone, and every
path ends as the call whose staging directory, final directory or their directory it is leaves
it alone, or as it was: no update of one is lost or undone by the other. -/
theorem creators_independent {cfg : Config} {K P : Type} (kp : KeyProvider K P) (env : Env)
    (fs : FS) (s : List Bool) {tvA tvB : Timeval} {pidA pidB : Nat}
    (distinctStaging : uniqueName tvA pidA ≠ uniqueName tvB pidB) {hexA hexB : String} (distinctIds : hexA ≠ hexB) :
    (∀ (ksA ksB : Keystore cfg K P) (nameA nameB cA cB privA privB dhA dhB : String)
        (seedA seedB : Nat), ksB.cfgbase = ksA.cfgbase →
      (normalizeAndHexhash ksA.md cA).2 = some hexA → (normalizeAndHexhash ksB.md cB).2 = some hexB →
      EndsAsBoth (StagedReads (ksA.cfgbase ++ [uniqueName tvA pidA]) (ksA.cfgbase ++ [hexA]))
        (StagedReads (ksA.cfgbase ++ [uniqueName tvB pidB]) (ksA.cfgbase ++ [hexB]))
        (ksA.addPersona kp nameA cA privA dhA seedA tvA pidA)
        (ksB.addPersona kp nameB cB privB dhB seedB tvB pidB) env fs
        (runBoth env s (ksA.addPersona kp nameA cA privA dhA seedA tvA pidA)
          (ksB.addPersona kp nameB cB privB dhB seedB tvB pidB) fs)) ∧
    (∀ (pA pB : Persona K P) (mdA mdB : Md cfg), pB.dir = pA.dir →
      (∀ (peerA peerB : String) (seedA seedB : Nat) (pubA privA pubB privB : String),
        Persona.kexMaterial cfg kp mdA pA seedA = .ok (pubA, privA, hexA) →
        Persona.kexMaterial cfg kp mdB pB seedB = .ok (pubB, privB, hexB) →
        EndsAsBoth (StagedReads (pA.dir ++ [uniqueName tvA pidA]) (pA.kexDir hexA))
          (StagedReads (pA.dir ++ [uniqueName tvB pidB]) (pA.kexDir hexB))
          (pA.genKexKey cfg kp mdA peerA seedA tvA pidA) (pB.genKexKey cfg kp mdB peerB seedB tvB pidB)
          env fs (runBoth env s (pA.genKexKey cfg kp mdA peerA seedA tvA pidA)
            (pB.genKexKey cfg kp mdB peerB seedB tvB pidB) fs)) ∧
      (∀ (pemA pemB pemA' pemB' : String) (kA kB : K),
        Persona.dhPubkeyId cfg kp mdA pemA = (.ok (kA, hexA), pemA') →
        Persona.dhPubkeyId cfg kp mdB pemB = (.ok (kB, hexB), pemB') →
        EndsAsBoth (StagedReads (pA.dir ++ [uniqueName tvA pidA]) (pA.kexDir hexA))
          (StagedReads (pA.dir ++ [uniqueName tvB pidB]) (pA.kexDir hexB))
          (pA.addDhPubkey cfg kp mdA pemA tvA pidA) (pB.addDhPubkey cfg kp mdB pemB tvB pidB) env fs
          (runBoth env s (pA.addDhPubkey cfg kp mdA pemA tvA pidA)
            (pB.addDhPubkey cfg kp mdB pemB tvB pidB) fs)) ∧
      (∀ (peerA : String) (seedA : Nat) (pubA privA pemB pemB' : String) (kB : K),
        Persona.kexMaterial cfg kp mdA pA seedA = .ok (pubA, privA, hexA) →
        Persona.dhPubkeyId cfg kp mdB pemB = (.ok (kB, hexB), pemB') →
        EndsAsBoth (StagedReads (pA.dir ++ [uniqueName tvA pidA]) (pA.kexDir hexA))
          (StagedReads (pA.dir ++ [uniqueName tvB pidB]) (pA.kexDir hexB))
          (pA.genKexKey cfg kp mdA peerA seedA tvA pidA) (pB.addDhPubkey cfg kp mdB pemB tvB pidB)
          env fs (runBoth env s (pA.genKexKey cfg kp mdA peerA seedA tvA pidA)
            (pB.addDhPubkey cfg kp mdB pemB tvB pidB) fs))) := by
  refine ⟨fun ksA ksB nameA nameB cA cB privA privB dhA dhB seedA seedB hcfg hA hB => ?_,
    fun pA pB mdA mdB hdir => ⟨fun peerA peerB seedA seedB pubA privA pubB privB hA hB => ?_,
      fun pemA pemB pemA' pemB' kA kB hA hB => ?_, fun peerA seedA pubA privA pemB pemB' kB hA hB => ?_⟩⟩
  · -- two `add_persona`s
    have hPA : Publishes (ksA.cfgbase ++ [uniqueName tvA pidA]) (ksA.cfgbase ++ [hexA]) ""
        (ksA.addPersona kp nameA cA privA dhA seedA tvA pidA) :=
      Keystore.addPersona_publishes kp ksA (by decide) hA tvA pidA
    have hPB : Publishes (ksB.cfgbase ++ [uniqueName tvB pidB]) (ksB.cfgbase ++ [hexB]) ""
        (ksB.addPersona kp nameB cB privB dhB seedB tvB pidB) :=
      Keystore.addPersona_publishes kp ksB (by decide) hB tvB pidB
    rw [hcfg] at hPB
    exact hPA.independent hPB distinctStaging distinctIds (ne_uniqueName (normalizeAndHexhash_isHexHash (Prod.ext rfl hA)) _ _)
      (ne_uniqueName (normalizeAndHexhash_isHexHash (Prod.ext rfl hB)) _ _) env s fs
  · exact Persona.kexCreators_independent hdir (Persona.kexMaterial_isHexHash kp hA)
      (Persona.kexMaterial_isHexHash kp hB) distinctIds distinctStaging (Persona.genKexKey_publishes kp mdA pA hA "" peerA tvA pidA)
      (Persona.genKexKey_publishes kp mdB pB hB "" peerB tvB pidB) env s fs
  · exact Persona.kexCreators_independent hdir (Persona.dhPubkeyId_isHexHash kp (congrArg Prod.fst hA))
      (Persona.dhPubkeyId_isHexHash kp (congrArg Prod.fst hB)) distinctIds distinctStaging
      (Persona.addDhPubkey_publishes kp mdA pA hA "" tvA pidA)
      (Persona.addDhPubkey_publishes kp mdB pB hB "" tvB pidB) env s fs
  · exact Persona.kexCreators_independent hdir (Persona.kexMaterial_isHexHash kp hA)
      (Persona.dhPubkeyId_isHexHash kp (congrArg Prod.fst hB)) distinctIds distinctStaging
      (Persona.genKexKey_publishes kp mdA pA hA "" peerA tvA pidA)
      (Persona.addDhPubkey_publishes kp mdB pB hB "" tvB pidB) env s fs

/-- `add_persona` of the EC key beside `add_persona` of a longer key text, whose id differs, in
a base directory that holds nothing else. -/
theorem creators_independent_ec :
    uniqueName ⟨1, 2⟩ 7 ≠ uniqueName ⟨1, 2⟩ 8 ∧ "9999999999999999" ≠ "aaaaaaaaaaaaaaaa" ∧
    EndsAsBoth (StagedReads ["ks", uniqueName ⟨1, 2⟩ 7] ["ks", "9999999999999999"])
      (StagedReads ["ks", uniqueName ⟨1, 2⟩ 8] ["ks", "aaaaaaaaaaaaaaaa"]) TestDouble.addEc
      (TestDouble.keystore.addPersona TestDouble.provider "" (pemPubkey "RUMx=\n") "" "" 0 ⟨1, 2⟩ 8)
      Env.none TestDouble.baseOnly
      (runBoth Env.none [true, false, true, false] TestDouble.addEc
        (TestDouble.keystore.addPersona TestDouble.provider "" (pemPubkey "RUMx=\n") "" "" 0 ⟨1, 2⟩ 8)
        TestDouble.baseOnly) :=
  ⟨by decide, by decide, (creators_independent TestDouble.provider Env.none TestDouble.baseOnly
    [true, false, true, false] (by decide) (by decide)).1 TestDouble.keystore TestDouble.keystore
    "" "" _ _ "" "" "" "" 0 0 rfl (by decide) (by decide)⟩

end OpmsgKeystore
