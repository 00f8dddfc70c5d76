import OpmsgKeystore.Independent
import OpmsgKeystore.MirrorRuns

/-!
# Operations on a persona stay in its directory

Every operation of `keystore.cc` on a persona reads and changes only its persona directory
`<base>/<id>`, and leaves the persona it returns in that directory. So a persona is isolated
from every other: any run of operations on one persona, in any environments, changes nothing
outside its directory, and every other persona whose kex keys mirror its directory keeps
mirroring it; and two processes working on two different personas never interfere, whatever
the interleaving and whatever fails.

* `PersonaOp.prog_within`: what one operation reads and changes lies below the persona
  directory.
* `PersonaOp.prog_dir`: every operation returns a persona with the same directory.
* `progs_isolated`: a run of operations on one persona changes nothing outside its directory
  and keeps the kex mirror of every other persona.
* `personaOps_independent`: operations on two personas with different directories, from two
  processes, end every interleaving as each would alone.
-/

namespace OpmsgKeystore

open Prog FS

variable {cfg : Config} {K P : Type} (kp : KeyProvider K P)

/-! ## One operation -/

section Shape

variable {α : Type} {d file : Path}

theorem seesBelow_shred {k : Prog α} (hf : d <+: file) (hk : SeesBelow d k) :
    ∀ n off, SeesBelow d (Persona.shred file n off k)
  | 0, _ => hk
  | n + 1, _ => ⟨fun _ hq => hq ▸ hf, fun _ => ⟨nofun, fun _ => seesBelow_shred hf hk n _⟩⟩

/-- A program of the publishing shape, staging beside its final name in a directory, reads and
changes only what is below that directory. -/
theorem Publishes.within_below {u h x : String} {p : Prog α} (hP : Publishes (d ++ [u]) (d ++ [h]) x p) :
    Within (d <+: ·) (d <+: ·) p := by
  have hu : d <+: d ++ [u] := List.prefix_append _ _
  have hh : d <+: d ++ [h] := List.prefix_append _ _
  refine (hP.within (by simp)).mono (fun q hq => ?_) fun q hq => ?_
  · rcases hq with hq | hq | rfl
    exacts [hu.trans hq, hh.trans hq, by simp]
  · rcases hq with hq | hq
    exacts [hu.trans hq, hh.trans hq]

end Shape

namespace Persona

variable (p : Persona K P)

theorem dir_prefix_kexDir (hex : String) : p.dir <+: p.kexDir hex := by
  rw [kexDir_eq]
  exact List.prefix_append _ _

theorem genKexKey_within (md : Md cfg) (peer : String) (seed : Nat) (tv : Timeval) (pid : Nat) :
    Within (p.dir <+: ·) (p.dir <+: ·) (p.genKexKey cfg kp md peer seed tv pid) := by
  rcases hmat : kexMaterial cfg kp md p seed with _ | ⟨pub, priv, hex⟩
  · unfold genKexKey
    rw [hmat]
    trivial
  · have hP := genKexKey_publishes kp md p hmat "" peer tv pid
    rw [kexDir_eq] at hP
    exact hP.within_below

theorem addDhPubkey_within (md : Md cfg) (pem : String) (tv : Timeval) (pid : Nat) :
    Within (p.dir <+: ·) (p.dir <+: ·) (p.addDhPubkey cfg kp md pem tv pid) := by
  rcases hid : dhPubkeyId cfg kp md pem with ⟨_ | ⟨kpub, hex⟩, pem'⟩
  · unfold addDhPubkey
    rw [hid]
    trivial
  · have hP := addDhPubkey_publishes kp md p hid "" tv pid
    rw [kexDir_eq] at hP
    exact hP.within_below

theorem delDhId_seesBelow (hex : String) : SeesBelow (p.kexDir hex) (p.delDhId cfg hex) := by
  unfold delDhId
  split_ifs
  exacts [trivial, trivial, ⟨fun _ hq => hq, fun _ => trivial⟩]

theorem delDhPriv_seesBelow (hex : String) : SeesBelow (p.kexDir hex) (p.delDhPriv cfg hex) := by
  have hf : ∀ x q, q = p.kexDir hex ++ [x] → p.kexDir hex <+: q := fun _ _ hq =>
    hq ▸ List.prefix_append _ _
  unfold delDhPriv
  split_ifs
  · trivial
  · trivial
  refine ⟨hf _, fun r => ?_⟩
  dsimp only
  split
  · trivial
  refine seesBelow_check (hf _) <| seesBelow_shred (List.prefix_append _ _) ?_ _ _
  exact seesBelow_seq (fun _ => hf _ _) <| seesBelow_seq (fun _ => hf _ _) <|
    seesBelow_seq (fun _ => hf _ _) trivial

theorem delDhPub_seesBelow (hex : String) : SeesBelow (p.kexDir hex) (p.delDhPub cfg hex) := by
  unfold delDhPub
  split_ifs
  exacts [trivial, trivial, seesBelow_seq (fun _ hq => hq ▸ List.prefix_append _ _) trivial]

theorem usedKey_seesBelow (hex : String) (u : Bool) :
    SeesBelow (p.kexDir hex) (p.usedKey cfg hex u) := by
  unfold usedKey
  split_ifs
  · trivial
  · trivial
  · exact seesBelow_seq (sees_below_of_file (c := .openExcl (p.kexDir hex ++ ["used"])) fun _ h => h)
      trivial
  · exact seesBelow_seq (fun _ hq => hq ▸ List.prefix_append _ _) trivial

theorem link_seesBelow (hex : String) : SeesBelow p.dir (p.link cfg hex) := by
  have hf : ∀ q, q = p.dir ++ ["srclink"] → p.dir <+: q := fun _ hq => hq ▸ List.prefix_append _ _
  unfold link
  split_ifs
  · trivial
  refine ⟨sees_below_of_file fun _ h => h, fun r => ?_⟩
  dsimp only
  split
  exacts [seesBelow_seq hf (seesBelow_seq hf trivial), trivial]

end Persona

namespace PersonaOp

/-- Every operation reads and changes only what is below the persona directory. -/
theorem prog_within (o : PersonaOp cfg) (p : Persona K P) :
    Within (p.dir <+: ·) (p.dir <+: ·) (o.prog kp p) := by
  have below : ∀ {α : Type} {d : Path} {q : Prog α}, p.dir <+: d → SeesBelow d q →
      Within (p.dir <+: ·) (p.dir <+: ·) q := fun hd h => h.within (fun _ => hd.trans) fun _ => hd.trans
  cases o with
  | genKexKey md peer seed tv pid => exact within_bind (p.genKexKey_within kp md peer seed tv pid) fun _ => trivial
  | addDhPubkey md pem tv pid => exact within_bind (p.addDhPubkey_within kp md pem tv pid) fun _ => trivial
  | delDhId hex => exact within_bind (below (p.dir_prefix_kexDir hex) (p.delDhId_seesBelow hex)) fun _ => trivial
  | delDhPriv hex => exact within_bind (below (p.dir_prefix_kexDir hex) (p.delDhPriv_seesBelow hex)) fun _ => trivial
  | delDhPub hex => exact within_bind (below (p.dir_prefix_kexDir hex) (p.delDhPub_seesBelow hex)) fun _ => trivial
  | usedKey hex u => exact within_bind (below (p.dir_prefix_kexDir hex) (p.usedKey_seesBelow hex u)) fun _ => trivial
  | link hex => exact within_bind (below (List.prefix_refl _) (p.link_seesBelow hex)) fun _ => trivial
  | newDhParams seed =>
    exact within_bind (below (List.prefix_refl _) (Persona.newDhParams_seesBelow kp p rfl seed)) fun _ => trivial
  | newDhParamsPem pem =>
    exact within_bind (below (List.prefix_refl _) (Persona.newDhParamsPem_seesBelow kp p rfl pem)) fun _ => trivial

end PersonaOp

/-! ## The persona an operation returns -/

namespace Persona

variable (p : Persona K P)

theorem delDhId_dir (hex : String) : (p.delDhId cfg hex).Returns (·.2.dir = p.dir) := by
  unfold delDhId
  split_ifs
  exacts [rfl, rfl, fun _ => rfl]

theorem delDhPriv_dir (hex : String) : (p.delDhPriv cfg hex).Returns (·.2.dir = p.dir) := by
  unfold delDhPriv
  split_ifs
  · exact rfl
  · exact rfl
  refine fun r => ?_
  dsimp only
  split
  · exact rfl
  · simp [Persona.dir]

theorem delDhPub_dir (hex : String) : (p.delDhPub cfg hex).Returns (·.2.dir = p.dir) := by
  unfold delDhPub
  split_ifs
  exacts [rfl, rfl, fun _ => rfl]

end Persona

namespace PersonaOp

/-- Every operation returns a persona with the persona directory it was given. -/
theorem prog_dir (o : PersonaOp cfg) (p : Persona K P) : (o.prog kp p).Returns (·.dir = p.dir) := by
  have keeps : ∀ {q : Persona K P}, p.KeepsKex q → q.dir = p.dir := fun h => by
    simp only [Persona.dir, h.2.1, h.2.2]
  cases o with
  | genKexKey md peer seed tv pid =>
    refine returns_bind (p.genKexKey_returns kp md peer seed tv pid) fun r ⟨he, hok⟩ => ?_
    show r.2.dir = p.dir
    rcases hr : r.1 with m | b
    · rw [he m hr]
    · obtain ⟨_, _, _, _, ⟨_, h⟩ | ⟨_, _, _, _, h⟩⟩ := hok b hr <;> simp only [h, Persona.dir]
  | addDhPubkey md pem tv pid =>
    refine returns_bind (p.addDhPubkey_returns kp md pem tv pid) fun r ⟨he, hok⟩ => ?_
    show r.2.1.dir = p.dir
    rcases hr : r.1 with m | b
    · rw [he m hr]
    · obtain ⟨_, _, _, ⟨_, h⟩ | ⟨_, _, _, h⟩⟩ := hok b hr <;> simp only [h, Persona.dir]
  | delDhId hex => exact returns_bind (p.delDhId_dir hex) fun _ => id
  | delDhPriv hex => exact returns_bind (p.delDhPriv_dir hex) fun _ => id
  | delDhPub hex => exact returns_bind (p.delDhPub_dir hex) fun _ => id
  | usedKey hex u => exact returns_bind (returns_const trivial _) fun _ _ => rfl
  | link hex => exact returns_bind (p.link_keepsKex hex) fun _ => keeps
  | newDhParams seed => exact returns_bind (p.newDhParams_keepsKex kp seed) fun _ => keeps
  | newDhParamsPem pem => exact returns_bind (p.newDhParamsPem_keepsKex kp pem) fun _ => keeps

/-- Operations on one persona run one after another by one process, each on the persona the
one before returned. -/
def progs : List (PersonaOp cfg) → Persona K P → Prog (Persona K P)
  | [], p => ret p
  | o :: os, p => (o.prog kp p).bind (progs os)

/-- Every sequence of operations reads and changes only what is below the persona directory,
and returns a persona with that directory. -/
theorem progs_within : ∀ (os : List (PersonaOp cfg)) (p : Persona K P),
    Within (p.dir <+: ·) (p.dir <+: ·) (progs kp os p) ∧ (progs kp os p).Returns (·.dir = p.dir)
  | [], _ => ⟨trivial, rfl⟩
  | o :: os, p =>
    ⟨within_bind_of_returns (o.prog_within kp p) (o.prog_dir kp p) fun q hq => hq ▸ (progs_within os q).1,
      returns_bind (o.prog_dir kp p) fun q hq => returns_mono (progs_within os q).2 fun _ h => h.trans hq⟩

end PersonaOp

/-! ## Isolation over runs and interleavings -/

/-- Any sequence of operations on a persona, in any environment, returns a persona in the same
directory and changes nothing outside that directory; every other persona, in a directory apart
from it, whose kex keys were those a load of its directory reads, still has those keys. -/
theorem progs_isolated (os : List (PersonaOp cfg)) (p : Persona K P) (env : Env) (fs : FS) :
    ((PersonaOp.progs kp os p).run env fs).1.dir = p.dir ∧
      SameOutside p.dir fs ((PersonaOp.progs kp os p).run env fs).2 ∧
      ∀ q : Persona K P, ¬ p.dir <+: q.dir → ¬ q.dir <+: p.dir → Persona.KeysMirror cfg kp fs q →
        Persona.KeysMirror cfg kp ((PersonaOp.progs kp os p).run env fs).2 q := by
  obtain ⟨hw, hd⟩ := PersonaOp.progs_within kp os p
  have hout := Prog.sameOutside_run (fun _ hq => hw.avoids hq) env fs
  refine ⟨run_fst_of_returns hd env fs, hout, fun q hpq hqp hm y => ?_⟩
  have hbelow : ∀ r, q.dir <+: r → ((PersonaOp.progs kp os p).run env fs).2.get r = fs.get r :=
    fun r hr => hout r fun hp => (prefix_comparable hp hr).elim hpq hqp
  rw [hm y, Persona.loadedKeys_find_of_below cfg kp (hbelow _ (List.prefix_refl _))
    fun r hr => hbelow r ((List.prefix_append _ _).trans hr)]

/-- Two processes, each running operations on its own persona, the two persona directories apart
from each other: whatever the interleaving and whatever fails, each returns what it returns alone,
and each persona directory ends as its own process leaves it. -/
theorem personaOps_independent (osA osB : List (PersonaOp cfg)) (pA pB : Persona K P)
    (aNotAboveB : ¬ pA.dir <+: pB.dir) (bNotAboveA : ¬ pB.dir <+: pA.dir) (env : Env) (s : List Bool) (fs : FS) :
    EndsAsBoth (pA.dir <+: ·) (pB.dir <+: ·) (PersonaOp.progs kp osA pA) (PersonaOp.progs kp osB pB)
      env fs (runBoth env s (PersonaOp.progs kp osA pA) (PersonaOp.progs kp osB pB) fs) :=
  have apart : ∀ q, pA.dir <+: q → ¬ pB.dir <+: q := fun _ ha hb =>
    (prefix_comparable ha hb).elim aNotAboveB bNotAboveA
  runBoth_independent apart (fun q hb ha => apart q ha hb) env (PersonaOp.progs_within kp osA pA).1
    (PersonaOp.progs_within kp osB pB).1 s fs

/-- `gen_kex_key` on `ecPersona` beside `link` on the persona `addEc` creates. -/
theorem personaOps_independent_ec :
    ¬ TestDouble.ecPersona.dir <+: TestDouble.ecAdded.dir ∧
    ¬ TestDouble.ecAdded.dir <+: TestDouble.ecPersona.dir ∧
    EndsAsBoth (TestDouble.ecPersona.dir <+: ·) (TestDouble.ecAdded.dir <+: ·)
      (PersonaOp.progs TestDouble.provider [.genKexKey TestDouble.md "" 0 ⟨1, 2⟩ 7] TestDouble.ecPersona)
      (PersonaOp.progs TestDouble.provider [(.link "0123456789abcdef" : PersonaOp TestDouble.config)] TestDouble.ecAdded) Env.none
      TestDouble.withPersona
      (runBoth Env.none [true, false, true]
        (PersonaOp.progs TestDouble.provider [.genKexKey TestDouble.md "" 0 ⟨1, 2⟩ 7] TestDouble.ecPersona)
        (PersonaOp.progs TestDouble.provider [(.link "0123456789abcdef" : PersonaOp TestDouble.config)] TestDouble.ecAdded)
        TestDouble.withPersona) :=
  ⟨by decide, by decide, personaOps_independent TestDouble.provider _ _ _ _ (by decide) (by decide) _ _ _⟩

/-- `add_persona` of a key beside any operations on a persona whose id is another: whatever the
interleaving and whatever fails, each returns what it returns alone, the staging and final
directories of the new persona end as `add_persona` leaves them, and the other persona's
directory as its operations leave it. -/
theorem addPersona_personaOps_independent (ks : Keystore cfg K P)
    (name cPubPem privPem dhparamsPem : String) (seed : Nat) (tv : Timeval) (pid : Nat) {hex : String}
    (normalized : (normalizeAndHexhash ks.md cPubPem).2 = some hex) (os : List (PersonaOp cfg))
    (p : Persona K P) (sameBase : p.cfgbase = ks.cfgbase) (validId : cfg.isHexHash p.id = true)
    (otherId : p.id ≠ hex) (env : Env) (s : List Bool) (fs : FS) :
    EndsAsBoth (StagedReads (ks.cfgbase ++ [uniqueName tv pid]) (ks.cfgbase ++ [hex])) (p.dir <+: ·)
      (ks.addPersona kp name cPubPem privPem dhparamsPem seed tv pid) (PersonaOp.progs kp os p) env fs
      (runBoth env s (ks.addPersona kp name cPubPem privPem dhparamsPem seed tv pid)
        (PersonaOp.progs kp os p) fs) := by
  have hP : Publishes (ks.cfgbase ++ [uniqueName tv pid]) (ks.cfgbase ++ [hex]) ""
      (ks.addPersona kp name cPubPem privPem dhparamsPem seed tv pid) :=
    Keystore.addPersona_publishes kp ks (by decide) normalized tv pid
  have hu := ne_uniqueName validId tv pid
  have hdir : p.dir = ks.cfgbase ++ [p.id] := by rw [Persona.dir, sameBase]
  have hops := (PersonaOp.progs_within kp os p).1
  rw [hdir] at hops ⊢
  exact runBoth_independent (fun q hq h => staged_apart hu.symm hu.symm otherId.symm otherId.symm q hq (.inl h))
    (fun q h => staged_apart hu otherId hu otherId q (.inl h)) env (hP.within (by simp)) hops s fs

/-- `addEc` beside `gen_kex_key` on `ecPersona`. -/
theorem addPersona_personaOps_independent_ec :
    (normalizeAndHexhash TestDouble.keystore.md (TestDouble.provider.writePubkey .ec)).2 =
      some "9999999999999999" ∧
    TestDouble.config.isHexHash TestDouble.ecPersona.id = true ∧
    TestDouble.ecPersona.id ≠ "9999999999999999" ∧
    EndsAsBoth (StagedReads ["ks", uniqueName ⟨1, 2⟩ 7] ["ks", "9999999999999999"])
      (TestDouble.ecPersona.dir <+: ·) TestDouble.addEc
      (PersonaOp.progs TestDouble.provider [.genKexKey TestDouble.md "" 0 ⟨1, 2⟩ 8] TestDouble.ecPersona)
      Env.none TestDouble.withPersona
      (runBoth Env.none [true, false, true, false] TestDouble.addEc
        (PersonaOp.progs TestDouble.provider [.genKexKey TestDouble.md "" 0 ⟨1, 2⟩ 8] TestDouble.ecPersona)
        TestDouble.withPersona) :=
  ⟨by decide, by decide, by decide, addPersona_personaOps_independent TestDouble.provider
    TestDouble.keystore "" _ "" "" 0 ⟨1, 2⟩ 7 (by decide) _ TestDouble.ecPersona rfl (by decide)
    (by decide) _ _ _⟩

end OpmsgKeystore
