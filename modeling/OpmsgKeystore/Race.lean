import OpmsgKeystore.Added

/-!
# Two processes creating the same directory

`add_persona`, `gen_kex_key` and `add_dh_pubkey` build their directory under a staging name
of their own and publish it with `rename`, so that two processes creating the same id race
only on that `rename` (and, for the kex calls, on the `stat` before it). This module models
the race and proves it harmless for every program of that shape.

* `runBoth`: two programs on one file system, their calls interleaved by a schedule; every
  interleaving is the run of some schedule.
* `Call.sees`: the paths whose nodes a call's reply and effect depend on (`exec_congr`).
* `Publishes t dst x p`: the shape of such a program, with staging directory `t` and final
  name `dst`: until it publishes it sees only its staging directory and that directory's
  parent; after a successful `rename` only `dst` and below, leaving `dst` and `dst ++ [x]`
  alone; after a failed one, or a taken `dst`, only its staging directory.
* `runBoth_race`: when no call fails, every interleaving of two such programs with staging
  directories apart from each other and from a free `dst` is a pair of lone runs, each in
  the environment that fails at most its own `rename`: one publishes and the other's
  `rename` fails, or neither publishes. The proof follows each process with the state of its
  lone run (`Sim`), which agrees with the real state away from the other's staging directory
  and `dst`.
-/

namespace OpmsgKeystore

open Prog FS

/-! ## What a call depends on -/

/-- The paths a call reads or may change. -/
def Call.sees : Call → Path → Prop
  | .mkdir p, q | .openExcl p, q | .openTrunc p, q => q = p ∨ q = p.dropLast
  | .openRW p, q | .write p _, q | .writeAt p _ _, q | .read p, q | .stat p, q
  | .unlink p, q => q = p
  | .rmdir p, q => p <+: q
  | .rename src dst, q => src <+: q ∨ dst <+: q ∨ q = dst.dropLast
  | .fdopen _, _ | .sync, _ => False

theorem Call.sees_of_touches {c : Call} {q : Path} (h : c.touches q) : c.sees q := by
  cases c <;> simp only [Call.touches, Call.sees] at h ⊢
  all_goals first | exact .inl h | exact h | exact h ▸ List.prefix_refl _ | exact h.imp id .inl

theorem hasBelow_congr {fs₁ fs₂ : FS} {p : Path} (h : ∀ q, p <+: q → fs₁.get q = fs₂.get q) :
    fs₁.HasBelow p ↔ fs₂.HasBelow p := by
  simp only [hasBelow_iff]
  exact exists_congr fun q => and_congr_right fun hq => by rw [h q hq]

/-- A call gives the same reply on two file systems that agree on what it sees, and leaves
them agreeing there. -/
theorem exec_congr {c : Call} {fs₁ fs₂ : FS} (h : ∀ q, c.sees q → fs₁.get q = fs₂.get q) :
    (c.exec fs₁).1 = (c.exec fs₂).1 ∧
      ∀ q, c.sees q → (c.exec fs₁).2.get q = (c.exec fs₂).2.get q := by
  cases c with
  | mkdir p | openExcl p =>
    have h1 := h p (.inl rfl)
    have h2 := h p.dropLast (.inr rfl)
    simp only [Call.exec, FS.isDir, h1, h2]
    split_ifs <;> exact ⟨rfl, fun q hq => by simp [h q hq]⟩
  | openTrunc p =>
    have h1 := h p (.inl rfl)
    have h2 := h p.dropLast (.inr rfl)
    simp only [Call.exec, FS.isDir, h1, h2]
    split <;> (try split_ifs) <;> exact ⟨rfl, fun q hq => by simp [h q hq]⟩
  | openRW p | read p =>
    simp only [Call.exec, h p rfl]
    split <;> exact ⟨rfl, h⟩
  | stat p => exact ⟨by simp only [Call.exec, FS.statSize, h p rfl], h⟩
  | write p d | writeAt p off d | unlink p =>
    simp only [Call.exec, h p rfl]
    split <;> exact ⟨rfl, fun q hq => by simp [h q hq]⟩
  | rmdir p =>
    simp only [Call.exec, h p (List.prefix_refl _), hasBelow_congr h]
    split_ifs <;> exact ⟨rfl, fun q hq => by simp [h q hq]⟩
  | rename src dst =>
    have hs := h src (.inl (List.prefix_refl _))
    have hd := h dst (.inr (.inl (List.prefix_refl _)))
    have hp := h dst.dropLast (.inr (.inr rfl))
    have hb := hasBelow_congr fun q hq => h q (.inr (.inl hq))
    simp only [Call.exec, FS.isDir, hs, hd, hp, hb]
    split_ifs with hc
    · refine ⟨rfl, fun q hq => ?_⟩
      rw [get_move _ hc.2.1 hc.2.2.1, get_move _ hc.2.1 hc.2.2.1]
      split_ifs with h₁ h₂
      · exact h _ (.inl (List.prefix_append _ _))
      · rfl
      · exact h q hq
    · exact ⟨rfl, h⟩
  | fdopen p | sync => exact ⟨rfl, h⟩

/-- Two file systems that agree on a set of paths holding all a call sees, under two
environments that treat the call alike: the call gives the same reply on both, and leaves
them agreeing on the set. -/
theorem step_agree {S : Path → Prop} {c : Call} (hc : ∀ q, c.sees q → S q) {env₁ env₂ : Env}
    (he : env₁ c = env₂ c) {fs₁ fs₂ : FS} (h : ∀ q, S q → fs₁.get q = fs₂.get q) :
    (c.step env₁ fs₁).1 = (c.step env₂ fs₂).1 ∧
      ∀ q, S q → (c.step env₁ fs₁).2.get q = (c.step env₂ fs₂).2.get q := by
  have hx := exec_congr fun q hq => h q (hc q hq)
  unfold Call.step
  rw [he]
  split
  · exact ⟨rfl, h⟩
  refine ⟨hx.1, fun q hq => ?_⟩
  by_cases hs : c.sees q
  · exact hx.2 q hs
  have ht : ¬ c.touches q := fun ht => hs (Call.sees_of_touches ht)
  have e₁ := get_step_of_not_touches ht Env.none fs₁
  have e₂ := get_step_of_not_touches ht Env.none fs₂
  simp only [Call.step, Env.none, Bool.false_and, Bool.false_eq_true, if_false] at e₁ e₂
  rw [e₁, e₂, h q hq]

/-! ## Interleavings -/

variable {α β : Type}

/-- Two programs on one file system, one call at a time: `sched` says whose call comes next
(`true`: the first program's). A turn of a program that has returned passes, and once
`sched` is spent the first program runs to its end, then the second. -/
def runBoth (env : Env) : List Bool → Prog α → Prog β → FS → (α × β) × FS
  | [], p, q, fs => (((p.run env fs).1, (q.run env (p.run env fs).2).1),
      (q.run env (p.run env fs).2).2)
  | true :: s, call c k, q, fs => runBoth env s (k (c.step env fs).1) q (c.step env fs).2
  | false :: s, p, call c k, fs => runBoth env s p (k (c.step env fs).1) (c.step env fs).2
  | _ :: s, p, q, fs => runBoth env s p q fs

/-- The environment of a lone run in a race: no call fails, but for the process's own
publishing `rename` when `b` holds. -/
def failRename (t dst : Path) (b : Bool) : Env := fun c => b && decide (c = .rename t dst)

/-- With its flag off, the failing environment fails nothing. -/
theorem failRename_false (t dst : Path) : failRename t dst false = Env.none := rfl

/-- Every call of `p`, on every branch, sees only paths at or below `d`. -/
def SeesBelow (d : Path) : Prog α → Prop
  | ret _ => True
  | call c k => (∀ q, c.sees q → d <+: q) ∧ ∀ r, SeesBelow d (k r)

/-- A call that builds the staging directory `t`: it sees only `t`, what is below it and its
parent, and changes only what is at or below `t`. -/
def Call.Stages (t : Path) (c : Call) : Prop :=
  (∀ q, c.sees q → t <+: q ∨ q = t.dropLast) ∧ ∀ q, c.touches q → t <+: q

/-- The shape of a program that stages a directory `t` and publishes it as `dst`. Until it
publishes, a call sees only `t`, what is below it and its parent, and changes only what is at
or below `t`. It publishes with `rename t dst`, right away or after a `stat dst` that sends it
to its clean-up when `dst` is taken. After a successful `rename` it sees only `dst` and below,
and leaves `dst` and `dst ++ [x]` alone; after a failed one it sees only `t` and below. -/
inductive Publishes (t dst : Path) (x : String) : Prog α → Prop
  | ret (a : α) : Publishes t dst x (ret a)
  | stage {c : Call} {k : Reply → Prog α} (hc : c.Stages t) (hk : ∀ r, Publishes t dst x (k r)) :
      Publishes t dst x (call c k)
  | rename {k : Reply → Prog α}
      (hok : ∀ r, r.ok → SeesBelow dst (k r) ∧ (k r).Avoids dst ∧ (k r).Avoids (dst ++ [x]))
      (hfail : ∀ r, r.ok = false → SeesBelow t (k r)) :
      Publishes t dst x (call (.rename t dst) k)
  | publish {onOk onFail : Prog α}
      (hok : SeesBelow dst onOk ∧ onOk.Avoids dst ∧ onOk.Avoids (dst ++ [x]))
      (hfail : SeesBelow t onFail) :
      Publishes t dst x (call (.stat dst) fun r =>
        if r.ok then onFail else call (.rename t dst) fun r => if r.ok then onOk else onFail)

/-! ## Building the shape -/

section Shape

variable {t d dst : Path} {x : String} {c : Call} {e : α} {k : Prog α}

/-- A call on `d` or on an entry of `d` sees only paths at or below `d`. -/
theorem sees_below_of_file {f : String}
    (hs : ∀ q, c.sees q → q = d ++ [f] ∨ q = (d ++ [f]).dropLast) : ∀ q, c.sees q → d <+: q :=
  fun q hq => by
    rcases hs q hq with rfl | rfl
    · exact List.prefix_append _ _
    · rw [List.dropLast_concat]

theorem Call.Stages.of_file {f : String}
    (hs : ∀ q, c.sees q → q = t ++ [f] ∨ q = (t ++ [f]).dropLast)
    (ht : ∀ q, c.touches q → q = t ++ [f]) : c.Stages t :=
  ⟨fun q hq => .inl (sees_below_of_file hs q hq), fun q hq => ht q hq ▸ List.prefix_append _ _⟩

theorem stages_mkdir (t : Path) : (Call.mkdir t).Stages t := by
  refine ⟨?_, fun q hq => hq ▸ List.prefix_refl _⟩
  rintro q (rfl | rfl)
  exacts [.inl (List.prefix_refl _), .inr rfl]

theorem stages_openExcl (t : Path) (f : String) : (Call.openExcl (t ++ [f])).Stages t :=
  .of_file (fun _ => id) fun _ => id

theorem stages_openTrunc (t : Path) (f : String) : (Call.openTrunc (t ++ [f])).Stages t :=
  .of_file (fun _ => id) fun _ => id

theorem stages_write (t : Path) (f data : String) : (Call.write (t ++ [f]) data).Stages t :=
  .of_file (fun _ => .inl) fun _ => id

theorem stages_unlink (t : Path) (f : String) : (Call.unlink (t ++ [f])).Stages t :=
  .of_file (fun _ => .inl) fun _ => id

theorem stages_fdopen (t : Path) (f : String) : (Call.fdopen (t ++ [f])).Stages t :=
  ⟨nofun, nofun⟩

theorem publishes_check (hc : c.Stages t) (hk : Publishes t dst x k) :
    Publishes t dst x (check c e k) :=
  .stage hc fun r => by
    split
    exacts [hk, .ret e]

theorem publishes_seq (hc : c.Stages t) (hk : Publishes t dst x k) : Publishes t dst x (seq c k) :=
  .stage hc fun _ => hk

theorem publishes_fwrite {f data : String} {k : Bool → Prog α} (hk : ∀ b, Publishes t dst x (k b)) :
    Publishes t dst x (fwrite (t ++ [f]) data e k) := by
  have hflush : ∀ n, Publishes t dst x (if n < data.data.length then
      call (.write (t ++ [f]) ⟨data.data.drop n⟩) fun r => k r.ok else k true) := fun n => by
    split
    · exact .stage (stages_write t f _) fun r => hk r.ok
    · exact hk true
  unfold fwrite streamWrite
  dsimp only
  split
  · exact .ret e
  · split
    · exact hflush _
    · exact publishes_check (stages_write t f _) (hflush _)

theorem seesBelow_check (hc : ∀ q, c.sees q → d <+: q) (hk : SeesBelow d k) :
    SeesBelow d (check c e k) :=
  ⟨hc, fun r => by
    dsimp only
    split
    exacts [hk, trivial]⟩

theorem seesBelow_seq (hc : ∀ q, c.sees q → d <+: q) (hk : SeesBelow d k) :
    SeesBelow d (seq c k) :=
  ⟨hc, fun _ => hk⟩

theorem seesBelow_streamWrite {p : Path} {data : String} {k : Bool → Prog α} (hp : d <+: p)
    (hk : ∀ b, SeesBelow d (k b)) : SeesBelow d (streamWrite p data e k) := by
  have hw : ∀ s q, (Call.write p s).sees q → d <+: q := fun _ _ h => h ▸ hp
  have hflush : ∀ n, SeesBelow d (if n < data.data.length then
      call (.write p ⟨data.data.drop n⟩) fun r => k r.ok else k true) := fun n => by
    split
    exacts [⟨hw _, fun r => hk r.ok⟩, hk true]
  unfold streamWrite
  dsimp only
  split
  exacts [hflush _, seesBelow_check (hw _) (hflush _)]

theorem seesBelow_fwrite {p : Path} {data : String} {k : Bool → Prog α} (hp : d <+: p)
    (hk : ∀ b, SeesBelow d (k b)) : SeesBelow d (fwrite p data e k) := by
  unfold fwrite
  split
  exacts [trivial, seesBelow_streamWrite hp hk]

theorem seesBelow_bind {β : Type} {p : Prog α} {f : α → Prog β} (hp : SeesBelow d p)
    (hf : ∀ a, SeesBelow d (f a)) : SeesBelow d (p.bind f) := by
  induction p with
  | ret a => exact hf a
  | call c k ih => exact ⟨hp.1, fun r => ih r (hp.2 r)⟩

theorem avoids_bind {β : Type} {q : Path} {p : Prog α} {f : α → Prog β} (hp : p.Avoids q)
    (hf : ∀ a, (f a).Avoids q) : (p.bind f).Avoids q := by
  induction p with
  | ret a => exact hf a
  | call c k ih => exact ⟨hp.1, fun r => ih r (hp.2 r)⟩

/-- The clean-up of a staging directory: `unlink` of each named file, then `rmdir`. -/
theorem seesBelow_cleanup (a : α) (xs : List String) :
    SeesBelow t (xs.foldr (fun f k => seq (.unlink (t ++ [f])) k) (seq (.rmdir t) (ret a))) := by
  induction xs with
  | nil => exact seesBelow_seq (fun _ h => h) trivial
  | cons f xs ih => exact seesBelow_seq (fun _ h => h ▸ List.prefix_append _ _) ih

end Shape

/-! ## Facts about paths and calls used below -/

theorem not_prefix_of_apart {a b q : Path} (hab : ¬ a <+: b) (hba : ¬ b <+: a) (ha : a <+: q) :
    ¬ b <+: q := fun hb => (prefix_comparable ha hb).elim hab hba

theorem not_prefix_dropLast {a b : Path} (h : ¬ b <+: a) : ¬ b <+: a.dropLast :=
  fun hb => h (hb.trans (List.dropLast_prefix a))

/-- A successful `rename` moved a directory. -/
theorem get_src_of_rename_ok {env : Env} {fs : FS} {src dst : Path}
    (h : ((Call.rename src dst).step env fs).1.ok) : fs.get src = some .dir := by
  simp only [Call.step, Call.exec] at h
  split_ifs at h with h₁ h₂ <;> simp_all [Reply.ok]

/-- A `rename` onto a directory with something below it fails. -/
theorem rename_step_of_taken {env : Env} {fs : FS} {src dst : Path} {x : String}
    (hd : (fs.get dst).isSome) (hx : (fs.get (dst ++ [x])).isSome) :
    (Call.rename src dst).step env fs = (.status false, fs) := by
  have hb : fs.HasBelow dst := (hasBelow_iff fs dst).2 ⟨_, List.prefix_append _ _, by simp, hx⟩
  simp only [Call.step, Call.exec]
  split_ifs with h₁ h₂
  · rfl
  · rcases h₂.2.2.2.2.2 with h₃ | ⟨-, h₃⟩
    · simp [h₃] at hd
    · exact absurd hb h₃
  · rfl

/-- The reply of a call that a lone run's environment cannot fail. -/
theorem step_failRename {t dst : Path} {c : Call} (hc : c ≠ .rename t dst) (b : Bool) (fs : FS) :
    c.step (failRename t dst b) fs = c.step Env.none fs := by
  simp [Call.step, failRename, Env.none, hc]

/-- The failing environment fails its `rename`. -/
theorem step_failRename_self (t dst : Path) (fs : FS) :
    (Call.rename t dst).step (failRename t dst true) fs = (.status false, fs) := by
  simp [Call.step, failRename, Call.faultable]

/-! ## One process of a race -/

/-- Where a process of a race stands: before its `rename`, after a successful one, or after
it lost; `lost true` when its `rename` failed while `dst` was free, as it would have alone. -/
inductive Phase
  | pre
  | won
  | lost (free : Bool)

/-- The lone runs a phase stands for: either before the `rename`, the one with no failure
after a win, and after a loss the one whose `rename` fails (either, if it failed by itself). -/
def Phase.allows : Phase → Bool → Prop
  | .pre, _ => True
  | .won, b => b = false
  | .lost free, b => free = true ∨ b = true

/-- What a phase says of the remaining program `p`, the state `v` of the lone run and the real
state `r`. -/
def PhaseShape (t dst : Path) (x : String) : Phase → Prog α → FS → FS → Prop
  | .pre, p, v, _ => Publishes t dst x p ∧ ∀ q, dst <+: q → v.get q = none
  | .won, p, v, r => SeesBelow dst p ∧ p.Avoids dst ∧ p.Avoids (dst ++ [x]) ∧
      (v.get dst).isSome ∧ ∀ q, dst <+: q → r.get q = v.get q
  | .lost _, p, v, _ => SeesBelow t p ∧ ∀ q, dst <+: q → v.get q = none

/-- One process of a race, with staging directory `t`, against another with staging directory
`o`, both publishing as `dst`. The lone run of its program `p0` from `fs0` has reached the
state `v` with `p` left, the program the process has left in the real run, and the real state
`r` agrees with `v` away from `o` and `dst`. -/
structure Sim (t o dst : Path) (x : String) (p0 : Prog α) (fs0 : FS) (ph : Phase) (p : Prog α)
    (v r : FS) : Prop where
  agree : ∀ q, ¬ o <+: q → ¬ dst <+: q → r.get q = v.get q
  lone : ∀ b, ph.allows b → p0.run (failRename t dst b) fs0 = p.run (failRename t dst b) v
  shape : PhaseShape t dst x ph p v r

/-- Both processes of a race: nothing at `dst` until one of them has published, never two
wins, and a loss to a taken `dst` only after the other's win. -/
structure Race (tA tB dst : Path) (xA xB : String) (pA0 : Prog α) (pB0 : Prog β) (fs0 : FS)
    (phA phB : Phase) (pA : Prog α) (pB : Prog β) (vA vB r : FS) : Prop where
  simA : Sim tA tB dst xA pA0 fs0 phA pA vA r
  simB : Sim tB tA dst xB pB0 fs0 phB pB vB r
  free : phA ≠ .won → phB ≠ .won → ∀ q, dst <+: q → r.get q = none
  excl : ¬ (phA = .won ∧ phB = .won)
  lostA : phA = .lost false → phB = .won
  lostB : phB = .lost false → phA = .won

theorem Race.swap {tA tB dst : Path} {xA xB : String} {pA0 : Prog α} {pB0 : Prog β} {fs0 : FS}
    {phA phB : Phase} {pA : Prog α} {pB : Prog β} {vA vB r : FS}
    (hR : Race tA tB dst xA xB pA0 pB0 fs0 phA phB pA pB vA vB r) :
    Race tB tA dst xB xA pB0 pA0 fs0 phB phA pB pA vB vA r :=
  ⟨hR.simB, hR.simA, fun hb ha => hR.free ha hb, fun ⟨hb, ha⟩ => hR.excl ⟨ha, hb⟩, hR.lostB,
    hR.lostA⟩

/-- Two staging directories and a final name, none at or below another, the final name not
the root. -/
structure Apart (tA tB dst : Path) : Prop where
  ab : ¬ tA <+: tB
  ba : ¬ tB <+: tA
  ad : ¬ tA <+: dst
  da : ¬ dst <+: tA
  bd : ¬ tB <+: dst
  db : ¬ dst <+: tB
  ne : dst ≠ []

theorem Apart.swap {tA tB dst : Path} (h : Apart tA tB dst) : Apart tB tA dst :=
  ⟨h.ba, h.ab, h.bd, h.db, h.ad, h.da, h.ne⟩

/-- A `rename` answers with its status. -/
theorem step_rename_reply (env : Env) (fs : FS) (src dst : Path) :
    ((Call.rename src dst).step env fs).1 = .status ((Call.rename src dst).step env fs).1.ok := by
  simp only [Call.step, Call.exec]
  split_ifs <;> rfl

/-! ## A step of one process -/

section Steps

variable {t o dst : Path} {x : String} {p0 p : Prog α} {fs0 : FS} {ph : Phase} {v r : FS}

theorem Phase.allows_true {ph : Phase} (h : ph ≠ .won) : ph.allows true := by
  cases ph with
  | pre => trivial
  | won => exact absurd rfl h
  | lost f => exact .inr rfl

theorem Phase.allows_false {ph : Phase} (h : ph ≠ .lost false) : ph.allows false := by
  cases ph with
  | pre => trivial
  | won => rfl
  | lost f => cases f <;> simp_all [Phase.allows]

/-- The lone run of a process that is not ahead has nothing at `dst`. -/
theorem Sim.dst_none (hs : Sim t o dst x p0 fs0 ph p v r) (h : ph ≠ .won) :
    ∀ q, dst <+: q → v.get q = none := by
  cases ph with
  | pre => exact hs.shape.2
  | won => exact absurd rfl h
  | lost f => exact hs.shape.2

/-- A step of the other process that changes the real state only at or below its staging
directory or `dst`, and not at `dst` once this process has published. -/
theorem Sim.rely {r' : FS} (hs : Sim t o dst x p0 fs0 ph p v r)
    (hout : ∀ q, ¬ o <+: q → ¬ dst <+: q → r'.get q = r.get q)
    (hwon : ph = .won → ∀ q, dst <+: q → r'.get q = r.get q) :
    Sim t o dst x p0 fs0 ph p v r' := by
  refine ⟨fun q ho hd => (hout q ho hd).trans (hs.agree q ho hd), hs.lone, ?_⟩
  cases ph with
  | won =>
    obtain ⟨h₁, h₂, h₃, h₄, h₅⟩ := hs.shape
    exact ⟨h₁, h₂, h₃, h₄, fun q hq => (hwon rfl q hq).trans (h₅ q hq)⟩
  | pre | lost _ => exact hs.shape

/-- The same, for a call of the other process that touches only its staging directory and
`dst`, and not `dst` once this process has published. -/
theorem Sim.rely_call (hs : Sim t o dst x p0 fs0 ph p v r) {c : Call}
    (hc : ∀ q, c.touches q → o <+: q ∨ dst <+: q)
    (hwon : ph = .won → ∀ q, dst <+: q → ¬ c.touches q) :
    Sim t o dst x p0 fs0 ph p v (c.step Env.none r).2 :=
  hs.rely (fun q ho hd => get_step_of_not_touches (fun ht => (hc q ht).elim ho hd) _ _)
    fun hw q hq => get_step_of_not_touches (hwon hw q hq) _ _

/-- A process that has published leaves `dst` taken in the real state, when its lone run with
no failure ends with `dst ++ [x]` there. -/
theorem Sim.taken (hs : Sim t o dst x p0 fs0 .won p v r)
    (hx : ((p0.run (failRename t dst false) fs0).2.get dst).isSome →
      ((p0.run (failRename t dst false) fs0).2.get (dst ++ [x])).isSome) :
    (r.get dst).isSome ∧ (r.get (dst ++ [x])).isSome := by
  obtain ⟨-, hd, hdx, hv, hr⟩ := hs.shape
  have hrun := hs.lone false rfl
  have e₁ : (p0.run (failRename t dst false) fs0).2.get dst = v.get dst := by
    rw [hrun, run_get_of_avoids hd]
  have e₂ : (p0.run (failRename t dst false) fs0).2.get (dst ++ [x]) = v.get (dst ++ [x]) := by
    rw [hrun, run_get_of_avoids hdx]
  rw [hr dst (List.prefix_refl _), hr _ (List.prefix_append _ _)]
  exact ⟨hv, e₂ ▸ hx (e₁ ▸ hv)⟩

end Steps

section RaceSteps

variable {tA tB dst : Path} {xA xB : String} {pA0 : Prog α} {pB0 : Prog β} {fs0 : FS}
  {phB : Phase} {pB : Prog β} {vA vB r : FS} {c : Call} {k : Reply → Prog α}

/-- A staging call of the first process, in lockstep with its lone run. -/
theorem Race.step_stage (hR : Race tA tB dst xA xB pA0 pB0 fs0 .pre phB (call c k) pB vA vB r)
    (hap : Apart tA tB dst) (hc : c.Stages tA) (hk : ∀ r, Publishes tA dst xA (k r)) :
    Race tA tB dst xA xB pA0 pB0 fs0 .pre phB (k (c.step Env.none r).1) pB
      (c.step Env.none vA).2 vB (c.step Env.none r).2 := by
  have hout : ∀ q, c.sees q → ¬ tB <+: q ∧ ¬ dst <+: q := fun q hq => by
    rcases hc.1 q hq with hq | rfl
    · exact ⟨not_prefix_of_apart hap.ab hap.ba hq, not_prefix_of_apart hap.ad hap.da hq⟩
    · exact ⟨not_prefix_dropLast hap.ba, not_prefix_dropLast hap.da⟩
  have hne : c ≠ .rename tA dst := by
    rintro rfl
    exact (hout dst (.inr (.inl (List.prefix_refl _)))).2 (List.prefix_refl _)
  have hdst : ∀ q, dst <+: q → ¬ c.touches q := fun q hq hq' =>
    not_prefix_of_apart hap.ad hap.da (hc.2 q hq') hq
  obtain ⟨hrep, hag⟩ := step_agree hout (rfl : Env.none c = Env.none c)
    fun q hq => hR.simA.agree q hq.1 hq.2
  refine ⟨⟨fun q hb hd => hag q ⟨hb, hd⟩, fun b _ => ?_, hk _,
    fun q hq => (get_step_of_not_touches (hdst q hq) _ _).trans (hR.simA.shape.2 q hq)⟩,
    hR.simB.rely_call (fun q hq => .inl (hc.2 q hq)) fun _ q hq => hdst q hq,
    fun _ hb q hq => (get_step_of_not_touches (hdst q hq) _ _).trans (hR.free nofun hb q hq),
    hR.excl, hR.lostA, hR.lostB⟩
  rw [hR.simA.lone b trivial, run_call, step_failRename hne, hrep]

/-- The first process's `rename` onto a `dst` the second has taken fails. -/
theorem Race.step_rename_taken
    (hR : Race tA tB dst xA xB pA0 pB0 fs0 .pre .won (call (.rename tA dst) k) pB vA vB r)
    (hxB : ((pB0.run (failRename tB dst false) fs0).2.get dst).isSome →
      ((pB0.run (failRename tB dst false) fs0).2.get (dst ++ [xB])).isSome)
    (hfail : ∀ r, r.ok = false → SeesBelow tA (k r)) :
    Race tA tB dst xA xB pA0 pB0 fs0 (.lost false) .won
      (k ((Call.rename tA dst).step Env.none r).1) pB vA vB ((Call.rename tA dst).step Env.none r).2 := by
  obtain ⟨hd, hx⟩ := hR.simB.taken hxB
  rw [rename_step_of_taken hd hx]
  refine ⟨⟨hR.simA.agree, fun b hb => ?_, ⟨hfail _ rfl, hR.simA.shape.2⟩⟩, hR.simB,
    fun _ h => absurd rfl h, (fun ⟨h, _⟩ => nomatch h), fun _ => rfl, nofun⟩
  obtain rfl : b = true := hb.resolve_left nofun
  rw [hR.simA.lone true trivial, run_call]
  simp [Call.step, failRename, Call.faultable]

/-- The first process's `rename` onto a free `dst`: it publishes, or fails as it would alone. -/
theorem Race.step_rename_free
    (hR : Race tA tB dst xA xB pA0 pB0 fs0 .pre phB (call (.rename tA dst) k) pB vA vB r)
    (hap : Apart tA tB dst) (hB : phB ≠ .won)
    (hok : ∀ r, r.ok → SeesBelow dst (k r) ∧ (k r).Avoids dst ∧ (k r).Avoids (dst ++ [xA]))
    (hfail : ∀ r, r.ok = false → SeesBelow tA (k r)) :
    ∃ phA' vA', Race tA tB dst xA xB pA0 pB0 fs0 phA' phB
      (k ((Call.rename tA dst).step Env.none r).1) pB vA' vB ((Call.rename tA dst).step Env.none r).2 := by
  have hsees : ∀ q, (Call.rename tA dst).sees q → ¬ tB <+: q := by
    rintro q (hq | hq | rfl)
    · exact not_prefix_of_apart hap.ab hap.ba hq
    · exact not_prefix_of_apart hap.db hap.bd hq
    · exact not_prefix_dropLast hap.bd
  have hagree : ∀ q, ¬ tB <+: q → r.get q = vA.get q := fun q hq => by
    by_cases hd : dst <+: q
    · rw [hR.free nofun hB q hd, hR.simA.shape.2 q hd]
    · exact hR.simA.agree q hq hd
  obtain ⟨hrep, hag⟩ := step_agree hsees
    (by rw [failRename_false] : Env.none (.rename tA dst) = failRename tA dst false (.rename tA dst))
    hagree
  have hB' := hR.simB.rely_call (c := .rename tA dst) (fun q hq => hq) fun h => absurd h hB
  by_cases hok' : ((Call.rename tA dst).step Env.none r).1.ok
  · have hv := step_rename_of_ok (hrep ▸ hok')
    refine ⟨.won, _, ⟨fun q hb _ => hag q hb, fun b hb => ?_, ?_⟩, hB', nofun,
      fun ⟨_, h⟩ => hB h, nofun, fun _ => rfl⟩
    · subst hb
      rw [hR.simA.lone false trivial, run_call, hrep]
    · obtain ⟨h₁, h₂, h₃⟩ := hok _ hok'
      refine ⟨h₁, h₂, h₃, ?_, fun q hq => hag q (not_prefix_of_apart hap.db hap.bd hq)⟩
      rw [hv.2.2, get_move _ hv.1 hv.2.1, if_pos (List.prefix_refl _), List.drop_length,
        List.append_nil, get_src_of_rename_ok (hrep ▸ hok')]
      rfl
  · have hno : ((Call.rename tA dst).step Env.none r).1 = .status false := by
      rw [step_rename_reply]
      simpa using hok'
    have hvA : ∀ b, (Call.rename tA dst).step (failRename tA dst b) vA = (.status false, vA) := by
      rintro (_ | _)
      · rw [failRename_false] at hrep ⊢
        have h₁ : ((Call.rename tA dst).step Env.none vA).1 = .status false := hrep ▸ hno
        exact Prod.ext h₁ (step_snd_of_not_ok (by rw [h₁]; rfl))
      · simp [Call.step, failRename, Call.faultable]
    rw [hno, step_snd_of_not_ok (by simpa using hok')]
    refine ⟨.lost true, vA, ⟨hR.simA.agree, fun b _ => ?_, ⟨hfail _ rfl, hR.simA.shape.2⟩⟩, hR.simB,
      fun _ _ => hR.free nofun hB, (fun ⟨h, _⟩ => nomatch h), nofun,
      fun h => absurd (hR.lostB h) nofun⟩
    rw [hR.simA.lone b trivial, run_call, hvA]

/-- The first process's `stat` of `dst` before its `rename`: on a taken `dst` it goes to its
clean-up, which its lone run reaches through a failed `rename`. -/
theorem Race.step_publish {onOk onFail : Prog α}
    (hR : Race tA tB dst xA xB pA0 pB0 fs0 .pre phB (call (.stat dst) fun r =>
      if r.ok then onFail else call (.rename tA dst) fun r => if r.ok then onOk else onFail)
      pB vA vB r)
    (hap : Apart tA tB dst)
    (hxB : ((pB0.run (failRename tB dst false) fs0).2.get dst).isSome →
      ((pB0.run (failRename tB dst false) fs0).2.get (dst ++ [xB])).isSome)
    (hok : SeesBelow dst onOk ∧ onOk.Avoids dst ∧ onOk.Avoids (dst ++ [xA]))
    (hfail : SeesBelow tA onFail) :
    ∃ phA' vA', Race tA tB dst xA xB pA0 pB0 fs0 phA' phB
      ((fun r => if r.ok then onFail else call (.rename tA dst) fun r => if r.ok then onOk else onFail)
        ((Call.stat dst).step Env.none r).1) pB vA' vB ((Call.stat dst).step Env.none r).2 := by
  have hv : vA.statSize dst = none :=
    (statSize_eq_none_iff hap.ne).2 (hR.simA.shape.2 dst (List.prefix_refl _))
  simp only [step_stat]
  by_cases hB : phB = .won
  · subst hB
    obtain ⟨hd, -⟩ := hR.simB.taken hxB
    have hr : (r.statSize dst).isSome :=
      Option.ne_none_iff_isSome.mp fun hs => by simp [(statSize_eq_none_iff hap.ne).1 hs] at hd
    rw [show (Reply.size (r.statSize dst)).ok = true from hr, if_pos rfl]
    refine ⟨.lost false, vA, ⟨hR.simA.agree, fun b hb => ?_, ⟨hfail, hR.simA.shape.2⟩⟩, hR.simB,
      fun _ h => absurd rfl h, (fun ⟨h, _⟩ => nomatch h), fun _ => rfl, nofun⟩
    obtain rfl : b = true := hb.resolve_left nofun
    rw [hR.simA.lone true trivial, run_call, step_stat, hv,
      show (Reply.size none).ok = false from rfl, if_neg Bool.false_ne_true, run_call,
      step_failRename_self]
    rfl
  · have hr : r.statSize dst = none :=
      (statSize_eq_none_iff hap.ne).2 (hR.free nofun hB dst (List.prefix_refl _))
    rw [hr, show (Reply.size none).ok = false from rfl, if_neg Bool.false_ne_true]
    refine ⟨.pre, vA, ⟨hR.simA.agree, fun b _ => ?_, ⟨.rename (fun r hr => by simpa [hr] using hok)
      (fun r hr => by simpa [hr] using hfail), hR.simA.shape.2⟩⟩, hR.simB, hR.free, hR.excl,
      hR.lostA, hR.lostB⟩
    rw [hR.simA.lone b trivial, run_call, step_stat, hv]
    rfl

/-- A call of the first process after it published, in lockstep with its lone run. -/
theorem Race.step_won (hR : Race tA tB dst xA xB pA0 pB0 fs0 .won phB (call c k) pB vA vB r)
    (hap : Apart tA tB dst) :
    Race tA tB dst xA xB pA0 pB0 fs0 .won phB (k (c.step Env.none r).1) pB (c.step Env.none vA).2
      vB (c.step Env.none r).2 := by
  obtain ⟨⟨hc, hk⟩, ⟨hnd, hd⟩, ⟨-, hx⟩, hv, hr⟩ := hR.simA.shape
  have hne : c ≠ .rename tA dst := by
    rintro rfl
    exact hap.da (hc tA (.inl (List.prefix_refl _)))
  have hS : ∀ q, ¬ tB <+: q → r.get q = vA.get q := fun q hq => by
    by_cases hq' : dst <+: q
    · exact hr q hq'
    · exact hR.simA.agree q hq hq'
  obtain ⟨hrep, hag⟩ := step_agree (fun q hq => not_prefix_of_apart hap.db hap.bd (hc q hq))
    (rfl : Env.none c = Env.none c) hS
  refine ⟨⟨fun q hb _ => hag q hb, fun b hb => ?_, ⟨hk _, hd _, hx _, ?_,
    fun q hq => hag q (not_prefix_of_apart hap.db hap.bd hq)⟩⟩,
    hR.simB.rely_call (fun q hq => .inr (hc q (Call.sees_of_touches hq)))
      (fun hw => absurd ⟨rfl, hw⟩ hR.excl),
    fun h => absurd rfl h, hR.excl, nofun, fun _ => rfl⟩
  · subst hb
    rw [hR.simA.lone false rfl, run_call, step_failRename hne, hrep]
  · rw [get_step_of_not_touches hnd]
    exact hv

/-- A call of the first process after it lost, in lockstep with its lone run. -/
theorem Race.step_lost {f : Bool}
    (hR : Race tA tB dst xA xB pA0 pB0 fs0 (.lost f) phB (call c k) pB vA vB r)
    (hap : Apart tA tB dst) :
    Race tA tB dst xA xB pA0 pB0 fs0 (.lost f) phB (k (c.step Env.none r).1) pB
      (c.step Env.none vA).2 vB (c.step Env.none r).2 := by
  obtain ⟨⟨hc, hk⟩, hnone⟩ := hR.simA.shape
  have hout : ∀ q, c.sees q → ¬ tB <+: q ∧ ¬ dst <+: q := fun q hq =>
    ⟨not_prefix_of_apart hap.ab hap.ba (hc q hq), not_prefix_of_apart hap.ad hap.da (hc q hq)⟩
  have hne : c ≠ .rename tA dst := by
    rintro rfl
    exact hap.ad (hc dst (.inr (.inl (List.prefix_refl _))))
  have hdst : ∀ q, dst <+: q → ¬ c.touches q := fun q hq ht =>
    (hout q (Call.sees_of_touches ht)).2 hq
  obtain ⟨hrep, hag⟩ := step_agree hout (rfl : Env.none c = Env.none c)
    fun q hq => hR.simA.agree q hq.1 hq.2
  refine ⟨⟨fun q hb hd => hag q ⟨hb, hd⟩, fun b hb => ?_, ⟨hk _,
    fun q hq => (get_step_of_not_touches (hdst q hq) _ _).trans (hnone q hq)⟩⟩,
    hR.simB.rely_call (fun q hq => .inl (hc q (Call.sees_of_touches hq))) (fun _ q hq => hdst q hq),
    fun _ hb q hq => (get_step_of_not_touches (hdst q hq) _ _).trans (hR.free nofun hb q hq),
    (fun ⟨h, _⟩ => nomatch h), hR.lostA, hR.lostB⟩
  rw [hR.simA.lone b hb, run_call, step_failRename hne, hrep]

variable {phA : Phase} {pA : Prog α}

/-- Any call of the first process keeps the race invariant. -/
theorem Race.stepA (hR : Race tA tB dst xA xB pA0 pB0 fs0 phA phB (call c k) pB vA vB r)
    (hap : Apart tA tB dst)
    (hxB : ((pB0.run (failRename tB dst false) fs0).2.get dst).isSome →
      ((pB0.run (failRename tB dst false) fs0).2.get (dst ++ [xB])).isSome) :
    ∃ phA' vA', Race tA tB dst xA xB pA0 pB0 fs0 phA' phB (k (c.step Env.none r).1) pB vA' vB
      (c.step Env.none r).2 := by
  cases phA with
  | pre =>
    have hP : Publishes tA dst xA (call c k) := hR.simA.shape.1
    cases hP with
    | stage hc hk => exact ⟨_, _, hR.step_stage hap hc hk⟩
    | rename hok hfail =>
      by_cases hB : phB = .won
      · subst hB
        exact ⟨_, _, hR.step_rename_taken hxB hfail⟩
      · exact hR.step_rename_free hap hB hok hfail
    | publish hok hfail => exact hR.step_publish hap hxB hok hfail
  | won => exact ⟨_, _, hR.step_won hap⟩
  | lost f => exact ⟨_, _, hR.step_lost hap⟩

/-- The same for a call of the second process. -/
theorem Race.stepB {pA : Prog α} {kB : Reply → Prog β}
    (hR : Race tA tB dst xA xB pA0 pB0 fs0 phA phB pA (call c kB) vA vB r)
    (hap : Apart tA tB dst)
    (hxA : ((pA0.run (failRename tA dst false) fs0).2.get dst).isSome →
      ((pA0.run (failRename tA dst false) fs0).2.get (dst ++ [xA])).isSome) :
    ∃ phB' vB', Race tA tB dst xA xB pA0 pB0 fs0 phA phB' pA (kB (c.step Env.none r).1) vA vB'
      (c.step Env.none r).2 :=
  let ⟨_, _, h⟩ := hR.swap.stepA hap.swap hxA
  ⟨_, _, h.swap⟩

end RaceSteps

/-! ## Whole interleavings -/

section RaceRuns

variable {tA tB dst : Path} {xA xB : String} {pA0 : Prog α} {pB0 : Prog β} {fs0 : FS}
  (hap : Apart tA tB dst)
  (hxA : ((pA0.run (failRename tA dst false) fs0).2.get dst).isSome →
    ((pA0.run (failRename tA dst false) fs0).2.get (dst ++ [xA])).isSome)
  (hxB : ((pB0.run (failRename tB dst false) fs0).2.get dst).isSome →
    ((pB0.run (failRename tB dst false) fs0).2.get (dst ++ [xB])).isSome)

include hap hxB in
/-- The first process running to its end keeps the race invariant. -/
theorem Race.runA {phB : Phase} {pB : Prog β} {vB : FS} :
    ∀ {phA : Phase} {pA : Prog α} {vA r : FS}, Race tA tB dst xA xB pA0 pB0 fs0 phA phB pA pB vA vB r →
      ∃ phA' vA', Race tA tB dst xA xB pA0 pB0 fs0 phA' phB (ret (pA.run Env.none r).1) pB vA' vB
        (pA.run Env.none r).2
  | _, ret _, _, _, hR => ⟨_, _, hR⟩
  | _, call _ _, _, _, hR =>
    let ⟨_, _, h⟩ := hR.stepA hap hxB
    by rw [run_call]; exact Race.runA h

include hap hxA hxB in
/-- Every interleaving keeps the race invariant, and ends with both processes returned. -/
theorem Race.runBoth : ∀ (s : List Bool) {phA phB : Phase} {pA : Prog α} {pB : Prog β}
    {vA vB r : FS}, Race tA tB dst xA xB pA0 pB0 fs0 phA phB pA pB vA vB r →
    ∃ phA' phB' vA' vB', Race tA tB dst xA xB pA0 pB0 fs0 phA' phB'
      (ret (runBoth Env.none s pA pB r).1.1) (ret (runBoth Env.none s pA pB r).1.2) vA' vB'
      (runBoth Env.none s pA pB r).2
  | [], _, _, _, _, _, _, _, hR =>
    let ⟨_, _, hA⟩ := hR.runA hap hxB
    let ⟨_, _, hB⟩ := hA.swap.runA hap.swap hxA
    ⟨_, _, _, _, hB.swap⟩
  | true :: s, _, _, call _ _, _, _, _, _, hR =>
    let ⟨_, _, h⟩ := hR.stepA hap hxB
    Race.runBoth s h
  | true :: s, _, _, ret _, _, _, _, _, hR => Race.runBoth s hR
  | false :: s, _, _, _, call _ _, _, _, _, hR =>
    let ⟨_, _, h⟩ := hR.stepB hap hxA
    Race.runBoth s h
  | false :: s, _, _, ret _, ret _, _, _, _, hR => Race.runBoth s hR
  | false :: s, _, _, call _ _, ret _, _, _, _, hR => Race.runBoth s hR

/-- How an interleaving of two publishing processes may end, as the pair of their results and
the final state `res`, with `vA` and `vB` the final states of their lone runs: the real state is
the first's away from the second's staging directory and `dst`, and the second's away from the
first's; at `dst`, one published, alone and with no failure, while the other's `rename` failed,
or neither published. -/
def RaceEnds (tA tB dst : Path) (pA0 : Prog α) (pB0 : Prog β) (fs0 : FS) (res : (α × β) × FS) :
    Prop :=
  ∃ vA vB, (∀ q, ¬ tB <+: q → ¬ dst <+: q → res.2.get q = vA.get q) ∧
    (∀ q, ¬ tA <+: q → ¬ dst <+: q → res.2.get q = vB.get q) ∧
    ((pA0.run (failRename tA dst false) fs0 = (res.1.1, vA) ∧
        pB0.run (failRename tB dst true) fs0 = (res.1.2, vB) ∧
        ∀ q, dst <+: q → res.2.get q = vA.get q) ∨
      (pA0.run (failRename tA dst true) fs0 = (res.1.1, vA) ∧
        pB0.run (failRename tB dst false) fs0 = (res.1.2, vB) ∧
        ∀ q, dst <+: q → res.2.get q = vB.get q) ∨
      (pA0.run (failRename tA dst false) fs0 = (res.1.1, vA) ∧
        pB0.run (failRename tB dst false) fs0 = (res.1.2, vB) ∧
        ∀ q, dst <+: q → res.2.get q = none ∧ vA.get q = none ∧ vB.get q = none))

/-- Once both processes have returned, the invariant says how the race ended. -/
theorem Race.finish {phA phB : Phase} {a : α} {b : β} {vA vB r : FS}
    (hR : Race tA tB dst xA xB pA0 pB0 fs0 phA phB (ret a) (ret b) vA vB r) :
    RaceEnds tA tB dst pA0 pB0 fs0 ((a, b), r) := by
  refine ⟨vA, vB, hR.simA.agree, hR.simB.agree, ?_⟩
  by_cases hA : phA = .won
  · subst hA
    have hB : phB ≠ .won := fun h => hR.excl ⟨rfl, h⟩
    exact .inl ⟨hR.simA.lone false rfl, hR.simB.lone true (Phase.allows_true hB),
      hR.simA.shape.2.2.2.2⟩
  by_cases hB : phB = .won
  · subst hB
    exact .inr (.inl ⟨hR.simA.lone true (Phase.allows_true hA), hR.simB.lone false rfl,
      hR.simB.shape.2.2.2.2⟩)
  · exact .inr (.inr ⟨hR.simA.lone false (Phase.allows_false fun h => hB (hR.lostA h)),
      hR.simB.lone false (Phase.allows_false fun h => hA (hR.lostB h)),
      fun q hq => ⟨hR.free hA hB q hq, hR.simA.dst_none hA q hq, hR.simB.dst_none hB q hq⟩⟩)

include hap hxA hxB in
/-- Two processes that publish under staging directories apart from each other and from a free
`dst`, in any interleaving with no failing call, end as `RaceEnds` says. -/
theorem runBoth_race (hPA : Publishes tA dst xA pA0) (hPB : Publishes tB dst xB pB0)
    (hfree : ∀ q, dst <+: q → fs0.get q = none) (s : List Bool) :
    RaceEnds tA tB dst pA0 pB0 fs0 (runBoth Env.none s pA0 pB0 fs0) :=
  let ⟨_, _, _, _, h⟩ := Race.runBoth hap hxA hxB s
    (⟨⟨fun _ _ _ => rfl, fun _ _ => rfl, hPA, hfree⟩, ⟨fun _ _ _ => rfl, fun _ _ => rfl, hPB, hfree⟩,
      fun _ _ => hfree, (fun ⟨h, _⟩ => nomatch h), nofun, nofun⟩ :
      Race tA tB dst xA xB pA0 pB0 fs0 .pre .pre pA0 pB0 fs0 fs0 fs0)
  h.finish

end RaceRuns

/-! ## Reading the end of a race -/

section Ends

variable {t tA tB dst : Path} {x : String} {env : Env} {fs : FS}

theorem failRename_writesOk (t dst : Path) (b : Bool) : (failRename t dst b).WritesOk :=
  fun _ _ => by simp [failRename]

theorem failRename_removesOk (t dst : Path) (b : Bool) : (failRename t dst b).RemovesOk :=
  fun _ => by simp [failRename]

theorem failRename_staging (t dst : Path) (b : Bool) (p : Path) :
    failRename t dst b (.mkdir p) = false ∧ failRename t dst b (.openExcl p) = false := by
  simp [failRename]

theorem failRename_rename (t dst : Path) (b : Bool) : failRename t dst b (.rename t dst) = b := by
  simp [failRename]

theorem SeesBelow.avoids {d q : Path} {p : Prog α} (h : SeesBelow d p) (hq : ¬ d <+: q) :
    p.Avoids q := by
  induction p with
  | ret _ => trivial
  | call c k ih => exact ⟨fun ht => hq (h.1 q (Call.sees_of_touches ht)), fun r => ih r (h.2 r)⟩

/-- A program of the publishing shape changes nothing outside its staging directory and
`dst`. -/
theorem Publishes.avoids {p : Prog α} (h : Publishes t dst x p) {q : Path} (ht : ¬ t <+: q)
    (hd : ¬ dst <+: q) : p.Avoids q := by
  induction h with
  | ret => trivial
  | stage hc _ ih => exact ⟨fun h' => ht (hc.2 q h'), ih⟩
  | rename hok hfail =>
    refine ⟨fun h' => h'.elim ht hd, fun r => ?_⟩
    cases hr : r.ok
    · exact (hfail r hr).avoids ht
    · exact (hok r hr).1.avoids hd
  | publish hok hfail =>
    refine ⟨nofun, fun r => ?_⟩
    dsimp only
    split
    · exact hfail.avoids ht
    · refine ⟨fun h' => h'.elim ht hd, fun r => ?_⟩
      dsimp only
      split
      · exact hok.1.avoids hd
      · exact hfail.avoids ht

/-- A program of the publishing shape that starts with its `rename`: when the `rename`
succeeds, the rest leaves `dst` and `dst ++ [x]` as the `rename` left them. -/
theorem Publishes.run_of_rename_ok {k : Reply → Prog α}
    (hP : Publishes t dst x (call (.rename t dst) k)) (htd : ¬ t <+: dst)
    (hok : ((Call.rename t dst).step env fs).1.ok) :
    ((call (.rename t dst) k).run env fs).2.get dst = ((Call.rename t dst).step env fs).2.get dst ∧
      ((call (.rename t dst) k).run env fs).2.get (dst ++ [x]) =
        ((Call.rename t dst).step env fs).2.get (dst ++ [x]) := by
  cases hP with
  | stage hc _ => exact absurd (hc.2 dst (.inr (List.prefix_refl _))) htd
  | rename hok' _ =>
    obtain ⟨-, h₁, h₂⟩ := hok' _ hok
    exact ⟨run_get_of_avoids h₁ _ _, run_get_of_avoids h₂ _ _⟩

/-- The end of a race that `tW` won and `tL` lost: when the loser's lone run leaves every path
as it was, and the winner's changes nothing outside its staging directory and `dst`, the real
state is the winner's lone state everywhere. -/
theorem get_of_won {tW tL : Path} {r vW vL : FS} (hab : ¬ tW <+: tL) (hba : ¬ tL <+: tW)
    (hW : ∀ q, ¬ tW <+: q → ¬ dst <+: q → vW.get q = fs.get q) (hL : ∀ q, vL.get q = fs.get q)
    (hagW : ∀ q, ¬ tL <+: q → ¬ dst <+: q → r.get q = vW.get q)
    (hagL : ∀ q, ¬ tW <+: q → ¬ dst <+: q → r.get q = vL.get q)
    (hd : ∀ q, dst <+: q → r.get q = vW.get q) (q : Path) : r.get q = vW.get q := by
  by_cases hq : dst <+: q
  · exact hd q hq
  by_cases hqL : tL <+: q
  · have hqW := not_prefix_of_apart hba hab hqL
    rw [hagL q hqW hq, hL, hW q hqW hq]
  · exact hagW q hqL hq

/-- What a race asks of a call that creates `dst` through the staging directory `t`, started in
`fs`: it has the publishing shape for some file `x`; alone and with no failing call it leaves
`dst` holding `x`; and alone with only its `rename` failing it returns `err` and leaves every
path as it was. -/
def Creates (t dst : Path) (err : α) (fs : FS) (p : Prog α) : Prop :=
  ∃ x, Publishes t dst x p ∧ ((p.run Env.none fs).2.get dst).isSome ∧
    ((p.run Env.none fs).2.get (dst ++ [x])).isSome ∧ (p.run (failRename t dst true) fs).1 = err ∧
    ∀ q, (p.run (failRename t dst true) fs).2.get q = fs.get q

/-- How a race of two creating calls should end: one of them as it would have ended alone, with
the same result and the same file system, while the other returned its error. -/
def EndsAsAlone {β : Type} (pA : Prog α) (pB : Prog β) (errA : α) (errB : β) (fs : FS)
    (res : (α × β) × FS) : Prop :=
  (res.1 = ((pA.run Env.none fs).1, errB) ∧ ∀ q, res.2.get q = (pA.run Env.none fs).2.get q) ∨
    (res.1 = (errA, (pB.run Env.none fs).1) ∧ ∀ q, res.2.get q = (pB.run Env.none fs).2.get q)

/-- Two creating calls with staging directories apart from each other and from a free `dst`:
every interleaving in which no call fails ends as one of them alone, the other returning its
error. -/
theorem Creates.race {β : Type} {pA : Prog α} {pB : Prog β} {errA : α} {errB : β}
    (hA : Creates tA dst errA fs pA) (hB : Creates tB dst errB fs pB) (hap : Apart tA tB dst)
    (hfree : ∀ q, dst <+: q → fs.get q = none) (s : List Bool) :
    EndsAsAlone pA pB errA errB fs (runBoth Env.none s pA pB fs) := by
  obtain ⟨xA, hPA, hdA, hxA, heA, hlA⟩ := hA
  obtain ⟨xB, hPB, hdB, hxB, heB, hlB⟩ := hB
  obtain ⟨vA, vB, hagA, hagB, h⟩ := runBoth_race hap (fun _ => hxA) (fun _ => hxB) hPA hPB hfree s
  have hWA : ∀ q, ¬ tA <+: q → ¬ dst <+: q → (pA.run Env.none fs).2.get q = fs.get q :=
    fun q h₁ h₂ => run_get_of_avoids (hPA.avoids h₁ h₂) _ _
  have hWB : ∀ q, ¬ tB <+: q → ¬ dst <+: q → (pB.run Env.none fs).2.get q = fs.get q :=
    fun q h₁ h₂ => run_get_of_avoids (hPB.avoids h₁ h₂) _ _
  rcases h with ⟨h₁, h₂, hd⟩ | ⟨h₁, h₂, hd⟩ | ⟨h₁, -, hn⟩
  · have e₁ : pA.run Env.none fs = ((runBoth Env.none s pA pB fs).1.1, vA) := h₁
    have hvA : (pA.run Env.none fs).2 = vA := congrArg Prod.snd e₁
    have hvB : (pB.run (failRename tB dst true) fs).2 = vB := congrArg Prod.snd h₂
    refine .inl ⟨Prod.ext (by rw [e₁]) (by rw [← heB, h₂]), fun q => ?_⟩
    rw [hvA]
    exact get_of_won hap.ab hap.ba (fun q h₁ h₂ => hvA ▸ hWA q h₁ h₂) (fun q => hvB ▸ hlB q)
      hagA hagB hd q
  · have e₂ : pB.run Env.none fs = ((runBoth Env.none s pA pB fs).1.2, vB) := h₂
    have hvB : (pB.run Env.none fs).2 = vB := congrArg Prod.snd e₂
    have hvA : (pA.run (failRename tA dst true) fs).2 = vA := congrArg Prod.snd h₁
    refine .inr ⟨Prod.ext (by rw [← heA, h₁]) (by rw [e₂]), fun q => ?_⟩
    rw [hvB]
    exact get_of_won hap.ba hap.ab (fun q h₁ h₂ => hvB ▸ hWB q h₁ h₂) (fun q => hvA ▸ hlA q)
      hagB hagA hd q
  · have e₁ : pA.run Env.none fs = ((runBoth Env.none s pA pB fs).1.1, vA) := h₁
    rw [e₁, (hn dst (List.prefix_refl _)).2.1] at hdA
    cases hdA

end Ends

end OpmsgKeystore