import OpmsgKeystore.FileSystem

/-!
# The file system is a tree

`FS` is a list of entries, and its type does not say that the directories above an entry
exist. `FS.Tree` says it, and that the root has no entry of its own. Every system call keeps
it (`exec_tree`), so a run from a tree ends in a tree (`run_tree`).

In a tree nothing lies below a missing path (`Tree.get_append_eq_none`): the staging
directory `mkdir` has just made is empty (`Tree.dirHolds_set`), which the round trip of
`add_persona` rests on. `DirHolds fs d files` names the entries of one directory, and follows
it through the writes into it (`DirHolds.set`) and the `rename` that publishes it
(`DirHolds.move`).
-/

namespace OpmsgKeystore

/-- A path strictly above `q` is a prefix of its parent. -/
theorem prefix_dropLast_of_ne {r q : Path} (h : r <+: q) (hne : r ≠ q) : r <+: q.dropLast :=
  List.prefix_of_prefix_length_le h (List.dropLast_prefix q) (by
    have hle := h.length_le
    have hlen : r.length ≠ q.length := fun e => hne (h.eq_of_length e)
    rw [List.length_dropLast]
    omega)

namespace FS

/-- The root has no entry, and every path above an entry is a directory. -/
def Tree (fs : FS) : Prop :=
  fs.get [] = none ∧ ∀ q r, (fs.get q).isSome → r <+: q → r ≠ q → fs.isDir r

variable {fs : FS}

theorem Tree.isDir_of_prefix (h : fs.Tree) {q r : Path} (hq : fs.isDir q) (hr : r <+: q) :
    fs.isDir r := by
  by_cases hrq : r = q
  · exact hrq ▸ hq
  rcases hq with rfl | hq
  · exact .inl (List.prefix_nil.mp hr)
  · exact h.2 q r (by simp [hq]) hr hrq

theorem Tree.ne_nil (h : fs.Tree) {p : Path} (hs : (fs.get p).isSome) : p ≠ [] := by
  rintro rfl
  simp [h.1] at hs

theorem Tree.isDir_dropLast (h : fs.Tree) {p : Path} (hs : (fs.get p).isSome) :
    fs.isDir p.dropLast :=
  h.2 p _ hs (List.dropLast_prefix p) fun e => by
    have hl := congrArg List.length e
    rw [List.length_dropLast] at hl
    have := List.length_pos.mpr (h.ne_nil hs)
    omega

/-- Nothing lies below a path that is not a directory. -/
theorem Tree.not_hasBelow (h : fs.Tree) {p : Path} (hp : p ≠ []) (hn : fs.get p ≠ some .dir) :
    ¬ fs.HasBelow p := by
  rw [hasBelow_iff]
  rintro ⟨q, hpq, hne, hq⟩
  rcases h.2 q p hq hpq hne.symm with hp' | hp'
  · exact hp hp'
  · exact hn hp'

theorem Tree.get_append_eq_none (h : fs.Tree) {p : Path} (hp : p ≠ []) (hn : fs.get p = none)
    (x : String) : fs.get (p ++ [x]) = none := by
  by_contra hx
  refine h.not_hasBelow hp (by simp [hn]) ((hasBelow_iff fs p).mpr ⟨p ++ [x], List.prefix_append _ _,
    by simp, Option.ne_none_iff_isSome.mp hx⟩)

/-! ## Every update keeps the tree -/

theorem Tree.set (h : fs.Tree) {p : Path} (hp : p ≠ []) (hd : fs.isDir p.dropLast)
    (hb : ¬ fs.HasBelow p) (n : Node) : (fs.set p n).Tree := by
  refine ⟨by simp [h.1, Ne.symm hp], fun q r hq hrq hne => ?_⟩
  have hrp : r ≠ p := by
    rintro rfl
    by_cases hqr : q = r
    · exact hne hqr.symm
    · simp only [get_set, hqr, if_false] at hq
      exact hb ((hasBelow_iff fs r).mpr ⟨q, hrq, hqr, hq⟩)
  have hdir : fs.isDir r := by
    by_cases hqp : q = p
    · subst hqp
      exact h.isDir_of_prefix hd (prefix_dropLast_of_ne hrq hne)
    · simp only [get_set, hqp, if_false] at hq
      exact h.2 q r hq hrq hne
  rcases hdir with hr | hr
  · exact .inl hr
  · exact .inr (by simp [hrp, hr])

theorem Tree.set_file (h : fs.Tree) {p : Path} {c : String} (hf : fs.get p = some (.file c))
    (n : Node) : (fs.set p n).Tree :=
  have hs : (fs.get p).isSome := by simp [hf]
  h.set (h.ne_nil hs) (h.isDir_dropLast hs) (h.not_hasBelow (h.ne_nil hs) (by simp [hf])) n

theorem Tree.remove (h : fs.Tree) {p : Path} (hb : ¬ fs.HasBelow p) : (fs.remove p).Tree := by
  refine ⟨by simp [h.1], fun q r hq hrq hne => ?_⟩
  simp only [get_remove] at hq
  split at hq
  · simp at hq
  rename_i hqp
  have hrp : r ≠ p := by
    rintro rfl
    exact hb ((hasBelow_iff fs r).mpr ⟨q, hrq, hqp, hq⟩)
  rcases h.2 q r hq hrq hne with hr | hr
  · exact .inl hr
  · exact .inr (by simp [hrp, hr])

theorem Tree.move (h : fs.Tree) {src dst : Path} (hs : fs.get src = some .dir)
    (hsd : ¬ src <+: dst) (hds : ¬ dst <+: src) (hd0 : dst ≠ []) (hd : fs.isDir dst.dropLast) :
    (fs.move src dst).Tree := by
  have hs0 : src ≠ [] := h.ne_nil (by simp [hs])
  have hsnil : ¬ src <+: [] := by simpa using hs0
  refine ⟨by simp [get_move fs hsd hds, hd0, hsnil, h.1], fun q r hq hrq hne => ?_⟩
  unfold isDir
  rw [get_move fs hsd hds] at hq ⊢
  by_cases hdq : dst <+: q
  · simp only [hdq, if_true] at hq
    by_cases hdr : dst <+: r
    · obtain ⟨t, rfl⟩ := hdr
      obtain ⟨u, rfl⟩ := hdq
      simp only [List.drop_left] at hq
      have htu : t <+: u := (List.prefix_append_right_inj dst).mp hrq
      rcases h.2 _ (src ++ t) hq ((List.prefix_append_right_inj src).mpr htu)
        fun e => hne (congrArg (dst ++ ·) (List.append_cancel_left e)) with hr | hr
      · exact absurd (List.append_eq_nil.mp hr).1 hs0
      · exact .inr (by simp [hr])
    · have hrd : r <+: dst := (prefix_comparable hrq hdq).resolve_right hdr
      have hsr : ¬ src <+: r := fun e => hsd (e.trans hrd)
      rcases h.isDir_of_prefix hd (prefix_dropLast_of_ne hrd fun e => hdr (e ▸ List.prefix_refl _))
        with hr | hr
      · exact .inl hr
      · exact .inr (by simp [hdr, hsr, hr])
  · by_cases hsq : src <+: q
    · simp [hdq, hsq] at hq
    simp only [hdq, hsq, if_false] at hq
    have hdr : ¬ dst <+: r := fun e => hdq (e.trans hrq)
    have hsr : ¬ src <+: r := fun e => hsq (e.trans hrq)
    rcases h.2 q r hq hrq hne with hr | hr
    · exact .inl hr
    · exact .inr (by simp [hdr, hsr, hr])

/-! ## The entries of one directory -/

/-- `d` is a directory, and `files x` is what its entry `x` is. -/
def DirHolds (fs : FS) (d : Path) (files : String → Option Node) : Prop :=
  fs.get d = some .dir ∧ ∀ x, fs.get (d ++ [x]) = files x

/-- A directory's entries with `x` holding `n`. -/
def putFile (files : String → Option Node) (x : String) (n : Node) : String → Option Node :=
  fun y => if y = x then some n else files y

theorem putFile_apply (files : String → Option Node) (x : String) (n : Node) (y : String) :
    putFile files x n y = if y = x then some n else files y := rfl

@[simp] theorem putFile_putFile (files : String → Option Node) (x : String) (n n' : Node) :
    putFile (putFile files x n) x n' = putFile files x n' := by
  funext y
  by_cases hy : y = x <;> simp [putFile, hy]

variable {d : Path} {files : String → Option Node}

/-- The directory a successful `mkdir` makes in a tree is empty. -/
theorem Tree.dirHolds_set (h : fs.Tree) (hd : d ≠ []) (hn : fs.get d = none) :
    (fs.set d .dir).DirHolds d fun _ => none :=
  ⟨by simp, fun x => by simp [h.get_append_eq_none hd hn x]⟩

theorem DirHolds.set (h : fs.DirHolds d files) (x : String) (n : Node) :
    (fs.set (d ++ [x]) n).DirHolds d (putFile files x n) := by
  refine ⟨by simp [h.1], fun y => ?_⟩
  by_cases hy : y = x <;> simp [putFile, hy, h.2]

/-- A state that agrees with `fs` but at the entry `x` of `d`, which holds `n`: `d` holds
the entries of `fs` with `x` replaced, and nothing outside `d` changed. -/
theorem DirHolds.of_entry {fs₁ : FS} (h : fs.DirHolds d files) {x : String} {n : Node}
    (hx : fs₁.get (d ++ [x]) = some n) (hother : ∀ q, q ≠ d ++ [x] → fs₁.get q = fs.get q) :
    fs₁.DirHolds d (putFile files x n) ∧ ∀ q, ¬ d <+: q → fs₁.get q = fs.get q := by
  have hout : ∀ q, ¬ d <+: q → fs₁.get q = fs.get q := fun q hq =>
    hother q fun e => hq (e ▸ List.prefix_append _ _)
  refine ⟨⟨by rw [hother d (by simp)]; exact h.1, fun y => ?_⟩, hout⟩
  by_cases hy : y = x
  · subst hy
    simp [putFile, hx]
  · rw [hother _ (by simpa using hy), h.2]
    simp [putFile, hy]

/-- A `rename` of a directory moves its entries. -/
theorem DirHolds.move {src dst : Path} (h : fs.DirHolds src files) (hsd : ¬ src <+: dst)
    (hds : ¬ dst <+: src) : (fs.move src dst).DirHolds dst files :=
  ⟨by simp [get_move fs hsd hds, h.1], fun x => by simp [get_move fs hsd hds, h.2]⟩

/-- `fs'` is `fs` everywhere outside `d`. -/
def SameOutside (d : Path) (fs fs' : FS) : Prop := ∀ q, ¬ d <+: q → fs'.get q = fs.get q

theorem SameOutside.refl (d : Path) (fs : FS) : SameOutside d fs fs := fun _ _ => rfl

theorem SameOutside.trans {fs₁ fs₂ : FS} (h₁ : SameOutside d fs fs₁) (h₂ : SameOutside d fs₁ fs₂) :
    SameOutside d fs fs₂ :=
  fun q hq => (h₂ q hq).trans (h₁ q hq)

theorem sameOutside_set (x : String) (n : Node) : SameOutside d fs (fs.set (d ++ [x]) n) :=
  fun q hq => by
    rw [get_set, if_neg]
    rintro rfl
    exact hq (List.prefix_append _ _)

end FS

open FS

/-- A call that touches only paths in `d` leaves the rest alone. -/
theorem sameOutside_step {d : Path} {c : Call} (hc : ∀ q, c.touches q → d <+: q) (env : Env)
    (fs : FS) : SameOutside d fs (c.step env fs).2 :=
  fun _ hq => get_step_of_not_touches (fun ht => hq (hc _ ht)) env fs

/-- A program none of whose calls touches a path outside `d` leaves the rest alone. -/
theorem Prog.sameOutside_run {α : Type} {d : Path} {p : Prog α} (h : ∀ q, ¬ d <+: q → p.Avoids q)
    (env : Env) (fs : FS) : SameOutside d fs (p.run env fs).2 :=
  fun q hq => run_get_of_avoids (h q hq) env fs

/-- Every system call keeps the file system a tree. -/
theorem exec_tree {fs : FS} (h : fs.Tree) (c : Call) : (c.exec fs).2.Tree := by
  cases c with
  | mkdir p | openExcl p =>
    simp only [Call.exec]
    split_ifs with hc
    · exact h.set hc.2.1 hc.2.2 (h.not_hasBelow hc.2.1 (by simp [hc.1])) _
    · exact h
  | openTrunc p =>
    simp only [Call.exec]
    split
    · next hf => exact h.set_file hf _
    · exact h
    · next hn =>
      split_ifs with hc
      · exact h.set hc.1 hc.2 (h.not_hasBelow hc.1 (by simp [hn])) _
      · exact h
  | write p _ | writeAt p _ _ =>
    simp only [Call.exec]
    split
    · next hf => exact h.set_file hf _
    · exact h
  | unlink p =>
    simp only [Call.exec]
    split
    · next hf =>
      have hs : (fs.get p).isSome := by simp [hf]
      exact h.remove (h.not_hasBelow (h.ne_nil hs) (by simp [hf]))
    · exact h
  | rmdir p =>
    simp only [Call.exec]
    split_ifs with hc
    · exact h.remove hc.2
    · exact h
  | rename src dst =>
    simp only [Call.exec]
    split_ifs with hc
    · exact h.move hc.1 hc.2.1 hc.2.2.1 hc.2.2.2.1 hc.2.2.2.2.1
    · exact h
  | openRW p | read p =>
    simp only [Call.exec]
    split <;> exact h
  | fdopen _ | stat _ | sync => exact h

theorem step_tree {fs : FS} (h : fs.Tree) (env : Env) (c : Call) : (c.step env fs).2.Tree := by
  unfold Call.step
  split
  · exact h
  · exact exec_tree h c

namespace Prog

variable {α : Type}

/-- A run from a tree ends in a tree. -/
theorem run_tree (env : Env) (p : Prog α) {fs : FS} (h : fs.Tree) : (p.run env fs).2.Tree := by
  induction p generalizing fs with
  | ret a => exact h
  | call c k ih => exact ih _ (step_tree h env c)

end Prog

end OpmsgKeystore
