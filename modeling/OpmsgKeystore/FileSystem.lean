import OpmsgKeystore.Basic
import Mathlib.Data.List.Dedup

/-!
# The file system and system-call programs

The keystore's only shared resource is the file system. This module models the part of
POSIX the file uses:

* `FS`: a file system as a list of entries, each a path with a directory or a file and its
  bytes; `get` looks a path up;
* `Call`: the system calls of `keystore.cc` (`mkdir`, `open` with `O_EXCL` or `O_TRUNC`,
  `fdopen`, `write`/`fwrite`, reading back, `stat`, `unlink`, `rmdir`, `rename`) and
  `Call.exec`, what each does to the file system and what it returns;
* `Env`: the environment's say on a call. A call that allocates (a directory entry, a
  descriptor, a `FILE`, disk space) or removes an entry can fail whatever the state is
  (`ENOSPC`, `EMFILE`, `ENOMEM`, `EIO`, `EROFS`, `EBUSY`); looking an entry up (`stat`) and
  reading a file back fail only for the reasons the state gives, the model leaves their
  `EIO` and `ENOMEM` out;
* `fwrite` goes through a `FILE` stream: glibc writes the whole blocks of the data at once
  and keeps the rest in the stream's buffer until the flush, whose result the source drops;
* `Prog`: an operation of the keystore as a tree of system calls, each continuation taking
  the call's reply. `Prog.run` runs one against an environment, `Prog.states` lists every
  file system state a concurrent reader can see during the run.

The frame lemmas `get_set`, `get_remove` and `get_move` say what each update changes.
-/

namespace OpmsgKeystore

/-- What a path names. -/
inductive Node
  | dir
  | file (data : String)
  deriving DecidableEq, Repr

/-- A file system: its entries. The root `[]` is a directory without an entry. -/
structure FS where
  entries : List (Path × Node)

namespace FS

/-- The node at a path. -/
def get (fs : FS) (p : Path) : Option Node := (fs.entries.find? (·.1 = p)).map (·.2)

/-- `p` is a directory (the root always is). -/
def isDir (fs : FS) (p : Path) : Prop := p = [] ∨ fs.get p = some .dir

instance (fs : FS) (p : Path) : Decidable (fs.isDir p) := by unfold isDir; infer_instance

/-- Some entry lies strictly below `p`. -/
def HasBelow (fs : FS) (p : Path) : Prop := ∃ e ∈ fs.entries, p <+: e.1 ∧ e.1 ≠ p

instance (fs : FS) (p : Path) : Decidable (fs.HasBelow p) := by
  unfold HasBelow; infer_instance

def remove (fs : FS) (p : Path) : FS := ⟨fs.entries.filter (·.1 ≠ p)⟩

def set (fs : FS) (p : Path) (n : Node) : FS := ⟨(p, n) :: (fs.remove p).entries⟩

/-- The path of `q` once `src` has become `dst`. -/
def relocate (src dst q : Path) : Path := if src <+: q then dst ++ q.drop src.length else q

/-- `rename(src, dst)` of a directory: what was at and below `dst` goes, what was at and
below `src` moves under `dst`. -/
def move (fs : FS) (src dst : Path) : FS :=
  ⟨(fs.entries.filter fun e => ¬ dst <+: e.1).map fun e => (relocate src dst e.1, e.2)⟩

/-- What `fopen(p, "r")` gives to read: the bytes of a file; a directory opens but yields no
bytes; a missing path does not open. -/
def fopen (fs : FS) (p : Path) : Option String :=
  match fs.get p with
  | some (.file c) => some c
  | some .dir => some ""
  | none => none

/-- The names in directory `d`, as `readdir` lists them. -/
def readdir (fs : FS) (d : Path) : List String :=
  (fs.entries.filterMap fun e => if e.1.dropLast = d ∧ e.1 ≠ [] then e.1.getLast? else none).dedup

@[simp] theorem get_mk_cons (e : Path × Node) (es : List (Path × Node)) (q : Path) :
    get ⟨e :: es⟩ q = if e.1 = q then some e.2 else get ⟨es⟩ q := by
  by_cases h : e.1 = q <;> simp [get, h, List.find?_cons]

@[simp] theorem get_mk_nil (q : Path) : get ⟨[]⟩ q = none := rfl

@[simp] theorem get_remove (fs : FS) (p q : Path) :
    (fs.remove p).get q = if q = p then none else fs.get q := by
  obtain ⟨es⟩ := fs
  induction es with
  | nil => simp [remove]
  | cons e es ih =>
    simp only [remove] at ih
    by_cases he : e.1 = p <;> by_cases hq : q = p <;> by_cases heq : e.1 = q <;>
      simp_all [remove, List.filter_cons]

@[simp] theorem get_set (fs : FS) (p q : Path) (n : Node) :
    (fs.set p n).get q = if q = p then some n else fs.get q := by
  rw [set, get_mk_cons]
  show (if p = q then some n else (fs.remove p).get q) = _
  by_cases h : q = p
  · simp [h]
  · simp [h, Ne.symm h]

theorem get_set_self (fs : FS) (p : Path) (n : Node) : (fs.set p n).get p = some n := by simp

/-- Setting a path twice keeps the second node alone. -/
@[simp] theorem set_set (fs : FS) (p : Path) (m n : Node) : (fs.set p m).set p n = fs.set p n := by
  simp [set, remove, List.filter_filter]

theorem prefix_comparable {a b c : Path} (ha : a <+: c) (hb : b <+: c) : a <+: b ∨ b <+: a := by
  rcases Nat.le_total a.length b.length with hl | hl
  · exact .inl (List.prefix_of_prefix_length_le ha hb hl)
  · exact .inr (List.prefix_of_prefix_length_le hb ha hl)

theorem relocate_eq_iff {src dst q r : Path} (hqd : ¬ dst <+: q) (hr : dst <+: r) :
    relocate src dst q = r ↔ q = src ++ r.drop dst.length := by
  obtain ⟨t, rfl⟩ := hr
  unfold relocate
  split
  · next hs =>
    obtain ⟨u, rfl⟩ := hs
    simp
  · next hs =>
    constructor
    · rintro rfl
      exact absurd (List.prefix_append _ _) hqd
    · rintro rfl
      exact absurd (List.prefix_append _ _) hs

/-- What `move` leaves at each path, when neither of `src` and `dst` lies below the other. -/
theorem get_move (fs : FS) {src dst : Path} (hsd : ¬ src <+: dst) (hds : ¬ dst <+: src)
    (q : Path) : (fs.move src dst).get q =
      if dst <+: q then fs.get (src ++ q.drop dst.length)
      else if src <+: q then none else fs.get q := by
  obtain ⟨es⟩ := fs
  simp only [move]
  induction es with
  | nil => split_ifs <;> rfl
  | cons e es ih =>
    obtain ⟨p, n⟩ := e
    by_cases hp : dst <+: p
    · have hskip : List.filter (fun e => decide ¬dst <+: e.1) ((p, n) :: es) =
          List.filter (fun e => decide ¬dst <+: e.1) es := by simp [List.filter_cons, hp]
      rw [hskip, ih]
      by_cases hq : dst <+: q
      · have hne : p ≠ src ++ q.drop dst.length := by
          rintro rfl
          rcases prefix_comparable hp (List.prefix_append src _) with h | h
          · exact hds h
          · exact hsd h
        simp [hq, hne]
      · have hne : p ≠ q := fun h => hq (h ▸ hp)
        split_ifs <;> simp [hne]
    · have hkeep : List.filter (fun e => decide ¬dst <+: e.1) ((p, n) :: es) =
          (p, n) :: List.filter (fun e => decide ¬dst <+: e.1) es := by simp [List.filter_cons, hp]
      rw [hkeep, List.map_cons, get_mk_cons, ih]
      by_cases hq : dst <+: q
      · simp only [hq, if_true, relocate_eq_iff hp hq, get_mk_cons]
      · have hrel : relocate src dst p = q ↔ p = q ∧ ¬ src <+: q := by
          unfold relocate
          split
          · next hs => exact ⟨fun h => absurd (h ▸ List.prefix_append _ _) hq,
              fun h => absurd (h.1 ▸ hs) h.2⟩
          · next hs => exact ⟨fun h => ⟨h, h ▸ hs⟩, fun h => h.1⟩
        by_cases hs : src <+: q <;> simp [hq, hs, hrel]

theorem mem_entries_of_get {fs : FS} {q : Path} {n : Node} (h : fs.get q = some n) :
    (q, n) ∈ fs.entries := by
  obtain ⟨es⟩ := fs
  induction es with
  | nil => simp at h
  | cons e es ih =>
    simp only [get_mk_cons] at h
    split at h
    · next he => cases h; exact he ▸ List.mem_cons_self _ _
    · exact List.mem_cons_of_mem _ (ih h)

theorem get_isSome_of_mem {fs : FS} {e : Path × Node} (h : e ∈ fs.entries) :
    (fs.get e.1).isSome := by
  obtain ⟨es⟩ := fs
  induction es with
  | nil => simp at h
  | cons e' es ih =>
    simp only [get_mk_cons]
    split
    · rfl
    · rcases List.mem_cons.mp h with rfl | h
      · simp_all
      · exact ih h

theorem hasBelow_iff (fs : FS) (p : Path) :
    fs.HasBelow p ↔ ∃ q, p <+: q ∧ q ≠ p ∧ (fs.get q).isSome := by
  constructor
  · rintro ⟨e, he, hp, hne⟩
    exact ⟨e.1, hp, hne, get_isSome_of_mem he⟩
  · rintro ⟨q, hp, hne, hs⟩
    obtain ⟨n, hn⟩ := Option.isSome_iff_exists.mp hs
    exact ⟨(q, n), mem_entries_of_get hn, hp, hne⟩

theorem mem_readdir (fs : FS) (d : Path) (n : String) :
    n ∈ fs.readdir d ↔ (fs.get (d ++ [n])).isSome := by
  simp only [readdir, List.mem_dedup, List.mem_filterMap]
  constructor
  · rintro ⟨e, he, hn⟩
    split at hn
    · next hd =>
      obtain ⟨hd, hne⟩ := hd
      have : e.1 = d ++ [n] := by
        have hlast : e.1.getLast hne = n :=
          Option.some.inj ((List.getLast?_eq_getLast e.1 hne).symm.trans hn)
        rw [← List.dropLast_append_getLast hne, hd, hlast]
      exact this ▸ get_isSome_of_mem he
    · cases hn
  · intro h
    obtain ⟨m, hm⟩ := Option.isSome_iff_exists.mp h
    exact ⟨(d ++ [n], m), mem_entries_of_get hm, by simp⟩

end FS

/-! ## System calls -/

/-- `data` written over the bytes of `c` from offset `off` on (`write(2)` on a descriptor
whose offset is `off`). -/
def overwriteAt (c : String) (off : Nat) (data : String) : String :=
  ⟨c.data.take off ++ List.replicate (off - c.data.length) '\x00' ++ data.data ++
    c.data.drop (off + data.data.length)⟩

/-- A system call of `keystore.cc`, on a path. `write` writes at the end of the file, which
is where the descriptor of a file this process created or truncated and has been writing
stands; `writeAt` writes at a given offset. -/
inductive Call
  | mkdir (p : Path)
  | openExcl (p : Path)
  | openTrunc (p : Path)
  | openRW (p : Path)
  | fdopen (p : Path)
  | write (p : Path) (data : String)
  | writeAt (p : Path) (off : Nat) (data : String)
  | read (p : Path)
  | stat (p : Path)
  | sync
  | unlink (p : Path)
  | rmdir (p : Path)
  | rename (src dst : Path)
  deriving DecidableEq, Repr

/-- A call's return: success, the bytes read, or the size `stat` reports. -/
inductive Reply
  | status (ok : Bool)
  | contents (data : Option String)
  | size (n : Option Nat)
  deriving DecidableEq, Repr, Inhabited

def Reply.ok : Reply → Bool
  | .status b => b
  | .contents d => d.isSome
  | .size n => n.isSome

def Reply.data : Reply → Option String
  | .contents d => d
  | _ => none

def Reply.sizeOf : Reply → Option Nat
  | .size n => n
  | _ => none

/-- The calls that can fail whatever the file system state is. -/
def Call.faultable : Call → Bool
  | .mkdir _ | .openExcl _ | .openTrunc _ | .openRW _ | .fdopen _ | .write _ _
  | .writeAt _ _ _ | .unlink _ | .rmdir _ | .rename _ _ => true
  | .read _ | .stat _ | .sync => false

/-- The size `stat` reports: a file's length; a directory's is of no use here. -/
def FS.statSize (fs : FS) (p : Path) : Option Nat :=
  if p = [] then some 0 else
  match fs.get p with
  | some (.file c) => some c.data.length
  | some .dir => some 0
  | none => none

theorem statSize_eq_none_iff {fs : FS} {p : Path} (hp : p ≠ []) :
    fs.statSize p = none ↔ fs.get p = none := by
  unfold FS.statSize
  rw [if_neg hp]
  split <;> simp_all

/-- What a call does when the environment lets it run. `mkdir` and `open(O_CREAT|O_EXCL)`
need a fresh name in an existing directory; `open(O_CREAT|O_TRUNC)` creates or empties a
file; `rmdir` needs an empty directory; `rename` of a directory replaces a missing or empty
directory and refuses anything else. -/
def Call.exec (fs : FS) : Call → Reply × FS
  | .mkdir p =>
    if fs.get p = none ∧ p ≠ [] ∧ fs.isDir p.dropLast then (.status true, fs.set p .dir)
    else (.status false, fs)
  | .openExcl p =>
    if fs.get p = none ∧ p ≠ [] ∧ fs.isDir p.dropLast then (.status true, fs.set p (.file ""))
    else (.status false, fs)
  | .openTrunc p =>
    match fs.get p with
    | some (.file _) => (.status true, fs.set p (.file ""))
    | some .dir => (.status false, fs)
    | none =>
      if p ≠ [] ∧ fs.isDir p.dropLast then (.status true, fs.set p (.file ""))
      else (.status false, fs)
  | .openRW p =>
    match fs.get p with
    | some (.file _) => (.status true, fs)
    | _ => (.status false, fs)
  | .fdopen _ => (.status true, fs)
  | .write p data =>
    match fs.get p with
    | some (.file c) => (.status true, fs.set p (.file (c ++ data)))
    | _ => (.status false, fs)
  | .writeAt p off data =>
    match fs.get p with
    | some (.file c) => (.status true, fs.set p (.file (overwriteAt c off data)))
    | _ => (.status false, fs)
  | .read p =>
    match fs.get p with
    | some (.file c) => (.contents (some c), fs)
    | _ => (.contents none, fs)
  | .stat p => (.size (fs.statSize p), fs)
  | .sync => (.status true, fs)
  | .unlink p =>
    match fs.get p with
    | some (.file _) => (.status true, fs.remove p)
    | _ => (.status false, fs)
  | .rmdir p =>
    if fs.get p = some .dir ∧ ¬ fs.HasBelow p then (.status true, fs.remove p)
    else (.status false, fs)
  | .rename src dst =>
    if fs.get src = some .dir ∧ ¬ src <+: dst ∧ ¬ dst <+: src ∧ dst ≠ [] ∧
        fs.isDir dst.dropLast ∧ (fs.get dst = none ∨ (fs.get dst = some .dir ∧ ¬ fs.HasBelow dst))
    then (.status true, fs.move src dst)
    else (.status false, fs)

/-- The environment: `env c` says that call `c` fails for a reason outside the file system
state. No operation issues the same faultable call twice, so a function of the call is as
general as a choice per call site. -/
abbrev Env := Call → Bool

/-- The environment that never interferes. -/
def Env.none : Env := fun _ => false

/-- No `write` fails (no `ENOSPC`, no `EIO`). -/
def Env.WritesOk (env : Env) : Prop := ∀ p d, env (.write p d) = false

/-- No `unlink` and no `rmdir` fails (no `EIO`, `EROFS`, `EBUSY`). -/
def Env.RemovesOk (env : Env) : Prop := ∀ p, env (.unlink p) = false ∧ env (.rmdir p) = false

/-- One call under an environment. -/
def Call.step (env : Env) (c : Call) (fs : FS) : Reply × FS :=
  if env c && c.faultable then (.status false, fs) else c.exec fs

/-- The calls of the publishing step: `stat` of the final name, and `rename`. -/
def Call.publishing : Call → Bool
  | .stat _ | .rename _ _ => true
  | _ => false

/-- `stat` reports the size whatever the environment. -/
@[simp] theorem step_stat (env : Env) (p : Path) (fs : FS) :
    (Call.stat p).step env fs = (.size (fs.statSize p), fs) := by
  simp [Call.step, Call.faultable, Call.exec]

/-- A `write` that the environment lets through appends to a file. -/
theorem step_write_of_file {env : Env} (hw : env.WritesOk) {fs : FS} {p : Path} {c : String}
    (hc : fs.get p = some (.file c)) (d : String) :
    (Call.write p d).step env fs = (.status true, fs.set p (.file (c ++ d))) := by
  simp [Call.step, hw p d, Call.exec, hc]

/-- The paths whose node a call may change. -/
def Call.touches : Call → Path → Prop
  | .mkdir p, q | .openExcl p, q | .openTrunc p, q | .write p _, q | .writeAt p _ _, q
  | .unlink p, q | .rmdir p, q => q = p
  | .rename src dst, q => src <+: q ∨ dst <+: q
  | .openRW _, _ | .fdopen _, _ | .read _, _ | .stat _, _ | .sync, _ => False

/-- A call leaves every path it does not touch as it was. -/
theorem get_step_of_not_touches {c : Call} {q : Path} (h : ¬ c.touches q) (env : Env)
    (fs : FS) : (c.step env fs).2.get q = fs.get q := by
  unfold Call.step
  split
  · rfl
  · cases c with
    | rename src dst =>
      simp only [Call.touches, not_or] at h
      simp only [Call.exec]
      split
      · next hc => rw [FS.get_move fs hc.2.1 hc.2.2.1]; simp [h.1, h.2]
      · rfl
    | _ =>
      simp only [Call.touches] at h
      simp only [Call.exec]
      repeat' split
      all_goals simp_all

/-- A `mkdir` that succeeds leaves a directory at its path. -/
theorem get_mkdir_of_ok {env : Env} {p : Path} {fs : FS}
    (h : ((Call.mkdir p).step env fs).1.ok) : ((Call.mkdir p).step env fs).2.get p = some .dir := by
  simp only [Call.step, Call.exec] at *
  split_ifs at * <;> simp_all [Reply.ok]

/-! ## Programs -/

/-- An operation as a tree of system calls. -/
inductive Prog (α : Type) where
  | ret (a : α)
  | call (c : Call) (k : Reply → Prog α)

namespace Prog

variable {α β : Type}

def bind : Prog α → (α → Prog β) → Prog β
  | ret a, f => f a
  | call c k, f => call c fun r => (k r).bind f

/-- Issue `c`; when it fails return `e` (an early `return` of the source), otherwise go on. -/
def check (c : Call) (e : α) (k : Prog α) : Prog α := call c fun r => if r.ok then k else ret e

/-- Issue `c` and go on whatever it returns (a call whose result the source ignores). -/
def seq (c : Call) (k : Prog α) : Prog α := call c fun _ => k

/-- The size of a `FILE`'s buffer: `st_blksize` of the file systems a keystore lives on. -/
def blockSize : Nat := 4096

/-- Writing `data` into a fresh, fully buffered `FILE` on the descriptor of `p`, then flushing
the stream, as glibc does it. `fwrite` hands the whole blocks of `data` to `write(2)` at once,
and when that fails it returns short, which the caller turns into its error `e`; the rest waits
in the buffer for the flush (`f.reset()`, whose `fclose` result `ffclose` drops, or `rewind`).
`k` goes on after the flush and is told whether the flush's `write` went through. -/
def streamWrite (p : Path) (data : String) (e : α) (k : Bool → Prog α) : Prog α :=
  let n := data.data.length / blockSize * blockSize
  let flush : Prog α :=
    if n < data.data.length then call (.write p ⟨data.data.drop n⟩) fun r => k r.ok else k true
  if n = 0 then flush else check (.write p ⟨data.data.take n⟩) e flush

/-- `fwrite(data, data.size(), 1, f) != 1` as an early return, then the flush of the stream:
a zero-size `fwrite` writes one item of nothing and returns `0`. -/
def fwrite (p : Path) (data : String) (e : α) (k : Bool → Prog α) : Prog α :=
  if data.data.length = 0 then ret e else streamWrite p data e k

/-- Read the file at `p` and go on with its bytes. -/
def readThen (p : Path) (k : Option String → Prog α) : Prog α := call (.read p) fun r => k r.data

/-- `rewind` and a read of a stream on `p` just written: after a flush that went through the
read starts at the beginning of the file; after a failed one the stream stands where the
descriptor stopped, at the end of what reached the file, and the read finds nothing. -/
def rewindRead (p : Path) (flushed : Bool) (k : Option String → Prog α) : Prog α :=
  if flushed then readThen p k else k none

/-- Run a program from a file system state. -/
def run (env : Env) : Prog α → FS → α × FS
  | ret a, fs => (a, fs)
  | call c k, fs => (k (c.step env fs).1).run env (c.step env fs).2

/-- Every state of the file system during a run: the first, one after each call. -/
def states (env : Env) : Prog α → FS → List FS
  | ret _, fs => [fs]
  | call c k, fs => fs :: (k (c.step env fs).1).states env (c.step env fs).2

@[simp] theorem run_ret (env : Env) (a : α) (fs : FS) : (ret a).run env fs = (a, fs) := rfl

@[simp] theorem run_call (env : Env) (c : Call) (k : Reply → Prog α) (fs : FS) :
    (call c k).run env fs = (k (c.step env fs).1).run env (c.step env fs).2 := rfl

theorem run_check_of_ok {env : Env} {fs : FS} {c : Call} {e : α} {k : Prog α}
    (h : (c.step env fs).1.ok) : (check c e k).run env fs = k.run env (c.step env fs).2 := by
  simp [check, h]

/-- No call the program may make changes the node at `q`. -/
def Avoids (q : Path) : Prog α → Prop
  | ret _ => True
  | call c k => ¬ c.touches q ∧ ∀ r, (k r).Avoids q

/-- Every value the program may return satisfies `Q`. -/
def Returns (Q : α → Prop) : Prog α → Prop
  | ret a => Q a
  | call _ k => ∀ r, (k r).Returns Q

@[simp] theorem avoids_ret (q : Path) (a : α) : (ret a).Avoids q := trivial

@[simp] theorem avoids_check {q : Path} {c : Call} {e : α} {k : Prog α} :
    (check c e k).Avoids q ↔ ¬ c.touches q ∧ k.Avoids q := by
  simp only [check, Avoids]
  constructor
  · rintro ⟨hc, hk⟩
    refine ⟨hc, ?_⟩
    simpa using hk (.status true)
  · rintro ⟨hc, hk⟩
    exact ⟨hc, fun r => by split <;> simp [hk, Avoids]⟩

@[simp] theorem avoids_seq {q : Path} {c : Call} {k : Prog α} :
    (seq c k).Avoids q ↔ ¬ c.touches q ∧ k.Avoids q := by
  simp [seq, Avoids]

theorem avoids_streamWrite {q p : Path} {data : String} {e : α} {k : Bool → Prog α} (hq : q ≠ p)
    (hk : ∀ b, (k b).Avoids q) : (streamWrite p data e k).Avoids q := by
  have hflush : ∀ n, (if n < data.data.length then
      call (.write p ⟨data.data.drop n⟩) fun r => k r.ok else k true).Avoids q := fun n => by
    split
    · exact ⟨hq, fun r => hk r.ok⟩
    · exact hk true
  unfold streamWrite
  dsimp only
  split
  · exact hflush _
  · exact avoids_check.mpr ⟨hq, hflush _⟩

theorem avoids_fwrite {q p : Path} {data : String} {e : α} {k : Bool → Prog α} (hq : q ≠ p)
    (hk : ∀ b, (k b).Avoids q) : (fwrite p data e k).Avoids q := by
  unfold fwrite
  split
  · trivial
  · exact avoids_streamWrite hq hk

theorem avoids_rewindRead {q p : Path} {flushed : Bool} {k : Option String → Prog α}
    (hk : ∀ d, (k d).Avoids q) : (rewindRead p flushed k).Avoids q := by
  unfold rewindRead readThen
  split
  · exact ⟨nofun, fun r => hk r.data⟩
  · exact hk none

@[simp] theorem returns_ret {Q : α → Prop} (a : α) : (ret a).Returns Q ↔ Q a := Iff.rfl

@[simp] theorem returns_check {Q : α → Prop} {c : Call} {e : α} {k : Prog α} :
    (check c e k).Returns Q ↔ Q e ∧ k.Returns Q := by
  simp only [check, Returns]
  constructor
  · intro h
    exact ⟨by simpa using h (.status false), by simpa using h (.status true)⟩
  · rintro ⟨he, hk⟩ r
    split <;> simp_all [Returns]

@[simp] theorem returns_seq {Q : α → Prop} {c : Call} {k : Prog α} :
    (seq c k).Returns Q ↔ k.Returns Q := by
  simp [seq, Returns]

@[simp] theorem returns_call {Q : α → Prop} {c : Call} {k : Reply → Prog α} :
    (call c k).Returns Q ↔ ∀ r, (k r).Returns Q := Iff.rfl

theorem returns_streamWrite {Q : α → Prop} {p : Path} {data : String} {e : α}
    {k : Bool → Prog α} (he : Q e) (hk : ∀ b, (k b).Returns Q) :
    (streamWrite p data e k).Returns Q := by
  unfold streamWrite
  dsimp only
  have hflush : (if data.data.length / blockSize * blockSize < data.data.length then
      call (.write p ⟨data.data.drop (data.data.length / blockSize * blockSize)⟩) fun r => k r.ok
      else k true).Returns Q := by
    split
    · exact fun r => hk r.ok
    · exact hk true
  split
  · exact hflush
  · exact returns_check.mpr ⟨he, hflush⟩

/-- What `fwrite` and the flush after it may return: the error, or what the rest of the
program returns after a non-empty write. -/
theorem returns_fwrite {Q : α → Prop} {p : Path} {data : String} {e : α} {k : Bool → Prog α}
    (he : Q e) (hk : 0 < data.data.length → ∀ b, (k b).Returns Q) :
    (fwrite p data e k).Returns Q := by
  unfold fwrite
  split
  · exact he
  · exact returns_streamWrite he (hk (Nat.pos_of_ne_zero ‹_›))

@[simp] theorem returns_fwrite_of {Q : α → Prop} {p : Path} {data : String} {e : α}
    {k : Bool → Prog α} (he : Q e) (hk : ∀ b, (k b).Returns Q) : (fwrite p data e k).Returns Q :=
  returns_fwrite he fun _ => hk

/-- When no write fails, the stream appends all of a non-empty `data` to the file and the
flush goes through. -/
theorem run_streamWrite {env : Env} (hw : env.WritesOk) {fs : FS} {p : Path} {c data : String}
    {e : α} {k : Bool → Prog α} (hc : fs.get p = some (.file c)) (hpos : 0 < data.data.length) :
    (streamWrite p data e k).run env fs = (k true).run env (fs.set p (.file (c ++ data))) := by
  have hsplit : ∀ n, c ++ ⟨data.data.take n⟩ ++ ⟨data.data.drop n⟩ = c ++ data := fun n => by
    rw [String.append_assoc]
    congr 1
    apply String.ext
    simp
  have hfile : ∀ d : String, (fs.set p (.file (c ++ d))).get p = some (.file (c ++ d)) := by simp
  unfold streamWrite
  dsimp only
  by_cases hzero : data.data.length / blockSize * blockSize = 0
  · rw [if_pos hzero, hzero, if_pos hpos, run_call, step_write_of_file hw hc]
    rfl
  rw [if_neg hzero]
  simp only [check, run_call, step_write_of_file hw hc, Reply.ok, if_true]
  by_cases hlt : data.data.length / blockSize * blockSize < data.data.length
  · rw [if_pos hlt, run_call, step_write_of_file hw (hfile _), FS.set_set, hsplit]
  · rw [if_neg hlt, le_antisymm (Nat.div_mul_le_self _ _) (not_lt.mp hlt), List.take_length]

/-- When no write fails, `fwrite` of non-empty `data` and the flush after it append `data`. -/
theorem run_fwrite {env : Env} (hw : env.WritesOk) {fs : FS} {p : Path} {c data : String}
    {e : α} {k : Bool → Prog α} (hc : fs.get p = some (.file c)) (hpos : 0 < data.data.length) :
    (fwrite p data e k).run env fs = (k true).run env (fs.set p (.file (c ++ data))) := by
  rw [fwrite, if_neg (Nat.pos_iff_ne_zero.mp hpos), run_streamWrite hw hc hpos]

/-- A `write` to a file holding `c`: refused by the environment, or appended. -/
theorem step_write_file {env : Env} {fs : FS} {p : Path} {c : String}
    (hc : fs.get p = some (.file c)) (d : String) :
    (Call.write p d).step env fs =
      if env (.write p d) then (.status false, fs) else (.status true, fs.set p (.file (c ++ d))) := by
  unfold Call.step
  cases env (.write p d) <;> simp [Call.faultable, Call.exec, hc]

/-- What `fwrite` and its flush can do to a file holding `c`: fail with nothing changed, or
append a part `d` of a non-empty `data`, all of it when no write fails, and go on with whether
the flush went through. -/
theorem run_fwrite_cases {env : Env} {fs : FS} {p : Path} {c data : String} {e : α}
    {k : Bool → Prog α} (hc : fs.get p = some (.file c)) :
    (fwrite p data e k).run env fs = (e, fs) ∨
      ∃ fs1 d b, 0 < data.data.length ∧ fs1.get p = some (.file (c ++ d)) ∧
        (∀ q, q ≠ p → fs1.get q = fs.get q) ∧ (env.WritesOk → d = data ∧ b = true) ∧
        (fwrite p data e k).run env fs = (k b).run env fs1 := by
  unfold fwrite
  split
  · exact .inl rfl
  rename_i h0
  have hpos := Nat.pos_of_ne_zero h0
  have hset : ∀ {fs : FS} d q, q ≠ p → (fs.set p (.file (c ++ d))).get q = fs.get q :=
    fun d q hq => by simp [hq]
  have refused : ∀ {d : String}, env (.write p d) = true → ¬ env.WritesOk :=
    fun hw hok => Bool.noConfusion (hw.symm.trans (hok p _))
  -- the flush of `⟨data.data.drop n⟩` onto a file that holds `c ++ ⟨data.data.take n⟩`
  have flush : ∀ {fs : FS} n, n < data.data.length →
      fs.get p = some (.file (c ++ ⟨data.data.take n⟩)) →
      ∃ fs1 d b, fs1.get p = some (.file (c ++ d)) ∧ (∀ q, q ≠ p → fs1.get q = fs.get q) ∧
        (env.WritesOk → d = data ∧ b = true) ∧
        (call (.write p ⟨data.data.drop n⟩) fun r => k r.ok).run env fs = (k b).run env fs1 := by
    intro fs n _ hf
    have hstep := @step_write_file env _ _ _ hf ⟨data.data.drop n⟩
    rw [run_call]
    cases hw : env (.write p ⟨data.data.drop n⟩) <;>
      simp only [hw, Bool.false_eq_true, if_false, if_true] at hstep <;> rw [hstep]
    · refine ⟨fs.set p (.file (c ++ ⟨data.data.take n⟩ ++ ⟨data.data.drop n⟩)),
        ⟨data.data.take n⟩ ++ ⟨data.data.drop n⟩, true, by simp [String.append_assoc],
        fun q hq => by simp [hq], fun _ => ⟨String.ext (by simp), rfl⟩, rfl⟩
    · exact ⟨fs, _, false, hf, fun _ _ => rfl, fun hok => absurd hok (refused hw), rfl⟩
  unfold streamWrite
  dsimp only
  by_cases hz : data.data.length / blockSize * blockSize = 0
  · rw [if_pos hz, hz, if_pos hpos]
    obtain ⟨fs1, d, b, h1, h2, h3, h4⟩ := flush 0 hpos (by simpa using hc)
    exact .inr ⟨fs1, d, b, hpos, h1, h2, h3, h4⟩
  rw [if_neg hz]
  cases hw : env (.write p ⟨data.data.take (data.data.length / blockSize * blockSize)⟩)
  · have hstep := @step_write_file env _ _ _ hc ⟨data.data.take (data.data.length / blockSize * blockSize)⟩
    simp only [hw, Bool.false_eq_true, if_false] at hstep
    rw [run_check_of_ok (by rw [hstep]; rfl), hstep]
    dsimp only
    split
    · rename_i hlt
      obtain ⟨fs1, d, b, h1, h2, h3, h4⟩ := flush _ hlt (FS.get_set_self _ _ _)
      exact .inr ⟨fs1, d, b, hpos, h1, fun q hq => (h2 q hq).trans (hset _ q hq), h3, h4⟩
    · rename_i hlt
      rw [le_antisymm (Nat.div_mul_le_self _ _) (not_lt.mp hlt), List.take_length]
      exact .inr ⟨_, data, true, hpos, FS.get_set_self _ _ _, hset _, fun _ => ⟨rfl, rfl⟩, rfl⟩
  · have hstep := @step_write_file env _ _ _ hc ⟨data.data.take (data.data.length / blockSize * blockSize)⟩
    simp only [hw, if_true] at hstep
    rw [check, run_call, hstep]
    exact .inl rfl

theorem returns_rewindRead {Q : α → Prop} {p : Path} {flushed : Bool}
    {k : Option String → Prog α} (hk : ∀ d, (k d).Returns Q) : (rewindRead p flushed k).Returns Q := by
  unfold rewindRead
  split
  · exact fun r => hk r.data
  · exact hk none

@[simp] theorem returns_readThen {Q : α → Prop} {p : Path} {k : Option String → Prog α} :
    (readThen p k).Returns Q ↔ ∀ d, (k d).Returns Q :=
  ⟨fun h d => h (.contents d), fun h r => h r.data⟩

theorem returns_mono {Q Q' : α → Prop} {p : Prog α} (h : p.Returns Q) (hQ : ∀ a, Q a → Q' a) :
    p.Returns Q' := by
  induction p with
  | ret a => exact hQ a h
  | call c k ih => exact fun r => ih r (h r)

theorem returns_const {Q : Prop} (h : Q) (p : Prog α) : p.Returns fun _ => Q := by
  induction p with
  | ret a => exact h
  | call c k ih => exact ih

theorem returns_bind {R : α → Prop} {Q : β → Prop} {p : Prog α} {f : α → Prog β}
    (hp : p.Returns R) (hf : ∀ a, R a → (f a).Returns Q) : (p.bind f).Returns Q := by
  induction p with
  | ret a => exact hf a hp
  | call c k ih => exact fun r => ih r (hp r)

/-- A program that avoids `q` leaves it as it was. -/
theorem run_get_of_avoids {q : Path} {p : Prog α} (h : p.Avoids q) (env : Env) (fs : FS) :
    (p.run env fs).2.get q = fs.get q := by
  induction p generalizing fs with
  | ret a => rfl
  | call c k ih =>
    rw [run_call, ih _ (h.2 _), get_step_of_not_touches h.1]

/-- What a program returns satisfies what all its returns satisfy. -/
theorem run_fst_of_returns {Q : α → Prop} {p : Prog α} (h : p.Returns Q) (env : Env)
    (fs : FS) : Q (p.run env fs).1 := by
  induction p generalizing fs with
  | ret a => exact h
  | call c k ih => exact ih _ (h _) _

/-- The calls a run makes, in order. -/
def calls (env : Env) : Prog α → FS → List Call
  | ret _, _ => []
  | call c k, fs => c :: (k (c.step env fs).1).calls env (c.step env fs).2

theorem calls_check_of_ok {env : Env} {fs : FS} {c : Call} {e : α} {k : Prog α}
    (h : (c.step env fs).1.ok) : (check c e k).calls env fs = c :: k.calls env (c.step env fs).2 := by
  simp [check, calls, h]

/-- Until its first call that satisfies `stop`, the program leaves `q` alone and every value
it returns satisfies `Q`; the program that makes that call satisfies `R`. -/
def Before (stop : Call → Bool) (q : Path) (Q : α → Prop) (R : Prog α → Prop) : Prog α → Prop
  | ret a => Q a
  | call c k => stop c ∧ R (call c k) ∨ ¬ c.touches q ∧ ∀ r, (k r).Before stop q Q R

section Before

variable {stop : Call → Bool} {q : Path} {Q : α → Prop} {R : Prog α → Prop}

@[simp] theorem before_ret (a : α) : (ret a).Before stop q Q R ↔ Q a := Iff.rfl

@[simp] theorem before_check {c : Call} {e : α} {k : Prog α} :
    (check c e k).Before stop q Q R ↔
      stop c ∧ R (check c e k) ∨ ¬ c.touches q ∧ Q e ∧ k.Before stop q Q R := by
  simp only [check, Before]
  constructor
  · rintro (h | ⟨hc, hk⟩)
    · exact .inl h
    · exact .inr ⟨hc, by simpa using hk (.status false), by simpa using hk (.status true)⟩
  · rintro (h | ⟨hc, he, hk⟩)
    · exact .inl h
    · exact .inr ⟨hc, fun r => by split <;> simp_all [Before]⟩

@[simp] theorem before_seq {c : Call} {k : Prog α} :
    (seq c k).Before stop q Q R ↔ stop c ∧ R (seq c k) ∨ ¬ c.touches q ∧ k.Before stop q Q R := by
  simp [seq, Before]

/-- `fwrite` and its flush leave alone every path but the file. -/
theorem before_fwrite {p : Path} {data : String} {e : α} {k : Bool → Prog α} (hq : q ≠ p)
    (he : Q e) (hk : ∀ b, (k b).Before stop q Q R) :
    (fwrite p data e k).Before stop q Q R := by
  have hw : ∀ d, ¬ (Call.write p d).touches q := fun _ => hq
  have hflush : ∀ n, (if n < data.data.length then
      call (.write p ⟨data.data.drop n⟩) fun r => k r.ok else k true).Before stop q Q R := by
    intro n
    split
    · exact .inr ⟨hw _, fun r => hk r.ok⟩
    · exact hk true
  unfold fwrite streamWrite
  dsimp only
  by_cases h0 : data.data.length = 0
  · rw [if_pos h0]
    exact he
  rw [if_neg h0]
  by_cases hn : data.data.length / blockSize * blockSize = 0
  · rw [if_pos hn]
    exact hflush _
  · rw [if_neg hn]
    exact before_check.mpr (.inr ⟨hw _, he, hflush _⟩)

/-- A run that makes no call satisfying `stop` returns a value satisfying `Q` and leaves `q`
as it was. -/
theorem run_of_before {p : Prog α} (h : p.Before stop q Q R) (env : Env) (fs : FS)
    (hs : ∀ c ∈ p.calls env fs, stop c = false) :
    Q (p.run env fs).1 ∧ (p.run env fs).2.get q = fs.get q := by
  induction p generalizing fs with
  | ret a => exact ⟨h, rfl⟩
  | call c k ih =>
    simp only [calls, List.mem_cons, forall_eq_or_imp] at hs
    obtain hc | ⟨hc, hk⟩ := h
    · simp [hs.1] at hc
    · rw [run_call, ← get_step_of_not_touches hc env fs]
      exact ih _ (hk _) _ hs.2

/-- A run either returns a value satisfying `Q` with `q` as it was in every state, or reaches
a call that satisfies `stop`, from a program that satisfies `R`, with `q` as it was in every
state before. -/
theorem before_run {p : Prog α} (h : p.Before stop q Q R) (env : Env) (fs : FS) :
    (Q (p.run env fs).1 ∧ ∀ s ∈ p.states env fs, s.get q = fs.get q) ∨
      ∃ p' s pre, R p' ∧ s.get q = fs.get q ∧ p.run env fs = p'.run env s ∧
        p.states env fs = pre ++ p'.states env s ∧ ∀ t ∈ pre, t.get q = fs.get q := by
  induction p generalizing fs with
  | ret a => exact .inl ⟨h, by simp [states]⟩
  | call c k ih =>
    obtain ⟨-, hR⟩ | ⟨hc, hk⟩ := h
    · exact .inr ⟨_, fs, [], hR, rfl, rfl, rfl, by simp⟩
    · have hstep := get_step_of_not_touches hc env fs
      rcases ih _ (hk (c.step env fs).1) (c.step env fs).2 with ⟨hQ, hst⟩ | ⟨p', s, pre, hR, hs, hrun, hst, hpre⟩
      · refine .inl ⟨hQ, ?_⟩
        simp only [states, List.mem_cons, forall_eq_or_imp, true_and]
        exact fun t ht => (hst t ht).trans hstep
      · refine .inr ⟨p', s, fs :: pre, hR, hs.trans hstep, hrun, by simp [states, hst], ?_⟩
        simp only [List.mem_cons, forall_eq_or_imp, true_and]
        exact fun t ht => (hpre t ht).trans hstep

end Before

theorem run_bind (env : Env) (p : Prog α) (f : α → Prog β) (fs : FS) :
    (p.bind f).run env fs = (f (p.run env fs).1).run env (p.run env fs).2 := by
  induction p generalizing fs with
  | ret a => rfl
  | call c k ih => exact ih _ _

end Prog

end OpmsgKeystore
