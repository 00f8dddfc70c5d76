import OpmsgKeystore.TestDouble

/-!
# Shredding a private kex key: `persona::del_dh_priv`

`del_dh_priv` overwrites `dh.priv.pem` with blocks of 512 zero bytes, one `write` per block
for as many blocks as `stat` says the file needs, then unlinks it together with `used` and
`peer` and reports success. It never looks at what `write` returns: the loop counter moves on
by 512 whether the write went through or not, while the file offset moves only on a write
that did. A write that fails therefore leaves the rest of the key on disk until the unlink,
and the call still returns `0`.

Results:
* `run_shred_ok`, `run_shred_stuck`: the loop, block by block, while writes succeed and once
  one fails (every later write goes to the same offset and fails the same way);
* `delDhPriv_shreds`: when every write succeeds, the file holds only zeros, at least as many as
  it had bytes, when it is unlinked;
* `delDhPriv_unshredded_ok`: when the write of block `m` fails, the file is unlinked holding
  `512 * m` zeros followed by the original bytes from there on, and the call returns `0`;
* `delDhPrivTail_run`: the unlinks remove `dh.priv.pem`, and `used` and `peer` when they are
  files or absent, and only the private half of the box goes.
-/

namespace OpmsgKeystore

namespace Persona

open Prog

variable {cfg : Config} {K P : Type}

/-! ## The shredding loop -/

/-- `n` zero bytes. -/
def zeros (n : Nat) : List Char := List.replicate n '\x00'

theorem zeroBlock_length : zeroBlock.data.length = 512 := List.length_replicate _ _

/-- One more zero block over a file whose first `off` bytes are zeros and whose remaining
bytes are those of `c`. -/
theorem overwriteAt_zeroBlock (c : List Char) (off : Nat) :
    overwriteAt ⟨zeros off ++ c.drop off⟩ off zeroBlock = ⟨zeros (off + 512) ++ c.drop (off + 512)⟩ := by
  have hz : (zeros off).length = off := List.length_replicate _ _
  have hpad : off - (zeros off ++ c.drop off).length = 0 := by simp [hz]
  have hdrop : (zeros off ++ c.drop off).drop (off + 512) = c.drop (off + 512) := by
    rw [List.drop_append_eq_append_drop, List.drop_eq_nil_of_le (by omega), hz, List.nil_append,
      Nat.add_sub_cancel_left, List.drop_drop]
  show String.mk ((zeros off ++ c.drop off).take off ++
    List.replicate (off - (zeros off ++ c.drop off).length) '\x00' ++ zeroBlock.data ++
    (zeros off ++ c.drop off).drop (off + zeroBlock.data.length)) = _
  rw [List.take_left' hz, hpad, List.replicate_zero, List.append_nil, zeroBlock_length, hdrop]
  simp only [zeros, zeroBlock, List.replicate_add, List.append_assoc]

variable {α : Type} {env : Env} {file : Path} {k : Prog α}

/-- Once the write at `off` fails, every later write of the loop is the same call and fails
too: the loop leaves the file system as it is. -/
theorem run_shred_stuck {off : Nat} (hfail : env (.writeAt file off zeroBlock) = true) :
    ∀ (n : Nat) (fs : FS), (shred file n off k).run env fs = k.run env fs
  | 0, _ => rfl
  | n + 1, fs => by
    simp only [shred, run_call, Call.step, hfail, Call.faultable, Bool.and_self, if_true,
      Reply.ok, Bool.false_eq_true, if_false, seq, Call.exec, Bool.and_false]
    exact run_shred_stuck hfail n fs

/-- `n` zero blocks that all go through, over a file whose first `off` bytes are zeros. -/
theorem run_shred_ok {c : List Char} :
    ∀ (n r off : Nat) (fs : FS), (∀ i < n, env (.writeAt file (off + 512 * i) zeroBlock) = false) →
      fs.get file = some (.file ⟨zeros off ++ c.drop off⟩) →
      ∃ fs', fs'.get file = some (.file ⟨zeros (off + 512 * n) ++ c.drop (off + 512 * n)⟩) ∧
        (∀ q, q ≠ file → fs'.get q = fs.get q) ∧
        (shred file (n + r) off k).run env fs = (shred file r (off + 512 * n) k).run env fs'
  | 0, r, off, fs, _, hc => ⟨fs, hc, fun _ _ => rfl, by simp⟩
  | n + 1, r, off, fs, hok, hc => by
    have h0 : env (.writeAt file off zeroBlock) = false := by simpa using hok 0 (by omega)
    obtain ⟨fs', hc', hq', hrun⟩ := run_shred_ok (c := c) n r (off + 512)
      (fs.set file (.file ⟨zeros (off + 512) ++ c.drop (off + 512)⟩))
      (fun i hi => by rw [show off + 512 + 512 * i = off + 512 * (i + 1) by ring]; exact hok _ (by omega))
      (by simp)
    refine ⟨fs', by rw [hc']; ring_nf, fun q hq => by rw [hq' q hq, FS.get_set, if_neg hq], ?_⟩
    rw [show n + 1 + r = n + r + 1 by omega]
    simp only [shred, run_call, Call.step, h0, Bool.false_and, Bool.false_eq_true, if_false,
      Call.exec, hc, overwriteAt_zeroBlock, Reply.ok, if_true, seq, Call.faultable, zeroBlock_length,
      Bool.and_false]
    rw [hrun]
    ring_nf

/-! ## `del_dh_priv` -/

variable (cfg)

/-- The end of `del_dh_priv`: unlink the key file, `used` and `peer`, and drop the private
half of the box. -/
def delDhPrivTail (p : Persona K P) (hex : String) : Prog (Except String Unit × Persona K P) :=
  seq (.unlink (p.kexDir hex ++ ["dh.priv.pem"])) <| seq (.unlink (p.kexDir hex ++ ["used"])) <|
  seq (.unlink (p.kexDir hex ++ ["peer"])) <|
  ret (.ok (), { p with keys := match p.keys.find hex with
    | some b => p.keys.insert hex { b with privPem := "", priv := none }
    | none => p.keys })

/-- A file or nothing: what `unlink` removes, or finds already gone. -/
def FileOrNone (fs : FS) (q : Path) : Prop := fs.get q = none ∨ ∃ c, fs.get q = some (.file c)

/-- The result is success, with the private half of the box dropped and its public half and
every other box kept, whatever the unlinks return; an unlink the environment lets through
removes the key file, `used` or `peer` when it is a file or absent. -/
theorem delDhPrivTail_run (p : Persona K P) (hex : String) (env : Env) (fs : FS) :
    ((delDhPrivTail p hex).run env fs).1 = (.ok (), { p with keys := match p.keys.find hex with
      | some b => p.keys.insert hex { b with privPem := "", priv := none }
      | none => p.keys }) ∧
    ∀ x, (x = "dh.priv.pem" ∨ x = "used" ∨ x = "peer") → FileOrNone fs (p.kexDir hex ++ [x]) →
      env (.unlink (p.kexDir hex ++ [x])) = false →
      ((delDhPrivTail p hex).run env fs).2.get (p.kexDir hex ++ [x]) = none := by
  refine ⟨rfl, fun x hx hfile hok => ?_⟩
  have hunlink : ∀ (fs : FS), FileOrNone fs (p.kexDir hex ++ [x]) →
      ((Call.unlink (p.kexDir hex ++ [x])).step env fs).2.get (p.kexDir hex ++ [x]) = none :=
    fun fs h => by rcases h with h | ⟨c, h⟩ <;> simp [Call.step, hok, Call.exec, h]
  have hkeep : ∀ (q q' : Path) (fs : FS), q' ≠ q → ((Call.unlink q).step env fs).2.get q' = fs.get q' :=
    fun q q' fs hne => get_step_of_not_touches (by simpa [Call.touches] using hne) env fs
  have hne : ∀ y z : String, y ≠ z → p.kexDir hex ++ [y] ≠ p.kexDir hex ++ [z] := by simp
  simp only [delDhPrivTail, seq, run_call, run_ret]
  rcases hx with rfl | rfl | rfl
  · rw [hkeep _ _ _ (hne _ _ (by decide)), hkeep _ _ _ (hne _ _ (by decide)), hunlink _ hfile]
  · rw [hkeep _ _ _ (hne _ _ (by decide)), hunlink _ (by
      unfold FileOrNone; rwa [hkeep _ _ _ (hne _ _ (by decide))])]
  · exact hunlink _ (by unfold FileOrNone; rwa [hkeep _ _ _ (hne _ _ (by decide)),
      hkeep _ _ _ (hne _ _ (by decide))])

/-- `del_dh_priv` of a valid, non-reserved id whose `dh.priv.pem` holds `c`, when `open`
succeeds: one zero block per started 512 bytes of `c`, then the unlinks. -/
theorem delDhPriv_run (p : Persona K P) {hex c : String} {env : Env} {fs : FS}
    (hh : cfg.isHexHash hex = true) (hres : ¬ reserved cfg hex)
    (hc : fs.get (p.kexDir hex ++ ["dh.priv.pem"]) = some (.file c))
    (hopen : env (.openRW (p.kexDir hex ++ ["dh.priv.pem"])) = false) :
    (p.delDhPriv cfg hex).run env fs =
      (shred (p.kexDir hex ++ ["dh.priv.pem"]) ((c.data.length + 511) / 512) 0
        (delDhPrivTail p hex)).run env fs := by
  have hne : p.kexDir hex ++ ["dh.priv.pem"] ≠ [] := by simp
  simp only [delDhPriv, hh, Bool.true_eq_false, if_false, hres, run_call, step_stat,
    FS.statSize, hne, hc, Reply.sizeOf]
  simp only [check, run_call, Call.step, hopen, Bool.false_and, Bool.false_eq_true, if_false,
    Call.exec, hc, Reply.ok, if_true]
  rfl

variable {cfg}

/-- When every zero block goes through, `dh.priv.pem` holds only zeros, at least as many as it
had bytes, when it is unlinked. -/
theorem delDhPriv_shreds (p : Persona K P) {hex c : String} {env : Env} {fs : FS}
    (hh : cfg.isHexHash hex = true) (hres : ¬ reserved cfg hex)
    (hc : fs.get (p.kexDir hex ++ ["dh.priv.pem"]) = some (.file c))
    (hopen : env (.openRW (p.kexDir hex ++ ["dh.priv.pem"])) = false)
    (hw : ∀ off, env (.writeAt (p.kexDir hex ++ ["dh.priv.pem"]) off zeroBlock) = false) :
    ∃ fs', fs'.get (p.kexDir hex ++ ["dh.priv.pem"]) =
        some (.file ⟨zeros (512 * ((c.data.length + 511) / 512))⟩) ∧
      c.data.length ≤ 512 * ((c.data.length + 511) / 512) ∧
      (∀ q, q ≠ p.kexDir hex ++ ["dh.priv.pem"] → fs'.get q = fs.get q) ∧
      (p.delDhPriv cfg hex).run env fs = (delDhPrivTail p hex).run env fs' := by
  obtain ⟨fs', hc', hq', hrun⟩ := run_shred_ok (k := delDhPrivTail p hex) (c := c.data)
    ((c.data.length + 511) / 512) 0 0 fs (fun i _ => hw _) (by simpa [zeros] using hc)
  have hle : c.data.length ≤ 512 * ((c.data.length + 511) / 512) := by omega
  refine ⟨fs', ?_, hle, hq', ?_⟩
  · rw [hc', Nat.zero_add, List.drop_eq_nil_of_le hle, List.append_nil]
  · rw [delDhPriv_run cfg p hh hres hc hopen, ← Nat.add_zero ((c.data.length + 511) / 512), hrun]
    rfl

/-- When the write of zero block `m` fails, after the `m` before it went through,
`del_dh_priv` unlinks `dh.priv.pem` while it still holds every byte of the key from offset
`512 * m` on, and returns `0`. -/
theorem delDhPriv_unshredded_ok (p : Persona K P) {hex c : String} {env : Env} {fs : FS} {m : Nat}
    (valid : cfg.isHexHash hex = true) (unreserved : ¬ reserved cfg hex)
    (holds : fs.get (p.kexDir hex ++ ["dh.priv.pem"]) = some (.file c))
    (opens : env (.openRW (p.kexDir hex ++ ["dh.priv.pem"])) = false)
    (inFile : 512 * m < c.data.length)
    (zeroed : ∀ i < m, env (.writeAt (p.kexDir hex ++ ["dh.priv.pem"]) (512 * i) zeroBlock) = false)
    (fails : env (.writeAt (p.kexDir hex ++ ["dh.priv.pem"]) (512 * m) zeroBlock) = true) :
    ∃ fs', fs'.get (p.kexDir hex ++ ["dh.priv.pem"]) =
        some (.file ⟨zeros (512 * m) ++ c.data.drop (512 * m)⟩) ∧
      (∀ q, q ≠ p.kexDir hex ++ ["dh.priv.pem"] → fs'.get q = fs.get q) ∧
      (p.delDhPriv cfg hex).run env fs = (delDhPrivTail p hex).run env fs' ∧
      ((p.delDhPriv cfg hex).run env fs).1.1 = .ok () := by
  obtain ⟨fs', hc', hq', hrun⟩ := run_shred_ok (k := delDhPrivTail p hex) (c := c.data)
    m ((c.data.length + 511) / 512 - m) 0 fs (fun i hi => by simpa using zeroed i hi)
    (by simpa [zeros] using holds)
  have hrun' : (p.delDhPriv cfg hex).run env fs = (delDhPrivTail p hex).run env fs' := by
    rw [delDhPriv_run cfg p valid unreserved holds opens, ← Nat.add_sub_cancel' (by omega : m ≤ (c.data.length + 511) / 512),
      hrun, Nat.zero_add, run_shred_stuck fails]
  refine ⟨fs', by simpa using hc', hq', hrun', ?_⟩
  rw [hrun', (delDhPrivTail_run p hex env fs').1]

/-- An environment in which every zero-block write fails. -/
def writesAtFail : Env := fun c => c matches .writeAt _ _ _

/-- A persona directory with one kex directory whose `dh.priv.pem` holds seven bytes. -/
def privKeyFs : FS := ⟨[
  (["ks", "0123456789abcdef", "9999999999999999", "dh.priv.pem"], .file "EC PRIV"),
  (["ks", "0123456789abcdef", "9999999999999999"], .dir),
  (["ks", "0123456789abcdef"], .dir),
  (["ks"], .dir)]⟩

/-- The first zero block fails: `del_dh_priv` unlinks the key file with all seven bytes of the
key in it, and returns `0`. -/
theorem delDhPriv_write_fails :
    TestDouble.config.isHexHash "9999999999999999" = true ∧
      ¬ reserved TestDouble.config "9999999999999999" ∧
      privKeyFs.get (TestDouble.ecPersona.kexDir "9999999999999999" ++ ["dh.priv.pem"]) =
        some (.file "EC PRIV") ∧
      writesAtFail (.openRW (TestDouble.ecPersona.kexDir "9999999999999999" ++ ["dh.priv.pem"])) =
        false ∧
      512 * 0 < "EC PRIV".data.length ∧
      (∀ i < 0, writesAtFail (.writeAt (TestDouble.ecPersona.kexDir "9999999999999999" ++
        ["dh.priv.pem"]) (512 * i) zeroBlock) = false) ∧
      writesAtFail (.writeAt (TestDouble.ecPersona.kexDir "9999999999999999" ++ ["dh.priv.pem"])
        (512 * 0) zeroBlock) = true ∧
      ∃ fs', fs'.get (TestDouble.ecPersona.kexDir "9999999999999999" ++ ["dh.priv.pem"]) =
          some (.file ⟨zeros (512 * 0) ++ "EC PRIV".data.drop (512 * 0)⟩) ∧
        (∀ q, q ≠ TestDouble.ecPersona.kexDir "9999999999999999" ++ ["dh.priv.pem"] →
          fs'.get q = privKeyFs.get q) ∧
        (TestDouble.ecPersona.delDhPriv TestDouble.config "9999999999999999").run writesAtFail
          privKeyFs = (delDhPrivTail TestDouble.ecPersona "9999999999999999").run
            writesAtFail fs' ∧
        ((TestDouble.ecPersona.delDhPriv TestDouble.config "9999999999999999").run writesAtFail
          privKeyFs).1.1 = .ok () :=
  have hh : TestDouble.config.isHexHash "9999999999999999" = true := by decide
  have hres : ¬ reserved TestDouble.config "9999999999999999" := by decide
  have hc : privKeyFs.get (TestDouble.ecPersona.kexDir "9999999999999999" ++ ["dh.priv.pem"]) =
      some (.file "EC PRIV") := rfl
  have hopen : writesAtFail (.openRW (TestDouble.ecPersona.kexDir "9999999999999999" ++
      ["dh.priv.pem"])) = false := rfl
  have hm : 512 * 0 < "EC PRIV".data.length := by decide
  have hok : ∀ i < 0, writesAtFail (.writeAt (TestDouble.ecPersona.kexDir "9999999999999999" ++
      ["dh.priv.pem"]) (512 * i) zeroBlock) = false := fun _ h => absurd h (Nat.not_lt_zero _)
  have hfail : writesAtFail (.writeAt (TestDouble.ecPersona.kexDir "9999999999999999" ++
      ["dh.priv.pem"]) (512 * 0) zeroBlock) = true := rfl
  ⟨hh, hres, hc, hopen, hm, hok, hfail,
    delDhPriv_unshredded_ok TestDouble.ecPersona hh hres hc hopen hm hok hfail⟩

end Persona

end OpmsgKeystore
