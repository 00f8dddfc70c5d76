import OpmsgKeystore.Addressing
import OpmsgKeystore.Publish

/-!
# The kex keys in memory and on disk

A persona keeps its kex keys twice: as boxes in `keys`, and as directories `<base>/<id>/<hex>`
from which `persona::load` rebuilds them (`loadedKeys`). `KeysMirror` says that the two agree.
`mirrors_iff` splits the agreement of a whole reload into its head (link and DH parameters),
the persona directory and the kex keys, and `mirrors_of_load` says that a persona a load
returns mirrors its directory.

What one call does to the agreement: it is kept when only a staging directory of the persona
changed (`KeysMirror.of_sameOutside`), and when a call published the kex directory from which
`load_dh` reads back the box the call stored (`KeysMirror.publish`). `genKexKey_cases` and
`addDhPubkey_cases` say what a run of the two creating calls leaves: its staging directory
and nothing else changed, or the new kex directory holding exactly the files whose box went
into `keys`; `kexRead_genKexKey` and `kexRead_addDhPubkey` say what `load_dh` reads there.
`MirrorRuns` puts these together over runs.

The proof follows the data: `load_keys` reads, for each hex-named entry of the persona
directory, what `load_dh` reads in it (`loadKex_find`), so a call keeps the agreement for
every id whose files it leaves alone.
-/

namespace OpmsgKeystore

open Prog FS

variable {cfg : Config} {K P : Type} (kp : KeyProvider K P)

/-! ## What `load_keys` reads -/

namespace Persona

variable (cfg)

/-- What `load_dh` makes of the kex directory `hex` of a persona: the box it reads, or none
when neither half of the key is there. It depends on the persona's base and id only. -/
def kexRead (fs : FS) (p : Persona K P) (hex : String) : Option (PKEYbox K) :=
  (loadDh cfg kp fs (Persona.new p.cfgbase p.id "") hex).2.keys.find hex

/-- The peer step of `load_dh` leaves the other entries alone. -/
theorem loadDhPeer_find_ne (fs : FS) (p : Persona K P) {hex y : String} (b : PKEYbox K)
    (hy : y ≠ hex) : (loadDhPeer cfg fs p hex b).2.keys.find y = p.keys.find y := by
  unfold loadDhPeer
  split_ifs
  · rw [KeyMap.find_erase, if_neg hy]
  · rw [KeyMap.find_insert, if_neg hy]

/-- What the peer step of `load_dh` stores under `hex` depends on the persona's base and id
only. -/
theorem loadDhPeer_find_self (fs : FS) {p q : Persona K P} (hex : String) (b : PKEYbox K)
    (hb : q.cfgbase = p.cfgbase) (hi : q.id = p.id) :
    (loadDhPeer cfg fs q hex b).2.keys.find hex = (loadDhPeer cfg fs p hex b).2.keys.find hex := by
  unfold loadDhPeer kexDir
  split_ifs
  · rw [KeyMap.find_erase, if_pos rfl, KeyMap.find_erase, if_pos rfl]
  · rw [KeyMap.find_insert, if_pos rfl, KeyMap.find_insert, if_pos rfl, hb, hi]

/-- `load_dh(hex)` sets the entry `hex` to what it reads and leaves the others alone. -/
theorem loadDh_find (fs : FS) (p : Persona K P) {hex : String} (hh : cfg.isHexHash hex = true)
    (y : String) : (loadDh cfg kp fs p hex).2.keys.find y =
      if y = hex then kexRead cfg kp fs p hex else p.keys.find y := by
  unfold kexRead loadDh
  simp only [hh, Bool.true_eq_false, if_false, kexDir, Persona.new]
  split_ifs with hy
  · subst hy
    rcases fs.fopen (p.cfgbase ++ [p.id, y] ++ ["dh.priv.pem"]) with _ | c
    · exact loadDhPeer_find_self cfg fs y _ rfl rfl
    dsimp only
    split_ifs
    · rw [KeyMap.find_insert, if_pos rfl, KeyMap.find_insert, if_pos rfl]
    rcases kp.readPrivateKey c with _ | k
    · rw [KeyMap.find_insert, if_pos rfl, KeyMap.find_insert, if_pos rfl]
    · exact loadDhPeer_find_self cfg fs y _ rfl rfl
  · rcases fs.fopen (p.cfgbase ++ [p.id, hex] ++ ["dh.priv.pem"]) with _ | c
    · rw [loadDhPeer_find_ne cfg fs _ _ hy, KeyMap.find_insert, if_neg hy]
    dsimp only
    split_ifs
    · rw [KeyMap.find_insert, if_neg hy]
    rcases kp.readPrivateKey c with _ | k
    · rw [KeyMap.find_insert, if_neg hy]
    · rw [loadDhPeer_find_ne cfg fs _ _ hy, KeyMap.find_insert, if_neg hy]

/-- `load_keys` of a directory: every hex-named entry of the persona directory gets what
`load_dh` reads for it; no other entry changes. -/
theorem loadKex_find (fs : FS) (p : Persona K P) (y : String) :
    (loadKex cfg kp fs p "").2.keys.find y =
      if fs.isDir p.dir ∧ cfg.isHexHash y = true ∧ (fs.get (p.dir ++ [y])).isSome then
        kexRead cfg kp fs p y
      else p.keys.find y := by
  have hfold : ∀ (l : List String) (q : Persona K P), q.cfgbase = p.cfgbase → q.id = p.id →
      (l.foldl (fun p hex => if cfg.isHexHash hex then (loadDh cfg kp fs p hex).2 else p) q).keys.find y =
        if cfg.isHexHash y = true ∧ y ∈ l then kexRead cfg kp fs p y else q.keys.find y := by
    intro l
    induction l with
    | nil => simp
    | cons x l ih =>
      intro q hb hi
      rw [List.foldl_cons]
      by_cases hx : cfg.isHexHash x = true
      · obtain ⟨keys, hk⟩ := loadDh_snd cfg kp fs q x
        rw [if_pos hx, ih _ (by rw [hk]; exact hb) (by rw [hk]; exact hi), loadDh_find cfg kp fs q hx]
        simp only [kexRead, hb, hi, List.mem_cons]
        by_cases hyx : y = x <;> simp [hyx, hx]
      · rw [if_neg hx, ih q hb hi]
        by_cases hyx : y = x
        · subst hyx
          simp [hx]
        · simp [hyx]
  unfold loadKex
  simp only [String.data, List.length_nil, gt_iff_lt, lt_irrefl, if_false]
  by_cases hd : fs.isDir p.dir
  · rw [if_neg (not_not.mpr hd), hfold _ p rfl rfl]
    simp only [mem_readdir, hd, true_and]
  · rw [if_pos hd]
    simp [hd]


/-- The kex keys `persona::load` reads from the directory of `p`. -/
def loadedKeys (fs : FS) (p : Persona K P) : KeyMap (PKEYbox K) :=
  (loadKex cfg kp fs { p with keys := .empty } "").2.keys

/-- The in-memory kex keys of `p` are those `persona::load` reads back from `fs`. -/
def KeysMirror (fs : FS) (p : Persona K P) : Prop :=
  ∀ hex, p.keys.find hex = (loadedKeys cfg kp fs p).find hex

theorem loadedKeys_find (fs : FS) (p : Persona K P) (y : String) :
    (loadedKeys cfg kp fs p).find y =
      if fs.isDir p.dir ∧ cfg.isHexHash y = true ∧ (fs.get (p.dir ++ [y])).isSome then
        kexRead cfg kp fs p y
      else none := by
  rw [loadedKeys, loadKex_find]
  rfl

/-- The key files `load_dh` reads in a kex directory. -/
def kexFiles : List String := ["dh.pub.pem", "dh.priv.pem", "peer"]

/-- `load_dh` reads only the three key files of the kex directory. -/
theorem kexRead_congr {fs fs' : FS} {p : Persona K P} {hex : String}
    (h : ∀ x ∈ kexFiles, fs'.get (p.dir ++ [hex, x]) = fs.get (p.dir ++ [hex, x])) :
    kexRead cfg kp fs' p hex = kexRead cfg kp fs p hex := by
  have hf : ∀ x ∈ kexFiles, fs'.fopen (p.cfgbase ++ [p.id, hex] ++ [x]) =
      fs.fopen (p.cfgbase ++ [p.id, hex] ++ [x]) := fun x hx => by
    simpa [FS.fopen, Persona.dir] using congrArg (fun o => match o with
      | some (Node.file c) => some c | some .dir => some "" | none => none) (h x hx)
  simp only [kexRead, loadDh, loadDhPeer, kexDir, Persona.new, hf "dh.pub.pem" (by simp [kexFiles]),
    hf "dh.priv.pem" (by simp [kexFiles]), hf "peer" (by simp [kexFiles])]

/-- The entry `y` of the loaded keys depends on the persona directory, the entry `<dir>/<y>`
and its key files only. -/
theorem loadedKeys_find_congr {fs fs' : FS} {p : Persona K P} {y : String}
    (hd : fs'.get p.dir = fs.get p.dir) (hy : fs'.get (p.dir ++ [y]) = fs.get (p.dir ++ [y]))
    (hx : ∀ x ∈ kexFiles, fs'.get (p.dir ++ [y, x]) = fs.get (p.dir ++ [y, x])) :
    (loadedKeys cfg kp fs' p).find y = (loadedKeys cfg kp fs p).find y := by
  simp only [loadedKeys_find, FS.isDir, hd, hy, kexRead_congr cfg kp hx]

/-- The same, when nothing at or below `<dir>/<y>` changed. -/
theorem loadedKeys_find_of_below {fs fs' : FS} {p : Persona K P} {y : String}
    (hd : fs'.get p.dir = fs.get p.dir) (hy : ∀ q, p.dir ++ [y] <+: q → fs'.get q = fs.get q) :
    (loadedKeys cfg kp fs' p).find y = (loadedKeys cfg kp fs p).find y :=
  loadedKeys_find_congr cfg kp hd (hy _ (List.prefix_refl _)) fun x _ => hy _ ⟨[x], by simp⟩

theorem loadedKeys_find_of_not_hex (fs : FS) (p : Persona K P) {y : String}
    (hy : cfg.isHexHash y = false) : (loadedKeys cfg kp fs p).find y = none := by
  simp [loadedKeys_find, hy]

/-! ## What `persona::load` reads before the kex keys -/

/-- `persona::load` up to `load_keys`: the id checks, the type, `name`, `srclink`, the
long-term key and the DH parameters. -/
def loadHead (fs : FS) (p : Persona K P) (dhHex : String) : Except String Unit × Persona K P :=
  if cfg.isHexHash p.id = false then (.error "load: Not a valid persona id", p)
  else if dhHex.data.length > 0 ∧ cfg.isHexHash dhHex = false then
    (.error "load: Not a valid session-key hex id", p)
  else
  match (if p.ptype = .unknown then checkType cfg fs p else (.ok (), p)) with
  | (.error m, p) => (.error m, p)
  | (.ok (), p) =>
  let p := match fs.fopen (p.dir ++ ["name"]) with
    | some c => { p with name := readLine c }
    | none => p
  let p := match fs.fopen (p.dir ++ ["srclink"]) with
    | some c => { p with linkSrc := readLine c }
    | none => p
  match loadLongTerm kp fs p with
  | .error m => (.error m, p)
  | .ok box =>
  let p := { p with pkey := some box }
  match readDhParams kp fs p with
  | .error m => (.error m, p)
  | .ok dh => (.ok (), match dh with
    | some b => { p with dhParams := some b }
    | none => p)

/-- `persona::load` is `loadHead` followed by `load_keys`. -/
theorem load_eq_loadHead (fs : FS) (p : Persona K P) (dhHex : String) :
    p.load cfg kp fs dhHex = match loadHead cfg kp fs p dhHex with
      | (.ok (), q) => loadKex cfg kp fs q dhHex
      | r => r := by
  unfold load loadHead
  generalize (if p.ptype = .unknown then checkType cfg fs p else (.ok (), p)) = r
  split_ifs <;> try rfl
  rcases r with ⟨m | ⟨⟩, q⟩
  · rfl
  simp only [Persona.dir, List.append_assoc, List.singleton_append]
  rcases fs.fopen (q.cfgbase ++ [q.id, "name"]) with _ | cn <;>
  rcases fs.fopen (q.cfgbase ++ [q.id, "srclink"]) with _ | cl <;>
  dsimp only <;>
  generalize loadLongTerm kp fs _ = L <;>
  rcases L with m | box <;> try rfl
  all_goals
    dsimp only
    generalize readDhParams kp fs _ = D
    rcases D with m | _ | b <;> rfl

/-- `loadHead` keeps the base, the id and the kex keys. -/
theorem loadHead_snd (fs : FS) (p : Persona K P) (dhHex : String) :
    (loadHead cfg kp fs p dhHex).2.cfgbase = p.cfgbase ∧ (loadHead cfg kp fs p dhHex).2.id = p.id ∧
      (loadHead cfg kp fs p dhHex).2.keys = p.keys := by
  obtain ⟨t, ht⟩ : ∃ t, (if p.ptype = .unknown then checkType cfg fs p else (.ok (), p)).2 =
      { p with ptype := t } := by
    split_ifs
    · exact checkType_snd cfg fs p
    · exact ⟨p.ptype, rfl⟩
  unfold loadHead
  generalize (if p.ptype = .unknown then checkType cfg fs p else (.ok (), p)) = r at ht ⊢
  split_ifs
  · exact ⟨rfl, rfl, rfl⟩
  · exact ⟨rfl, rfl, rfl⟩
  obtain ⟨e, q⟩ := r
  dsimp only at ht
  subst ht
  rcases e with m | ⟨⟩
  · exact ⟨rfl, rfl, rfl⟩
  simp only [Persona.dir, List.append_assoc, List.singleton_append]
  rcases fs.fopen (p.cfgbase ++ [p.id, "name"]) with _ | cn <;>
  rcases fs.fopen (p.cfgbase ++ [p.id, "srclink"]) with _ | cl <;>
  dsimp only <;>
  generalize loadLongTerm kp fs _ = L <;>
  rcases L with m | box <;> try exact ⟨rfl, rfl, rfl⟩
  all_goals
    dsimp only
    generalize readDhParams kp fs _ = D
    rcases D with m | _ | b <;> exact ⟨rfl, rfl, rfl⟩

/-- The names `loadHead` reads in a persona directory. -/
def headFiles : List String :=
  [PType.rsa.pubFile, PType.ec.pubFile, PType.unknown.pubFile, PType.rsa.privFile,
    PType.ec.privFile, PType.unknown.privFile, "name", "srclink", "dhparams.pem"]

theorem pubFile_mem_headFiles (t : PType) : t.pubFile ∈ headFiles := by
  cases t <;> simp [headFiles]

theorem privFile_mem_headFiles (t : PType) : t.privFile ∈ headFiles := by
  cases t <;> simp [headFiles]

/-- Every name `loadHead` reads has a letter beyond `f`, so it is not a hex id. -/
theorem headFiles_letter : ∀ x ∈ headFiles, ∃ c ∈ x.data, ¬ isLowerHexDigit c := by
  decide

theorem headFiles_not_hex {x : String} (hx : x ∈ headFiles) : cfg.isHexHash x = false := by
  obtain ⟨c, hc, hd⟩ := headFiles_letter x hx
  exact isHexHash_of_mem hc hd

/-! ## The persona a load of its directory rebuilds -/

/-- A load of `p`'s directory succeeds and rebuilds `p` as far as the directory records it: the
source link, the DH parameters and every kex key. -/
def Mirrors (fs : FS) (p : Persona K P) : Prop :=
  ∃ q, (Persona.new p.cfgbase p.id "" : Persona K P).load cfg kp fs "" = (.ok (), q) ∧
    q.linkSrc = p.linkSrc ∧ q.dhParams = p.dhParams ∧ ∀ hex, q.keys.find hex = p.keys.find hex

/-- The part of the load before the kex keys succeeds and rebuilds `p`'s link and DH
parameters. -/
def HeadMirror (fs : FS) (p : Persona K P) : Prop :=
  ∃ m, loadHead cfg kp fs (Persona.new p.cfgbase p.id "") "" = (.ok (), m) ∧
    m.linkSrc = p.linkSrc ∧ m.dhParams = p.dhParams

/-- The mirror in three parts: the head of the load, the persona directory, and the kex keys. -/
theorem mirrors_iff (fs : FS) (p : Persona K P) :
    Mirrors cfg kp fs p ↔ HeadMirror cfg kp fs p ∧ fs.isDir p.dir ∧ KeysMirror cfg kp fs p := by
  obtain ⟨hb, hi, hk⟩ := loadHead_snd cfg kp fs (Persona.new p.cfgbase p.id "" : Persona K P) ""
  unfold Mirrors HeadMirror
  rw [load_eq_loadHead]
  generalize loadHead cfg kp fs (Persona.new p.cfgbase p.id "") "" = r at hb hi hk ⊢
  rcases r with ⟨_ | ⟨⟩, m⟩
  · simp
  dsimp only [Persona.new] at hb hi hk ⊢
  have hdir : m.dir = p.dir := by simp only [Persona.dir, hb, hi]
  have hfind : ∀ y, (loadKex cfg kp fs m "").2.keys.find y = (loadedKeys cfg kp fs p).find y :=
    fun y => by simp only [loadKex_find, loadedKeys_find, hdir, hk, kexRead, hb, hi, KeyMap.find_empty]
  by_cases hd : fs.isDir p.dir
  · rw [loadKex_eq cfg kp (hdir ▸ hd)]
    constructor
    · rintro ⟨q, hq, hl, hdh, hkeys⟩
      obtain ⟨-, rfl⟩ := Prod.mk.inj hq
      exact ⟨⟨m, rfl, hl, hdh⟩, hd, fun y => (hkeys y).symm.trans (hfind y)⟩
    · rintro ⟨⟨m', hm', hl, hdh⟩, -, hkm⟩
      obtain ⟨-, rfl⟩ := Prod.mk.inj hm'
      exact ⟨_, rfl, hl, hdh, fun y => (hfind y).trans (hkm y).symm⟩
  · have h1 : loadKex cfg kp fs m "" = (.error "load_keys::opendir:", m) := by
      simp [loadKex, hdir, hd]
    simp [h1, hd]

/-- A persona that `persona::load("")` of a new persona record returns mirrors its directory. -/
theorem mirrors_of_load {fs : FS} {base : Path} {hex : String} {q : Persona K P}
    (h : (Persona.new base hex "" : Persona K P).load cfg kp fs "" = (.ok (), q)) :
    Mirrors cfg kp fs q := by
  obtain ⟨hb, hi, -⟩ := load_pkey cfg kp fs (Persona.new base hex "" : Persona K P) ""
  rw [h] at hb hi
  refine ⟨q, ?_, rfl, rfl, fun _ => rfl⟩
  rw [hb, hi]
  exact h

end Persona

/-! ## Runs of the creating calls -/

section Steps

variable {env : Env} {fs fs' : FS} {α : Type} {a e : α} {k : Prog α}

/-- `open(O_CREAT|O_EXCL)`, `fdopen` and `fwrite` of an entry of the staging directory `d`:
one of their errors with only `d` changed, or the entry holds a part `c` of the non-empty
`data`, all of it when no write fails. -/
theorem run_create_fwrite {d : Path} {files : String → Option Node} (hd : fs.DirHolds d files)
    {x data : String} {e₁ e₂ e₃ : α} {k : Bool → Prog α}
    (h : (check (.openExcl (d ++ [x])) e₁ (check (.fdopen (d ++ [x])) e₂
      (fwrite (d ++ [x]) data e₃ k))).run env fs = (a, fs')) :
    ((a = e₁ ∨ a = e₂ ∨ a = e₃) ∧ SameOutside d fs fs') ∨ ∃ fs1 c b, 0 < data.length ∧
      (env.WritesOk → c = data) ∧ fs1.DirHolds d (putFile files x (.file c)) ∧
      SameOutside d fs fs1 ∧ (k b).run env fs1 = (a, fs') := by
  rcases run_check_cases h with ⟨rfl, rfl⟩ | ⟨hok, h⟩
  · exact .inl ⟨.inl rfl, .refl _ _⟩
  rw [step_openExcl_of_ok hok] at h
  have hs1 : SameOutside d fs (fs.set (d ++ [x]) (.file "")) := sameOutside_set x _
  rcases run_check_cases h with ⟨rfl, rfl⟩ | ⟨-, h⟩
  · exact .inl ⟨.inr (.inl rfl), hs1⟩
  rw [step_fdopen] at h
  rcases run_fwrite_cases (e := e₃) (k := k) (FS.get_set_self fs (d ++ [x]) (.file "")) with
    he | ⟨fs1, c, b, hpos, hget, hother, hw, hrun⟩
  · obtain ⟨rfl, rfl⟩ := Prod.mk.inj (he.symm.trans h)
    exact .inl ⟨.inr (.inr rfl), hs1⟩
  rw [String.empty_append] at hget
  obtain ⟨hd1, hs⟩ := (hd.set x (.file "")).of_entry hget hother
  rw [putFile_putFile] at hd1
  exact .inr ⟨fs1, c, b, hpos, fun hok => (hw hok).1, hd1, hs1.trans hs, hrun ▸ h⟩

/-- The clean-up of a staging directory `d`, and any program that touches nothing outside it:
what it returns satisfies what all its returns satisfy, and only `d` changed. -/
theorem run_inside {d : Path} {Q : α → Prop} (hk : ∀ q, ¬ d <+: q → k.Avoids q)
    (hQ : k.Returns Q) (h : k.run env fs = (a, fs')) : Q a ∧ SameOutside d fs fs' := by
  have h1 := run_fst_of_returns hQ env fs
  have h2 := sameOutside_run hk env fs
  rw [h] at h1 h2
  exact ⟨h1, h2⟩

/-- `publish tmpdir hexdir`: the clean-up ran, or the `rename` moved the staging directory. -/
theorem run_publish {tmpdir hexdir : Path} {x : α} {onFail : Prog α}
    (h : (Persona.publish tmpdir hexdir (ret x) onFail).run env fs = (a, fs')) :
    onFail.run env fs = (a, fs') ∨
      (a = x ∧ ¬ tmpdir <+: hexdir ∧ ¬ hexdir <+: tmpdir ∧ fs' = fs.move tmpdir hexdir) := by
  simp only [Persona.publish, run_call, step_stat] at h
  split_ifs at h
  · exact .inl h
  simp only [run_call] at h
  by_cases hok : ((Call.rename tmpdir hexdir).step env fs).1.ok
  · rw [if_pos hok] at h
    obtain ⟨hsd, hds, hstep⟩ := step_rename_of_ok hok
    rw [hstep] at h
    obtain ⟨rfl, rfl⟩ := Prod.mk.inj h
    exact .inr ⟨rfl, hsd, hds, rfl⟩
  · rw [if_neg hok, step_snd_of_not_ok (by simpa using hok)] at h
    exact .inl h

/-- The files of a kex directory after the peer step: `peer` with its newline when it is
recorded. -/
def withPeer (files : String → Option Node) (peer : String) : String → Option Node :=
  if peer.data.length > 0 then putFile files "peer" (.file (peer ++ "\n")) else files

/-- The peer step of `gen_kex_key`, for a peer that is empty or a valid id whose file the
environment lets it open and write: the peer is recorded, and only `d` changed. -/
theorem run_writePeer {cfg : Config} {d : Path} {files : String → Option Node} {peer : String}
    (hd : fs.DirHolds d files) (hnone : files "peer" = none)
    (hpeer : peer = "" ∨ (cfg.isHexHash peer = true ∧ env (.openTrunc (d ++ ["peer"])) = false ∧
      env (.write (d ++ ["peer"]) (peer ++ "\n")) = false))
    (h : (Persona.writePeer cfg (d ++ ["peer"]) peer k).run env fs = (a, fs')) :
    ∃ fs1, fs1.DirHolds d (withPeer files peer) ∧ SameOutside d fs fs1 ∧ k.run env fs1 = (a, fs') := by
  unfold Persona.writePeer at h
  unfold withPeer
  by_cases hw : peer.data.length > 0 ∧ cfg.isHexHash peer = true
  · rw [if_pos hw] at h
    rw [if_pos hw.1]
    obtain ⟨ho, hwr⟩ : env (.openTrunc (d ++ ["peer"])) = false ∧
        env (.write (d ++ ["peer"]) (peer ++ "\n")) = false := by
      rcases hpeer with rfl | ⟨-, ho, hwr⟩
      · simp at hw
      · exact ⟨ho, hwr⟩
    have h1 : (Call.openTrunc (d ++ ["peer"])).step env fs =
        (.status true, fs.set (d ++ ["peer"]) (.file "")) := by
      simp [Call.step, ho, Call.exec, hd.2, hnone, FS.isDir, hd.1]
    have h2 : (Call.write (d ++ ["peer"]) (peer ++ "\n")).step env (fs.set (d ++ ["peer"]) (.file "")) =
        (.status true, (fs.set (d ++ ["peer"]) (.file "")).set (d ++ ["peer"]) (.file ("" ++ (peer ++ "\n")))) := by
      simp [Call.step, hwr, Call.exec]
    simp only [run_call, h1, h2, Reply.ok, if_true] at h
    exact ⟨_, by simpa using (hd.set "peer" (.file "")).set "peer" (.file ("" ++ (peer ++ "\n"))),
      (sameOutside_set _ _).trans (sameOutside_set _ _), h⟩
  · rw [if_neg hw] at h
    have hl : ¬ peer.data.length > 0 := fun hl => hw ⟨hl, by
      rcases hpeer with rfl | ⟨hh, -⟩
      · simp at hl
      · exact hh⟩
    rw [if_neg hl]
    exact ⟨fs, hd, .refl _ _, h⟩

end Steps

namespace Persona

variable {md : Md cfg} {p p' : Persona K P} {tv : Timeval} {pid : Nat} {env : Env} {fs fs' : FS}

/-- The clean-up of the kex staging directory touches nothing outside it. -/
theorem avoids_of_not_prefix {α : Type} {tmp q : Path} (hq : ¬ tmp <+: q) (xs : List String)
    {x : α} : (xs.foldr (fun f k => seq (.unlink (tmp ++ [f])) k) (seq (.rmdir tmp) (ret x))).Avoids q := by
  have hx : ∀ f, q ≠ tmp ++ [f] := fun f e => hq (e ▸ List.prefix_append _ _)
  have ht : q ≠ tmp := fun e => hq (e ▸ List.prefix_refl _)
  induction xs with
  | nil => simp [Call.touches, ht]
  | cons f xs ih => simp [Call.touches, hx f, ih]

/-- What a run of `gen_kex_key` from a tree leaves, when the peer is empty or a valid id whose
file the environment lets it write. The persona is unchanged and only the staging directory
changed; or the key material parsed, the persona has the new box under its id, the new kex
directory holds exactly the two key files and the peer, and nothing else outside the staging
directory changed. -/
theorem genKexKey_cases {peer : String} {seed : Nat} {r : Except String (PKEYbox K)}
    (htree : fs.Tree)
    (hpeer : peer = "" ∨ (cfg.isHexHash peer = true ∧
      env (.openTrunc (p.dir ++ [uniqueName tv pid] ++ ["peer"])) = false ∧
      env (.write (p.dir ++ [uniqueName tv pid] ++ ["peer"]) (peer ++ "\n")) = false))
    (h : (p.genKexKey cfg kp md peer seed tv pid).run env fs = ((r, p'), fs')) :
    (p' = p ∧ SameOutside (p.dir ++ [uniqueName tv pid]) fs fs') ∨
    ∃ pubPem privPem hex kpub kpriv, kexMaterial cfg kp md p seed = .ok (pubPem, privPem, hex) ∧
      kp.readPubkey pubPem = some kpub ∧ kp.readPrivateKey privPem = some kpriv ∧
      0 < pubPem.length ∧ 0 < privPem.length ∧
      p' = { p with keys := p.keys.insert hex ⟨some kpub, some kpriv, pubPem, privPem, hex, peer⟩ } ∧
      (∀ q, ¬ p.dir ++ [uniqueName tv pid] <+: q → ¬ p.kexDir hex <+: q → fs'.get q = fs.get q) ∧
      ∃ c₁ c₂, (env.WritesOk → c₁ = pubPem ∧ c₂ = privPem) ∧
        fs'.DirHolds (p.kexDir hex) (withPeer (putFile (putFile (fun _ => none)
          "dh.pub.pem" (.file c₁)) "dh.priv.pem" (.file c₂)) peer) := by
  unfold genKexKey at h
  split at h
  · exact .inl ⟨(Prod.mk.inj (Prod.mk.inj h).1).2.symm, (Prod.mk.inj h).2 ▸ .refl _ _⟩
  rename_i pubPem privPem hex hmat
  split at h
  · exact .inl ⟨(Prod.mk.inj (Prod.mk.inj h).1).2.symm, (Prod.mk.inj h).2 ▸ .refl _ _⟩
  split at h
  · exact .inl ⟨(Prod.mk.inj (Prod.mk.inj h).1).2.symm, (Prod.mk.inj h).2 ▸ .refl _ _⟩
  rename_i kpub hkpub
  split at h
  · exact .inl ⟨(Prod.mk.inj (Prod.mk.inj h).1).2.symm, (Prod.mk.inj h).2 ▸ .refl _ _⟩
  rename_i kpriv hkpriv
  dsimp only at h
  rcases run_check_cases h with ⟨he, rfl⟩ | ⟨hok, h⟩
  · exact .inl ⟨(Prod.mk.inj he).2, .refl _ _⟩
  obtain ⟨hn, hne, hstep⟩ := step_mkdir_of_ok hok
  rw [hstep] at h
  have hs0 : SameOutside (p.dir ++ [uniqueName tv pid]) fs
      (fs.set (p.dir ++ [uniqueName tv pid]) .dir) := fun q hq => by
    rw [get_set, if_neg (by rintro rfl; exact hq (List.prefix_refl _))]
  dsimp only at h
  rcases run_create_fwrite (htree.dirHolds_set hne hn) h with
    ⟨he, hs⟩ | ⟨fs1, c₁, -, hpub, hc₁, hd1, hs1, h⟩
  · exact .inl ⟨by rcases he with he | he | he <;> exact (Prod.mk.inj he).2, hs0.trans hs⟩
  rcases run_create_fwrite hd1 h with ⟨he, hs⟩ | ⟨fs2, c₂, -, hpriv, hc₂, hd2, hs2, h⟩
  · exact .inl ⟨by rcases he with he | he | he <;> exact (Prod.mk.inj he).2, (hs0.trans hs1).trans hs⟩
  obtain ⟨fs3, hd3, hs3, h⟩ := run_writePeer hd2 (by simp [putFile_apply]) hpeer h
  have hs03 := ((hs0.trans hs1).trans hs2).trans hs3
  rcases run_publish h with h | ⟨hr, hsd, hds, rfl⟩
  · obtain ⟨hp, hs4⟩ := run_inside (Q := fun x : Except String (PKEYbox K) × Persona K P => x.2 = p)
      (fun q hq => avoids_of_not_prefix hq ["dh.pub.pem", "dh.priv.pem", "peer"]) (by simp) h
    exact .inl ⟨hp, hs03.trans hs4⟩
  obtain ⟨-, rfl⟩ := Prod.mk.inj hr
  refine .inr ⟨pubPem, privPem, hex, kpub, kpriv, hmat, hkpub, hkpriv, hpub, hpriv, rfl,
    fun q hqt hqd => ?_, c₁, c₂, fun hw => ⟨hc₁ hw, hc₂ hw⟩, hd3.move hsd hds⟩
  rw [get_move _ hsd hds, if_neg hqd, if_neg hqt, hs03 q hqt]

/-- An id `add_dh_pubkey` computes comes with a key parsed from the caller's PEM, and the PEM it
stores is that PEM or, for an EC key, its normalised text. -/
theorem dhPubkeyId_ok {pem pem' hex : String} {k : K}
    (h : dhPubkeyId cfg kp md pem = (.ok (k, hex), pem')) :
    kp.readPubkey pem = some k ∧ (pem' = pem ∨ normalizeAndHexhash md pem = (pem', some hex)) := by
  unfold dhPubkeyId at h
  split at h
  · cases h
  rename_i k' hk
  split at h
  · split at h
    · cases h
    · obtain ⟨⟨⟩, rfl⟩ := Prod.mk.inj h
      exact ⟨hk, .inl rfl⟩
  · split at h
    · cases h
    · rename_i hn
      obtain ⟨⟨⟩, rfl⟩ := Prod.mk.inj h
      exact ⟨hk, .inr hn⟩
  · cases h

/-- With a provider that does not parse the empty text, the PEM `add_dh_pubkey` stores for an id
it computes is not empty. -/
theorem dhPubkeyId_pem_pos (hempty : kp.readPubkey "" = none) {pem pem' hex : String} {k : K}
    (h : dhPubkeyId cfg kp md pem = (.ok (k, hex), pem')) : 0 < pem'.data.length := by
  obtain ⟨hk, rfl | hn⟩ := dhPubkeyId_ok kp h
  exacts [KeyProvider.length_pos_of_read hempty hk, normalizeAndHexhash_length_pos hn]

/-- What a run of `add_dh_pubkey` from a tree leaves: the persona unchanged and only the
staging directory changed; or the key parsed under its id, the persona has the new box, and
the new kex directory holds exactly the stored PEM. -/
theorem addDhPubkey_cases {pem pem'' : String} {r : Except String (PKEYbox K)} (htree : fs.Tree)
    (h : (p.addDhPubkey cfg kp md pem tv pid).run env fs = ((r, p', pem''), fs')) :
    (p' = p ∧ SameOutside (p.dir ++ [uniqueName tv pid]) fs fs') ∨
    ∃ kpub hex pem', dhPubkeyId cfg kp md pem = (.ok (kpub, hex), pem') ∧ 0 < pem'.length ∧
      p' = { p with keys := p.keys.insert hex ⟨some kpub, none, pem', "", hex, ""⟩ } ∧
      (∀ q, ¬ p.dir ++ [uniqueName tv pid] <+: q → ¬ p.kexDir hex <+: q → fs'.get q = fs.get q) ∧
      ∃ c, (env.WritesOk → c = pem') ∧
        fs'.DirHolds (p.kexDir hex) (putFile (fun _ => none) "dh.pub.pem" (.file c)) := by
  unfold addDhPubkey at h
  split at h
  · exact .inl ⟨(Prod.mk.inj (Prod.mk.inj (Prod.mk.inj h).1).2).1.symm, (Prod.mk.inj h).2 ▸ .refl _ _⟩
  rename_i kpub hex pem' hid
  split at h
  · exact .inl ⟨(Prod.mk.inj (Prod.mk.inj (Prod.mk.inj h).1).2).1.symm, (Prod.mk.inj h).2 ▸ .refl _ _⟩
  dsimp only at h
  rcases run_check_cases h with ⟨he, rfl⟩ | ⟨hok, h⟩
  · exact .inl ⟨(Prod.mk.inj (Prod.mk.inj he).2).1, .refl _ _⟩
  obtain ⟨hn, hne, hstep⟩ := step_mkdir_of_ok hok
  rw [hstep] at h
  have hs0 : SameOutside (p.dir ++ [uniqueName tv pid]) fs
      (fs.set (p.dir ++ [uniqueName tv pid]) .dir) := fun q hq => by
    rw [get_set, if_neg (by rintro rfl; exact hq (List.prefix_refl _))]
  dsimp only at h
  rcases run_create_fwrite (htree.dirHolds_set hne hn) h with
    ⟨he, hs⟩ | ⟨fs1, c, -, hlen, hc, hd1, hs1, h⟩
  · exact .inl ⟨by rcases he with he | he | he <;> exact (Prod.mk.inj (Prod.mk.inj he).2).1,
      hs0.trans hs⟩
  rcases run_publish h with h | ⟨hr, hsd, hds, rfl⟩
  · obtain ⟨hp, hs2⟩ := run_inside
      (Q := fun x : Except String (PKEYbox K) × Persona K P × String => x.2.1 = p)
      (fun q hq => avoids_of_not_prefix hq ["dh.pub.pem"]) (by simp) h
    exact .inl ⟨hp, (hs0.trans hs1).trans hs2⟩
  obtain ⟨rfl, -⟩ := Prod.mk.inj (Prod.mk.inj hr).2
  refine .inr ⟨kpub, hex, pem', hid, hlen, rfl, fun q hqt hqd => ?_, c, hc, hd1.move hsd hds⟩
  rw [get_move _ hsd hds, if_neg hqd, if_neg hqt, (hs0.trans hs1) q hqt]

/-! ## What `load_dh` reads in a new kex directory -/

/-- `load_dh` reads back the box `gen_kex_key` stored, when its texts fit the 8192-byte reads
and its peer is empty or a valid id. -/
theorem kexRead_genKexKey {hex pubPem privPem peer : String} {kpub kpriv : K}
    (hd : fs.DirHolds (p.kexDir hex) (withPeer (putFile (putFile (fun _ => none)
      "dh.pub.pem" (.file pubPem)) "dh.priv.pem" (.file privPem)) peer))
    (hh : cfg.isHexHash hex = true) (hkpub : kp.readPubkey pubPem = some kpub)
    (hkpriv : kp.readPrivateKey privPem = some kpriv) (hpub : 0 < pubPem.length)
    (hpriv : 0 < privPem.length) (hpl : pubPem.length ≤ 8192) (hprl : privPem.length ≤ 8192)
    (hpeer : peer = "" ∨ cfg.isHexHash peer = true) :
    kexRead cfg kp fs p hex = some ⟨some kpub, some kpriv, pubPem, privPem, hex, peer⟩ := by
  have hget : ∀ x, fs.get (p.cfgbase ++ [p.id, hex, x]) = withPeer (putFile (putFile
      (fun _ => none) "dh.pub.pem" (.file pubPem)) "dh.priv.pem" (.file privPem)) peer x :=
    fun x => by simpa [kexDir] using hd.2 x
  have hpub' : pubPem.data.length ≠ 0 := Nat.pos_iff_ne_zero.mp hpub
  have hpriv' : privPem.data.length ≠ 0 := Nat.pos_iff_ne_zero.mp hpriv
  have hcase : peer = "" ∨ (peer.data.length > 0 ∧ cfg.isHexHash peer = true) := by
    by_cases hl : peer.data.length > 0
    · exact hpeer.imp_right fun hph => ⟨hl, hph⟩
    · exact .inl (String.ext (List.eq_nil_of_length_eq_zero (by omega)))
  unfold kexRead loadDh loadDhPeer
  rcases hcase with rfl | ⟨hl, hph⟩
  · simp [hh, Persona.new, kexDir, FS.fopen, hget, withPeer, putFile_apply, hkpub, hkpriv, hpub',
      hpriv', hpub.ne', hpriv.ne', freadBuf_of_length_le hpl, freadBuf_of_length_le hprl, PKEYbox.new]
  · obtain ⟨hn, hz, h510⟩ := isHexHash_line hph
    have hl' : 0 < peer.length := hl
    simp [hh, Persona.new, kexDir, FS.fopen, hget, withPeer, putFile_apply, hkpub, hkpriv, hpub',
      hpriv', hpub.ne', hpriv.ne', freadBuf_of_length_le hpl, freadBuf_of_length_le hprl, PKEYbox.new, hl, hl',
      readLine_line hn hz h510, hph]

/-- `load_dh` reads back the box `add_dh_pubkey` stored, when the provider reads the key back
from the stored text and the text fits the 8192-byte read. -/
theorem kexRead_addDhPubkey {hex pem : String} {kpub : K}
    (hd : fs.DirHolds (p.kexDir hex) (putFile (fun _ => none) "dh.pub.pem" (.file pem)))
    (hh : cfg.isHexHash hex = true) (hk : kp.readPubkey pem = some kpub) (hlen : 0 < pem.length)
    (hl : pem.length ≤ 8192) :
    kexRead cfg kp fs p hex = some ⟨some kpub, none, pem, "", hex, ""⟩ := by
  have hget : ∀ x, fs.get (p.cfgbase ++ [p.id, hex, x]) =
      putFile (fun _ => none) "dh.pub.pem" (.file pem) x := fun x => by simpa [kexDir] using hd.2 x
  have hlen' : pem.data.length ≠ 0 := Nat.pos_iff_ne_zero.mp hlen
  unfold kexRead loadDh loadDhPeer
  simp [hh, Persona.new, kexDir, FS.fopen, hget, putFile_apply, hk, hlen', hlen.ne', freadBuf_of_length_le hl,
    PKEYbox.new]

theorem kexDir_eq (p : Persona K P) (hex : String) : p.kexDir hex = p.dir ++ [hex] := by
  simp [kexDir, dir]

/-! ## The mirror, call by call -/

theorem dir_not_below_child (p : Persona K P) (x : String) (q : Path) (hq : q = p.dir) :
    ¬ p.dir ++ [x] <+: q := fun h => by simpa [hq] using h.length_le

/-- The kex keys stay mirrored when only a staging directory of the persona changed. -/
theorem KeysMirror.of_sameOutside (hm : KeysMirror cfg kp fs p)
    (hs : SameOutside (p.dir ++ [uniqueName tv pid]) fs fs') : KeysMirror cfg kp fs' p := by
  intro y
  rw [hm y]
  by_cases hy : cfg.isHexHash y = true
  · exact (loadedKeys_find_of_below cfg kp (hs _ (dir_not_below_child p _ _ rfl))
      fun q hq => hs q (not_prefix_of_sibling (ne_uniqueName hy tv pid) hq)).symm
  · simp only [Bool.not_eq_true] at hy
    rw [loadedKeys_find_of_not_hex cfg kp _ _ hy, loadedKeys_find_of_not_hex cfg kp _ _ hy]

/-- The kex keys stay mirrored when a call published the kex directory `hex`, from which
`load_dh` reads the box the call put under `hex`, and changed nothing else outside its staging
directory. -/
theorem KeysMirror.publish {hex : String} {b : PKEYbox K} (hm : KeysMirror cfg kp fs p)
    (htree : fs'.Tree) (hh : cfg.isHexHash hex = true)
    (hframe : ∀ q, ¬ p.dir ++ [uniqueName tv pid] <+: q → ¬ p.kexDir hex <+: q →
      fs'.get q = fs.get q)
    (hdir : fs'.get (p.kexDir hex) = some .dir) (hread : kexRead cfg kp fs' p hex = some b) :
    KeysMirror cfg kp fs' { p with keys := p.keys.insert hex b } := by
  rw [kexDir_eq] at hframe hdir
  intro y
  show (p.keys.insert hex b).find y = (loadedKeys cfg kp fs' p).find y
  rw [KeyMap.find_insert]
  split_ifs with hy
  · subst hy
    have hpd : fs'.isDir p.dir := by
      simpa using htree.isDir_dropLast (p := p.dir ++ [y]) (by simp [hdir])
    rw [loadedKeys_find, if_pos ⟨hpd, hh, by simp [hdir]⟩, hread]
  rw [hm y]
  by_cases hyv : cfg.isHexHash y = true
  · exact (loadedKeys_find_of_below cfg kp
      (hframe _ (dir_not_below_child p _ _ rfl) (dir_not_below_child p _ _ rfl))
      fun q hq => hframe q (not_prefix_of_sibling (ne_uniqueName hyv tv pid) hq)
        (not_prefix_of_sibling hy hq)).symm
  · simp only [Bool.not_eq_true] at hyv
    rw [loadedKeys_find_of_not_hex cfg kp _ _ hyv, loadedKeys_find_of_not_hex cfg kp _ _ hyv]

end Persona

end OpmsgKeystore
