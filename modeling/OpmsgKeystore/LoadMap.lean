import OpmsgKeystore.Cleanup

/-!
# What `load` reads back

`persona::load` rebuilds a persona from its directory. `load_new` says what it makes of a
directory whose key files parse: the type from which public key file is there, the name and
the link from the first line of `name` and `srclink` (`readLine`, the `fgets` into a 512-byte
buffer), the key texts from the first 8192 bytes of the key files (`freadBuf`), and DH
parameters exactly when an RSA persona has `dhparams.pem`, with an empty PEM text.
A line of at most 510 bytes without newline or NUL reads back as written (`readLine_line`).

`keystore::load()` keeps only the personas whose `persona::load` succeeds, under their
directory names (`load_find`). `keystore::load(hex)` does not look at what `persona::load`
returns: whatever state the persona was left in goes into the map, and the call reports
success. A valid id with no persona directory behind it puts a persona of unknown type and
without a key into the map (`loadHex_inserts_unloaded`), which `find_persona` then returns.
-/

namespace OpmsgKeystore

/-! ## Reading a file back -/

/-- A file of at most 8192 bytes is read whole. -/
theorem freadBuf_of_length_le {s : String} (h : s.length ≤ 8192) : freadBuf s = s := by
  simp [freadBuf, List.take_of_length_le (show s.data.length ≤ 8192 from h)]

theorem fgetsRaw_append {s : List Char} (hs : '\n' ∉ s) {n : Nat} (hn : s.length ≤ n)
    (t : List Char) : fgetsRaw n (s ++ t) = s ++ fgetsRaw (n - s.length) t := by
  induction s generalizing n with
  | nil => simp
  | cons c s ih =>
    simp only [List.mem_cons, not_or] at hs
    simp only [List.length_cons] at hn
    obtain ⟨m, rfl⟩ : ∃ m, n = m + 1 := ⟨n - 1, by omega⟩
    rw [List.cons_append, fgetsRaw, if_neg (Ne.symm hs.1), ih hs.2 (by omega)]
    simp

/-- A line of at most 510 bytes with no newline and no NUL, written with its newline, reads
back as itself. -/
theorem readLine_line {s : String} (hn : '\n' ∉ s.data) (hz : '\x00' ∉ s.data)
    (hl : s.length ≤ 510) : readLine (s ++ "\n") = s := by
  have hl' : s.data.length ≤ 510 := hl
  have hz' : ∀ c ∈ s.data, decide (c ≠ '\x00') = true := fun c hc => by
    simpa using fun (e : c = '\x00') => hz (e ▸ hc)
  simp only [readLine, String.data_append, fgetsRaw_append hn hl',
    List.takeWhile_append_of_pos hz']
  by_cases h510 : s.data.length = 510
  · have hlast : s.data.getLast? ≠ some '\n' := fun e => hn (List.mem_of_getLast?_eq_some e)
    have h510' : s.length = 510 := h510
    simp [h510, h510', fgetsRaw, hlast]
  · obtain ⟨k, hk⟩ : ∃ k, 510 - s.data.length = k + 1 := ⟨509 - s.data.length, by omega⟩
    have hk' : 510 - s.length = k + 1 := hk
    simp [hk, hk', fgetsRaw]

/-! ## What `persona::load` reads -/

namespace Persona

variable {K P : Type} (cfg : Config) (kp : KeyProvider K P)

/-- Storing or dropping the box of a kex key changes only the kex keys. -/
theorem loadDhPeer_snd (fs : FS) (p : Persona K P) (hex : String) (b : PKEYbox K) :
    ∃ keys, (loadDhPeer cfg fs p hex b).2 = { p with keys := keys } := by
  unfold loadDhPeer
  split_ifs <;> exact ⟨_, rfl⟩

/-- `load_dh` changes only the kex keys. -/
theorem loadDh_snd (fs : FS) (p : Persona K P) (hex : String) :
    ∃ keys, (loadDh cfg kp fs p hex).2 = { p with keys := keys } := by
  unfold loadDh
  split_ifs
  · exact ⟨p.keys, rfl⟩
  dsimp only
  split
  · split_ifs
    · exact ⟨_, rfl⟩
    split
    · exact ⟨_, rfl⟩
    · exact loadDhPeer_snd cfg fs _ hex _
  · exact loadDhPeer_snd cfg fs _ hex _

/-- `load_keys` changes only the kex keys. -/
theorem loadKex_snd (fs : FS) (p : Persona K P) (dhHex : String) :
    ∃ keys, (loadKex cfg kp fs p dhHex).2 = { p with keys := keys } := by
  have hfold : ∀ (l : List String) (p : Persona K P), ∃ keys, l.foldl
      (fun p hex => if cfg.isHexHash hex then (loadDh cfg kp fs p hex).2 else p) p =
        { p with keys := keys } := by
    intro l
    induction l with
    | nil => exact fun p => ⟨p.keys, rfl⟩
    | cons hex l ih =>
      intro p
      obtain ⟨keys, hk⟩ := ih (if cfg.isHexHash hex then (loadDh cfg kp fs p hex).2 else p)
      refine ⟨keys, ?_⟩
      rw [List.foldl_cons, hk]
      split_ifs
      · obtain ⟨k1, h1⟩ := loadDh_snd cfg kp fs p hex
        rw [h1]
      · rfl
  unfold loadKex
  split_ifs
  all_goals first | exact ⟨p.keys, rfl⟩ | exact loadDh_snd cfg kp fs p dhHex | exact hfold _ p

/-- Loading every kex key of a directory succeeds and changes only the kex keys. -/
theorem loadKex_eq {fs : FS} {p : Persona K P} (hd : fs.isDir p.dir) :
    loadKex cfg kp fs p "" = (.ok (), { p with keys := (loadKex cfg kp fs p "").2.keys }) := by
  obtain ⟨keys, hk⟩ := loadKex_snd cfg kp fs p ""
  have h1 : (loadKex cfg kp fs p "").1 = .ok () := by simp [loadKex, hd]
  rw [hk]
  exact Prod.ext h1 hk

theorem checkType_snd (fs : FS) (p : Persona K P) :
    ∃ t, (checkType cfg fs p).2 = { p with ptype := t } := by
  unfold checkType
  split_ifs
  · exact ⟨p.ptype, rfl⟩
  · exact ⟨_, rfl⟩
  · exact ⟨_, rfl⟩
  · exact ⟨p.ptype, rfl⟩

/-- `check_type` of a persona whose directory has `rsa.pub.pem`, or `ec.pub.pem` and no
`rsa.pub.pem`. -/
theorem checkType_eq {fs : FS} {p : Persona K P} {t : PType} (hid : cfg.isHexHash p.id = true)
    (ht : t = .rsa ∨ t = .ec) (hpub : (fs.get (p.dir ++ [t.pubFile])).isSome)
    (hrsa : t = .ec → fs.get (p.dir ++ [PType.rsa.pubFile]) = none) :
    checkType cfg fs p = (.ok (), { p with ptype := t }) := by
  have hne : ∀ x, p.dir ++ [x] ≠ [] := by simp
  rcases ht with rfl | rfl
  · have : (fs.statSize (p.dir ++ [PType.rsa.pubFile])).isSome := by
      rw [Option.isSome_iff_ne_none, Ne, statSize_eq_none_iff (hne _)]
      exact Option.isSome_iff_ne_none.mp hpub
    simp [checkType, hid, this]
  · have h1 : fs.statSize (p.dir ++ [PType.rsa.pubFile]) = none :=
      (statSize_eq_none_iff (hne _)).mpr (hrsa rfl)
    have h2 : (fs.statSize (p.dir ++ [PType.ec.pubFile])).isSome := by
      rw [Option.isSome_iff_ne_none, Ne, statSize_eq_none_iff (hne _)]
      exact Option.isSome_iff_ne_none.mp hpub
    simp [checkType, hid, h1, h2]

/-- The long-term key files of a persona directory: a public key that parses, and a private
key that parses when its file is there. What `load` makes of them depends on the directory and
the type only. -/
theorem loadLongTerm_eq {fs : FS} {d : Path} {t : PType} {pubPem privPem : String}
    (hpub : fs.get (d ++ [t.pubFile]) = some (.file pubPem))
    (hkpub : (kp.readPubkey pubPem).isSome) (hlen : 0 < pubPem.length)
    (hpriv : fs.get (d ++ [t.privFile]) =
      if privPem.data.length > 0 then some (.file privPem) else none)
    (hkpriv : privPem.data.length > 0 → (kp.readPrivateKey privPem).isSome) :
    ∃ box : PKEYbox K, box.pubPem = freadBuf pubPem ∧ box.privPem = freadBuf privPem ∧
      ∀ p : Persona K P, p.dir = d → p.ptype = t → loadLongTerm kp fs p = .ok box := by
  obtain ⟨kpub, hk⟩ := Option.isSome_iff_exists.mp hkpub
  have hlen' : pubPem.data.length ≠ 0 := Nat.pos_iff_ne_zero.mp hlen
  have hlen'' : pubPem.length ≠ 0 := hlen'
  by_cases hp : privPem.data.length > 0
  · obtain ⟨kpriv, hk'⟩ := Option.isSome_iff_exists.mp (hkpriv hp)
    rw [if_pos hp] at hpriv
    have hp' : privPem.data.length ≠ 0 := by omega
    have hp'' : privPem.length ≠ 0 := hp'
    refine ⟨{ PKEYbox.new (some kpub) (some kpriv) with
      pubPem := freadBuf pubPem, privPem := freadBuf privPem }, rfl, rfl, ?_⟩
    rintro p rfl rfl
    simp [loadLongTerm, FS.fopen, hpub, hk, hlen', hlen'', hpriv, hk', hp', hp'']
  · rw [if_neg hp] at hpriv
    have hnil : privPem.data = [] := List.eq_nil_of_length_eq_zero (by omega)
    refine ⟨{ PKEYbox.new (some kpub) none with pubPem := freadBuf pubPem }, rfl,
      by simp [freadBuf, PKEYbox.new, hnil], ?_⟩
    rintro p rfl rfl
    simp [loadLongTerm, FS.fopen, hpub, hk, hlen', hlen'', hpriv]

/-- `dhparams.pem` of a persona directory, when it parses for an RSA persona. -/
theorem readDhParams_eq {fs : FS} {d : Path} {t : PType}
    (hdh : t = .rsa → ∀ c, fs.fopen (d ++ ["dhparams.pem"]) = some c → (kp.readDHparams c).isSome) :
    ∃ dh : Option (DHbox P), (dh.isSome ↔ t = .rsa ∧ (fs.fopen (d ++ ["dhparams.pem"])).isSome) ∧
      ∀ p : Persona K P, p.dir = d → p.ptype = t → readDhParams kp fs p = .ok dh := by
  by_cases ht : t = .rsa
  · rcases hf : fs.fopen (d ++ ["dhparams.pem"]) with _ | c
    · exact ⟨none, by simp, by rintro p rfl rfl; simp [readDhParams, ht, hf]⟩
    · obtain ⟨prm, hprm⟩ := Option.isSome_iff_exists.mp (hdh ht c hf)
      exact ⟨some ⟨some prm, ""⟩, by simp [ht],
        by rintro p rfl rfl; simp [readDhParams, ht, hf, hprm]⟩
  · exact ⟨none, by simp [ht], by rintro p rfl rfl; simp [readDhParams, ht]⟩

/-- `persona::load("")` of a new persona record: it finds the type, and reads the name, the
link, the long-term key texts and the DH parameters from the directory, when the key files
parse. -/
theorem load_new {fs : FS} {base : Path} {hex : String} {t : PType} {pubPem privPem : String}
    (hhex : cfg.isHexHash hex = true) (hdir : fs.get (base ++ [hex]) = some .dir)
    (ht : t = .rsa ∨ t = .ec) (hpub : fs.get (base ++ [hex, t.pubFile]) = some (.file pubPem))
    (hrsa : t = .ec → fs.get (base ++ [hex, PType.rsa.pubFile]) = none)
    (hkpub : (kp.readPubkey pubPem).isSome) (hlen : 0 < pubPem.length)
    (hpriv : fs.get (base ++ [hex, t.privFile]) =
      if privPem.data.length > 0 then some (.file privPem) else none)
    (hkpriv : privPem.data.length > 0 → (kp.readPrivateKey privPem).isSome)
    (hdh : t = .rsa → ∀ c, fs.fopen (base ++ [hex, "dhparams.pem"]) = some c →
      (kp.readDHparams c).isSome) :
    ∃ q : Persona K P, (Persona.new base hex "").load cfg kp fs "" = (.ok (), q) ∧
      q.id = hex ∧ q.ptype = t ∧
      q.name = ((fs.fopen (base ++ [hex, "name"])).map readLine).getD "" ∧
      q.linkSrc = ((fs.fopen (base ++ [hex, "srclink"])).map readLine).getD "" ∧
      q.pkey.map PKEYbox.pubPem = some (freadBuf pubPem) ∧
      q.pkey.map PKEYbox.privPem = some (freadBuf privPem) ∧
      (q.dhParams.isSome ↔ t = .rsa ∧ (fs.fopen (base ++ [hex, "dhparams.pem"])).isSome) := by
  have hct : checkType cfg fs (Persona.new base hex "" : Persona K P) =
      (.ok (), { (Persona.new base hex "" : Persona K P) with ptype := t }) :=
    checkType_eq cfg hhex ht (by simp [Persona.dir, Persona.new, hpub])
      (by simpa [Persona.dir, Persona.new] using hrsa)
  obtain ⟨box, hbpub, hbpriv, hbox⟩ := loadLongTerm_eq kp (d := base ++ [hex])
    (by simpa using hpub) hkpub hlen (by simpa using hpriv) hkpriv
  obtain ⟨dh, hdhs, hdhp⟩ := readDhParams_eq kp (d := base ++ [hex]) (t := t) (by simpa using hdh)
  simp only [List.append_assoc, List.singleton_append] at hdhs
  have hd : fs.isDir (base ++ [hex]) := .inr hdir
  have h0 : ("" : String).data.length = 0 := rfl
  simp only [load, Persona.new, hhex, h0, Bool.true_eq_false, if_false, lt_irrefl, false_and,
    if_true] at hct ⊢
  rw [hct]
  rcases hn : fs.fopen (base ++ [hex, "name"]) with _ | cn <;>
  rcases hl : fs.fopen (base ++ [hex, "srclink"]) with _ | cl <;>
  simp only [Persona.dir, List.append_assoc, List.singleton_append, hn, hl, hbox, hdhp]
  all_goals
    rcases dh with _ | b <;> rw [loadKex_eq cfg kp]
    all_goals try exact hd
    all_goals exact ⟨_, rfl, rfl, rfl, by simp [hn], by simp [hl], by simp [hbpub], by simp [hbpriv], hdhs⟩

/-- A key box `loadLongTerm` returns holds the first 8192 bytes of a non-empty public key file
of the persona directory. -/
theorem loadLongTerm_pubPem {fs : FS} {p : Persona K P} {box : PKEYbox K}
    (h : loadLongTerm kp fs p = .ok box) :
    ∃ c, fs.get (p.dir ++ [p.ptype.pubFile]) = some (.file c) ∧ box.pubPem = freadBuf c := by
  unfold loadLongTerm at h
  rcases hg : fs.get (p.dir ++ [p.ptype.pubFile]) with _ | _ | c <;>
    simp only [FS.fopen, hg] at h
  · cases h
  · split at h
    · cases h
    · simp at h
  · refine ⟨c, rfl, ?_⟩
    repeat' split at h
    all_goals cases h; try rfl

/-- What `persona::load` changes of a persona: neither its base nor its id, and a key box it
sets holds the first 8192 bytes of a public key file of the persona directory. -/
theorem load_pkey (fs : FS) (p : Persona K P) (dhHex : String) :
    (p.load cfg kp fs dhHex).2.cfgbase = p.cfgbase ∧ (p.load cfg kp fs dhHex).2.id = p.id ∧
      ((p.load cfg kp fs dhHex).2.pkey = p.pkey ∨ ∃ t c box,
        fs.get (p.dir ++ [PType.pubFile t]) = some (.file c) ∧ box.pubPem = freadBuf c ∧
        (p.load cfg kp fs dhHex).2.pkey = some box) := by
  unfold load
  obtain ⟨t, ht⟩ : ∃ t, (if p.ptype = .unknown then checkType cfg fs p else (.ok (), p)).2 =
      { p with ptype := t } := by
    split_ifs
    · exact checkType_snd cfg fs p
    · exact ⟨p.ptype, rfl⟩
  generalize (if p.ptype = .unknown then checkType cfg fs p else (.ok (), p)) = r at ht ⊢
  split_ifs
  · exact ⟨rfl, rfl, .inl rfl⟩
  · exact ⟨rfl, rfl, .inl rfl⟩
  obtain ⟨e, p1⟩ := r
  dsimp only at ht
  subst ht
  rcases e with m | ⟨⟩
  · exact ⟨rfl, rfl, .inl rfl⟩
  rcases hn : fs.fopen (p.cfgbase ++ [p.id, "name"]) with _ | cn <;>
  rcases hl : fs.fopen (p.cfgbase ++ [p.id, "srclink"]) with _ | cl <;>
  simp only [Persona.dir, List.append_assoc, List.singleton_append, hn, hl]
  all_goals
    split
    · exact ⟨rfl, rfl, .inl rfl⟩
    obtain ⟨c, hc, hb⟩ := loadLongTerm_pubPem kp ‹loadLongTerm kp fs _ = .ok _›
    simp only [Persona.dir, List.append_assoc, List.singleton_append] at hc
    repeat' split
    all_goals first
      | exact ⟨rfl, rfl, .inr ⟨_, _, _, hc, hb, rfl⟩⟩
      | (obtain ⟨keys, hk⟩ := loadKex_snd cfg kp fs _ dhHex
         rw [hk]
         exact ⟨rfl, rfl, .inr ⟨_, _, _, hc, hb, rfl⟩⟩)

end Persona

/-! ## The persona map -/

namespace Keystore

variable {cfg : Config} {K P : Type} (kp : KeyProvider K P)

/-- `keystore::load()` maps the name of every entry of the base directory whose persona loads
to that persona. -/
theorem load_find {fs : FS} (ks : Keystore cfg K P) {hex : String} {q : Persona K P}
    (hd : fs.isDir ks.cfgbase) (hhex : cfg.isHexHash hex = true)
    (hmem : (fs.get (ks.cfgbase ++ [hex])).isSome)
    (hq : (Persona.new ks.cfgbase hex "").load cfg kp fs "" = (.ok (), q)) :
    (ks.load kp fs).2.personas.find hex = some q := by
  have hentry : ∀ m x, (loadEntry kp fs ks m x).find hex =
      if hex = x then some q else m.find hex := by
    intro m x
    unfold loadEntry
    by_cases hx : hex = x
    · subst hx
      simp [hhex, hq]
    · split_ifs
      · simp [hx]
      · split <;> simp [hx]
  have hfold : ∀ (l : List String) (m : KeyMap (Persona K P)),
      (l.foldl (loadEntry kp fs ks) m).find hex = if hex ∈ l then some q else m.find hex := by
    intro l
    induction l with
    | nil => simp
    | cons x l ih =>
      intro m
      rw [List.foldl_cons, ih, hentry]
      by_cases hl : hex ∈ l <;> by_cases hx : hex = x <;> simp [hl, hx]
  simp [load, hd, hfold, (FS.mem_readdir fs _ hex).mpr hmem]

/-- `keystore::load(hex)` of a valid id with neither public key file behind it reports success
and maps the id to a persona of unknown type without a key. -/
theorem loadHex_inserts_unloaded (fs : FS) (ks : Keystore cfg K P) (hex : String)
    (valid : cfg.isHexHash hex = true)
    (noRsa : fs.statSize (ks.cfgbase ++ [hex, PType.rsa.pubFile]) = none)
    (noEc : fs.statSize (ks.cfgbase ++ [hex, PType.ec.pubFile]) = none) :
    (loadHex kp fs ks hex).1 = .ok () ∧
      ∃ p, (loadHex kp fs ks hex).2.personas.find hex = some p ∧ p.ptype = .unknown ∧
        p.pkey = none := by
  simp [loadHex, Persona.load, Persona.checkType, Persona.new, Persona.dir, valid, noRsa, noEc]

/-- A valid id in an empty base directory. -/
theorem loadHex_missing_persona :
    TestDouble.config.isHexHash "0123456789abcdef" = true ∧
    TestDouble.baseOnly.statSize
      (TestDouble.keystore.cfgbase ++ ["0123456789abcdef", PType.rsa.pubFile]) = none ∧
    TestDouble.baseOnly.statSize
      (TestDouble.keystore.cfgbase ++ ["0123456789abcdef", PType.ec.pubFile]) = none ∧
    (loadHex TestDouble.provider TestDouble.baseOnly TestDouble.keystore
      "0123456789abcdef").1 = .ok () ∧
    ∃ p, (loadHex TestDouble.provider TestDouble.baseOnly TestDouble.keystore
      "0123456789abcdef").2.personas.find "0123456789abcdef" = some p ∧ p.ptype = .unknown ∧
        p.pkey = none :=
  have hhex : TestDouble.config.isHexHash "0123456789abcdef" = true := by decide
  have hrsa : TestDouble.baseOnly.statSize
      (TestDouble.keystore.cfgbase ++ ["0123456789abcdef", PType.rsa.pubFile]) = none := by decide
  have hec : TestDouble.baseOnly.statSize
      (TestDouble.keystore.cfgbase ++ ["0123456789abcdef", PType.ec.pubFile]) = none := by decide
  ⟨hhex, hrsa, hec, loadHex_inserts_unloaded TestDouble.provider TestDouble.baseOnly
    TestDouble.keystore _ hhex hrsa hec⟩

end Keystore

end OpmsgKeystore
