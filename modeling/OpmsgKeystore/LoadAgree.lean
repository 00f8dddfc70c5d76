import OpmsgKeystore.Forget

/-!
# What the loads agree on

Both levels of the keystore load in two ways. `persona::load(dh_hex)` with a non-empty
`dh_hex` reads the persona's own keys as `persona::load("")` does, but then only the one kex key
`dh_hex`, through `load_dh(dh_hex)`, where the empty argument lists the directory and runs
`load_dh` for every hex-named entry. `keystore::load()` lists the base directory and keeps the
personas that load; `keystore::load(hex)` loads one persona and keeps it whatever happened.

* `loadOne_agrees`: from a tree, for a valid id that is not reserved, the two persona loads
  build the same persona but for the kex keys, and the one key loaded alone is exactly what the
  full load has under that id; the load of one key holds no other.
* `load_personas_find`: the map `keystore::load()` leaves, id by id: the persona of every
  hex-named entry whose persona loads, and the old entry for every other id. On the personas
  that load, `keystore::load(hex)` agrees with it.
-/

namespace OpmsgKeystore

namespace Persona

variable {cfg : Config} {K P : Type} (kp : KeyProvider K P) {fs : FS}

/-- The head of `persona::load` checks `dh_hex` and nothing more: for a valid id it does what it
does for the empty one. -/
theorem loadHead_hex (p : Persona K P) {hex : String} (hh : cfg.isHexHash hex = true) :
    loadHead cfg kp fs p hex = loadHead cfg kp fs p "" := by
  simp [loadHead, hh]

/-- `load_keys` with a non-empty id that is not reserved is `load_dh` of that id. -/
theorem loadKex_one (p : Persona K P) {hex : String} (hlen : 0 < hex.data.length)
    (hres : ¬ reserved cfg hex) : loadKex cfg kp fs p hex = loadDh cfg kp fs p hex := by
  unfold loadKex
  exact (if_pos hlen).trans (if_neg hres)

/-- In a tree, a kex id without an entry in the persona directory reads as no key. -/
theorem kexRead_of_absent (htree : fs.Tree) (p : Persona K P) {hex : String}
    (hn : fs.get (p.dir ++ [hex]) = none) : kexRead cfg kp fs p hex = none := by
  have below : ∀ x, fs.get (p.kexDir hex ++ [x]) = none := fun x => by
    rw [kexDir_eq]
    exact htree.get_eq_none_of_prefix (by simp) hn (List.prefix_append _ _)
  exact kexRead_eq_none kp p hex (below _) fun c => by rw [below]; exact nofun

end Persona

variable {cfg : Config} {K P : Type} (kp : KeyProvider K P)

/-- `persona::load(hex)` against `persona::load("")`, from a tree, for a non-empty valid id
that is not reserved: both build the same persona but for the kex keys, and the keys of the
first are the key `hex` of the second alone. -/
theorem loadOne_agrees {fs : FS} (tree : fs.Tree) (base : Path) (id : String) {hex : String}
    (valid : cfg.isHexHash hex = true) (nonempty : 0 < hex.data.length) (unreserved : ¬ Persona.reserved cfg hex) :
    let one := (Persona.new base id "" : Persona K P).load cfg kp fs hex
    let all := (Persona.new base id "" : Persona K P).load cfg kp fs ""
    { one.2 with keys := all.2.keys } = all.2 ∧
      ∀ y, one.2.keys.find y = if y = hex then all.2.keys.find hex else none := by
  simp only [Persona.load_eq_loadHead, Persona.loadHead_hex kp _ valid]
  obtain ⟨-, -, hk⟩ := Persona.loadHead_snd cfg kp fs (Persona.new base id "" : Persona K P) ""
  generalize Persona.loadHead cfg kp fs (Persona.new base id "") "" = r at hk ⊢
  obtain ⟨_ | ⟨⟩, q⟩ := r <;> dsimp only at hk
  · exact ⟨rfl, fun y => by simp [hk, Persona.new]⟩
  dsimp only
  rw [Persona.loadKex_one kp q nonempty unreserved]
  obtain ⟨k₁, h₁⟩ := Persona.loadDh_snd cfg kp fs q hex
  obtain ⟨k₂, h₂⟩ := Persona.loadKex_snd cfg kp fs q ""
  refine ⟨by rw [h₁, h₂], fun y => ?_⟩
  rw [Persona.loadDh_find cfg kp fs q valid, Persona.loadKex_find, hk]
  split_ifs with hy hc
  · rfl
  · have hn : fs.get (q.dir ++ [hex]) = none := by
      by_contra hs
      have hd := tree.isDir_dropLast (Option.ne_none_iff_isSome.mp hs)
      rw [List.dropLast_concat] at hd
      exact hc ⟨hd, valid, Option.ne_none_iff_isSome.mp hs⟩
    rw [Persona.kexRead_of_absent kp tree q hn]
    rfl
  · rfl

namespace Keystore

variable (fs : FS) (ks : Keystore cfg K P)

/-- One entry of `keystore::load()` maps the id it names to its persona when that loads. -/
theorem loadEntry_find (m : KeyMap (Persona K P)) (x hex : String) :
    (loadEntry kp fs ks m x).find hex =
      if hex = x ∧ cfg.isHexHash hex = true ∧
          ((Persona.new ks.cfgbase hex "").load cfg kp fs "").1.isOk then
        some ((Persona.new ks.cfgbase hex "").load cfg kp fs "").2
      else m.find hex := by
  unfold loadEntry
  by_cases hx : hex = x
  · subst hx
    rcases (Persona.new ks.cfgbase hex "" : Persona K P).load cfg kp fs "" with ⟨_ | ⟨⟩, q⟩ <;>
      cases cfg.isHexHash hex <;> simp [Except.isOk, Except.toBool]
  · simp only [hx, false_and, if_false]
    split_ifs
    · rfl
    · split <;> simp [hx]

/-- The loop of `keystore::load()` over a listing, id by id. -/
theorem foldl_loadEntry_find (hex : String) (l : List String) (m : KeyMap (Persona K P)) :
    (l.foldl (loadEntry kp fs ks) m).find hex =
      if hex ∈ l ∧ cfg.isHexHash hex = true ∧
          ((Persona.new ks.cfgbase hex "").load cfg kp fs "").1.isOk then
        some ((Persona.new ks.cfgbase hex "").load cfg kp fs "").2
      else m.find hex := by
  induction l generalizing m with
  | nil => simp
  | cons x l ih =>
    rw [List.foldl_cons, ih, loadEntry_find]
    by_cases hl : hex ∈ l <;> by_cases hx : hex = x <;> simp_all

/-- `keystore::load()`, id by id: an id names a persona of the new map exactly when the base
directory lists it, it is a valid id, and its persona loads; every other id keeps its old entry.
`keystore::load(hex)` maps each such id to the same persona. -/
theorem load_personas_find (hex : String) :
    (ks.load kp fs).2.personas.find hex =
      (if fs.isDir ks.cfgbase ∧ (fs.get (ks.cfgbase ++ [hex])).isSome ∧ cfg.isHexHash hex = true ∧
          ((Persona.new ks.cfgbase hex "").load cfg kp fs "").1.isOk then
        some ((Persona.new ks.cfgbase hex "").load cfg kp fs "").2
      else ks.personas.find hex) ∧
    (fs.isDir ks.cfgbase → (fs.get (ks.cfgbase ++ [hex])).isSome → cfg.isHexHash hex = true →
      ((Persona.new ks.cfgbase hex "").load cfg kp fs "").1.isOk →
      (loadHex kp fs ks hex).2.personas.find hex = (ks.load kp fs).2.personas.find hex) := by
  refine (fun hmap => ⟨hmap, fun hd hs hh hok => ?_⟩) ?_
  · unfold load
    by_cases hd : fs.isDir ks.cfgbase
    · simp [hd, foldl_loadEntry_find, FS.mem_readdir]
    · simp [hd]
  · rw [hmap, if_pos ⟨hd, hs, hh, hok⟩]
    simp [loadHex, hh]

/-- The persona `addEc` creates, as `keystore::load(hex)` and `keystore::load()` map it. -/
theorem load_personas_find_ec :
    let fs := (TestDouble.addEc.run Env.none TestDouble.baseOnly).2
    fs.isDir ["ks"] ∧ (fs.get ["ks", "9999999999999999"]).isSome ∧
      TestDouble.config.isHexHash "9999999999999999" = true ∧
      ((Persona.new ["ks"] "9999999999999999" "" : Persona TestDouble.Key Nat).load TestDouble.config
        TestDouble.provider fs "").1.isOk ∧
      (loadHex TestDouble.provider fs TestDouble.keystore "9999999999999999").2.personas.find
          "9999999999999999" =
        (TestDouble.keystore.load TestDouble.provider fs).2.personas.find "9999999999999999" :=
  ⟨by decide, rfl, by decide, rfl,
    (load_personas_find TestDouble.provider _ TestDouble.keystore _).2 (by decide) rfl (by decide) rfl⟩

end Keystore

/-- The kex key of `ecKexed`, loaded alone and with the whole persona. -/
theorem loadOne_agrees_ec :
    TestDouble.config.isHexHash "9999999999999999" = true ∧
    ¬ Persona.reserved TestDouble.config "9999999999999999" ∧
    let one := (Persona.new ["ks"] "9999999999999999" "" : Persona TestDouble.Key Nat).load
      TestDouble.config TestDouble.provider ecKexed.2 "9999999999999999"
    let all := (Persona.new ["ks"] "9999999999999999" "" : Persona TestDouble.Key Nat).load
      TestDouble.config TestDouble.provider ecKexed.2 ""
    { one.2 with keys := all.2.keys } = all.2 ∧
      ∀ y, one.2.keys.find y = if y = "9999999999999999" then all.2.keys.find "9999999999999999"
        else none :=
  ⟨by decide, by decide, loadOne_agrees TestDouble.provider (Prog.run_tree _ _ (Prog.run_tree _ _ baseOnly_tree))
    ["ks"] "9999999999999999" (by decide) (by decide) (by decide)⟩

end OpmsgKeystore
