import OpmsgKeystore.TestDouble

/-!
# Key blobs: what `normalize_and_hexhash` accepts

`normalize_and_hexhash` cuts a key blob down to its canonical text: from the first
`pub_begin` marker through the first `pub_end` marker, and one newline. This module says
which blobs it accepts and which it rejects.

Results:
1. `normalizeAndHexhash_stable`: the canonical text normalises to itself with the same id,
   and any garbage before and after the blob leaves text and id unchanged, as long as the
   garbage does not add a `pub_begin` marker (none in it, none across a seam).
2. `normalizeAndHexhash_rejects_two_markers`: a blob with two `pub_begin` markers at least a
   marker's length apart is rejected, and with it the blob `add_persona` is given and an EC
   key `add_dh_pubkey` is given, with nothing changed.
3. `overlapping_begin_accepted`: the search for a second marker starts a marker's length after
   the first, so a second marker that shares the first one's trailing dashes is not seen.
-/

namespace OpmsgKeystore

variable {cfg : Config}

/-! ## Occurrences inside a window -/

/-- An occurrence that lies inside the middle part `S` of `L ++ S ++ T` is an occurrence in
`S`. -/
theorem occursAt_window {pat L S T : List Char} {j : Nat} (hL : L.length ≤ j)
    (hj : j + pat.length ≤ L.length + S.length) :
    OccursAt pat (L ++ S ++ T) j ↔ OccursAt pat S (j - L.length) := by
  have hd : (L ++ S ++ T).drop j = (S ++ T).drop (j - L.length) := by
    rw [List.append_assoc, List.drop_append_eq_append_drop, List.drop_eq_nil_of_le hL,
      List.nil_append]
  rw [OccursAt, hd, ← OccursAt, occursAt_append_iff (by omega)]

/-- Dropping a prefix shifts occurrences. -/
theorem occursAt_drop {pat s : List Char} {n j : Nat} :
    OccursAt pat (s.drop n) j ↔ OccursAt pat s (n + j) := by
  rw [OccursAt, OccursAt, List.drop_drop, Nat.add_comm]

/-! ## Stability -/

/-- The canonical text is a fixed point with the same id, and garbage around the blob that
adds no `pub_begin` marker changes neither. -/
theorem normalizeAndHexhash_stable {md : Md cfg} {s r h : String}
    (accepted : normalizeAndHexhash md s = (r, some h)) :
    normalizeAndHexhash md r = (r, some h) ∧
      ∀ g t : String, (∀ i, OccursAt pubBegin.data (g ++ s ++ t).data i →
          g.data.length ≤ i ∧ i + pubBegin.data.length ≤ g.data.length + s.data.length) →
        normalizeAndHexhash md (g ++ s ++ t) = (r, some h) := by
  refine ⟨normalizeAndHexhash_idem accepted, fun g t hin => ?_⟩
  obtain ⟨start, e, hb, hnb, he, rfl, rfl⟩ := normalizeAndHexhash_eq_some accepted
  obtain ⟨hB, hBmin⟩ := (find_eq_some_iff pubBegin_ne_nil _ _).mp hb
  have hnoB := (findFrom_eq_none_iff pubBegin_ne_nil _ _).mp hnb
  obtain ⟨hE, hEmin⟩ := (find_eq_some_iff pubEnd_ne_nil _ _).mp he
  have hElen := length_le_of_occursAt pubEnd_ne_nil hE
  have hBlen := length_le_of_occursAt pubBegin_ne_nil hB
  simp only [List.length_drop, pubEnd_length] at hElen
  rw [pubBegin_length] at hBlen hin
  set L := g.data
  set S := s.data
  have hw : (g ++ s ++ t).data = L ++ S ++ t.data := by simp [L, S, String.data_append]
  have hdrop : (L ++ S ++ t.data).drop (L.length + start) = S.drop start ++ t.data := by
    rw [List.append_assoc, List.drop_append_eq_append_drop, List.drop_eq_nil_of_le (by omega),
      List.nil_append, Nat.add_sub_cancel_left, List.drop_append_of_le_length (by omega)]
  -- the first marker of the padded blob is the blob's first marker
  have hb' : find pubBegin.data (g ++ s ++ t).data = some (L.length + start) := by
    rw [hw, find_eq_some_iff pubBegin_ne_nil]
    refine ⟨by rw [OccursAt, hdrop]; exact hB.trans (List.prefix_append _ _), fun j hj hocc => ?_⟩
    obtain ⟨hjL, hjS⟩ := hin j (hw ▸ hocc)
    rw [occursAt_window hjL (by rw [pubBegin_length]; omega)] at hocc
    exact hBmin (j - L.length) (by omega) hocc
  -- no second marker after it
  have hnb' : findFrom pubBegin.data ((g ++ s ++ t).data.drop (L.length + start)) 26 = none := by
    rw [hw, hdrop, findFrom_eq_none_iff pubBegin_ne_nil]
    intro j hj hocc
    have hocc' : OccursAt pubBegin.data (L ++ S ++ t.data) (L.length + start + j) := by
      rwa [← occursAt_drop, hdrop]
    have hjS := (hin _ (hw ▸ hocc')).2
    rw [occursAt_append_iff (by rw [List.length_drop, pubBegin_length]; omega)] at hocc
    exact hnoB j hj hocc
  -- the first end marker is the blob's
  have he' : find pubEnd.data ((g ++ s ++ t).data.drop (L.length + start)) = some e := by
    rw [hw, hdrop, find_eq_some_iff pubEnd_ne_nil]
    refine ⟨(occursAt_append_iff (by rw [pubEnd_length, List.length_drop]; omega)).mpr hE,
      fun j hj hocc => hEmin j hj ?_⟩
    rwa [occursAt_append_iff (by rw [pubEnd_length, List.length_drop]; omega)] at hocc
  rw [normalizeAndHexhash_of_find hb' hnb' he', hw, hdrop,
    List.take_append_of_le_length (by rw [List.length_drop]; omega)]

/-- The key as the provider writes it, with garbage and extra newlines around it. -/
theorem normalizeAndHexhash_stable_ec :
    normalizeAndHexhash TestDouble.md (TestDouble.provider.writePubkey .ec) =
        (TestDouble.provider.writePubkey .ec,
          some (TestDouble.md.hexdigest (TestDouble.provider.writePubkey .ec))) ∧
      normalizeAndHexhash TestDouble.md (TestDouble.provider.writePubkey .ec) =
        (TestDouble.provider.writePubkey .ec,
          some (TestDouble.md.hexdigest (TestDouble.provider.writePubkey .ec))) ∧
      ∀ g t : String, (∀ i, OccursAt pubBegin.data (g ++ TestDouble.provider.writePubkey .ec ++ t).data i →
          g.data.length ≤ i ∧ i + pubBegin.data.length ≤
            g.data.length + (TestDouble.provider.writePubkey .ec).data.length) →
        normalizeAndHexhash TestDouble.md (g ++ TestDouble.provider.writePubkey .ec ++ t) =
          (TestDouble.provider.writePubkey .ec,
            some (TestDouble.md.hexdigest (TestDouble.provider.writePubkey .ec))) :=
  have hs : normalizeAndHexhash TestDouble.md (TestDouble.provider.writePubkey .ec) =
      (TestDouble.provider.writePubkey .ec,
        some (TestDouble.md.hexdigest (TestDouble.provider.writePubkey .ec))) :=
    normalizeAndHexhash_pemPubkey _ (TestDouble.provider.pubBody_noDash _)
  ⟨hs, normalizeAndHexhash_stable hs⟩

/-! ## Two markers -/

instance (pat s : List Char) (i : Nat) : Decidable (OccursAt pat s i) :=
  inferInstanceAs (Decidable (pat <+: s.drop i))

/-- A blob with two `pub_begin` markers at least a marker's length apart is rejected by
`normalize_and_hexhash` whatever the digest, so `add_persona` returns its error with nothing
changed, and so does `add_dh_pubkey` when the provider reads the blob as an EC key. -/
theorem normalizeAndHexhash_rejects_two_markers {K P : Type} (kp : KeyProvider K P) {s : String}
    {i j : Nat} (atI : OccursAt pubBegin.data s.data i) (atJ : OccursAt pubBegin.data s.data j)
    (apart : i + pubBegin.data.length ≤ j) :
    (∀ md : Md cfg, (normalizeAndHexhash md s).2 = none) ∧
    (∀ (ks : Keystore cfg K P) (name privPem dhparamsPem : String) (seed : Nat) (tv : Timeval)
        (pid : Nat) (env : Env) (fs : FS),
      (ks.addPersona kp name s privPem dhparamsPem seed tv pid).run env fs =
        ((.error "add_persona: Invalid pubkey blob. Missing BEGIN/END markers?", ks), fs)) ∧
    (∀ (md : Md cfg) (p : Persona K P) (k : K) (tv : Timeval) (pid : Nat) (env : Env) (fs : FS),
      kp.readPubkey s = some k → kp.kind k = .ec → ∃ s',
        (p.addDhPubkey cfg kp md s tv pid).run env fs =
          ((.error "add_dh_key:: Error hashing ECDH pubkey.", p, s'), fs)) := by
  rw [pubBegin_length] at apart
  have hrej : ∀ md : Md cfg, (normalizeAndHexhash md s).2 = none := fun md => by
    unfold normalizeAndHexhash
    rcases hf : find pubBegin.data s.data with _ | start
    · exact absurd atI ((find_eq_none_iff pubBegin_ne_nil _).mp hf i)
    have hstart : start ≤ i := by
      by_contra hlt
      exact ((find_eq_some_iff pubBegin_ne_nil _ _).mp hf).2 i (by omega) atI
    have hsecond : (findFrom pubBegin.data (s.data.drop start) pubBegin.data.length).isSome := by
      rw [Option.isSome_iff_ne_none, Ne, findFrom_eq_none_iff pubBegin_ne_nil]
      intro hno
      refine hno (j - start) (by rw [pubBegin_length]; omega) ?_
      rwa [occursAt_drop, Nat.add_sub_cancel' (by omega)]
    simp only [hsecond, if_true]
  refine ⟨hrej, fun ks name privPem dhparamsPem seed tv pid env fs => ?_,
    fun md p k tv pid env fs hk hec => ?_⟩
  · have h := hrej ks.md
    unfold Keystore.addPersona
    rcases hn : normalizeAndHexhash ks.md s with ⟨r, _ | h'⟩
    · rfl
    · rw [hn] at h
      cases h
  · have h := hrej md
    unfold Persona.addDhPubkey Persona.dhPubkeyId
    simp only [hk, hec]
    rcases hn : normalizeAndHexhash md s with ⟨r, _ | h'⟩
    · exact ⟨r, rfl⟩
    · rw [hn] at h
      cases h

/-- Two keys in one blob, as `PEM_write_bio_PUBKEY` writes them one after the other. -/
theorem normalizeAndHexhash_rejects_two_keys :
    OccursAt pubBegin.data (TestDouble.provider.writePubkey .ec ++
        TestDouble.provider.writePubkey .rsa).data 0 ∧
      OccursAt pubBegin.data (TestDouble.provider.writePubkey .ec ++
        TestDouble.provider.writePubkey .rsa).data 57 ∧
      0 + pubBegin.data.length ≤ 57 ∧
      (∀ md : Md TestDouble.config, (normalizeAndHexhash md (TestDouble.provider.writePubkey .ec ++
        TestDouble.provider.writePubkey .rsa)).2 = none) ∧
      (∀ (ks : Keystore TestDouble.config TestDouble.Key Nat) (name privPem dhparamsPem : String)
          (seed : Nat) (tv : Timeval) (pid : Nat) (env : Env) (fs : FS),
        (ks.addPersona TestDouble.provider name (TestDouble.provider.writePubkey .ec ++
            TestDouble.provider.writePubkey .rsa) privPem dhparamsPem seed tv pid).run env fs =
          ((.error "add_persona: Invalid pubkey blob. Missing BEGIN/END markers?", ks), fs)) ∧
      (∀ (md : Md TestDouble.config) (p : Persona TestDouble.Key Nat) (k : TestDouble.Key)
          (tv : Timeval) (pid : Nat) (env : Env) (fs : FS),
        TestDouble.provider.readPubkey (TestDouble.provider.writePubkey .ec ++
            TestDouble.provider.writePubkey .rsa) = some k → TestDouble.provider.kind k = .ec →
          ∃ s', (p.addDhPubkey TestDouble.config TestDouble.provider md
            (TestDouble.provider.writePubkey .ec ++ TestDouble.provider.writePubkey .rsa) tv pid).run
              env fs = ((.error "add_dh_key:: Error hashing ECDH pubkey.", p, s'), fs)) :=
  have h0 : OccursAt pubBegin.data (TestDouble.provider.writePubkey .ec ++
      TestDouble.provider.writePubkey .rsa).data 0 := by decide
  have h57 : OccursAt pubBegin.data (TestDouble.provider.writePubkey .ec ++
      TestDouble.provider.writePubkey .rsa).data 57 := by decide
  have hle : 0 + pubBegin.data.length ≤ 57 := by decide
  ⟨h0, h57, hle, normalizeAndHexhash_rejects_two_markers TestDouble.provider h0 h57 hle⟩

/-- The blob `<pub_begin><pub_begin> body <pub_end>` with the two markers written once, sharing
five dashes: its header line holds `pub_begin` at positions 0 and 21. -/
def doubleHeader : String :=
  "-----BEGIN PUBLIC KEY-----BEGIN PUBLIC KEY-----\nRUM=\n-----END PUBLIC KEY-----\n"

/-- The overlapping second marker is not seen, and the blob is accepted as its own canonical
text. -/
theorem overlapping_begin_accepted :
    OccursAt pubBegin.data doubleHeader.data 0 ∧ OccursAt pubBegin.data doubleHeader.data 21 ∧
      normalizeAndHexhash TestDouble.md doubleHeader =
        (doubleHeader, some (TestDouble.md.hexdigest doubleHeader)) := by
  decide

end OpmsgKeystore
