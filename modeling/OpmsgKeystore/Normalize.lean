import OpmsgKeystore.Basic
import Mathlib.Data.Nat.Digits

/-!
# Canonical public keys: `normalize_and_hexhash` and `bn2hexhash`

A persona's id is the digest of its public key in a canonical text form, and a kex key's
id the digest of that form (EC) or of the public integer (DH). `normalize_and_hexhash`
finds the first `pub_begin` marker, drops what precedes it, rejects a second marker after
it, cuts after the first `pub_end` and appends one newline.

Results:
* `find_eq_some_iff`, `find_eq_none_iff`: `find` is the first occurrence;
* `normalizeAndHexhash_idem`: the canonical text is a fixed point, with the same id;
* `normalizeAndHexhash_pemPubkey`: a PEM block as `PEM_write_bio_PUBKEY` writes it is
  already canonical.
-/

namespace OpmsgKeystore

/-! ## Searching a string -/

/-- `pat` occurs in `s` at position `i`. -/
def OccursAt (pat s : List Char) (i : Nat) : Prop := pat <+: s.drop i

/-- `s.find(pat)`: the first position where `pat` occurs. -/
def find (pat : List Char) : List Char → Option Nat
  | [] => if pat = [] then some 0 else none
  | c :: cs => if pat <+: c :: cs then some 0 else (find pat cs).map (· + 1)

/-- `s.find(pat, pos)`: the first position from `pos` on. -/
def findFrom (pat s : List Char) (pos : Nat) : Option Nat :=
  if pos ≤ s.length then (find pat (s.drop pos)).map (· + pos) else none

theorem find_eq_some_iff {pat : List Char} (hpat : pat ≠ []) (s : List Char) (i : Nat) :
    find pat s = some i ↔ OccursAt pat s i ∧ ∀ j < i, ¬ OccursAt pat s j := by
  induction s generalizing i with
  | nil => simp [find, hpat, OccursAt]
  | cons c cs ih =>
    by_cases hp : pat <+: c :: cs
    · simp only [find, hp, if_true, Option.some.injEq]
      constructor
      · rintro rfl; exact ⟨hp, fun j hj => absurd hj (Nat.not_lt_zero j)⟩
      · rintro ⟨_, hmin⟩
        by_contra hi
        exact hmin 0 (Nat.pos_of_ne_zero (Ne.symm hi)) hp
    · simp only [find, hp, if_false]
      cases i with
      | zero => simp [OccursAt, hp]
      | succ i =>
        simp only [Option.map_eq_some', ih, Nat.add_right_cancel_iff, exists_eq_right]
        constructor
        · rintro ⟨hocc, hmin⟩
          refine ⟨hocc, fun j hj => ?_⟩
          cases j with
          | zero => exact hp
          | succ j => exact hmin j (Nat.lt_of_succ_lt_succ hj)
        · rintro ⟨hocc, hmin⟩
          exact ⟨hocc, fun j hj => hmin (j + 1) (Nat.succ_lt_succ hj)⟩

theorem find_eq_none_iff {pat : List Char} (hpat : pat ≠ []) (s : List Char) :
    find pat s = none ↔ ∀ j, ¬ OccursAt pat s j := by
  induction s with
  | nil => simp [find, hpat, OccursAt]
  | cons c cs ih =>
    by_cases hp : pat <+: c :: cs
    · simp only [find, hp, if_true, reduceCtorEq, false_iff, not_forall, not_not]
      exact ⟨0, hp⟩
    · simp only [find, hp, if_false, Option.map_eq_none', ih]
      constructor
      · intro h j
        cases j with
        | zero => exact hp
        | succ j => exact h j
      · exact fun h j => h (j + 1)

theorem not_occursAt_of_length_lt {pat s : List Char} (hpat : pat ≠ []) {j : Nat}
    (hj : s.length ≤ j) : ¬ OccursAt pat s j := by
  rw [OccursAt, List.drop_eq_nil_of_le hj, List.prefix_nil]
  exact hpat

theorem findFrom_eq_none_iff {pat : List Char} (hpat : pat ≠ []) (s : List Char) (pos : Nat) :
    findFrom pat s pos = none ↔ ∀ j, pos ≤ j → ¬ OccursAt pat s j := by
  unfold findFrom
  split
  · rw [Option.map_eq_none', find_eq_none_iff hpat]
    constructor
    · intro h j hj
      have := h (j - pos)
      rwa [OccursAt, List.drop_drop, Nat.add_sub_cancel' hj] at this
    · intro h j
      rw [OccursAt, List.drop_drop]
      exact h _ (Nat.le_add_right _ _)
  · exact iff_of_true rfl fun j hj => not_occursAt_of_length_lt hpat (by omega)

theorem length_le_of_occursAt {pat s : List Char} (hpat : pat ≠ []) {i : Nat}
    (h : OccursAt pat s i) : i + pat.length ≤ s.length := by
  have := h.length_le
  rw [List.length_drop] at this
  by_contra hlt
  exact not_occursAt_of_length_lt hpat (by have := List.length_pos.mpr hpat; omega) h

/-- An occurrence that ends inside `l` does not see what follows `l`. -/
theorem occursAt_append_iff {pat l t : List Char} {i : Nat} (hi : i + pat.length ≤ l.length) :
    OccursAt pat (l ++ t) i ↔ OccursAt pat l i := by
  unfold OccursAt
  rw [List.drop_append_of_le_length (by omega)]
  exact ⟨fun h => List.prefix_of_prefix_length_le h (List.prefix_append _ _) (by simp; omega),
    fun h => h.trans (List.prefix_append _ _)⟩

theorem occursAt_take_iff {pat s : List Char} {i n : Nat} (hi : i + pat.length ≤ n) :
    OccursAt pat (s.take n) i ↔ OccursAt pat s i := by
  rcases Nat.le_total n s.length with hn | hn
  · conv_rhs => rw [← List.take_append_drop n s]
    exact (occursAt_append_iff (by simp; omega)).symm
  · rw [List.take_of_length_le hn]

/-- Neither of two lists extends the other: no list extending one extends the other. -/
theorem not_occursAt_of_incomparable {pat x y : List Char} {i : Nat} (hx : x <+: y.drop i)
    (h₁ : ¬ pat <+: x) (h₂ : ¬ x <+: pat) : ¬ OccursAt pat y i := fun hp => by
  rcases Nat.le_total pat.length x.length with hl | hl
  · exact h₁ (List.prefix_of_prefix_length_le hp hx hl)
  · exact h₂ (List.prefix_of_prefix_length_le hx hp hl)

/-! ## `normalize_and_hexhash` -/

variable {cfg : Config}

/-- `normalize_and_hexhash(md, s, result)`. The source takes `s` by reference and erases
from it before it may still fail, so the string as the call leaves it is returned with the
id; `none` stands for the `-1` return. -/
def normalizeAndHexhash (md : Md cfg) (s : String) : String × Option String :=
  match find pubBegin.data s.data with
  | none => (s, none)
  | some start =>
    let s₁ := s.data.drop start
    if (findFrom pubBegin.data s₁ pubBegin.data.length).isSome then (⟨s₁⟩, none)
    else match find pubEnd.data s₁ with
      | none => (⟨s₁⟩, none)
      | some e =>
        let r : String := ⟨s₁.take (e + pubEnd.data.length) ++ ['\n']⟩
        (r, some (md.hexdigest r))

/-- `BN_bn2bin`: the big-endian bytes of a non-negative integer. -/
def bn2bin (n : Nat) : String := ⟨(Nat.digits 256 n).reverse.map Char.ofNat⟩

/-- `bn2hexhash(md, bn, result)`; `BN_num_bytes(bn) <= 0` (the integer zero) fails. -/
def bn2hexhash (md : Md cfg) (n : Nat) : Option String :=
  if (Nat.digits 256 n).length = 0 then none else some (md.hexdigest (bn2bin n))

theorem bn2hexhash_isHexHash {md : Md cfg} {n : Nat} {h : String}
    (hn : bn2hexhash md n = some h) : cfg.isHexHash h = true := by
  unfold bn2hexhash at hn
  split at hn
  · cases hn
  · cases hn
    exact md.hexdigest_isHexHash _

theorem pubBegin_ne_nil : pubBegin.data ≠ [] := by decide
theorem pubEnd_ne_nil : pubEnd.data ≠ [] := by decide
theorem pubBegin_length : pubBegin.data.length = 26 := by decide
theorem pubEnd_length : pubEnd.data.length = 24 := by decide

/-- The three searches of a successful normalisation, and its result. -/
theorem normalizeAndHexhash_eq_some {md : Md cfg} {s r h : String}
    (hs : normalizeAndHexhash md s = (r, some h)) :
    ∃ start e, find pubBegin.data s.data = some start ∧
      findFrom pubBegin.data (s.data.drop start) 26 = none ∧
      find pubEnd.data (s.data.drop start) = some e ∧
      r = ⟨(s.data.drop start).take (e + 24) ++ ['\n']⟩ ∧ h = md.hexdigest r := by
  unfold normalizeAndHexhash at hs
  split at hs
  · cases hs
  · next start hstart =>
    rw [pubBegin_length] at hs
    dsimp only at hs
    split at hs
    · cases hs
    · next hnb =>
      split at hs
      · cases hs
      · next e he =>
        rw [pubEnd_length] at hs
        cases hs
        exact ⟨start, e, hstart, by simpa using hnb, he, rfl, rfl⟩

/-- A normalised key is never empty: it ends in a newline. -/
theorem normalizeAndHexhash_length_pos {md : Md cfg} {s r h : String}
    (hs : normalizeAndHexhash md s = (r, some h)) : 0 < r.data.length := by
  obtain ⟨_, _, _, _, _, rfl, -⟩ := normalizeAndHexhash_eq_some hs
  simp

/-- The id of a normalised key is a hex id. -/
theorem normalizeAndHexhash_isHexHash {md : Md cfg} {s r h : String}
    (hs : normalizeAndHexhash md s = (r, some h)) : cfg.isHexHash h = true := by
  obtain ⟨_, _, _, _, _, -, rfl⟩ := normalizeAndHexhash_eq_some hs
  exact md.hexdigest_isHexHash _

/-- The converse: the three searches determine the result. -/
theorem normalizeAndHexhash_of_find {md : Md cfg} {s : String} {start e : Nat}
    (hb : find pubBegin.data s.data = some start)
    (hnb : findFrom pubBegin.data (s.data.drop start) 26 = none)
    (he : find pubEnd.data (s.data.drop start) = some e) :
    normalizeAndHexhash md s =
      (⟨(s.data.drop start).take (e + 24) ++ ['\n']⟩,
        some (md.hexdigest ⟨(s.data.drop start).take (e + 24) ++ ['\n']⟩)) := by
  unfold normalizeAndHexhash
  simp only [hb, pubBegin_length, hnb, Option.isSome_none, he, pubEnd_length]
  rfl

/-- The first `pub_end` after a `pub_begin` at the start is at position two or more. -/
theorem two_le_of_begin_end {s : List Char} {e : Nat} (hb : pubBegin.data <+: s)
    (he : OccursAt pubEnd.data s e) : 2 ≤ e := by
  by_contra hlt
  interval_cases e
  · exact @not_occursAt_of_incomparable _ _ _ 0 hb (by decide) (by decide) he
  · exact @not_occursAt_of_incomparable _ _ _ 1 (hb.drop 1) (by decide) (by decide) he

/-- A marker that ends in `-` does not occur across a final newline. -/
theorem not_occursAt_snoc_newline {pat l : List Char} (hpat : pat.getLast? = some '-')
    {j : Nat} (hj : l.length < j + pat.length) : ¬ OccursAt pat (l ++ ['\n']) j := by
  intro hocc
  have hne : pat ≠ [] := by rintro rfl; cases hpat
  have hpos := List.length_pos.mpr hne
  have hlen := length_le_of_occursAt hne hocc
  simp only [List.length_append, List.length_singleton] at hlen
  have heq : pat = (l ++ ['\n']).drop j :=
    hocc.eq_of_length (by simp only [List.length_drop, List.length_append,
      List.length_singleton]; omega)
  rw [List.drop_append_of_le_length (by omega)] at heq
  rw [heq, List.getLast?_append] at hpat
  simp at hpat

/-- Normalising the canonical text gives it back, with the same id. -/
theorem normalizeAndHexhash_idem {md : Md cfg} {s r h : String}
    (hs : normalizeAndHexhash md s = (r, some h)) : normalizeAndHexhash md r = (r, some h) := by
  obtain ⟨start, e, hb, hnb, he, rfl, rfl⟩ := normalizeAndHexhash_eq_some hs
  set s₁ := s.data.drop start
  have hB : pubBegin.data <+: s₁ := by
    have := ((find_eq_some_iff pubBegin_ne_nil _ _).mp hb).1
    simpa [OccursAt] using this
  have hnoB := (findFrom_eq_none_iff pubBegin_ne_nil _ _).mp hnb
  obtain ⟨hE, hEmin⟩ := (find_eq_some_iff pubEnd_ne_nil _ _).mp he
  have hlen := length_le_of_occursAt pubEnd_ne_nil hE
  rw [pubEnd_length] at hlen
  have h2 := two_le_of_begin_end hB hE
  set L := s₁.take (e + 24)
  have hL : L.length = e + 24 := by simp [L]; omega
  -- the same three searches succeed on `L ++ "\n"`, the first at position zero
  have hb' : find pubBegin.data (L ++ ['\n']) = some 0 := by
    rw [find_eq_some_iff pubBegin_ne_nil]
    refine ⟨?_, fun j hj => absurd hj (Nat.not_lt_zero j)⟩
    rw [occursAt_append_iff (by rw [pubBegin_length, hL]; omega),
      occursAt_take_iff (by rw [pubBegin_length]; omega)]
    simpa [OccursAt] using hB
  have hnb' : findFrom pubBegin.data ((L ++ ['\n']).drop 0) 26 = none := by
    rw [List.drop_zero, findFrom_eq_none_iff pubBegin_ne_nil]
    intro j hj
    rcases Nat.lt_or_ge L.length (j + 26) with hlt | hge
    · exact not_occursAt_snoc_newline (by decide) (by rwa [pubBegin_length])
    · rw [occursAt_append_iff (by rwa [pubBegin_length]),
        occursAt_take_iff (by rw [pubBegin_length]; omega)]
      exact hnoB j hj
  have he' : find pubEnd.data ((L ++ ['\n']).drop 0) = some e := by
    rw [List.drop_zero, find_eq_some_iff pubEnd_ne_nil]
    refine ⟨?_, fun j hj => ?_⟩
    · rw [occursAt_append_iff (by rw [pubEnd_length, hL]),
        occursAt_take_iff (by rw [pubEnd_length])]
      exact hE
    · rw [occursAt_append_iff (by rw [pubEnd_length, hL]; omega),
        occursAt_take_iff (by rw [pubEnd_length]; omega)]
      exact hEmin j hj
  have hr := @normalizeAndHexhash_of_find cfg md ⟨L ++ ['\n']⟩ 0 e hb' hnb' he'
  have htake : ((L ++ ['\n']).drop 0).take (e + 24) = L := by
    rw [List.drop_zero, List.take_append_of_le_length (by omega), List.take_of_length_le (by omega)]
  simpa only [htake] using hr

/-! ## PEM blocks as the key provider writes them -/

/-- The PEM block `PEM_write_bio_PUBKEY` writes around the base64 lines `body` of a
SubjectPublicKeyInfo: the header line, the body, the footer line. -/
def pemPubkey (body : String) : String := pubBegin ++ "\n" ++ body ++ pubEnd ++ "\n"

/-- A marker that starts with a dash does not start inside dash-free text. -/
theorem not_prefix_dashFree {pat X Y : List Char} (hpat : pat.head? = some '-') (hX : '-' ∉ X)
    {k : Nat} (hk : k < X.length) : ¬ pat <+: X.drop k ++ Y := by
  obtain ⟨_ | ⟨c, pat'⟩, rfl⟩ : ∃ l, pat = l := ⟨pat, rfl⟩
  · cases hpat
  · simp only [List.head?_cons, Option.some.injEq] at hpat
    subst hpat
    rw [List.drop_eq_getElem_cons hk, List.cons_append, List.cons_prefix_cons]
    exact fun h => hX (h.1 ▸ List.getElem_mem hk)

theorem pemPubkey_data (body : String) :
    (pemPubkey body).data = pubBegin.data ++ ('\n' :: body.data) ++ (pubEnd.data ++ ['\n']) := by
  simp [pemPubkey, String.data_append]

/-- The footer is not found inside the header line. -/
theorem pubEnd_not_in_header :
    ∀ j < 26, ¬ pubEnd.data <+: pubBegin.data.drop j ++ ['\n'] ∧
      ¬ pubBegin.data.drop j ++ ['\n'] <+: pubEnd.data := by decide

/-- A PEM block as the provider writes it is its own canonical form. -/
theorem normalizeAndHexhash_pemPubkey (md : Md cfg) {body : String} (hbody : '-' ∉ body.data) :
    normalizeAndHexhash md (pemPubkey body) =
      (pemPubkey body, some (md.hexdigest (pemPubkey body))) := by
  set T := '\n' :: body.data
  set U := pubEnd.data ++ ['\n']
  have hw := pemPubkey_data body
  have hT : '-' ∉ T := by simp [T, hbody]
  have hU : U.length = 25 := by simp only [U, List.length_append, pubEnd_length, List.length_singleton]
  have hdrop : ∀ k, (pemPubkey body).data.drop (26 + k) = (T ++ U).drop k := by
    intro k
    rw [hw, List.append_assoc, ← pubBegin_length, List.drop_append]
  have hb : find pubBegin.data (pemPubkey body).data = some 0 := by
    rw [find_eq_some_iff pubBegin_ne_nil]
    exact ⟨by rw [OccursAt, List.drop_zero, hw, List.append_assoc]; exact List.prefix_append _ _,
      fun j hj => absurd hj (Nat.not_lt_zero j)⟩
  have hnb : findFrom pubBegin.data ((pemPubkey body).data.drop 0) 26 = none := by
    rw [List.drop_zero, findFrom_eq_none_iff pubBegin_ne_nil]
    intro j hj
    obtain ⟨k, rfl⟩ := Nat.exists_eq_add_of_le hj
    rw [OccursAt, hdrop]
    rcases Nat.lt_or_ge k T.length with hk | hk
    · rw [List.drop_append_of_le_length hk.le]
      exact not_prefix_dashFree (by decide) hT hk
    · rw [List.drop_append_eq_append_drop, List.drop_eq_nil_of_le hk, List.nil_append]
      intro hp
      have := hp.length_le
      simp only [List.length_drop, hU, pubBegin_length] at this
      omega
  have he : find pubEnd.data ((pemPubkey body).data.drop 0) = some (26 + T.length) := by
    rw [List.drop_zero, find_eq_some_iff pubEnd_ne_nil]
    refine ⟨?_, fun j hj => ?_⟩
    · rw [OccursAt, hdrop, List.drop_left]
      exact List.prefix_append _ _
    · rcases Nat.lt_or_ge j 26 with hj26 | hj26
      · have hx : pubBegin.data.drop j ++ ['\n'] <+: (pemPubkey body).data.drop j := by
          rw [hw, List.append_assoc, List.drop_append_of_le_length (by rw [pubBegin_length]; omega)]
          exact (List.prefix_append_right_inj _).mpr (by simp [T])
        exact not_occursAt_of_incomparable hx (pubEnd_not_in_header j hj26).1
          (pubEnd_not_in_header j hj26).2
      · obtain ⟨k, rfl⟩ := Nat.exists_eq_add_of_le hj26
        rw [OccursAt, hdrop, List.drop_append_of_le_length (by omega)]
        exact not_prefix_dashFree (by decide) hT (by omega)
  rw [normalizeAndHexhash_of_find hb hnb he]
  have htake : ((pemPubkey body).data.drop 0).take (26 + T.length + 24) ++ ['\n'] =
      (pemPubkey body).data := by
    have hA : (pubBegin.data ++ T ++ pubEnd.data).length = 26 + T.length + 24 := by
      simp only [List.length_append, pubBegin_length, pubEnd_length]
    rw [List.drop_zero, hw, show pubBegin.data ++ '\n' :: body.data ++ (pubEnd.data ++ ['\n']) =
      pubBegin.data ++ T ++ pubEnd.data ++ ['\n'] by simp [T], List.take_left' hA]
  simp only [htake]

end OpmsgKeystore
