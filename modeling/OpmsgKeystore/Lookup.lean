import OpmsgKeystore.TestDouble

/-!
# Looking a persona up: `keystore::find_persona`

`find_persona` takes a full id, or a 16-digit short id that it matches against the start of
every persona id. It walks the map in order and stops at the first id that begins with the
short id, so it never notices a second persona whose id begins the same way.

Result: `findPersona_first_match` says what it returns for every map: for a short id, the
persona of the first entry in map order whose id begins with it, and an error when there is
none; for any other valid id, the persona stored under that id. `findPersona_ambiguous` is a
map with two ids that share their first 16 digits, for which the short id finds the first
instead of no persona.
-/

namespace OpmsgKeystore

/-- `s.find(pat) == 0`: `s` begins with `pat`. -/
theorem find_eq_zero_iff {pat s : List Char} (hpat : pat ≠ []) : find pat s = some 0 ↔ pat <+: s := by
  rw [find_eq_some_iff hpat]
  simp [OccursAt]

namespace Keystore

variable {cfg : Config} {K P : Type}

/-- `find_persona(q)` of a short id returns the persona of the first entry in map order whose
id begins with `q`, and fails when no id does, however many ids begin with `q`; any other
valid id finds the persona stored under it. -/
theorem findPersona_first_match (ks : Keystore cfg K P) {q : String} (valid : cfg.isHexHash q = true)
    (short : q.data.length = 16) :
    (∀ pre e post, ks.personas.entries = pre ++ e :: post → q.data <+: e.1.data →
        (∀ e' ∈ pre, ¬ q.data <+: e'.1.data) → ks.findPersona q = .ok e.2) ∧
      ((∀ e ∈ ks.personas.entries, ¬ q.data <+: e.1.data) →
        ks.findPersona q = .error "find_persona: No such persona.") ∧
      ∀ x p, cfg.isHexHash x = true → x.data.length ≠ 16 →
        (ks.findPersona x = .ok p ↔ ks.personas.find x = some p) := by
  have hne : q.data ≠ [] := fun h => by simp [h] at short
  have hscan : ∀ l : List (String × Persona K P),
      l.find? (fun e => find q.data e.1.data = some 0) = l.find? (fun e => q.data <+: e.1.data) :=
    fun l => by simp only [find_eq_zero_iff hne]
  refine ⟨fun pre e post hl he hpre => ?_, fun hnone => ?_, fun x p hx hx16 => ?_⟩
  · have hpre' : pre.find? (fun e => q.data <+: e.1.data) = none :=
      List.find?_eq_none.mpr fun e' he' => by simpa using hpre e' he'
    have hcons : (e :: post).find? (fun e => q.data <+: e.1.data) = some e :=
      List.find?_cons_of_pos _ (by simpa using he)
    simp only [findPersona, valid, Bool.true_eq_false, if_false, short, if_true, hscan, hl,
      List.find?_append, hpre', hcons, Option.none_or]
  · have hfind : ks.personas.find q = none := by
      simp only [KeyMap.find, Option.map_eq_none', List.find?_eq_none]
      intro e he heq
      exact hnone e he (by simp only [decide_eq_true_eq] at heq; rw [heq])
    have hall : ks.personas.entries.find? (fun e => q.data <+: e.1.data) = none :=
      List.find?_eq_none.mpr fun e he => by simpa using hnone e he
    simp only [findPersona, valid, Bool.true_eq_false, if_false, short, if_true, hscan, hall, hfind]
  · simp only [findPersona, hx, Bool.true_eq_false, if_false, hx16, if_false]
    split <;> simp_all

/-- Two personas whose ids share the short id `0123456789abcdef`. -/
def twoPrefixed : Keystore TestDouble.config TestDouble.Key Nat :=
  { TestDouble.keystore with personas := ⟨[
      ("0123456789abcdef0", Persona.new ["ks"] "0123456789abcdef0" ""),
      ("0123456789abcdef1", Persona.new ["ks"] "0123456789abcdef1" "")]⟩ }

/-- The short id of `twoPrefixed` finds the persona of its first entry. -/
theorem findPersona_first_match_ec :
    TestDouble.config.isHexHash "0123456789abcdef" = true ∧ "0123456789abcdef".data.length = 16 ∧
      twoPrefixed.findPersona "0123456789abcdef" = .ok (Persona.new ["ks"] "0123456789abcdef0" "") :=
  have valid : TestDouble.config.isHexHash "0123456789abcdef" = true := by decide
  have short : "0123456789abcdef".data.length = 16 := rfl
  ⟨valid, short, (findPersona_first_match twoPrefixed valid short).1 []
      ("0123456789abcdef0", Persona.new ["ks"] "0123456789abcdef0" "")
      [("0123456789abcdef1", Persona.new ["ks"] "0123456789abcdef1" "")] rfl ⟨['0'], rfl⟩
      (List.forall_mem_nil _)⟩

/-- Both ids begin with the short id, and `find_persona` returns the first persona instead
of rejecting the ambiguous short id. -/
theorem findPersona_ambiguous :
    TestDouble.config.isHexHash "0123456789abcdef" = true ∧ "0123456789abcdef".data.length = 16 ∧
      twoPrefixed.personas.entries.length = 2 ∧
      (∀ e ∈ twoPrefixed.personas.entries, "0123456789abcdef".data <+: e.1.data) ∧
      twoPrefixed.findPersona "0123456789abcdef" = .ok (Persona.new ["ks"] "0123456789abcdef0" "") :=
  ⟨by decide, rfl, rfl, by decide, rfl⟩

end Keystore

end OpmsgKeystore
