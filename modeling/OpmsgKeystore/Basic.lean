import Mathlib.Data.List.Basic
import Mathlib.Data.Nat.Digits
import Mathlib.Data.String.Basic
import Mathlib.Order.Basic

/-!
# Basic data of the opmsg keystore

`keystore.cc` keeps personas in a base directory and refers to everything on disk by
string paths built as `cfgbase + "/" + id + "/" + hex + "/dh.pub.pem"`. This module fixes
the vocabulary the rest of the model shares:

* `Path`: a path as the list of its components below the file system root;
* the marker strings of `marker.h` that the code uses (`pub_begin`, `pub_end`, and the
  `rsa`/`ec` type names that become file names);
* `KeyMap`: the `std::map<string, T *>` of `keys` and `personas`, kept sorted by key as the
  standard map iterates it;
* `Config`: the two helpers the file calls but does not define, `is_hex_hash` and the
  reserved kex ids `marker::rsa_kex_id` and `marker::ec_kex_id`, with what the spec says
  about them;
* `Md`: the configured message digest followed by `blob2hex`;
* `uniqueName`: the staging name `mkdir_helper` prints with `"/%zx.%zx.%d"`.

File contents and the strings the code reads and writes are `String`s whose characters stand
for bytes: `bn2bin`, the 8192-byte `fread` buffer (`freadBuf`) and the 512-byte `fgets` line
(`readLine`) count characters as the source counts bytes. A bound on a length in this model,
such as the 510 characters of a name that `persona::load` reads back whole, is a bound in
bytes for text whose characters are all below 256.
-/

namespace OpmsgKeystore

/-- A path, as the list of its components below the root. `cfgbase + "/" + id` is
`cfgbase ++ [id]`. -/
abbrev Path := List String

/-! ## Markers -/

/-- `marker::pub_begin`, the PEM header of a SubjectPublicKeyInfo. -/
def pubBegin : String := "-----BEGIN PUBLIC KEY-----"

/-- `marker::pub_end`. -/
def pubEnd : String := "-----END PUBLIC KEY-----"

/-- The persona type, `marker::rsa`, `marker::ec` or `marker::unknown` in the source. -/
inductive PType
  | rsa
  | ec
  | unknown
  deriving DecidableEq, Repr

/-- The type's marker string, which the source pastes into file names. -/
def PType.marker : PType → String
  | .rsa => "rsa"
  | .ec => "ec"
  | .unknown => "unknown"

/-- `<type>.pub.pem`. -/
def PType.pubFile (t : PType) : String := t.marker ++ ".pub.pem"

/-- `<type>.priv.pem`. -/
def PType.privFile (t : PType) : String := t.marker ++ ".priv.pem"

/-! ## The standard map -/

/-- A `std::map<string, V>`: its entries in increasing key order. -/
structure KeyMap (V : Type) where
  entries : List (String × V)

namespace KeyMap

variable {V : Type}

def empty : KeyMap V := ⟨[]⟩

/-- `m.find(k)`, with `end()` as `none`; `m.count(k) > 0` followed by `m[k]` is a match on it. -/
def find (m : KeyMap V) (k : String) : Option V :=
  (m.entries.find? (·.1 = k)).map (·.2)

/-- Insertion into a sorted entry list, replacing an entry of the same key. -/
def insertEntry (k : String) (v : V) : List (String × V) → List (String × V)
  | [] => [(k, v)]
  | (k', v') :: rest =>
    if k < k' then (k, v) :: (k', v') :: rest
    else if k = k' then (k, v) :: rest
    else (k', v') :: insertEntry k v rest

/-- `m[k] = v`. -/
def insert (m : KeyMap V) (k : String) (v : V) : KeyMap V := ⟨insertEntry k v m.entries⟩

/-- `m.erase(k)`. -/
def erase (m : KeyMap V) (k : String) : KeyMap V := ⟨m.entries.filter (·.1 ≠ k)⟩

@[simp] theorem find_empty (k : String) : (empty : KeyMap V).find k = none := rfl

theorem find_insertEntry (k k' : String) (v : V) (l : List (String × V)) :
    ((insertEntry k v l).find? (·.1 = k')).map (·.2) =
      if k' = k then some v else (l.find? (·.1 = k')).map (·.2) := by
  induction l with
  | nil => by_cases h : k' = k <;> simp [insertEntry, h, eq_comm]
  | cons e rest ih =>
    obtain ⟨k'', v''⟩ := e
    rw [insertEntry]
    by_cases hlt : k < k''
    · rw [if_pos hlt]
      by_cases h : k' = k
      · subst h
        simp [List.find?_cons]
      · simp [List.find?_cons, h, Ne.symm h]
    · rw [if_neg hlt]
      by_cases heq : k = k''
      · subst heq
        rw [if_pos rfl]
        by_cases h : k' = k
        · subst h
          simp [List.find?_cons]
        · simp [List.find?_cons, h, Ne.symm h]
      · rw [if_neg heq]
        by_cases h : k'' = k'
        · subst h
          simp [List.find?_cons, heq, Ne.symm heq]
        · simp [List.find?_cons, h, ih]

@[simp] theorem find_insert (m : KeyMap V) (k k' : String) (v : V) :
    (m.insert k v).find k' = if k' = k then some v else m.find k' :=
  find_insertEntry k k' v m.entries

@[simp] theorem find_erase (m : KeyMap V) (k k' : String) :
    (m.erase k).find k' = if k' = k then none else m.find k' := by
  simp only [erase, find]
  split_ifs with h
  · subst h
    simp [List.find?_filter]
  · induction m.entries with
    | nil => rfl
    | cons e rest ih =>
      by_cases he : e.1 = k <;> by_cases he' : e.1 = k' <;>
        simp_all [List.filter_cons, List.find?_cons]

end KeyMap

/-! ## Helpers the file calls but does not define -/

/-- A lowercase hexadecimal digit. -/
def isLowerHexDigit (c : Char) : Prop := ('0' ≤ c ∧ c ≤ '9') ∨ ('a' ≤ c ∧ c ≤ 'f')

instance (c : Char) : Decidable (isLowerHexDigit c) := by unfold isLowerHexDigit; infer_instance

/-- `is_hex_hash` (from `misc.cc`) and the reserved ids of `marker.h` are not part of this
file. Modelled from the spec: a hex id is a lowercase hexadecimal string, 16 characters for
the short form and at most `2 * EVP_MAX_MD_SIZE` for a digest. The reserved ids are opaque
tokens. -/
structure Config where
  isHexHash : String → Bool
  rsaKexId : String
  ecKexId : String
  isHexHash_digits : ∀ s, isHexHash s = true → ∀ c ∈ s.data, isLowerHexDigit c
  isHexHash_length : ∀ s, isHexHash s = true → s.length ≤ 128

/-- The message digest `md` of the keystore, followed by `blob2hex`: the lowercase hex of the
digest of a byte string. Its output is a hex id (spec, data model invariant 1). -/
structure Md (cfg : Config) where
  hexdigest : String → String
  hexdigest_isHexHash : ∀ s, cfg.isHexHash (hexdigest s) = true

/-- Time of day as `gettimeofday` returns it. -/
structure Timeval where
  sec : Nat
  usec : Nat
  deriving DecidableEq, Repr

/-- The name `mkdir_helper` gives a staging directory: `"%zx.%zx.%d"` of the seconds, the
microseconds and the process id. -/
def uniqueName (tv : Timeval) (pid : Nat) : String :=
  ⟨Nat.toDigits 16 tv.sec ++ '.' :: Nat.toDigits 16 tv.usec ++ '.' :: Nat.toDigits 10 pid⟩

theorem dot_mem_uniqueName (tv : Timeval) (pid : Nat) : '.' ∈ (uniqueName tv pid).data := by
  simp [uniqueName]

/-- A staging name is never a hex id: it has a dot. -/
theorem uniqueName_not_hex (cfg : Config) (tv : Timeval) (pid : Nat) :
    cfg.isHexHash (uniqueName tv pid) = false := by
  cases h : cfg.isHexHash (uniqueName tv pid)
  · rfl
  · have := cfg.isHexHash_digits _ h '.' (dot_mem_uniqueName tv pid)
    simp [isLowerHexDigit] at this

theorem ne_uniqueName {cfg : Config} {hex : String} (h : cfg.isHexHash hex = true)
    (tv : Timeval) (pid : Nat) : hex ≠ uniqueName tv pid := by
  rintro rfl
  simp [uniqueName_not_hex] at h

theorem isHexHash_of_mem {cfg : Config} {x : String} {c : Char} (hc : c ∈ x.data)
    (hd : ¬ isLowerHexDigit c) : cfg.isHexHash x = false := by
  cases h : cfg.isHexHash x
  · rfl
  · exact absurd (cfg.isHexHash_digits x h c hc) hd

end OpmsgKeystore
