/-
  Bounded tables with a key: at most `cap` rows, no two of them with the same key.

  Both facts are part of the type, so a loop that edits such a table has nothing to show about them,
  and a COUNTING ARGUMENT (`rows_lt_of_keys_subset`) tells when there is room for a new key.
-/
import Mathlib

namespace TsAnalyzer.Lib

open List

variable {κ ν : Type}

/-- At most `cap` rows with distinct keys. -/
structure KeyTable (key : ν → κ) (cap : Nat) where
  rows : List ν
  room : rows.length ≤ cap
  distinct : (rows.map key).Nodup

namespace KeyTable

variable {key : ν → κ} {cap : Nat}

def keys (t : KeyTable key cap) : List κ := t.rows.map key

def empty (key : ν → κ) (cap : Nat) : KeyTable key cap := ⟨[], Nat.zero_le _, nodup_nil⟩

variable {v : ν} {k : κ} {f : ν → ν} {t : KeyTable key cap}

theorem row_unique (t : KeyTable key cap) {w : ν} (hv : v ∈ t.rows) (hw : w ∈ t.rows)
    (hkey : key v = key w) : v = w :=
  inj_on_of_nodup_map t.distinct hv hw hkey

/-! ## Adding a row -/

/-- One more row, at the end. -/
def add (t : KeyTable key cap) (v : ν) (hnew : key v ∉ t.keys) (hroom : t.rows.length < cap) :
    KeyTable key cap where
  rows := t.rows ++ [v]
  room := by rw [length_append]; exact hroom
  distinct := by
    rw [map_append, nodup_append]
    refine ⟨t.distinct, nodup_singleton _, ?_⟩
    rintro k hk k' hk' rfl
    rw [map_singleton, mem_singleton] at hk'
    exact hnew (hk' ▸ hk)

@[simp] theorem keys_add (t : KeyTable key cap) (hnew : key v ∉ t.keys)
    (hroom : t.rows.length < cap) : (t.add v hnew hroom).keys = t.keys ++ [key v] :=
  map_append

@[simp] theorem mem_add {w : ν} {hnew : key v ∉ t.keys} {hroom : t.rows.length < cap} :
    w ∈ (t.add v hnew hroom).rows ↔ w ∈ t.rows ∨ w = v := by
  show w ∈ t.rows ++ [v] ↔ _
  rw [mem_append, mem_singleton]

/-- **There is room for a new key** as long as all keys come from a list that fits. -/
theorem rows_lt_of_keys_subset {ks : List κ} (hsub : t.keys ⊆ ks) (hk : k ∈ ks) (hnew : k ∉ t.keys)
    (hfit : ks.length ≤ cap) : t.rows.length < cap := by
  have hnodup : (k :: t.keys).Nodup := nodup_cons.mpr ⟨hnew, t.distinct⟩
  have hall : k :: t.keys ⊆ ks := cons_subset.mpr ⟨hk, hsub⟩
  have hle := (subperm_of_subset hnodup hall).length_le
  rw [length_cons, keys, length_map] at hle
  omega

/-! ## Finding and changing a row -/

variable [DecidableEq κ]

def find? (t : KeyTable key cap) (k : κ) : Option ν := t.rows.find? fun v => key v = k

theorem find?_eq_none : t.find? k = none ↔ k ∉ t.keys := by
  simp [find?, keys]

theorem mem_of_find? (h : t.find? k = some v) : v ∈ t.rows ∧ key v = k :=
  ⟨mem_of_find?_eq_some h, by simpa using find?_some h⟩

/-- `f` on the rows of key `k`, of which there is at most one. -/
def updateRows (key : ν → κ) (k : κ) (f : ν → ν) (rows : List ν) : List ν :=
  rows.map fun v => if key v = k then f v else v

theorem map_key_updateRows (hf : ∀ v, key (f v) = key v) (k : κ) (rows : List ν) :
    (updateRows key k f rows).map key = rows.map key := by
  rw [updateRows, map_map]
  refine map_congr_left fun v _ => ?_
  show key (if key v = k then f v else v) = key v
  split
  · exact hf v
  · rfl

/-- Change the row of a key by a function that keeps the key. -/
def update (t : KeyTable key cap) (k : κ) (f : ν → ν) (hf : ∀ v, key (f v) = key v) :
    KeyTable key cap where
  rows := updateRows key k f t.rows
  room := by rw [updateRows, length_map]; exact t.room
  distinct := by rw [map_key_updateRows hf]; exact t.distinct

@[simp] theorem keys_update (t : KeyTable key cap) (k : κ) (hf : ∀ v, key (f v) = key v) :
    (t.update k f hf).keys = t.keys :=
  map_key_updateRows hf k t.rows

theorem mem_update {hf : ∀ v, key (f v) = key v} : v ∈ (t.update k f hf).rows ↔
      (v ∈ t.rows ∧ key v ≠ k) ∨ ∃ w ∈ t.rows, key w = k ∧ f w = v := by
  show v ∈ updateRows key k f t.rows ↔ _
  rw [updateRows, mem_map]
  constructor
  · rintro ⟨w, hw, rfl⟩
    by_cases hk : key w = k
    · rw [if_pos hk]
      exact .inr ⟨w, hw, hk, rfl⟩
    · rw [if_neg hk]
      exact .inl ⟨hw, hk⟩
  · rintro (⟨hv, hk⟩ | ⟨w, hw, hk, rfl⟩)
    · exact ⟨v, hv, if_neg hk⟩
    · exact ⟨w, hw, if_pos hk⟩

end KeyTable

end TsAnalyzer.Lib
