import Mathlib.Data.List.Nodup

/-! Finite maps that are enumerated in the order in which their keys were first set. -/

namespace OpenGsn

structure InsertionMap (κ α : Type) where
  entries : List (κ × α)
  distinct : (entries.map Prod.fst).Nodup

namespace InsertionMap

variable {κ α : Type}

def empty : InsertionMap κ α := ⟨[], List.nodup_nil⟩

def keys (map : InsertionMap κ α) : List κ := map.entries.map Prod.fst

def values (map : InsertionMap κ α) : List α := map.entries.map Prod.snd

def size (map : InsertionMap κ α) : ℕ := map.entries.length

theorem keys_nodup (map : InsertionMap κ α) : map.keys.Nodup := map.distinct

@[simp] theorem keys_empty : (empty : InsertionMap κ α).keys = [] := rfl

theorem keys_length (map : InsertionMap κ α) : map.keys.length = map.size := List.length_map _

theorem append_distinct (map : InsertionMap κ α) (key : κ) (value : α) (new : key ∉ map.keys) :
    ((map.entries ++ [(key, value)]).map Prod.fst).Nodup := by
  have appended : (map.entries ++ [(key, value)]).map Prod.fst = map.keys.concat key := by
    simp [keys]
  rw [appended]
  exact List.Nodup.concat new map.distinct

def mapValues (map : InsertionMap κ α) (change : α → α) : InsertionMap κ α where
  entries := map.entries.map fun entry => (entry.1, change entry.2)
  distinct := by
    rw [List.map_map]
    exact map.distinct

@[simp] theorem keys_mapValues (map : InsertionMap κ α) (change : α → α) :
    (map.mapValues change).keys = map.keys := by
  rw [keys, mapValues, List.map_map]
  rfl

variable [DecidableEq κ]

def has (map : InsertionMap κ α) (key : κ) : Bool := key ∈ map.keys

theorem has_iff (map : InsertionMap κ α) (key : κ) : map.has key = true ↔ key ∈ map.keys :=
  decide_eq_true_iff

def get (map : InsertionMap κ α) (key : κ) : Option α :=
  (map.entries.find? fun entry => entry.1 = key).map Prod.snd

def replace (key : κ) (value : α) (entries : List (κ × α)) : List (κ × α) :=
  entries.map fun entry => if entry.1 = key then (key, value) else entry

theorem replace_keys (key : κ) (value : α) (entries : List (κ × α)) :
    (replace key value entries).map Prod.fst = entries.map Prod.fst := by
  induction entries with
  | nil => rfl
  | cons entry rest ih =>
      by_cases same : entry.1 = key <;> simpa [replace, same] using ih

def set (map : InsertionMap κ α) (key : κ) (value : α) : InsertionMap κ α :=
  if present : key ∈ map.keys then
    ⟨replace key value map.entries, (replace_keys key value map.entries).symm ▸ map.distinct⟩
  else
    ⟨map.entries ++ [(key, value)], append_distinct map key value present⟩

def merge (map : InsertionMap κ α) (entries : List (κ × α)) : InsertionMap κ α :=
  entries.foldl (fun merged entry => merged.set entry.1 entry.2) map

theorem keys_set_new (map : InsertionMap κ α) (key : κ) (value : α) (new : key ∉ map.keys) :
    (map.set key value).keys = map.keys ++ [key] := by
  rw [set, dif_neg new]
  exact List.map_append

theorem keys_set_present (map : InsertionMap κ α) (key : κ) (value : α) (present : key ∈ map.keys) :
    (map.set key value).keys = map.keys := by
  rw [set, dif_pos present]
  exact replace_keys key value map.entries

@[simp] theorem mem_keys_set (map : InsertionMap κ α) (key other : κ) (value : α) :
    other ∈ (map.set key value).keys ↔ other ∈ map.keys ∨ other = key := by
  by_cases present : key ∈ map.keys
  · rw [keys_set_present map key value present]
    exact ⟨Or.inl, fun found => found.elim id fun same => same ▸ present⟩
  · rw [keys_set_new map key value present, List.mem_append, List.mem_singleton]

theorem mem_keys_merge (map : InsertionMap κ α) (entries : List (κ × α)) (key : κ) :
    key ∈ (map.merge entries).keys ↔ key ∈ map.keys ∨ key ∈ entries.map Prod.fst := by
  induction entries generalizing map with
  | nil => simp [merge]
  | cons entry rest ih =>
      have merged := ih (map.set entry.1 entry.2)
      rw [mem_keys_set] at merged
      rw [List.map_cons, List.mem_cons, ← or_assoc]
      exact merged

theorem mem_entries_set (map : InsertionMap κ α) (key : κ) (value : α) (entry : κ × α)
    (member : entry ∈ (map.set key value).entries) : entry ∈ map.entries ∨ entry = (key, value) := by
  by_cases present : key ∈ map.keys
  · rw [set, dif_pos present] at member
    obtain ⟨old, there, replaced⟩ := List.mem_map.mp member
    by_cases same : old.1 = key
    · rw [if_pos same] at replaced
      exact Or.inr replaced.symm
    · rw [if_neg same] at replaced
      exact Or.inl (replaced ▸ there)
  · rw [set, dif_neg present] at member
    exact (List.mem_append.mp member).imp_right List.mem_singleton.mp

theorem mem_entries_merge (map : InsertionMap κ α) (entries : List (κ × α)) (entry : κ × α)
    (member : entry ∈ (map.merge entries).entries) : entry ∈ map.entries ∨ entry ∈ entries := by
  induction entries generalizing map with
  | nil => exact Or.inl member
  | cons head rest ih =>
      cases ih (map.set head.1 head.2) member with
      | inl before =>
          exact (mem_entries_set map head.1 head.2 entry before).imp_right fun same =>
            List.mem_cons.mpr (Or.inl same)
      | inr after => exact Or.inr (List.mem_cons_of_mem head after)

end InsertionMap

end OpenGsn
