import Mathlib.Data.List.AList

/-!
# Finite tables

A keyed store is an association list without duplicate keys.  Mathlib supplies
lookup, insertion and erasure; this file adds the operations a mutable hash map
offers on top of them: updating a present entry in place, keeping the entries
that satisfy a test, rewriting every value and reading the entries off as
pairs.  Every operation is characterised by what `lookup` returns afterwards.
-/

abbrev Table (K V : Type) := AList (fun _ : K => V)

namespace Table

variable {K V W : Type} [DecidableEq K] {key other : K} {table : Table K V} {value : V}

theorem lookup_insert_eq (table : Table K V) (key other : K) (value : V) :
    (table.insert key value).lookup other =
      if other = key then some value else table.lookup other := by
  by_cases hkey : other = key
  · subst hkey
    simp
  · simp [hkey, AList.lookup_insert_ne hkey]

theorem lookup_erase_eq (table : Table K V) (key other : K) :
    (table.erase key).lookup other = if other = key then none else table.lookup other := by
  by_cases hkey : other = key
  · subst hkey
    simp
  · simp [hkey, AList.lookup_erase_ne hkey]

theorem of_lookup_insert {found : V} (hf : (table.insert key value).lookup other = some found) :
    other = key ∧ value = found ∨ other ≠ key ∧ table.lookup other = some found := by
  rw [lookup_insert_eq] at hf
  split at hf
  · rename_i hkey
    exact .inl ⟨hkey, Option.some.inj hf⟩
  · rename_i hkey
    exact .inr ⟨hkey, hf⟩

theorem of_lookup_erase (hf : (table.erase key).lookup other = some value) :
    other ≠ key ∧ table.lookup other = some value := by
  rw [lookup_erase_eq] at hf
  split at hf
  · cases hf
  · rename_i hkey
    exact ⟨hkey, hf⟩

theorem mem_iff_lookup : key ∈ table ↔ ∃ value, table.lookup key = some value := by
  rw [← AList.lookup_isSome, Option.isSome_iff_exists]

theorem mem_of_lookup (hf : table.lookup key = some value) : key ∈ table :=
  mem_iff_lookup.mpr ⟨value, hf⟩

/-! ## Updating a present entry -/

/-- Apply `change` to the value stored under `key`, if there is one. -/
def modify (key : K) (change : V → V) (table : Table K V) : Table K V :=
  match table.lookup key with
  | some value => table.insert key (change value)
  | none => table

theorem lookup_modify (table : Table K V) (key other : K) (change : V → V) :
    (modify key change table).lookup other =
      if other = key then (table.lookup key).map change
      else table.lookup other := by
  unfold modify
  cases hval : table.lookup key with
  | some value => simp [lookup_insert_eq]
  | none =>
    by_cases hkey : other = key
    · subst hkey
      simp [hval]
    · simp [hkey]

@[simp] theorem lookup_modify_self (table : Table K V) (key : K) (change : V → V) :
    (modify key change table).lookup key = (table.lookup key).map change := by
  simp [lookup_modify]

theorem of_lookup_modify {change : V → V}
    (hf : (modify key change table).lookup other = some value) :
    ∃ earlier, table.lookup other = some earlier ∧
      (other = key ∧ value = change earlier ∨ other ≠ key ∧ value = earlier) := by
  rw [lookup_modify] at hf
  split at hf
  · rename_i hkey
    obtain ⟨earlier, hprev, rfl⟩ := Option.map_eq_some_iff.mp hf
    exact ⟨earlier, hkey ▸ hprev, .inl ⟨hkey, rfl⟩⟩
  · rename_i hkey
    exact ⟨value, hf, .inr ⟨hkey, rfl⟩⟩

theorem lookup_modify_ne (table : Table K V) (change : V → V) (hkey : other ≠ key) :
    (modify key change table).lookup other = table.lookup other := by
  simp [lookup_modify, hkey]

@[simp] theorem mem_modify {change : V → V} : other ∈ modify key change table ↔ other ∈ table := by
  rw [← AList.lookup_isSome, ← AList.lookup_isSome, lookup_modify]
  by_cases hkey : other = key
  · subst hkey
    simp
  · simp [hkey]

/-! ## Keeping the entries that pass a test -/

def retain (keep : K → V → Bool) (table : Table K V) : Table K V where
  entries := table.entries.filter fun entry => keep entry.1 entry.2
  nodupKeys := table.nodupKeys.sublist List.filter_sublist

@[simp] theorem lookup_retain (table : Table K V) (keep : K → V → Bool) (key : K) :
    (retain keep table).lookup key = (table.lookup key).filter (keep key) := by
  ext value
  rw [← Option.mem_def, AList.mem_lookup_iff, Option.filter_eq_some_iff,
    ← Option.mem_def, AList.mem_lookup_iff]
  simp [retain]

/-! ## Rewriting every value -/

def mapValues (change : K → V → W) (table : Table K V) : Table K W where
  entries := table.entries.map fun entry => ⟨entry.1, change entry.1 entry.2⟩
  nodupKeys := List.NodupKeys.map₂ change table.entries table.nodupKeys

@[simp] theorem lookup_mapValues (table : Table K V) (change : K → V → W) (key : K) :
    (mapValues change table).lookup key = (table.lookup key).map (change key) := by
  exact List.dlookup_map₂ key

/-! ## Listing the entries -/

/-- The table with the given entries; of two with one key the first counts. -/
def ofList (pairs : List (K × V)) : Table K V :=
  pairs.foldr (fun pair table => table.insert pair.1 pair.2) ∅

def toPairs (table : Table K V) : List (K × V) :=
  table.entries.map fun entry => (entry.1, entry.2)

theorem mem_toPairs : (key, value) ∈ toPairs table ↔ table.lookup key = some value := by
  rw [← Option.mem_def, AList.mem_lookup_iff]
  constructor
  · intro hmem
    obtain ⟨⟨_, _⟩, hent, heq⟩ := List.mem_map.mp hmem
    cases heq
    exact hent
  · intro hmem
    exact List.mem_map.mpr ⟨⟨key, value⟩, hmem, rfl⟩

theorem forall_lookup_iff {holds : K → V → Prop} :
    (∀ key value, table.lookup key = some value → holds key value) ↔
      ∀ entry ∈ toPairs table, holds entry.1 entry.2 :=
  ⟨fun hall entry hent => hall entry.1 entry.2 (mem_toPairs.mp hent),
    fun hall key value hf => hall (key, value) (mem_toPairs.mpr hf)⟩

def isEmpty (table : Table K V) : Bool := table.entries.isEmpty

omit [DecidableEq K] in
theorem isEmpty_eq_false : isEmpty table = false ↔ ∃ key, key ∈ table := by
  rw [isEmpty, List.isEmpty_eq_false_iff_exists_mem]
  constructor
  · rintro ⟨entry, hent⟩
    exact ⟨entry.1, List.mem_keys_of_mem hent⟩
  · rintro ⟨key, hkey⟩
    obtain ⟨value, hent⟩ := List.exists_of_mem_keys hkey
    exact ⟨_, hent⟩

end Table

/-- A loop over a list keeps what each of its rounds keeps. -/
theorem foldl_rel {σ α : Type} {rel : σ → σ → Prop} (hrefl : ∀ state, rel state state)
    (htrans : ∀ {first second third}, rel first second → rel second third → rel first third)
    {step : σ → α → σ} (hstep : ∀ state item, rel state (step state item)) (items : List α)
    (state : σ) : rel state (items.foldl step state) :=
  List.foldlRecOn items step (hrefl state)
    fun middle hmid item _ => htrans hmid (hstep middle item)
