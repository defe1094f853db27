import EchoIrcd.Lib.Table
import Mathlib.Data.Finset.Card

/-!
# Counters kept beside a table

Holders on a roll carry labels, and a tally counts how many holders carry each
label.  It is kept by increments and decrements where a holder appears,
disappears or changes its label, and a counter that reaches zero is dropped.
All of these are a change at one holder, and one equation says what such a
change does to the numbers.
-/

theorem Table.length_filter_toPairs {K V : Type} [DecidableEq K] (table : Table K V)
    (keep : K × V → Bool) :
    ((toPairs table).filter keep).length =
      (table.keys.toFinset.filter fun key =>
        (table.lookup key).any fun value => keep (key, value)).card := by
  have hkeys : (toPairs table).map Prod.fst = table.keys := by
    simp only [toPairs, List.map_map, AList.keys, List.keys]
    rfl
  have hnd : (((toPairs table).filter keep).map Prod.fst).Nodup := by
    refine List.Nodup.sublist (List.Sublist.map _ List.filter_sublist) ?_
    rw [hkeys]
    exact table.keys_nodup
  rw [← List.length_map (f := Prod.fst), ← List.toFinset_card_of_nodup hnd]
  congr 1
  ext key
  simp only [List.mem_toFinset, List.mem_map, List.mem_filter, Finset.mem_filter,
    Option.any_eq_true, Prod.exists, mem_toPairs]
  constructor
  · rintro ⟨_, value, ⟨hval, hkept⟩, rfl⟩
    exact ⟨AList.mem_keys.mp (mem_of_lookup hval), value, hval, hkept⟩
  · rintro ⟨-, value, hval, hkept⟩
    exact ⟨key, value, ⟨hval, hkept⟩, rfl⟩

abbrev Tally (L : Type) := Table L Nat

namespace Tally

variable {L H : Type} [DecidableEq L]

def get (tally : Tally L) (label : L) : Nat := (tally.lookup label).getD 0

def inc (label : L) (tally : Tally L) : Tally L :=
  tally.insert label (tally.get label + 1)

def dec (label : L) (tally : Tally L) : Tally L :=
  match tally.lookup label with
  | some count =>
    if count - 1 = 0 then tally.erase label else tally.insert label (count - 1)
  | none => tally

def drop (label : Option L) (tally : Tally L) : Tally L := label.elim tally (dec · tally)

def add (label : Option L) (tally : Tally L) : Tally L := label.elim tally (inc · tally)

theorem get_inc (tally : Tally L) (label other : L) :
    (tally.inc label).get other = tally.get other + if other = label then 1 else 0 := by
  by_cases ho : other = label
  · subst ho
    simp [get, inc]
  · simp [get, inc, ho]

theorem get_dec (tally : Tally L) (label other : L) :
    (tally.dec label).get other = tally.get other - if other = label then 1 else 0 := by
  unfold dec
  cases hcnt : tally.lookup label with
  | none =>
    by_cases ho : other = label
    · subst ho
      simp [get, hcnt]
    · simp [ho]
  | some count =>
    by_cases ho : other = label
    · subst ho
      by_cases hlast : count - 1 = 0
      · simp [get, hcnt, hlast]
      · simp [get, hcnt, hlast]
    · by_cases hlast : count - 1 = 0
      · simp [get, hlast, ho]
      · simp [get, hlast, ho]

/-! ## Populations -/

variable [DecidableEq H]

def population (roll : Finset H) (labelOf : H → Option L) (label : L) : Nat :=
  (roll.filter fun holder => labelOf holder = some label).card

/-- Only `holder` may have come, gone or changed its label. -/
structure Shift (roll roll' : Finset H) (labelOf labelOf' : H → Option L) (holder : H) :
    Prop where
  others : ∀ other, other ≠ holder → (other ∈ roll' ↔ other ∈ roll)
  label : ∀ other, other ≠ holder → labelOf' other = labelOf other
  before : holder ∉ roll → labelOf holder = none
  after : holder ∉ roll' → labelOf' holder = none

section

variable {roll roll' : Finset H} {labelOf labelOf' : H → Option L} {holder : H}

theorem population_eq_erase (hlabel : holder ∉ roll → labelOf holder = none) (label : L) :
    population roll labelOf label = population (roll.erase holder) labelOf label +
      if labelOf holder = some label then 1 else 0 := by
  unfold population
  rw [Finset.filter_erase]
  by_cases hhol : labelOf holder = some label
  · have hmem : holder ∈ roll := by
      by_contra habs
      rw [hlabel habs] at hhol
      cases hhol
    rw [if_pos hhol, Finset.card_erase_add_one]
    exact Finset.mem_filter.mpr ⟨hmem, hhol⟩
  · have hnot : holder ∉ roll.filter fun other => labelOf other = some label :=
      fun hmem => hhol (Finset.mem_filter.mp hmem).2
    rw [if_neg hhol, Finset.erase_eq_of_notMem hnot]
    omega

theorem Shift.population (hshift : Shift roll roll' labelOf labelOf' holder) (label : L) :
    Tally.population roll' labelOf' label + (if labelOf holder = some label then 1 else 0) =
      Tally.population roll labelOf label +
        if labelOf' holder = some label then 1 else 0 := by
  have hrest : Tally.population (roll'.erase holder) labelOf' label =
      Tally.population (roll.erase holder) labelOf label := by
    unfold Tally.population
    congr 1
    ext other
    simp only [Finset.mem_filter, Finset.mem_erase]
    constructor
    · rintro ⟨⟨hne, hmem⟩, hcarr⟩
      exact ⟨⟨hne, (hshift.others other hne).mp hmem⟩, hshift.label other hne ▸ hcarr⟩
    · rintro ⟨⟨hne, hmem⟩, hcarr⟩
      exact ⟨⟨hne, (hshift.others other hne).mpr hmem⟩, hshift.label other hne ▸ hcarr⟩
  rw [population_eq_erase hshift.before, population_eq_erase hshift.after, hrest]
  omega

theorem Shift.population_eq (hshift : Shift roll roll' labelOf labelOf' holder)
    (hs : labelOf' holder = labelOf holder) (label : L) :
    Tally.population roll' labelOf' label = Tally.population roll labelOf label := by
  have hmv := hshift.population label
  rw [hs] at hmv
  omega

/-! ## Exact tallies -/

def Counts (tally : Tally L) (roll : Finset H) (labelOf : H → Option L) : Prop :=
  ∀ label, tally.get label = population roll labelOf label

variable {tally : Tally L}

section

variable (hcts : tally.Counts roll labelOf) (hshift : Shift roll roll' labelOf labelOf' holder)

include hcts hshift

/-- The holder gives up its label, if it had one, and takes the new one, if there is one. -/
theorem Counts.change {old new : Option L} (hold : labelOf holder = old)
    (hnew : labelOf' holder = new) : ((tally.drop old).add new).Counts roll' labelOf' := by
  intro other
  have hmv := hshift.population other
  have hcar := population_eq_erase hshift.before other
  rw [hold, hnew] at hmv
  rw [hold] at hcar
  cases old <;> cases new <;>
    simp only [drop, add, Option.elim, get_inc, get_dec, hcts other, Option.some.injEq,
      reduceCtorEq, if_false, @eq_comm _ other] at hmv hcar ⊢ <;> omega

theorem Counts.stay (hs : labelOf' holder = labelOf holder) : tally.Counts roll' labelOf' := by
  intro other
  rw [hcts other, hshift.population_eq hs]

end

end

end Tally
