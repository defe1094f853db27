import EchoIrcd.Lib.Tally
import Mathlib.Algebra.BigOperators.Group.Finset.Basic
import Mathlib.Algebra.Order.BigOperators.Group.Finset

/-!
# Lists that a tally has to cover

Every holder in a table keeps a list of labels, and a tally is kept beside the
table so that a label nobody lists is recognised without looking at the lists.
That is safe as long as the tally is nowhere below the number of entries.  One
rule for each operation says that it keeps this bound.
-/

namespace Table

variable {K V W : Type} [DecidableEq K] {new old : L} {weight : V → Nat} {change : V → V}
  {table : Table K V}

/-- The sum of a weight over the values of a table. -/
def total (weight : V → Nat) (table : Table K V) : Nat :=
  ∑ key ∈ table.keys.toFinset, (table.lookup key).elim 0 weight

theorem total_eq_sum {keys : Finset K} (weight : V → Nat) (hkeys : ∀ key ∈ table, key ∈ keys) :
    table.total weight = ∑ key ∈ keys, (table.lookup key).elim 0 weight := by
  apply Finset.sum_subset
  · intro key hkey
    exact hkeys key (AList.mem_keys.mpr (List.mem_toFinset.mp hkey))
  · intro key _ habs
    rw [List.mem_toFinset, AList.mem_keys.symm.not, ← AList.lookup_eq_none] at habs
    rw [habs, Option.elim_none]

theorem total_congr {other : Table K W} {weight' : W → Nat}
    (hs : ∀ key, (table.lookup key).elim 0 weight = (other.lookup key).elim 0 weight') :
    table.total weight = other.total weight' := by
  let keys := table.keys.toFinset ∪ other.keys.toFinset
  have hleft : ∀ key ∈ table, key ∈ keys := by
    intro key hkey
    simp [keys, AList.mem_keys.mp hkey]
  have hrt : ∀ key ∈ other, key ∈ keys := by
    intro key hkey
    simp [keys, AList.mem_keys.mp hkey]
  rw [total_eq_sum weight hleft, total_eq_sum weight' hrt]
  exact Finset.sum_congr rfl fun key _ => hs key

theorem total_eq_erase (table : Table K V) (weight : V → Nat) (key : K) :
    table.total weight = total weight (table.erase key) + (table.lookup key).elim 0 weight := by
  let keys := insert key table.keys.toFinset
  have hkeys : ∀ other ∈ table, other ∈ keys := by
    intro other ho
    simp [keys, AList.mem_keys.mp ho]
  have herase : ∀ other ∈ table.erase key, other ∈ keys :=
    fun other ho => hkeys other (AList.mem_erase.mp ho).2
  rw [total_eq_sum weight hkeys, total_eq_sum weight herase,
    ← Finset.add_sum_erase keys _ (Finset.mem_insert_self ..),
    ← Finset.add_sum_erase keys (fun other => ((table.erase key).lookup other).elim 0 weight)
      (Finset.mem_insert_self ..)]
  have hrest : ∑ other ∈ keys.erase key, ((table.erase key).lookup other).elim 0 weight =
      ∑ other ∈ keys.erase key, (table.lookup other).elim 0 weight := by
    refine Finset.sum_congr rfl fun other ho => ?_
    rw [AList.lookup_erase_ne (Finset.ne_of_mem_erase ho)]
  rw [hrest, AList.lookup_erase, Option.elim_none]
  omega

theorem total_shift {table' : Table K V} {key : K}
    (hoth : ∀ other, other ≠ key → table'.lookup other = table.lookup other) (weight : V → Nat) :
    table'.total weight + (table.lookup key).elim 0 weight =
      table.total weight + (table'.lookup key).elim 0 weight := by
  have hrest : total weight (table'.erase key) = total weight (table.erase key) := by
    refine total_congr fun other => ?_
    rw [lookup_erase_eq, lookup_erase_eq]
    split
    · rfl
    · rename_i hne
      rw [hoth other hne]
  rw [total_eq_erase table' weight key, total_eq_erase table weight key, hrest]
  omega

theorem total_mapValues (table : Table K V) (change : V → W) (weight : W → Nat) :
    (table.mapValues fun _ => change).total weight = table.total (weight ∘ change) := by
  refine total_congr fun key => ?_
  rw [lookup_mapValues]
  cases table.lookup key <;> rfl

theorem total_add (table : Table K V) (weight weight' : V → Nat) :
    table.total (fun value => weight value + weight' value) =
      table.total weight + table.total weight' := by
  rw [total, total, total, ← Finset.sum_add_distrib]
  refine Finset.sum_congr rfl fun key _ => ?_
  cases table.lookup key <;> rfl

theorem total_eq_zero :
    table.total weight = 0 ↔ ∀ key value, table.lookup key = some value → weight value = 0 := by
  rw [total, Finset.sum_eq_zero_iff]
  constructor
  · intro hzero key value hval
    have hkey : key ∈ table.keys.toFinset :=
      List.mem_toFinset.mpr (AList.mem_keys.mp (mem_of_lookup hval))
    simpa [hval] using hzero key hkey
  · intro hzero key _
    cases hval : table.lookup key with
    | none => rfl
    | some value => exact hzero key value hval

end Table

namespace Tally

variable {L H V : Type} [DecidableEq L] [DecidableEq H]

def demand (labels : V → List L) (table : Table H V) (label : L) : Nat :=
  table.total fun value => (labels value).count label

def Covers (tally : Tally L) (labels : V → List L) (table : Table H V) : Prop :=
  ∀ label, demand labels table label ≤ tally.get label

variable {tally : Tally L} {labels : V → List L} {table table' : Table H V} {label : L}
  {holder : H} {value value' : V}

theorem demand_eq_zero : demand labels table label = 0 ↔
    ∀ holder value, table.lookup holder = some value → label ∉ labels value := by
  simp only [demand, Table.total_eq_zero, List.count_eq_zero]

section

variable (hcvr : tally.Covers labels table)

include hcvr

theorem Covers.not_mem (hnone : tally.get label = 0)
    (hval : table.lookup holder = some value) : label ∉ labels value := by
  have hzero : demand labels table label = 0 := by
    have hbd := hcvr label
    omega
  exact demand_eq_zero.mp hzero holder value hval

theorem Covers.congr
    (hs : ∀ holder, (table'.lookup holder).map labels = (table.lookup holder).map labels) :
    tally.Covers labels table' := by
  intro label
  have hdemand : demand labels table' label = demand labels table label := by
    refine Table.total_congr fun key => ?_
    have hkey := congrArg (Option.elim · 0 fun list => list.count label) (hs key)
    simpa only [Option.elim_map, Function.comp_def] using hkey
  rw [hdemand]
  exact hcvr label

theorem Covers.arrive (hfre : holder ∉ table)
    (hemp : labels value = []) : tally.Covers labels (table.insert holder value) := by
  intro label
  have hoth : ∀ other, other ≠ holder →
      (table.insert holder value).lookup other = table.lookup other :=
    fun _ ho => AList.lookup_insert_ne ho
  have hshift := Table.total_shift hoth fun value => (labels value).count label
  have hbd := hcvr label
  rw [AList.lookup_eq_none.mpr hfre, AList.lookup_insert, Option.elim_none, Option.elim_some,
    hemp, List.count_nil] at hshift
  simp only [demand] at hbd ⊢
  omega

section

variable (hval : table.lookup holder = some value)
  (hval' : table'.lookup holder = some value')
  (hoth : ∀ other, other ≠ holder → table'.lookup other = table.lookup other)

include hval hval' hoth

theorem Covers.push (hlbs : labels value' = labels value ++ [label]) :
    (tally.inc label).Covers labels table' := by
  intro other
  have hshift := Table.total_shift hoth fun value => (labels value).count other
  have hbd := hcvr other
  rw [hval, hval', Option.elim_some, Option.elim_some, hlbs, List.count_append,
    List.count_singleton] at hshift
  rw [get_inc]
  simp only [demand] at hbd ⊢
  by_cases ho : other = label
  · subst ho
    simp only [beq_self_eq_true, if_true] at hshift ⊢
    omega
  · rw [if_neg (by simpa using Ne.symm ho)] at hshift
    omega

theorem Covers.drop (hmem : label ∈ labels value)
    (hlbs : labels value' = (labels value).filter (· ≠ label)) :
    (tally.dec label).Covers labels table' := by
  intro other
  have hshift := Table.total_shift hoth fun value => (labels value).count other
  have hbd := hcvr other
  rw [hval, hval', Option.elim_some, Option.elim_some, hlbs] at hshift
  rw [get_dec]
  simp only [demand] at hbd ⊢
  by_cases ho : other = label
  · subst ho
    have hnone : ((labels value).filter (· ≠ other)).count other = 0 := by
      rw [List.count_eq_zero]
      simp
    have hsome : 0 < (labels value).count other := List.count_pos_iff.mpr hmem
    rw [if_pos rfl]
    omega
  · have hkept : ((labels value).filter (· ≠ label)).count other = (labels value).count other :=
      List.count_filter (by simpa using ho)
    rw [if_neg ho]
    omega

end

end

theorem get_foldl_dec (list : List L) (tally : Tally L) (label : L) :
    (list.foldl (fun tally label => tally.dec label) tally).get label =
      tally.get label - list.count label := by
  induction list generalizing tally with
  | nil => rfl
  | cons head tail ih =>
    rw [List.foldl_cons, ih, get_dec, List.count_cons]
    by_cases hhead : label = head
    · subst hhead
      simp only [if_true, beq_self_eq_true]
      omega
    · rw [if_neg hhead, if_neg (by simpa using Ne.symm hhead)]
      omega

theorem Covers.depart (hcvr : tally.Covers labels table)
    (hval : table.lookup holder = some value) :
    Covers ((labels value).foldl (fun tally label => tally.dec label) tally) labels
      (table.erase holder) := by
  intro label
  have hspl := table.total_eq_erase (fun value => (labels value).count label) holder
  have hbd := hcvr label
  rw [hval, Option.elim_some] at hspl
  rw [get_foldl_dec]
  simp only [demand] at hbd ⊢
  omega

/-! ## Renaming and forgetting a label -/

/-- The count of one label is added to another. -/
def move (old new : L) (tally : Tally L) : Tally L :=
  match tally.lookup old with
  | some count => (tally.erase old).insert new (get (tally.erase old) new + count)
  | none => tally

theorem get_erase (tally : Tally L) (label other : L) :
    get (tally.erase label) other = if other = label then 0 else tally.get other := by
  rw [get, Table.lookup_erase_eq]
  split <;> rfl

theorem get_move (hne : old ≠ new) (tally : Tally L) (other : L) :
    (tally.move old new).get other =
      if other = new then tally.get new + tally.get old
      else if other = old then 0 else tally.get other := by
  unfold move
  cases hcnt : tally.lookup old with
  | none =>
    have hold : tally.get old = 0 := by rw [get, hcnt, Option.getD_none]
    by_cases hnew : other = new
    · simp [hnew, hold]
    · by_cases ho : other = old
      · simp [ho, hne, hold]
      · simp [hnew, ho]
  | some count =>
    have hold : tally.get old = count := by rw [get, hcnt, Option.getD_some]
    by_cases hnew : other = new
    · subst hnew
      rw [get, Table.lookup_insert_eq, if_pos rfl, get_erase, if_neg hne.symm, hold, if_pos rfl,
        Option.getD_some]
    · rw [get, Table.lookup_insert_eq, if_neg hnew, if_neg hnew]
      exact get_erase tally old other

def rename (old new label : L) : L := if label = old then new else label

theorem count_map_rename (hne : old ≠ new) (list : List L) (label : L) :
    (list.map (rename old new)).count label =
      if label = new then list.count new + list.count old
      else if label = old then 0 else list.count label := by
  induction list with
  | nil => simp
  | cons head tail ih =>
    simp only [List.map_cons, List.count_cons, ih, beq_iff_eq, rename]
    by_cases hhead : head = old
    · rw [if_pos hhead]
      by_cases hnew : label = new
      · simp only [hnew, hhead, hne, if_true, if_false]
        omega
      · by_cases hold : label = old
        · simp only [hold, hne, hne.symm, if_true, if_false]
        · simp only [hnew, hold, hhead, Ne.symm hnew, Ne.symm hold, if_false]
    · rw [if_neg hhead]
      by_cases hnew : label = new
      · simp only [hnew, hhead, if_true, if_false]
        omega
      · by_cases hold : label = old
        · simp only [hold, hne, hhead, if_true, if_false]
        · simp only [hnew, hold, if_false]

namespace Covers

variable (hcvr : tally.Covers labels table)

include hcvr

theorem rename (hne : old ≠ new)
    (hchg : ∀ value, labels (change value) = (labels value).map (Tally.rename old new)) :
    (tally.move old new).Covers labels (table.mapValues fun _ => change) := by
  intro label
  have hdemand : demand labels (table.mapValues fun _ => change) label =
      if label = new then demand labels table new + demand labels table old
      else if label = old then 0 else demand labels table label := by
    rw [demand, Table.total_mapValues]
    simp only [Function.comp_def, hchg, count_map_rename hne]
    by_cases hnew : label = new
    · simp only [if_pos hnew, demand, Table.total_add]
    · by_cases hold : label = old
      · simp only [if_neg hnew, if_pos hold]
        exact Table.total_eq_zero.mpr fun _ _ _ => rfl
      · simp only [if_neg hnew, if_neg hold, demand]
  rw [hdemand, get_move hne]
  have hold := hcvr old
  have hnew := hcvr new
  have ho := hcvr label
  split_ifs <;> omega

theorem forget (hchg : ∀ value, labels (change value) = (labels value).filter (· ≠ label)) :
    Covers (tally.erase label) labels
      (if 0 < tally.get label then table.mapValues fun _ => change else table) := by
  intro other
  rw [get_erase]
  by_cases hsome : 0 < tally.get label
  · rw [if_pos hsome, demand, Table.total_mapValues]
    simp only [Function.comp_def, hchg]
    by_cases ho : other = label
    · rw [if_pos ho, Nat.le_zero, Table.total_eq_zero]
      intro _ value _
      rw [ho, List.count_eq_zero]
      simp
    · rw [if_neg ho]
      have hkept : ∀ list : List L, (list.filter (· ≠ label)).count other = list.count other :=
        fun list => List.count_filter (by simpa using ho)
      simp only [hkept]
      exact hcvr other
  · rw [if_neg hsome]
    by_cases ho : other = label
    · have hbd := hcvr label
      rw [if_pos ho, ho]
      omega
    · rw [if_neg ho]
      exact hcvr other

theorem not_mem_forget
    (hchg : ∀ value, labels (change value) = (labels value).filter (· ≠ label))
    (hval : (if 0 < tally.get label then table.mapValues fun _ => change
      else table).lookup holder = some value) : label ∉ labels value :=
  (hcvr.forget hchg).not_mem (by rw [get_erase, if_pos rfl]) hval

end Covers

end Tally
