import Mathlib.Data.List.DropRight
import Mathlib.Data.List.Nodup

/-!
# Paging through a list

A reader fetches a list page by page and names the last entry of a page to get
the next one.  Pages are cut from a list with hidden entries in it: cutting
first and leaving out afterwards is the same as leaving out first only if no
hidden entry takes the place of a shown one.  If every page holds the entries
next in line, paging until an empty page visits each of them once.
-/

namespace Paging

open List

variable {α κ σ : Type}

/-! ## A window on a filtered list -/

section Window

variable {shown : α → Bool} {list : List α} {size : Nat}

theorem filter_take_iff :
    (list.take size).filter shown = (list.filter shown).take size ↔
      (∀ entry ∈ list.take size, shown entry = true) ∨
        ∀ entry ∈ list.drop size, shown entry = false := by
  have hspl : list.filter shown =
      (list.take size).filter shown ++ (list.drop size).filter shown := by
    rw [← filter_append, take_append_drop]
  have hsho : ((list.take size).filter shown).length ≤ size :=
    (length_filter_le _ _).trans (length_take_le _ _)
  have hnone : (list.drop size).filter shown = [] ↔
      ∀ entry ∈ list.drop size, shown entry = false := by
    simp
  rw [hspl, take_append, take_of_length_le hsho, self_eq_append_right, take_eq_nil_iff, hnone]
  constructor
  · rintro (hfull | hno)
    · left
      have hlen : ((list.take size).filter shown).length = (list.take size).length := by
        have hle := length_filter_le shown (list.take size)
        have htake := length_take_le size list
        omega
      exact length_filter_eq_length_iff.mp hlen
    · exact .inr hno
  · rintro (hall | hno)
    · by_cases hlong : size ≤ list.length
      · left
        rw [filter_eq_self.mpr hall, length_take]
        omega
      · right
        rw [drop_eq_nil_of_le (by omega)]
        simp
    · exact .inr hno

theorem filter_rtake_iff :
    (list.rtake size).filter shown = (list.filter shown).rtake size ↔
      (∀ entry ∈ list.rtake size, shown entry = true) ∨
        ∀ entry ∈ list.rdrop size, shown entry = false := by
  have hwindow := @filter_take_iff α shown list.reverse size
  rw [filter_reverse] at hwindow
  rw [rtake_eq_reverse_take_reverse, rtake_eq_reverse_take_reverse,
    rdrop_eq_reverse_drop_reverse, filter_reverse, reverse_inj]
  simpa only [mem_reverse] using hwindow

end Window

/-! ## Slices -/

section Slice

variable {list : List α} {start stop start' stop' size : Nat}

theorem length_slice (hstop : stop ≤ list.length) :
    (((list.drop start).take (stop - start)).take size).length = min size (stop - start) := by
  simp only [length_take, length_drop]
  omega

theorem head?_slice (hsize : 0 < size) (hsta : start < stop) :
    (((list.drop start).take (stop - start)).take size).head? = list[start]? := by
  rw [take_take, head?_take, head?_drop]
  rw [if_neg (by omega)]

/-- Two slices without repetitions begin alike exactly if both are empty or they start together. -/
theorem take_slice_eq_iff (hnd : list.Nodup) (hsize : 0 < size) (hstop : stop ≤ list.length)
    (hstop' : stop' ≤ list.length) :
    ((list.drop start).take (stop - start)).take size =
        ((list.drop start').take (stop' - start')).take size ↔
      stop ≤ start ∧ stop' ≤ start' ∨
        start = start' ∧ min size (stop - start) = min size (stop' - start') := by
  constructor
  · intro heq
    have hlen := congrArg length heq
    rw [length_slice hstop, length_slice hstop'] at hlen
    by_cases hemp : stop ≤ start
    · left
      omega
    · right
      have hhead := congrArg head? heq
      rw [head?_slice hsize (by omega), head?_slice hsize (by omega)] at hhead
      have hs : start = start' := (getElem?_inj (by omega) hnd).mp hhead
      exact ⟨hs, hlen⟩
  · rintro (⟨hemp, hemp'⟩ | ⟨rfl, hlen⟩)
    · rw [Nat.sub_eq_zero_of_le hemp, Nat.sub_eq_zero_of_le hemp', take_zero, take_zero]
    · rw [take_take, take_take, hlen]

theorem map_filter_zipIdx (offset : Nat) :
    ((list.zipIdx offset).filter fun item => start ≤ item.2 && item.2 < stop).map Prod.fst =
      (list.drop (start - offset)).take (stop - max start offset) := by
  induction list generalizing offset with
  | nil => simp
  | cons entry list ih =>
    rw [zipIdx_cons, filter_cons]
    by_cases hlow : start ≤ offset
    · by_cases hhigh : offset < stop
      · have hcnt : stop - max start offset = stop - max start (offset + 1) + 1 := by omega
        have hhere : start - offset = 0 := by omega
        have hnext : start - (offset + 1) = 0 := by omega
        rw [if_pos (by simp [hlow, hhigh]), map_cons, ih, hcnt, hhere, hnext]
        simp
      · have hnone : stop - max start offset = 0 := by omega
        have hlat : stop - max start (offset + 1) = 0 := by omega
        rw [if_neg (by simp [hhigh]), ih, hnone, hlat, take_zero, take_zero]
    · have hdrop : start - offset = start - (offset + 1) + 1 := by omega
      rw [if_neg (by simp [hlow]), ih, hdrop, drop_succ_cons, Nat.max_eq_left (by omega),
        Nat.max_eq_left (by omega)]

section Places

variable {test : α × Nat → Bool}

theorem filter_zipIdx_congr
    (htest : ∀ index (hidx : index < list.length), test (list[index], index) = true ↔
      start ≤ index ∧ index < stop) :
    list.zipIdx.filter test =
      list.zipIdx.filter fun item => start ≤ item.2 && item.2 < stop := by
  apply filter_congr
  rintro ⟨entry, index⟩ hitem
  obtain ⟨hidx, hent⟩ := mem_zipIdx' hitem
  rw [hent, Bool.eq_iff_iff, htest index hidx]
  simp

theorem map_filter_eq_slice
    (htest : ∀ index (hidx : index < list.length), test (list[index], index) = true ↔
      start ≤ index ∧ index < stop) :
    (list.zipIdx.filter test).map Prod.fst = (list.drop start).take (stop - start) := by
  rw [filter_zipIdx_congr htest, map_filter_zipIdx, Nat.sub_zero, Nat.max_zero]

theorem length_filter_zipIdx (hstop : stop ≤ list.length)
    (htest : ∀ index (hidx : index < list.length), test (list[index], index) = true ↔
      start ≤ index ∧ index < stop) :
    (list.zipIdx.filter test).length = stop - start := by
  rw [← length_map Prod.fst, map_filter_eq_slice htest, length_take, length_drop]
  omega

end Places

end Slice

/-! ## Page after page -/

def pages (fetch : σ → List α) (next : List α → Option σ) : Nat → σ → List (List α)
  | 0, _ => []
  | fuel + 1, selector =>
    match next (fetch selector) with
    | none => []
    | some following => fetch selector :: pages fetch next fuel following

section Pages

variable {fetch : σ → List α} {next : List α → Option σ} {rest : σ → List α} {size : Nat}

theorem flatten_pages (hsize : 0 < size)
    (hfetch : ∀ selector, fetch selector = (rest selector).take size)
    (hend : ∀ page, next page = none ↔ page = [])
    (hnext : ∀ selector following, next (fetch selector) = some following →
      rest following = (rest selector).drop size)
    (fuel : Nat) (selector : σ) (hfuel : (rest selector).length < fuel) :
    (pages fetch next fuel selector).flatten = rest selector := by
  induction fuel generalizing selector with
  | zero => omega
  | succ fuel ih =>
    rw [pages]
    split
    · rename_i hnone
      have hemp := (hend _).mp hnone
      rw [hfetch, take_eq_nil_iff] at hemp
      rcases hemp with hzero | hnil
      · omega
      · simp [hnil]
    · rename_i following hsome
      have hpage : fetch selector ≠ [] := by
        intro hemp
        rw [(hend _).mpr hemp] at hsome
        cases hsome
      have hrest := hnext selector following hsome
      have hlonger : 0 < (rest selector).length := by
        rw [length_pos_iff]
        intro hnil
        exact hpage (by simp [hfetch, hnil])
      have hshorter : (rest following).length < fuel := by
        rw [hrest, length_drop]
        omega
      rw [flatten_cons, ih following hshorter, hrest, hfetch, take_append_drop]

theorem pages_reverse (fuel : Nat) (selector : σ) :
    pages (fun selector => (fetch selector).reverse) (fun page => next page.reverse) fuel selector =
      (pages fetch next fuel selector).map reverse := by
  induction fuel generalizing selector with
  | zero => rfl
  | succ fuel ih =>
    rw [pages, pages, reverse_reverse]
    cases next (fetch selector) with
    | none => rfl
    | some following => simp only [map_cons, ih]

theorem flatten_reverse_pages (hsize : 0 < size)
    (hfetch : ∀ selector, fetch selector = (rest selector).rtake size)
    (hend : ∀ page, next page = none ↔ page = [])
    (hnext : ∀ selector following, next (fetch selector) = some following →
      rest following = (rest selector).rdrop size)
    (fuel : Nat) (selector : σ) (hfuel : (rest selector).length < fuel) :
    (pages fetch next fuel selector).reverse.flatten = rest selector := by
  have hvisited : (pages (fun selector => (fetch selector).reverse)
      (fun page => next page.reverse) fuel selector).flatten = (rest selector).reverse := by
    refine @flatten_pages α σ _ _ (fun selector => (rest selector).reverse) size hsize ?_ ?_ ?_
      fuel selector (by simpa using hfuel)
    · intro selector
      rw [hfetch, rtake_eq_reverse_take_reverse, reverse_reverse]
    · intro page
      rw [hend, reverse_eq_nil_iff]
    · intro selector following hsome
      rw [reverse_reverse] at hsome
      rw [hnext selector following hsome, rdrop_eq_reverse_drop_reverse, reverse_reverse]
  rw [pages_reverse] at hvisited
  rw [← reverse_inj, ← hvisited, reverse_flatten, map_reverse, reverse_reverse]

end Pages

/-! ## Cursors -/

section Cursor

variable [DecidableEq κ] {key : α → κ} {shown : α → Bool} {buffer front back : List α} {entry : α}

theorem findIdx?_key (hdist : (buffer.map key).Nodup)
    (hbuffer : buffer = front ++ entry :: back) :
    buffer.findIdx? (fun other => key other = key entry) = some front.length := by
  subst hbuffer
  rw [findIdx?_eq_some_iff_getElem]
  refine ⟨by simp, by simp, ?_⟩
  intro index hidx
  rw [getElem_append_left hidx]
  rw [map_append, map_cons, nodup_append] at hdist
  have hne := hdist.2.2 (key front[index]) (mem_map_of_mem (getElem_mem hidx))
    (key entry) (by simp)
  simpa using hne

theorem filter_eq_append_cons {left right : List α}
    (hfil : buffer.filter shown = left ++ entry :: right) :
    ∃ front back, buffer = front ++ entry :: back ∧ front.filter shown = left ∧
      back.filter shown = right := by
  obtain ⟨front, rest, rfl, hleft, hrest⟩ := filter_eq_append_iff.mp hfil
  obtain ⟨skipped, back, rfl, hskipped, -, hback⟩ := filter_eq_cons_iff.mp hrest
  refine ⟨front ++ skipped, back, by simp, ?_, hback⟩
  rw [filter_append, hleft, filter_eq_nil_iff.mpr hskipped, append_nil]

end Cursor

end Paging
