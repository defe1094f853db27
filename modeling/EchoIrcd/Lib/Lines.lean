import Mathlib.Data.List.Basic

/-!
# Complete lines

A stream is cut at a separator into the lines that have ended and one that has
not.  Cutting it in pieces is the same if the unfinished line is carried over.
-/

namespace Lines

variable {α : Type} {newline : α} {front line rest : List α}

/-- Lines written one after the other, each with its end. -/
def unlines (newline : α) (lines : List (List α)) : List α := lines.flatMap (· ++ [newline])

@[simp] theorem unlines_cons (lines : List (List α)) :
    unlines newline (line :: lines) = line ++ newline :: unlines newline lines := by
  simp [unlines]

variable [DecidableEq α]

/-- The lines that have ended, without their ends, and the unfinished one. -/
def cut (newline : α) : List α → List (List α) × List α
  | [] => ([], [])
  | item :: rest =>
    if item = newline then ([] :: (cut newline rest).1, (cut newline rest).2)
    else
      match cut newline rest with
      | ([], last) => ([], item :: last)
      | (line :: lines, last) => ((item :: line) :: lines, last)

theorem cut_of_not_mem (hrest : newline ∉ rest) : cut newline rest = ([], rest) := by
  induction rest with
  | nil => rfl
  | cons item rest ih =>
    rw [List.mem_cons, not_or] at hrest
    rw [cut, if_neg (Ne.symm hrest.1), ih hrest.2]

theorem cut_line (hline : newline ∉ line) (rest : List α) :
    cut newline (line ++ newline :: rest) =
      (line :: (cut newline rest).1, (cut newline rest).2) := by
  induction line with
  | nil => rw [List.nil_append, cut, if_pos rfl]
  | cons item line ih =>
    rw [List.mem_cons, not_or] at hline
    rw [List.cons_append, cut, if_neg (Ne.symm hline.1), ih hline.2]

theorem first_line (newline : α) (stream : List α) :
    newline ∉ stream ∨ ∃ line rest, stream = line ++ newline :: rest ∧ newline ∉ line := by
  by_cases hmem : newline ∈ stream
  · right
    obtain ⟨line, rest, hstm, hline⟩ := List.eq_append_cons_of_mem hmem
    exact ⟨line, rest, hstm, hline⟩
  · exact .inl hmem

theorem not_mem_cut (newline : α) (stream : List α) :
    (∀ line ∈ (cut newline stream).1, newline ∉ line) ∧ newline ∉ (cut newline stream).2 := by
  induction hlen : stream.length using Nat.strongRecOn generalizing stream with
  | _ length ih =>
    rcases first_line newline stream with hnone | ⟨line, rest, rfl, hline⟩
    · rw [cut_of_not_mem hnone]
      exact ⟨by simp, hnone⟩
    · have hrest := ih rest.length (by simp at hlen; omega) rest rfl
      rw [cut_line hline]
      exact ⟨List.forall_mem_cons.mpr ⟨hline, hrest.1⟩, hrest.2⟩

theorem cut_append (front rest : List α) :
    cut newline (front ++ rest) =
      ((cut newline front).1 ++ (cut newline ((cut newline front).2 ++ rest)).1,
        (cut newline ((cut newline front).2 ++ rest)).2) := by
  induction hlen : front.length using Nat.strongRecOn generalizing front with
  | _ length ih =>
    rcases first_line newline front with hnone | ⟨line, back, rfl, hline⟩
    · rw [cut_of_not_mem hnone]
      rfl
    · have hback := ih back.length (by simp at hlen; omega) back rfl
      rw [List.append_assoc, List.cons_append, cut_line hline, cut_line hline, hback]
      rfl

theorem cut_unlines {lines : List (List α)} (hls : ∀ line ∈ lines, newline ∉ line) :
    cut newline (unlines newline lines) = (lines, []) := by
  induction lines with
  | nil => rfl
  | cons line lines ih =>
    rw [List.forall_mem_cons] at hls
    rw [unlines_cons, cut_line hls.1, ih hls.2]

end Lines
