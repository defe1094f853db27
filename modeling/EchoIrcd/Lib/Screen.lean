import Mathlib.Data.List.Basic

/-!
# Gates in a row

Gates are asked one after the other until one refuses.  Each may change the
state.  A trail of offers and releases is vetted when an item is released only
right after every gate has been asked about it and none refused.
-/

namespace Screen

variable {σ ν κ : Type} (refuses : ν → Bool)

def ask : List (σ → σ × ν) → σ → σ × List ν × Bool
  | [], state => (state, [], true)
  | gate :: gates, state =>
    if refuses (gate state).2 then ((gate state).1, [(gate state).2], false)
    else
      let asked := ask gates (gate state).1
      (asked.1, (gate state).2 :: asked.2.1, asked.2.2)

inductive Event (κ ν : Type) where
  | offered (gate : Nat) (item : κ) (verdict : ν)
  | released (item : κ)
  deriving DecidableEq, Repr

def offers (item : κ) (verdicts : List ν) : List (Event κ ν) :=
  verdicts.mapIdx fun gate verdict => .offered gate item verdict

def Vetted (count : Nat) (trail : List (Event κ ν)) : Prop :=
  ∀ front item back, trail = front ++ .released item :: back →
    ∃ verdicts : List ν, verdicts.length = count ∧
      (∀ verdict ∈ verdicts, refuses verdict = false) ∧ offers item verdicts <:+ front

variable {refuses} {gates : List (σ → σ × ν)} {state : σ} {item : κ} {verdicts : List ν}
  {count : Nat} {trail front back : List (Event κ ν)}

/-! ## Asking -/

theorem ask_passed (hpass : (ask refuses gates state).2.2 = true) :
    (ask refuses gates state).2.1.length = gates.length ∧
      ∀ verdict ∈ (ask refuses gates state).2.1, refuses verdict = false := by
  induction gates generalizing state with
  | nil => simp [ask]
  | cons gate gates ih =>
    rw [ask] at hpass ⊢
    cases hrefuses : refuses (gate state).2 with
    | true => simp [hrefuses] at hpass
    | false =>
      simp only [hrefuses, Bool.false_eq_true, if_false] at hpass ⊢
      obtain ⟨hlen, hverdicts⟩ := ih hpass
      constructor
      · simp [hlen]
      · intro verdict hverdict
        rcases List.mem_cons.mp hverdict with rfl | hverdict
        · exact hrefuses
        · exact hverdicts verdict hverdict

/-! ## Trails -/

theorem released_not_mem_offers (other : κ) : Event.released other ∉ offers item verdicts := by
  intro hmem
  obtain ⟨index, hidx, heq⟩ := List.mem_mapIdx.mp hmem
  cases heq

theorem vetted_of_no_release (htrl : ∀ item, Event.released item ∉ trail) :
    Vetted refuses count trail := by
  rintro front item back rfl
  exact absurd (by simp) (htrl item)

theorem Vetted.append (hfront : Vetted refuses count front) (hback : Vetted refuses count back) :
    Vetted refuses count (front ++ back) := by
  intro before item after heq
  rcases List.append_eq_append_iff.mp heq with ⟨middle, rfl, hspl⟩ | ⟨middle, rfl, hspl⟩
  · obtain ⟨verdicts, hlen, hpass, hoffers⟩ := hback middle item after hspl
    exact ⟨verdicts, hlen, hpass, hoffers.trans (List.suffix_append _ _)⟩
  · cases middle with
    | nil =>
      obtain ⟨verdicts, hlen, hpass, hoffers⟩ := hback [] item after hspl.symm
      exact ⟨verdicts, hlen, hpass, hoffers.trans List.nil_suffix⟩
    | cons event middle =>
      cases hspl
      exact hfront before item middle rfl

theorem vetted_released (hlen : verdicts.length = count)
    (hpass : ∀ verdict ∈ verdicts, refuses verdict = false) :
    Vetted refuses count (offers item verdicts ++ [.released item]) := by
  intro before other after heq
  rcases List.append_eq_append_iff.mp heq with ⟨middle, rfl, hspl⟩ | ⟨middle, hoffers, hspl⟩
  · cases middle with
    | nil =>
      cases hspl
      exact ⟨verdicts, hlen, hpass, by simp⟩
    | cons event middle => simp at hspl
  · cases middle with
    | nil =>
      cases hspl
      exact ⟨verdicts, hlen, hpass, by simp [hoffers]⟩
    | cons event middle =>
      cases hspl
      have hmem : Event.released other ∈ offers item verdicts := by simp [hoffers]
      exact absurd hmem (released_not_mem_offers other)

end Screen
