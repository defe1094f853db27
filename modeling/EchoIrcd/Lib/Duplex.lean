import Mathlib.Data.Fintype.Sets

/-!
# Two parties

The two ends of a conversation, and functions that differ between them.
-/

inductive Side where
  | left
  | right
  deriving DecidableEq, Repr

namespace Side

def other : Side → Side
  | left => right
  | right => left

variable (side : Side)

@[simp] theorem other_other : side.other.other = side := by
  cases side <;> rfl

@[simp] theorem other_ne : side.other ≠ side := by
  cases side <;> decide

@[simp] theorem ne_other : side ≠ side.other :=
  (other_ne side).symm

theorem eq_or_eq_other (party : Side) : party = side ∨ party = side.other := by
  cases side <;> cases party <;> simp [other]

theorem eq_other_of_ne {side party : Side} (hne : party ≠ side) : party = side.other :=
  (eq_or_eq_other side party).resolve_left hne

theorem forall_iff {P : Side → Prop} : (∀ party, P party) ↔ P side ∧ P side.other := by
  constructor
  · exact fun hall => ⟨hall side, hall side.other⟩
  · rintro ⟨hself, ho⟩ party
    rcases eq_or_eq_other side party with rfl | rfl
    · exact hself
    · exact ho

end Side
