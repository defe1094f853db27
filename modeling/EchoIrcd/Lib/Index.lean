import Mathlib.Logic.Function.Basic

/-!
# Reverse indexes

A table of holders, each with at most one key, and an index from keys to
holders that is kept beside it.  The index is exact when it finds every holder
under its key and nothing else; no two holders then share a key.  Giving a
holder a free key, or taking its key away, keeps an index exact.
-/

namespace Index

variable {K H : Type} {index index' : K → Option H} {name name' : H → Option K}
  {key : K} {holder : H}

def Exact (index : K → Option H) (name : H → Option K) : Prop :=
  ∀ key holder, index key = some holder ↔ name holder = some key

theorem Exact.unique (hexa : Exact index name) {other : H}
    (hname : name holder = some key) (ho : name other = some key) : other = holder := by
  have hf := (hexa key holder).mpr hname
  rw [(hexa key other).mpr ho] at hf
  exact Option.some.inj hf

variable [DecidableEq K] [DecidableEq H]

/-- `holder` gives up its key and takes the free one of `target`, if there is one. -/
theorem Exact.move (hexa : Exact index name) {target : Option K}
    (hfree : ∀ key ∈ target, ∀ other, index key = some other → other = holder)
    (hidx : ∀ other, index' other = if target = some other then some holder
      else if name holder = some other then none else index other)
    (hname : ∀ other, name' other = if other = holder then target else name other) :
    Exact index' name' := by
  intro other who
  rw [hidx, hname]
  by_cases hwho : who = holder
  · subst hwho
    by_cases hkey : target = some other
    · simp [hkey]
    · by_cases hold : name who = some other
      · simp [hkey, hold]
      · rw [if_neg hkey, if_neg hold, hexa other who]
        simp [hkey, hold]
  · rw [if_neg hwho]
    by_cases hkey : target = some other
    · rw [if_pos hkey]
      constructor
      · intro hs
        exact absurd (Option.some.inj hs).symm hwho
      · intro hheld
        exact absurd (hfree other hkey who ((hexa other who).mpr hheld)) hwho
    · rw [if_neg hkey]
      by_cases hold : name holder = some other
      · rw [if_pos hold]
        constructor
        · intro hnone
          cases hnone
        · intro hs
          exact absurd (hexa.unique hold hs) hwho
      · rw [if_neg hold, hexa other who]

theorem Exact.remove (hexa : Exact index name)
    (hidx : ∀ other, index' other = if name holder = some other then none else index other)
    (hname : ∀ other, name' other = if other = holder then none else name other) :
    Exact index' name' :=
  hexa.move (by simp) (by simpa using hidx) hname

theorem Exact.rename (hexa : Exact index name)
    (hfree : ∀ other, index key = some other → other = holder)
    (hidx : ∀ other, index' other = if other = key then some holder
      else if name holder = some other then none else index other)
    (hname : ∀ other, name' other = if other = holder then some key else name other) :
    Exact index' name' := by
  refine hexa.move (by simpa using hfree) (fun other => ?_) hname
  simp only [hidx, Option.some.injEq, eq_comm]

end Index
