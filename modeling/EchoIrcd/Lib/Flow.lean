import Mathlib.Logic.Relation

/-!
# Fragments of a program with jumps

A program is a step relation on program counters and states.  A fragment is a
range of counters that is entered at its start, left at its end, and relates the
states in between.  The rules say what fragments put one after the other, or
joined by branches and jumps, relate.
-/

namespace Flow

open Relation

variable {σ : Type}

inductive Runs {α : Type} (step : α → α → Prop) : Nat → α → α → Prop
  | refl (config : α) : Runs step 0 config config
  | head {count : Nat} {first next last : α} : step first next → Runs step count next last →
      Runs step (count + 1) first last

theorem Runs.of_reflTransGen {α : Type} {step : α → α → Prop} {first last : α}
    (hsteps : ReflTransGen step first last) : ∃ count, Runs step count first last := by
  induction hsteps using ReflTransGen.head_induction_on with
  | refl => exact ⟨0, .refl _⟩
  | head hstep _ ih =>
    obtain ⟨count, hruns⟩ := ih
    exact ⟨count + 1, .head hstep hruns⟩

def Inside (start stop counter : Nat) : Prop := start ≤ counter ∧ counter < stop

/-- The counters from `start` to `stop` relate states by `rel`: what is related can be reached,
and a run that leaves the fragment does so at its end, in a related state. -/
structure Fragment (step : Nat × σ → Nat × σ → Prop) (start stop : Nat) (rel : σ → σ → Prop) :
    Prop where
  le : start ≤ stop
  reaches {before after : σ} : rel before after → ReflTransGen step (start, before) (stop, after)
  leaves {count : Nat} {before : σ} {target : Nat × σ} :
    Runs step count (start, before) target → ¬ Inside start stop target.1 →
      ∃ rest after, rest ≤ count ∧ rel before after ∧ Runs step rest (stop, after) target

variable {step : Nat × σ → Nat × σ → Prop} {start middle stop : Nat} {left right : σ → σ → Prop}

/-! ## Rules -/

theorem Fragment.skip : Fragment step start start Eq where
  le := Nat.le_refl _
  reaches := by
    rintro before _ rfl
    exact .refl
  leaves hruns _ := ⟨_, _, Nat.le_refl _, rfl, hruns⟩

theorem Fragment.congr (hleft : Fragment step start stop left)
    (hs : ∀ before after, left before after ↔ right before after) :
    Fragment step start stop right := by
  have hrel : left = right := by
    funext before after
    exact propext (hs before after)
  exact hrel ▸ hleft

theorem Runs.first {count counter : Nat} {before : σ} {target : Nat × σ}
    (hruns : Runs step count (counter, before) target) (hctr : counter ≠ target.1) :
    ∃ rest next, count = rest + 1 ∧ step (counter, before) next ∧ Runs step rest next target := by
  cases hruns with
  | refl => exact absurd rfl hctr
  | head hstep hrest => exact ⟨_, _, rfl, hstep, hrest⟩

theorem Fragment.single
    (hstep : ∀ before next, step (start, before) next ↔
      ∃ after, left before after ∧ next = (start + 1, after)) :
    Fragment step start (start + 1) left where
  le := Nat.le_succ _
  reaches hrel := .single ((hstep _ _).mpr ⟨_, hrel, rfl⟩)
  leaves := by
    intro count before target hruns hleaves
    have hne : start ≠ target.1 := by
      rintro rfl
      exact hleaves ⟨Nat.le_refl _, Nat.lt_succ_self _⟩
    obtain ⟨rest, next, rfl, hfst, hrest⟩ := hruns.first hne
    obtain ⟨after, hrel, rfl⟩ := (hstep _ _).mp hfst
    exact ⟨rest, after, Nat.le_succ _, hrel, hrest⟩

theorem Fragment.seq (hleft : Fragment step start middle left)
    (hrt : Fragment step middle stop right) : Fragment step start stop (Comp left right) where
  le := Nat.le_trans hleft.le hrt.le
  reaches := by
    rintro before after ⟨between, hbef, haft⟩
    exact (hleft.reaches hbef).trans (hrt.reaches haft)
  leaves := by
    intro count before target hruns hleaves
    have hle := hleft.le
    have hle' := hrt.le
    unfold Inside at hleaves
    obtain ⟨rest, between, hrest, hbef, hruns⟩ := hleft.leaves hruns (by unfold Inside; omega)
    obtain ⟨rest', after, hrest', haft, hruns⟩ := hrt.leaves hruns (by unfold Inside; omega)
    exact ⟨rest', after, by omega, ⟨between, hbef, haft⟩, hruns⟩

/-- An instruction that goes on with the next or with another counter. -/
def Branches (step : Nat × σ → Nat × σ → Prop) (counter left right : Nat) : Prop :=
  ∀ before next, step (counter, before) next ↔ next = (left, before) ∨ next = (right, before)

def Jumps (step : Nat × σ → Nat × σ → Prop) (counter goal : Nat) : Prop :=
  ∀ before next, step (counter, before) next ↔ next = (goal, before)

theorem Fragment.optional (hbr : Branches step start (start + 1) stop)
    (hleft : Fragment step (start + 1) stop left) : Fragment step start stop (ReflGen left) where
  le := by
    have hle := hleft.le
    omega
  reaches := by
    rintro before after (_ | hrel)
    · exact .single ((hbr before _).mpr (.inr rfl))
    · exact .head ((hbr before _).mpr (.inl rfl)) (hleft.reaches hrel)
  leaves := by
    intro count before target hruns hleaves
    have hle := hleft.le
    unfold Inside at hleaves
    obtain ⟨rest, next, rfl, hfst, hruns⟩ := hruns.first (by omega)
    rcases (hbr _ _).mp hfst with rfl | rfl
    · obtain ⟨rest', after, hrest', hrel, hruns⟩ :=
        hleft.leaves hruns (by unfold Inside; omega)
      exact ⟨rest', after, by omega, .single hrel, hruns⟩
    · exact ⟨rest, before, by omega, .refl, hruns⟩

namespace Fragment

variable (hbr : Branches step start (start + 1) (middle + 1))
  (hleft : Fragment step (start + 1) middle left)

include hbr hleft

theorem either (hjump : Jumps step middle stop) (hrt : Fragment step (middle + 1) stop right) :
    Fragment step start stop fun before after => left before after ∨ right before after where
  le := by
    have hle := hleft.le
    have hle' := hrt.le
    omega
  reaches := by
    rintro before after (hrel | hrel)
    · have hfst := (hbr before _).mpr (.inl rfl)
      have hlast := (hjump after _).mpr rfl
      exact .head hfst ((hleft.reaches hrel).tail hlast)
    · exact .head ((hbr before _).mpr (.inr rfl)) (hrt.reaches hrel)
  leaves := by
    intro count before target hruns hleaves
    have hle := hleft.le
    have hle' := hrt.le
    unfold Inside at hleaves
    obtain ⟨rest, next, rfl, hfst, hruns⟩ := hruns.first (by omega)
    rcases (hbr _ _).mp hfst with rfl | rfl
    · obtain ⟨rest', between, hrest', hrel, hruns⟩ :=
        hleft.leaves hruns (by unfold Inside; omega)
      obtain ⟨last, next, rfl, hlast, hruns⟩ := hruns.first (by omega)
      rw [(hjump _ _).mp hlast] at hruns
      exact ⟨last, between, by omega, .inl hrel, hruns⟩
    · obtain ⟨rest', after, hrest', hrel, hruns⟩ :=
        hrt.leaves hruns (by unfold Inside; omega)
      exact ⟨rest', after, by omega, .inr hrel, hruns⟩

theorem loop (hjump : Jumps step middle start) :
    Fragment step start (middle + 1) (ReflTransGen left) where
  le := by
    have hle := hleft.le
    omega
  reaches := by
    intro before after hrel
    induction hrel using ReflTransGen.head_induction_on with
    | refl => exact .single ((hbr after _).mpr (.inr rfl))
    | head hfst _ ih =>
      exact .head ((hbr _ _).mpr (.inl rfl))
        (((hleft.reaches hfst).tail ((hjump _ _).mpr rfl)).trans ih)
  leaves := by
    intro count
    -- every round of the loop takes some of the steps
    induction count using Nat.strongRecOn with
    | _ count ih =>
      intro before target hruns hleaves
      have hle := hleft.le
      have hout := hleaves
      unfold Inside at hleaves
      obtain ⟨rest, next, rfl, hfst, hruns⟩ := hruns.first (by omega)
      rcases (hbr _ _).mp hfst with rfl | rfl
      · obtain ⟨rest', between, hrest', hrel, hruns⟩ :=
          hleft.leaves hruns (by unfold Inside; omega)
        obtain ⟨last, next, rfl, hlast, hruns⟩ := hruns.first (by omega)
        rw [(hjump _ _).mp hlast] at hruns
        obtain ⟨final, after, hfinal, haft, hruns⟩ := ih last (by omega) hruns hout
        exact ⟨final, after, by omega, .head hrel haft, hruns⟩
      · exact ⟨rest, before, by omega, .refl, hruns⟩

end Fragment

theorem Fragment.loopBehind (hleft : Fragment step start middle left)
    (hbr : Branches step middle start (middle + 1)) :
    Fragment step start (middle + 1) (TransGen left) where
  le := Nat.le_trans hleft.le (Nat.le_succ _)
  reaches := by
    intro before after hrel
    induction hrel using TransGen.head_induction_on with
    | single hlast => exact (hleft.reaches hlast).tail ((hbr _ _).mpr (.inr rfl))
    | head hfst _ ih =>
      exact ((hleft.reaches hfst).tail ((hbr _ _).mpr (.inl rfl))).trans ih
  leaves := by
    intro count
    induction count using Nat.strongRecOn with
    | _ count ih =>
      intro before target hruns hleaves
      have hle := hleft.le
      have hout := hleaves
      unfold Inside at hleaves
      obtain ⟨rest, between, hrest, hrel, hruns⟩ := hleft.leaves hruns (by unfold Inside; omega)
      obtain ⟨last, next, rfl, hlast, hruns⟩ := hruns.first (by omega)
      rcases (hbr _ _).mp hlast with rfl | rfl
      · obtain ⟨final, after, hfinal, haft, hruns⟩ := ih last (by omega) hruns hout
        exact ⟨final, after, by omega, .head hrel haft, hruns⟩
      · exact ⟨last, between, by omega, .single hrel, hruns⟩

end Flow
