import EchoIrcd.Lib.Duplex
import Mathlib.Logic.Relation

/-!
# Two connections dialled at the same time

The abstract course of two crossing handshakes.  Each side dials one
connection; a connection is answered or refused by the other side, and an
answer is confirmed by the side that dialled.  A side that already holds a
connection refuses the other one.  As long as a side answers only while the
dialling side has not answered the opposite connection, the two sides settle on
one connection.
-/

namespace EchoIrcd

/-- How far the connection dialled by one side has come. -/
inductive Phase where
  | idle
  | dialled
  | answered
  | linked
  | refused
  | closed
  deriving DecidableEq, Repr

namespace Phase

def heldByDialler : Phase → Bool
  | linked => true
  | _ => false

def heldByAnswerer : Phase → Bool
  | answered | linked => true
  | _ => false

def isFinal : Phase → Bool
  | linked | closed => true
  | _ => false

end Phase

abbrev Crossing := Side → Phase

namespace Crossing

def holds (crossing : Crossing) (side dialler : Side) : Bool :=
  if side = dialler then (crossing dialler).heldByDialler
  else (crossing dialler).heldByAnswerer

def moveTo (dialler : Side) (phase : Phase) (crossing : Crossing) : Crossing :=
  Function.update crossing dialler phase

theorem holds_moveTo_of_ne {party dialler : Side} (hne : party ≠ dialler)
    (crossing : Crossing) (phase : Phase) (side : Side) :
    (crossing.moveTo dialler phase).holds side party = crossing.holds side party := by
  simp [holds, moveTo, hne]

theorem holds_moveTo_of_same {crossing : Crossing} {phase : Phase} {side dialler : Side}
    (hs : (crossing.moveTo dialler phase).holds side dialler = crossing.holds side dialler)
    (party : Side) : (crossing.moveTo dialler phase).holds side party = crossing.holds side party := by
  by_cases hparty : party = dialler
  · rw [hparty, hs]
  · exact holds_moveTo_of_ne hparty ..

/-- One step of a crossing in which nobody answers too early. -/
inductive Step (crossing : Crossing) : Crossing → Prop where
  | dial {dialler : Side} (hph : crossing dialler = .idle) :
      Step crossing (crossing.moveTo dialler .dialled)
  | answer {dialler : Side} (hph : crossing dialler = .dialled)
      (hfree : crossing.holds dialler.other dialler.other = false)
      (hcivil : crossing.holds dialler dialler.other = false) :
      Step crossing (crossing.moveTo dialler .answered)
  | refuse {dialler : Side} (hph : crossing dialler = .dialled)
      (hheld : crossing.holds dialler.other dialler.other = true) :
      Step crossing (crossing.moveTo dialler .refused)
  | confirm {dialler : Side} (hph : crossing dialler = .answered) :
      Step crossing (crossing.moveTo dialler .linked)
  | close {dialler : Side} (hph : crossing dialler = .refused) :
      Step crossing (crossing.moveTo dialler .closed)

/-- At most one connection is held, and only a held one makes the other fail. -/
structure Sound (crossing : Crossing) : Prop where
  single : ∀ dialler, (crossing dialler).heldByAnswerer = true →
    (crossing dialler.other).heldByAnswerer = false
  refused : ∀ dialler, crossing dialler = .refused ∨ crossing dialler = .closed →
    crossing dialler.other = .linked

theorem sound_idle : Sound fun _ => .idle :=
  ⟨nofun, fun _ hph => by rcases hph with h | h <;> cases h⟩

theorem sound_step {crossing after : Crossing} (hsnd : crossing.Sound)
    (hstep : Step crossing after) : after.Sound := by
  have hmove : ∀ (dialler : Side) (phase : Phase),
      ((phase.heldByAnswerer = true → (crossing dialler.other).heldByAnswerer = false)) →
      ((crossing dialler.other).heldByAnswerer = true → phase.heldByAnswerer = false) →
      (phase = .refused ∨ phase = .closed → crossing dialler.other = .linked) →
      (crossing dialler.other = .refused ∨ crossing dialler.other = .closed →
        phase = .linked) → (crossing.moveTo dialler phase).Sound := by
    intro dialler phase hsingle hsingle' href href'
    constructor
    · rw [Side.forall_iff dialler]
      simpa [moveTo] using ⟨hsingle, hsingle'⟩
    · rw [Side.forall_iff dialler]
      simpa [moveTo] using ⟨href, href'⟩
  cases hstep with
  | @dial dialler hph =>
    refine hmove dialler _ nofun (fun _ => rfl) (by simp) ?_
    intro ho
    have hlk := hsnd.refused dialler.other ho
    simp [hph] at hlk
  | @answer dialler hph hfree hcivil =>
    have ho : (crossing dialler.other).heldByAnswerer = false := by
      simpa [holds] using hcivil
    refine hmove dialler _ (fun _ => ho) (by simp [ho]) (by simp) ?_
    intro href
    have hlk := hsnd.refused dialler.other href
    simp [hph] at hlk
  | @refuse dialler hph hheld =>
    have ho : crossing dialler.other = .linked := by
      cases hcase : crossing dialler.other <;>
        simp [holds, hcase, Phase.heldByDialler] at hheld ⊢
    exact hmove dialler _ nofun (fun _ => rfl) (fun _ => ho) (by simp [ho])
  | @confirm dialler hph =>
    have ho := hsnd.single dialler (by rw [hph]; rfl)
    refine hmove dialler _ (fun _ => ho) (by simp [ho]) (by simp) ?_
    exact fun _ => rfl
  | @close dialler hph =>
    have ho := hsnd.refused dialler (.inl hph)
    exact hmove dialler _ nofun (fun _ => rfl) (fun _ => ho) (by simp [ho])

theorem Sound.linked_iff {crossing : Crossing} (hsnd : crossing.Sound)
    (hfinal : ∀ dialler, (crossing dialler).isFinal = true) (dialler : Side) :
    crossing dialler = .linked ↔ crossing dialler.other = .closed := by
  have ho := hfinal dialler.other
  constructor
  · intro hlk
    have hsingle := hsnd.single dialler (by rw [hlk]; rfl)
    cases hcase : crossing dialler.other <;>
      simp_all [Phase.isFinal, Phase.heldByAnswerer]
  · intro hclosed
    simpa using hsnd.refused dialler.other (.inr hclosed)

end Crossing

end EchoIrcd
