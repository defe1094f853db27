import EchoIrcd.Lib.Duplex
import Mathlib.Logic.Function.Basic

/-!
# Two copies of one state

Two parties keep a copy each of one state and tell each other every change as a
line; the lines of one party reach the other in order.  A party's forecast is
its copy after the lines already on their way to it.  Reading a line does not
change any forecast, and a new line changes both alike when it commutes with
the lines on their way to its author.  Two parties whose forecasts agree hold
equal copies once nothing is on its way.
-/

namespace Replica

variable {State Line : Type} (hear : State → Line → State) (state : State)

def hearAll (state : State) (lines : List Line) : State :=
  lines.foldl hear state

variable {hear} in
@[simp] theorem hearAll_nil : hearAll hear state [] = state := rfl

variable {hear} in
@[simp] theorem hearAll_cons (line : Line) (lines : List Line) :
    hearAll hear state (line :: lines) = hearAll hear (hear state line) lines := rfl

variable {hear} in
theorem hearAll_append (front back : List Line) :
    hearAll hear state (front ++ back) = hearAll hear (hearAll hear state front) back :=
  List.foldl_append

theorem hearAll_of_fixed {state : State} {lines : List Line}
    (hls : ∀ line ∈ lines, hear state line = state) : hearAll hear state lines = state := by
  induction lines with
  | nil => rfl
  | cons line lines ih =>
    rw [hearAll_cons, hls line List.mem_cons_self]
    exact ih fun other ho => hls other (List.mem_cons_of_mem _ ho)

/-! ## One author -/

/-- A copy that has yet to read `pending` will be equal to the original. -/
def Follows (original copy : State) (pending : List Line) : Prop :=
  hearAll hear copy pending = original

variable {hear} {Value : Type}

/-! ## Two authors -/

/-- Saying `lines` before or after hearing `pending` comes to the same. -/
def Commutes (hear : State → Line → State) (state : State)
    (lines pending : List Line) : Prop :=
  hearAll hear (hearAll hear state lines) pending =
    hearAll hear (hearAll hear state pending) lines

theorem commutes_nil (pending : List Line) : Commutes hear state [] pending := rfl

/-- The copies of two parties and the lines on their way to each. -/
structure Exchange (State Line : Type) where
  copy : Side → State
  pending : Side → List Line

namespace Exchange

def forecast (hear : State → Line → State) (exchange : Exchange State Line)
    (side : Side) : State :=
  hearAll hear (exchange.copy side) (exchange.pending side)

def Agreed (hear : State → Line → State) (exchange : Exchange State Line) : Prop :=
  exchange.forecast hear .left = exchange.forecast hear .right

theorem agreed_iff {exchange : Exchange State Line} (side : Side) :
    exchange.Agreed hear ↔ exchange.forecast hear side = exchange.forecast hear side.other := by
  cases side with
  | left => exact Iff.rfl
  | right => exact eq_comm

namespace Agreed

variable {before after : Exchange State Line} (hagreed : before.Agreed hear) (side : Side)

include hagreed side

/-- A party changes its copy by `lines` and sends them. -/
theorem say {lines : List Line} (hcopy : after.copy side = hearAll hear (before.copy side) lines)
    (hpend : after.pending side = before.pending side)
    (hcopy' : after.copy side.other = before.copy side.other)
    (hpend' : after.pending side.other = before.pending side.other ++ lines)
    (hcommutes : Commutes hear (before.copy side) lines (before.pending side)) :
    after.Agreed hear := by
  rw [agreed_iff side] at hagreed ⊢
  unfold forecast at *
  rw [hcopy, hpend, hcopy', hpend', hcommutes, hagreed, hearAll_append]

theorem read {line : Line} (hpend : before.pending side = line :: after.pending side)
    (hcopy : after.copy side = hear (before.copy side) line)
    (hcopy' : after.copy side.other = before.copy side.other)
    (hpend' : after.pending side.other = before.pending side.other) : after.Agreed hear := by
  rw [agreed_iff side] at hagreed ⊢
  unfold forecast at *
  rw [hcopy, hcopy', hpend', ← hagreed, hpend, hearAll_cons]

end Agreed

theorem Agreed.copy_eq {exchange : Exchange State Line} (hagreed : exchange.Agreed hear)
    (hq : ∀ side, exchange.pending side = []) : exchange.copy .left = exchange.copy .right := by
  have hforecast := hagreed
  unfold Agreed forecast at hforecast
  rwa [hq, hq] at hforecast

end Exchange

/-! ## Registers -/

/-- A state that is overwritten or left alone. -/
def write {Value : Type} (value : Value) (line : Option Value) : Value :=
  line.getD value

theorem write_true_if (value : Bool) (P : Prop) [Decidable P] :
    write value (if P then some true else none) = (value || decide P) := by
  by_cases hP : P <;> simp [write, hP]

theorem write_false_if (value : Bool) (P : Prop) [Decidable P] :
    write value (if P then some false else none) = (value && !decide P) := by
  by_cases hP : P <;> simp [write, hP]

theorem hearAll_write {written : Value} {lines : List (Option Value)}
    (hls : ∀ line ∈ lines, line = none ∨ line = some written) :
    (∀ value : Value, hearAll write value lines = value) ∨
      ∀ value : Value, hearAll write value lines = written := by
  induction lines with
  | nil => exact .inl fun _ => rfl
  | cons line lines ih =>
    have hrest := ih fun other ho => hls other (List.mem_cons_of_mem _ ho)
    rcases hls line List.mem_cons_self with rfl | rfl
    · exact hrest
    · right
      intro value
      rcases hrest with hkept | hset
      · exact hkept written
      · exact hset written

theorem commutes_write {value written : Value} {lines pending : List (Option Value)}
    (hls : ∀ line ∈ lines, line = none ∨ line = some written)
    (hpend : ∀ line ∈ pending, line = none ∨ line = some written) :
    Commutes write value lines pending := by
  unfold Commutes
  rcases hearAll_write hls with hls | hls
  · rw [hls, hls]
  · rcases hearAll_write hpend with hpend | hpend
    · rw [hpend, hpend]
    · rw [hls, hls, hpend]

theorem commutes_of_silent {value : Value}
    {lines pending : List (Option Value)} (hls : ∀ line ∈ lines, line = none) :
    Commutes write value lines pending := by
  have hsilent : ∀ value, hearAll write value lines = value := by
    refine fun value => hearAll_of_fixed write fun line hline => ?_
    rw [hls line hline]
    rfl
  unfold Commutes
  rw [hsilent, hsilent]

end Replica
