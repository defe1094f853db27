import Mathlib.Data.List.Basic
import Mathlib.Control.Lawful

/-!
# Parsing a stream as it arrives

A reader keeps the bytes it has not used and tries to parse an item off their
front after every read.  If a verdict stands whatever arrives later, then the
items do not depend on how the stream was cut into reads.
-/

namespace Intake

open List

variable {α β γ σ : Type}

/-- What a parser says about the front of its input. -/
inductive Verdict (α : Type) where
  | need
  | bad
  | item (value : α) (used : Nat)
  deriving DecidableEq, Repr

/-- A verdict uses some of the input, and more input does not change it. -/
structure Steady (parse : List β → Verdict α) : Prop where
  nil : parse [] = .need
  used_pos {input : List β} {value : α} {used : Nat} :
    parse input = .item value used → 0 < used
  used_le {input : List β} {value : α} {used : Nat} :
    parse input = .item value used → used ≤ input.length
  item_append {input : List β} {value : α} {used : Nat} (more : List β) :
    parse input = .item value used → parse (input ++ more) = .item value used
  bad_append {input : List β} (more : List β) :
    parse input = .bad → parse (input ++ more) = .bad

section Drain

variable (parse : List β → Verdict α) (handle : σ → α → Except σ σ)

/-- Handle items until the input is too short for one.  An error is a loop that has ended. -/
def drainFuel : Nat → List β → σ → Except σ (List β × σ)
  | 0, input, state => .ok (input, state)
  | fuel + 1, input, state =>
    match parse input with
    | .need => .ok (input, state)
    | .bad => .error state
    | .item value used => handle state value >>= drainFuel fuel (input.drop used)

def drain (input : List β) (state : σ) : Except σ (List β × σ) :=
  drainFuel parse handle input.length input state

def read (kept : List β × σ) (chunk : List β) : Except σ (List β × σ) :=
  drain parse handle (kept.1 ++ chunk) kept.2

def reads (chunks : List (List β)) (kept : List β × σ) : Except σ (List β × σ) :=
  chunks.foldlM (read parse handle) kept

end Drain

section Steady

variable {parse : List β → Verdict α} {handle : σ → α → Except σ σ} {input : List β}

theorem drain_of_need (hneed : parse input = .need) (state : σ) :
    drain parse handle input state = .ok (input, state) := by
  unfold drain
  cases input.length <;> simp [drainFuel, hneed]

variable (hstd : Steady parse)

include hstd

theorem drainFuel_congr {fuel fuel' : Nat} (state : σ)
    (hfuel : input.length ≤ fuel) (hfuel' : input.length ≤ fuel') :
    drainFuel parse handle fuel input state = drainFuel parse handle fuel' input state := by
  induction fuel generalizing fuel' input state with
  | zero =>
    have hnil : input = [] := length_eq_zero_iff.mp (by omega)
    cases fuel' <;> simp [drainFuel, hnil, hstd.nil]
  | succ fuel ih =>
    cases fuel' with
    | zero =>
      have hnil : input = [] := length_eq_zero_iff.mp (by omega)
      simp [drainFuel, hnil, hstd.nil]
    | succ fuel' =>
      cases hp : parse input with
      | need | bad => simp [drainFuel, hp]
      | item value used =>
        have hpos := hstd.used_pos hp
        have hlen : (input.drop used).length = input.length - used := length_drop
        simp only [drainFuel, hp]
        congr 1
        funext next
        exact ih next (by omega) (by omega)

theorem drain_of_bad (hbad : parse input = .bad) (state : σ) :
    drain parse handle input state = .error state := by
  cases input with
  | nil => simp [hstd.nil] at hbad
  | cons first rest => simp [drain, drainFuel, hbad]

theorem drain_of_item {value : α} {used : Nat}
    (hitem : parse input = .item value used) (state : σ) :
    drain parse handle input state =
      handle state value >>= drain parse handle (input.drop used) := by
  have hpos := hstd.used_pos hitem
  have hle := hstd.used_le hitem
  have hlen : (input.drop used).length = input.length - used := length_drop
  obtain ⟨fuel, hfuel⟩ : ∃ fuel, input.length = fuel + 1 := ⟨input.length - 1, by omega⟩
  rw [drain, hfuel]
  simp only [drainFuel, hitem]
  congr 1
  funext next
  exact drainFuel_congr hstd next (by omega) (by omega)

theorem need_of_drain {rest : List β} {state final : σ}
    (hdrain : drain parse handle input state = .ok (rest, final)) : parse rest = .need := by
  induction hlen : input.length using Nat.strongRecOn generalizing input state with
  | _ length ih =>
    cases hp : parse input with
    | need =>
      rw [drain_of_need hp] at hdrain
      cases hdrain
      exact hp
    | bad =>
      rw [drain_of_bad hstd hp] at hdrain
      cases hdrain
    | item value used =>
      have hpos := hstd.used_pos hp
      have hle := hstd.used_le hp
      rw [drain_of_item hstd hp] at hdrain
      cases hhandle : handle state value with
      | error failed => simp [hhandle, bind, Except.bind] at hdrain
      | ok next =>
        simp only [hhandle, bind, Except.bind] at hdrain
        exact ih _ (by simp; omega) hdrain rfl

theorem drain_append (input more : List β) (state : σ) :
    drain parse handle (input ++ more) state =
      drain parse handle input state >>= fun kept => drain parse handle (kept.1 ++ more) kept.2 := by
  induction hlen : input.length using Nat.strongRecOn generalizing input state with
  | _ length ih =>
    cases hp : parse input with
    | need =>
      rw [drain_of_need hp]
      rfl
    | bad =>
      rw [drain_of_bad hstd hp, drain_of_bad hstd (hstd.bad_append more hp)]
      rfl
    | item value used =>
      have hpos := hstd.used_pos hp
      have hle := hstd.used_le hp
      rw [drain_of_item hstd hp, drain_of_item hstd (hstd.item_append more hp),
        drop_append_of_le_length hle, bind_assoc]
      congr 1
      funext next
      exact ih _ (by simp; omega) _ next rfl

theorem reads_eq_drain (chunks : List (List β)) {kept : List β} (hkept : parse kept = .need)
    (state : σ) :
    reads parse handle chunks (kept, state) =
      drain parse handle (kept ++ chunks.flatten) state := by
  induction chunks generalizing kept state with
  | nil =>
    rw [flatten_nil, append_nil, drain_of_need hkept]
    rfl
  | cons chunk chunks ih =>
    rw [flatten_cons, ← append_assoc, drain_append hstd, reads, foldlM_cons]
    change drain parse handle (kept ++ chunk) state >>= _ = _
    cases hdrain : drain parse handle (kept ++ chunk) state with
    | error final => rfl
    | ok next =>
      obtain ⟨rest, next⟩ := next
      exact ih (need_of_drain hstd hdrain) next

theorem drain_written {write : γ → List β} {value : γ → α}
    (hwrite : ∀ item rest, parse (write item ++ rest) = .item (value item) (write item).length)
    (items : List γ) (state : σ) :
    drain parse handle (items.flatMap write) state =
      (fun final => ([], final)) <$> (items.map value).foldlM handle state := by
  induction items generalizing state with
  | nil =>
    rfl
  | cons item items ih =>
    rw [flatMap_cons, drain_of_item hstd (hwrite item _), drop_left, map_cons,
      foldlM_cons, map_bind]
    congr 1
    funext next
    exact ih next

end Steady

end Intake
