import EchoIrcd.Delivery
import EchoIrcd.Lib.Replica

/-!
# Two linked servers

Each server has one link to the other.  The lines a server has written to its
link and the number the other one has read say what is on its way; lines are
read in the order in which they were written.  A step is a command of a local
user or the delivery of the next line, in any order.
-/

namespace EchoIrcd

open Str

variable {outs rest : List Out} {out : Out}

structure Wiring where
  env : Side → Env
  /-- the link of a side to the other one -/
  port : Side → Uid

structure Pair where
  srv : Side → Server
  /-- how many lines a side has read -/
  read : Side → Nat

namespace Pair

def sent (wiring : Wiring) (pair : Pair) (side : Side) : List Out :=
  (pair.srv side).linesTo (wiring.port side)

def inFlight (wiring : Wiring) (pair : Pair) (side : Side) : List Out :=
  (pair.sent wiring side.other).drop (pair.read side)

section

variable (side : Side) (server : Server) (read : Nat) (pair : Pair)

def set : Pair where
  srv := Function.update pair.srv side server
  read := Function.update pair.read side read

@[simp] theorem set_srv_self : (pair.set side server read).srv side = server := by
  simp [set]

@[simp] theorem set_srv_other :
    (pair.set side server read).srv side.other = pair.srv side.other := by
  simp [set]

@[simp] theorem set_read_self : (pair.set side server read).read side = read := by
  simp [set]

@[simp] theorem set_read_other :
    (pair.set side server read).read side.other = pair.read side.other := by
  simp [set]

end

def Quiescent (wiring : Wiring) (pair : Pair) : Prop :=
  ∀ side, pair.inFlight wiring side = []

def Causal (wiring : Wiring) (pair : Pair) : Prop :=
  ∀ side, pair.read side ≤ (pair.sent wiring side.other).length

/-! ## Steps -/

inductive Move where
  | command (uid : Uid) (command : Command)
  | deliver

def Enabled (wiring : Wiring) (pair : Pair) (side : Side) : Move → Prop
  | .command uid _ => (pair.srv side).isEnrolled uid = true
  | .deliver => pair.inFlight wiring side ≠ []

instance (wiring : Wiring) (pair : Pair) (side : Side) :
    (move : Move) → Decidable (pair.Enabled wiring side move)
  | .command uid _ => inferInstanceAs (Decidable ((pair.srv side).isEnrolled uid = true))
  | .deliver => inferInstanceAs (Decidable (pair.inFlight wiring side ≠ []))

def happen (wiring : Wiring) (side : Side) (now : Timestamp) (pair : Pair) :
    Move → Pair
  | .command uid command => pair.set side
      ((pair.srv side).handleEvent (wiring.env side) now
        (Server.obey (wiring.env side) uid command)) (pair.read side)
  | .deliver =>
    match pair.inFlight wiring side with
    | [] => pair
    | out :: _ => pair.set side
        ((pair.srv side).handleEvent (wiring.env side) now fun server =>
          server.onLine (wiring.env side) (wiring.port side) out)
        (pair.read side + 1)

abbrev Guard := Pair → Side → Timestamp → Move → Prop

end Pair

inductive PairStep (wiring : Wiring) (guard : Pair.Guard) (pair : Pair) : Pair → Prop where
  | happen (side : Side) (now : Timestamp) (move : Pair.Move)
      (hen : pair.Enabled wiring side move) (hg : guard pair side now move) :
      PairStep wiring guard pair (pair.happen wiring side now move)

namespace Pair

variable {wiring : Wiring} {pair : Pair} {side : Side} {after : Server}

/-! ## What is on its way after a step -/

theorem inFlight_set_self (read : Nat) :
    (pair.set side after read).inFlight wiring side = (pair.sent wiring side.other).drop read := by
  unfold inFlight sent
  rw [set_srv_other, set_read_self]

theorem inFlight_said :
    (pair.set side after (pair.read side)).inFlight wiring side = pair.inFlight wiring side :=
  inFlight_set_self _

theorem inFlight_heard (hnext : pair.inFlight wiring side = out :: rest) :
    (pair.set side after (pair.read side + 1)).inFlight wiring side = rest := by
  have hdrop : (pair.sent wiring side.other).drop (pair.read side) = out :: rest := hnext
  rw [inFlight_set_self, ← List.drop_drop, hdrop]
  rfl

section

variable (hcau : pair.Causal wiring)
  (hls : after.linesTo (wiring.port side) = pair.sent wiring side ++ outs)

include hcau hls

theorem inFlight_set_other {read : Nat} :
    (pair.set side after read).inFlight wiring side.other =
      pair.inFlight wiring side.other ++ outs := by
  have hread := hcau side.other
  rw [Side.other_other] at hread
  unfold inFlight sent
  rw [Side.other_other, set_srv_self, set_read_other, hls, List.drop_append_of_le_length hread]
  rfl

theorem Causal.move {count : Nat} (hcnt : count ≤ (pair.sent wiring side.other).length) :
    (pair.set side after count).Causal wiring := by
  unfold Causal at *
  rw [Side.forall_iff side] at hcau ⊢
  constructor
  · rw [set_read_self, sent, set_srv_other]
    exact hcnt
  · have ho := hcau.2
    rw [Side.other_other] at ho ⊢
    rw [set_read_other, sent, set_srv_self, hls, List.length_append]
    omega

theorem Causal.said : (pair.set side after (pair.read side)).Causal wiring :=
  hcau.move hls (hcau side)

theorem Causal.heard (hnext : pair.inFlight wiring side = out :: rest) :
    (pair.set side after (pair.read side + 1)).Causal wiring := by
  have hlen := congrArg List.length hnext
  simp only [inFlight, List.length_drop, List.length_cons] at hlen
  exact hcau.move hls (by omega)

end

end Pair

end EchoIrcd
