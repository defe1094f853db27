import Mathlib.Logic.Function.Basic

/-!
# A message on its way through a network

Nodes hold a state each.  Copies of a message are under way to nodes; a node
that takes one changes its state, sends further copies and leaves entries in a
ledger.  In between, a node may do anything that concerns other messages.
-/

namespace Relay

variable {ι σ γ ε : Type} [DecidableEq ι]

structure Net (ι σ γ ε : Type) where
  node : ι → σ
  flying : List (ι × γ) := []
  ledger : List ε := []

/-- What a node makes of a copy. -/
structure Handled (ι σ γ ε : Type) where
  state : σ
  copies : List (ι × γ) := []
  entries : List ε := []

inductive Event (ι σ : Type) where
  /-- A copy that is under way arrives. -/
  | arrive (index : Nat)
  /-- A node has done something else. -/
  | meanwhile (node : ι) (state : σ)

namespace Net

def put (net : Net ι σ γ ε) (node : ι) (handled : Handled ι σ γ ε) : Net ι σ γ ε where
  node := Function.update net.node node handled.state
  flying := net.flying ++ handled.copies
  ledger := net.ledger ++ handled.entries

variable (handler : ι → γ → σ → Handled ι σ γ ε)

def step (net : Net ι σ γ ε) : Event ι σ → Net ι σ γ ε
  | .arrive index =>
    match net.flying[index]? with
    | none => net
    | some (node, copy) =>
      { net with flying := net.flying.eraseIdx index }.put node
        (handler node copy (net.node node))
  | .meanwhile node state => { net with node := Function.update net.node node state }

def run (net : Net ι σ γ ε) (events : List (Event ι σ)) : Net ι σ γ ε :=
  events.foldl (step handler) net

variable {handler} {net : Net ι σ γ ε}

/-- As long as nothing is under way the ledger stays as it is. -/
theorem run_still (hstill : net.flying = []) (events : List (Event ι σ)) :
    (net.run handler events).ledger = net.ledger := by
  induction events generalizing net with
  | nil => rfl
  | cons event events ih =>
    rw [run, List.foldl_cons, ← run]
    cases event with
    | meanwhile node state => exact ih hstill
    | arrive index =>
      have hnone : net.flying[index]? = none := by simp [hstill]
      rw [step, hnone]
      exact ih hstill

/-- A copy under way may find its node in any state. -/
theorem run_arrive {index : Nat} {node : ι} {copy : γ}
    (hflying : net.flying[index]? = some (node, copy)) (state : σ) :
    (net.run handler [.meanwhile node state, .arrive index]).ledger =
      net.ledger ++ (handler node copy state).entries := by
  simp [run, step, hflying, put]

end Net

end Relay
