import Mathlib.Data.List.Basic

/-!
# Traces that open a key before they use it

A line of a trace may open a key, close one, and use any number of them.  A
trace is orderly for a key when every use stands after an opening that no
closing has undone.  The lemmas compose traces: what holds of the parts, with
the state each part leaves, holds of the whole.
-/

structure Session (Line Key : Type) where
  opens : Line → Option Key
  closes : Line → Option Key
  Uses : Line → Key → Prop

namespace Session

open List

variable {Line Key : Type} [DecidableEq Key] {trace : List Line} (session : Session Line Key)

/-- Whether `key` is open after one more line. -/
def next (key : Key) (isOpen : Bool) (line : Line) : Bool :=
  if session.opens line = some key then true
  else if session.closes line = some key then false
  else isOpen

def openAfter (key : Key) (isOpen : Bool) (trace : List Line) : Bool :=
  trace.foldl (session.next key) isOpen

def Orderly (key : Key) : Bool → List Line → Prop
  | _, [] => True
  | isOpen, line :: rest =>
    (session.Uses line key → isOpen = true) ∧
      Orderly key (session.next key isOpen line) rest

instance decidableOrderly [∀ line key, Decidable (session.Uses line key)]
    (key : Key) : (isOpen : Bool) → (trace : List Line) →
    Decidable (session.Orderly key isOpen trace)
  | _, [] => isTrue trivial
  | isOpen, line :: rest =>
    let _ := decidableOrderly key (session.next key isOpen line) rest
    inferInstanceAs (Decidable (_ ∧ _))

variable {session} {key : Key} {isOpen : Bool}

theorem orderly_append {front back : List Line} :
    session.Orderly key isOpen (front ++ back) ↔
      session.Orderly key isOpen front ∧
        session.Orderly key (session.openAfter key isOpen front) back := by
  induction front generalizing isOpen with
  | nil => simp [Orderly, openAfter]
  | cons line front ih =>
    simp only [cons_append, Orderly, ih, and_assoc]
    rfl

theorem openAfter_append (front back : List Line) :
    session.openAfter key isOpen (front ++ back) =
      session.openAfter key (session.openAfter key isOpen front) back :=
  foldl_append

theorem openAfter_of_neutral
    (htrace : ∀ line ∈ trace, session.opens line ≠ some key ∧ session.closes line ≠ some key) :
    session.openAfter key isOpen trace = isOpen := by
  induction trace generalizing isOpen with
  | nil => rfl
  | cons line trace ih =>
    obtain ⟨hopens, hcloses⟩ := htrace line mem_cons_self
    have hnext : session.next key isOpen line = isOpen := by
      simp [next, hopens, hcloses]
    rw [openAfter, foldl_cons, hnext]
    exact ih fun other ho => htrace other (mem_cons_of_mem _ ho)

theorem openAfter_of_open (htrace : ∀ line ∈ trace, session.closes line ≠ some key) :
    session.openAfter key true trace = true := by
  induction trace with
  | nil => rfl
  | cons line trace ih =>
    have hnext : session.next key true line = true := by
      simp [next, htrace line mem_cons_self]
    rw [openAfter, foldl_cons, hnext]
    exact ih fun other ho => htrace other (mem_cons_of_mem _ ho)

theorem openAfter_of_opened {line : Line} (hline : line ∈ trace)
    (hopens : session.opens line = some key)
    (htrace : ∀ other ∈ trace, session.closes other ≠ some key) :
    session.openAfter key isOpen trace = true := by
  obtain ⟨front, back, rfl⟩ := append_of_mem hline
  have hnext : ∀ isOpen, session.next key isOpen line = true := by
    simp [next, hopens]
  rw [openAfter_append, openAfter, foldl_cons, hnext]
  exact openAfter_of_open fun other ho => htrace other (by simp [ho])

theorem orderly_of_unused (htrace : ∀ line ∈ trace, ¬session.Uses line key) :
    session.Orderly key isOpen trace := by
  induction trace generalizing isOpen with
  | nil => trivial
  | cons line trace ih =>
    refine ⟨fun huses => absurd huses (htrace line mem_cons_self), ?_⟩
    exact ih fun other ho => htrace other (mem_cons_of_mem _ ho)

theorem orderly_of_open (htrace : ∀ line ∈ trace, session.closes line ≠ some key) :
    session.Orderly key true trace := by
  induction trace with
  | nil => trivial
  | cons line trace ih =>
    have hnext : session.next key true line = true := by
      simp [next, htrace line mem_cons_self]
    refine ⟨fun _ => rfl, ?_⟩
    rw [hnext]
    exact ih fun other ho => htrace other (mem_cons_of_mem _ ho)

end Session
