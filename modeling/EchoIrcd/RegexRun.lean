import EchoIrcd.RegexCode

/-!
# Following all threads

The simulation keeps, for each position of the text, the instructions that some
run of the program waits at.  A counter is marked with the generation that
visited it, so every branch is followed once, and the marks of a position are
closed under the branches.
-/

namespace EchoIrcd

open Relation List Regex

variable {counter pos : Nat} {origin : Nat → Prop} {threads : Threads} {inst : Inst}
  {list : List Nat}

section Explore

variable {prog : Prog} {pos length gen : Nat}

def Goes (prog : Prog) (pos length : Nat) (counter next : Nat) : Prop :=
  ∃ inst, prog[counter]? = some inst ∧ next ∈ inst.next pos length counter

def Threads.Marked (threads : Threads) (gen counter : Nat) : Prop :=
  threads.seen[counter]? = some gen

/-- An exploration from some origins: the marks, the counters still to visit, and the threads
that wait. -/
structure Exploring (prog : Prog) (pos length gen : Nat) (origin : Nat → Prop) (stack : List Nat)
    (threads : Threads) : Prop where
  size : threads.seen.length = prog.length
  bounded : ∀ mark ∈ threads.seen, mark ≤ gen
  closed {counter next : Nat} : threads.Marked gen counter → Goes prog pos length counter next →
    threads.Marked gen next ∨ next ∈ stack ∨ prog.length ≤ next
  waiting (counter : Nat) : counter ∈ threads.list ↔ threads.Marked gen counter ∧
    ∃ inst, prog[counter]? = some inst ∧ inst.waits = true
  reached {counter : Nat} : threads.Marked gen counter ∨ counter ∈ stack →
    ∃ root, origin root ∧ ReflTransGen (Goes prog pos length) root counter
  started {root : Nat} : origin root →
    threads.Marked gen root ∨ root ∈ stack ∨ prog.length ≤ root

abbrev Met (prog : Prog) (gen : Nat) (stack : List Nat) (threads : Threads) (counter : Nat) : Prop :=
  threads.Marked gen counter ∨ counter ∈ stack ∨ prog.length ≤ counter

theorem met_of_nil {threads : Threads} {counter : Nat} (hmet : Met prog gen [] threads counter) :
    threads.Marked gen counter ∨ prog.length ≤ counter :=
  hmet.imp_right fun hrest => hrest.resolve_left not_mem_nil

theorem not_goes_of_length_le {next : Nat} (hlen : prog.length ≤ counter) :
    ¬ Goes prog pos length counter next := by
  rintro ⟨inst, hinst, -⟩
  rw [getElem?_eq_none hlen] at hinst
  cases hinst

theorem Exploring.mem_list (hexp : Exploring prog pos length gen origin [] threads)
    (counter : Nat) :
    counter ∈ threads.list ↔ (∃ inst, prog[counter]? = some inst ∧ inst.waits = true) ∧
      ∃ root, origin root ∧ ReflTransGen (Goes prog pos length) root counter := by
  rw [hexp.waiting]
  constructor
  · rintro ⟨hmk, hwt⟩
    exact ⟨hwt, hexp.reached (.inl hmk)⟩
  · rintro ⟨⟨inst, hinst, hwt⟩, root, horg, hpath⟩
    refine ⟨?_, inst, hinst, hwt⟩
    have hvisited : threads.Marked gen counter ∨ prog.length ≤ counter := by
      clear hinst hwt
      induction hpath with
      | refl => exact met_of_nil (hexp.started horg)
      | tail _ hlast ih =>
        rcases ih with hmk | hlen
        · exact met_of_nil (hexp.closed hmk hlast)
        · exact absurd hlast (not_goes_of_length_le hlen)
    rcases hvisited with hmk | hlen
    · exact hmk
    · rw [getElem?_eq_none hlen] at hinst
      cases hinst

/-! ## One counter -/

section Visit

variable {origin : Nat → Prop} {stack : List Nat} {threads : Threads} {counter : Nat}

theorem Met.pop {other : Nat} (hmet : Met prog gen (counter :: stack) threads other)
    (hskip : threads.Marked gen counter ∨ prog.length ≤ counter) :
    Met prog gen stack threads other := by
  rcases hmet with hmk | hstack | hlen
  · exact .inl hmk
  · rcases mem_cons.mp hstack with rfl | hstack
    · exact hskip.imp_right .inr
    · exact .inr (.inl hstack)
  · exact .inr (.inr hlen)

def Threads.visit (threads : Threads) (gen counter : Nat) (inst : Inst) : Threads :=
  ⟨if inst.waits then threads.list ++ [counter] else threads.list, threads.seen.set counter gen⟩

theorem marked_visit {inst : Inst} (hctr : counter < threads.seen.length) (other : Nat) :
    (threads.visit gen counter inst).Marked gen other ↔
      other = counter ∨ threads.Marked gen other := by
  unfold Threads.Marked Threads.visit
  by_cases hs : counter = other
  · simp [hs, hs ▸ hctr]
  · simp [hs, Ne.symm hs]

namespace Exploring

variable (hexpl : Exploring prog pos length gen origin (counter :: stack) threads)

include hexpl

theorem skip (hskip : threads.Marked gen counter ∨ prog.length ≤ counter) :
    Exploring prog pos length gen origin stack threads where
  size := hexpl.size
  bounded := hexpl.bounded
  closed hmk hgoes := Met.pop (hexpl.closed hmk hgoes) hskip
  waiting := hexpl.waiting
  reached hvisit := hexpl.reached (hvisit.imp_right (mem_cons_of_mem _))
  started horg := Met.pop (hexpl.started horg) hskip

theorem visit (hinst : prog[counter]? = some inst) (hfre : ¬ threads.Marked gen counter) :
    Exploring prog pos length gen origin (inst.next pos length counter ++ stack)
      (threads.visit gen counter inst) := by
  have hlt : counter < threads.seen.length := by
    rw [hexpl.size]
    exact (List.getElem?_eq_some_iff.mp hinst).1
  have hmk := fun other => @marked_visit gen threads counter inst hlt other
  have hroot : ∃ root, origin root ∧ ReflTransGen (Goes prog pos length) root counter :=
    hexpl.reached (.inr mem_cons_self)
  have hmet : ∀ other, Met prog gen (counter :: stack) threads other →
      Met prog gen (inst.next pos length counter ++ stack) (threads.visit gen counter inst) other := by
    intro other hmet
    unfold Met
    rw [hmk]
    rcases hmet with ho | hstack | hlen
    · exact .inl (.inr ho)
    · rcases mem_cons.mp hstack with rfl | hstack
      · exact .inl (.inl rfl)
      · exact .inr (.inl (mem_append_right _ hstack))
    · exact .inr (.inr hlen)
  refine ⟨?_, ?_, ?_, ?_, ?_, fun horg => hmet _ (hexpl.started horg)⟩
  · rw [Threads.visit, length_set, hexpl.size]
  · intro mark hmark
    rcases mem_or_eq_of_mem_set hmark with hold | rfl
    · exact hexpl.bounded mark hold
    · exact Nat.le_refl _
  · intro from' next hfrom hgoes
    rcases (hmk _).mp hfrom with rfl | hfrom
    · obtain ⟨inst', hinst', hnext⟩ := hgoes
      rw [hinst] at hinst'
      cases hinst'
      exact .inr (.inl (mem_append_left _ hnext))
    · exact hmet _ (hexpl.closed hfrom hgoes)
  · intro other
    rw [hmk]
    have hold := hexpl.waiting other
    by_cases hwt : inst.waits = true
    · rw [Threads.visit, if_pos hwt, mem_append, mem_singleton, hold]
      constructor
      · rintro (⟨ho, hinst⟩ | rfl)
        · exact ⟨.inr ho, hinst⟩
        · exact ⟨.inl rfl, inst, hinst, hwt⟩
      · rintro ⟨rfl | ho, hwait⟩
        · exact .inr rfl
        · exact .inl ⟨ho, hwait⟩
    · rw [Threads.visit, if_neg hwt, hold]
      constructor
      · rintro ⟨ho, hwait⟩
        exact ⟨.inr ho, hwait⟩
      · rintro ⟨rfl | ho, inst', hinst', hwt'⟩
        · rw [hinst] at hinst'
          cases hinst'
          exact absurd hwt' hwt
        · exact ⟨ho, inst', hinst', hwt'⟩
  · intro other hvisit
    rw [hmk] at hvisit
    rcases hvisit with (rfl | ho) | hstack
    · exact hroot
    · exact hexpl.reached (.inl ho)
    · rcases mem_append.mp hstack with hnext | hstack
      · obtain ⟨root, horg, hpath⟩ := hroot
        exact ⟨root, horg, hpath.tail ⟨inst, hinst, hnext⟩⟩
      · exact hexpl.reached (.inr (mem_cons_of_mem _ hstack))

end Exploring

end Visit

/-! ## The loop -/

theorem length_next_le (inst : Inst) (counter : Nat) : (inst.next pos length counter).length ≤ 2 := by
  cases inst <;> simp only [Inst.next] <;> (try split) <;> simp

theorem countP_visit {threads : Threads} {counter : Nat} {inst : Inst}
    (hctr : counter < threads.seen.length) (hfre : ¬ threads.Marked gen counter) :
    (threads.visit gen counter inst).seen.countP (· ≠ gen) + 1 =
      threads.seen.countP (· ≠ gen) := by
  have hne : threads.seen[counter] ≠ gen := by
    intro heq
    exact hfre (by rw [Threads.Marked, getElem?_eq_getElem hctr, heq])
  have hpos : 0 < threads.seen.countP (· ≠ gen) := by
    rw [countP_pos_iff]
    exact ⟨_, getElem_mem hctr, by simpa using hne⟩
  rw [Threads.visit, countP_set hctr, if_pos (by simpa using hne), if_neg (by simp)]
  omega

theorem Exploring.addThreads {fuel : Nat} {stack : List Nat}
    (hexpl : Exploring prog pos length gen origin stack threads)
    (hfuel : stack.length + 2 * threads.seen.countP (· ≠ gen) ≤ fuel) :
    Exploring prog pos length gen origin [] (addThreads prog gen pos length fuel stack threads) := by
  induction fuel generalizing stack threads with
  | zero =>
    have hstack : stack = [] := List.length_eq_zero_iff.mp (by omega)
    subst hstack
    exact hexpl
  | succ fuel ih =>
    cases stack with
    | nil => exact hexpl
    | cons counter stack =>
      rw [List.length_cons] at hfuel
      rw [EchoIrcd.addThreads]
      split
      · rename_i hmk
        exact ih (hexpl.skip (.inl hmk)) (by omega)
      · rename_i hfre
        cases hinst : prog[counter]? with
        | none =>
          have hlen : prog.length ≤ counter := List.getElem?_eq_none_iff.mp hinst
          exact ih (hexpl.skip (.inr hlen)) (by omega)
        | some inst =>
          have hlt : counter < threads.seen.length := by
            rw [hexpl.size]
            exact (List.getElem?_eq_some_iff.mp hinst).1
          have hcnt := @countP_visit gen threads counter inst hlt hfre
          have hnext := @length_next_le pos length inst counter
          apply ih (hexpl.visit hinst hfre)
          rw [List.length_append]
          omega

theorem Exploring.addThread (hexp : Exploring prog pos length gen origin [] threads)
    (start : Nat) :
    Exploring prog pos length gen (fun root => origin root ∨ root = start) []
      (addThread prog gen pos length start threads) := by
  have hstacked : Exploring prog pos length gen (fun root => origin root ∨ root = start) [start]
      threads := by
    refine ⟨hexp.size, hexp.bounded, ?_, hexp.waiting, ?_, ?_⟩
    · intro counter next hmk hgoes
      exact (met_of_nil (hexp.closed hmk hgoes)).imp_right .inr
    · rintro counter (hmk | hstack)
      · obtain ⟨root, horg, hpath⟩ := hexp.reached (.inl hmk)
        exact ⟨root, .inl horg, hpath⟩
      · obtain rfl := mem_singleton.mp hstack
        exact ⟨counter, .inr rfl, .refl⟩
    · rintro root (horg | rfl)
      · exact (met_of_nil (hexp.started horg)).imp_right .inr
      · exact .inr (.inl mem_cons_self)
  apply hstacked.addThreads
  have hcnt : threads.seen.countP (· ≠ gen) ≤ threads.seen.length := countP_le_length
  rw [hexp.size] at hcnt
  simp only [length_singleton]
  omega

theorem exploring_nothing {seen : List Nat} (hsize : seen.length = prog.length)
    (hbounded : ∀ mark ∈ seen, mark < gen) :
    Exploring prog pos length gen (fun _ => False) [] ⟨[], seen⟩ := by
  have hnone : ∀ counter, ¬ Threads.Marked ⟨[], seen⟩ gen counter := by
    intro counter hmk
    exact absurd (hbounded gen (mem_of_getElem? hmk)) (Nat.lt_irrefl gen)
  refine ⟨hsize, fun mark hmark => Nat.le_of_lt (hbounded mark hmark), ?_, ?_, ?_, ?_⟩
  · intro counter next hmk
    exact absurd hmk (hnone counter)
  · intro counter
    constructor
    · intro hmem
      cases hmem
    · rintro ⟨hmk, -⟩
      exact absurd hmk (hnone counter)
  · rintro counter (hmk | hmem)
    · exact absurd hmk (hnone counter)
    · cases hmem
  · intro root hfalse
    exact hfalse.elim

theorem Exploring.congr {other : Nat → Prop}
    (hexp : Exploring prog pos length gen origin [] threads)
    (hs : ∀ root, origin root ↔ other root) :
    Exploring prog pos length gen other [] threads := by
  have horg : origin = other := by
    funext root
    exact propext (hs root)
  exact horg ▸ hexp

end Explore

/-! ## From one position to the next -/

section Position

variable {prog : Prog} {pos length gen : Nat} {next : Option Char}

def Takes (prog : Prog) (next : Option Char) (list : List Nat) (start : Nat) : Prop :=
  ∃ counter ∈ list, ∃ inst, prog[counter]? = some inst ∧ inst.hits next = true ∧
    start = counter + 1

theorem stepThreads_eq_none :
    stepThreads prog gen pos length next list threads = none ↔
      ∃ counter ∈ list, prog[counter]? = some .accept := by
  induction list generalizing threads with
  | nil => simp [stepThreads]
  | cons counter list ih =>
    rw [stepThreads]
    cases hinst : prog[counter]? with
    | none => simp [hinst, ih]
    | some inst =>
      by_cases hac : inst = .accept
      · simp [hac, hinst]
      · by_cases hhits : inst.hits next = true <;> simp [hac, hhits, hinst, ih]

theorem stepThreads_exploring {after : Threads}
    (hexp : Exploring prog (pos + 1) length gen origin [] threads)
    (hstep : stepThreads prog gen pos length next list threads = some after) :
    Exploring prog (pos + 1) length gen (fun root => origin root ∨ Takes prog next list root) []
      after := by
  induction list generalizing threads origin with
  | nil =>
    cases hstep
    exact hexp.congr (by simp [Takes])
  | cons counter list ih =>
    rw [stepThreads] at hstep
    cases hinst : prog[counter]? with
    | none =>
      simp only [hinst] at hstep
      refine (ih hexp hstep).congr fun root => ?_
      simp [Takes, hinst]
    | some inst =>
      simp only [hinst] at hstep
      split at hstep
      · cases hstep
      · split at hstep
        · rename_i hhits
          refine (ih (hexp.addThread _) hstep).congr fun root => ?_
          simp [Takes, hinst, hhits, or_assoc]
        · rename_i hhits
          refine (ih hexp hstep).congr fun root => ?_
          simp [Takes, hinst, hhits]

end Position

/-! ## Runs of the program -/

section Run

variable {prog : Prog} {text : Str}

def Alive (prog : Prog) (text : Str) (pos counter : Nat) : Prop :=
  ReflTransGen (Step prog text) (0, 0) (counter, pos)

theorem Alive.goes {next : Nat} (hal : Alive prog text pos counter)
    (hpath : ReflTransGen (Goes prog pos text.length) counter next) : Alive prog text pos next := by
  induction hpath with
  | refl => exact hal
  | tail _ hlast ih =>
    obtain ⟨inst, hinst, hnext⟩ := hlast
    exact ReflTransGen.tail ih ⟨inst, hinst, .inl ⟨rfl, hnext⟩⟩

theorem alive_cases {config : Nat × Nat} (hrun : ReflTransGen (Step prog text) (0, 0) config) :
    (config.2 = 0 ∧ ReflTransGen (Goes prog 0 text.length) 0 config.1) ∨
      ∃ pos start, config.2 = pos + 1 ∧
        (∃ counter inst, Alive prog text pos counter ∧ prog[counter]? = some inst ∧
          inst.hits text[pos]? = true ∧ start = counter + 1) ∧
        ReflTransGen (Goes prog (pos + 1) text.length) start config.1 := by
  induction hrun with
  | refl => exact .inl ⟨rfl, .refl⟩
  | tail hbef hlast ih =>
    rename_i config next
    obtain ⟨counter, pos⟩ := config
    obtain ⟨inst, hinst, ⟨hpos, hnext⟩ | ⟨hhits, rfl⟩⟩ := hlast
    · rcases ih with ⟨hzero, hpath⟩ | ⟨pos', start, hpos', horg, hpath⟩
      · subst hzero
        exact .inl ⟨hpos, hpath.tail ⟨inst, hinst, hnext⟩⟩
      · subst hpos'
        exact .inr ⟨pos', start, hpos, horg, hpath.tail ⟨inst, hinst, hnext⟩⟩
    · exact .inr ⟨pos, counter + 1, rfl, ⟨counter, inst, hbef, hinst, hhits, rfl⟩, .refl⟩

theorem alive_zero :
    Alive prog text 0 counter ↔ ReflTransGen (Goes prog 0 text.length) 0 counter := by
  constructor
  · intro hal
    rcases alive_cases hal with ⟨-, hpath⟩ | ⟨pos, start, hpos, -⟩
    · exact hpath
    · cases hpos
  · exact fun hpath => Alive.goes .refl hpath

theorem alive_succ :
    Alive prog text (pos + 1) counter ↔
      ∃ start, (∃ counter inst, Alive prog text pos counter ∧ prog[counter]? = some inst ∧
          inst.hits text[pos]? = true ∧ start = counter + 1) ∧
        ReflTransGen (Goes prog (pos + 1) text.length) start counter := by
  constructor
  · intro hal
    rcases alive_cases hal with ⟨hzero, -⟩ | ⟨pos', start, hpos, horg, hpath⟩
    · cases hzero
    · simp only [Nat.add_right_cancel_iff] at hpos
      subst hpos
      exact ⟨start, horg, hpath⟩
  · rintro ⟨start, ⟨before, inst, hal, hinst, hhits, rfl⟩, hpath⟩
    have hnext : Alive prog text (pos + 1) (before + 1) :=
      ReflTransGen.tail hal ⟨inst, hinst, .inr ⟨hhits, rfl⟩⟩
    exact hnext.goes hpath

/-- The threads of a position are the waiting instructions that some run is at. -/
structure Follows (prog : Prog) (text : Str) (pos gen : Nat) (threads : Threads) : Prop where
  size : threads.seen.length = prog.length
  bounded : ∀ mark ∈ threads.seen, mark ≤ gen
  mem_list (counter : Nat) : counter ∈ threads.list ↔
    (∃ inst, prog[counter]? = some inst ∧ inst.waits = true) ∧ Alive prog text pos counter

theorem waits_of_hits {next : Option Char} (hhits : inst.hits next = true) : inst.waits = true := by
  cases inst with
  | char letter => rfl
  | any => rfl
  | charClass items negated => rfl
  | split left right => cases hhits
  | jmp goal => cases hhits
  | start => cases hhits
  | finish => cases hhits
  | accept => cases hhits

theorem Follows.step {pos gen : Nat} {threads after : Threads}
    (hfol : Follows prog text pos gen threads)
    (hstep : stepThreads prog (gen + 1) pos text.length text[pos]? threads.list
      ⟨[], threads.seen⟩ = some after) :
    Follows prog text (pos + 1) (gen + 1) after := by
  have hfre := @exploring_nothing prog (pos + 1) text.length (gen + 1) threads.seen hfol.size
    fun mark hmark => Nat.lt_succ_of_le (hfol.bounded mark hmark)
  have hexp := stepThreads_exploring hfre hstep
  refine ⟨hexp.size, hexp.bounded, ?_⟩
  intro counter
  rw [hexp.mem_list, alive_succ]
  refine and_congr_right fun _ => exists_congr fun root => and_congr_left fun _ => ?_
  constructor
  · rintro (hfalse | ⟨before, hmem, inst, hinst, hhits, rfl⟩)
    · exact hfalse.elim
    · exact ⟨before, inst, ((hfol.mem_list before).mp hmem).2, hinst, hhits, rfl⟩
  · rintro ⟨before, inst, hal, hinst, hhits, rfl⟩
    refine .inr ⟨before, ?_, inst, hinst, hhits, rfl⟩
    exact (hfol.mem_list before).mpr ⟨⟨inst, hinst, waits_of_hits hhits⟩, hal⟩

theorem follows_start (prog : Prog) (text : Str) :
    Follows prog text 0 1 (addThread prog 1 0 text.length 0 ⟨[], replicate prog.length 0⟩) := by
  have hfre := @exploring_nothing prog 0 text.length 1 (replicate prog.length 0) (by simp)
    (by simp)
  have hexp := hfre.addThread 0
  refine ⟨hexp.size, hexp.bounded, ?_⟩
  intro counter
  rw [hexp.mem_list, alive_zero]
  simp

theorem Follows.step_eq_none {gen : Nat} {next : Option Char}
    (hfol : Follows prog text pos gen threads) :
    stepThreads prog (gen + 1) pos text.length next threads.list ⟨[], threads.seen⟩ = none ↔
      ∃ counter, Alive prog text pos counter ∧ prog[counter]? = some .accept := by
  rw [stepThreads_eq_none]
  constructor
  · rintro ⟨counter, hmem, hac⟩
    exact ⟨counter, ((hfol.mem_list counter).mp hmem).2, hac⟩
  · rintro ⟨counter, hal, hac⟩
    exact ⟨counter, (hfol.mem_list counter).mpr ⟨⟨.accept, hac, rfl⟩, hal⟩, hac⟩

theorem Alive.le_length (hal : Alive prog text pos counter) : pos ≤ text.length := by
  cases pos with
  | zero => omega
  | succ pos =>
    obtain ⟨_, ⟨_, inst, -, -, hhits, -⟩, -⟩ := alive_succ.mp hal
    cases hchar : text[pos]? with
    | none => cases inst <;> simp [Inst.hits.eq_def, hchar] at hhits
    | some char => exact (List.getElem?_eq_some_iff.mp hchar).1

theorem matchFrom_iff {rest : Str} {gen : Nat} (hrest : rest = text.drop pos)
    (hfol : Follows prog text pos gen threads) :
    matchFrom prog text.length rest pos gen threads = true ↔
      ∃ pos', pos ≤ pos' ∧
        ∃ counter, Alive prog text pos' counter ∧ prog[counter]? = some .accept := by
  induction rest generalizing pos gen threads with
  | nil =>
    have hlen : text.length ≤ pos := drop_eq_nil_iff.mp hrest.symm
    rw [matchFrom]
    cases hstep : stepThreads prog (gen + 1) pos text.length ([] : Str).head? threads.list
        ⟨[], threads.seen⟩ with
    | none =>
      simp only [true_iff]
      exact ⟨pos, Nat.le_refl pos, hfol.step_eq_none.mp hstep⟩
    | some after =>
      simp only [Bool.false_eq_true, false_iff]
      rintro ⟨pos', hpos, counter, hal, hac⟩
      have hs : pos' = pos := Nat.le_antisymm (Nat.le_trans hal.le_length hlen) hpos
      subst hs
      cases hstep.symm.trans (hfol.step_eq_none.mpr ⟨counter, hal, hac⟩)
  | cons char rest ih =>
    have hnext : text[pos]? = some char := by
      rw [← head?_drop, ← hrest, head?_cons]
    have hdrop : rest = text.drop (pos + 1) := by
      rw [← tail_drop, ← hrest, tail_cons]
    rw [matchFrom]
    cases hstep : stepThreads prog (gen + 1) pos text.length (char :: rest).head? threads.list
        ⟨[], threads.seen⟩ with
    | none =>
      simp only [true_iff]
      exact ⟨pos, Nat.le_refl pos, hfol.step_eq_none.mp hstep⟩
    | some after =>
      rw [head?_cons, ← hnext] at hstep
      simp only [ih hdrop (hfol.step hstep)]
      constructor
      · rintro ⟨pos', hpos, haccepts⟩
        exact ⟨pos', by omega, haccepts⟩
      · rintro ⟨pos', hpos, counter, hal, hac⟩
        refine ⟨pos', ?_, counter, hal, hac⟩
        -- a run that accepts here would have stopped the step
        by_contra hle
        have hs : pos' = pos := by omega
        subst hs
        cases hstep.symm.trans (hfol.step_eq_none.mpr ⟨counter, hal, hac⟩)

theorem isMatch_iff_accepts : isMatch prog text = true ↔ Accepts prog text := by
  rw [isMatch, matchFrom_iff drop_zero.symm (follows_start prog text)]
  constructor
  · rintro ⟨pos, -, counter, hal, hac⟩
    exact ⟨(counter, pos), hal, hac⟩
  · rintro ⟨⟨counter, pos⟩, hrun, hac⟩
    exact ⟨pos, Nat.zero_le pos, counter, hrun, hac⟩

end Run

/-! ## What a search finds -/

def Ast.Occurs (ast : Ast) (text : Str) : Prop :=
  ∃ before after, before ≤ text.length ∧ ast.span text before after

def Ast.OccursOnFirstLine (ast : Ast) (text : Str) : Prop :=
  ∃ before after, before ≤ text.length ∧ '\n' ∉ text.take before ∧ ast.span text before after

theorem Ast.OccursOnFirstLine.occurs {ast : Ast} {text : Str} (hfst : ast.OccursOnFirstLine text) :
    ast.Occurs text := by
  obtain ⟨before, after, hle, -, hspan⟩ := hfst
  exact ⟨before, after, hle, hspan⟩

theorem parsePattern_of_new {pattern : Str} {prog : Prog} (hnew : new pattern = .ok prog) :
    ∃ ast, parsePattern pattern = .ok ast ∧ compileSearch ast = .ok prog :=
  Except.bind_eq_ok.mp hnew

/-- A search finds what the tree of the pattern matches exactly if it need not look behind a
newline for it. -/
theorem isMatch_iff_occurs {pattern : Str} {prog : Prog} (hnew : new pattern = .ok prog)
    (text : Str) :
    ∃ ast, parsePattern pattern = .ok ast ∧
      ((isMatch prog text = true ↔ ast.Occurs text) ↔
        (ast.Occurs text → ast.OccursOnFirstLine text)) := by
  obtain ⟨ast, hp, hcompile⟩ := parsePattern_of_new hnew
  have hmatch : isMatch prog text = true ↔ ast.OccursOnFirstLine text :=
    isMatch_iff_accepts.trans (accepts_iff hcompile)
  refine ⟨ast, hp, ?_⟩
  rw [hmatch]
  constructor
  · exact fun hiff hoccurs => hiff.mpr hoccurs
  · exact fun hfst => ⟨Ast.OccursOnFirstLine.occurs, hfst⟩

theorem isMatch_iff_occurs_words :
    ∃ prog ast, new "a(b|c)+$" = .ok prog ∧ parsePattern "a(b|c)+$" = .ok ast ∧
      ((isMatch prog "xxabcb" = true ↔ ast.Occurs "xxabcb") ↔
        (ast.Occurs "xxabcb" → ast.OccursOnFirstLine "xxabcb")) := by
  have hnew : ∃ prog, new "a(b|c)+$" = .ok prog := by
    cases hnew : new "a(b|c)+$" with
    | ok prog => exact ⟨prog, rfl⟩
    | error message =>
      have hok : (new "a(b|c)+$").isOk = true := by decide +kernel
      rw [hnew] at hok
      cases hok
  obtain ⟨prog, hnew⟩ := hnew
  obtain ⟨ast, hp, hiff⟩ := isMatch_iff_occurs hnew "xxabcb"
  exact ⟨prog, ast, hnew, hp, hiff⟩

theorem isMatch_misses_second_line :
    ∃ prog, new "b" = .ok prog ∧ parsePattern "b" = .ok (.char 'b') ∧
      (Ast.char 'b').Occurs "a\nb" ∧ isMatch prog "a\nb" = false := by
  refine ⟨_, rfl, rfl, ⟨2, 3, by decide, ?_⟩, by decide +kernel⟩
  simp [Ast.span, Span.letter]

end EchoIrcd
