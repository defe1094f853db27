import EchoIrcd.Regex
import EchoIrcd.Lib.Flow
import Mathlib.Data.List.Forall2

/-!
# What a compiled pattern does

A syntax tree relates the positions of a text where a match can begin and end.
The code the compiler appends for a tree is a fragment of the program that
relates the same positions, wherever it is placed.
-/

namespace EchoIrcd

open Flow Relation List Ast

open Inst hiding next

variable {inst : Inst} {gens : List Gen} {start : Nat} {hit : Char → Bool} {jmps : List Nat}
  (before after : Nat)

abbrev Span := Nat → Nat → Prop

namespace Span

def seq : List Span → Span
  | [] => Eq
  | span :: spans => Comp span (seq spans)

def any : Span → List Span → Span
  | first, [] => first
  | first, next :: spans => fun before after => first before after ∨ any next spans before after

def times (count : Nat) (span : Span) : Span := seq (replicate count span)

def within (bound : RepeatBound) (span : Span) : Span := fun before after =>
  ∃ count, bound.min ≤ count ∧ (∀ most ∈ bound.max, count ≤ most) ∧
    times count span before after

def letter (text : Str) (hit : Char → Bool) : Span := fun before after =>
  (text[before]?).any hit = true ∧ after = before + 1

end Span

mutual

def Ast.span (text : Str) : Ast → Span
  | .empty => Eq
  | .char letter => .letter text (· = letter)
  | .any => .letter text (· ≠ '\n')
  | .charClass items negated => .letter text (classHit items negated)
  | .start => fun before after => before = 0 ∧ after = before
  | .finish => fun before after => before = text.length ∧ after = before
  | .concat items => .seq (spans text items)
  | .alt first rest => .any (first.span text) (spans text rest)
  | .star body => ReflTransGen (body.span text)
  | .plus body => TransGen (body.span text)
  | .quest body => ReflGen (body.span text)
  | .counted body bound => .within bound (body.span text)

def Ast.spans (text : Str) : List Ast → List Span
  | [] => []
  | item :: items => item.span text :: spans text items

end

/-! ## Steps of a program -/

def Step (prog : Prog) (text : Str) (config next : Nat × Nat) : Prop :=
  ∃ inst, prog[config.1]? = some inst ∧
    (next.2 = config.2 ∧ next.1 ∈ inst.next config.2 text.length config.1 ∨
      inst.hits text[config.2]? = true ∧ next = (config.1 + 1, config.2 + 1))

def HasCode (whole : Prog) (start : Nat) (code : Prog) : Prop :=
  ∃ front back, whole = front ++ (code ++ back) ∧ front.length = start

section Placed

variable {whole code left right : Prog} {start : Nat} {inst : Inst} {text : Str}

theorem HasCode.append (hcode : HasCode whole start (left ++ right)) :
    HasCode whole start left ∧ HasCode whole (start + left.length) right := by
  obtain ⟨front, back, rfl, rfl⟩ := hcode
  constructor
  · exact ⟨front, right ++ back, by simp, rfl⟩
  · exact ⟨front ++ left, back, by simp, by simp⟩

theorem HasCode.cons (hcode : HasCode whole start (inst :: code)) :
    whole[start]? = some inst ∧ HasCode whole (start + 1) code := by
  obtain ⟨front, back, rfl, rfl⟩ := hcode
  constructor
  · simp
  · exact ⟨front ++ [inst], back, by simp, by simp⟩

theorem step_iff (hinst : whole[start]? = some inst) {before : Nat} {next : Nat × Nat} :
    Step whole text (start, before) next ↔
      next.2 = before ∧ next.1 ∈ inst.next before text.length start ∨
        inst.hits text[before]? = true ∧ next = (start + 1, before + 1) := by
  simp [Step, hinst]

theorem branches_of_split {goal goal' : Nat} (hinst : whole[start]? = some (.split goal goal')) :
    Branches (Step whole text) start goal goal' := by
  rintro before ⟨counter, after⟩
  rw [step_iff hinst]
  simp only [Inst.next, hits.eq_def, mem_cons, not_mem_nil, or_false, Prod.mk.injEq]
  constructor
  · rintro (⟨rfl, hgoal⟩ | ⟨hhit, -⟩)
    · simpa using hgoal
    · cases hhit
  · rintro (⟨rfl, rfl⟩ | ⟨rfl, rfl⟩) <;> simp

theorem jumps_of_jmp {goal : Nat} (hinst : whole[start]? = some (.jmp goal)) :
    Jumps (Step whole text) start goal := by
  rintro before ⟨counter, after⟩
  rw [step_iff hinst]
  simp only [Inst.next, hits.eq_def, mem_singleton, Prod.mk.injEq]
  constructor
  · rintro (⟨rfl, rfl⟩ | ⟨hhit, -⟩)
    · exact ⟨rfl, rfl⟩
    · cases hhit
  · rintro ⟨rfl, rfl⟩
    exact .inl ⟨rfl, rfl⟩

/-- Code that relates these positions wherever a program has it from a counter on, and that does
not accept. -/
structure Placed (text : Str) (code : Prog) (start : Nat) (span : Span) : Prop where
  quiet : accept ∉ code
  fragment (whole : Prog) : HasCode whole start code →
    Fragment (Step whole text) start (start + code.length) span

theorem placed_inst {span : Span}
    (hspan : ∀ before after counter, span before after ↔
      inst.hits text[before]? = true ∧ after = before + 1 ∨
        counter + 1 ∈ inst.next before text.length counter ∧ after = before)
    (hnext : ∀ before counter, ∀ goal ∈ inst.next before text.length counter,
      goal = counter + 1) (hinst : inst ≠ .accept) : Placed text [inst] start span := by
  refine ⟨by simpa using hinst.symm, ?_⟩
  intro whole hcode
  have hinst := hcode.cons.1
  apply Fragment.single
  rintro before ⟨counter, after⟩
  rw [step_iff hinst]
  constructor
  · rintro (⟨rfl, hgoal⟩ | ⟨hhit, hs⟩)
    · obtain rfl := hnext _ _ _ hgoal
      exact ⟨_, (hspan _ _ _).mpr (.inr ⟨hgoal, rfl⟩), rfl⟩
    · cases hs
      exact ⟨_, (hspan _ _ start).mpr (.inl ⟨hhit, rfl⟩), rfl⟩
  · rintro ⟨after', hrel, hs⟩
    cases hs
    rcases (hspan _ _ start).mp hrel with ⟨hhit, rfl⟩ | ⟨hgoal, rfl⟩
    · exact .inr ⟨hhit, rfl⟩
    · exact .inl ⟨rfl, hgoal⟩

end Placed

/-! ## What the compiler appends -/

def Implements (text : Str) (gen : Gen) (span : Span) : Prop :=
  ∀ prog compiled, gen prog = .ok compiled →
    ∃ code, compiled = prog ++ code ∧ Placed text code prog.length span

section Implements

variable {text : Str} {gen : Gen} {span : Span}

theorem implements_nothing : Implements text (fun prog => .ok prog) Eq := by
  rintro prog compiled ⟨⟩
  exact ⟨[], by simp, by simp, fun whole _ => Fragment.skip⟩

theorem implements_push (hinst : ∀ start, Placed text [inst] start span) :
    Implements text (.push inst) span := by
  rintro prog compiled ⟨⟩
  exact ⟨[inst], rfl, hinst _⟩

theorem Implements.seq {spans : List Span} (hgens : Forall₂ (Implements text) gens spans) :
    Implements text (.seq gens) (.seq spans) := by
  induction hgens with
  | nil => exact implements_nothing
  | cons hgen _ ih =>
    rename_i gen span gens spans _
    intro prog compiled hcomp
    obtain ⟨between, hfst, hcomp⟩ := Except.bind_eq_ok.mp hcomp
    obtain ⟨code, rfl, hpl⟩ := hgen prog between hfst
    obtain ⟨rest, rfl, hrest⟩ := ih _ compiled hcomp
    refine ⟨code ++ rest, by simp, by simp [hpl.quiet, hrest.quiet], ?_⟩
    intro whole hwh
    obtain ⟨hleft, hrt⟩ := hwh.append
    rw [length_append] at hrest
    have hsec := hrest.fragment whole hrt
    rw [length_append, ← Nat.add_assoc]
    exact (hpl.fragment whole hleft).seq hsec

theorem length_behind (prog code : Prog) (inst : Inst) :
    (prog ++ inst :: code).length = prog.length + 1 + code.length := by
  rw [length_append, length_cons, Nat.add_assoc, Nat.add_comm 1]

theorem set_behind (prog code : Prog) (inst inst' : Inst) :
    (prog ++ inst :: code).set prog.length inst' = prog ++ inst' :: code := by
  simp

namespace Implements

variable (hgen : Implements text gen span)

include hgen

theorem congr {other : Span} (hs : ∀ before after, span before after ↔ other before after) :
    Implements text gen other := by
  intro prog compiled hcomp
  obtain ⟨code, hcode, hpl⟩ := hgen prog compiled hcomp
  exact ⟨code, hcode, hpl.quiet, fun whole hwh => (hpl.fragment whole hwh).congr hs⟩

theorem guarded : Implements text (.guarded gen) span := by
  intro prog compiled hcomp
  unfold Gen.guarded at hcomp
  split at hcomp
  · cases hcomp
  · cases hgen' : gen prog with
    | error message => simp [hgen'] at hcomp
    | ok compiled' =>
      simp only [hgen'] at hcomp
      split at hcomp
      · cases hcomp
      · cases hcomp
        exact hgen prog _ hgen'

theorem behind {prog compiled : Prog} (hcomp : gen (prog ++ [inst]) = .ok compiled) :
    ∃ code, compiled = prog ++ inst :: code ∧ Placed text code (prog.length + 1) span := by
  obtain ⟨code, rfl, hpl⟩ := hgen _ compiled hcomp
  simpa using hpl

theorem star : Implements text (.star gen) (ReflTransGen span) := by
  intro prog compiled hcomp
  obtain ⟨between, hbody, rfl⟩ := Except.map_eq_ok.mp hcomp
  obtain ⟨code, rfl, hpl⟩ := hgen.behind hbody
  rw [append_assoc, cons_append, set_behind]
  refine ⟨_, rfl, by simp [hpl.quiet], ?_⟩
  intro whole hwh
  obtain ⟨hspl, hrest⟩ := hwh.cons
  obtain ⟨hcode, hjmp⟩ := hrest.append
  have hbr := @branches_of_split _ _ text _ _ hspl
  have hback := @jumps_of_jmp _ _ text _ hjmp.cons.1
  rw [length_behind] at hbr
  rw [← length_append, length_behind, length_append, length_singleton, ← Nat.add_assoc]
  exact Fragment.loop hbr (hpl.fragment whole hcode) hback

theorem plus : Implements text (.plus gen) (TransGen span) := by
  intro prog compiled hcomp
  obtain ⟨between, hbody, rfl⟩ := Except.map_eq_ok.mp hcomp
  obtain ⟨code, rfl, hpl⟩ := hgen _ _ hbody
  rw [append_assoc]
  refine ⟨_, rfl, by simp [hpl.quiet], ?_⟩
  intro whole hwh
  obtain ⟨hcode, hspl⟩ := hwh.append
  have hbr := @branches_of_split _ _ text _ _ hspl.cons.1
  rw [length_append] at hbr
  rw [length_append, length_singleton, ← Nat.add_assoc]
  exact (hpl.fragment whole hcode).loopBehind hbr

theorem quest : Implements text (.quest gen) (ReflGen span) := by
  intro prog compiled hcomp
  obtain ⟨between, hbody, rfl⟩ := Except.map_eq_ok.mp hcomp
  obtain ⟨code, rfl, hpl⟩ := hgen.behind hbody
  rw [set_behind]
  refine ⟨_, rfl, by simp [hpl.quiet], ?_⟩
  intro whole hwh
  obtain ⟨hspl, hcode⟩ := hwh.cons
  have hbr := @branches_of_split _ _ text _ _ hspl
  rw [length_behind] at hbr
  rw [← length_append, length_behind]
  exact (hpl.fragment whole hcode).optional hbr

end Implements

/-! ## Alternatives -/

structure Patched (text : Str) (start : Nat) (span : Span) (code : Nat → Prog) (jmps : List Nat) :
    Prop where
  length (goal goal' : Nat) : (code goal).length = (code goal').length
  patch {front : Prog} (goal : Nat) : front.length = start →
    jmps.foldl (fun prog place => prog.set place (jmp goal)) (front ++ code 0) =
      front ++ code goal
  placed {goal : Nat} : goal = start + (code goal).length → Placed text (code goal) start span

theorem patched_last {code : Prog} (hpl : Placed text code start span) :
    Patched text start span (fun _ => code) [] where
  length _ _ := rfl
  patch _ _ := rfl
  placed _ := hpl

theorem Patched.alternative {code : Prog} {rest : Nat → Prog} {others : Span}
    (hpl : Placed text code (start + 1) span)
    (hrest : Patched text (start + 1 + code.length + 1) others rest jmps) :
    Patched text start (fun before after => span before after ∨ others before after)
      (fun goal => .split (start + 1) (start + 1 + code.length + 1) ::
        (code ++ .jmp goal :: rest goal))
      ((start + 1 + code.length) :: jmps) where
  length goal goal' := by simp [hrest.length goal goal']
  patch := by
    rintro front goal rfl
    have hset := set_behind
      (front ++ split (front.length + 1) (front.length + 1 + code.length + 1) :: code) (rest 0)
      (.jmp 0) (.jmp goal)
    rw [length_behind] at hset
    have hpatched := @Patched.patch _ _ _ _ _ hrest
      (front ++ split (front.length + 1) (front.length + 1 + code.length + 1) ::
        (code ++ [.jmp goal])) goal (by rw [length_behind, length_append]; rfl)
    simp only [append_assoc, cons_append, nil_append] at hset hpatched
    rw [foldl_cons, hset, hpatched]
  placed := by
    intro goal hgoal
    have hlen : start + (split (start + 1) (start + 1 + code.length + 1) ::
        (code ++ jmp goal :: rest goal)).length =
          start + 1 + code.length + 1 + (rest goal).length := by
      simp
      omega
    rw [hlen] at hgoal
    have hoth := hrest.placed hgoal
    refine ⟨by simp [hpl.quiet, hoth.quiet], ?_⟩
    intro whole hwh
    obtain ⟨hspl, hcode⟩ := hwh.cons
    obtain ⟨hcode, hjmp⟩ := hcode.append
    obtain ⟨hjmp, hbeh⟩ := hjmp.cons
    have hbr := @branches_of_split _ _ text _ _ hspl
    have hjump := @jumps_of_jmp _ _ text _ hjmp
    have hrt := hoth.fragment whole hbeh
    rw [← hgoal] at hrt
    rw [hlen, ← hgoal]
    exact Fragment.either hbr (hpl.fragment whole hcode) hjump hrt

section

variable {spans : List Span} (hgen : Implements text gen span)
  (hgens : Forall₂ (Implements text) gens spans)

include hgen hgens

theorem altLoop_patched {prog compiled : Prog} {jmps' : List Nat}
    (hcomp : Gen.altLoop gen gens jmps prog = .ok (compiled, jmps')) :
    ∃ code places, compiled = prog ++ code 0 ∧ jmps' = jmps ++ places ∧
      Patched text prog.length (.any span spans) code places := by
  induction hgens generalizing gen span prog jmps with
  | nil =>
    obtain ⟨between, hlast, hs⟩ := Except.map_eq_ok.mp hcomp
    cases hs
    obtain ⟨code, rfl, hpl⟩ := hgen _ _ hlast
    exact ⟨fun _ => code, [], rfl, by simp, patched_last hpl⟩
  | cons hnext _ ih =>
    obtain ⟨between, hfst, hcomp⟩ := Except.bind_eq_ok.mp hcomp
    obtain ⟨code, rfl, hpl⟩ := hgen.behind hfst
    rw [append_assoc, cons_append, set_behind] at hcomp
    obtain ⟨rest, places, rfl, rfl, hrest⟩ := ih hnext hcomp
    rw [length_behind, length_append, length_singleton, ← Nat.add_assoc] at hrest
    refine ⟨_, _, ?_, ?_, hrest.alternative hpl⟩
    · rw [length_behind]
      simp
    · rw [length_behind]
      simp

theorem Implements.alt : Implements text (.alt gen gens) (.any span spans) := by
  intro prog compiled hcomp
  obtain ⟨⟨unpatched, jmps⟩, hloop, rfl⟩ := Except.map_eq_ok.mp hcomp
  obtain ⟨code, places, rfl, rfl, hpatched⟩ := altLoop_patched hgen hgens hloop
  refine ⟨_, hpatched.patch _ rfl, hpatched.placed ?_⟩
  exact length_append.trans (congrArg _ (hpatched.length 0 _))

end

/-! ## Counted repetitions -/

theorem seq_append (left right : List Span) (before after : Nat) :
    Span.seq (left ++ right) before after ↔ Comp (Span.seq left) (Span.seq right) before after := by
  induction left generalizing before with
  | nil => simp [Span.seq, Comp]
  | cons span left ih =>
    simp only [cons_append, Span.seq, Comp, ih]
    constructor
    · rintro ⟨between, hfst, middle, hleft, hrt⟩
      exact ⟨middle, ⟨between, hfst, hleft⟩, hrt⟩
    · rintro ⟨middle, ⟨between, hfst, hleft⟩, hrt⟩
      exact ⟨between, hfst, middle, hleft, hrt⟩

theorem times_add (count count' : Nat) (before after : Nat) :
    Span.times (count + count') span before after ↔
      Comp (Span.times count span) (Span.times count' span) before after := by
  rw [Span.times, ← replicate_append_replicate, seq_append]
  rfl

theorem reflTransGen_iff_times :
    ReflTransGen span before after ↔ ∃ count, Span.times count span before after := by
  constructor
  · intro hsteps
    induction hsteps using ReflTransGen.head_induction_on with
    | refl => exact ⟨0, rfl⟩
    | head hfst _ ih =>
      obtain ⟨count, htimes⟩ := ih
      exact ⟨count + 1, _, hfst, htimes⟩
  · rintro ⟨count, htimes⟩
    induction count generalizing before with
    | zero =>
      cases htimes
      exact .refl
    | succ count ih =>
      obtain ⟨between, hfst, hrest⟩ := htimes
      exact .head hfst (ih between hrest)

theorem seq_optional_iff (most : Nat) (before after : Nat) :
    Span.seq (replicate most (ReflGen span)) before after ↔
      ∃ count, count ≤ most ∧ Span.times count span before after := by
  induction most generalizing before with
  | zero =>
    constructor
    · intro hrel
      exact ⟨0, Nat.le_refl _, hrel⟩
    · rintro ⟨count, hcnt, htimes⟩
      obtain rfl := Nat.le_zero.mp hcnt
      exact htimes
  | succ most ih =>
    constructor
    · rintro ⟨between, hfst, hrest⟩
      obtain ⟨count, hcnt, htimes⟩ := (ih between).mp hrest
      cases hfst with
      | refl => exact ⟨count, by omega, htimes⟩
      | single hfst => exact ⟨count + 1, by omega, between, hfst, htimes⟩
    · rintro ⟨count, hcnt, htimes⟩
      cases count with
      | zero =>
        cases htimes
        exact ⟨after, .refl, (ih after).mpr ⟨0, Nat.zero_le _, rfl⟩⟩
      | succ count =>
        obtain ⟨between, hfst, hrest⟩ := htimes
        exact ⟨between, .single hfst, (ih between).mpr ⟨count, by omega, hrest⟩⟩

def copies (bound : RepeatBound) (span : Span) : List Span :=
  replicate bound.min span ++
    match bound.max with
    | none => [ReflTransGen span]
    | some max => replicate (max - bound.min) (ReflGen span)

theorem seq_copies_iff (bound : RepeatBound) (before after : Nat) :
    Span.seq (copies bound span) before after ↔ Span.within bound span before after := by
  rw [copies, seq_append]
  obtain ⟨min, max, hordered⟩ := bound
  cases max with
  | none =>
    constructor
    · rintro ⟨between, hfst, last, hloop, rfl⟩
      obtain ⟨count, htimes⟩ := (reflTransGen_iff_times _ _).mp hloop
      exact ⟨min + count, Nat.le_add_right _ _, by simp,
        (times_add _ _ _ _).mpr ⟨between, hfst, htimes⟩⟩
    · rintro ⟨count, hcnt, -, htimes⟩
      obtain ⟨more, rfl⟩ := Nat.exists_eq_add_of_le hcnt
      obtain ⟨between, hfst, hrest⟩ := (times_add _ _ _ _).mp htimes
      exact ⟨between, hfst, after, (reflTransGen_iff_times _ _).mpr ⟨more, hrest⟩, rfl⟩
  | some max =>
    have hle : min ≤ max := hordered max rfl
    constructor
    · rintro ⟨between, hfst, hrest⟩
      obtain ⟨count, hcnt, htimes⟩ := (seq_optional_iff _ _ _).mp hrest
      refine ⟨min + count, Nat.le_add_right _ _, ?_,
        (times_add _ _ _ _).mpr ⟨between, hfst, htimes⟩⟩
      rintro most ⟨⟩
      simp only at hcnt
      omega
    · rintro ⟨count, hcnt, hmost, htimes⟩
      obtain ⟨more, rfl⟩ := Nat.exists_eq_add_of_le hcnt
      obtain ⟨between, hfst, hrest⟩ := (times_add _ _ _ _).mp htimes
      have hmore : more ≤ max - min := by
        have hall : min + more ≤ max := hmost max rfl
        omega
      exact ⟨between, hfst, (seq_optional_iff _ _ _).mpr ⟨more, hmore, hrest⟩⟩

theorem forall₂_replicate (hgen : Implements text gen span) (count : Nat) :
    Forall₂ (Implements text) (replicate count gen) (replicate count span) := by
  induction count with
  | zero => exact .nil
  | succ count ih => exact .cons hgen ih

theorem Implements.counted (hgen : Implements text gen span) (bound : RepeatBound) :
    Implements text (.counted gen bound) (.within bound span) := by
  have hcopies : Implements text (.counted gen bound) (.seq (copies bound span)) := by
    apply Implements.seq
    apply rel_append
    · exact forall₂_replicate hgen _
    · cases bound.max with
      | none => exact .cons hgen.star.guarded .nil
      | some max => exact forall₂_replicate hgen.quest.guarded _
  exact hcopies.congr (seq_copies_iff bound)

end Implements

/-! ## Trees -/

section Trees

variable {text : Str}

theorem placed_hits (hhits : ∀ next, inst.hits next = next.any hit)
    (hnext : ∀ pos length pc, inst.next pos length pc = []) (hinst : inst ≠ .accept) :
    Placed text [inst] start (.letter text hit) := by
  refine placed_inst ?_ ?_ hinst
  · intro before after counter
    simp [Span.letter, hhits, hnext]
  · simp [hnext]

theorem placed_start :
    Placed text [.start] start fun before after => before = 0 ∧ after = before := by
  refine placed_inst ?_ ?_ (by simp)
  · intro before after counter
    by_cases hzero : before = 0 <;> simp [Inst.next, hits.eq_def, hzero]
  · intro before counter goal hgoal
    simp only [Inst.next] at hgoal
    split at hgoal <;> simp_all

theorem placed_finish :
    Placed text [.finish] start fun before after => before = text.length ∧ after = before := by
  refine placed_inst ?_ ?_ (by simp)
  · intro before after counter
    by_cases hlast : before = text.length <;> simp [Inst.next, hits.eq_def, hlast]
  · intro before counter goal hgoal
    simp only [Inst.next] at hgoal
    split at hgoal <;> simp_all

mutual

theorem Ast.implements (ast : Ast) : Implements text ast.compile (ast.span text) := by
  unfold compile span
  cases ast <;> refine .guarded ?_
  case empty => exact implements_nothing
  case char letter =>
    refine implements_push fun _ => placed_hits ?_ (fun _ _ _ => rfl) (by simp)
    intro next
    cases next <;> simp [hits.eq_def]
  case any | charClass =>
    exact implements_push fun _ => placed_hits (fun _ => rfl) (fun _ _ _ => rfl) (by simp)
  case start => exact implements_push fun _ => placed_start
  case finish => exact implements_push fun _ => placed_finish
  case concat items => exact .seq (implementsAll items)
  case alt first rest => exact (implements first).alt (implementsAll rest)
  case star body => exact (implements body).star
  case plus body => exact (implements body).plus
  case quest body => exact (implements body).quest
  case counted body bound => exact (implements body).counted bound

theorem Ast.implementsAll : ∀ items : List Ast,
    Forall₂ (Implements text) (compileAll items) (spans text items)
  | [] => .nil
  | item :: items => .cons (implements item) (implementsAll items)

end

end Trees

/-! ## A search -/

def Accepts (prog : Prog) (text : Str) : Prop :=
  ∃ config : Nat × Nat, ReflTransGen (Step prog text) (0, 0) config ∧
    prog[config.1]? = some .accept

section Search

variable {text : Str} {ast : Ast} {prog : Prog}

theorem letter_iff {before after : Nat} :
    Span.letter text hit before after ↔
      ∃ char, text[before]? = some char ∧ hit char = true ∧ after = before + 1 := by
  unfold Span.letter
  cases text[before]? <;> simp

theorem skips_iff :
    ReflTransGen (Span.letter text (· ≠ '\n')) 0 before ↔
      before ≤ text.length ∧ '\n' ∉ text.take before := by
  constructor
  · intro hsteps
    induction hsteps with
    | refl => simp
    | tail _ hlast ih =>
      obtain ⟨char, hchar, hnot, rfl⟩ := letter_iff.mp hlast
      have hlt := (List.getElem?_eq_some_iff.mp hchar).1
      refine ⟨hlt, ?_⟩
      rw [take_add_one, hchar, mem_append, not_or]
      exact ⟨ih.2, by simpa using Ne.symm (of_decide_eq_true hnot)⟩
  · induction before with
    | zero => exact fun _ => .refl
    | succ before ih =>
      rintro ⟨hle, hnot⟩
      obtain ⟨char, hchar⟩ : ∃ char, text[before]? = some char := ⟨_, getElem?_eq_getElem hle⟩
      rw [take_add_one, hchar, mem_append, not_or] at hnot
      have hne : char ≠ '\n' := by
        rintro rfl
        exact hnot.2 (by simp)
      exact .tail (ih ⟨by omega, hnot.1⟩) (letter_iff.mpr ⟨char, hchar, by simpa using hne, rfl⟩)

theorem fragment_searchPrefix (hcode : HasCode prog 0 searchPrefix) :
    Fragment (Step prog text) 0 3 (ReflTransGen (Span.letter text (· ≠ '\n'))) := by
  obtain ⟨hspl, hany⟩ := hcode.cons
  obtain ⟨-, hjmp⟩ := hany.cons
  have hlet : Placed text [.any] 1 (Span.letter text (· ≠ '\n')) :=
    placed_hits (fun _ => rfl) (fun _ _ _ => rfl) (by simp)
  exact Fragment.loop (branches_of_split hspl)
    (hlet.fragment prog (@HasCode.append prog [.any] [.jmp 0] 1 hany).1)
    (jumps_of_jmp hjmp.cons.1)

theorem accepts_iff (hprog : compileSearch ast = .ok prog) :
    Accepts prog text ↔
      ∃ before after, before ≤ text.length ∧ '\n' ∉ text.take before ∧
        ast.span text before after := by
  obtain ⟨compiled, hcomp, rfl⟩ := Except.map_eq_ok.mp hprog
  obtain ⟨code, rfl, hpl⟩ := @implements text ast _ _ hcomp
  have hfront : HasCode (searchPrefix ++ code ++ [.accept]) 0 searchPrefix :=
    ⟨[], code ++ [.accept], by simp, rfl⟩
  have hbody : HasCode (searchPrefix ++ code ++ [.accept]) searchPrefix.length code :=
    ⟨searchPrefix, [.accept], by simp, rfl⟩
  have hall := (fragment_searchPrefix hfront).seq (hpl.fragment _ hbody)
  have hlast : (searchPrefix ++ code ++ [.accept])[searchPrefix.length + code.length]? =
      some accept := by
    simp
  constructor
  · rintro ⟨⟨counter, last⟩, hsteps, hac⟩
    obtain ⟨count, hruns⟩ := Runs.of_reflTransGen hsteps
    have hleaves : ¬ Inside 0 (searchPrefix.length + code.length) counter := by
      rintro ⟨-, hlt⟩
      rw [← length_append] at hlt
      rw [getElem?_append_left hlt] at hac
      have hmem := mem_of_getElem? hac
      simp [searchPrefix, hpl.quiet] at hmem
    obtain ⟨-, after, -, ⟨before, hskips, hspan⟩, -⟩ := hall.leaves hruns hleaves
    obtain ⟨hle, hnot⟩ := (skips_iff before).mp hskips
    exact ⟨before, after, hle, hnot, hspan⟩
  · rintro ⟨before, after, hle, hnot, hspan⟩
    exact ⟨_, hall.reaches ⟨before, (skips_iff before).mpr ⟨hle, hnot⟩, hspan⟩, hlast⟩

end Search

end EchoIrcd
