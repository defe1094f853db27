import EchoIrcd.Regex

/-!
# The loops of the pattern parser

Every parser gives back less than it was given, so a loop that may go round once
for each character is the loop of the source: it never stops early.  A pattern that
is accepted therefore passes every place the parser comes to, counted repeats among them.
-/

namespace EchoIrcd

open Str List

variable {fuel fuel' : Nat} {rest rest' : Str}

/-- What a parser leaves is shorter than what it was given. -/
structure Shortens {α : Type} (parser : Str → Except Str (α × Str)) : Prop where
  lt {rest rest' : Str} {found : α} (hne : rest ≠ []) (hp : parser rest = .ok (found, rest')) :
    rest'.length < rest.length

/-- What a parser leaves is not longer than what it was given. -/
structure Keeps {α : Type} (parser : Str → Except Str (α × Str)) : Prop where
  le {rest rest' : Str} {found : α} (hp : parser rest = .ok (found, rest')) :
    rest'.length ≤ rest.length

/-! ## Classes -/

theorem classMaybeRange_keeps (low : Char) : Keeps (classMaybeRange low) := by
  constructor
  intro rest rest' found hp
  unfold classMaybeRange at hp
  split at hp
  · split at hp
    · cases hp
      exact Nat.le_refl _
    · split at hp
      · split at hp
        · cases hp
        · split at hp <;> cases hp
          simp only [length_cons]
          omega
      · split at hp <;> cases hp
        simp only [length_cons]
        omega
  · cases hp
    exact Nat.le_refl _

theorem lt_of_classMember {item : ClassItem}
    (hp : classMember rest = .ok (item, rest')) : rest'.length < rest.length := by
  unfold classMember at hp
  split at hp
  · cases hp
  · cases hp
  · split at hp
    · cases hp
      simp only [length_cons]
      omega
    · have hle := (classMaybeRange_keeps _).le hp
      simp only [length_cons]
      omega
  · have hle := (classMaybeRange_keeps _).le hp
    exact Nat.lt_succ_of_le hle

theorem parseClassLoop_keeps (negated : Bool) (fuel : Nat) (items : List ClassItem) :
    Keeps (parseClassLoop negated fuel items) := by
  constructor
  intro rest rest' found hp
  induction fuel generalizing items rest with
  | zero => cases hp
  | succ fuel ih =>
    rw [parseClassLoop] at hp
    split at hp
    · cases hp
      simp
    · split at hp
      · cases hp
      · rename_i hmb
        exact Nat.le_trans (ih _ hp) (Nat.le_of_lt (lt_of_classMember hmb))

theorem parseClassLoop_fuel {negated : Bool} {items : List ClassItem} (hfuel : rest.length < fuel)
    (hfuel' : rest.length < fuel') :
    parseClassLoop negated fuel items rest = parseClassLoop negated fuel' items rest := by
  induction fuel generalizing fuel' items rest with
  | zero => omega
  | succ fuel ih =>
    obtain ⟨fuel', rfl⟩ : ∃ less, fuel' = less + 1 := ⟨fuel' - 1, by omega⟩
    rw [parseClassLoop, parseClassLoop]
    split
    · rfl
    · cases hmb : classMember rest with
      | error message => rfl
      | ok found =>
        have hlt := lt_of_classMember hmb
        exact ih (by omega) (by omega)

theorem parseClassLoop_loop (negated : Bool) (items : List ClassItem) (rest : Str) :
    parseClassLoop negated (rest.length + 1) items rest =
      if rest.head? = some ']' ∧ items ≠ [] then .ok (.charClass items negated, rest.drop 1)
      else
        match classMember rest with
        | .error message => .error message
        | .ok (item, rest) => parseClassLoop negated (rest.length + 1) (items ++ [item]) rest := by
  rw [parseClassLoop]
  split
  · rfl
  · cases hmb : classMember rest with
    | error message => rfl
    | ok found =>
      have hlt := lt_of_classMember hmb
      exact parseClassLoop_fuel (by omega) (by omega)

theorem parseClass_keeps : Keeps parseClass := by
  constructor
  intro rest rest' found hp
  unfold parseClass at hp
  split at hp
  · have hle := (parseClassLoop_keeps _ _ _).le hp
    exact Nat.le_succ_of_le hle
  · exact (parseClassLoop_keeps _ _ _).le hp

/-! ## Atoms -/

theorem length_skipFlags_le (rest : Str) : (skipFlags rest).length ≤ rest.length := by
  unfold skipFlags
  split
  · rename_i rest
    have hle := (dropWhile_suffix fun char => char ≠ ':' && char ≠ ')' :
      _ <:+ rest).length_le
    simp only [length_drop, length_cons]
    omega
  · exact Nat.le_refl _

theorem parseEscape_keeps : Keeps parseEscape := by
  constructor
  intro rest rest' found hp
  unfold parseEscape at hp
  split at hp
  · cases hp
  · split at hp <;> cases hp <;> simp

theorem parseAtom_shortens {inner : AstParser} (hinn : Keeps inner) :
    Shortens (parseAtom inner) := by
  constructor
  intro rest rest' found hne hp
  cases rest with
  | nil => exact absurd rfl hne
  | cons char rest =>
    rw [length_cons, Nat.lt_succ_iff]
    unfold parseAtom at hp
    split at hp
    case h_1 heq => cases heq
    case h_2 heq =>
      cases heq
      split at hp <;> cases hp
      rename_i hgroup
      have hle := hinn.le hgroup
      have hskip := length_skipFlags_le rest
      simp only [length_cons] at hle
      omega
    case h_3 heq =>
      cases heq
      exact parseClass_keeps.le hp
    case h_7 heq =>
      cases heq
      exact parseEscape_keeps.le hp
    case h_8 heq =>
      cases heq
      split at hp <;> cases hp
      exact Nat.le_refl _
    all_goals
      rename_i heq
      cases heq
      cases hp
      exact Nat.le_refl _

/-! ## Repetitions -/

theorem length_eatLazy_le (rest : Str) : (eatLazy rest).length ≤ rest.length := by
  unfold eatLazy
  split <;> simp

theorem length_parseInt_le (rest : Str) : (parseInt rest).2.length ≤ rest.length :=
  (dropWhile_suffix Char.isDigit).length_le

theorem length_boundOf_le {min : Nat} {max : Option Nat}
    (hbd : boundOf rest = some (min, max, rest')) : rest'.length ≤ rest.length := by
  have hmin := length_parseInt_le rest
  unfold boundOf at hbd
  generalize parseInt rest = first at hmin hbd
  obtain ⟨first, behind⟩ := first
  simp only at hmin hbd
  split at hbd
  · simp only [Option.map_eq_some_iff, Prod.mk.injEq] at hbd
    obtain ⟨_, -, -, -, rfl⟩ := hbd
    simp only [length_cons] at hmin
    omega
  · rename_i behind
    have hmax := length_parseInt_le behind
    generalize parseInt behind = second at hmax hbd
    obtain ⟨second, last⟩ := second
    simp only [length_cons] at hmin hmax hbd
    split at hbd
    · cases hbd
      simp only [length_cons] at hmax
      omega
    · cases hbd
  · cases hbd

theorem length_tryBound_le {bound : RepeatBound}
    (hbd : tryBound rest = .ok (some (bound, rest'))) : rest'.length ≤ rest.length := by
  unfold tryBound at hbd
  split at hbd
  · cases hbd
  · rename_i hf
    split at hbd
    · cases hbd
    · split at hbd <;> cases hbd
      exact length_boundOf_le hf

theorem parseRepeat_shortens {atom : AstParser} (hatom : Shortens atom) :
    Shortens (parseRepeat atom) := by
  constructor
  intro rest rest' found hne hp
  unfold parseRepeat at hp
  cases hf : atom rest with
  | error message => simp [hf] at hp
  | ok atomFound =>
    have hlt := hatom.lt hne hf
    rw [hf] at hp
    split at hp
    case h_1 heq => cases heq
    case h_5 heq =>
      cases heq
      split at hp
      · cases hp
      · cases hp
        exact hlt
      · rename_i hbd
        cases hp
        have hle := length_tryBound_le hbd
        simp only [length_cons] at hlt
        exact Nat.lt_of_le_of_lt (length_eatLazy_le _) (by omega)
    case h_6 heq =>
      cases heq
      cases hp
      exact hlt
    all_goals
      rename_i heq
      cases heq
      cases hp
      simp only [length_cons] at hlt
      exact Nat.lt_of_le_of_lt (length_eatLazy_le _) (by omega)

/-! ## Sequences and alternatives -/

section Sequences

variable {atom : AstParser}

theorem parseConcat_nil (fuel : Nat) (items : List Ast) :
    parseConcat atom fuel items [] = .ok (.ofItems items, []) := by
  cases fuel <;> simp [parseConcat]

theorem parseAlts_bar (first : Ast) (fuel : Nat) (alts : List Ast) (rest : Str) :
    parseAlts atom first (fuel + 1) alts ('|' :: rest) =
      match parseConcat atom rest.length [] rest with
      | .error message => .error message
      | .ok (ast, rest) => parseAlts atom first fuel (alts ++ [ast]) rest := rfl

theorem parseAlts_of_ne (hne : rest.head? ≠ some '|') (first : Ast) (fuel : Nat)
    (alts : List Ast) : parseAlts atom first fuel alts rest = .ok (.ofAlts first alts, rest) := by
  unfold parseAlts
  split
  · exact absurd rfl hne
  · rfl

section

variable (hatom : Shortens atom)

include hatom

theorem parseConcat_keeps (fuel : Nat) (items : List Ast) :
    Keeps (parseConcat atom fuel items) := by
  constructor
  intro rest rest' found hp
  induction fuel generalizing items rest with
  | zero =>
    cases hp
    exact Nat.le_refl _
  | succ fuel ih =>
    rw [parseConcat] at hp
    split at hp
    · cases hp
      exact Nat.le_refl _
    · rename_i hgoes
      split at hp
      · cases hp
      · rename_i hrepeat
        have hlt := (parseRepeat_shortens hatom).lt (fun hnil => hgoes (.inl hnil)) hrepeat
        exact Nat.le_trans (ih _ hp) (Nat.le_of_lt hlt)

theorem parseConcat_fuel {items : List Ast} (hfuel : rest.length ≤ fuel)
    (hfuel' : rest.length ≤ fuel') :
    parseConcat atom fuel items rest = parseConcat atom fuel' items rest := by
  induction fuel generalizing fuel' items rest with
  | zero =>
    obtain rfl : rest = [] := length_eq_zero_iff.mp (by omega)
    rw [parseConcat_nil, parseConcat_nil]
  | succ fuel ih =>
    cases fuel' with
    | zero =>
      obtain rfl : rest = [] := length_eq_zero_iff.mp (by omega)
      rw [parseConcat_nil, parseConcat_nil]
    | succ fuel' =>
      rw [parseConcat, parseConcat]
      split
      · rfl
      · rename_i hgoes
        cases hrepeat : parseRepeat atom rest with
        | error message => rfl
        | ok found =>
          have hlt := (parseRepeat_shortens hatom).lt (fun hnil => hgoes (.inl hnil)) hrepeat
          exact ih (by omega) (by omega)

theorem parseConcat_loop (items : List Ast) (rest : Str) :
    parseConcat atom rest.length items rest =
      if rest = [] ∨ rest.head? = some '|' ∨ rest.head? = some ')' then .ok (.ofItems items, rest)
      else
        match parseRepeat atom rest with
        | .error message => .error message
        | .ok (item, rest) => parseConcat atom rest.length (items ++ [item]) rest := by
  rw [parseConcat_fuel hatom (Nat.le_refl _) (Nat.le_succ _), parseConcat]
  split
  · rfl
  · rename_i hgoes
    cases hrepeat : parseRepeat atom rest with
    | error message => rfl
    | ok found =>
      have hlt := (parseRepeat_shortens hatom).lt (fun hnil => hgoes (.inl hnil)) hrepeat
      exact parseConcat_fuel hatom (by omega) (Nat.le_refl _)

theorem parseAlts_keeps (first : Ast) (fuel : Nat) (alts : List Ast) :
    Keeps (parseAlts atom first fuel alts) := by
  constructor
  intro rest rest' found hp
  induction fuel generalizing alts rest with
  | zero =>
    cases hp
    exact Nat.le_refl _
  | succ fuel ih =>
    unfold parseAlts at hp
    split at hp
    · rename_i heq
      cases heq
      split at hp
      · cases hp
      · rename_i hcat
        have hle := (parseConcat_keeps hatom _ _).le hcat
        have hrest := ih _ hp
        simp only [length_cons]
        omega
    · cases hp
      exact Nat.le_refl _

theorem parseAlts_fuel {first : Ast} {alts : List Ast} (hfuel : rest.length ≤ fuel)
    (hfuel' : rest.length ≤ fuel') :
    parseAlts atom first fuel alts rest = parseAlts atom first fuel' alts rest := by
  induction fuel generalizing fuel' alts rest with
  | zero =>
    obtain rfl : rest = [] := length_eq_zero_iff.mp (by omega)
    rw [parseAlts_of_ne (by simp), parseAlts_of_ne (by simp)]
  | succ fuel ih =>
    by_cases hbar : rest.head? = some '|'
    · obtain ⟨behind, rfl⟩ := head?_eq_some_iff.mp hbar
      rw [length_cons] at hfuel hfuel'
      obtain ⟨fuel', rfl⟩ : ∃ less, fuel' = less + 1 := ⟨fuel' - 1, by omega⟩
      rw [parseAlts_bar, parseAlts_bar]
      cases hcat : parseConcat atom behind.length [] behind with
      | error message => rfl
      | ok found =>
        have hle := (parseConcat_keeps hatom _ _).le hcat
        exact ih (by omega) (by omega)
    · rw [parseAlts_of_ne hbar, parseAlts_of_ne hbar]

theorem parseAlts_loop (first : Ast) (alts : List Ast) (rest : Str) :
    parseAlts atom first (rest.length + 1) alts ('|' :: rest) =
      match parseConcat atom rest.length [] rest with
      | .error message => .error message
      | .ok (ast, rest) => parseAlts atom first rest.length (alts ++ [ast]) rest := by
  rw [parseAlts_bar]
  cases hcat : parseConcat atom rest.length [] rest with
  | error message => rfl
  | ok found =>
    exact parseAlts_fuel hatom ((parseConcat_keeps hatom _ _).le hcat) (Nat.le_refl _)

theorem parseAlt_keeps : Keeps (parseAlt atom) := by
  constructor
  intro rest rest' found hp
  unfold parseAlt at hp
  split at hp
  · cases hp
  · rename_i hcat
    exact Nat.le_trans ((parseAlts_keeps hatom _ _ _).le hp)
      ((parseConcat_keeps hatom _ _).le hcat)

end

end Sequences

theorem atomAt_shortens (room : Nat) : Shortens (atomAt room) := by
  induction room with
  | zero =>
    constructor
    intro _ _ _ _ hp
    cases hp
  | succ room ih => exact parseAtom_shortens (parseAlt_keeps ih)

/-! ## Counted repeats -/

/-- A counted repeat between its braces, with the digits of its numbers. -/
inductive Braces where
  | exactly (count : Str)
  | atLeast (low : Str)
  | between (low high : Str)

namespace Braces

def numbers : Braces → List Str
  | exactly number | atLeast number => [number]
  | between low high => [low, high]

def text : Braces → Str
  | exactly count => count
  | atLeast low => low ++ [',']
  | between low high => low ++ ',' :: high

def bounds : Braces → Nat × Option Nat
  | exactly count => (Nat.ofDigitChars 10 count 0, some (Nat.ofDigitChars 10 count 0))
  | atLeast low => (Nat.ofDigitChars 10 low 0, none)
  | between low high => (Nat.ofDigitChars 10 low 0, some (Nat.ofDigitChars 10 high 0))

def Decimal (braces : Braces) : Prop :=
  ∀ digits ∈ braces.numbers, digits ≠ [] ∧ ∀ digit ∈ digits, digit.isDigit = true

def Small (braces : Braces) : Prop :=
  ∀ digits ∈ braces.numbers, Nat.ofDigitChars 10 digits 0 < 2 ^ 32

end Braces

theorem parseInt_digits {digits : Str} (hne : digits ≠ [])
    (hdig : ∀ digit ∈ digits, digit.isDigit = true) (char : Char) (hchar : char.isDigit = false) :
    parseInt (digits ++ char :: rest) =
      (if Nat.ofDigitChars 10 digits 0 < 2 ^ 32 then some (Nat.ofDigitChars 10 digits 0) else none,
        char :: rest) := by
  have hfront : (digits ++ char :: rest).takeWhile Char.isDigit = digits := by
    rw [takeWhile_append_of_pos hdig, takeWhile_cons_of_neg (by simp [hchar]), append_nil]
  have hback : (digits ++ char :: rest).dropWhile Char.isDigit = char :: rest := by
    rw [dropWhile_append_of_pos hdig, dropWhile_cons_of_neg (by simp [hchar])]
  have hpl : digits.any (fun digit => !digit.isDigit) = false := by simpa using hdig
  simp only [parseInt, hfront, hback, if_neg hne, toNatBelow]
  split
  · exact absurd (hdig '+' (by simp)) (by decide)
  · simp [hne, hpl]

theorem boundOf_braces {braces : Braces} (hdecimal : braces.Decimal) (tail : Str) :
    (boundOf (braces.text ++ '\x7d' :: tail)).map (fun found => (found.1, found.2.1)) =
      some braces.bounds ↔ braces.Small := by
  have hnone : parseInt ('\x7d' :: tail) = (none, '\x7d' :: tail) := rfl
  cases braces with
  | exactly count =>
    obtain ⟨hne, hdig⟩ := hdecimal count (by simp [Braces.numbers])
    simp only [boundOf, Braces.text, parseInt_digits hne hdig '\x7d' rfl]
    split_ifs <;> simp_all [Braces.bounds, Braces.Small, Braces.numbers]
  | atLeast low =>
    obtain ⟨hne, hdig⟩ := hdecimal low (by simp [Braces.numbers])
    simp only [boundOf, Braces.text, append_assoc, cons_append, nil_append,
      parseInt_digits hne hdig ',' rfl, hnone]
    split_ifs <;> simp_all [Braces.bounds, Braces.Small, Braces.numbers]
    omega
  | between low high =>
    obtain ⟨hlow, hlows⟩ := hdecimal low (by simp [Braces.numbers])
    obtain ⟨hhigh, hhighs⟩ := hdecimal high (by simp [Braces.numbers])
    simp only [boundOf, Braces.text, append_assoc, cons_append,
      parseInt_digits hlow hlows ',' rfl, parseInt_digits hhigh hhighs '\x7d' rfl]
    split_ifs <;> simp_all [Braces.bounds, Braces.Small, Braces.numbers]
    omega

/-- A place where `parse_concat` goes on to another item. -/
def AtItem (rest : Str) : Prop := ¬ (rest = [] ∨ rest.head? = some '|' ∨ rest.head? = some ')')

/-- The places the parser comes to in a pattern, with the room left for groups. -/
inductive Meets (pattern : Str) : Nat → Str → Prop
  | start : Meets pattern maxDepth pattern
  | next {room : Nat} {rest : Str} {found : Ast × Str} (hmeets : Meets pattern room rest)
      (hitem : AtItem rest) (hf : parseRepeat (atomAt room) rest = .ok found) :
      Meets pattern room found.2
  | bar {room : Nat} {rest : Str} (hmeets : Meets pattern room ('|' :: rest)) :
      Meets pattern room rest
  | group {room : Nat} {rest : Str} (hmeets : Meets pattern (room + 1) ('(' :: rest)) :
      Meets pattern room (skipFlags rest)

/-- The parser goes on from a place to the end of its group without an error. -/
def Passes (room : Nat) (rest : Str) : Prop :=
  ∃ items ast behind, parseConcat (atomAt room) rest.length items rest = .ok (ast, behind) ∧
    ∃ first alts found, parseAlts (atomAt room) first behind.length alts behind = .ok found

section

variable {room : Nat}

theorem passes_of_parseAlt {found : Ast × Str} (hp : parseAlt (atomAt room) rest = .ok found) :
    Passes room rest := by
  unfold parseAlt at hp
  split at hp
  · cases hp
  · rename_i hcat
    exact ⟨_, _, _, hcat, _, _, _, hp⟩

theorem Passes.item (hpasses : Passes room rest) (hitem : AtItem rest) :
    ∃ found, parseRepeat (atomAt room) rest = .ok found ∧ Passes room found.2 := by
  obtain ⟨items, ast, behind, hcat, halts⟩ := hpasses
  rw [parseConcat_loop (atomAt_shortens room), if_neg hitem] at hcat
  split at hcat
  · cases hcat
  · rename_i found
    exact ⟨_, found, _, _, _, hcat, halts⟩

theorem Meets.passes {pattern : Str} {whole : Ast} (hmeets : Meets pattern room rest)
    (hpat : parsePattern pattern = .ok whole) : Passes room rest := by
  induction hmeets with
  | start =>
    unfold parsePattern at hpat
    split at hpat
    · cases hpat
    · rename_i hp
      exact passes_of_parseAlt hp
    · cases hpat
  | next _ hitem hf ih =>
    obtain ⟨_, hagain, hpasses⟩ := ih.item hitem
    cases hf.symm.trans hagain
    exact hpasses
  | bar _ ih =>
    obtain ⟨items, _, _, hcat, first, alts, found, halts⟩ := ih
    rw [parseConcat_loop (atomAt_shortens _), if_pos (by simp)] at hcat
    cases hcat
    rw [length_cons, parseAlts_loop (atomAt_shortens _)] at halts
    split at halts
    · cases halts
    · rename_i hcat
      exact ⟨_, _, _, hcat, _, _, _, halts⟩
  | @group room rest _ ih =>
    obtain ⟨_, hf, -⟩ := ih.item (by simp [AtItem])
    cases hinn : parseAlt (atomAt room) (skipFlags rest) with
    | error message => simp [parseRepeat, atomAt, parseAtom, hinn] at hf
    | ok found => exact passes_of_parseAlt hinn

/-- In a pattern that is accepted a counted repeat has the bounds that are written exactly if
every number fits 32 bits. -/
theorem counted_iff {pattern tail : Str} {whole ast : Ast} {braces : Braces}
    (hpat : parsePattern pattern = .ok whole) (hmeets : Meets pattern room rest)
    (hitem : AtItem rest) (hdecimal : braces.Decimal)
    (hatom : atomAt room rest = .ok (ast, '\x7b' :: (braces.text ++ '\x7d' :: tail))) :
    (∃ bound behind, (bound.min, bound.max) = braces.bounds ∧
        parseRepeat (atomAt room) rest = .ok (.counted ast bound, behind)) ↔ braces.Small := by
  obtain ⟨found, hf, -⟩ := (hmeets.passes hpat).item hitem
  rw [← boundOf_braces hdecimal tail]
  simp only [parseRepeat, hatom, tryBound] at hf ⊢
  cases hbd : boundOf (braces.text ++ '\x7d' :: tail) with
  | none =>
    have hpl (bound : RepeatBound) : ast ≠ .counted ast bound := by
      intro hcycle
      have hsize := congrArg sizeOf hcycle
      simp at hsize
      omega
    simp [hpl]
  | some bound =>
    rw [hbd] at hf
    dsimp only at hf ⊢
    split_ifs at hf ⊢
    simp

theorem counted_iff_three :
    (∃ bound behind, (bound.min, bound.max) = (Braces.exactly "3").bounds ∧
      parseRepeat (atomAt maxDepth) "a\x7b3\x7d" = .ok (.counted (.char 'a') bound, behind)) ↔
    (Braces.exactly "3").Small :=
  counted_iff (show parsePattern "a\x7b3\x7d" = .ok (.counted (.char 'a') ⟨3, some 3, by simp⟩)
    from rfl) .start (by simp [AtItem]) (by simp [Braces.Decimal, Braces.numbers])
    (show _ = Except.ok (Ast.char 'a', '\x7b' :: ("3".toList ++ ['\x7d'])) from rfl)

/-- A count that does not fit 32 bits is literal text. -/
theorem isMatch_literal_count : (Regex.new "a\x7b4294967296\x7d").map
    (Regex.isMatch · "a\x7b4294967296\x7d") = .ok true := by
  decide +kernel

end

end EchoIrcd
