import Mathlib.Algebra.Order.Ring.Nat
import Mathlib.Data.Char
import Mathlib.Data.List.Lex

/-!
# Text as character lists

Strings are lists of characters, so that every text operation is structurally
recursive and reduces in the kernel.  The operations are those of a
space-separated line protocol: splitting at the first separator, dropping
leading blanks, ASCII case folding, byte lengths in UTF-8, and decimal
numerals of a fixed width.
-/

abbrev Str := List Char

instance : Coe String Str := ⟨String.toList⟩

/-- Under a name of its own, so that a membership test refers to it by name. -/
instance instLawfulBEqStr : LawfulBEq Str := inferInstanceAs (LawfulBEq (List Char))

namespace Str

open List

variable {fixed separator : Char} {number : Nat} {left right text word : Str}

/-! ## Cutting a text -/

def splitOnce (separator : Char) : Str → Option (Str × Str)
  | [] => none
  | first :: rest =>
    if first = separator then some ([], rest)
    else (splitOnce separator rest).map fun parts =>
      (first :: parts.1, parts.2)

theorem splitOnce_append (hword : separator ∉ word) (rest : Str) :
    splitOnce separator (word ++ separator :: rest) = some (word, rest) := by
  induction word with
  | nil => simp [splitOnce]
  | cons first word ih =>
    rw [mem_cons, not_or] at hword
    simp [splitOnce, Ne.symm hword.1, ih hword.2]

theorem splitOnce_eq_none (hword : separator ∉ word) : splitOnce separator word = none := by
  induction word with
  | nil => rfl
  | cons first word ih =>
    rw [mem_cons, not_or] at hword
    simp [splitOnce, Ne.symm hword.1, ih hword.2]

theorem splitOnce_eq_some {rest : Str} (hspl : splitOnce separator text = some (word, rest)) :
    separator ∉ word ∧ text = word ++ separator :: rest := by
  induction text generalizing word with
  | nil => simp [splitOnce] at hspl
  | cons first text ih =>
    by_cases hfst : first = separator
    · simp only [splitOnce, hfst, if_true, Option.some.injEq,
        Prod.mk.injEq] at hspl
      obtain ⟨rfl, rfl⟩ := hspl
      simp [hfst]
    · simp only [splitOnce, hfst, if_false, Option.map_eq_some_iff,
        Prod.exists, Prod.mk.injEq] at hspl
      obtain ⟨front, back, hspl, rfl, rfl⟩ := hspl
      obtain ⟨hfront, rfl⟩ := ih hspl
      simp [Ne.symm hfst, hfront]

def trimStart : Str → Str := dropWhile (· = ' ')

@[simp] theorem trimStart_blank (rest : Str) : trimStart (' ' :: rest) = trimStart rest := by
  simp [trimStart]

theorem trimStart_of_head (htext : text.head? ≠ some ' ') : trimStart text = text := by
  cases text with
  | nil => rfl
  | cons first rest =>
    have hfst : first ≠ ' ' := by simpa using htext
    simp [trimStart, hfst]

theorem trimStart_head (text : Str) : (trimStart text).head? ≠ some ' ' := by
  intro hhead
  have hbl := head?_dropWhile_not (fun char => decide (char = ' ')) text
  simp [show dropWhile _ text = trimStart text from rfl, hhead] at hbl

theorem trimStart_length_le (text : Str) : (trimStart text).length ≤ text.length :=
  (dropWhile_suffix _).length_le

/-! ## Words -/

def isWhitespace (char : Char) : Bool :=
  let code := char.toNat
  (9 ≤ code ∧ code ≤ 13) ∨ code = 0x20 ∨ code = 0x85 ∨ code = 0xA0 ∨
    code = 0x1680 ∨ (0x2000 ≤ code ∧ code ≤ 0x200A) ∨ code = 0x2028 ∨
    code = 0x2029 ∨ code = 0x202F ∨ code = 0x205F ∨ code = 0x3000

def words (text : Str) : List Str :=
  (text.splitOnP isWhitespace).filter (· ≠ [])

theorem words_of_solid (hne : word ≠ []) (hword : ∀ char ∈ word, isWhitespace char = false) :
    words word = [word] := by
  rw [words, splitOnP_eq_singleton hword]
  simp [hne]

theorem words_cons (hne : word ≠ []) (hword : ∀ char ∈ word, isWhitespace char = false)
    (rest : Str) : words (word ++ ' ' :: rest) = word :: words rest := by
  rw [words, splitOnP_append_cons word rest (by decide), splitOnP_eq_singleton hword]
  simp [hne, words]

theorem words_intercalate {tokens : List Str}
    (htoks : ∀ word ∈ tokens, word ≠ [] ∧ ∀ char ∈ word, isWhitespace char = false) :
    words (intercalate [' '] tokens) = tokens := by
  induction tokens with
  | nil => rfl
  | cons first rest ih =>
    obtain ⟨hne, hsol⟩ := htoks first mem_cons_self
    have hrest := ih fun word hword =>
      htoks word (mem_cons_of_mem _ hword)
    cases rest with
    | nil => simpa using words_of_solid hne hsol
    | cons second rest =>
      rw [intercalate_cons_cons, append_assoc, singleton_append, words_cons hne hsol, hrest]

/-! ## ASCII case -/

def toAsciiLower : Str → Str := map Char.toLower

def toAsciiUpper : Str → Str := map Char.toUpper

section Letters

variable {char : Char}

theorem isUpper_iff : char.isUpper = true ↔ 65 ≤ char.toNat ∧ char.toNat ≤ 90 := by
  delta Char.isUpper
  simp [UInt32.le_iff_toNat_le]

theorem isAlpha_iff : char.isAlpha = true ↔
    65 ≤ char.toNat ∧ char.toNat ≤ 90 ∨ 97 ≤ char.toNat ∧ char.toNat ≤ 122 := by
  delta Char.isAlpha Char.isUpper Char.isLower
  simp [UInt32.le_iff_toNat_le]

theorem isDigit_iff : char.isDigit = true ↔ 48 ≤ char.toNat ∧ char.toNat ≤ 57 := by
  simp [Char.isDigit, UInt32.le_iff_toNat_le]

theorem toNat_toLower : char.toLower.toNat =
    if 65 ≤ char.toNat ∧ char.toNat ≤ 90 then char.toNat + 32 else char.toNat := by
  unfold Char.toLower
  split
  · rename_i hrange
    have hhigh : char.val.toNat ≤ 90 := hrange.2
    rw [if_pos ⟨hrange.1, hhigh⟩]
    show (char.val + ('a'.val - 'A'.val)).toNat = char.val.toNat + 32
    rw [UInt32.toNat_add, show ('a'.val - 'A'.val).toNat = 32 by decide]
    omega
  · rename_i hrange
    exact (if_neg hrange).symm

theorem toNat_toUpper : char.toUpper.toNat =
    if 97 ≤ char.toNat ∧ char.toNat ≤ 122 then char.toNat - 32 else char.toNat := by
  unfold Char.toUpper
  split
  · rename_i hrange
    have hlow : 97 ≤ char.val.toNat := hrange.1
    have hhigh : char.val.toNat ≤ 122 := hrange.2
    rw [if_pos ⟨hlow, hhigh⟩]
    show (char.val + ('A'.val - 'a'.val)).toNat = char.val.toNat - 32
    rw [UInt32.toNat_add, show ('A'.val - 'a'.val).toNat = 2 ^ 32 - 32 by decide]
    omega
  · rename_i hrange
    exact (if_neg hrange).symm

end Letters

theorem toUpper_toUpper (char : Char) : char.toUpper.toUpper = char.toUpper := by
  rw [← Char.toNat_inj, toNat_toUpper, toNat_toUpper]
  split_ifs <;> omega

theorem toAsciiUpper_toAsciiUpper (text : Str) :
    toAsciiUpper (toAsciiUpper text) = toAsciiUpper text := by
  simp only [toAsciiUpper, map_map, Function.comp_def, toUpper_toUpper]

section

variable (hfixed : fixed.isAlpha = false)

include hfixed

theorem toLower_eq_iff {char : Char} : char.toLower = fixed ↔ char = fixed := by
  rw [← Bool.not_eq_true, isAlpha_iff] at hfixed
  rw [← Char.toNat_inj, ← Char.toNat_inj, toNat_toLower]
  split_ifs <;> omega

theorem mem_toAsciiLower : fixed ∈ toAsciiLower text ↔ fixed ∈ text := by
  simp [toAsciiLower, toLower_eq_iff hfixed]

theorem head?_toAsciiLower : (toAsciiLower text).head? = some fixed ↔ text.head? = some fixed := by
  cases text with
  | nil => rfl
  | cons first rest => simp [toAsciiLower, toLower_eq_iff hfixed]

theorem toUpper_eq_iff {char : Char} : char.toUpper = fixed ↔ char = fixed := by
  rw [← Bool.not_eq_true, isAlpha_iff] at hfixed
  rw [← Char.toNat_inj, ← Char.toNat_inj, toNat_toUpper]
  split_ifs <;> omega

theorem mem_toAsciiUpper : fixed ∈ toAsciiUpper text ↔ fixed ∈ text := by
  simp [toAsciiUpper, toUpper_eq_iff hfixed]

theorem head?_toAsciiUpper : (toAsciiUpper text).head? = some fixed ↔ text.head? = some fixed := by
  cases text with
  | nil => rfl
  | cons first rest => simp [toAsciiUpper, toUpper_eq_iff hfixed]

end

def isCaps (text : Str) : Bool :=
  text.all fun char => char.isUpper || char.isDigit

theorem isWhitespace_of_isCaps (htext : isCaps text = true) {char : Char}
    (hchar : char ∈ text) : isWhitespace char = false := by
  have hcode := all_eq_true.mp htext char hchar
  rw [Bool.or_eq_true, isUpper_iff, isDigit_iff] at hcode
  simp only [isWhitespace, decide_eq_false_iff_not]
  omega

theorem not_mem_of_isCaps (htext : isCaps text = true) {char : Char}
    (hchar : (char.isUpper || char.isDigit) = false) : char ∉ text := by
  intro hmem
  have hcaps := all_eq_true.mp htext char hmem
  rw [hchar] at hcaps
  cases hcaps

theorem isAlpha_of_isDigit {char : Char} (hchar : char.isDigit = true) : char.isAlpha = false := by
  rw [isDigit_iff] at hchar
  rw [← Bool.not_eq_true, isAlpha_iff]
  omega

theorem isDigit_toLower (char : Char) : char.toLower.isDigit = char.isDigit := by
  rw [Bool.eq_iff_iff, isDigit_iff, isDigit_iff, toNat_toLower]
  split_ifs <;> omega

def opensWithDigit (text : Str) : Bool := text.head?.any Char.isDigit

theorem opensWithDigit_toAsciiLower (text : Str) :
    opensWithDigit (toAsciiLower text) = opensWithDigit text := by
  cases text with
  | nil => rfl
  | cons first rest => simp [opensWithDigit, toAsciiLower, isDigit_toLower]

theorem opensWithDigit_of_lower (hlower : toAsciiLower left = toAsciiLower right)
    (hopens : opensWithDigit right = true) : opensWithDigit left = true := by
  rw [← opensWithDigit_toAsciiLower, hlower, opensWithDigit_toAsciiLower, hopens]

theorem toLower_inj_of_caps {left right : Char} (hleft : (left.isUpper || left.isDigit) = true)
    (hrt : (right.isUpper || right.isDigit) = true)
    (hlower : left.toLower = right.toLower) : left = right := by
  rw [Bool.or_eq_true, isUpper_iff, isDigit_iff] at hleft hrt
  rw [← Char.toNat_inj, toNat_toLower, toNat_toLower] at hlower
  rw [← Char.toNat_inj]
  split_ifs at hlower <;> omega

theorem toAsciiLower_inj_of_isCaps (hleft : isCaps left = true) (hrt : isCaps right = true)
    (hlower : toAsciiLower left = toAsciiLower right) : left = right := by
  induction left generalizing right with
  | nil =>
    cases right with
    | nil => rfl
    | cons first rest => cases hlower
  | cons first rest ih =>
    cases right with
    | nil => cases hlower
    | cons other others =>
      simp only [isCaps, all_cons, Bool.and_eq_true] at hleft hrt
      simp only [toAsciiLower, map_cons, cons.injEq] at hlower
      rw [toLower_inj_of_caps hleft.1 hrt.1 hlower.1, ih hleft.2 hrt.2 hlower.2]

/-! ## Bytes -/

def byteLength (text : Str) : Nat := (text.map Char.utf8Size).sum

@[simp] theorem byteLength_nil : byteLength [] = 0 := rfl

@[simp] theorem byteLength_cons (first : Char) (rest : Str) :
    byteLength (first :: rest) = first.utf8Size + byteLength rest := rfl

@[simp] theorem byteLength_append (front back : Str) :
    byteLength (front ++ back) = byteLength front + byteLength back := by
  simp [byteLength]

def bytePrefix (count : Nat) : Str → Option Str
  | [] => if count = 0 then some [] else none
  | first :: rest =>
    if count = 0 then some []
    else if first.utf8Size ≤ count then
      (bytePrefix (count - first.utf8Size) rest).map (first :: ·)
    else none

/-! ## Decimal numerals -/

def ofNat (number : Nat) : Str := Nat.toDigits 10 number

/-- An unsigned numeral below `bound`, with an optional plus sign. -/
def toNatBelow (bound : Nat) (text : Str) : Option Nat :=
  let digits := match text with
    | '+' :: rest => rest
    | _ => text
  if digits = [] ∨ digits.any (fun digit => !digit.isDigit) then none
  else if Nat.ofDigitChars 10 digits 0 < bound then some (Nat.ofDigitChars 10 digits 0)
  else none

theorem ofNat_isDigit {digit : Char} (hdigit : digit ∈ ofNat number) : digit.isDigit = true :=
  Nat.isDigit_of_mem_toDigits (by decide) (by decide) hdigit

theorem ofNat_ne_nil (number : Nat) : ofNat number ≠ [] := by
  simp [ofNat, Nat.toDigits_ne_nil]

theorem toNatBelow_ofNat {bound : Nat} (hnum : number < bound) :
    toNatBelow bound (ofNat number) = some number := by
  have hdig : (ofNat number).any (fun digit => !digit.isDigit) = false := by
    rw [any_eq_false]
    intro digit hdigit
    simp [ofNat_isDigit hdigit]
  have hval : Nat.ofDigitChars 10 (ofNat number) 0 = number :=
    Nat.ofDigitChars_toDigits (by decide) (by decide)
  have hsign : ∀ rest, ofNat number ≠ '+' :: rest := by
    intro rest hplus
    have hmem : '+' ∈ ofNat number := by
      rw [hplus]
      exact mem_cons_self
    exact absurd (ofNat_isDigit hmem) (by decide)
  unfold toNatBelow
  split
  · rename_i rest hplus
    exact absurd hplus (hsign rest)
  · simp [ofNat_ne_nil, hdig, hval, hnum]

theorem not_mem_of_toNatBelow {bound : Nat} {char : Char}
    (hnum : toNatBelow bound text = some number) (hplus : char ≠ '+')
    (hdigit : char.isDigit = false) : char ∉ text := by
  intro hmem
  have hdig : char ∈ (match text with | '+' :: rest => rest | _ => text) := by
    split
    · simpa [hplus] using hmem
    · exact hmem
  unfold toNatBelow at hnum
  rw [if_pos (.inr (any_eq_true.mpr ⟨char, hdig, by simp [hdigit]⟩))] at hnum
  cases hnum

end Str

/-! ## Fallible steps -/

namespace Except

variable {ε α β : Type} {result : Except ε α} {value : β}

theorem bind_eq_ok {next : α → Except ε β} :
    result.bind next = .ok value ↔ ∃ found, result = .ok found ∧ next found = .ok value := by
  cases result <;> simp [Except.bind]

theorem map_eq_ok {change : α → β} :
    result.map change = .ok value ↔ ∃ found, result = .ok found ∧ change found = value := by
  cases result <;> simp [Except.map]

end Except
