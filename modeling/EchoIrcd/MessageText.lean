import EchoIrcd.Lib.Text

/-!
# The text of a message

The text functions behind the content modes of a channel: CTCP and formatting
codes, their removal (`+S`), the censor (`+G`) and the share of capitals
(`+B`).
-/

namespace EchoIrcd

open Str List

namespace MessageText

/-- Bold, colour, hex colour, reset, monospace, reverse, italics, strike, underline. -/
def formatting : List Char :=
  ['\x02', '\x03', '\x04', '\x0f', '\x11', '\x16', '\x1d', '\x1e', '\x1f']

def isCtcp (text : Str) : Bool := text.head? = some '\x01'

def isAction (text : Str) : Bool := isPrefixOf ('\x01' :: "ACTION".toList) text

def hasFormatting (text : Str) : Bool := text.any (· ∈ formatting)

/-! ## Stripping -/

def dropUpTo (test : Char → Bool) : Nat → Str → Str
  | limit + 1, char :: rest =>
    if test char then dropUpTo test limit rest else char :: rest
  | _, text => text

def isHexDigit (char : Char) : Bool :=
  char.isDigit || ('a' ≤ char && char ≤ 'f') || ('A' ≤ char && char ≤ 'F')

/-- A colour, and behind a comma a background, once enough digits have been read. -/
def dropColour (digit : Char → Bool) (limit : Nat) (enough : Nat → Bool) (text : Str) : Str :=
  let rest := dropUpTo digit limit text
  match rest with
  | ',' :: next :: others =>
    if enough (text.length - rest.length) && digit next then
      dropUpTo digit limit (next :: others)
    else rest
  | _ => rest

def stripFuel : Nat → Str → Str
  | fuel + 1, char :: rest =>
    if char = '\x03' then stripFuel fuel (dropColour Char.isDigit 2 (0 < ·) rest)
    else if char = '\x04' then stripFuel fuel (dropColour isHexDigit 6 (· = 6) rest)
    else if char ∈ formatting then stripFuel fuel rest
    else char :: stripFuel fuel rest
  | _, _ => []

def stripFormatting (text : Str) : Str := stripFuel text.length text

theorem hasFormatting_stripFuel (fuel : Nat) (text : Str) :
    hasFormatting (stripFuel fuel text) = false := by
  induction fuel generalizing text with
  | zero => rfl
  | succ fuel ih =>
    cases text with
    | nil => rfl
    | cons char rest =>
      unfold stripFuel
      split_ifs with hcolour hhex hcode
      · apply ih
      · apply ih
      · apply ih
      · simp only [hasFormatting, any_cons, Bool.or_eq_false_iff]
        exact ⟨by simpa using hcode, ih rest⟩

/-- What `+S` lets through carries no formatting. -/
theorem hasFormatting_stripFormatting (text : Str) : hasFormatting (stripFormatting text) = false :=
  hasFormatting_stripFuel ..

example : stripFormatting ("\x0304,08fg\x03, red \x02bold" : Str) = "fg, red bold" := by decide

theorem stripFormatting_of_plain {text : Str} (hpl : hasFormatting text = false) :
    stripFormatting text = text := by
  unfold stripFormatting
  induction text with
  | nil => rfl
  | cons char rest ih =>
    simp only [hasFormatting, any_cons, Bool.or_eq_false_iff, decide_eq_false_iff_not]
      at hpl
    obtain ⟨hchar, hrest⟩ := hpl
    have hcolour : char ≠ '\x03' := by
      rintro rfl
      exact hchar (by decide)
    have hhex : char ≠ '\x04' := by
      rintro rfl
      exact hchar (by decide)
    simp only [length_cons, stripFuel, if_neg hcolour, if_neg hhex, if_neg hchar]
    rw [ih hrest]

/-- `+S` changes exactly what `+c` refuses. -/
theorem stripFormatting_spec (text : Str) : hasFormatting (stripFormatting text) = false ∧
    (stripFormatting text = text ↔ hasFormatting text = false) := by
  have hcl := hasFormatting_stripFormatting text
  refine ⟨hcl, fun hs => ?_, stripFormatting_of_plain⟩
  rwa [hs] at hcl

theorem dropUpTo_suffix (test : Char → Bool) (limit : Nat) (text : Str) :
    dropUpTo test limit text <:+ text := by
  induction text generalizing limit with
  | nil => cases limit <;> exact suffix_rfl
  | cons char rest ih =>
    cases limit with
    | zero => exact suffix_rfl
    | succ limit =>
      unfold dropUpTo
      split
      · exact (ih limit).trans (suffix_cons char rest)
      · exact suffix_rfl

theorem dropColour_suffix (digit : Char → Bool) (limit : Nat) (enough : Nat → Bool) (text : Str) :
    dropColour digit limit enough text <:+ text := by
  have hrest := dropUpTo_suffix digit limit text
  unfold dropColour
  simp only
  split
  · rename_i next others hcomma
    split
    · refine (dropUpTo_suffix digit limit _).trans ((suffix_cons ',' _).trans ?_)
      rwa [hcomma] at hrest
    · exact hrest
  · exact hrest

theorem stripFuel_sublist (fuel : Nat) (text : Str) : (stripFuel fuel text).Sublist text := by
  induction fuel generalizing text with
  | zero => exact nil_sublist text
  | succ fuel ih =>
    cases text with
    | nil => exact nil_sublist []
    | cons char rest =>
      unfold stripFuel
      split_ifs
      · exact ((ih _).trans (dropColour_suffix ..).sublist).cons char
      · exact ((ih _).trans (dropColour_suffix ..).sublist).cons char
      · exact (ih rest).cons char
      · exact (ih rest).cons_cons char

/-! ## Censor -/

structure CensorRule where
  find : Str
  replace : Str
  deriving DecidableEq, Repr

def startsWithCi (find text : Str) : Bool :=
  isPrefixOf (toAsciiLower find) (toAsciiLower text)

def ciContains (hay find : Str) : Bool :=
  find ≠ [] && hay.tails.any (startsWithCi find)

def ciReplaceFuel (find replace : Str) : Nat → Str → Str
  | fuel + 1, char :: rest =>
    if startsWithCi find (char :: rest) then
      replace ++ ciReplaceFuel find replace fuel ((char :: rest).drop find.length)
    else char :: ciReplaceFuel find replace fuel rest
  | _, _ => []

def ciReplace (hay find replace : Str) : Str :=
  if find = [] then hay else ciReplaceFuel find replace hay.length hay

def applyCensor (rules : List CensorRule) (body : Str) : Option Str :=
  rules.foldlM (fun out rule =>
    if rule.find = [] || !ciContains out rule.find then some out
    else if rule.replace = [] then none
    else some (ciReplace out rule.find rule.replace)) body

theorem applyCensor_cons (rule : CensorRule) (rules : List CensorRule) (body : Str) :
    applyCensor (rule :: rules) body =
      if ciContains body rule.find then
        if rule.replace = [] then none
        else applyCensor rules (ciReplace body rule.find rule.replace)
      else applyCensor rules body := by
  rw [applyCensor, foldlM_cons]
  cases hhit : ciContains body rule.find with
  | false =>
    rw [Bool.not_false, Bool.or_true, if_pos rfl]
    rfl
  | true =>
    have hfind : rule.find ≠ [] := by simpa using (Bool.and_eq_true_iff.mp hhit).1
    rw [if_neg (by simpa using hfind)]
    split <;> rfl

theorem applyCensor_of_plain {rules : List CensorRule} {body : Str}
    (hpl : ∀ rule ∈ rules, ciContains body rule.find = false) :
    applyCensor rules body = some body := by
  induction rules with
  | nil => rfl
  | cons rule rules ih =>
    rw [forall_mem_cons] at hpl
    rw [applyCensor_cons, hpl.1]
    exact ih hpl.2

theorem length_ciReplaceFuel {hay find replace : Str} (fuel : Nat) (hfuel : hay.length ≤ fuel)
    (hfind : find ≠ []) (hhit : hay.tails.any (startsWithCi find) = true) :
    replace.length ≤ (ciReplaceFuel find replace fuel hay).length := by
  induction fuel generalizing hay with
  | zero => simp_all [startsWithCi, toAsciiLower]
  | succ fuel ih =>
    cases hay with
    | nil => simp_all [startsWithCi, toAsciiLower]
    | cons char rest =>
      unfold ciReplaceFuel
      split
      · simp
      · rename_i hhead
        rw [tails, any_cons, Bool.or_eq_true] at hhit
        have hrest := ih (Nat.le_of_succ_le_succ hfuel) (hhit.resolve_left hhead)
        exact Nat.le_succ_of_le hrest

/-- Words that are all replaced by the same text leave it behind, or none of them was there. -/
theorem applyCensor_long {replace : Str} (hreplace : replace ≠ []) (words : List Str) (body : Str) :
    ∃ out, applyCensor (words.map (⟨·, replace⟩)) body = some out ∧
      (out = body ∧ (∀ word ∈ words, ciContains body word = false) ∨
        replace.length ≤ out.length) := by
  induction words generalizing body with
  | nil => exact ⟨body, rfl, .inl ⟨rfl, by simp⟩⟩
  | cons word words ih =>
    rw [map_cons, applyCensor_cons]
    cases hword : ciContains body word with
    | false => simpa [hword] using ih body
    | true =>
      obtain ⟨hfind, hhit⟩ := Bool.and_eq_true_iff.mp hword
      have hne : word ≠ [] := by simpa using hfind
      have hlong : replace.length ≤ (ciReplace body word replace).length := by
        rw [ciReplace, if_neg hne]
        exact length_ciReplaceFuel _ (Nat.le_refl _) hne hhit
      obtain ⟨out, hout, hcases⟩ := ih (ciReplace body word replace)
      refine ⟨out, by simpa [hreplace] using hout, .inr ?_⟩
      rcases hcases with ⟨rfl, -⟩ | hle
      · exact hlong
      · exact hle

/-! ## Capitals -/

def capsPercent (text : Str) : Option Nat :=
  let letters := (text.filter Char.isAlpha).length
  if letters < 8 then none else some ((text.filter Char.isUpper).length * 100 / letters)

end MessageText

end EchoIrcd
