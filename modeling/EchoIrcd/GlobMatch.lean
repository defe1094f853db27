import EchoIrcd.ChannelOps
import EchoIrcd.Lib.Utf8
import EchoIrcd.Lib.Wildcard

/-!
# What a glob matches

The loop of `glob_bytes` and `glob_chars` has one place to go back to: the last
star it passed, with the text that star has not taken yet.  It tests a pattern
character against the text before it asks whether that character is a star.  A
star that meets a star of the subject is therefore used up on it, and the loop
accepts the narrow matches of the pattern.
-/

namespace EchoIrcd

open Str Wildcard List

variable {after mark : Str} (fuel : Nat)

namespace Glob

def Covers (eq : Char → Char → Bool) (token char : Char) : Prop :=
  token = '?' ∨ eq token char = true

instance (eq : Char → Char → Bool) (token char : Char) : Decidable (Covers eq token char) :=
  inferInstanceAs (Decidable (_ ∨ _))

variable {eq : Char → Char → Bool} {pattern text rest : Str} {token char : Char}
  {star : Option (Str × Str)}

/-! ## The place to go back to -/

/-- Since the last star the pattern has been followed character by character. -/
def Aligned (eq : Char → Char → Bool) (pattern text : Str) : Option (Str × Str) → Prop
  | none => True
  | some (after, mark) => ∃ literal covered, Forall₂ (Covers eq) literal covered ∧
      after = literal ++ pattern ∧ mark = covered ++ text

def Pending (eq : Char → Char → Bool) (pattern text : Str) : Option (Str × Str) → Prop
  | none => Narrow '*' (Covers eq) pattern text
  | some (after, mark) => Floats '*' (Covers eq) after mark

theorem aligned_start : Aligned eq pattern text (some (pattern, text)) :=
  ⟨[], [], .nil, rfl, rfl⟩

theorem Aligned.one (hal : Aligned eq (token :: pattern) (char :: text) star)
    (hcvr : Covers eq token char) : Aligned eq pattern text star := by
  cases star with
  | none => trivial
  | some place =>
    obtain ⟨literal, covered, hlit, haft, hmark⟩ := hal
    refine ⟨literal ++ [token], covered ++ [char], ?_, by simp [haft], by simp [hmark]⟩
    exact rel_append hlit (.cons hcvr .nil)

theorem pending_one (hcvr : Covers eq token char) :
    Pending eq (token :: pattern) (char :: text) star ↔ Pending eq pattern text star := by
  cases star with
  | none => exact narrow_cons_of_one hcvr
  | some place => rfl

theorem pending_end (hal : Aligned eq pattern [] star) :
    Pending eq pattern [] star ↔ ∀ token ∈ pattern, token = '*' := by
  have hemp : Narrow '*' (Covers eq) pattern [] ↔ ∀ token ∈ pattern, token = '*' := narrow_empty
  rw [← hemp]
  cases star with
  | none => rfl
  | some place =>
    obtain ⟨literal, covered, hlit, haft, hmark⟩ := hal
    simp only [Pending, haft, hmark]
    constructor
    · intro hfloats
      obtain ⟨rest, hrest, hnar⟩ := hfloats.rest_of_append hlit
      rwa [suffix_nil.mp hrest] at hnar
    · intro hnar
      exact ⟨_, suffix_rfl, (narrow_append hlit).mpr hnar⟩

theorem pending_star (hal : Aligned eq ('*' :: pattern) (char :: text) star)
    (hcvr : ¬Covers eq '*' char) :
    Pending eq ('*' :: pattern) (char :: text) star ↔
      Pending eq pattern (char :: text) (some (pattern, char :: text)) := by
  have hhead : ∀ other ∈ (char :: text).head?, ¬Covers eq '*' other := by
    rintro other ⟨⟩
    exact hcvr
  cases star with
  | none => exact narrow_star hhead
  | some place =>
    obtain ⟨literal, covered, hlit, haft, hmark⟩ := hal
    simp only [Pending, haft, hmark]
    constructor
    · intro hfloats
      obtain ⟨rest, hrest, hnar⟩ := hfloats.rest_of_append hlit
      cases hnar with
      | one _ hmore => exact ⟨_, (suffix_cons _ _).trans hrest, hmore⟩
      | star _ hmore => exact ⟨_, (suffix_append _ _).trans hrest, hmore⟩
    · intro hfloats
      exact ⟨_, suffix_rfl, (narrow_append hlit).mpr ((narrow_star hhead).mpr hfloats)⟩

theorem pending_retry (hmismatch : ¬Narrow '*' (Covers eq) pattern text)
    (hal : Aligned eq pattern text (some (after, char :: mark))) :
    Pending eq pattern text (some (after, char :: mark)) ↔
      Pending eq after mark (some (after, mark)) := by
  obtain ⟨literal, covered, hlit, haft, hmark⟩ := hal
  constructor
  · rintro ⟨rest, hrest, hnar⟩
    rcases suffix_cons_iff.mp hrest with heq | hsuf
    · rw [heq, hmark, haft, narrow_append hlit] at hnar
      exact absurd hnar hmismatch
    · exact ⟨rest, hsuf, hnar⟩
  · exact Floats.mono (suffix_cons _ _)

/-! ## The loop -/

/-- A bound on the rounds left: one attempt of the pattern for each character to start at. -/
def rounds (size : Nat) (pattern text : Str) : Option (Str × Str) → Nat
  | none => (text.length + 1) * (size + 1) + pattern.length
  | some (_, mark) => mark.length * (size + 1) + pattern.length

def Sized (size : Nat) (pattern : Str) : Option (Str × Str) → Prop
  | none => pattern.length ≤ size
  | some (after, _) => after.length ≤ size

variable {size : Nat}

theorem Aligned.length_le (hal : Aligned eq pattern text (some (after, mark))) :
    pattern.length ≤ after.length ∧ text.length ≤ mark.length := by
  obtain ⟨literal, covered, -, rfl, rfl⟩ := hal
  simp

theorem Sized.tail (hsized : Sized size (token :: pattern) star) : Sized size pattern star := by
  cases star with
  | none =>
    simp only [Sized, length_cons] at hsized ⊢
    omega
  | some place => exact hsized

theorem Sized.pattern_le (hsized : Sized size pattern star)
    (hal : Aligned eq pattern text star) : pattern.length ≤ size := by
  cases star with
  | none => exact hsized
  | some place =>
    have hlen := hal.length_le
    simp only [Sized] at hsized
    omega

theorem rounds_one :
    rounds size pattern text star < rounds size (token :: pattern) (char :: text) star := by
  cases star with
  | none =>
    have hless : (text.length + 1) * (size + 1) ≤ (text.length + 1 + 1) * (size + 1) :=
      Nat.mul_le_mul_right _ (by omega)
    simp only [rounds, length_cons]
    omega
  | some place =>
    simp only [rounds, length_cons]
    omega

theorem rounds_star (hal : Aligned eq (token :: pattern) text star) :
    rounds size pattern text (some (pattern, text)) <
      rounds size (token :: pattern) text star := by
  cases star with
  | none =>
    have hless : text.length * (size + 1) ≤ (text.length + 1) * (size + 1) :=
      Nat.mul_le_mul_right _ (by omega)
    simp only [rounds, length_cons]
    omega
  | some place =>
    have hless : text.length * (size + 1) ≤ place.2.length * (size + 1) :=
      Nat.mul_le_mul_right _ hal.length_le.2
    simp only [rounds, length_cons]
    omega

theorem rounds_retry (haft : after.length ≤ size) :
    rounds size after mark (some (after, mark)) <
      rounds size pattern text (some (after, char :: mark)) := by
  simp only [rounds, length_cons, Nat.add_one_mul]
  omega

theorem dropWhile_star : (pattern.dropWhile (· = '*')).isEmpty = true ↔
    ∀ token ∈ pattern, token = '*' := by
  simp

def retry (eq : Char → Char → Bool) (fuel : Nat) : Option (Str × Str) → Bool
  | some (after, _ :: mark) => globFuel eq fuel after mark (some (after, mark))
  | _ => false

theorem globFuel_cons : globFuel eq (fuel + 1) (token :: pattern) (char :: text) star =
      if Covers eq token char then globFuel eq fuel pattern text star
      else if token = '*' then
        globFuel eq fuel pattern (char :: text) (some (pattern, char :: text))
      else retry eq fuel star := by
  rcases star with _ | ⟨after, _ | ⟨first, mark⟩⟩ <;> rfl

theorem globFuel_eq_true (hsized : Sized size pattern star)
    (hal : Aligned eq pattern text star) (hfuel : rounds size pattern text star < fuel) :
    globFuel eq fuel pattern text star = true ↔ Pending eq pattern text star := by
  induction fuel generalizing pattern text star with
  | zero => omega
  | succ fuel ih =>
    cases text with
    | nil =>
      rw [globFuel, dropWhile_star, pending_end hal]
    | cons char text =>
      have hretry : ¬Narrow '*' (Covers eq) pattern (char :: text) →
          (retry eq fuel star = true ↔ Pending eq pattern (char :: text) star) := by
        intro hmismatch
        cases star with
        | none => simpa [retry, Pending] using hmismatch
        | some place =>
          obtain ⟨after, mark⟩ := place
          cases mark with
          | nil => simpa using hal.length_le.2
          | cons first mark =>
            rw [pending_retry hmismatch hal]
            have hrounds : rounds size after mark (some (after, mark)) <
                rounds size pattern (char :: text) (some (after, first :: mark)) :=
              rounds_retry hsized
            exact ih hsized aligned_start (by omega)
      cases pattern with
      | nil =>
        exact hretry (by simp [narrow_nil])
      | cons token pattern =>
        rw [globFuel_cons]
        split_ifs with hcvr hstar
        · have hrounds : rounds size pattern text star <
              rounds size (token :: pattern) (char :: text) star := rounds_one
          rw [pending_one hcvr]
          exact ih hsized.tail (hal.one hcvr) (by omega)
        · subst hstar
          have hrounds : rounds size pattern (char :: text) (some (pattern, char :: text)) <
              rounds size ('*' :: pattern) (char :: text) star := rounds_star hal
          have hlen := hsized.pattern_le hal
          rw [pending_star hal hcvr]
          apply ih _ aligned_start (by omega)
          simp only [Sized, length_cons] at hlen ⊢
          omega
        · exact hretry (not_narrow_cons hcvr hstar)

theorem glob_eq_true : glob eq pattern text = true ↔ Narrow '*' (Covers eq) pattern text := by
  have hfuel : rounds pattern.length pattern text none <
      (pattern.length + text.length + 2) * (text.length + 2) := by
    have hwide : (text.length + 2) * (pattern.length + 1) ≤
        (text.length + 2) * (pattern.length + text.length + 2) :=
      Nat.mul_le_mul_left _ (by omega)
    have hspl : (text.length + 2) * (pattern.length + 1) =
        (text.length + 1) * (pattern.length + 1) + (pattern.length + 1) := Nat.succ_mul _ _
    rw [rounds, Nat.mul_comm (pattern.length + text.length + 2)]
    omega
  exact globFuel_eq_true _ (Nat.le_refl _) trivial hfuel

/-! ## Case -/

def foldCase (env : Env) (pattern text operand : Str) : Str :=
  if isAscii pattern && isAscii text then toAsciiLower operand else env.toLowercase operand

/-- The question mark stands for any character, every other one for itself. -/
abbrev Same : Char → Char → Prop := Covers fun left right => left = right

theorem globMatch_eq_true (env : Env) (pattern text : Str) :
    globMatch env pattern text = true ↔ Narrow '*' Same
      (foldCase env pattern text pattern) (foldCase env pattern text text) := by
  unfold globMatch foldCase
  split
  · rw [glob_eq_true]
    refine (narrow_map (fun token => toLower_eq_iff (by decide)) fun token char => ?_).symm
    simp [Covers, toLower_eq_iff (show '?'.isAlpha = false by decide)]
  · exact glob_eq_true

end Glob

open Glob Octets

theorem globMatch_of_plain {env : Env} {pattern text : Str}
    (hpl : '*' ∉ foldCase env pattern text text) :
    globMatch env pattern text = true ↔ Splits '*' Same
      (foldCase env pattern text pattern) (foldCase env pattern text text) := by
  rw [globMatch_eq_true]
  refine ⟨Narrow.splits, Splits.narrow ?_⟩
  intro char hchar hcvr
  obtain rfl : '*' = char := by simpa [Covers] using hcvr
  exact hpl hchar

theorem globMatch_of_plain_nick :
    Splits '*' Same (foldCase .plain "A*" "ab" "A*") (foldCase .plain "A*" "ab" "ab") :=
  (globMatch_of_plain (by decide)).mp (by decide +kernel)

/--
The answer is the right one exactly if a subject that matches at all matches
with every star of the pattern in front of a star of the subject standing for
just that character.
-/
theorem globMatch_splits_iff (env : Env) (pattern text : Str) :
    (globMatch env pattern text = true ↔ Splits '*' Same
      (foldCase env pattern text pattern) (foldCase env pattern text text)) ↔
    (Splits '*' Same (foldCase env pattern text pattern) (foldCase env pattern text text) →
      Narrow '*' Same (foldCase env pattern text pattern) (foldCase env pattern text text)) := by
  rw [globMatch_eq_true]
  constructor
  · intro hrt
    exact hrt.mpr
  · intro hnar
    exact ⟨Narrow.splits, hnar⟩

theorem globMatch_missed :
    globMatch .plain "*" "*a" = false ∧
      Splits '*' Same (foldCase .plain "*" "*a" "*") (foldCase .plain "*" "*a" "*a") := by
  refine ⟨by decide +kernel, ["*a"], ?_, by decide +kernel⟩
  exact .cons (.run _) .nil

/-! ## Octets -/

def lowerByte (byte : UInt8) : UInt8 := if 0x41 ≤ byte ∧ byte ≤ 0x5A then byte + 0x20 else byte

def bytesFuel : Nat → Octets → Octets → Option (Octets × Octets) → Bool
  | 0, _, _, _ => false
  | _ + 1, pattern, [], _ => (pattern.dropWhile (· = 0x2A)).isEmpty
  | fuel + 1, pattern, byte :: text, star =>
    let retry := match star with
      | some (after, _ :: mark) => bytesFuel fuel after mark (some (after, mark))
      | _ => false
    match pattern with
    | first :: rest =>
      if first = 0x3F ∨ lowerByte first = lowerByte byte then bytesFuel fuel rest text star
      else if first = 0x2A then bytesFuel fuel rest (byte :: text) (some (rest, byte :: text))
      else retry
    | [] => retry

def globBytes (pattern text : Octets) : Bool :=
  bytesFuel ((pattern.length + text.length + 2) * (text.length + 2)) pattern text none

def globChars : Str → Str → Bool := glob fun left right => left = right

def lowerChar (byte : UInt8) : Char := Char.ofNat (lowerByte byte).toNat

theorem lowerChar_fin : ∀ code : Fin 256,
    (lowerChar (UInt8.ofNat code)).toNat = (lowerByte (UInt8.ofNat code)).toNat ∧
    (lowerChar (UInt8.ofNat code) = '?' ↔ UInt8.ofNat code = 0x3F) ∧
    (lowerChar (UInt8.ofNat code) = '*' ↔ UInt8.ofNat code = 0x2A) ∧
    (code.val < 128 → lowerChar (UInt8.ofNat code) = (Char.ofNat code).toLower) := by
  decide +kernel

theorem lowerChar_inj {left right : UInt8} :
    lowerChar left = lowerChar right ↔ lowerByte left = lowerByte right := by
  have hcode (byte : UInt8) : (lowerChar byte).toNat = (lowerByte byte).toNat := by
    simpa using (lowerChar_fin ⟨byte.toNat, byte.toNat_lt⟩).1
  rw [← UInt8.toNat_inj, ← hcode left, ← hcode right, Char.toNat_inj]

theorem globFuel_lower (pattern text : Octets) (star : Option (Octets × Octets)) :
    globFuel (fun left right => left = right) fuel (pattern.map lowerChar) (text.map lowerChar)
      (star.map (Prod.map (map lowerChar) (map lowerChar))) = bytesFuel fuel pattern text star := by
  have hquery (byte : UInt8) : lowerChar byte = '?' ↔ byte = 0x3F := by
    simpa using (lowerChar_fin ⟨byte.toNat, byte.toNat_lt⟩).2.1
  have hstar (byte : UInt8) : lowerChar byte = '*' ↔ byte = 0x2A := by
    simpa using (lowerChar_fin ⟨byte.toNat, byte.toNat_lt⟩).2.2.1
  induction fuel generalizing pattern text star with
  | zero => rfl
  | succ fuel ih =>
    cases text with
    | nil => simp [globFuel, bytesFuel, dropWhile_map, Function.comp_def, hstar]
    | cons byte text =>
      rcases pattern with _ | ⟨first, rest⟩ <;> rcases star with _ | ⟨after, _ | ⟨_, mark⟩⟩ <;>
        simp [globFuel, bytesFuel, hquery, hstar, lowerChar_inj, ← ih]

theorem map_lowerChar_utf8 {text : Str} (hascii : isAscii text = true) :
    (utf8 text).map lowerChar = toAsciiLower text := by
  induction text with
  | nil => rfl
  | cons char text ih =>
    simp only [isAscii, all_cons, Bool.and_eq_true, decide_eq_true_eq] at hascii ih
    have hlow := (lowerChar_fin ⟨char.toNat, by omega⟩).2.2.2 hascii.1
    rw [Char.ofNat_toNat] at hlow
    simpa [ofChar, hascii.1, toAsciiLower] using ⟨hlow, ih hascii.2⟩

theorem globBytes_lower (pattern text : Octets) :
    globBytes pattern text = globChars (pattern.map lowerChar) (text.map lowerChar) := by
  rw [globBytes, ← globFuel_lower, globChars, glob, length_map, length_map, Option.map_none]

section

variable {pattern text : Str} (hpat : isAscii pattern = true) (htext : isAscii text = true)

include hpat htext

theorem globMatch_ascii (env : Env) :
    globMatch env pattern text = globBytes (utf8 pattern) (utf8 text) := by
  rw [Bool.eq_iff_iff, globMatch_eq_true, globBytes_lower, map_lowerChar_utf8 hpat,
    map_lowerChar_utf8 htext, globChars, glob_eq_true]
  simp [foldCase, hpat, htext]

theorem globBytes_eq_globChars : globBytes (utf8 pattern) (utf8 text) =
    globChars (toAsciiLower pattern) (toAsciiLower text) := by
  rw [globBytes_lower, map_lowerChar_utf8 hpat, map_lowerChar_utf8 htext]

end

theorem globBytes_eq_globChars_mask :
    globBytes (utf8 "*!*@*.Test".toList) (utf8 "Al!u@IRC.test".toList) =
      globChars "*!*@*.test".toList "al!u@irc.test".toList :=
  globBytes_eq_globChars rfl rfl

end EchoIrcd
