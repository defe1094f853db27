import EchoIrcd.Lib.Text
import Mathlib.Data.List.DropRight

/-!
# Octets

Big-endian numbers and UTF-8 in lists of octets.  Decoding is total: a stretch
that is no UTF-8 becomes a replacement character, and it ends before the first
octet that could not continue it.
-/

abbrev Octets := List UInt8

namespace Octets

open List

variable {number : Nat} {first : UInt8}

/-! ## Big-endian numbers -/

def toNat (octets : Octets) : Nat :=
  octets.foldl (fun number octet => number * 256 + octet.toNat) 0

def ofNat : Nat → Nat → Octets
  | 0, _ => []
  | width + 1, number => ofNat width (number / 256) ++ [UInt8.ofNat number]

@[simp] theorem length_ofNat (width number : Nat) : (ofNat width number).length = width := by
  induction width generalizing number with
  | zero => rfl
  | succ width ih => simp [ofNat, ih]

theorem toNat_ofNat {width : Nat} (hnum : number < 256 ^ width) :
    toNat (ofNat width number) = number := by
  induction width generalizing number with
  | zero =>
    simp only [ofNat, toNat, foldl_nil]
    omega
  | succ width ih =>
    have hquotient : number / 256 < 256 ^ width := by
      rw [Nat.div_lt_iff_lt_mul (by omega)]
      rwa [Nat.pow_succ] at hnum
    have hstep : toNat (ofNat (width + 1) number) =
        toNat (ofNat width (number / 256)) * 256 + (UInt8.ofNat number).toNat := by
      simp [ofNat, toNat]
    rw [hstep, ih hquotient, UInt8.toNat_ofNat']
    omega

/-! ## UTF-8 -/

def width (first : UInt8) : Nat :=
  if first < 0x80 then 1
  else if first < 0xC2 then 0
  else if first < 0xE0 then 2
  else if first < 0xF0 then 3
  else if first < 0xF5 then 4
  else 0

def second (first : UInt8) : UInt8 × UInt8 :=
  if first = 0xE0 then (0xA0, 0xBF)
  else if first = 0xED then (0x80, 0x9F)
  else if first = 0xF0 then (0x90, 0xBF)
  else if first = 0xF4 then (0x80, 0x8F)
  else (0x80, 0xBF)

/-- How many of the next octets continue a character, up to a number. -/
def continued (low high : UInt8) : Nat → Octets → Nat
  | count + 1, octet :: rest =>
    if low ≤ octet ∧ octet ≤ high then continued 0x80 0xBF count rest + 1 else 0
  | _, _ => 0

def scalar (first : UInt8) (rest : Octets) : Nat :=
  rest.foldl (fun number octet => number * 64 + octet.toNat % 64)
    (if first < 0x80 then first.toNat else first.toNat % 2 ^ (7 - width first))

def decodeHead (first : UInt8) (rest : Octets) : Option Char × Nat :=
  let count := width first - 1
  let run := continued (second first).1 (second first).2 count rest
  if width first = 0 ∨ run < count then (none, run)
  else (some (Char.ofNat (scalar first (rest.take count))), count)

def decodeFuel : Nat → Octets → List (Option Char)
  | fuel + 1, first :: rest =>
    (decodeHead first rest).1 :: decodeFuel fuel (rest.drop (decodeHead first rest).2)
  | _, _ => []

/-- The characters, with `none` for what is not UTF-8. -/
def decode (octets : Octets) : List (Option Char) := decodeFuel octets.length octets

def fromUtf8 (octets : Octets) : Option Str := (decode octets).mapM id

def fromUtf8Lossy (octets : Octets) : Str := (decode octets).map (·.getD '\uFFFD')

/-! ## Control characters -/

theorem le_foldl_scalar (number : Nat) (octets : Octets) :
    number * 64 ^ octets.length ≤
      octets.foldl (fun number octet => number * 64 + octet.toNat % 64) number := by
  induction octets generalizing number with
  | nil => simp
  | cons octet octets ih =>
    rw [foldl_cons, length_cons, Nat.pow_succ', ← Nat.mul_assoc]
    exact Nat.le_trans (Nat.mul_le_mul_right _ (Nat.le_add_right _ _)) (ih _)

/-- The lowest octet that may come second leaves no short form of an ASCII character. -/
theorem second_of_fin : ∀ first : Fin 256, 128 ≤ first.val → width (UInt8.ofNat first) ≠ 0 →
    128 ≤ (first.val % 2 ^ (7 - width (UInt8.ofNat first)) * 64 +
        ((second (UInt8.ofNat first)).1.toNat - 128)) * 64 ^ (width (UInt8.ofNat first) - 2) ∧
      128 ≤ (second (UInt8.ofNat first)).1.toNat ∧
      (second (UInt8.ofNat first)).2.toNat ≤ 191 ∧ 2 ≤ width (UInt8.ofNat first) := by
  decide +kernel

theorem second_spec (hfst : 128 ≤ first.toNat) (hwidth : width first ≠ 0) :
    128 ≤ (first.toNat % 2 ^ (7 - width first) * 64 + ((second first).1.toNat - 128)) *
        64 ^ (width first - 2) ∧
      128 ≤ (second first).1.toNat ∧ (second first).2.toNat ≤ 191 ∧ 2 ≤ width first := by
  have hspec := second_of_fin ⟨first.toNat, first.toNat_lt⟩ hfst
  rw [UInt8.ofNat_toNat] at hspec
  exact hspec hwidth

theorem le_scalar {next : UInt8} {rest : Octets} (hfst : 128 ≤ first.toNat)
    (hwidth : width first ≠ 0) (hrest : rest.length = width first - 2)
    (hlow : (second first).1 ≤ next) (hhigh : next ≤ (second first).2) :
    128 ≤ scalar first (next :: rest) := by
  obtain ⟨hleast, hsec, hlast, -⟩ := second_spec hfst hwidth
  rw [UInt8.le_iff_toNat_le] at hlow hhigh
  have hascii : ¬ first < 0x80 := by
    exact Nat.not_lt.mpr hfst
  rw [scalar, if_neg hascii, foldl_cons]
  refine Nat.le_trans ?_ (le_foldl_scalar _ rest)
  rw [hrest]
  refine Nat.le_trans hleast (Nat.mul_le_mul_right _ ?_)
  omega

theorem toNat_of_ofNat_eq {char : Char} (heq : Char.ofNat number = char)
    (hchar : char ≠ '\x00') : number = char.toNat := by
  unfold Char.ofNat at heq
  by_cases hval : number.isValidChar
  · rw [dif_pos hval] at heq
    exact congrArg Char.toNat heq
  · rw [dif_neg hval] at heq
    exact absurd heq.symm hchar

theorem ofNat_ne_control (hnum : 128 ≤ number) :
    ¬ (Char.ofNat number = '\r' ∨ Char.ofNat number = '\n') := by
  rintro (heq | heq)
  · have hnat : number = 13 := toNat_of_ofNat_eq heq (by decide)
    omega
  · have hnat : number = 10 := toNat_of_ofNat_eq heq (by decide)
    omega

theorem ofNat_eq_control :
    (Char.ofNat first.toNat = '\r' ∨ Char.ofNat first.toNat = '\n') ↔ first = 13 ∨ first = 10 := by
  constructor
  · rintro (heq | heq)
    · exact .inl (UInt8.toNat_inj.mp (toNat_of_ofNat_eq heq (by decide)))
    · exact .inr (UInt8.toNat_inj.mp (toNat_of_ofNat_eq heq (by decide)))
  · rintro (rfl | rfl)
    · exact .inl rfl
    · exact .inr rfl

theorem continued_le_length (low high : UInt8) (count : Nat) (octets : Octets) :
    continued low high count octets ≤ octets.length := by
  induction octets generalizing low high count with
  | nil => cases count <;> simp [continued]
  | cons octet octets ih =>
    cases count with
    | zero => simp [continued]
    | succ count =>
      rw [continued]
      split
      · simpa using ih 0x80 0xBF count
      · exact Nat.zero_le _

theorem continued_spec {low high : UInt8} {count : Nat} {octets : Octets}
    (hrun : ¬ continued low high (count + 1) octets < count + 1) :
    ∃ next rest, octets = next :: rest ∧ low ≤ next ∧ next ≤ high ∧ count ≤ rest.length := by
  cases octets with
  | nil => simp [continued] at hrun
  | cons next rest =>
    rw [continued] at hrun
    split at hrun
    · rename_i hnext
      have hlen := continued_le_length 0x80 0xBF count rest
      exact ⟨next, rest, rfl, hnext.1, hnext.2, by omega⟩
    · omega

theorem decodeHead_of_ascii (hfst : first.toNat < 128) (rest : Octets) :
    decodeHead first rest = (some (Char.ofNat first.toNat), 0) := by
  have hascii : first < 0x80 := UInt8.lt_iff_toNat_lt.mpr hfst
  simp [decodeHead, width, hascii, scalar, continued]

theorem decodeHead_ne_control (hfst : 128 ≤ first.toNat) (rest : Octets) :
    ¬ ((decodeHead first rest).1.getD '\uFFFD' = '\r' ∨
      (decodeHead first rest).1.getD '\uFFFD' = '\n') := by
  unfold decodeHead
  simp only
  split
  · change ¬ ('\uFFFD' = '\r' ∨ '\uFFFD' = '\n')
    decide
  · rename_i hrun
    rw [not_or] at hrun
    have hwidth := (second_spec hfst hrun.1).2.2.2
    obtain ⟨count, hcnt⟩ : ∃ count, width first - 1 = count + 1 := ⟨width first - 2, by omega⟩
    rw [hcnt] at hrun ⊢
    obtain ⟨next, tail, rfl, hlow, hhigh, hlen⟩ := continued_spec hrun.2
    apply ofNat_ne_control
    apply le_scalar hfst hrun.1 _ hlow hhigh
    rw [length_take]
    omega

theorem fromUtf8Lossy_control (octets : Octets) :
    (∀ char ∈ fromUtf8Lossy octets, char = '\r' ∨ char = '\n') ↔
      ∀ octet ∈ octets, octet = 13 ∨ octet = 10 := by
  suffices hfuel : ∀ fuel octets, octets.length ≤ fuel →
      ((∀ char ∈ (decodeFuel fuel octets).map (·.getD '\uFFFD'), char = '\r' ∨ char = '\n') ↔
        ∀ octet ∈ octets, octet = 13 ∨ octet = 10) from hfuel _ _ (Nat.le_refl _)
  intro fuel
  induction fuel with
  | zero =>
    intro octets hlen
    rw [length_eq_zero_iff.mp (Nat.le_zero.mp hlen)]
    simp [decodeFuel]
  | succ fuel ih =>
    intro octets hlen
    cases octets with
    | nil => simp [decodeFuel]
    | cons first rest =>
      rw [length_cons] at hlen
      rw [decodeFuel, map_cons, forall_mem_cons, forall_mem_cons]
      by_cases hfst : first.toNat < 128
      · rw [decodeHead_of_ascii hfst, ih (rest.drop 0) (by simp; omega), drop_zero]
        exact and_congr_left fun _ => ofNat_eq_control
      · have hleft := decodeHead_ne_control (Nat.le_of_not_lt hfst) rest
        have hrt : ¬ (first = 13 ∨ first = 10) := by
          rintro (rfl | rfl) <;> exact hfst (by decide)
        simp only [hleft, hrt, false_and]

end Octets
