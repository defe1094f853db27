import EchoIrcd.Chat
import EchoIrcd.Lib.Utf8

/-!
# The throttle on new targets

`targetlimit.rs`.  A user may write to `target_max` new targets at once, and to one
more for each `target_delay` seconds; a target on the list of recent ones is free.
The time from which the next new target is let through is a sum of 64 bits, and
with a delay near the largest such number it wraps.
-/

namespace EchoIrcd

open Str

structure TargetConf where
  noMultiTargets : Bool := false
  delay : UInt64 := 10
  max : UInt64 := 20

structure TargetFlags where
  recent : List UInt64 := []
  credit : UInt64 := 0

def targetHash (target : Str) : UInt64 :=
  (Octets.utf8 (toAsciiLower target)).foldl (fun hash octet => hash * 33 ^^^ octet.toUInt64) 5381

structure TargetSent where
  now : Timestamp
  oper : Bool
  target : Str

namespace TargetFlags

variable (conf : TargetConf) (flags : TargetFlags) (sent : TargetSent)

def notBefore (most : UInt64) : UInt64 :=
  let floor := Server.saturatingSub sent.now (saturatingMul conf.delay (most - 1))
  if flags.credit < floor then floor else flags.credit

/-- `on_pre_message` for a sender who is here; others pass. -/
def onPreMessage : TargetFlags × Option Refusal :=
  if sent.oper then (flags, none)
  else if ',' ∈ sent.target ∧ conf.noMultiTargets then
    (flags, some ⟨407, sent.target ++ " :Too many targets — one recipient per message".toList⟩)
  else if conf.delay = 0 then (flags, none)
  else
    let most := if conf.max < 1 then 1 else conf.max
    let hash := targetHash sent.target
    if hash ∈ flags.recent then ({ flags with recent := hash :: flags.recent.erase hash }, none)
    else
      let credit := flags.notBefore conf sent most
      if sent.now < credit then
        (flags, some ⟨439, sent.target ++ " :Targets changing too fast, please wait ".toList ++
          renderU64 (credit - sent.now) ++ "s".toList⟩)
      else ({ recent := (hash :: flags.recent).take most.toNat, credit := credit + conf.delay }, none)

def letsNew : Bool :=
  !sent.oper && targetHash sent.target ∉ flags.recent && (flags.onPreMessage conf sent).2.isNone

/-- The messages to new targets that a run lets through in `length` seconds from `start`. -/
def newTargets (start length : Nat) : TargetFlags → List TargetSent → Nat
  | _, [] => 0
  | flags, sent :: rest =>
    newTargets start length (flags.onPreMessage conf sent).1 rest +
      if flags.letsNew conf sent ∧ start ≤ sent.now.toNat ∧ sent.now.toNat < start + length then 1
      else 0

/-! ## What one message does to the credit -/

variable {conf}

theorem onPreMessage_cases (hdelay : 0 < conf.delay) (hmax : 0 < conf.max) :
    (flags.letsNew conf sent = false ∧ (flags.onPreMessage conf sent).1.credit = flags.credit) ∨
      flags.letsNew conf sent = true ∧ flags.notBefore conf sent conf.max ≤ sent.now ∧
        (flags.onPreMessage conf sent).1.credit =
          flags.notBefore conf sent conf.max + conf.delay := by
  have hne : conf.delay ≠ 0 := by
    intro hzero
    rw [hzero] at hdelay
    cases hdelay
  have hmost : ¬conf.max < 1 := by
    rw [UInt64.lt_iff_toNat_lt] at hmax ⊢
    simp at hmax ⊢
    omega
  unfold letsNew onPreMessage
  simp only [hne, hmost, if_false]
  split_ifs with hoper hmulti hkn hwt
  · simp [hoper]
  · simp
  · simp [hkn]
  · simp
  · right
    refine ⟨by simp [hoper, hkn], ?_, rfl⟩
    rw [UInt64.le_iff_toNat_le]
    rw [UInt64.lt_iff_toNat_lt] at hwt
    omega

theorem floor_add (now delay most : UInt64) :
    now.toNat ≤ (Server.saturatingSub now (saturatingMul delay most)).toNat +
      delay.toNat * most.toNat := by
  have hmul : (saturatingMul delay most).toNat ≤ delay.toNat * most.toNat := by
    unfold saturatingMul
    split
    · exact Nat.mod_le ..
    · rw [UInt64.toNat_ofNat']
      omega
  unfold Server.saturatingSub
  split
  · rename_i hle
    rw [UInt64.toNat_sub_of_le _ _ hle]
    omega
  · rename_i hlt
    rw [UInt64.le_iff_toNat_le] at hlt
    omega

theorem notBefore_bounds (hmax : 0 < conf.max) :
    flags.credit.toNat ≤ (flags.notBefore conf sent conf.max).toNat ∧
      sent.now.toNat + conf.delay.toNat ≤
        (flags.notBefore conf sent conf.max).toNat + conf.delay.toNat * conf.max.toNat := by
  have hfloor := floor_add sent.now conf.delay (conf.max - 1)
  have hpred : conf.max.toNat = (conf.max - 1).toNat + 1 := by
    rw [UInt64.lt_iff_toNat_lt] at hmax
    rw [UInt64.toNat_sub_of_le _ _ (by rw [UInt64.le_iff_toNat_le]; exact hmax)]
    simp at hmax ⊢
    omega
  rw [hpred, Nat.mul_succ]
  unfold notBefore
  simp only
  split <;> rename_i hless <;> rw [UInt64.lt_iff_toNat_lt] at hless <;> omega

/-! ## A whole run -/

/-- If no sum wraps, a span of seconds sees no more new targets than it should. -/
theorem newTargets_le (conf : TargetConf) (hdelay : 0 < conf.delay) (hmax : 0 < conf.max)
    (flags : TargetFlags) (run : List TargetSent)
    (hroom : ∀ sent ∈ run, sent.now.toNat + conf.delay.toNat < 2 ^ 64) (start length : Nat) :
    newTargets conf start length flags run ≤ conf.max.toNat + length / conf.delay.toNat := by
  have hpos : 0 < conf.delay.toNat := by simpa [UInt64.lt_iff_toNat_lt] using hdelay
  -- after `count` new targets of the span the credit is that many delays past its start
  suffices hcnt : ∀ count, count ≤ conf.max.toNat + length / conf.delay.toNat →
      (count = 0 ∨ start + count * conf.delay.toNat + conf.delay.toNat ≤
        flags.credit.toNat + conf.delay.toNat * conf.max.toNat) →
      count + newTargets conf start length flags run ≤
        conf.max.toNat + length / conf.delay.toNat by
    simpa using hcnt 0 (Nat.zero_le _) (.inl rfl)
  induction run generalizing flags with
  | nil => exact fun count hbd _ => hbd
  | cons sent run ih =>
    intro count hbd hcredit
    rw [List.forall_mem_cons] at hroom
    rw [newTargets]
    obtain ⟨hold, hst⟩ | ⟨hnew, hnow, hmv⟩ := flags.onPreMessage_cases sent hdelay hmax
    · simpa [hold] using ih _ hroom.2 count hbd (by rwa [hst])
    · obtain ⟨hgrows, hfloor⟩ := flags.notBefore_bounds sent hmax
      have hsum := congrArg UInt64.toNat hmv
      rw [UInt64.le_iff_toNat_le] at hnow
      rw [UInt64.toNat_add, Nat.mod_eq_of_lt (by omega)] at hsum
      by_cases hspan : start ≤ sent.now.toNat ∧ sent.now.toNat < start + length
      · have hnext : start + (count + 1) * conf.delay.toNat + conf.delay.toNat ≤
            (flags.onPreMessage conf sent).1.credit.toNat +
              conf.delay.toNat * conf.max.toNat := by
          rw [Nat.succ_mul]
          rcases hcredit with rfl | hcredit <;> omega
        have hle : count + 1 ≤ conf.max.toNat + length / conf.delay.toNat := by
          rw [Nat.add_comm conf.max.toNat, ← Nat.add_mul_div_left _ _ hpos,
            Nat.le_div_iff_mul_le hpos]
          omega
        have hrest := ih _ hroom.2 (count + 1) hle (.inr hnext)
        rw [if_pos ⟨hnew, hspan⟩]
        omega
      · rw [if_neg fun hcts => hspan hcts.2]
        exact ih _ hroom.2 count hbd (hcredit.imp_right (by omega))

def burst : List TargetSent := [⟨100, false, "#a"⟩, ⟨100, false, "#b"⟩]

theorem newTargets_le_burst :
    (∀ sent ∈ burst, sent.now.toNat + (10 : UInt64).toNat < 2 ^ 64) ∧
      newTargets {} 100 1 {} burst ≤ 20 + 1 / 10 :=
  ⟨by decide, newTargets_le {} (by decide) (by decide) {} burst (by decide) 100 1⟩

def longest : TargetConf where
  delay := 18446744073709551615
  max := 1

theorem burst_wraps :
    ¬newTargets longest 100 1 {} burst ≤ longest.max.toNat + 1 / longest.delay.toNat := by
  decide

end TargetFlags

end EchoIrcd
