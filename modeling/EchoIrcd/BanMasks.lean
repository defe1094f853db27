import EchoIrcd.ConnClass
import EchoIrcd.GlobMatch
import Mathlib.Data.List.TakeWhile

/-!
# Ban masks

A mask typed in MODE is completed to `nick!user@host` before it is stored
(`normalize_ban_mask`).  `ban_list_hit` hands a stored extban to its own matcher and
cuts any other mask at its first `$`, where the target of a redirect may stand
(`banredirect.rs`).  The extban `b:` reads the masks of another channel as they stand
(`extbanbanlist.rs`).
-/

namespace EchoIrcd

open Str Server List

/-- The matchers of the extbans other than `A:` and `b:`, and the AS number of an address. -/
structure BanEnv extends Env where
  spec : Char → Server → Uid → Str → Bool
  asnOf : Str → Option Nat

/-! ## Matching -/

def maskPart (mask : Str) : Str := ((splitOnce '$' mask).map Prod.fst).getD mask

def isPlain : Str → Bool
  | letter :: ':' :: _ => !letter.isAlpha
  | _ => true

def typeMark : Str → Option (Char × Str)
  | letter :: ':' :: spec => if letter.toNat < 128 then some (letter, spec) else none
  | _ => none

namespace Server

variable (env : BanEnv) (server : Server) (uid : Uid)

def inAsn (spec : Str) : Bool :=
  ((server.users.lookup uid).bind fun user => env.asnOf user.ip).any (· ∈ asnList spec)

def inBanlist (chan : Str) : Bool :=
  match server.users.lookup uid, server.channels.lookup (toAsciiLower chan) with
  | some user, some channel =>
    let hit := fun kind => (channel.lists kind).any fun entry =>
      isPlain entry.mask && globMatch env.toEnv entry.mask user.mask
    !hit .except && hit .ban
  | _, _ => false

def extbanHit (letter : Char) (spec : Str) : Bool :=
  if letter = 'A' then server.inAsn env uid spec
  else if letter = 'b' then server.inBanlist env uid spec
  else letter ∈ ("agyrjsGC" : Str) && env.spec letter server uid spec

def who : Str := ((server.users.lookup uid).map User.mask).getD []

def maskHit (mask : Str) : Bool :=
  match typeMark mask with
  | some (letter, spec) => server.extbanHit env uid letter spec
  | none => globMatch env.toEnv (maskPart mask) (server.who uid)

def banListHit (list : List Ban) : Bool := list.any fun entry => server.maskHit env uid entry.mask

def banned (channel : Channel) : Bool :=
  server.banListHit env uid (channel.lists .ban) &&
    !server.banListHit env uid (channel.lists .except)

def redirect (mask : Str) : Option Str := do
  let (mask, target) ← splitOnce '$' mask
  if target.head? = some '#' && globMatch env.toEnv mask (server.who uid) then some target else none

def redirectTarget (key : Str) : Option Str := do
  let channel ← server.channels.lookup key
  let user ← server.users.lookup uid
  if (channel.lists .except).any fun entry =>
      globMatch env.toEnv (maskPart entry.mask) user.mask then none
  else (channel.lists .ban).findSome? fun entry => server.redirect env uid entry.mask

end Server

/-! ## Lists of AS numbers -/

/-- A list of AS numbers is split at commas and blanks. -/
def IsGap (char : Char) : Prop := char = ',' ∨ char = ' '

instance (char : Char) : Decidable (IsGap char) := inferInstanceAs (Decidable (_ ∨ _))

theorem asnList_append_cons {gap : Char} (hgap : IsGap gap) (front back : Str) :
    asnList (front ++ gap :: back) = asnList front ++ asnList back := by
  rw [asnList, asnList, asnList, pieces, pieces, pieces,
    splitOnP_append_cons front back (by simpa [IsGap] using hgap), map_append,
    filter_append, filterMap_append]

theorem parseU32_of_star {text : Str} (hstar : '*' ∈ text) : parseU32 text = none := by
  rw [parseU32, Option.map_eq_none_iff, Option.eq_none_iff_forall_ne_some]
  exact fun _ hnum => not_mem_of_toNatBelow hnum (by decide) (by decide) hstar

theorem mem_dropWhile {char : Char} {drops : Char → Bool} {text : Str} (hmem : char ∈ text)
    (hkept : ¬ drops char = true) : char ∈ text.dropWhile drops := by
  rw [← takeWhile_append_dropWhile (p := drops) (l := text), mem_append] at hmem
  exact hmem.resolve_left fun htaken => hkept (mem_takeWhile_imp htaken)

theorem asnList_of_star {text : Str} (hstar : '*' ∈ text) (hgaps : ∀ char ∈ text, ¬ IsGap char) :
    asnList text = [] := by
  have htrim : '*' ∈ trim text :=
    mem_reverse.mpr (mem_dropWhile (mem_reverse.mpr (mem_dropWhile hstar (by decide)))
      (by decide))
  have hrest : ∀ kind : Str, '*' ∉ kind → ∀ rest ∈ (trim text).dropPrefix? kind, '*' ∈ rest := by
    intro kind hkind rest hrest
    obtain ⟨front, hs, hfront⟩ := dropPrefix?_eq_some_iff.mp hrest
    rw [hs, eq_of_beq hfront, mem_append] at htrim
    exact htrim.resolve_left hkind
  have hnum : '*' ∈ (((trim text).dropPrefix? ("AS" : Str)).or
      ((trim text).dropPrefix? ("as" : Str))).getD (trim text) := by
    cases hfst : (trim text).dropPrefix? ("AS" : Str) with
    | some rest => exact hrest _ (by decide) rest hfst
    | none =>
      cases hsec : (trim text).dropPrefix? ("as" : Str) with
      | some rest => exact hrest _ (by decide) rest hsec
      | none => exact htrim
  rw [asnList, pieces, splitOnP_eq_singleton (by simpa [IsGap] using hgaps)]
  simpa [ne_nil_of_mem htrim] using parseU32_of_star hnum

theorem exists_last_gap (text : Str) : (∀ char ∈ text, ¬ IsGap char) ∨
    ∃ front gap back, text = front ++ gap :: back ∧ IsGap gap ∧ ∀ char ∈ back, ¬ IsGap char := by
  induction text with
  | nil => exact .inl (by simp)
  | cons first text ih =>
    rcases ih with hnone | ⟨front, gap, back, rfl, hgap, hback⟩
    · by_cases hfst : IsGap first
      · exact .inr ⟨[], first, text, rfl, hfst, hnone⟩
      · exact .inl (forall_mem_cons.mpr ⟨hfst, hnone⟩)
    · exact .inr ⟨first :: front, gap, back, rfl, hgap, hback⟩

theorem exists_first_gap (text : Str) : (∀ char ∈ text, ¬ IsGap char) ∨
    ∃ front gap back, text = front ++ gap :: back ∧ IsGap gap ∧ ∀ char ∈ front, ¬ IsGap char := by
  rcases exists_last_gap text.reverse with hnone | ⟨front, gap, back, hs, hgap, hback⟩
  · exact .inl fun char hchar => hnone char (mem_reverse.mpr hchar)
  · refine .inr ⟨back.reverse, gap, front.reverse, ?_, hgap, fun char hchar =>
      hback char (mem_reverse.mp hchar)⟩
    rw [← reverse_reverse text, hs]
    simp

/-- Behind the last gap nothing is read any more. -/
theorem mem_asnList_append {text ending : Str} {number : Nat} (hstar : '*' ∈ ending)
    (hgaps : ∀ char ∈ ending, ¬ IsGap char) : number ∈ asnList (text ++ ending) ↔
      ∃ front gap back, text = front ++ gap :: back ∧ IsGap gap ∧ number ∈ asnList front := by
  constructor
  · intro hnum
    rcases exists_last_gap text with hnone | ⟨front, gap, back, rfl, hgap, hback⟩
    · rw [asnList_of_star (mem_append_right text hstar)
        (forall_mem_append.mpr ⟨hnone, hgaps⟩)] at hnum
      cases hnum
    · rw [append_assoc, cons_append, asnList_append_cons hgap,
        asnList_of_star (mem_append_right back hstar)
          (forall_mem_append.mpr ⟨hback, hgaps⟩), append_nil] at hnum
      exact ⟨front, gap, back, rfl, hgap, hnum⟩
  · rintro ⟨front, gap, back, rfl, hgap, hnum⟩
    rw [append_assoc, cons_append, asnList_append_cons hgap]
    exact mem_append_left _ hnum

/-- Before the first gap nothing is read any more. -/
theorem mem_asnList_prepend {text beginning : Str} {number : Nat} (hstar : '*' ∈ beginning)
    (hgaps : ∀ char ∈ beginning, ¬ IsGap char) : number ∈ asnList (beginning ++ text) ↔
      ∃ front gap back, text = front ++ gap :: back ∧ IsGap gap ∧ number ∈ asnList back := by
  constructor
  · intro hnum
    rcases exists_first_gap text with hnone | ⟨front, gap, back, rfl, hgap, hfront⟩
    · rw [asnList_of_star (mem_append_left text hstar)
        (forall_mem_append.mpr ⟨hgaps, hnone⟩)] at hnum
      cases hnum
    · rw [← append_assoc, asnList_append_cons hgap,
        asnList_of_star (mem_append_left front hstar)
          (forall_mem_append.mpr ⟨hgaps, hfront⟩), nil_append] at hnum
      exact ⟨front, gap, back, rfl, hgap, hnum⟩
  · rintro ⟨front, gap, back, rfl, hgap, hnum⟩
    rw [← append_assoc, asnList_append_cons hgap]
    exact mem_append_right _ hnum

/-- The number does not stand only where the completion of the text touches it: before the
first gap of a text with `@` and without `!`, or behind the last gap of one without `@`. -/
def AsnKept (spec : Str) (number : Nat) : Prop :=
  number ∈ asnList spec →
    if '@' ∈ spec then '!' ∉ spec →
      ∃ front gap back, spec = front ++ gap :: back ∧ IsGap gap ∧ number ∈ asnList back
    else ∃ front gap back, spec = front ++ gap :: back ∧ IsGap gap ∧ number ∈ asnList front

theorem mem_asnList_normalizeMask {spec : Str} {number : Nat} :
    (number ∈ asnList (normalizeMask spec) ↔ number ∈ asnList spec) ↔ AsnKept spec number := by
  have hleft : ∀ front gap back, spec = front ++ gap :: back → IsGap gap →
      number ∈ asnList front ∨ number ∈ asnList back → number ∈ asnList spec := by
    rintro front gap back rfl hgap hnum
    rw [asnList_append_cons hgap]
    exact mem_append.mpr hnum
  unfold AsnKept normalizeMask
  split
  · rename_i hbang hat
    simp [of_decide_eq_true hbang, of_decide_eq_true hat]
  · rename_i hbang hat
    rw [if_pos (of_decide_eq_true hat), mem_asnList_prepend (by decide) (by simp [IsGap])]
    refine ⟨fun hs hnum _ => hs.mpr hnum, fun hkept => ⟨?_, fun hnum =>
      hkept hnum (of_decide_eq_false hbang)⟩⟩
    rintro ⟨front, gap, back, hspec, hgap, hnum⟩
    exact hleft front gap back hspec hgap (.inr hnum)
  all_goals
    rename_i hat
    rw [if_neg (of_decide_eq_false hat), mem_asnList_append (by decide) (by simp [IsGap])]
    refine ⟨fun hs hnum => hs.mpr hnum, fun hkept => ⟨?_, hkept⟩⟩
    rintro ⟨front, gap, back, hspec, hgap, hnum⟩
    exact hleft front gap back hspec hgap (.inl hnum)

/-! ## Extbans -/

variable {env : BanEnv} {server : Server} {uid : Uid} {mask : Str}

/-- All specifications but that of `A:` are stored as they are typed. -/
theorem normalizeBanMask_extban {letter : Char} (hlet : letter ∈ ("agyrjsGAbC" : Str))
    (spec : Str) : normalizeBanMask (letter :: ':' :: spec) =
      letter :: ':' :: if letter = 'A' then normalizeMask spec else spec := by
  by_cases hasn : letter = 'A'
  · rw [hasn]
    rfl
  · have hkept : letter ∈ ("agyrjsGbC" : Str) := by
      simpa [hasn] using hlet
    have halpha : letter.isAlpha = true :=
      all_eq_true.mp (by decide : ("agyrjsGbC" : Str).all Char.isAlpha = true) letter hkept
    rw [normalizeBanMask, if_pos halpha, if_pos hkept, if_neg hasn]

/-- The entry catches whom the matcher accepts, but for an AS number that is lost when its list
is completed like a host mask. -/
theorem maskHit_typed_iff {kind : ListKind} (hkind : kind.normalizes = true) {letter : Char}
    (hlet : letter ∈ ("agyrjsGAbC" : Str)) (env : BanEnv) (server : Server) (uid : Uid)
    (spec : Str) :
    server.maskHit env uid (kind.normalize (letter :: ':' :: spec)) =
        server.extbanHit env uid letter spec ↔
      (letter = 'A' → ∀ user number, server.users.lookup uid = some user →
        env.asnOf user.ip = some number → AsnKept spec number) := by
  have hascii : letter.toNat < 128 := of_decide_eq_true (all_eq_true.mp
    (by decide : ("agyrjsGAbC" : Str).all (Char.toNat · < 128) = true) letter hlet)
  rw [ListKind.normalize, if_pos hkind, normalizeBanMask_extban hlet, maskHit,
    typeMark, if_pos hascii]
  by_cases hasn : letter = 'A'
  · simp only [hasn, if_true, extbanHit, inAsn, forall_const]
    cases hu : server.users.lookup uid with
    | none => simp
    | some user =>
      cases hnum : env.asnOf user.ip with
      | none =>
        simp only [Option.bind_some, hnum, Option.any_none, true_iff]
        rintro _ _ ⟨⟩ hf
        cases hnum.symm.trans hf
      | some number =>
        simp only [Option.bind_some, hnum, Option.any_some, decide_eq_decide,
          mem_asnList_normalizeMask]
        constructor
        · rintro hkept _ _ ⟨⟩ hf
          cases hnum.symm.trans hf
          exact hkept
        · intro hkept
          exact hkept user number rfl hnum
  · simp [hasn]

def maskServer : Server where
  conf := { name := "a.test", sid := "0AA" }
  clock := 7
  users := Table.ofList [(1, { uuid := "0AAAAAAAA", nick := "bad", ident := "u", host := "h"
                               ip := "1.1.1.1", signon := 1, nickTs := 1 })]

def BanEnv.plain : BanEnv where
  toEnv := .plain
  spec := fun _ _ _ _ => false
  asnOf := fun _ => some 15169

/-- The number is followed by a comma and stays in the list. -/
theorem maskHit_typed_iff_followed :
    maskServer.maskHit .plain 1 (ListKind.ban.normalize "A:15169,1") =
      maskServer.extbanHit .plain 1 'A' "15169,1" := by
  refine (maskHit_typed_iff rfl (by decide) .plain maskServer 1 "15169,1").mpr ?_
  rintro - user number ⟨⟩ ⟨⟩ -
  exact ⟨"15169", ',', "1", rfl, .inl rfl, by decide +kernel⟩

theorem asn_spec_lost : maskServer.extbanHit .plain 1 'A' "15169" = true ∧
    maskServer.maskHit .plain 1 (ListKind.ban.normalize "A:15169") = false := by
  decide +kernel

/-! ## Redirects -/

/--
What becomes of a mask that is typed with a target, by the places of `!` and `@`.  With an
`@` it is completed as it would be alone, unless the `!` of a channel name keeps `*!` away.
An `@` of a channel name keeps its end away.  Without any `@` the end is put behind the
target.
-/
def Rejoins (catches : Str → Prop) (mask chan : Str) : Prop :=
  if '@' ∈ mask then
    '!' ∈ mask ∨ '!' ∉ chan ∨ (catches mask ↔ catches ("*!" ++ mask))
  else if '@' ∈ chan then
    if '!' ∈ mask then catches mask ↔ catches (mask ++ "@*")
    else catches (if '!' ∈ chan then mask else "*!" ++ mask) ↔ catches (mask ++ "!*@*")
  else ¬ catches mask ∧ ¬ catches (normalizeMask mask)

theorem typeMark_eq_some {mark : Char × Str} (hmark : typeMark mask = some mark) :
    mask = mark.1 :: ':' :: mark.2 := by
  unfold typeMark at hmark
  split at hmark
  · split at hmark
    · cases hmark
      rfl
    · cases hmark
  · cases hmark

section

variable (hpl : mask[1]? ≠ some ':')

include hpl

theorem normalizeBanMask_of_plain : normalizeBanMask mask = normalizeMask mask := by
  unfold normalizeBanMask
  split
  · exact absurd rfl hpl
  · rfl

theorem maskHit_of_plain (env : BanEnv) (server : Server) (uid : Uid) :
    server.maskHit env uid mask = globMatch env.toEnv (maskPart mask) (server.who uid) := by
  cases hmark : typeMark mask with
  | none => rw [maskHit, hmark]
  | some mark =>
    rw [typeMark_eq_some hmark] at hpl
    exact absurd rfl hpl

theorem normalizeMask_plain : (normalizeMask mask)[1]? ≠ some ':' := by
  unfold normalizeMask
  rcases mask with _ | ⟨first, _ | ⟨second, rest⟩⟩ <;> split <;> simp_all

theorem join_plain {chan : Str} (hchan : chan.head? = some '#') :
    (mask ++ '$' :: chan)[1]? ≠ some ':' := by
  rcases mask with _ | ⟨first, _ | ⟨second, rest⟩⟩
  · simp [head?_eq_getElem?.symm.trans hchan]
  · simp
  · simpa using hpl

end

theorem not_mem_normalizeMask (hfree : '$' ∉ mask) : '$' ∉ normalizeMask mask := by
  unfold normalizeMask
  split <;> simpa using hfree

theorem maskPart_of_free (hfree : '$' ∉ mask) : maskPart mask = mask := by
  rw [maskPart, splitOnce_eq_none hfree, Option.map_none, Option.getD_none]

theorem maskPart_append {front : Str} (hfree : '$' ∉ front) (rest : Str) :
    maskPart (front ++ '$' :: rest) = front := by
  rw [maskPart, splitOnce_append hfree, Option.map_some, Option.getD_some]

/-- What stands before the `$` is completed at its beginning only. -/
theorem normalizeMask_cut (front rest : Str) : ∃ back, normalizeMask (front ++ '$' :: rest) =
    (if ('@' ∈ front ∨ '@' ∈ rest) ∧ '!' ∉ front ∧ '!' ∉ rest then "*!" ++ front else front) ++
      '$' :: (rest ++ back) ∧ (back = [] ↔ '@' ∈ front ∨ '@' ∈ rest) := by
  unfold normalizeMask
  by_cases hat : '@' ∈ front ∨ '@' ∈ rest <;> by_cases hbang : '!' ∈ front ∨ '!' ∈ rest
  · exact ⟨[], by simp [hat, hbang, not_or.symm], by simp [hat]⟩
  · exact ⟨[], by simp [hat, not_or.mp hbang], by simp [hat]⟩
  · exact ⟨"@*", by simp [hat, hbang], by simp [hat]⟩
  · exact ⟨"!*@*", by simp [hat, hbang], by simp [hat]⟩

/-- A text with a `$` stands for no text without one. -/
theorem globMatch_free (hlow : ∀ text, '$' ∈ env.toLowercase text ↔ '$' ∈ text) {text : Str}
    (hmask : '$' ∈ mask) (htext : '$' ∉ text) : globMatch env.toEnv mask text = false := by
  have hfold : ∀ operand, '$' ∈ Glob.foldCase env.toEnv mask text operand ↔ '$' ∈ operand := by
    intro operand
    unfold Glob.foldCase
    split
    · exact mem_toAsciiLower (by decide)
    · exact hlow operand
  rw [Bool.eq_false_iff, ne_eq, Glob.globMatch_eq_true]
  intro hnar
  rw [← hfold] at hmask htext
  generalize Glob.foldCase env.toEnv mask text mask = pattern at hmask hnar
  generalize Glob.foldCase env.toEnv mask text text = folded at htext hnar
  induction hnar with
  | nil => cases hmask
  | one hcvr _ ih =>
    rw [mem_cons, not_or] at htext
    rcases mem_cons.mp hmask with rfl | hmask
    · exact htext.1 (by simpa [Glob.Covers] using hcvr)
    · exact ih hmask htext.2
  | star _ _ ih =>
    exact ih ((mem_cons.mp hmask).resolve_left (by decide))
      fun hrest => htext (mem_append_right _ hrest)

/-- A mask is read whole unless its part in front of a `$` matches. -/
theorem maskPart_whole_iff {who : Str} (hlow : ∀ text, '$' ∈ env.toLowercase text ↔ '$' ∈ text)
    (hwho : '$' ∉ who) :
    globMatch env.toEnv (maskPart (normalizeMask mask)) who =
        globMatch env.toEnv (normalizeMask mask) who ↔
      ∀ front rest, mask = front ++ '$' :: rest → '$' ∉ front →
        ¬ globMatch env.toEnv (if '@' ∈ mask ∧ '!' ∉ mask then "*!" ++ front else front) who := by
  by_cases hmask : '$' ∈ mask
  · obtain ⟨front, rest, rfl, hfree⟩ := eq_append_cons_of_mem hmask
    obtain ⟨back, hcut, -⟩ := normalizeMask_cut front rest
    have hread : maskPart (normalizeMask (front ++ '$' :: rest)) =
        if '@' ∈ front ++ '$' :: rest ∧ '!' ∉ front ++ '$' :: rest then "*!" ++ front
        else front := by
      rw [hcut, maskPart_append (by split <;> simpa using hfree)]
      simp
    have hwh : globMatch env.toEnv (normalizeMask (front ++ '$' :: rest)) who = false :=
      globMatch_free hlow (by simp [hcut]) hwho
    rw [hread, hwh, ← Bool.not_eq_true]
    refine ⟨?_, fun hmissed => hmissed front rest rfl hfree⟩
    rintro hmissed front' rest' hs' hfree'
    rwa [← maskPart_append hfree' rest', ← hs', maskPart_append hfree]
  · rw [maskPart_of_free (not_mem_normalizeMask hmask)]
    refine iff_of_true rfl ?_
    rintro front rest rfl
    simp at hmask

theorem maskHit_of_isPlain (hpl : isPlain mask = true) : server.maskHit env uid mask =
    ((typeMark mask).isNone && globMatch env.toEnv (maskPart mask) (server.who uid)) := by
  unfold maskHit
  cases hmark : typeMark mask with
  | none => rfl
  | some mark =>
    obtain ⟨letter, spec⟩ := mark
    rw [typeMark_eq_some hmark] at hpl
    have ho : ∀ known : Char, known.isAlpha = true → letter ≠ known := by
      rintro known hkn rfl
      simp [isPlain, hkn] at hpl
    have hspec : letter ∉ ("agyrjsGC" : Str) := fun hlet => ho letter
      (all_eq_true.mp (by decide : ("agyrjsGC" : Str).all Char.isAlpha = true) letter hlet)
      rfl
    simp only [extbanHit, if_neg (ho 'A' rfl), if_neg (ho 'b' rfl), decide_eq_false hspec]
    rfl

section

variable (env : BanEnv) (who : Str) (list : List Ban)

/-- A mask that both checks read alike. -/
def WholeHit : Prop :=
  ∃ entry ∈ list, '$' ∉ entry.mask ∧ typeMark entry.mask = none ∧ globMatch env.toEnv entry.mask who

/-- A mask with a `$`, of which the ban check of a channel reads the beginning. -/
def FrontHit : Prop :=
  ∃ entry ∈ list, typeMark entry.mask = none ∧ ∃ front rest, entry.mask = front ++ '$' :: rest ∧
    '$' ∉ front ∧ globMatch env.toEnv front who

/-- A mask with a `$` or a colon in second place, of which `b:` reads the whole. -/
def TextHit : Prop :=
  ∃ entry ∈ list, ('$' ∈ entry.mask ∨ (typeMark entry.mask).isSome) ∧
    globMatch env.toEnv entry.mask who

variable {env who list} (hpl : ∀ entry ∈ list, isPlain entry.mask = true)

include hpl

theorem textHit_iff :
    (list.any fun entry => isPlain entry.mask && globMatch env.toEnv entry.mask who) = true ↔
      WholeHit env who list ∨ TextHit env who list := by
  rw [any_eq_true, WholeHit, TextHit, ← exists_or]
  refine exists_congr fun entry => ?_
  rw [← and_or_left]
  refine and_congr_right fun hent => ?_
  rw [hpl entry hent, Bool.true_and, ← and_assoc, ← or_and_right, and_iff_right]
  cases typeMark entry.mask <;> simp [em']

theorem banListHit_iff : server.banListHit env uid list = true ↔
    WholeHit env (server.who uid) list ∨ FrontHit env (server.who uid) list := by
  rw [banListHit, any_eq_true, WholeHit, FrontHit, ← exists_or]
  refine exists_congr fun entry => ?_
  rw [← and_or_left]
  refine and_congr_right fun hent => ?_
  rw [maskHit_of_isPlain (hpl entry hent), Bool.and_eq_true, Option.isNone_iff_eq_none]
  by_cases hmask : '$' ∈ entry.mask
  · obtain ⟨front, rest, hs, hfree⟩ := eq_append_cons_of_mem hmask
    simp only [hmask, not_true_eq_false, false_and, false_or]
    refine and_congr_right fun _ => ?_
    constructor
    · intro hhit
      rw [hs, maskPart_append hfree] at hhit
      exact ⟨front, rest, hs, hfree, hhit⟩
    · rintro ⟨front, rest, hs, hfree, hhit⟩
      rwa [hs, maskPart_append hfree]
  · have hnone : ∀ front rest, entry.mask ≠ front ++ '$' :: rest := by
      rintro front rest hs
      simp [hs] at hmask
    simp [hmask, maskPart_of_free hmask, hnone]

end

end EchoIrcd
