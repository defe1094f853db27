import EchoIrcd.ModePair
import EchoIrcd.PermStore

/-!
# Modes and status on the other side

A flag, a parameter or a status that a client sets is found in the channel of
the other server, member for member.  The server that reads the `FMODE` hands
most letters to the handlers of its own clients, which look at its own members.
-/

namespace EchoIrcd

open Str ModeChange Server Option Table Channel List

variable {adding : Bool} {mode : ChanMode} {change : Channel → Channel} {letter : Char}
  {echo param : Option Str} {config : PrefixConfig} {kind : ListKind} {target : Uid} {user : User}

/-! ## The reading side -/

theorem chanMode_eq (config : PrefixConfig) (letter : Char) :
    chanMode config letter = (chanMode {} letter).or
      ((config.defForLetter letter).map fun custom => .status letter custom.rank) := by
  unfold chanMode
  split
  case h_26 =>
    cases ChanFlag.ofLetter letter with
    | some flag => rfl
    | none => rfl
  all_goals rfl

theorem chanMode_congr (hmode : chanMode config letter = some mode)
    (hbuiltin : ∀ rank, mode ≠ .status letter rank)
    (other : PrefixConfig) : chanMode other letter = some mode := by
  rw [chanMode_eq] at hmode ⊢
  cases hf : chanMode {} letter with
  | some found =>
    rw [hf] at hmode
    exact hmode
  | none =>
    rw [hf, none_or] at hmode
    obtain ⟨custom, -, rfl⟩ := map_eq_some_iff.mp hmode
    exact absurd rfl (hbuiltin _)

namespace Server

variable {source chan key : Str} {server : Server} {letter : Char} {adding : Bool}

theorem linkModeStep_status (hlet : letter ∈ ("yqaohv" : Str)) (who : Str) (args : List Str) :
    linkModeStep source chan key (server, who :: args) (adding, letter) =
      (server.setMemberPrefix key who letter adding, args) := by
  simp only [linkModeStep, if_pos hlet]

theorem linkModeStep_mask {kind : ListKind} (hlet : maskKind letter = some kind) (mask : Str)
    (args : List Str) :
    ∃ setter, linkModeStep source chan key (server, mask :: args) (adding, letter) =
      (server.changeChannel key (setList kind
        (changeMask setter mask server.clock adding)), args) := by
  have hcases : letter = 'b' ∨ letter = 'e' ∨ letter = 'I' := by
    unfold maskKind at hlet
    split at hlet <;> simp_all
  rcases hcases with rfl | rfl | rfl
  all_goals
    cases hlet
    exact ⟨_, rfl⟩

def carryOut (key : Str) (applied : Applied) (server : Server) : Server :=
  match applied with
  | some (change, _) => server.changeChannel key change
  | none => server

theorem linkModeStep_handler {mode : ChanMode}
    (hmode : chanMode server.conf.prefixes letter = some mode)
    (hst : letter ∉ ("yqaohv" : Str)) (hkey : mode ≠ .key) (hlim : mode ≠ .limit)
    (hmask : ∀ kind, kind.normalizes = true → mode ≠ .list kind) (args : List Str) :
    linkModeStep source chan key (server, args) (adding, letter) =
      (server.carryOut key (server.applyChanMode chan key mode adding
          (if mode.wantsParam adding then args.head? else none)),
        if mode.wantsParam adding then args.tail else args) := by
  have hk : letter ≠ 'k' := by
    rintro rfl
    cases hmode
    exact hkey rfl
  have hl : letter ≠ 'l' := by
    rintro rfl
    cases hmode
    exact hlim rfl
  have hnone : maskKind letter = none := by
    unfold maskKind
    split
    · cases hmode
      exact absurd rfl (hmask .ban rfl)
    · cases hmode
      exact absurd rfl (hmask .except rfl)
    · cases hmode
      exact absurd rfl (hmask .invex rfl)
    · rfl
  simp only [linkModeStep, if_neg hst, if_neg hk, if_neg hl, hnone, hmode]
  cases server.applyChanMode chan key mode adding
    (if mode.wantsParam adding then args.head? else none) with
  | none => rfl
  | some applied => rfl

end Server

/-! ## Handlers -/

theorem saturatingMul_div {secs size : UInt64} (hmod : secs % size = 0) :
    saturatingMul (secs / size) size = secs := by
  have hnat : secs.toNat % size.toNat = 0 := by
    rw [← UInt64.toNat_mod, hmod]
    rfl
  have hmul : (secs / size).toNat * size.toNat = secs.toNat := by
    rw [UInt64.toNat_div, Nat.div_mul_cancel (Nat.dvd_of_mod_eq_zero hnat)]
  have hlt := secs.toNat_lt
  rw [saturatingMul, if_pos (by omega)]
  apply UInt64.toNat_inj.mp
  rw [UInt64.toNat_mul, hmul, Nat.mod_eq_of_lt hlt]

theorem parseDuration_unit {text : Str} {number size : UInt64} {unit : Char}
    (htext : parseU64 text = some number)
    (hunit : (size, unit) ∈ [((604800 : UInt64), 'w'), (86400, 'd'), (3600, 'h'), (60, 'm')]) :
    parseDuration (text ++ [unit]) = some (saturatingMul number size) := by
  simp only [mem_cons, Prod.mk.injEq, not_mem_nil, or_false] at hunit
  have hdig : unit.isDigit = false := by
    rcases hunit with ⟨-, rfl⟩ | ⟨-, rfl⟩ | ⟨-, rfl⟩ | ⟨-, rfl⟩ <;> decide
  have hzero : ¬ (text ++ [unit] = [] ∨ text ++ [unit] = ("0" : Str)) := by
    rintro (hnil | hzero)
    · simp at hnil
    · have hlast := congrArg getLast? hzero
      rw [getLast?_concat] at hlast
      cases hlast
      cases hdig
  simp only [parseDuration, if_neg hzero, getLast?_concat, dropLast_concat, hdig,
    htext, bind_eq_bind, bind_some]
  rcases hunit with ⟨rfl, rfl⟩ | ⟨rfl, rfl⟩ | ⟨rfl, rfl⟩ | ⟨rfl, rfl⟩ <;> rfl

theorem parseDuration_shortDuration (secs : UInt64) :
    parseDuration (shortDuration secs) = some secs := by
  unfold shortDuration
  split
  · rename_i hzero
    rw [hzero]
    rfl
  · split
    · rename_i size unit hf
      have hmod : secs % size = 0 := by simpa using find?_some hf
      rw [parseDuration_unit (parseU64_renderU64 _) (mem_of_find?_eq_some hf),
        saturatingMul_div hmod]
    · exact parseDuration_renderU64 secs

theorem applyParam_again {α : Type} (parse : Option Str → Option α)
    {store : Option α → ChanModes → ChanModes} {render : α → Str}
    (happ : applyParam adding (parse param) store render = some (change, echo))
    (hp : ∀ value, parse param = some value → parse (some (render value)) = some value) :
    applyParam adding (parse echo) store render = some (change, echo) := by
  cases adding with
  | false =>
    cases happ
    rfl
  | true =>
    obtain ⟨value, hval, happ⟩ := bind_eq_some_iff.mp happ
    cases happ
    rw [hp value hval]
    rfl

theorem applyChanMode_again {near far : Server} {chan key : Str}
    (happ : near.applyChanMode chan key mode adding param = some (change, echo))
    (hst : ∀ letter rank, mode ≠ .status letter rank) (hlist : ∀ kind, mode ≠ .list kind)
    (hkey : mode ≠ .key) (hlim : mode ≠ .limit)
    (hsecure : mode = .secureOnly → adding = true → far.membersAll key User.secure = true)
    (henc : mode = .encrypted → adding = true → far.membersAll key User.e2e = true) :
    far.applyChanMode chan key mode adding echo = some (change, echo) := by
  simp only [applyChanMode] at happ ⊢
  cases mode with
  | status letter rank => exact absurd rfl (hst letter rank)
  | list kind => exact absurd rfl (hlist kind)
  | flag flag => exact happ
  | secureOnly =>
    simp only at happ ⊢
    split at happ
    · cases happ
    · cases adding with
      | false => exact happ
      | true => simpa [hsecure rfl rfl] using happ
  | encrypted =>
    simp only at happ ⊢
    split at happ
    · cases happ
    · cases adding with
      | false => exact happ
      | true => simpa [henc rfl rfl] using happ
  | key => exact absurd rfl hkey
  | limit => exact absurd rfl hlim
  | joinFlood | nickFlood =>
    refine applyParam_again (·.bind parseRate) happ ?_
    intro rate hp
    exact parseRate_renderRate (pos_of_parseRate hp)
  | slowMode =>
    refine applyParam_again (·.bind parseSlow) happ ?_
    intro rate hp
    exact parseSlow_renderRate (pos_of_parseSlow hp)
  | kickNoRejoin | delayMsg | repeatLines =>
    refine applyParam_again (parseCapped _) happ ?_
    intro number hp
    exact parseCapped_renderU32 (bounds_of_parseCapped (by decide) hp)
  | chanHistory =>
    refine applyParam_again (·.bind _) happ ?_
    intro value hp
    obtain ⟨text, -, hp⟩ := bind_eq_some_iff.mp hp
    obtain ⟨lines, hls, rfl⟩ := map_eq_some_iff.mp hp
    have hpos : 0 < lines := of_decide_eq_true (filter_eq_some_iff.mp hls).2
    have hcapped : 0 < min lines 256 := capped_pos hpos (by decide)
    have hmin : min (min lines 256) 256 = min lines 256 := if_pos Std.min_le_right
    simp [splitOnce_renderU32, parseU32_renderU32, parseDuration_shortDuration, hcapped, hmin]
  | msgFlood =>
    refine applyParam_again (·.bind _) happ ?_
    intro value hp
    obtain ⟨text, -, hp⟩ := bind_eq_some_iff.mp hp
    obtain ⟨rate, -, rfl⟩ := map_eq_some_iff.mp hp
    exact hp
  | redirect =>
    refine applyParam_again (·.filter _) happ ?_
    intro target hp
    simpa using (filter_eq_some_iff.mp hp).2
  | anticaps =>
    refine applyParam_again (fun param => ((param.bind parseU8).filter _).map _) happ ?_
    intro percent hp
    obtain ⟨number, hnum, rfl⟩ := map_eq_some_iff.mp hp
    have hone : 1 ≤ number := of_decide_eq_true (filter_eq_some_iff.mp hnum).2
    have hcapped : 1 ≤ min number 100 := Std.le_min_iff.mpr ⟨hone, by decide⟩
    have hmin : min (min number 100) 100 = min number 100 := if_pos Std.min_le_right
    simp [parseU8_ofNat, hcapped, hmin]

namespace ParamMode

variable {chan key : Str}

theorem userChanMode_handler (mode : ParamMode) (rules : ModeRules) (server : Server) (uid : Uid)
    (adding : Bool) : server.userChanMode rules uid chan key mode.handler adding param =
      server.applyChanMode chan key mode.handler adding param := by
  cases mode <;> rfl

/-- What a parameter mode shows of the parameter it took can be given to it again, to any
server and by anybody: it stores the same value and shows the same text. -/
theorem userChanMode_again (mode : ParamMode) {near : Server} {rules : ModeRules} {uid : Uid}
    (happ : near.userChanMode rules uid chan key mode.handler true param = some (change, echo)) :
    ∃ text, echo = some text ∧ ∀ far rules' uid',
      userChanMode rules' far uid' chan key mode.handler true (some text) =
        some (change, some text) := by
  have hsh := userChanMode_echo happ
  rw [wantsParam_handler] at hsh
  obtain ⟨text, rfl⟩ := isSome_iff_exists.mp hsh
  refine ⟨text, rfl, fun far _ _ => ?_⟩
  rw [userChanMode_handler] at happ ⊢
  cases mode with
  | key =>
    obtain ⟨word, -, hword, -, rfl, hecho⟩ | ⟨hfalse, -⟩ :=
      @applyKey_cases _ _ near chan key _ _ happ
    · cases hecho
      simp [applyChanMode, handler, hword, setMode]
    · cases hfalse
  | limit =>
    simp only [handler, applyChanMode] at happ ⊢
    refine applyParam_again (fun param => (param.bind parseU32).filter _) happ ?_
    intro number hp
    simpa [parseU32_renderU32] using (filter_eq_some_iff.mp hp).2
  | _ => apply applyChanMode_again happ <;> simp [handler]

theorem userChanMode_again_limit : ∃ text, some "7".toList = some text ∧ ∀ far rules' uid',
    userChanMode rules' far uid' "#c" "#c" limit.handler true (some text) =
      some (Channel.withModes fun modes => { modes with limit := some 7 }, some text) :=
  @userChanMode_again _ _ (some "007".toList) "#c" "#c" limit
    { conf := { name := "a.test", sid := "1AA" }, clock := 100 } {} 1 rfl

end ParamMode

/-! ## Both channels -/

/-- The other server holds the modes of the channel and the status of the members of this one. -/
structure Mirrors (near : Server) (here there : Channel) : Prop where
  modes : there.modes = here.modes
  status : ∀ uid user, near.users.lookup uid = some user → uid ∈ here.members →
    there.rmembers.lookup user.uuid = here.members.lookup uid

structure Seated (near far : Server) (here : Channel) : Prop where
  user : ∀ uid ∈ here.members, ∃ user, near.users.lookup uid = some user ∧
    user.registered = true ∧ far.linkLocalTarget user.uuid = none ∧ user.uuid ∈ far.remoteUsers
  inj : ∀ uid other user member, uid ∈ here.members → other ∈ here.members →
    near.users.lookup uid = some user → near.users.lookup other = some member →
      user.uuid = member.uuid → uid = other

/-- Two servers in the middle of a mode string: only the channel has changed, on both sides
alike. -/
structure Tracked (near far : Server) (key : Str) (here there : Channel)
    (nearNow farNow : Server) : Prop where
  near_eq : ∃ channels, nearNow = { near with channels := channels }
  far_eq : ∃ channels, farNow = { far with channels := channels }
  now : ∃ hereNow thereNow, nearNow.channels.lookup key = some hereNow ∧
    farNow.channels.lookup key = some thereNow ∧ Mirrors near hereNow thereNow ∧
    thereNow.members = there.members ∧ ∀ uid, uid ∈ hereNow.members ↔ uid ∈ here.members

namespace Tracked

variable {near far : Server} {key : Str} {here there : Channel} {nearNow farNow : Server}

section

variable (htrk : Tracked near far key here there nearNow farNow)

include htrk

theorem near_change
    (hs : ∀ channel, (change channel).modes = channel.modes ∧
      (change channel).members = channel.members) :
    Tracked near far key here there (nearNow.changeChannel key change) farNow := by
  obtain ⟨⟨channels, rfl⟩, hfar, hereNow, thereNow, hhere, hth, hmir, hloc, hseats⟩ :=
    htrk
  refine ⟨⟨_, rfl⟩, hfar, change hereNow, thereNow, by simp [hhere], hth, ?_, hloc, ?_⟩
  · constructor
    · rw [(hs hereNow).1, hmir.modes]
    · rw [(hs hereNow).2]
      exact hmir.status
  · rw [(hs hereNow).2]
    exact hseats

theorem far_change
    (hs : ∀ channel, (change channel).modes = channel.modes ∧
      (change channel).members = channel.members ∧
      (change channel).rmembers = channel.rmembers) :
    Tracked near far key here there nearNow (farNow.changeChannel key change) := by
  obtain ⟨hnear, ⟨channels, rfl⟩, hereNow, thereNow, hhere, hth, hmir, hloc, hseats⟩ :=
    htrk
  refine ⟨hnear, ⟨_, rfl⟩, hereNow, change thereNow, hhere, by simp [hth], ?_, ?_, hseats⟩
  · constructor
    · rw [(hs thereNow).1, hmir.modes]
    · rw [(hs thereNow).2.2]
      exact hmir.status
  · rw [(hs thereNow).2.1, hloc]

theorem withModes (store : ChanModes → ChanModes) :
    Tracked near far key here there (nearNow.changeChannel key (withModes store))
      (farNow.changeChannel key (withModes store)) := by
  obtain ⟨⟨channels, rfl⟩, ⟨channels', rfl⟩, hereNow, thereNow, hhere, hth, hmir, hloc,
    hseats⟩ := htrk
  refine ⟨⟨_, rfl⟩, ⟨_, rfl⟩, hereNow.withModes store, thereNow.withModes store, by simp [hhere],
    by simp [hth], ⟨?_, hmir.status⟩, hloc, hseats⟩
  simp [withModes, hmir.modes]

theorem status (hse : Seated near far here) (htgt : target ∈ here.members)
    (hu : near.users.lookup target = some user) (set : Member → Member) :
    Tracked near far key here there
      (nearNow.changeChannel key fun channel =>
        { channel with members := modify target set channel.members })
      (farNow.changeChannel key fun channel =>
        { channel with rmembers := modify user.uuid set channel.rmembers }) := by
  obtain ⟨⟨channels, rfl⟩, ⟨channels', rfl⟩, hereNow, thereNow, hhere, hth, hmir, hloc,
    hseats⟩ := htrk
  refine ⟨⟨_, rfl⟩, ⟨_, rfl⟩,
    { hereNow with members := modify target set hereNow.members },
    { thereNow with rmembers := modify user.uuid set thereNow.rmembers },
    by simp [hhere], by simp [hth], ⟨hmir.modes, ?_⟩, hloc, ?_⟩
  · intro uid member hmb hin
    have hseat : uid ∈ hereNow.members := mem_modify.mp hin
    rw [lookup_modify, lookup_modify]
    by_cases hself : uid = target
    · subst hself
      rw [hu, some.injEq] at hmb
      rw [if_pos rfl, if_pos (by rw [hmb]), hmir.status uid user hu hseat]
    · have ho : member.uuid ≠ user.uuid := by
        intro hs
        exact hself (hse.inj uid target member user ((hseats uid).mp hseat) htgt hmb
          hu hs)
      rw [if_neg hself, if_neg ho, hmir.status uid member hmb hseat]
  · intro uid
    rw [mem_modify]
    exact hseats uid

theorem membersAll (hth : far.channels.lookup key = some there) (test : User → Bool) :
    farNow.membersAll key test = far.membersAll key test := by
  obtain ⟨-, ⟨channels, rfl⟩, hereNow, thereNow, -, hnow, -, hloc, -⟩ := htrk
  simp only [membersAll, hth, hnow, hloc]

end

end Tracked

/-! ## One letter -/

/-- What it takes for a change to arrive: a built-in status letter, members that the handlers of
the other server accept, and a parameter that one word of the line carries. -/
structure ModeChange.Carried (near far : Server) (key : Str) (change : ModeChange) : Prop where
  builtin : change.isStatus near.conf.prefixes = true → change.letter ∈ ("yqaohv" : Str)
  secure : change.adding = true → change.letter = 'z' → far.membersAll key User.secure = true
  encrypted : change.adding = true → change.letter = 'E' → far.membersAll key User.e2e = true
  token : ∀ param ∈ change.relay near, IsToken param

theorem letter_of_chanMode (hmode : chanMode config letter = some mode) :
    (mode = .secureOnly → letter = 'z') ∧ (mode = .encrypted → letter = 'E') ∧
      (mode = .key → letter = 'k') ∧ (mode = .limit → letter = 'l') ∧
      (mode = .redirect → letter = 'L') := by
  unfold chanMode at hmode
  split at hmode
  case h_26 =>
    split at hmode
    · cases hmode
      simp
    · obtain ⟨custom, -, rfl⟩ := map_eq_some_iff.mp hmode
      simp
  all_goals
    cases hmode
    simp

theorem maskKind_of_chanMode (hmode : chanMode config letter = some (.list kind)) :
    maskKind letter = if kind.normalizes then some kind else none := by
  unfold chanMode at hmode
  split at hmode
  case h_26 =>
    split at hmode
    · cases hmode
    · obtain ⟨custom, -, hcustom⟩ := map_eq_some_iff.mp hmode
      cases hcustom
  all_goals cases hmode
  all_goals rfl

theorem setPrefix_builtin (hlet : letter ∈ ("yqaohv" : Str)) (config other : PrefixConfig)
    (adding : Bool) :
    Member.setPrefix config letter adding = Member.setPrefix other letter adding := by
  rcases mem_yqaohv.mp hlet with rfl | rfl | rfl | rfl | rfl | rfl <;> rfl

namespace Tracked

variable {near far : Server} {key : Str} {here there : Channel} {nearNow farNow : Server}
  {rules : ModeRules} {uid : Uid} {chan source : Str} {letter : Char} {mode : ChanMode}
  {adding : Bool} {param echo : Option Str} {change : Channel → Channel}

theorem nickToUuid {nick : Str} (hf : near.findNick nick = some target)
    (hu : near.users.lookup target = some user) : near.nickToUuid nick = user.uuid := by
  simp [Server.nickToUuid, hf, hu]

theorem relay_of_modes (hmode : chanMode near.conf.prefixes letter = some mode)
    (hst : ∀ letter rank, mode ≠ .status letter rank) :
    relay near ⟨adding, letter, echo⟩ = echo := by
  refine relay_of_not_status ?_
  rw [Bool.eq_false_iff]
  intro hisStatus
  obtain ⟨other, rank, hf⟩ := isStatus_iff.mp hisStatus
  cases hf.symm.trans hmode
  exact hst other rank rfl

/-- Having read a letter with the words sent for it, the other server mirrors this one again. -/
def Follows (near far : Server) (key : Str) (here there : Channel) (source chan : Str)
    (nearNext farNow : Server) (words : List Str) (entry : Bool × Char) : Prop :=
  ∀ rest, ∃ farNext, linkModeStep source chan key (farNow, words ++ rest) entry = (farNext, rest) ∧
    Tracked near far key here there nearNext farNext

section

variable (htrk : Tracked near far key here there nearNow farNow)

include htrk

theorem step_status (hse : Seated near far here) {rank : Nat}
    (hmode : chanMode near.conf.prefixes letter = some (.status letter rank))
    (hlet : letter ∈ ("yqaohv" : Str))
    (happ : nearNow.userChanMode rules uid chan key (.status letter rank) adding param =
      some (change, echo)) :
    Follows near far key here there source chan (nearNow.changeChannel key change) farNow
      (relay near ⟨adding, letter, echo⟩).toList (adding, letter) := by
  intro rest
  obtain ⟨nick, target, hf, rfl, ⟨channel, hchan, hin⟩, rfl⟩ := statusBy_cases happ
  obtain ⟨channels, hnear⟩ := htrk.near_eq
  obtain ⟨channels', hfar⟩ := htrk.far_eq
  obtain ⟨hereNow, thereNow, hhere, hth, -, -, hseats⟩ := htrk.now
  rw [hhere, some.injEq] at hchan
  rw [← hchan, hseats] at hin
  obtain ⟨user, hu, -, hloc, hrem⟩ := hse.user target hin
  have hrelay : relay near ⟨adding, letter, some nick⟩ = some user.uuid := by
    have hst : isStatus near.conf.prefixes ⟨adding, letter, some nick⟩ = true :=
      isStatus_iff.mpr ⟨_, _, hmode⟩
    have hnick : near.findNick nick = some target := by
      rw [hnear] at hf
      exact hf
    simp [relay, hst, nickToUuid hnick hu]
  have hlocalNow : farNow.linkLocalTarget user.uuid = none := by
    rw [hfar]
    exact hloc
  have hremoteNow : user.uuid ∈ farNow.remoteUsers := by
    rw [hfar]
    exact hrem
  have hconf : nearNow.conf = near.conf := by rw [hnear]
  rw [hrelay, toList_some, singleton_append, linkModeStep_status hlet]
  refine ⟨_, rfl, ?_⟩
  simp only [setMemberPrefix, hlocalNow, hremoteNow, if_true, hconf]
  rw [setPrefix_builtin hlet farNow.conf.prefixes near.conf.prefixes]
  exact htrk.status hse hin hu _

theorem step_list (hmode : chanMode near.conf.prefixes letter = some (.list kind))
    (happ : nearNow.userChanMode rules uid chan key (.list kind) adding param =
      some (change, echo)) :
    Follows near far key here there source chan (nearNow.changeChannel key change) farNow
      (relay near ⟨adding, letter, echo⟩).toList (adding, letter) := by
  intro rest
  have hs : ∀ (store : List Ban → List Ban) (channel : Channel),
      (channel.setList kind store).modes = channel.modes ∧
        (channel.setList kind store).members = channel.members ∧
        (channel.setList kind store).rmembers = channel.rmembers :=
    fun _ _ => ⟨rfl, rfl, rfl⟩
  obtain ⟨mask, rfl, hchg⟩ : ∃ mask, echo = some mask ∧
      ∃ store, change = setList kind store := by
    obtain ⟨mask, channel, -, -, rfl, ⟨-, -, setter, rfl⟩ | ⟨-, rfl⟩⟩ := listBy_cases happ
    all_goals exact ⟨_, rfl, _, rfl⟩
  obtain ⟨store, rfl⟩ := hchg
  have hnear := htrk.near_change fun channel =>
    ⟨(hs store channel).1, (hs store channel).2.1⟩
  have hrelay : relay near ⟨adding, letter, some mask⟩ = some mask := by
    simp [relay, isStatus, hmode]
  have hst : letter ∉ ("yqaohv" : Str) := not_status_letter hmode (by simp)
  rw [hrelay, toList_some, singleton_append]
  have hmask := maskKind_of_chanMode hmode
  cases hnormal : kind.normalizes with
  | true =>
    rw [if_pos hnormal] at hmask
    obtain ⟨setter, hstep⟩ := @linkModeStep_mask source chan key farNow letter adding kind
      hmask mask rest
    exact ⟨_, hstep, hnear.far_change (hs _)⟩
  | false =>
    have hhan := @linkModeStep_handler source chan key farNow letter adding _
      (chanMode_congr hmode (by simp) _) hst (by simp) (by simp)
      (by
        rintro other ho ⟨⟩
        rw [hnormal] at ho
        cases ho) (mask :: rest)
    refine ⟨_, hhan, ?_⟩
    cases happl : farNow.applyChanMode chan key (.list kind) adding
        (if (ChanMode.list kind).wantsParam adding then (mask :: rest).head? else none) with
    | none => exact hnear
    | some applied =>
      obtain ⟨changed, said⟩ := applied
      cases applyChanMode_edit happl with
      | list _ store => exact hnear.far_change (hs store)
      | modes _ hlist _ => exact absurd rfl (hlist kind)

theorem step_key (happ : nearNow.applyChanMode chan key .key adding param = some (change, echo)) :
    Follows near far key here there source chan (nearNow.changeChannel key change) farNow
      echo.toList (adding, 'k') := by
  intro rest
  obtain ⟨_, -, -, rfl, rfl, rfl⟩ | ⟨rfl, rfl, rfl⟩ := applyKey_cases happ <;>
    exact ⟨_, rfl, htrk.withModes _⟩

theorem step_limit
    (happ : nearNow.applyChanMode chan key .limit adding param = some (change, echo)) :
    Follows near far key here there source chan (nearNow.changeChannel key change) farNow
      echo.toList (adding, 'l') := by
  intro rest
  simp only [applyChanMode] at happ
  obtain ⟨value, rfl, rfl, rfl, -⟩ := applyParam_cases happ
  cases value with
  | none => exact ⟨_, rfl, htrk.withModes _⟩
  | some number =>
    refine ⟨farNow.changeChannel key (Channel.withModes fun modes =>
      { modes with limit := some number }), ?_, htrk.withModes _⟩
    simp only [map_some, toList_some, singleton_append, isSome_some]
    rw [linkModeStep, if_neg (by decide), if_neg (by decide), if_pos rfl, if_pos rfl]
    simp only [head?_cons, bind_some, parseU32_renderU32, tail_cons]

theorem step_handler (hmode : chanMode near.conf.prefixes letter = some mode)
    (hst : ∀ letter rank, mode ≠ .status letter rank) (hlist : ∀ kind, mode ≠ .list kind)
    (hkey : mode ≠ .key) (hlim : mode ≠ .limit)
    (hsecure : mode = .secureOnly → adding = true → farNow.membersAll key User.secure = true)
    (henc : mode = .encrypted → adding = true → farNow.membersAll key User.e2e = true)
    (hecho : echo.isSome = mode.wantsParam adding)
    (happ : nearNow.applyChanMode chan key mode adding param = some (change, echo)) :
    Follows near far key here there source chan (nearNow.changeChannel key change) farNow
      echo.toList (adding, letter) := by
  intro rest
  have hlet := not_status_letter hmode hst
  have hhan := @linkModeStep_handler source chan key farNow letter adding mode
    (chanMode_congr hmode (hst letter) _) hlet hkey hlim (fun kind _ => hlist kind)
    (echo.toList ++ rest)
  have hprm : (if mode.wantsParam adding then (echo.toList ++ rest).head? else none) = echo := by
    cases echo <;> simp [← hecho]
  have hrest : (if mode.wantsParam adding then (echo.toList ++ rest).tail
      else echo.toList ++ rest) = rest := by
    cases echo <;> simp [← hecho]
  rw [hprm, hrest, applyChanMode_again happ hst hlist hkey hlim hsecure henc]
    at hhan
  refine ⟨_, hhan, ?_⟩
  cases applyChanMode_edit happ with
  | status letter rank target _ => exact absurd rfl (hst letter rank)
  | list kind _ => exact absurd rfl (hlist kind)
  | modes _ _ store => exact htrk.withModes store

theorem step (source : Str)
    (hse : Seated near far here) (hth : far.channels.lookup key = some there)
    (hmode : chanMode near.conf.prefixes letter = some mode)
    (hcar : Carried near far key ⟨adding, letter, echo⟩)
    (happ : nearNow.userChanMode rules uid chan key mode adding param = some (change, echo)) :
    Follows near far key here there source chan (nearNow.changeChannel key change) farNow
      (relay near ⟨adding, letter, echo⟩).toList (adding, letter) := by
  by_cases hst : ∃ other rank, mode = .status other rank
  · obtain ⟨other, rank, rfl⟩ := hst
    have hlet := hcar.builtin (isStatus_iff.mpr ⟨other, rank, hmode⟩)
    obtain ⟨same, hs⟩ := chanMode_of_status_letter hlet hmode
    cases hs
    exact htrk.step_status hse hmode hlet happ
  · simp only [not_exists] at hst
    by_cases hlist : ∃ kind, mode = .list kind
    · obtain ⟨kind, rfl⟩ := hlist
      exact htrk.step_list hmode happ
    · simp only [not_exists] at hlist
      have hecho := userChanMode_echo happ
      obtain ⟨hz, hE, hk, hl, -⟩ := letter_of_chanMode hmode
      have happ := applyChanMode_of_userChanMode hst hlist happ
      rw [relay_of_modes hmode hst]
      by_cases hkey : mode = .key
      · rw [hk hkey]
        rw [hkey] at happ
        exact htrk.step_key happ
      · by_cases hlim : mode = .limit
        · rw [hl hlim]
          rw [hlim] at happ
          exact htrk.step_limit happ
        · refine htrk.step_handler hmode hst hlist hkey hlim ?_ ?_ hecho happ
          · intro hsecure hadd
            rw [htrk.membersAll hth]
            exact hcar.secure hadd (hz hsecure)
          · intro henc hadd
            rw [htrk.membersAll hth]
            exact hcar.encrypted hadd (hE henc)

end

/-- Change after change: the reader makes those of the loop and uses up their parameters. -/
theorem steps {changes : List ModeChange} {nearNext : Server}
    (htrk : Tracked near far key here there nearNow farNow)
    (source : Str) (hse : Seated near far here) (hth : far.channels.lookup key = some there)
    (hmade : Made rules uid chan key nearNow changes nearNext)
    (hcar : ∀ change ∈ changes, change.Carried near far key) (rest : List Str) :
    ∃ farNext, (changes.map entry).foldl (linkModeStep source chan key)
          (farNow, relayed near changes ++ rest) = (farNext, rest) ∧
      Tracked near far key here there nearNext farNext := by
  induction hmade generalizing farNow with
  | nil => exact ⟨farNow, rfl, htrk⟩
  | @cons nearNow _ mode param edit change changes hmode happ hlat ih =>
    rw [forall_mem_cons] at hcar
    obtain ⟨channels, hnear⟩ := htrk.near_eq
    have hconf : nearNow.conf = near.conf := by rw [hnear]
    rw [hconf] at hmode
    obtain ⟨farMid, hread, hmid⟩ := htrk.step source hse hth hmode hcar.1 happ
      (relayed near changes ++ rest)
    obtain ⟨farNext, hrds, hnext⟩ := ih hmid hcar.2
    refine ⟨farNext, ?_, hnext⟩
    rw [relayed_cons, append_assoc, map_cons, foldl_cons]
    simp only [entry] at hread ⊢
    rw [hread]
    exact hrds

end Tracked

end EchoIrcd
