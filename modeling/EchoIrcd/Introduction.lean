import EchoIrcd.Lib.Session
import EchoIrcd.Speech
import EchoIrcd.Privilege

/-!
# Users are introduced before they are mentioned

On each link the lines about a user belong between the `UID` line that
introduces it and the `QUIT` line that retires it.  Registration announces a
user only when its queued hook is drained, after its automatic modes and joins
and after the held lines of the same connection; these send lines about a user
no link has heard of.  A run in which registration sends nothing of the kind,
or happens while no link is up, keeps the order on every link.
-/

namespace EchoIrcd

open Str Server Table Option List

variable {out : Out} {key sid uuid : Str} {uid : Uid} {user : User} {channel : Channel}
  {outs : List Out} (env : Env)

/-- A `UID` line opens a uuid, a `QUIT` line closes it. -/
def Out.session : Session Out Str where
  opens := Out.introduced
  closes := Out.retired
  Uses := Out.Names

instance (out : Out) (uuid : Str) : Decidable (Out.session.Uses out uuid) :=
  inferInstanceAs (Decidable (out.Names uuid))

/-- The SID followed by six capital letters, as `next_uuid` builds it. -/
def IsUuid (sid uuid : Str) : Prop :=
  ∃ suffix, uuid = sid ++ suffix ∧ suffix.length = 6 ∧ suffix.all Char.isUpper

theorem IsUuid.isCaps (huuid : IsUuid sid uuid)
    (hsid : validSid sid = true) : isCaps uuid = true := by
  obtain ⟨suffix, rfl, _, hsuf⟩ := huuid
  simp only [validSid, decide_eq_true_eq] at hsid
  rw [Str.isCaps, all_append, Bool.and_eq_true]
  refine ⟨hsid.2.2, all_eq_true.mpr fun char hchar => ?_⟩
  simp [all_eq_true.mp hsuf char hchar]

theorem IsUuid.ne_sid (huuid : IsUuid sid uuid) : uuid ≠ sid := by
  obtain ⟨suffix, rfl, hlen, _⟩ := huuid
  intro heq
  have hs := congrArg length heq
  simp only [length_append] at hs
  omega

/-! ## Minting ids -/

/-- The last base-26 digits of the counter, as capital letters. -/
def uuidSuffix : Nat → Nat → Str
  | 0, _ => []
  | width + 1, counter => uuidSuffix width (counter / 26) ++ [Char.ofNat ('A'.toNat + counter % 26)]

abbrev Server.Unused (server : Server) (uuid : Str) : Prop :=
  uuid ∉ server.uuidLocal ∧ uuid ∉ server.remoteUsers

/-- The loop of `next_uuid`; the counter wraps around as in a release build. -/
def Server.nextUuid (server : Server) : Nat → UInt64 → Option (Str × UInt64)
  | 0, _ => none
  | fuel + 1, counter =>
    let uuid := server.conf.sid ++ uuidSuffix 6 counter.toNat
    if server.Unused uuid then some (uuid, counter + 1) else server.nextUuid fuel (counter + 1)

theorem uuidSuffix_letters (width counter : Nat) :
    (uuidSuffix width counter).length = width ∧ (uuidSuffix width counter).all Char.isUpper := by
  have hlet : ∀ digit < 26, (Char.ofNat (65 + digit)).isUpper = true := by decide
  induction width generalizing counter with
  | zero => exact ⟨rfl, rfl⟩
  | succ width ih => simp [uuidSuffix, ih, hlet _ (Nat.mod_lt counter _)]

theorem exists_uuidSuffix {suffix : Str} (hupper : suffix.all Char.isUpper) :
    ∃ counter < 26 ^ suffix.length, uuidSuffix suffix.length counter = suffix := by
  induction suffix using reverseRecOn with
  | nil => exact ⟨0, by decide, rfl⟩
  | append_singleton suffix letter ih =>
    rw [all_append, Bool.and_eq_true] at hupper
    obtain ⟨counter, hbd, hctr⟩ := ih hupper.1
    obtain ⟨hlow, hhigh⟩ := isUpper_iff.mp (by simpa using hupper.2)
    rw [length_append, length_singleton, Nat.pow_succ]
    refine ⟨26 * counter + (letter.toNat - 65), by omega, ?_⟩
    have hrest : (26 * counter + (letter.toNat - 65)) / 26 = counter := by omega
    have hlast : 65 + (26 * counter + (letter.toNat - 65)) % 26 = letter.toNat := by omega
    rw [uuidSuffix, hrest, hctr, show 'A'.toNat = 65 from rfl, hlast, Char.ofNat_toNat]

theorem nextUuid_isSome {server : Server} (steps : Nat) {counter : UInt64}
    (huns : server.Unused (server.conf.sid ++ uuidSuffix 6 (counter + .ofNat steps).toNat)) :
    (server.nextUuid (steps + 1) counter).isSome := by
  induction steps generalizing counter with
  | zero =>
    rw [show UInt64.ofNat 0 = 0 from rfl, UInt64.add_zero] at huns
    rw [nextUuid, if_pos huns]
    rfl
  | succ steps ih =>
    rw [UInt64.ofNat_add, UInt64.add_comm (.ofNat steps), ← UInt64.add_assoc] at huns
    rw [nextUuid]
    split
    · rfl
    · exact ih huns

theorem nextUuid_spec {server : Server} {fuel : Nat} {counter next : UInt64}
    (hminted : server.nextUuid fuel counter = some (uuid, next)) :
    IsUuid server.conf.sid uuid ∧ server.Unused uuid := by
  induction fuel generalizing counter with
  | zero => cases hminted
  | succ fuel ih =>
    rw [nextUuid] at hminted
    split at hminted
    · rename_i huns
      cases hminted
      exact ⟨⟨_, rfl, uuidSuffix_letters ..⟩, huns⟩
    · exact ih hminted

/-- As long as some id is unused an unused one is found, wherever the counter stands. -/
theorem nextUuid_unused (server : Server) (counter : UInt64) {free : Str}
    (hfree : IsUuid server.conf.sid free) (huns : server.Unused free) :
    ∃ fuel uuid next, server.nextUuid fuel counter = some (uuid, next) ∧
      IsUuid server.conf.sid uuid ∧ (uuid.length = 9 ↔ server.conf.sid.length = 3) ∧
      server.Unused uuid := by
  obtain ⟨suffix, rfl, hlen, hupper⟩ := hfree
  obtain ⟨target, hbd, hsuf⟩ := exists_uuidSuffix hupper
  rw [hlen] at hbd hsuf
  -- the counter reaches the number of the unused id, if need be by wrapping around
  have hr : counter + .ofNat (.ofNat target - counter : UInt64).toNat = .ofNat target := by
    rw [UInt64.ofNat_toNat, UInt64.add_comm, UInt64.sub_add_cancel]
  have htgt : (UInt64.ofNat target).toNat = target :=
    UInt64.toNat_ofNat_of_lt' (hbd.trans (by decide))
  rw [← hsuf, ← htgt, ← hr] at huns
  obtain ⟨⟨uuid, next⟩, hminted⟩ := isSome_iff_exists.mp (nextUuid_isSome _ huns)
  obtain ⟨huuid, hspare⟩ := nextUuid_spec hminted
  refine ⟨_, uuid, next, hminted, huuid, ?_, hspare⟩
  obtain ⟨suffix, rfl, hsix, -⟩ := huuid
  rw [length_append, hsix]
  omega

theorem nextUuid_unused_hostileLink :
    ∃ fuel uuid next, hostileLink.nextUuid fuel 0 = some (uuid, next) ∧
      IsUuid hostileLink.conf.sid uuid ∧ (uuid.length = 9 ↔ hostileLink.conf.sid.length = 3) ∧
      hostileLink.Unused uuid :=
  nextUuid_unused hostileLink 0 ⟨"ZZZZZZ", rfl, rfl, rfl⟩ (by decide)

/-! ## Runs -/

inductive Action where
  | nick (newnick : Str)
  | join (name : Str)
  | part (target reason : Str)
  | quit (reason : Str)

inductive Event where
  /-- a client connects -/
  | connect (uid : Uid) (user : User)
  /-- the lines of one connection -/
  | act (uid : Uid) (actions : List Action)
  /-- an operator or a service forces a join (`SAJOIN`, `SVSJOIN`), registered or not -/
  | forceJoin (uid : Uid) (name : Str)
  /-- registration completes, and the lines held back meanwhile are replayed -/
  | register (uid : Uid) (held : List Action)
  | openLink (uid : Uid) (ip : Str) (outbound : Bool)
  /-- a `SERVER` line arrives on a link -/
  | server (uid : Uid) (message : Message)
  | closeLink (uid : Uid)

namespace Server

def isEnrolled (server : Server) (uid : Uid) : Bool :=
  match server.users.lookup uid with
  | some user => user.registered
  | none => false

/-- A command of `uid`; only NICK and QUIT are open to an unregistered one. -/
def perform (env : Env) (uid : Uid) (server : Server) : Action → Server
  | .nick newnick => server.setNick uid newnick
  | .join name => if server.isEnrolled uid then server.join env uid name else server
  | .part target reason =>
    if server.isEnrolled uid then server.part uid target reason else server
  | .quit reason => server.removeUser uid reason

def performAll (env : Env) (uid : Uid) (actions : List Action)
    (server : Server) : Server :=
  actions.foldl (perform env uid) server

@[simps]
def addConn (uid : Uid) (user : User) (server : Server) : Server :=
  { server with
    users := server.users.insert uid user
    uuidLocal := server.uuidLocal.insert user.uuid uid }

end Server

namespace Event

def Enabled (server : Server) : Event → Prop
  | .connect uid user =>
    uid ∉ server.users ∧ user.uuid ∉ server.uuidLocal ∧
      IsUuid server.conf.sid user.uuid ∧ user.registered = false
  | .act _ _ | .forceJoin _ _ => True
  | .register uid _ =>
    ∃ user, server.users.lookup uid = some user ∧ user.registered = false
  | .openLink uid _ _ => uid ∉ server.links ∧ server.linesTo uid = []
  | .server uid message => uid ∈ server.links ∧ message.command = Verb.server.word
  | .closeLink _ => True

def apply (env : Env) (server : Server) : Event → Server
  | .connect uid user => server.addConn uid user
  | .act uid actions => server.performAll env uid actions
  | .forceJoin uid name => server.join env uid name
  | .register uid held => (server.welcome env uid).performAll env uid held
  | .openLink uid ip outbound => server.addLink uid ip outbound
  | .server uid message => server.onLink env uid message
  | .closeLink uid => server.closeLink uid

def run (env : Env) (now : Timestamp) (event : Event) (server : Server) :
    Server :=
  (event.apply env { server with clock := now }).drainHooks env

end Event

def EventStep (env : Env) (before after : Server) : Prop :=
  ∃ (now : Timestamp) (event : Event), event.Enabled before ∧
    after = event.run env now before

structure Boot (server : Server) : Prop where
  sid : validSid server.conf.sid = true
  users : server.users = ∅
  links : server.links = ∅
  sent : server.sent = []
  events : server.events = []
  members : ∀ uid key, server.isMember uid key = false
  rmembers : ∀ key uuid, server.isRemoteMember key uuid = false

/-! ## Registrations that keep the order -/

namespace Server

def enroll (uid : Uid) (server : Server) : Server :=
  (server.markRegistered uid).queueHook (.connect uid)

def Refused (env : Env) (uid : Uid) (server : Server) : Action → Prop
  | .join name => ∀ target, env.joinGate server uid name = some target →
      server.mayJoin uid target = false
  | .part target _ => server.isOn uid (toAsciiLower target) = false
  | .nick _ | .quit _ => False

/-- Nothing about `uid` is said between its registration and its hook. -/
structure Quiet (env : Env) (uid : Uid) (held : List Action)
    (server : Server) : Prop where
  umodes : ∀ modes, server.conf.connUmodes = some modes →
    ∀ entry ∈ signedLetters true modes, ∀ flag,
      UserFlag.ofLetter entry.2 = some flag →
      (server.markRegistered uid).applyUserMode uid flag entry.1 = none
  autojoin : ∀ name ∈ server.conf.autojoin,
    (server.enroll uid).Refused env uid (.join name)
  held : ∀ action ∈ held, (server.enroll uid).Refused env uid action

end Server

def Event.Calm (env : Env) (now : Timestamp) (server : Server) : Event → Prop
  | .register uid held =>
    (∀ link, server.isRegistered link = false) ∨
      Quiet env uid held { server with clock := now }
  | .forceJoin uid name =>
    server.isEnrolled uid = true ∨ Refused env uid { server with clock := now } (.join name)
  | _ => True

def CalmStep (env : Env) (before after : Server) : Prop :=
  ∃ (now : Timestamp) (event : Event), event.Enabled before ∧
    event.Calm env now before ∧ after = event.run env now before

/-! ## The invariant -/

/--
The lines of every link are in order, and registered users are known there,
with the possible exception of one whose hook is about to run.
-/
structure IntroducedBut (pending : Option Uid) (server : Server) : Prop where
  sid : validSid server.conf.sid = true
  orderly : ∀ link uuid, uuid ≠ server.conf.sid →
    Out.session.Orderly uuid false (server.linesTo link)
  known : ∀ link, server.isRegistered link = true → ∀ uid user,
    some uid ≠ pending → server.users.lookup uid = some user →
    user.registered = true →
    Out.session.openAfter user.uuid false (server.linesTo link) = true
  uuids : ∀ uid user, server.users.lookup uid = some user →
    server.uuidLocal.lookup user.uuid = some uid ∧
      IsUuid server.conf.sid user.uuid
  members : ∀ uid key, server.isMember uid key = true →
    server.IsEnrolled uid ∧ server.isOn uid key = true
  rmembers : ∀ key uuid, server.isRemoteMember key uuid = false

abbrev Introduced (server : Server) : Prop := IntroducedBut none server

variable {server after : Server} {uid : Uid}

theorem Introduced.identity_eq_some {server : Server} {registered : Bool} :
    (server.users.lookup uid).map User.identity = some (uuid, registered) ↔
      ∃ user, server.users.lookup uid = some user ∧ user.uuid = uuid ∧
        user.registered = registered := by
  simp [User.identity, map_eq_some_iff]

theorem IntroducedBut.of_people {pending : Option Uid} (hinv : IntroducedBut pending server)
    (hconf : after.conf = server.conf) (hloc : after.uuidLocal = server.uuidLocal)
    (hpeople : ∀ other, (after.users.lookup other).map User.identity =
      (server.users.lookup other).map User.identity)
    (hmems : ∀ other key, after.isMember other key = true →
      after.IsEnrolled other ∧ after.isOn other key = true)
    (hrm : ∀ key uuid, after.isRemoteMember key uuid = false)
    (hord : ∀ link uuid, uuid ≠ server.conf.sid →
      Out.session.Orderly uuid false (after.linesTo link))
    (hkn : ∀ link, after.isRegistered link = true → ∀ uid user, some uid ≠ pending →
      server.users.lookup uid = some user → user.registered = true →
      Out.session.openAfter user.uuid false (after.linesTo link) = true) :
    IntroducedBut pending after where
  sid := by rw [hconf]; exact hinv.sid
  orderly := by rw [hconf]; exact hord
  known := by
    intro link hlink uid user hne hu hreg
    obtain ⟨earlier, hprev, huuid, hreg'⟩ := Introduced.identity_eq_some.mp
      ((hpeople uid).symm.trans (Introduced.identity_eq_some.mpr ⟨user, hu, rfl, rfl⟩))
    rw [← huuid]
    exact hkn link hlink uid earlier hne hprev (hreg'.trans hreg)
  uuids := by
    intro uid user hu
    obtain ⟨earlier, hprev, huuid, _⟩ := Introduced.identity_eq_some.mp
      ((hpeople uid).symm.trans (Introduced.identity_eq_some.mpr ⟨user, hu, rfl, rfl⟩))
    rw [hloc, hconf, ← huuid]
    exact hinv.uuids uid earlier hprev
  members := hmems
  rmembers := hrm

namespace Introduced

section

variable (hinv : Introduced server)

include hinv

/-- The membership part of the invariant after an action of `uid`. -/
theorem acts_members (hacts : Acts uid outs server after) (other : Uid) (key : Str)
    (hmb : after.isMember other key = true) :
    after.IsEnrolled other ∧ after.isOn other key = true := by
  have hst : server.IsEnrolled other ∧ after.isOn other key = true := by
    rcases hacts.members hmb with ⟨hprev, hon⟩ | ⟨rfl, henr, hon⟩
    · obtain ⟨henr, hsta⟩ := hinv.members other key hprev
      exact ⟨henr, hon hsta⟩
    · exact ⟨henr, hon⟩
  obtain ⟨⟨uuid, huuid⟩, hon⟩ := hst
  exact ⟨⟨uuid, (hacts.people other).trans huuid⟩, hon⟩

theorem acts_rmembers (hacts : Acts uid outs server after)
    (key uuid : Str) : after.isRemoteMember key uuid = false := by
  have hprev := hinv.rmembers key uuid
  cases haft : after.isRemoteMember key uuid with
  | false => rfl
  | true =>
    rw [hacts.rmembers haft] at hprev
    cases hprev

theorem speaks (hspeaks : Speaks uid server after) : Introduced after := by
  obtain ⟨outs, hacts, houts⟩ := hspeaks
  have hneutral : ∀ uuid, ∀ out ∈ outs, Out.session.opens out ≠ some uuid ∧
      Out.session.closes out ≠ some uuid := by
    intro uuid out hout
    simp [Out.session, (houts out hout).introduced, (houts out hout).retired]
  refine hinv.of_people hacts.conf hacts.uuidLocal hacts.people
    (hinv.acts_members hacts) (hinv.acts_rmembers hacts) ?_ ?_
  · intro link uuid huuid
    rw [hacts.lines]
    split
    · rename_i hlink
      rw [Session.orderly_append]
      refine ⟨hinv.orderly link uuid huuid, ?_⟩
      by_cases hself : (server.users.lookup uid).map User.identity =
          some (uuid, true)
      · -- the acting user is known on the link
        obtain ⟨user, hu, rfl, hreg⟩ := identity_eq_some.mp hself
        rw [hinv.known link hlink uid user (by simp) hu hreg]
        exact Session.orderly_of_open fun out hout => (hneutral _ out hout).2
      · refine Session.orderly_of_unused fun out hout hnms => ?_
        rcases (houts out hout).names uuid hnms with hsid | hactor
        · exact huuid hsid
        · exact hself hactor
    · simpa using hinv.orderly link uuid huuid
  · intro link hlink uid user hne hu hreg
    rw [hacts.isRegistered] at hlink
    rw [hacts.lines, if_pos hlink, Session.openAfter_append,
      Session.openAfter_of_neutral (hneutral user.uuid)]
    exact hinv.known link hlink uid user hne hu hreg

end

/-! ## Departure -/

private theorem leaveChannels_lookup
    (hchan : (server.leaveChannels uid user).channels.lookup key = some channel) :
    ∃ earlier, server.channels.lookup key = some earlier ∧
      (∀ other ∈ channel.members, other ∈ earlier.members ∧ ¬(other = uid ∧ key ∈ user.channels)) ∧
      channel.rmembers = earlier.rmembers := by
  rw [leaveChannels, lookup_reapChannels, lookup_mapValues] at hchan
  obtain ⟨earlier, hprev, rfl⟩ := map_eq_some_iff.mp hchan.1
  refine ⟨earlier, hprev, fun other ho => ?_, rfl⟩
  split at ho
  · obtain ⟨hne, hin⟩ := AList.mem_erase.mp ho
    exact ⟨hin, fun hboth => hne hboth.1⟩
  · rename_i hkey
    exact ⟨ho, fun hboth => hkey hboth.2⟩

section

variable (hinv : Introduced server)

include hinv

section

variable (hu : server.users.lookup uid = some user)

include hu

private theorem removeUser_lookup (reason : Str)
    (hchan : (server.removeUser uid reason).channels.lookup key = some channel) :
    ∃ earlier, server.channels.lookup key = some earlier ∧
      (∀ other ∈ channel.members, other ∈ earlier.members ∧ other ≠ uid) ∧
      channel.rmembers = earlier.rmembers := by
  rw [removeUser_channels hu] at hchan
  split at hchan
  · obtain ⟨earlier, hprev, hmems, hrm⟩ :=
      leaveChannels_lookup hchan
    refine ⟨earlier, hprev, fun other ho => ?_, hrm⟩
    obtain ⟨hin, hleft⟩ := hmems other ho
    refine ⟨hin, ?_⟩
    rintro rfl
    -- the departed is on every channel it is a member of
    obtain ⟨_, hon⟩ := hinv.members other key
      (isMember_iff.mpr ⟨earlier, hprev, hin⟩)
    obtain ⟨found, hf, hkey⟩ := isOn_iff.mp hon
    rw [hu, some.injEq] at hf
    exact hleft ⟨rfl, hf ▸ hkey⟩
  · rename_i hreg
    refine ⟨channel, hchan, fun other ho => ⟨ho, ?_⟩, rfl⟩
    rintro rfl
    obtain ⟨⟨uuid, huuid⟩, _⟩ := hinv.members other key
      (isMember_iff.mpr ⟨channel, hchan, ho⟩)
    obtain ⟨found, hf, _, hf'⟩ := identity_eq_some.mp huuid
    rw [hu, some.injEq] at hf
    exact hreg (hf ▸ hf')

theorem uuid_injective {other : Uid} {user' : User}
    (hu' : server.users.lookup other = some user')
    (huuid : user'.uuid = user.uuid) : other = uid := by
  have hloc := (hinv.uuids uid user hu).1
  rw [← huuid, (hinv.uuids other user' hu').1] at hloc
  exact some.inj hloc

private theorem removeUser_lines (reason : Str) (link : Uid) :
    (∀ uuid, uuid ≠ server.conf.sid → Out.session.Orderly uuid false
      ((server.removeUser uid reason).linesTo link)) ∧
    ∀ uuid, uuid ≠ user.uuid → Out.session.openAfter uuid false
      ((server.removeUser uid reason).linesTo link) =
        Out.session.openAfter uuid false (server.linesTo link) := by
  rw [linesTo_removeUser hu]
  split
  · rename_i hquits
    constructor
    · intro uuid huuid
      rw [Session.orderly_append]
      refine ⟨hinv.orderly link uuid huuid, fun hnms => ?_, trivial⟩
      rcases hnms with hsrc | hlst
      · have huuid' : user.uuid = uuid := some.inj hsrc
        rw [← huuid']
        exact hinv.known link hquits.2 uid user (by simp) hu hquits.1
      · cases hlst
    · intro uuid huuid
      rw [Session.openAfter_append]
      refine Session.openAfter_of_neutral fun out hout => ?_
      rw [mem_singleton] at hout
      subst hout
      simpa [Out.session, Out.introduced, Out.retired] using Ne.symm huuid
  · rw [append_nil]
    exact ⟨fun uuid huuid => hinv.orderly link uuid huuid, fun _ _ => rfl⟩

end

theorem removeUser (uid : Uid) (reason : Str) : Introduced (server.removeUser uid reason) := by
  cases hu : server.users.lookup uid with
  | none =>
    have hs : server.removeUser uid reason = server := by
      simp [Server.removeUser, hu]
    rw [hs]
    exact hinv
  | some user =>
    have hfr : Harmless 0 server (server.removeUser uid reason) :=
      server.removeUser_harmless uid reason
    have hls := hinv.removeUser_lines hu reason
    have hplace : ∀ other, ((server.removeUser uid reason).users.lookup
        other).map User.place = if other = uid then none
          else (server.users.lookup other).map User.place :=
      Server.map_removeUser fun _ _ => rfl
    have hid : ∀ other, ((server.removeUser uid reason).users.lookup
        other).map User.identity = if other = uid then none
          else (server.users.lookup other).map User.identity :=
      Server.map_removeUser fun _ _ => rfl
    -- whoever is left was there before under another uuid
    have hst : ∀ {other left}, (server.removeUser uid reason).users.lookup
        other = some left → other ≠ uid ∧ ∃ earlier,
          server.users.lookup other = some earlier ∧
            earlier.uuid = left.uuid ∧ earlier.registered = left.registered ∧
            left.uuid ≠ user.uuid := by
      intro other left hleft
      have ho := hid other
      rw [identity_eq_some.mpr ⟨left, hleft, rfl, rfl⟩] at ho
      split at ho
      · cases ho
      · rename_i hne
        obtain ⟨earlier, hprev, huuid, hreg⟩ := identity_eq_some.mp ho.symm
        refine ⟨hne, earlier, hprev, huuid, hreg, fun hclash => ?_⟩
        exact hne (hinv.uuid_injective hu hprev (huuid.trans hclash))
    refine ⟨by rw [hfr.conf]; exact hinv.sid, ?_, ?_, ?_, ?_, ?_⟩
    · rw [hfr.conf]
      exact fun link uuid huuid => (hls link).1 uuid huuid
    · intro link hlink other left _ hleft hreg
      have hlink' : server.isRegistered link = true := by
        simpa [Server.isRegistered, hfr.links] using hlink
      obtain ⟨_, earlier, hprev, huuid, hreg', hne⟩ := hst hleft
      rw [(hls link).2 left.uuid hne, ← huuid]
      exact hinv.known link hlink' other earlier (by simp) hprev
        (hreg'.trans hreg)
    · intro other left hleft
      obtain ⟨_, earlier, hprev, huuid, _, hne⟩ := hst hleft
      rw [hfr.conf, Server.removeUser_uuidLocal hu, AList.lookup_erase_ne hne, ← huuid]
      exact hinv.uuids other earlier hprev
    · intro other key hmb
      obtain ⟨channel, hchan, hin⟩ := Server.isMember_iff.mp hmb
      obtain ⟨earlier, hprev, hmems, _⟩ := hinv.removeUser_lookup hu reason hchan
      obtain ⟨hin', hne⟩ := hmems other hin
      obtain ⟨⟨uuid, huuid⟩, hon⟩ := hinv.members other key
        (Server.isMember_iff.mpr ⟨earlier, hprev, hin'⟩)
      refine ⟨⟨uuid, (hid other).trans (by rw [if_neg hne, huuid])⟩, ?_⟩
      rw [Server.isOn_congr ((hplace other).trans (if_neg hne))]
      exact hon
    · intro key uuid
      cases hmb : (server.removeUser uid reason).isRemoteMember key uuid with
      | false => rfl
      | true =>
        obtain ⟨channel, hchan, hin⟩ := Server.isRemoteMember_iff.mp hmb
        obtain ⟨earlier, hprev, _, hrm⟩ := hinv.removeUser_lookup hu reason hchan
        have hnone := hinv.rmembers key uuid
        rw [Server.isRemoteMember_iff.mpr ⟨earlier, hprev, hrm ▸ hin⟩] at hnone
        cases hnone

/-! ## Arrival -/

theorem addConn (huid : uid ∉ server.users) (hfre : user.uuid ∉ server.uuidLocal)
    (huuid : IsUuid server.conf.sid user.uuid)
    (hreg : user.registered = false) : Introduced (server.addConn uid user) := by
  have ho : ∀ {other}, other ≠ uid →
      (server.addConn uid user).users.lookup other = server.users.lookup other :=
    fun hne => AList.lookup_insert_ne hne
  refine ⟨hinv.sid, fun link => hinv.orderly link, ?_, ?_, ?_, hinv.rmembers⟩
  · intro link hlink other found _ hf hf'
    obtain ⟨-, rfl⟩ | ⟨-, hf⟩ := of_lookup_insert hf
    · rw [hreg] at hf'
      cases hf'
    · exact hinv.known link hlink other found (by simp) hf hf'
  · intro other found hf
    obtain ⟨rfl, rfl⟩ | ⟨-, hf⟩ := of_lookup_insert hf
    · exact ⟨AList.lookup_insert _, huuid⟩
    · obtain ⟨hloc, hform⟩ := hinv.uuids other found hf
      have hne : found.uuid ≠ user.uuid := by
        intro heq
        exact hfre (mem_of_lookup (heq ▸ hloc))
      exact ⟨(AList.lookup_insert_ne hne).trans hloc, hform⟩
  · intro other key hmb
    obtain ⟨⟨uuid, henr⟩, hon⟩ := hinv.members other key hmb
    have hne : other ≠ uid := by
      rintro rfl
      obtain ⟨found, hf, _⟩ := identity_eq_some.mp henr
      exact huid (mem_of_lookup hf)
    refine ⟨⟨uuid, (congrArg _ (ho hne)).trans henr⟩, ?_⟩
    rw [isOn_congr (congrArg _ (ho hne))]
    exact hon

/-! ## The connect hook -/

theorem markRegistered (uid : Uid) : IntroducedBut (some uid) (server.markRegistered uid) := by
  have ho : ∀ {other}, other ≠ uid → (server.markRegistered uid).users.lookup
      other = server.users.lookup other :=
    fun hne => lookup_modify_ne _ _ hne
  have hself : (server.markRegistered uid).users.lookup uid =
      (server.users.lookup uid).map fun user => { user with registered := true } :=
    lookup_modify_self _ _ _
  refine ⟨hinv.sid, fun link => hinv.orderly link, ?_, ?_, ?_, hinv.rmembers⟩
  · intro link hlink other user hne hu hreg
    rw [ho fun heq => hne (congrArg some heq)] at hu
    exact hinv.known link hlink other user (by simp) hu hreg
  · intro other user hu
    by_cases hne : other = uid
    · rw [hne, hself] at hu
      obtain ⟨earlier, hprev, rfl⟩ := map_eq_some_iff.mp hu
      exact hne ▸ hinv.uuids uid earlier hprev
    · rw [ho hne] at hu
      exact hinv.uuids other user hu
  · intro other key hmb
    obtain ⟨⟨uuid, henr⟩, hon⟩ := hinv.members other key hmb
    obtain ⟨user, hu, huuid, _⟩ := identity_eq_some.mp henr
    obtain ⟨found, hf, hkey⟩ := isOn_iff.mp hon
    by_cases hne : other = uid
    · subst hne
      rw [hu, some.injEq] at hf
      rw [hu, map_some] at hself
      exact ⟨⟨uuid, identity_eq_some.mpr ⟨_, hself, huuid, rfl⟩⟩,
        isOn_iff.mpr ⟨_, hself, hf ▸ hkey⟩⟩
    · exact ⟨⟨uuid, (congrArg _ (ho hne)).trans henr⟩,
        isOn_iff.mpr ⟨found, (ho hne).trans hf, hkey⟩⟩

end

end Introduced

namespace IntroducedBut

variable {server : Server} {uid : Uid}

theorem changeUser {pending : Option Uid} (hinv : IntroducedBut pending server)
    {change : User → User} (hchg : ∀ user, (change user).place = user.place)
    (target : Uid) : IntroducedBut pending (server.changeUser target change) := by
  have hplace : ∀ other, ((server.changeUser target change).users.lookup
      other).map User.place = (server.users.lookup other).map User.place :=
    map_modify hchg target
  have hid : ∀ other, ((server.changeUser target change).users.lookup
      other).map User.identity = (server.users.lookup other).map User.identity :=
    map_modify (fun user => congrArg Prod.fst (hchg user)) target
  refine hinv.of_people rfl rfl hid ?_ hinv.rmembers hinv.orderly hinv.known
  intro other key hmb
  obtain ⟨⟨uuid, henr⟩, hon⟩ := hinv.members other key hmb
  refine ⟨⟨uuid, (hid other).trans henr⟩, ?_⟩
  rw [isOn_congr (hplace other)]
  exact hon

theorem onUserConnect (hinv : IntroducedBut (some uid) server) :
    IntroducedBut (some uid) (server.onUserConnect env uid) := by
  unfold Server.onUserConnect
  cases env.computeCloak server uid with
  | none =>
    simp only
    split
    · refine hinv.changeUser ?_ uid
      exact fun _ => rfl
    · exact hinv
  | some cloak =>
    have hcloaked : IntroducedBut (some uid) (server.changeUser uid fun user =>
        { user.setFlag .cloak true with cloak := cloak }) := by
      refine hinv.changeUser ?_ uid
      exact fun _ => rfl
    simp only
    split
    · refine hcloaked.changeUser ?_ uid
      exact fun _ => rfl
    · exact hcloaked

section

variable (hout : out ∈ server.userIntroLines user)

include hout

theorem userIntroLines_retired : out.retired = none := by
  rcases mem_userIntroLines hout with rfl | ⟨key, value, rfl⟩ <;> rfl

theorem userIntroLines_names (hnms : out.Names uuid) : uuid = server.conf.sid := by
  rcases mem_userIntroLines hout with rfl | ⟨key, value, rfl⟩
  all_goals
    rcases hnms with hsrc | hlst
    · exact (some.inj hsrc).symm
    · cases hlst

end

theorem introduceToLinks (hinv : IntroducedBut (some uid) server) :
    Introduced (server.introduceToLinks uid) := by
  unfold Server.introduceToLinks
  split
  · rename_i user hu
    have hls : ∀ link, (server.propagateAll (server.userIntroLines user)
        none).linesTo link = server.linesTo link ++
          if server.isRegistered link = true then server.userIntroLines user
          else [] := by
      simp [Server.linesTo_propagateAll]
    obtain ⟨sent, hsent⟩ := server.propagateAll_eq (server.userIntroLines user) none
    rw [hsent] at hls ⊢
    refine ⟨hinv.sid, ?_, ?_, hinv.uuids, hinv.members, hinv.rmembers⟩
    · intro link uuid huuid
      rw [hls, Session.orderly_append]
      refine ⟨hinv.orderly link uuid huuid, ?_⟩
      split
      · refine Session.orderly_of_unused fun out hout hnms => huuid ?_
        exact userIntroLines_names hout hnms
      · trivial
    · intro link hlink other found _ hf hreg
      have hlink' : server.isRegistered link = true := hlink
      rw [hls, if_pos hlink', Session.openAfter_append]
      have hcloses : ∀ out ∈ server.userIntroLines user,
          Out.session.closes out ≠ some found.uuid := by
        intro out hout
        simp [Out.session, userIntroLines_retired hout]
      by_cases hself : other = uid
      · rw [hself, hu] at hf
        cases hf
        exact Session.openAfter_of_opened mem_cons_self rfl hcloses
      · rw [hinv.known link hlink' other found
          (fun heq => hself (some.inj heq)) hf hreg]
        exact Session.openAfter_of_open hcloses
  · rename_i habs
    refine ⟨hinv.sid, hinv.orderly, ?_, hinv.uuids, hinv.members, hinv.rmembers⟩
    intro link hlink other user _ hu hreg
    refine hinv.known link hlink other user ?_ hu hreg
    intro heq
    rw [some.inj heq, habs] at hu
    cases hu

end IntroducedBut

namespace Introduced

variable {server : Server}

section

variable (hinv : Introduced server)

include hinv

theorem but (pending : Option Uid) : IntroducedBut pending server :=
  ⟨hinv.sid, hinv.orderly, fun link hlink uid user _ => hinv.known link hlink uid
    user (by simp), hinv.uuids, hinv.members, hinv.rmembers⟩

theorem runHook (hook : Hook) : Introduced (server.runHook env hook) := by
  cases hook with
  | connect uid => exact ((hinv.but (some uid)).onUserConnect env).introduceToLinks
  | join uid key =>
    have hspeaks : Speaks uid server (server.runHook env (.join uid key)) :=
      speaks_grantFrame.runHook_join server uid key env
    exact hinv.speaks hspeaks

theorem clearEvents : Introduced { server with events := [] } :=
  ⟨hinv.sid, fun link => hinv.orderly link, fun link => hinv.known link,
    hinv.uuids, hinv.members, hinv.rmembers⟩

theorem drainHooks : Introduced (server.drainHooks env) :=
  foldlRecOn server.events (Server.runHook env) hinv.clearEvents
    fun _ hmid hook _ => hmid.runHook env hook

theorem isCaps (hu : server.users.lookup uid = some user) : Str.isCaps user.uuid = true :=
  (hinv.uuids uid user hu).2.isCaps hinv.sid

end

theorem isEnrolled_iff : server.isEnrolled uid = true ↔ server.IsEnrolled uid := by
  unfold isEnrolled IsEnrolled
  cases server.users.lookup uid <;> simp [User.identity]

theorem join (env : Env) (hinv : Introduced server) {uid : Uid}
    (henr : server.IsEnrolled uid) (name : Str) : Introduced (server.join env uid name) :=
  hinv.speaks (join_speaks henr (fun _ => hinv.isCaps) env name)

theorem perform (hinv : Introduced server) (uid : Uid)
    (action : Action) : Introduced (server.perform env uid action) := by
  cases action with
  | nick newnick =>
    have hspeaks : Server.Speaks uid server (server.setNick uid newnick) :=
      server.setNick_speaks newnick
    exact hinv.speaks hspeaks
  | join name =>
    simp only [Server.perform]
    split
    · rename_i henr
      exact hinv.join env (isEnrolled_iff.mp henr) name
    · exact hinv
  | part target reason =>
    simp only [Server.perform]
    split
    · have hspeaks : Server.Speaks uid server (server.part uid target reason) :=
        server.part_speaks target reason
      exact hinv.speaks hspeaks
    · exact hinv
  | quit reason => exact hinv.removeUser uid reason

theorem performAll (hinv : Introduced server) (uid : Uid)
    (actions : List Action) : Introduced (server.performAll env uid actions) :=
  foldlRecOn actions (Server.perform env uid) hinv
    fun _ hmid action _ => hmid.perform env uid action

end Introduced

end EchoIrcd
