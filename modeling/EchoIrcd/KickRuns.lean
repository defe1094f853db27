import EchoIrcd.Tidings

/-!
# Kicks across a link

Two linked servers whose users JOIN, PART and KICK.  A KICK names a member but
not which of its memberships it ends: it can cross the victim's PART and second
JOIN, and then each server applies the lines in its own order.  In a run
without such a crossing the two servers hold the same members whenever nothing
is on its way.
-/

namespace EchoIrcd

open Str Replica Server Table List

variable {env : Env} {outs : List Out} {out : Out} {roster : Roster}
  {after before server : Server} {key nick peer peerNick sid uuid : Str} {now : Timestamp}
  {port uid : Uid}

/-! ## Members -/

def Server.memberUuids (server : Server) (key : Str) : List Str :=
  match server.channels.lookup key with
  | some channel =>
    (toPairs channel.members).filterMap (fun entry =>
      (server.users.lookup entry.1).map User.uuid) ++
    (toPairs channel.rmembers).map Prod.fst
  | none => []

private theorem mem_map_fst {table : Table Str Member} :
    uuid ∈ (toPairs table).map Prod.fst ↔ uuid ∈ table := by
  rw [mem_iff_lookup, mem_map]
  constructor
  · rintro ⟨⟨who, member⟩, hent, rfl⟩
    exact ⟨member, mem_toPairs.mp hent⟩
  · rintro ⟨member, hf⟩
    exact ⟨(uuid, member), mem_toPairs.mpr hf, rfl⟩

theorem Server.mem_memberUuids :
    uuid ∈ server.memberUuids key ↔
      (∃ uid user, server.users.lookup uid = some user ∧ user.uuid = uuid ∧
        server.isMember uid key = true) ∨
      server.isRemoteMember key uuid = true := by
  unfold memberUuids isMember isRemoteMember
  cases server.channels.lookup key with
  | none => simp
  | some channel =>
    simp only [mem_append, mem_map_fst, decide_eq_true_eq]
    refine or_congr_left ?_
    simp only [mem_filterMap, Option.map_eq_some_iff, Prod.exists]
    constructor
    · rintro ⟨uid, member, hent, user, hu, huuid⟩
      exact ⟨uid, user, hu, huuid, mem_of_lookup (mem_toPairs.mp hent)⟩
    · rintro ⟨uid, user, hu, huuid, hmb⟩
      obtain ⟨member, hf⟩ := mem_iff_lookup.mp hmb
      exact ⟨uid, member, mem_toPairs.mpr hf, user, hu, huuid⟩

theorem Server.Sane.mem_memberUuids (hsane : server.Sane port peer) :
    uuid ∈ server.memberUuids key ↔ server.roster.seated key uuid = true := by
  rw [Server.mem_memberUuids]
  constructor
  · rintro (⟨uid, user, hu, rfl, hmb⟩ | hmb)
    · have hid : server.roster.identity uid = some (user.uuid, user.registered) :=
        Introduced.identity_eq_some.mpr ⟨user, hu, rfl, rfl⟩
      rw [Roster.seated_of_uid (hsane.sound.uuids hid).1]
      exact hmb
    · have hvia := hsane.sound.rmembers hmb
      rw [Roster.seated_of_absent
        (hsane.sound.uidOf_of_peer hsane.peers (hsane.sound.remotes hvia).2)]
      exact hmb
  · intro hse
    cases huid : server.roster.uidOf uuid with
    | some uid =>
      rw [Roster.seated_of_uid huid] at hse
      obtain ⟨registered, hid⟩ := hsane.sound.uids huid
      obtain ⟨user, hu, huuid, -⟩ := Introduced.identity_eq_some.mp hid
      exact .inl ⟨uid, user, hu, huuid, hse⟩
    | none =>
      rw [Roster.seated_of_absent huid] at hse
      exact .inr hse

def Pair.SameMembers (pair : Pair) : Prop :=
  ∀ key uuid, uuid ∈ (pair.srv .left).memberUuids key ↔
    uuid ∈ (pair.srv .right).memberUuids key

/-! ## Runs -/

namespace Pair

/-- Two servers that are linked and know each other's users. -/
structure Linked (wiring : Wiring) (pair : Pair) : Prop where
  sane : ∀ side, (pair.srv side).Sane (wiring.port side) (pair.srv side.other).conf.sid
  people : ∀ side uuid, (∃ uid, (pair.srv side).roster.identity uid = some (uuid, true)) ↔
    (pair.srv side.other).roster.via uuid = some (wiring.port side.other)
  nicks : ∀ side uuid, IsUuid (pair.srv side.other).conf.sid uuid →
    (pair.srv side).findNick uuid = none

def kicking : Guard
  | _, _, _, .command _ (.act (.join _)) | _, _, _, .command _ (.act (.part _ _))
  | _, _, _, .command _ (.kick _ _ _) | _, _, _, .deliver => True
  | _, _, _, _ => False

/--
No user joins a channel while a line that ends its membership is on its way to
its server, and nobody is kicked while a JOIN of it is on its way to the kicker.
-/
def patient (wiring : Wiring) : Guard
  | pair, side, now, .command uid (.act (.join name)) => ∀ target uuid,
      (wiring.env side).joinGate ((pair.srv side).setClock now) uid name = some target →
      (pair.srv side).roster.identity uid = some (uuid, true) →
      ∀ out ∈ pair.inFlight wiring side,
        out.seats (toAsciiLower target) uuid ≠ some false
  | pair, side, _, .command _ (.kick chan victim _) =>
    ∀ out ∈ pair.inFlight wiring side,
      out.seats (toAsciiLower chan) ((pair.srv side).nickToUuid victim) ≠ some true
  | _, _, _, .command _ (.act (.part _ _)) | _, _, _, .deliver => True
  | _, _, _, _ => False

/-! ## The invariant -/

@[simps]
def seatOf (wiring : Wiring) (pair : Pair) (key who : Str) :
    Exchange Bool (Option Bool) where
  copy side := (pair.srv side).roster.seated key who
  pending side := (pair.inFlight wiring side).map (Out.seats key who)

structure Kicking (wiring : Wiring) (pair : Pair) : Prop where
  causal : pair.Causal wiring
  linked : pair.Linked wiring
  apt : ∀ side, ∀ out ∈ pair.inFlight wiring side,
    out.Apt (wiring.port side) (pair.srv side.other).conf.sid (pair.srv side)
  stays : ∀ side, ∀ out ∈ pair.inFlight wiring side, out.retired = none
  agreed : ∀ key who, (pair.seatOf wiring key who).Agreed write

theorem Kicking.sameMembers {wiring : Wiring} {pair : Pair}
    (hinv : pair.Kicking wiring) (hq : pair.Quiescent wiring) : pair.SameMembers := by
  intro key uuid
  rw [(hinv.linked.sane .left).mem_memberUuids, (hinv.linked.sane .right).mem_memberUuids]
  have hs := (hinv.agreed key uuid).copy_eq fun side => by
    rw [seatOf_pending, hq side]
    rfl
  exact Eq.congr hs rfl

end Pair

/-! ## Steps -/

structure Steady (before after : Server) : Prop where
  conf : after.conf = before.conf
  identity : after.roster.identity = before.roster.identity
  uidOf : after.roster.uidOf = before.roster.uidOf
  via : after.roster.via = before.roster.via
  nicks : ∀ nick, before.findNick nick = none → after.findNick nick = none

theorem Out.Apt.of_steady (hapt : out.Apt port peer before) (hstd : Steady before after) :
    out.Apt port peer after where
  told := hapt.told
  known := by
    rw [hstd.via]
    exact hapt.known
  victim := by
    intro uuid chan who reason hout
    rw [hstd.uidOf, hstd.via]
    rcases hapt.victim uuid chan who reason hout with hloc | ⟨hvia, hnick⟩
    · exact .inl hloc
    · exact .inr ⟨hvia, hstd.nicks who hnick⟩

theorem Out.read_people (hst : out.retired = none) (roster : Roster) :
    (out.read roster).identity = roster.identity ∧
      (out.read roster).uidOf = roster.uidOf ∧ (out.read roster).via = roster.via := by
  cases out with
  | quit uuid reason => cases hst
  | kick uuid chan victim reason =>
    simp only [Out.read]
    split <;> exact ⟨rfl, rfl, rfl⟩
  | _ => exact ⟨rfl, rfl, rfl⟩

section

variable {command : Command} (hdeed : Deed env server uid command roster outs)
  (hst : ∀ reason, command ≠ .act (.quit reason))

include hdeed hst

theorem Server.Deed.people :
    roster.identity = server.roster.identity ∧ roster.uidOf = server.roster.uidOf ∧
      roster.via = server.roster.via := by
  cases hdeed with
  | quit => exact absurd rfl (hst _)
  | _ => exact ⟨rfl, rfl, rfl⟩

theorem Server.Deed.stays : ∀ out ∈ outs, out.retired = none := by
  intro out hout
  cases hdeed with
  | idle => cases hout
  | join _ _ _ hgr =>
    rcases mem_cons.mp hout with rfl | hout
    · unfold joinLine
      split <;> rfl
    · obtain ⟨_, _, _, _, rfl⟩ := hgr out hout
      rfl
  | quit => exact absurd rfl (hst _)
  | part | kickLocal | kickRemote =>
    obtain rfl := mem_singleton.mp hout
    rfl

end

namespace Pair

variable {wiring : Wiring} {pair : Pair} {side : Side} {after : Server}

theorem Linked.set (hlk : pair.Linked wiring) (hstd : Steady (pair.srv side) after)
    (hsane : after.Sane (wiring.port side) (pair.srv side.other).conf.sid) (read : Nat) :
    (pair.set side after read).Linked wiring := by
  constructor
  all_goals rw [Side.forall_iff side, set_srv_self, set_srv_other, Side.other_other, set_srv_self]
  · rw [hstd.conf]
    refine ⟨hsane, ?_⟩
    have ho := hlk.sane side.other
    rwa [Side.other_other] at ho
  · rw [hstd.identity, hstd.via]
    refine ⟨hlk.people side, ?_⟩
    have ho := hlk.people side.other
    rwa [Side.other_other] at ho
  · rw [hstd.conf]
    refine ⟨fun uuid huuid => hstd.nicks uuid (hlk.nicks side uuid huuid), ?_⟩
    have ho := hlk.nicks side.other
    rwa [Side.other_other] at ho

theorem Steady.of_reads (hrds : Reads port before (out.read before.roster) after)
    (hst : out.retired = none) : Steady before after := by
  obtain ⟨hid, huidOf, hvia⟩ := Out.read_people hst before.roster
  rw [← hrds.roster_eq] at hid huidOf hvia
  refine ⟨hrds.conf, hid, huidOf, hvia, fun nick hnick => ?_⟩
  rw [findNick, hrds.nickIndex]
  exact hnick

theorem Kicking.deliver (hinv : pair.Kicking wiring) {rest : List Out}
    (hnext : pair.inFlight wiring side = out :: rest) (now : Timestamp) :
    (pair.set side ((pair.srv side).handleEvent (wiring.env side) now fun server =>
      server.onLine (wiring.env side) (wiring.port side) out)
      (pair.read side + 1)).Kicking wiring := by
  have hout : out ∈ pair.inFlight wiring side := by
    rw [hnext]
    exact mem_cons_self
  have hapt := hinv.apt side out hout
  have hsane := hinv.linked.sane side
  obtain ⟨hrds, hsane'⟩ := hapt.handleEvent hsane (wiring.env side) now
  generalize (pair.srv side).handleEvent (wiring.env side) now (fun server =>
    server.onLine (wiring.env side) (wiring.port side) out) = after at hrds hsane' ⊢
  have hstd := Steady.of_reads hrds (hinv.stays side out hout)
  have hls : after.linesTo (wiring.port side) = pair.sent wiring side ++ [] := by
    rw [hrds.lines, append_nil]
    rfl
  have hself : (pair.set side after (pair.read side + 1)).inFlight wiring side = rest :=
    inFlight_heard hnext
  have ho : (pair.set side after (pair.read side + 1)).inFlight wiring side.other =
      pair.inFlight wiring side.other := by
    rw [inFlight_set_other hinv.causal hls, append_nil]
  refine ⟨hinv.causal.heard hls hnext, hinv.linked.set hstd hsane' _, ?_, ?_, ?_⟩
  · rw [Side.forall_iff side, hself, ho, set_srv_self, set_srv_other,
      Side.other_other, set_srv_self, hstd.conf]
    constructor
    · intro line hline
      exact (hinv.apt side line (by rw [hnext]; exact .tail _ hline)).of_steady hstd
    · have hapts := hinv.apt side.other
      rwa [Side.other_other] at hapts
  · rw [Side.forall_iff side, hself, ho]
    exact ⟨fun line hline => hinv.stays side line (by rw [hnext]; exact .tail _ hline),
      hinv.stays side.other⟩
  · intro key who
    have hpend : (pair.seatOf wiring key who).pending side = out.seats key who ::
        ((pair.set side after (pair.read side + 1)).seatOf wiring key who).pending
          side := by
      simp only [seatOf_pending, hself, hnext, map_cons]
    refine (hinv.agreed key who).read side hpend ?_ ?_ ?_
    · simp only [seatOf_copy, set_srv_self, hrds.roster_eq]
      exact hapt.seated_read hsane key who
    · simp only [seatOf_copy, set_srv_other]
    · simp only [seatOf_pending, ho]

theorem seats_ne_true (hpeers : Peers sid peer) (htold : out.Told peer) {who : Str}
    (hwho : IsUuid sid who) (key : Str) : out.seats key who ≠ some true := by
  have hfor : ∀ {uuid}, IsUuid peer uuid → uuid ≠ who := by
    rintro uuid huuid rfl
    exact hpeers.disjoint hwho huuid
  cases htold with
  | @fjoin uuid name huuid hname ts =>
    rw [Out.seats, Out.map_tokenUuid_single huuid hpeers.peer]
    simp [(hfor huuid).symm]
  | ijoin huuid => simp [Out.seats, hfor huuid]
  | part => simp [Out.seats]
  | quit => simp [Out.seats]
  | kick => simp [Out.seats]
  | grant hgrant => simp [Out.seats_of_isGrant hgrant]

private theorem commutes_of_seats {value : Bool} (seat : Bool)
    {lines pending : List (Option Bool)} (hls : ∀ line ∈ lines, line ≠ some !seat)
    (hpend : some seat ∈ lines → ∀ line ∈ pending, line ≠ some !seat) :
    Commutes write value lines pending := by
  have honly : ∀ {line : Option Bool}, line ≠ some !seat → line = none ∨ line = some seat := by
    intro line hline
    cases line with
    | none => exact .inl rfl
    | some other => cases seat <;> cases other <;> simp_all
  by_cases hwrt : some seat ∈ lines
  · exact commutes_write (fun line hline => honly (hls line hline))
      fun line hline => honly (hpend hwrt line hline)
  · refine commutes_of_silent fun line hline => ?_
    rcases honly (hls line hline) with hnone | hseat
    · exact hnone
    · rw [hseat] at hline
      exact absurd hline hwrt

theorem Kicking.commutes (hinv : pair.Kicking wiring) {command : Command}
    (hdeed : Deed (wiring.env side) ((pair.srv side).setClock now) uid command roster outs)
    (hg : patient wiring pair side now (.command uid command)) (key who : Str) :
    Commutes write ((pair.srv side).roster.seated key who) (outs.map (Out.seats key who))
      ((pair.inFlight wiring side).map (Out.seats key who)) := by
  have hsane := (hinv.linked.sane side).setClock now
  -- what is on its way never seats one of our own users
  have hown : IsUuid (pair.srv side).conf.sid who → ∀ line ∈
      (pair.inFlight wiring side).map (Out.seats key who), line ≠ some true := by
    intro hwho line hline
    obtain ⟨out, hout, rfl⟩ := mem_map.mp hline
    exact seats_ne_true (hinv.linked.sane side).peers (hinv.apt side out hout).told hwho key
  cases hdeed with
  | idle => exact commutes_nil _ _
  | @join name target uuid grants hgate hid htgt hgr =>
    have hjn := hsane.seats_joinLine (hsane.sound.uuids hid).2 target key who
    have hgranted : ∀ line ∈ grants.map (Out.seats key who), line = none := by
      intro line hline
      obtain ⟨out, hout, rfl⟩ := mem_map.mp hline
      exact Out.seats_of_isGrant (hgr out hout) key who
    rw [map_cons, hjn]
    refine commutes_of_seats true ?_ ?_
    · intro line hline
      rcases mem_cons.mp hline with rfl | hline
      · split <;> simp
      · simp [hgranted line hline]
    · intro hwrt line hline
      have hseat : toAsciiLower target = key ∧ uuid = who := by
        rcases mem_cons.mp hwrt with hwrt | hwrt
        · by_contra ho
          rw [if_neg ho] at hwrt
          cases hwrt
        · cases hgranted _ hwrt
      obtain ⟨rfl, rfl⟩ := hseat
      obtain ⟨out, hout, rfl⟩ := mem_map.mp hline
      exact hg target uuid hgate hid out hout
  | @part target reason uuid hid htgt =>
    refine commutes_of_seats false (by simp [Out.seats]) ?_
    intro hwrt
    have hseat : uuid = who := by
      by_contra ho
      simp [Out.seats, ho] at hwrt
    exact hown (hseat ▸ (hsane.sound.uuids hid).2)
  | quit => exact hg.elim
  | @kickLocal chan victim reason uuid whom target hid hchan hvic htgt =>
    refine commutes_of_seats false (by simp [Out.seats]) ?_
    intro hwrt
    have hseat : whom = who := by
      by_contra ho
      simp [Out.seats, ho] at hwrt
    exact hown (hseat ▸ (hsane.sound.uuids htgt).2)
  | @kickRemote chan victim reason uuid whom hid hchan hvic hmb =>
    refine commutes_of_seats false (by simp [Out.seats]) ?_
    intro hwrt line hline
    have hseat : toAsciiLower chan = key ∧ whom = who := by
      by_contra ho
      simp [Out.seats, ho] at hwrt
    obtain ⟨rfl, rfl⟩ := hseat
    obtain ⟨out, hout, rfl⟩ := mem_map.mp hline
    rw [← hvic]
    exact hg out hout

theorem Steady.of_deed {command : Command}
    (hdeed : Deed env (before.setClock now) uid command after.roster outs)
    (hst : ∀ reason, command ≠ .act (.quit reason)) (hconf : after.conf = before.conf)
    (hnicks : ∀ nick, before.findNick nick = none → after.findNick nick = none) :
    Steady before after := by
  obtain ⟨hid, huidOf, hvia⟩ := hdeed.people hst
  exact ⟨hconf, hid, huidOf, hvia, hnicks⟩

theorem Linked.apt_deed (hlk : pair.Linked wiring) {command : Command}
    (hdeed : Deed (wiring.env side) ((pair.srv side).setClock now) uid command roster outs) :
    ∀ out ∈ outs, out.Apt (wiring.port side.other) (pair.srv side).conf.sid
      (pair.srv side.other) := by
  have hsane := (hlk.sane side).setClock now
  intro out hout
  refine ⟨hdeed.told hsane out hout, ?_, ?_⟩
  · intro uuid huuid hnms
    rw [← hlk.people side]
    exact hdeed.names hsane out hout huuid hnms
  · intro uuid chan who reason heq
    subst heq
    cases hdeed with
    | idle => cases hout
    | join _ hid _ hgr =>
      rcases mem_cons.mp hout with heq | hgrant
      · unfold joinLine at heq
        split at heq <;> cases heq
      · obtain ⟨_, _, _, _, heq⟩ := hgr _ hgrant
        cases heq
    | part => cases hout with | tail _ hnil => cases hnil
    | quit => cases hout with | tail _ hnil => cases hnil
    | @kickLocal _ _ _ _ whom target hid hchan hvic htgt =>
      obtain heq := mem_singleton.mp hout
      cases heq
      refine .inr ⟨(hlk.people side who).mp ⟨target, htgt⟩, ?_⟩
      have hnick := hlk.nicks side.other who
      rw [Side.other_other] at hnick
      exact hnick (hsane.sound.uuids htgt).2
    | @kickRemote _ _ _ _ whom hid hchan hvic hmb =>
      obtain heq := mem_singleton.mp hout
      cases heq
      left
      have hvia := hsane.sound.rmembers hmb
      have hpeople := hlk.people side.other who
      rw [Side.other_other] at hpeople
      obtain ⟨other, ho⟩ := hpeople.mpr hvia
      exact ⟨other, ((hlk.sane side.other).sound.uuids ho).1⟩

theorem Kicking.command (hinv : pair.Kicking wiring) {command : Command}
    (henr : (pair.srv side).isEnrolled uid = true)
    (hg : patient wiring pair side now (.command uid command)) :
    (pair.set side ((pair.srv side).handleEvent (wiring.env side) now
      (obey (wiring.env side) uid command)) (pair.read side)).Kicking wiring := by
  have hnick : ∀ newnick, command ≠ .act (.nick newnick) := by
    rintro newnick rfl
    exact hg
  have hst : ∀ reason, command ≠ .act (.quit reason) := by
    rintro reason rfl
    exact hg
  have hsane := hinv.linked.sane side
  generalize haft : (pair.srv side).handleEvent (wiring.env side) now
    (obey (wiring.env side) uid command) = after
  obtain ⟨outs, hdeed, hsane', hconf, hnicks, hls⟩ := hsane.obey henr hnick haft
  have hstd := Steady.of_deed hdeed hst hconf hnicks
  have hself : (pair.set side after (pair.read side)).inFlight wiring side =
      pair.inFlight wiring side := inFlight_said
  have ho : (pair.set side after (pair.read side)).inFlight wiring side.other =
      pair.inFlight wiring side.other ++ outs := inFlight_set_other hinv.causal hls
  refine ⟨hinv.causal.said hls, hinv.linked.set hstd hsane' _, ?_, ?_, ?_⟩
  · rw [Side.forall_iff side, hself, ho, set_srv_self, set_srv_other,
      Side.other_other, set_srv_self, hstd.conf]
    constructor
    · intro line hline
      exact (hinv.apt side line hline).of_steady hstd
    · intro line hline
      rcases mem_append.mp hline with hline | hline
      · have hapts := hinv.apt side.other line hline
        rwa [Side.other_other] at hapts
      · exact hinv.linked.apt_deed hdeed line hline
  · rw [Side.forall_iff side, hself, ho]
    refine ⟨hinv.stays side, fun line hline => ?_⟩
    rcases mem_append.mp hline with hline | hline
    · exact hinv.stays side.other line hline
    · exact hdeed.stays hst line hline
  · intro key who
    refine (hinv.agreed key who).say side ?_ ?_ ?_ ?_ (hinv.commutes hdeed hg key who)
    · simp only [seatOf_copy, set_srv_self]
      exact hdeed.seated (hsane.setClock now) key who
    · simp only [seatOf_pending, hself]
    · simp only [seatOf_copy, set_srv_other]
    · simp only [seatOf_pending, ho, map_append]

theorem Kicking.step (hinv : pair.Kicking wiring) {next : Pair}
    (hstep : PairStep wiring (patient wiring) pair next) : next.Kicking wiring := by
  obtain ⟨side, now, move, hen, hg⟩ := hstep
  cases move with
  | command uid command => exact hinv.command hen hg
  | deliver =>
    cases hnext : pair.inFlight wiring side with
    | nil => exact absurd hnext hen
    | cons out rest =>
      simp only [happen, hnext]
      exact hinv.deliver hnext now

theorem kicking_of_linked (hlk : pair.Linked wiring) (hcau : pair.Causal wiring)
    (hq : pair.Quiescent wiring) (hs : pair.SameMembers) : pair.Kicking wiring := by
  refine ⟨hcau, hlk, ?_, ?_, ?_⟩
  · intro side out hout
    rw [hq side] at hout
    cases hout
  · intro side out hout
    rw [hq side] at hout
    cases hout
  · intro key who
    have hseats := hs key who
    rw [(hlk.sane .left).mem_memberUuids, (hlk.sane .right).mem_memberUuids]
      at hseats
    unfold Exchange.Agreed Exchange.forecast
    simp only [seatOf_pending, seatOf_copy, hq .left, hq .right, map_nil, hearAll_nil]
    exact Bool.eq_iff_iff.mpr hseats

end Pair

/-! ## Two operators of one channel -/

namespace Pair

def sampleWiring : Wiring where
  env := fun _ => .plain
  port := fun _ => 9

def sampleUuid (sid : Str) : Str := sid ++ "AAAAAA"

def sampleChannel (peer : Str) : Channel where
  name := "#c"
  created := 100
  members := (∅ : Table Uid Member).insert 1 { prefixes := fun held => held = .op }
  rmembers := (∅ : Table Str Member).insert (sampleUuid peer)
    { prefixes := fun held => held = .op }

def sampleUser (sid nick : Str) : User where
  uuid := sampleUuid sid
  nick := nick
  ident := nick
  host := "h.test"
  signon := 100
  nickTs := 100
  ip := "10.0.0.1"
  registered := true
  channels := ["#c"]

def sampleRemote (sid nick : Str) : RemoteUser where
  uuid := sampleUuid sid
  nick := nick
  ident := nick
  host := "h.test"
  realname := []
  ip := "10.0.0.1"
  modes := "+"
  sid := sid
  via := 9
  nickTs := 100

def sampleServer (sid nick peer peerNick : Str) : Server where
  conf := { name := "a.test", sid := sid }
  clock := 100
  users := (∅ : Table Uid User).insert 1 (sampleUser sid nick)
  nickIndex := (∅ : Table Str Uid).insert nick 1
  uuidLocal := (∅ : Table Str Uid).insert (sampleUuid sid) 1
  channels := (∅ : Table Str Channel).insert "#c" (sampleChannel peer)
  links := (∅ : Table Uid Link).insert 9
    { outbound := true, registered := true, sentServer := true, sid := some peer
      lastSeen := 100 }
  remoteUsers := (∅ : Table Str RemoteUser).insert (sampleUuid peer)
    (sampleRemote peer peerNick)
  remoteNick := (∅ : Table Str Str).insert peerNick (sampleUuid peer)

def sampleStart : Pair where
  srv
    | .left => sampleServer "1AA" "kat" "2BB" "bob"
    | .right => sampleServer "2BB" "bob" "1AA" "kat"
  read := fun _ => 0

theorem roster_sampleServer (sid nick peer peerNick : Str) :
    (sampleServer sid nick peer peerNick).roster =
      { identity := fun uid => if uid = 1 then some (sampleUuid sid, true) else none
        uidOf := fun uuid => if uuid = sampleUuid sid then some 1 else none
        on := fun uid key => uid = 1 && key = "#c"
        member := fun uid key => uid = 1 && key = "#c"
        rmember := fun key uuid => key = "#c" && uuid = sampleUuid peer
        via := fun uuid => if uuid = sampleUuid peer then some 9 else none } := by
  ext uid
  all_goals simp only [roster, isOn_eq, isMember_eq, isRemoteMember_eq, sampleServer,
    lookup_insert_eq]
  · split <;> rfl
  · rfl
  · split <;> simp [sampleUser, *]
  · split <;> simp_all [sampleChannel, -AList.insert_empty]
  · split <;> simp_all [sampleChannel, -AList.insert_empty]
  · split <;> rfl

theorem isUuid_sampleUuid (sid : Str) : IsUuid sid (sampleUuid sid) :=
  ⟨_, rfl, by decide, by decide⟩

theorem sampleServer_sane (hpeers : Peers sid peer) :
    (sampleServer sid nick peer peerNick).Sane 9 peer := by
  refine ⟨hpeers, rfl, rfl, ?_, ?_⟩
  · intro key channel hf
    simp only [sampleServer, lookup_insert_eq] at hf
    split at hf
    next hkey =>
      cases hf
      have hname : IsChanName ("#c" : Str) := ⟨rfl, by decide⟩
      exact ⟨hkey.symm, hname⟩
    next => cases hf
  · rw [roster_sampleServer]
    constructor
    all_goals simp_all [sampleServer, isUuid_sampleUuid]

theorem sampleStart_sids : Peers "1AA" "2BB" := by
  constructor <;> decide

theorem sampleStart_linked : sampleStart.Linked sampleWiring where
  sane
    | .left => sampleServer_sane sampleStart_sids
    | .right => sampleServer_sane sampleStart_sids.symm
  people := by
    intro side uuid
    cases side
    all_goals
      simp only [sampleStart, Side.other, roster_sampleServer]
      constructor
      · rintro ⟨uid, hid⟩
        split at hid <;> simp_all [sampleWiring]
      · intro hvia
        split at hvia <;> simp_all
  nicks := by
    rintro side uuid ⟨suffix, rfl, hlen, -⟩
    cases side
    all_goals
      simp only [sampleStart, findNick, sampleServer, lookup_insert_eq]
      rw [if_neg]
      · rfl
      · intro hnick
        have hs := congrArg length hnick
        simp [toAsciiLower] at hs
        omega

def sampleRun (steps : List (Side × Move)) : Pair :=
  steps.foldl (fun pair step => pair.happen sampleWiring step.1 100 step.2) sampleStart

def crossedKick : List (Side × Move) :=
  [(.left, .command 1 (.kick "#c" "bob" "bye")),
    (.right, .command 1 (.act (.part "#c" "brb"))),
    (.right, .command 1 (.act (.join "#c"))),
    (.right, .deliver), (.left, .deliver), (.left, .deliver)]

theorem sampleStart_quiescent : sampleStart.Quiescent sampleWiring := by
  intro side
  cases side <;> rfl

theorem sampleStart_causal : sampleStart.Causal sampleWiring :=
  fun _ => Nat.zero_le _

theorem mem_memberUuids_sampleServer (hpeers : Peers sid peer) :
    uuid ∈ (sampleServer sid nick peer peerNick).memberUuids key ↔
      key = "#c" ∧ (uuid = sampleUuid sid ∨ uuid = sampleUuid peer) := by
  rw [(sampleServer_sane hpeers).mem_memberUuids, roster_sampleServer, Roster.seated]
  by_cases hloc : uuid = sampleUuid sid <;> simp [hloc]

theorem sampleStart_sameMembers : sampleStart.SameMembers := by
  intro key uuid
  simp only [sampleStart]
  rw [mem_memberUuids_sampleServer sampleStart_sids,
    mem_memberUuids_sampleServer sampleStart_sids.symm, or_comm]

theorem pairStep_kick_crossing :
    sampleStart.Linked sampleWiring ∧ sampleStart.Causal sampleWiring ∧
      sampleStart.Quiescent sampleWiring ∧ sampleStart.SameMembers ∧
      Relation.ReflTransGen (PairStep sampleWiring kicking) sampleStart (sampleRun crossedKick) ∧
      (sampleRun crossedKick).Quiescent sampleWiring ∧
      ¬ (sampleRun crossedKick).SameMembers := by
  refine ⟨sampleStart_linked, sampleStart_causal, sampleStart_quiescent,
    sampleStart_sameMembers, ?_, ?_, ?_⟩
  · refine .head (.happen .left 100 (.command 1 (.kick "#c" "bob" "bye"))
      (by decide) trivial) ?_
    refine .head (.happen .right 100 (.command 1 (.act (.part "#c" "brb")))
      (by decide) trivial) ?_
    refine .head (.happen .right 100 (.command 1 (.act (.join "#c")))
      (by decide) trivial) ?_
    refine .head (.happen .right 100 .deliver (by decide) trivial) ?_
    refine .head (.happen .left 100 .deliver (by decide) trivial) ?_
    exact .single (.happen .left 100 .deliver (by decide) trivial)
  · intro side
    cases side <;> decide
  · intro hs
    have hkicked := (hs "#c" (sampleUuid "2BB")).mp (by decide)
    exact absurd hkicked (by decide)

end Pair

/-! ## Runs without crossings -/

/--
In a run without crossing kicks the two servers hold the same members whenever
nothing is on its way.
-/
theorem patientRun_sameMembers {wiring : Wiring} {first last : Pair}
    (hlk : first.Linked wiring) (hcau : first.Causal wiring)
    (hq : first.Quiescent wiring) (hs : first.SameMembers)
    (hrun : Relation.ReflTransGen (PairStep wiring (Pair.patient wiring)) first last)
    (hlast : last.Quiescent wiring) : last.SameMembers := by
  have hinv : last.Kicking wiring := by
    clear hlast
    induction hrun with
    | refl => exact Pair.kicking_of_linked hlk hcau hq hs
    | tail _ hstep ih => exact ih.step hstep
  exact hinv.sameMembers hlast

def Pair.heardKick : List (Side × Pair.Move) :=
  [(.left, .command 1 (.kick "#c" "bob" "bye")), (.right, .deliver),
    (.right, .command 1 (.act (.join "#c"))), (.left, .deliver)]

theorem patientRun_sameMembers_rejoin : (Pair.sampleRun Pair.heardKick).SameMembers := by
  refine patientRun_sameMembers Pair.sampleStart_linked Pair.sampleStart_causal
    Pair.sampleStart_quiescent Pair.sampleStart_sameMembers ?_ ?_
  · refine .head (.happen .left 100 (.command 1 (.kick "#c" "bob" "bye"))
      (by decide) ?_) ?_
    · intro out hout
      cases hout
    · refine .head (.happen .right 100 .deliver (by decide) trivial) ?_
      refine .head (.happen .right 100 (.command 1 (.act (.join "#c"))) (by decide) ?_) ?_
      · intro _ _ _ _ out hout
        have hhd : (Pair.sampleRun (Pair.heardKick.take 2)).inFlight
            Pair.sampleWiring .right = [] := by decide
        exact absurd (hhd ▸ hout) not_mem_nil
      · exact .single (.happen .left 100 .deliver (by decide) trivial)
  · intro side
    cases side <;> decide

/-- At every moment the servers will hold the same members once they have read what is coming. -/
theorem patientRun_agreed {wiring : Wiring} {first last : Pair} (hlk : first.Linked wiring)
    (hcau : first.Causal wiring) (hq : first.Quiescent wiring) (hs : first.SameMembers)
    (hrun : Relation.ReflTransGen (PairStep wiring (Pair.patient wiring)) first last) :
    last.Linked wiring ∧ ∀ key who, (last.seatOf wiring key who).Agreed write := by
  have hinv : last.Kicking wiring := by
    induction hrun with
    | refl => exact Pair.kicking_of_linked hlk hcau hq hs
    | tail _ hstep ih => exact ih.step hstep
  exact ⟨hinv.linked, hinv.agreed⟩

theorem patientRun_agreed_kicked :
    ((Pair.sampleRun (Pair.heardKick.take 1)).seatOf Pair.sampleWiring "#c"
      (Pair.sampleUuid "2BB")).Agreed write := by
  refine (patientRun_agreed Pair.sampleStart_linked Pair.sampleStart_causal
    Pair.sampleStart_quiescent Pair.sampleStart_sameMembers (.single (.happen .left 100
      (.command 1 (.kick "#c" "bob" "bye")) (by decide) ?_))).2 _ _
  intro out hout
  cases hout

end EchoIrcd
