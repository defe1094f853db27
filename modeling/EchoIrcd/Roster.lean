import EchoIrcd.Traffic

/-!
# Who is where

The roster of a server is what its records say about people and channel
membership, with everything else left out: the local users and their uuids,
the channels each of them is on, the local and the remote members of every
channel, and the link behind which a remote user sits.  Each operation of the
server that moves somebody is one operation on rosters; the others keep the
roster.
-/

namespace EchoIrcd

open Str Table Channel Option

variable {channel : Channel} {after before : Server} (server : Server) (uid : Uid)
  (key uuid chan : Str)

@[ext]
structure Roster where
  identity : Uid → Option (Str × Bool)
  uidOf : Str → Option Uid
  on : Uid → Str → Bool
  member : Uid → Str → Bool
  rmember : Str → Str → Bool
  via : Str → Option Uid

def Server.roster (server : Server) : Roster where
  identity uid := (server.users.lookup uid).map User.identity
  uidOf uuid := server.uuidLocal.lookup uuid
  on := server.isOn
  member := server.isMember
  rmember := server.isRemoteMember
  via uuid := (server.remoteUsers.lookup uuid).map RemoteUser.via

namespace Roster

/-! ## Moves -/

@[simps]
def enter (uid : Uid) (key : Str) (roster : Roster) : Roster :=
  { roster with
    on := fun other name => roster.on other name || (other = uid && name = key)
    member := fun other name =>
      roster.member other name || (other = uid && name = key) }

@[simps]
def leave (uid : Uid) (key : Str) (roster : Roster) : Roster :=
  { roster with
    on := fun other name => roster.on other name && !(other = uid && name = key)
    member := fun other name =>
      roster.member other name && !(other = uid && name = key) }

@[simps]
def depart (uid : Uid) (uuid : Str) (roster : Roster) : Roster :=
  { roster with
    identity := fun other => if other = uid then none else roster.identity other
    uidOf := fun other => if other = uuid then none else roster.uidOf other
    on := fun other name => other ≠ uid && roster.on other name
    member := fun other name =>
      roster.member other name && !(other = uid && roster.on uid name) }

@[simps]
def seat (key : Str) (uuids : List Str) (roster : Roster) : Roster :=
  { roster with
    rmember := fun name other =>
      roster.rmember name other || (name = key && other ∈ uuids) }

@[simps]
def unseat (key uuid : Str) (roster : Roster) : Roster :=
  { roster with
    rmember := fun name other =>
      roster.rmember name other && !(name = key && other = uuid) }

theorem unseat_of_absent {roster : Roster} {key uuid : Str}
    (habs : roster.rmember key uuid = false) : roster.unseat key uuid = roster := by
  ext1 <;> try rfl
  funext name other
  rw [unseat_rmember]
  by_cases hself : name = key ∧ other = uuid
  · rw [hself.1, hself.2, habs]
    rfl
  · simp only [not_and] at hself
    by_cases hname : name = key
    · simp [hname, hself hname]
    · simp [hname]

theorem leave_of_absent {roster : Roster} {uid : Uid} {key : Str}
    (hoff : roster.on uid key = false) (habs : roster.member uid key = false) :
    roster.leave uid key = roster := by
  have hs : ∀ seats : Uid → Str → Bool, seats uid key = false →
      (fun other name => seats other name && !(other = uid && name = key)) = seats := by
    intro seats hfree
    funext other name
    by_cases ho : other = uid
    · by_cases hname : name = key
      · simp [ho, hname, hfree]
      · simp [hname]
    · simp [ho]
  ext1 <;> try rfl
  · exact hs _ hoff
  · exact hs _ habs

@[simps]
def meet (uuid : Str) (link : Uid) (roster : Roster) : Roster :=
  { roster with
    via := fun other => if other = uuid then some link else roster.via other }

@[simps]
def forget (uuid : Str) (roster : Roster) : Roster :=
  { roster with
    via := fun other => if other = uuid then none else roster.via other
    rmember := fun name other => roster.rmember name other && other ≠ uuid }

end Roster

open Roster

namespace Server

/-! ## Operations that keep the roster -/

@[simp] theorem roster_propagate (out : Out) (except : Option Uid) :
    (server.propagate out except).roster = server.roster := rfl

theorem roster_of_users
    (hus : ∀ uid, (after.users.lookup uid).map User.place =
      (before.users.lookup uid).map User.place) (hloc : after.uuidLocal = before.uuidLocal)
    (hchans : after.channels = before.channels)
    (hrem : ∀ uuid, (after.remoteUsers.lookup uuid).map RemoteUser.via =
      (before.remoteUsers.lookup uuid).map RemoteUser.via) : after.roster = before.roster := by
  ext1
  · funext uid
    have hplace := congrArg (Option.map Prod.fst) (hus uid)
    simpa [roster, map_map, Function.comp_def, User.place] using hplace
  · funext uuid
    exact congrArg (AList.lookup uuid) hloc
  · funext uid key
    exact isOn_congr (hus uid) key
  · funext uid key
    simp only [roster, isMember, hchans]
  · funext key uuid
    simp only [roster, isRemoteMember, hchans]
  · funext uuid
    exact hrem uuid

theorem roster_changeUser {change : User → User}
    (hchg : ∀ user, (change user).place = user.place) :
    (server.changeUser uid change).roster = server.roster :=
  roster_of_users (map_modify hchg uid) rfl rfl fun _ => rfl

theorem roster_changeRemote {change : RemoteUser → RemoteUser}
    (hchg : ∀ remote, (change remote).via = remote.via) :
    (server.changeRemote uuid change).roster = server.roster := by
  refine roster_of_users (fun _ => rfl) rfl rfl fun other => ?_
  rw [changeRemote_remoteUsers, lookup_modify]
  split
  · rename_i ho
    rw [ho, Option.map_map]
    exact congrArg (Option.map · _) (funext hchg)
  · rfl

theorem isMember_eq :
    server.isMember uid key =
      (server.channels.lookup key).any fun channel => uid ∈ channel.members := by
  unfold isMember
  cases server.channels.lookup key <;> rfl

theorem isRemoteMember_eq :
    server.isRemoteMember key uuid =
      (server.channels.lookup key).any fun channel => uuid ∈ channel.rmembers := by
  unfold isRemoteMember
  cases server.channels.lookup key <;> rfl

theorem isOn_eq :
    server.isOn uid key = (server.users.lookup uid).any fun user => key ∈ user.channels := by
  unfold isOn
  cases server.users.lookup uid <;> rfl

theorem roster_changeChannel {change : Channel → Channel} (hchg : KeepsSeats change) :
    (server.changeChannel key change).roster = server.roster := by
  ext1
  · rfl
  · rfl
  · rfl
  · funext uid name
    simp only [roster, isMember_eq, changeChannel_channels, lookup_modify]
    split
    · rename_i hname
      subst hname
      simp [any_map, hchg.members]
    · rfl
  · funext name uuid
    simp only [roster, isRemoteMember_eq, changeChannel_channels, lookup_modify]
    split
    · rename_i hname
      subst hname
      simp [any_map, hchg.rmembers]
    · rfl
  · rfl

theorem any_filter_keepAlive {occupied : Channel → Bool}
    (hoccupied : ∀ channel, occupied channel = true → channel.keepAlive = true)
    (found : Option Channel) : (found.filter keepAlive).any occupied = found.any occupied := by
  cases found with
  | none => rfl
  | some channel =>
    cases hchan : occupied channel with
    | false =>
      rw [Option.filter]
      split <;> simp [hchan]
    | true => simp [hoccupied channel hchan, hchan]

@[simp] theorem roster_reapChannels : server.reapChannels.roster = server.roster := by
  ext1
  · rfl
  · rfl
  · rfl
  · funext uid key
    simp only [roster, isMember_eq, reapChannels_channels, lookup_retain]
    exact any_filter_keepAlive
      (fun _ hmb => keepAlive_iff.mpr (.inl ⟨uid, of_decide_eq_true hmb⟩)) _
  · funext key uuid
    simp only [roster, isRemoteMember_eq, reapChannels_channels, lookup_retain]
    exact any_filter_keepAlive
      (fun _ hmb => keepAlive_iff.mpr (.inr (.inl ⟨uuid, of_decide_eq_true hmb⟩))) _
  · rfl

theorem isMember_reapChannels : server.reapChannels.isMember uid key = server.isMember uid key :=
  congrFun₂ (congrArg member server.roster_reapChannels) uid key

theorem isRemoteMember_reapChannels :
    server.reapChannels.isRemoteMember key uuid = server.isRemoteMember key uuid :=
  congrFun₂ (congrArg rmember server.roster_reapChannels) key uuid

/-! ## Moves of local users -/

theorem roster_dropMember : (server.dropMember uid key).roster = server.roster.leave uid key := by
  rw [dropMember, roster_reapChannels]
  ext1
  · funext other
    refine map_modify ?_ uid other
    exact fun _ => rfl
  · rfl
  · funext other name
    simp only [roster, isOn_eq, leave_on, lookup_modify]
    by_cases ho : other = uid
    · subst ho
      cases server.users.lookup other <;>
        simp [List.mem_filter, Bool.decide_and]
    · simp [ho]
  · funext other name
    simp only [roster, isMember_eq, leave_member, lookup_modify]
    by_cases hname : name = key
    · subst hname
      cases server.channels.lookup name <;>
        simp [AList.mem_erase, Bool.decide_and, Bool.and_comm]
    · simp [hname]
  · funext name uuid
    simp only [roster, isRemoteMember_eq, leave_rmember, lookup_modify]
    by_cases hname : name = key
    · subst hname
      cases server.channels.lookup name <;> simp
    · simp [hname]
  · rfl

theorem roster_propagateJoin
    (isNew : Bool) : (server.propagateJoin uid chan isNew).roster = server.roster := by
  obtain ⟨sent, hsent⟩ := server.propagateJoin_eq uid chan isNew
  rw [hsent]
  rfl

theorem letIn_channels (name : Str) :
    (server.letIn uid name).channels =
      let channel := (server.channels.lookup (toAsciiLower name)).getD
        (new server.clock name)
      server.channels.insert (toAsciiLower name) { channel with
        members := channel.members.insert uid { prefixes := fun held =>
          (server.channels.lookup (toAsciiLower name)).isNone && held = .op }
        invites := channel.invites.filter (· ≠ uid) } :=
  propagateJoin_channels ..

theorem roster_propagatePart (reason : Str) :
    (server.propagatePart uid chan reason).roster = server.roster := by
  unfold propagatePart
  split
  · split <;> rfl
  · rfl

theorem roster_propagateKick (victim reason : Str) :
    (server.propagateKick uid chan victim reason).roster = server.roster := by
  unfold propagateKick
  split
  · split <;> rfl
  · rfl

theorem roster_letIn {server : Server} {uid : Uid} (hu : uid ∈ server.users) (name : Str) :
    (server.letIn uid name).roster = server.roster.enter uid (toAsciiLower name) := by
  refine (roster_propagateJoin _ uid name _).trans ?_
  obtain ⟨user, hu⟩ := mem_iff_lookup.mp hu
  ext1
  · funext other
    refine map_modify ?_ uid other
    exact fun _ => rfl
  · rfl
  · funext other key
    simp only [roster, isOn_eq, enter_on, lookup_modify]
    by_cases ho : other = uid
    · subst ho
      simp [hu, List.mem_insert_iff, Bool.decide_or, Bool.or_comm]
    · simp [ho]
  · funext other key
    simp only [roster, isMember_eq, enter_member, lookup_insert_eq]
    by_cases hkey : key = toAsciiLower name
    · subst hkey
      cases server.channels.lookup (toAsciiLower name) <;>
        simp [-AList.insert_empty, AList.mem_insert, Bool.decide_or, Bool.or_comm, new]
    · simp [hkey]
  · funext key uuid
    simp only [roster, isRemoteMember_eq, enter_rmember, lookup_insert_eq]
    by_cases hkey : key = toAsciiLower name
    · subst hkey
      cases server.channels.lookup (toAsciiLower name) <;> simp [new]
    · simp [hkey]
  · rfl

theorem isOn_eq_place :
    server.isOn uid key = ((server.users.lookup uid).map User.place).any
      fun place => key ∈ place.2 := by
  rw [isOn_eq, any_map]
  rfl

theorem roster_removeUser {server : Server} {uid : Uid} {user : User}
    (hu : server.users.lookup uid = some user)
    (hreg : user.registered = true) (reason : Str) :
    (server.removeUser uid reason).roster = server.roster.depart uid user.uuid := by
  have hchans := removeUser_channels hu reason
  rw [if_pos hreg] at hchans
  have hon : ∀ key, server.isOn uid key = decide (key ∈ user.channels) := by
    simp [isOn_eq, hu]
  ext1
  · funext other
    exact map_removeUser (fun _ _ => rfl) other
  · funext uuid
    simp only [roster, removeUser_uuidLocal hu, depart_uidOf, lookup_erase_eq]
  · funext other key
    simp only [roster, depart_on, isOn_eq_place]
    rw [map_removeUser (fun _ _ => rfl) other]
    by_cases ho : other = uid
    · simp [ho]
    · simp [ho]
  · funext other key
    simp only [roster, depart_member, hon]
    rw [isMember_eq, hchans, ← isMember_eq, leaveChannels, isMember_reapChannels]
    simp only [isMember_eq, lookup_mapValues, any_map]
    cases server.channels.lookup key with
    | none => rfl
    | some channel =>
      by_cases hkey : key ∈ user.channels
      · simp [hkey, AList.mem_erase, Bool.decide_and, Bool.and_comm]
      · simp [hkey]
  · funext key uuid
    simp only [roster, depart_rmember]
    rw [isRemoteMember_eq, hchans, ← isRemoteMember_eq, leaveChannels,
      isRemoteMember_reapChannels]
    simp only [isRemoteMember_eq, lookup_mapValues, any_map]
  · funext uuid
    simp only [roster, removeUser_remoteUsers hu, depart_via]

/-! ## Moves of remote users -/

theorem roster_enterRemote (member : Member) (ts : Timestamp) (name : Str) :
    (server.enterRemote key uuid member (new ts name)).roster =
      server.roster.seat key [uuid] := by
  ext1
  · rfl
  · rfl
  · rfl
  · funext uid other
    simp only [roster, enterRemote, isMember_eq, seat_member, lookup_insert_eq]
    by_cases hkey : other = key
    · subst hkey
      cases server.channels.lookup other <;> simp [new]
    · simp [hkey]
  · funext other who
    simp only [roster, enterRemote, isRemoteMember_eq, seat_rmember, lookup_insert_eq]
    by_cases hkey : other = key
    · subst hkey
      cases server.channels.lookup other <;>
        simp [-AList.insert_empty, AList.mem_insert, Bool.decide_or, Bool.or_comm, new]
    · simp [hkey]
  · rfl

theorem roster_eraseRemote :
    (server.changeChannel key fun channel =>
      { channel with rmembers := channel.rmembers.erase uuid }).roster =
      server.roster.unseat key uuid := by
  ext1
  · rfl
  · rfl
  · rfl
  · funext uid other
    simp only [roster, isMember_eq, unseat_member, changeChannel_channels, lookup_modify]
    by_cases hkey : other = key
    · subst hkey
      simp [any_map]
    · simp [hkey]
  · funext other who
    simp only [roster, isRemoteMember_eq, unseat_rmember, changeChannel_channels, lookup_modify]
    by_cases hkey : other = key
    · subst hkey
      cases server.channels.lookup other <;>
        simp [AList.mem_erase, Bool.decide_and, Bool.and_comm]
    · simp [hkey]
  · rfl

theorem roster_dropRemoteMember :
    (server.dropRemoteMember key uuid).roster = server.roster.unseat key uuid := by
  rw [dropRemoteMember, roster_reapChannels, roster_eraseRemote]

theorem roster_dropRemoteUser {server : Server} {uuid : Str} (hkn : uuid ∈ server.remoteUsers) :
    (server.dropRemoteUser uuid).roster = server.roster.forget uuid := by
  obtain ⟨remote, hrem⟩ := mem_iff_lookup.mp hkn
  simp only [dropRemoteUser, hrem]
  ext1
  · rfl
  · rfl
  · rfl
  · funext uid key
    refine (isMember_reapChannels _ uid key).trans ?_
    simp only [roster, isMember_eq, lookup_mapValues, any_map, forget_member]
  · funext key other
    refine (isRemoteMember_reapChannels _ key other).trans ?_
    simp only [roster, isRemoteMember_eq, lookup_mapValues, any_map, forget_rmember]
    cases server.channels.lookup key <;>
      simp [AList.mem_erase, Bool.decide_and, Bool.and_comm]
  · funext other
    simp only [roster, forget_via, lookup_erase_eq]
    split <;> rfl

theorem mem_insertAll {adds : List (Str × Member)} {table : Table Str Member} {uuid : Str} :
    uuid ∈ adds.foldl (fun table entry => table.insert entry.1 entry.2) table ↔
      uuid ∈ table ∨ uuid ∈ adds.map Prod.fst := by
  induction adds generalizing table with
  | nil => simp
  | cons entry adds ih =>
    rw [List.foldl_cons, ih, AList.mem_insert, List.map_cons, List.mem_cons]
    tauto

private theorem mem_mapValues {K V : Type} [DecidableEq K] {table : Table K V}
    {change : K → V → V} {key : K} : key ∈ mapValues change table ↔ key ∈ table := by
  rw [← AList.lookup_isSome, ← AList.lookup_isSome, lookup_mapValues]
  simp

theorem arbitrate_seats (ts : Timestamp) (modes chan : Str) (now : Timestamp)
    (found : Option Channel) :
    (∀ uid, uid ∈ (arbitrate ts modes chan now found).members ↔
      found.any (fun channel => uid ∈ channel.members) = true) ∧
    ∀ uuid, uuid ∈ (arbitrate ts modes chan now found).rmembers ↔
      found.any (fun channel => uuid ∈ channel.rmembers) = true := by
  cases found with
  | none => simp [arbitrate, adopt, new]
  | some channel =>
    simp only [arbitrate]
    split
    · simp [adopt, wipe, mem_mapValues]
    · split
      · simp
      · simp [adopt]

def seatedBy (server : Server) (members : Str) : List Str :=
  ((words members).map fun token => (splitMember token).2).filter fun uuid =>
    uuid ∉ server.uuidLocal ∧ uuid ∈ server.remoteUsers

theorem map_fjoinMembers (keepStatus : Bool) (members : Str) :
    (server.fjoinMembers keepStatus members).map Prod.fst = server.seatedBy members := by
  unfold fjoinMembers seatedBy
  induction words members with
  | nil => rfl
  | cons token tokens ih =>
    by_cases hkn : (splitMember token).2 ∉ server.uuidLocal ∧
        (splitMember token).2 ∈ server.remoteUsers
    · have hskip : ¬((splitMember token).2 ∈ server.uuidLocal ∨
          (splitMember token).2 ∉ server.remoteUsers) := by tauto
      simpa [List.filterMap_cons, hskip, hkn] using ih
    · have hskip : (splitMember token).2 ∈ server.uuidLocal ∨
          (splitMember token).2 ∉ server.remoteUsers := by tauto
      simpa [List.filterMap_cons, hskip, hkn] using ih

theorem roster_linkFjoinRecv (via : Uid) {message : Message} {chan ts modes members : Str}
    {rest : List Str} (hpar : message.params = chan :: ts :: modes :: members :: rest) :
    (server.linkFjoinRecv via message).roster =
      server.roster.seat (toAsciiLower chan) (server.seatedBy members) := by
  simp only [linkFjoinRecv, hpar]
  refine (roster_propagate ..).trans ?_
  have hseats := arbitrate_seats ((parseU64 ts).getD server.clock) modes chan
    server.clock (server.channels.lookup (toAsciiLower chan))
  ext1
  · rfl
  · rfl
  · rfl
  · funext uid other
    simp only [roster, isMember_eq, seat_member, lookup_insert_eq]
    by_cases hkey : other = toAsciiLower chan
    · subst hkey
      simp [hseats.1 uid]
    · simp [hkey]
  · funext other who
    simp only [roster, isRemoteMember_eq, seat_rmember, lookup_insert_eq]
    by_cases hkey : other = toAsciiLower chan
    · subst hkey
      simp [mem_insertAll, map_fjoinMembers, hseats.2 who, Bool.decide_or]
    · simp [hkey]
  · rfl

/-! ## Hooks and modes -/

theorem place_of_badge {before after : User} (hbadge : after.badge = before.badge) :
    after.place = before.place := by
  simp only [User.badge, Prod.mk.injEq] at hbadge
  obtain ⟨⟨huuid, -⟩, hreg, hchans, -, -, -⟩ := hbadge
  simp only [User.place, User.identity, huuid, hreg, hchans]

theorem roster_touches {marked : Uid → Prop} (htch : Touches marked before after) :
    after.roster = before.roster := by
  refine htch.same Server.roster ?_
  intro before after htouch
  cases htouch with
  | say _ _ => rfl
  | user uid hchg _ =>
    exact roster_changeUser before uid fun user => place_of_badge (hchg user)
  | regrade key uid change =>
    exact roster_changeChannel before key (keepsSeats_modifyMember ..)

end Server

end EchoIrcd
