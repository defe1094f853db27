import EchoIrcd.NickRuns
import EchoIrcd.Roster

/-!
# Both sides of a membership

A local membership is stored twice, in the channel and in the user, and a
channel that nobody is in is reaped unless a mode keeps it.  Nearly everything
is steady: it moves no local user and leaves no dead channel behind.  Joins,
departures and renames move both sides together.  Two steps do not: an `FJOIN`
may leave a new channel with no member, and a connection that services put
into a channel before it has registered leaves its seat behind when it goes.
-/

namespace EchoIrcd

open Str Table Server Channel Option

variable {after before : Server} {key oldkey : Str} {channel : Channel} (server : Server)
  (uid via : Uid) (message : Message) (uuid ip : Str)

namespace Server

def AllAlive (server : Server) : Prop :=
  ∀ key channel, server.channels.lookup key = some channel → channel.keepAlive = true

/-- Membership is the same on both sides, and every channel has a reason to be. -/
structure Housed (server : Server) : Prop where
  both : ∀ uid user key, server.users.lookup uid = some user →
    (server.isMember uid key = true ↔ key ∈ user.channels)
  connected : ∀ uid key, server.isMember uid key = true → uid ∈ server.users
  alive : server.AllAlive

/-- Somebody not connected is on no channel, so one equation says both. -/
structure Tidy (server : Server) : Prop where
  balanced : ∀ uid key, server.isMember uid key = server.isOn uid key
  alive : server.AllAlive

theorem Tidy.housed {server : Server} (htidy : server.Tidy) : server.Housed where
  both := by
    intro uid user key hu
    rw [htidy.balanced, isOn_iff]
    constructor
    · rintro ⟨other, ho, hkey⟩
      rw [hu] at ho
      cases ho
      exact hkey
    · exact fun hkey => ⟨user, hu, hkey⟩
  connected := by
    intro uid key hmb
    rw [htidy.balanced, isOn_iff] at hmb
    obtain ⟨user, hu, -⟩ := hmb
    exact mem_of_lookup hu
  alive := htidy.alive

/-! ## Steady operations -/

structure Steady (before after : Server) : Prop where
  member : after.isMember = before.isMember
  on : after.isOn = before.isOn
  alive : before.AllAlive → after.AllAlive

theorem Tidy.of_steady (htidy : before.Tidy) (hstd : Steady before after) : after.Tidy where
  balanced := by
    intro uid key
    rw [hstd.member, hstd.on, htidy.balanced]
  alive := hstd.alive htidy.alive

namespace Steady

variable {first second third : Server}

theorem refl (server : Server) : Steady server server := ⟨rfl, rfl, id⟩

theorem trans (hleft : Steady first second) (hrt : Steady second third) :
    Steady first third where
  member := hrt.member.trans hleft.member
  on := hrt.on.trans hleft.on
  alive := fun hal => hrt.alive (hleft.alive hal)

theorem of_users (hchans : second.channels = first.channels)
    (hus : ∀ uid, (second.users.lookup uid).map User.channels =
      (first.users.lookup uid).map User.channels) : Steady first second where
  member := by
    funext uid key
    rw [isMember_eq, isMember_eq, hchans]
  on := by
    have hon : ∀ (server : Server) uid key, server.isOn uid key =
        ((server.users.lookup uid).map User.channels).any fun held => key ∈ held := by
      intro server uid key
      rw [isOn_eq, any_map]
    funext uid key
    rw [hon, hon, hus]
  alive := by
    intro hal key channel hf
    rw [hchans] at hf
    exact hal key channel hf

theorem of_same (hchans : second.channels = first.channels)
    (hus : second.users = first.users) : Steady first second :=
  of_users hchans fun uid => by rw [hus]

theorem of_reaped (hros : second.roster.member = first.roster.member)
    (hus : second.users = first.users) : Steady first second.reapChannels where
  member := by
    funext uid key
    rw [isMember_reapChannels]
    exact congrFun₂ hros uid key
  on := by
    funext uid key
    rw [isOn_eq, isOn_eq, reapChannels_users, hus]
  alive := by
    intro _ key channel hf
    exact (lookup_reapChannels.mp hf).2

theorem insertChannel {server : Server}
    (hmems : ∀ uid, uid ∈ channel.members ↔ server.isMember uid key = true)
    (hal : server.AllAlive → channel.keepAlive = true) :
    Steady server { server with channels := server.channels.insert key channel } where
  member := by
    funext uid other
    simp only [isMember_eq, lookup_insert_eq]
    by_cases ho : other = key
    · rw [if_pos ho, ho, ← isMember_eq]
      simp [hmems]
    · rw [if_neg ho]
  on := rfl
  alive := by
    intro hall other found hf
    obtain ⟨-, rfl⟩ | ⟨-, hf⟩ := of_lookup_insert hf
    · exact hal hall
    · exact hall other found hf

theorem changeChannel (key : Str) {change : Channel → Channel} (hseats : KeepsSeats change)
    (hal : ∀ channel, channel.keepAlive = true → (change channel).keepAlive = true) :
    Steady server (server.changeChannel key change) where
  member := congrArg Roster.member (roster_changeChannel server key hseats)
  on := rfl
  alive := by
    intro hall other found hf
    obtain ⟨channel, hchan, ⟨-, rfl⟩ | ⟨-, rfl⟩⟩ := of_lookup_modify hf
    · exact hal channel (hall _ channel hchan)
    · exact hall other found hchan

end Steady

theorem steady_touches {marked : Uid → Prop}
    (htch : Touches marked before after) : Steady before after := by
  refine htch.frame Steady .refl .trans ?_
  intro before after htouch
  cases htouch with
  | say _ _ => exact .of_same rfl rfl
  | user uid hchg _ =>
    refine .of_users rfl (map_modify ?_ uid)
    exact fun user => congrArg (fun badge => badge.2.2.1) (hchg user)
  | regrade key uid change =>
    refine .changeChannel before key (keepsSeats_modifyMember ..) ?_
    intro channel hal
    rw [keepAlive_iff] at hal ⊢
    simpa only [mem_modify] using hal

theorem steady_drainHooks (env : Env) (server : Server) :
    Steady server (server.drainHooks env) := by
  refine .trans ?_ (steady_touches (touches_drainHooks env server))
  exact .of_same rfl rfl

/-! ## Links and remote users -/

theorem steady_propagate (out : Out) (except : Option Uid) :
    Steady server (server.propagate out except) :=
  .of_same rfl rfl

theorem steady_linkOut (out : Out) : Steady server (server.linkOut uid out) :=
  .of_same rfl rfl

theorem steady_dropRemoteUser : Steady server (server.dropRemoteUser uuid) := by
  by_cases hkn : uuid ∈ server.remoteUsers
  · have hros := roster_dropRemoteUser hkn
    obtain ⟨remote, hrem⟩ := mem_iff_lookup.mp hkn
    refine ⟨congrArg Roster.member hros, congrArg Roster.on hros, ?_⟩
    intro _ key channel hf
    simp only [dropRemoteUser, hrem, lookup_reapChannels] at hf
    exact hf.2
  · rw [dropRemoteUser, AList.lookup_eq_none.mpr hkn]
    exact .refl server

theorem steady_closeLink : Steady server (server.closeLink uid) := by
  refine .trans ?_ (foldl_rel .refl .trans steady_dropRemoteUser _ _)
  exact .of_same rfl rfl

theorem steady_rejectLink (why : Str) : Steady server (server.rejectLink uid why) := by
  refine .trans ?_ (steady_closeLink ..)
  exact .of_same rfl rfl

theorem steady_linkServer (env : Env) (server : Server) (uid : Uid) (message : Message) :
    Steady server (server.linkServer env uid message) := by
  have hac : ∀ block name sid desc,
      Steady server (server.acceptLink uid block name sid desc) := by
    intro block name sid desc
    have hburst : ∀ (middle : Server) outs, Steady middle (middle.linkOutAll uid outs) := by
      intro middle outs
      obtain ⟨sent, hsent⟩ := middle.linkOutAll_eq uid outs
      rw [hsent]
      exact .of_same rfl rfl
    refine .trans ?_ (hburst _ _)
    unfold greet
    split
    · exact .of_same rfl rfl
    · exact .of_same rfl rfl
  exact linkServer_rel env message (fun _ => steady_rejectLink ..) fun _ _ _ _ _ _ => hac ..

theorem steady_addLink (outbound : Bool) : Steady server (server.addLink uid ip outbound) := by
  unfold addLink
  simp only
  split
  · exact .of_same rfl rfl
  · exact .of_same rfl rfl

theorem steady_forwardToTarget (target : Str) (message : Message)
    (origin : Uid) : Steady server (server.forwardToTarget target message origin) := by
  unfold forwardToTarget
  split
  · split
    · exact .of_same rfl rfl
    · exact .refl server
  · exact .refl server

/-! ## Nick changes -/

theorem steady_setNick (newnick : Str) : Steady server (server.setNick uid newnick) := by
  have htold : ∀ renamed : Server,
      (renamed.propagateNick uid newnick).channels = renamed.channels := by
    intro renamed
    unfold propagateNick
    split
    · split <;> rfl
    · rfl
  refine .of_users ?_ fun other => ?_
  · unfold setNick
    split
    · rfl
    · rw [htold]
      split <;> rfl
  · rw [map_setNick fun _ _ => rfl]
    split
    · rename_i ho
      rw [ho]
    · rfl

theorem steady_saveRemoteUser : Steady server (server.saveRemoteUser uuid) := by
  unfold saveRemoteUser
  split
  · exact .refl server
  · split
    · exact .of_same rfl rfl
    · exact .of_same rfl rfl

theorem steady_nickFrame {via : Uid} : NickFrame via Steady where
  refl := .refl
  trans := .trans
  tell := fun _ _ _ _ => .of_same rfl rfl
  relay := fun _ _ _ => .of_same rfl rfl
  forward := fun _ _ _ => steady_forwardToTarget ..
  setNick := steady_setNick
  save := steady_saveRemoteUser
  enter := fun _ _ => .of_same rfl rfl
  rename := fun _ _ _ _ _ => .of_same rfl rfl
  drop := steady_dropRemoteUser

/-! ## Remote members -/

theorem steady_enterRemote (key uuid : Str) (member : Member) (ts : Timestamp) (name : Str) :
    Steady server (server.enterRemote key uuid member (new ts name)) := by
  refine .insertChannel ?_ ?_
  · intro uid
    rw [isMember_eq]
    cases server.channels.lookup key <;> simp [new]
  · intro _
    rw [keepAlive_iff]
    exact .inr (.inl ⟨uuid, (AList.mem_insert _).mpr (.inl rfl)⟩)

theorem steady_linkIjoinRecv : Steady server (server.linkIjoinRecv via message) := by
  unfold linkIjoinRecv
  split
  · split
    · exact (steady_enterRemote ..).trans (steady_propagate ..)
    · exact .refl server
  · exact .refl server

theorem steady_dropRemoteMember (key uuid : Str) :
    Steady server (server.dropRemoteMember key uuid) := by
  refine .of_reaped ?_ rfl
  rw [roster_eraseRemote]
  rfl

def fjoinModes (server : Server) (chan ts modes : Str) : ChanModes :=
  (arbitrate ((parseU64 ts).getD server.clock) modes chan server.clock
    (server.channels.lookup (toAsciiLower chan))).modes

/--
The channel of an FJOIN is left with a member, one it had or a user of the line
that is known here, or with a mode that keeps it.
-/
def FjoinKept (server : Server) (message : Message) : Prop :=
  ∀ chan ts modes members rest, message.params = chan :: ts :: modes :: members :: rest →
    (∃ uid, server.isMember uid (toAsciiLower chan) = true) ∨
    (∃ uuid, server.isRemoteMember (toAsciiLower chan) uuid = true) ∨
    server.seatedBy members ≠ [] ∨
    (server.fjoinModes chan ts modes).flags .permanent = true ∨
    (server.fjoinModes chan ts modes).flags .registered = true

theorem steady_linkFjoinRecv {server : Server} {message : Message}
    (hkept : server.FjoinKept message) (via : Uid) :
    Steady server (server.linkFjoinRecv via message) := by
  unfold linkFjoinRecv
  split
  · rename_i chan ts modes members rest hpar
    obtain ⟨hmems, hrm⟩ := arbitrate_seats ((parseU64 ts).getD server.clock) modes
      chan server.clock (server.channels.lookup (toAsciiLower chan))
    refine .trans ?_ (steady_propagate ..)
    refine .insertChannel ?_ ?_
    · intro uid
      rw [isMember_eq]
      exact hmems uid
    · intro _
      rw [keepAlive_iff]
      rcases hkept chan ts modes members rest hpar with
        ⟨uid, huid⟩ | ⟨uuid, huuid⟩ | hse | hmode
      · rw [isMember_eq] at huid
        exact .inl ⟨uid, (hmems uid).mpr huid⟩
      · rw [isRemoteMember_eq] at huuid
        exact .inr (.inl ⟨uuid, mem_insertAll.mpr (.inl ((hrm uuid).mpr huuid))⟩)
      · obtain ⟨uuid, huuid⟩ := List.exists_mem_of_ne_nil _ hse
        refine .inr (.inl ⟨uuid, mem_insertAll.mpr (.inr ?_)⟩)
        rw [map_fjoinMembers]
        exact huuid
      · exact .inr (.inr hmode)
  · exact .refl server

/-! ## Moves of local users -/

theorem AllAlive.reapChannels : server.reapChannels.AllAlive := by
  intro key channel hf
  exact (lookup_reapChannels.mp hf).2

theorem Tidy.of_roster {roster : Roster} (hros : after.roster = roster)
    (hbalanced : ∀ uid key, roster.member uid key = roster.on uid key)
    (hal : after.AllAlive) : after.Tidy where
  balanced := by
    intro uid key
    have hs := hbalanced uid key
    rw [← hros] at hs
    exact hs
  alive := hal

theorem steady_propagatePart (chan reason : Str) :
    Steady server (server.propagatePart uid chan reason) := by
  unfold propagatePart
  split
  · split
    · exact steady_propagate ..
    · exact .refl server
  · exact .refl server

theorem steady_propagateKick (chan victim reason : Str) :
    Steady server (server.propagateKick uid chan victim reason) := by
  unfold propagateKick
  split
  · split
    · exact steady_propagate ..
    · exact .refl server
  · exact .refl server

theorem isMember_of_rank {server : Server} {uid : Uid}
    (hrank : 0 < server.rank uid key) : server.isMember uid key = true := by
  unfold rank at hrank
  split at hrank
  · rename_i member hmb
    obtain ⟨channel, hchan, hf⟩ := bind_eq_some_iff.mp hmb
    exact isMember_iff.mpr ⟨channel, hchan, mem_of_lookup hf⟩
  · cases hrank

theorem steady_eraseRemote {server : Server} {uuid : Str}
    (hmb : server.isMember uid key = true) :
    Steady server (server.changeChannel key fun channel =>
      { channel with rmembers := channel.rmembers.erase uuid }) where
  member := by
    have hros := roster_eraseRemote server key uuid
    exact congrArg Roster.member hros
  on := rfl
  alive := by
    intro hall other channel hf
    obtain ⟨found, hchan, ⟨rfl, rfl⟩ | ⟨-, rfl⟩⟩ := of_lookup_modify hf
    · obtain ⟨held, hheld, huid⟩ := isMember_iff.mp hmb
      rw [hheld] at hchan
      cases hchan
      exact keepAlive_iff.mpr (.inl ⟨uid, huid⟩)
    · exact hall other channel hchan

theorem isOn_rekeyMembers {server moved : Server} {members : Table Uid Member} {newkey : Str}
    (hus : moved.users = rekeyMembers members oldkey newkey server.users) (uid : Uid)
    (key : Str) :
    moved.isOn uid key = if uid ∈ members then
        uid ∈ server.users && (key = newkey || (key ≠ oldkey && server.isOn uid key))
      else server.isOn uid key := by
  rw [isOn_eq, hus, rekeyMembers, lookup_mapValues, isOn_eq]
  cases hu : server.users.lookup uid with
  | none =>
    have habs : uid ∉ server.users := AList.lookup_eq_none.mp hu
    split
    · simp [habs]
    · rfl
  | some user =>
    have hpres : uid ∈ server.users := mem_of_lookup hu
    split
    · simp [*, List.mem_insert_iff, Bool.decide_or, Bool.decide_and, Bool.and_comm]
    · simp [*]

namespace Tidy

variable {server} (htidy : server.Tidy)

include htidy

theorem dropMember (uid : Uid) (key : Str) : (server.dropMember uid key).Tidy := by
  refine .of_roster (roster_dropMember server uid key) ?_ (AllAlive.reapChannels _)
  intro other name
  exact congrArg (· && _) (htidy.balanced other name)

theorem letIn {uid : Uid}
    (hu : uid ∈ server.users) (name : Str) : (server.letIn uid name).Tidy := by
  refine .of_roster (roster_letIn hu name) ?_ ?_
  · intro other key
    exact congrArg (· || _) (htidy.balanced other key)
  · have hchans := server.letIn_channels uid name
    intro key channel hf
    rw [hchans] at hf
    obtain ⟨-, rfl⟩ | ⟨-, hf⟩ := of_lookup_insert hf
    · rw [keepAlive_iff]
      exact .inl ⟨uid, (AList.mem_insert _).mpr (.inl rfl)⟩
    · exact htidy.alive key channel hf

theorem join (env : Env) (uid : Uid) (name : Str) : (server.join env uid name).Tidy := by
  unfold Server.join
  split
  · split
    · rename_i hmay
      refine htidy.letIn ?_ _
      rw [mayJoin, Bool.and_eq_true] at hmay
      cases hu : server.users.lookup uid with
      | none =>
        rw [hu] at hmay
        cases hmay.2
      | some user => exact mem_of_lookup hu
    · exact htidy
  · exact htidy

theorem part (uid : Uid) (target reason : Str) : (server.part uid target reason).Tidy := by
  unfold Server.part
  simp only
  split
  · exact (htidy.of_steady (steady_propagatePart ..)).dropMember ..
  · exact htidy

theorem kick (uid : Uid)
    (chan victim reason : Str) : (server.kick uid chan victim reason).Tidy := by
  unfold Server.kick
  simp only
  split
  · exact htidy
  · split
    · exact htidy
    · have htold := htidy.of_steady (steady_propagateKick server uid chan victim reason)
      split
      · split
        · exact htold.dropMember ..
        · exact htidy
      · split
        · refine htold.of_steady (steady_eraseRemote uid ?_)
          rw [(steady_propagateKick ..).member]
          exact isMember_of_rank (by omega)
        · exact htidy

theorem linkKickRecv (via : Uid) (message : Message) : (server.linkKickRecv via message).Tidy := by
  unfold Server.linkKickRecv
  split
  · simp only
    split
    · split
      · split
        · exact (htidy.dropMember ..).of_steady (steady_propagate ..)
        · exact htidy
      · split
        · exact htidy.of_steady ((steady_dropRemoteMember ..).trans (steady_propagate ..))
        · exact htidy
      · exact htidy
    · exact htidy
  · exact htidy

theorem linkSvsjoin (env : Env) (via : Uid)
    (message : Message) : (server.linkSvsjoin env via message).Tidy := by
  unfold Server.linkSvsjoin
  split
  · unfold onTarget
    split
    · exact htidy.join ..
    · exact htidy.of_steady (steady_forwardToTarget ..)
  · exact htidy

/-! ## Renaming a channel -/

theorem renameChannel {renamed : Server} {newname : Str}
    (hrn : server.renameChannel oldkey newname = some renamed) : renamed.Tidy := by
  unfold Server.renameChannel at hrn
  simp only at hrn
  split at hrn
  · cases hrn
  · rename_i channel hchan
    split at hrn
    · cases hrn
      refine htidy.of_steady (.insertChannel ?_ ?_)
      · intro uid
        rw [isMember_eq, hchan]
        simp
      · exact fun hall => hall oldkey channel hchan
    · rename_i hmv
      split at hrn
      · cases hrn
      · rename_i hfree
        cases hrn
        have hseat : ∀ uid, uid ∈ channel.members ↔ server.isOn uid oldkey = true := by
          intro uid
          rw [← htidy.balanced, isMember_eq, hchan]
          simp
        have hnobody : ∀ uid, server.isOn uid (toAsciiLower newname) = false := by
          intro uid
          rw [← htidy.balanced, isMember_eq, AList.lookup_eq_none.mpr hfree]
          rfl
        constructor
        · intro uid key
          rw [isOn_rekeyMembers rfl uid key]
          simp only [isMember_eq, lookup_insert_eq, lookup_erase_eq]
          have hpres : uid ∈ channel.members → uid ∈ server.users := by
            intro hmb
            obtain ⟨user, hu, -⟩ := isOn_iff.mp ((hseat uid).mp hmb)
            exact mem_of_lookup hu
          by_cases hnew : key = toAsciiLower newname
          · rw [if_pos hnew, hnew, hnobody]
            by_cases hmb : uid ∈ channel.members <;> simp [hmb, hpres]
          · rw [if_neg hnew]
            by_cases hold : key = oldkey
            · rw [if_pos hold, hold]
              by_cases hmb : uid ∈ channel.members
              · simp [hmb, Ne.symm hmv]
              · have hoff : server.isOn uid oldkey = false := by
                  rw [← Bool.not_eq_true, ← hseat]
                  exact hmb
                simp [hmb, hoff]
            · rw [if_neg hold, ← isMember_eq, htidy.balanced]
              by_cases hmb : uid ∈ channel.members <;> simp [hmb, hpres, hnew, hold]
        · intro key found hf
          obtain ⟨-, rfl⟩ | ⟨-, hf⟩ := of_lookup_insert hf
          · exact htidy.alive oldkey channel hchan
          · exact htidy.alive key found (of_lookup_erase hf).2

theorem linkRenameRecv (via : Uid)
    (message : Message) : (server.linkRenameRecv via message).Tidy := by
  unfold Server.linkRenameRecv
  split
  · split
    · split
      · rename_i hrn
        exact (htidy.renameChannel hrn).of_steady (steady_propagate ..)
      · exact htidy
    · exact htidy
  · exact htidy

/-! ## Coming and going -/

theorem addConn {uid : Uid} {user : User}
    (hfre : uid ∉ server.users) (hnone : user.channels = []) :
    (server.addConn uid user).Tidy := by
  refine htidy.of_steady ⟨rfl, ?_, id⟩
  funext other key
  rw [isOn_eq, isOn_eq, addConn_users, lookup_insert_eq]
  split
  · rename_i hself
    rw [hself, AList.lookup_eq_none.mpr hfre]
    simp [hnone]
  · rfl

theorem removeUser {uid : Uid}
    (hseats : ∀ user, server.users.lookup uid = some user →
      user.registered = true ∨ user.channels = []) (reason : Str) :
    (server.removeUser uid reason).Tidy := by
  cases hu : server.users.lookup uid with
  | none =>
    simp only [Server.removeUser, hu]
    exact htidy
  | some user =>
    have hchans := removeUser_channels hu reason
    by_cases hreg : user.registered = true
    · refine .of_roster (roster_removeUser hu hreg reason) ?_ ?_
      · intro other key
        have hs : server.roster.member other key = server.roster.on other key :=
          htidy.balanced other key
        rw [Roster.depart_member, Roster.depart_on, hs]
        by_cases hself : other = uid
        · simp [hself]
        · simp [hself]
      · intro key channel hf
        rw [hchans, if_pos hreg, leaveChannels] at hf
        exact AllAlive.reapChannels _ key channel hf
    · have hnone := (hseats user hu).resolve_left hreg
      rw [if_neg hreg] at hchans
      have hon : ∀ key, server.isOn uid key = false := by
        intro key
        simp [isOn_eq, hu, hnone]
      refine htidy.of_steady ⟨?_, ?_, ?_⟩
      · funext other key
        rw [isMember_eq, isMember_eq, hchans]
      · funext other key
        rw [isOn_eq_place, map_removeUser (fun _ _ => rfl) other, isOn_eq_place]
        split
        · rename_i hself
          rw [← isOn_eq_place, hself, hon]
          rfl
        · rfl
      · intro hall key channel hf
        rw [hchans] at hf
        exact hall key channel hf

theorem welcome (env : Env) (uid : Uid) : (server.welcome env uid).Tidy := by
  have hmk : Steady server (server.markRegistered uid) := by
    refine .of_users rfl (map_modify ?_ uid)
    exact fun _ => rfl
  have humodes : Steady (server.markRegistered uid)
      ((server.markRegistered uid).setConnUmodes uid) :=
    steady_touches (touches_setConnUmodes ..)
  have hque : ∀ middle : Server, Steady middle (middle.queueHook (.connect uid)) :=
    fun _ => .of_same rfl rfl
  have hrdy := htidy.of_steady ((hmk.trans humodes).trans (hque _))
  exact List.foldlRecOn (motive := Tidy) _ _ hrdy fun reached hr chan _ =>
    hr.join env uid chan

end Tidy

end Server

end EchoIrcd
