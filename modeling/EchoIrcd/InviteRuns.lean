import EchoIrcd.LocalMode
import EchoIrcd.Naming
import EchoIrcd.Roster

/-!
# Pending invitations

An invitation is kept twice: the channel lists the user, and the user lists the
channel so that a quit finds the entries to drop.  INVITE and UNINVITE of
`core_channel.rs`, an invitation from a link, JOIN, the renaming of a channel and
the removal of a user each change one half or both.
-/

namespace EchoIrcd

open Str Table Option

variable {name : Str} {other : Uid} {user : User}

namespace Server

/-! ## The commands -/

section

variable (server : Server) (uid : Uid) (key : Str)

def bindInvite (server : Server) : Server :=
  (server.changeChannel key fun channel =>
    { channel with invites := channel.invites.insert uid }).changeUser uid
      fun user => { user with invited := user.invited.insert key }

def dropInvite (server : Server) : Server :=
  (server.changeChannel key fun channel =>
    { channel with invites := channel.invites.filter (· ≠ uid) }).changeUser uid
      fun user => { user with invited := user.invited.filter (· ≠ key) }

def routeInvite (nick chan : Str) (server : Server) : Server :=
  match server.findRemote nick, server.users.lookup uid with
  | some (uuid, _), some user =>
    match server.linkToward uuid with
    | some via => server.linkOut via (.forward
        { source := some user.uuid, command := "INVITE", params := [uuid, chan] })
    | none => server
  | _, _ => server

def invite (maxinvites : Nat) (uid : Uid) (nick chan : Str) (server : Server) : Server :=
  let key := toAsciiLower chan
  match server.channels.lookup key with
  | none => server
  | some channel =>
    if uid ∉ channel.members then server
    else if channel.modes.flags .inviteOnly ∧ !channel.modes.flags .allowinvite ∧
        server.rank uid key < 30 then server
    else
      match server.findNick nick with
      | some target =>
        if target ∈ channel.members then server
        else if maxinvites ≤ channel.invites.length ∧ target ∉ channel.invites then server
        else server.bindInvite target key
      | none => server.routeInvite uid nick chan

def uninvite (nick chan : Str) (server : Server) : Server :=
  let key := toAsciiLower chan
  if server.isMember uid key ∧ 30 ≤ server.rank uid key then
    match server.findNick nick with
    | some target => server.dropInvite target key
    | none => server
  else server

/-! ## The two halves -/

def uuidOf : Option Str :=
  (server.users.lookup uid).map User.uuid

def Awaits (uid : Uid) : Prop :=
  ∃ channel, server.channels.lookup key = some channel ∧ uid ∈ channel.invites

def Invited (uid : Uid) : Prop :=
  ∃ user, server.users.lookup uid = some user ∧ key ∈ user.invited

end

structure Listed (server : Server) : Prop where
  nicks : ∀ {nick uid}, server.nickIndex.lookup nick = some uid → server.nickOf uid = some nick
  uuids : ∀ {uuid uid}, server.uuidLocal.lookup uuid = some uid → server.uuidOf uid = some uuid

/-- Every channel that lists a user is listed by that user. -/
structure Mutual (server : Server) : Prop extends server.Listed where
  invites : ∀ {key uid}, server.Awaits key uid → server.Invited key uid

theorem mem_of_nickOf {server : Server} {uid : Uid} {nick : Str}
    (hnick : server.nickOf uid = some nick) : uid ∈ server.users := by
  obtain ⟨name, hname, -⟩ := bind_eq_some_iff.mp hnick
  obtain ⟨user, hu, -⟩ := map_eq_some_iff.mp hname
  exact mem_of_lookup hu

theorem mem_of_uuidOf {server : Server} {uid : Uid} {uuid : Str}
    (huuid : server.uuidOf uid = some uuid) : uid ∈ server.users := by
  obtain ⟨user, hu, -⟩ := map_eq_some_iff.mp huuid
  exact mem_of_lookup hu

variable {before after server : Server} {uid : Uid} {key : Str}

theorem Listed.of_names (hlst : before.Listed) (hnms : after.nameOf = before.nameOf)
    (hidx : after.nickIndex = before.nickIndex) (hloc : after.uuidLocal = before.uuidLocal) :
    after.Listed where
  nicks := by
    intro nick uid hf
    rw [hidx] at hf
    rw [nickOf, hnms]
    exact hlst.nicks hf
  uuids := by
    intro uuid uid hf
    rw [hloc] at hf
    have huuid : ∀ server : Server, server.uuidOf uid = (server.nameOf uid).map Prod.fst := by
      intro server
      rw [uuidOf, nameOf, map_map]
      rfl
    rw [huuid, hnms, ← huuid]
    exact hlst.uuids hf

theorem invited_changeUser {change : User → User} (hinvited : server.Invited name other)
    (hkeeps : ∀ user, other = uid → name ∈ user.invited → name ∈ (change user).invited) :
    (server.changeUser uid change).Invited name other := by
  obtain ⟨user, hu, hmem⟩ := hinvited
  rw [Invited, changeUser_users]
  by_cases ho : other = uid
  · subst ho
    exact ⟨change user, by rw [lookup_modify_self, hu, map_some], hkeeps user rfl hmem⟩
  · exact ⟨user, by rw [lookup_modify_ne _ _ ho, hu], hmem⟩

theorem awaits_changeChannel {change : Channel → Channel}
    (haw : (server.changeChannel key change).Awaits name other) :
    (server.Awaits name other ∧ name ≠ key) ∨
      (name = key ∧ ∃ channel, server.channels.lookup key = some channel ∧
        other ∈ (change channel).invites) := by
  obtain ⟨channel, hchan, hmem⟩ := haw
  obtain ⟨known, hkn, ⟨rfl, rfl⟩ | ⟨hname, rfl⟩⟩ := of_lookup_modify hchan
  · exact .inr ⟨rfl, known, hkn, hmem⟩
  · exact .inl ⟨⟨channel, hkn, hmem⟩, hname⟩

theorem Mutual.bindInvite (hmut : server.Mutual) (huid : uid ∈ server.users) (key : Str) :
    (server.bindInvite uid key).Mutual where
  toListed := by
    refine hmut.toListed.of_names (funext fun other => nameOf_modify ?_ other) rfl rfl
    exact fun _ => rfl
  invites := by
    intro name other haw
    have hkept : ∀ user : User, name ∈ user.invited → name ∈ user.invited.insert key :=
      fun _ hmem => List.mem_insert_of_mem hmem
    rcases awaits_changeChannel haw with ⟨hold, -⟩ | ⟨rfl, channel, hchan, hmem⟩
    · exact invited_changeUser (hmut.invites hold) fun user _ => hkept user
    · rcases List.mem_insert_iff.mp hmem with rfl | hold
      · obtain ⟨user, hu⟩ := mem_iff_lookup.mp huid
        exact ⟨{ user with invited := user.invited.insert name },
          by rw [Server.bindInvite, changeUser_users, lookup_modify_self,
            changeChannel_users, hu, map_some], List.mem_insert_self⟩
      · exact invited_changeUser (hmut.invites ⟨channel, hchan, hold⟩) fun user _ => hkept user

theorem Mutual.dropInvite (hmut : server.Mutual) (uid : Uid) (key : Str) :
    (server.dropInvite uid key).Mutual where
  toListed := by
    refine hmut.toListed.of_names (funext fun other => nameOf_modify ?_ other) rfl rfl
    exact fun _ => rfl
  invites := by
    intro name other haw
    rcases awaits_changeChannel haw with ⟨hold, hname⟩ | ⟨rfl, channel, hchan, hmem⟩
    · refine invited_changeUser (hmut.invites hold) fun user _ hlst => ?_
      exact List.mem_filter.mpr ⟨hlst, by simpa using hname⟩
    · obtain ⟨hold, hne⟩ := List.mem_filter.mp hmem
      refine invited_changeUser (hmut.invites ⟨channel, hchan, hold⟩) fun _ ho _ => ?_
      exact absurd ho (by simpa using hne)

theorem letIn_users (uid : Uid) (name : Str) (server : Server) :
    (server.letIn uid name).users = modify uid (fun user => { user with
      channels := user.channels.insert (toAsciiLower name)
      invited := user.invited.filter (· ≠ toAsciiLower name) }) server.users :=
  propagateJoin_users ..

theorem awaits_letIn (haw : (server.letIn uid name).Awaits key other) :
    server.Awaits key other ∧ ¬ (key = toAsciiLower name ∧ other = uid) := by
  obtain ⟨channel, hchan, hmem⟩ := haw
  rw [letIn_channels] at hchan
  obtain ⟨rfl, rfl⟩ | ⟨hkey, hchan⟩ := of_lookup_insert hchan
  · obtain ⟨hold, hne⟩ := List.mem_filter.mp hmem
    cases hf : server.channels.lookup (toAsciiLower name) with
    | none =>
      rw [hf, getD_none] at hold
      cases hold
    | some known =>
      rw [hf, getD_some] at hold
      exact ⟨⟨known, hf, hold⟩, fun hboth => by simp [hboth.2] at hne⟩
  · exact ⟨⟨channel, hchan, hmem⟩, fun hboth => hkey hboth.1⟩

theorem Mutual.join (hmut : server.Mutual) (env : Env) (uid : Uid) (name : Str) :
    (server.join env uid name).Mutual where
  toListed := by
    have hs := sameNames_join env uid server name
    exact hmut.toListed.of_names hs.names hs.nickIndex hs.uuidLocal
  invites := by
    intro key other haw
    unfold Server.join at haw ⊢
    cases hgate : env.joinGate server uid name with
    | none =>
      rw [hgate] at haw
      exact hmut.invites haw
    | some chan =>
      simp only [hgate] at haw ⊢
      split at haw
      · rename_i hmay
        rw [if_pos hmay]
        obtain ⟨hold, ho⟩ := awaits_letIn haw
        rw [Invited, letIn_users]
        refine invited_changeUser (hmut.invites hold) fun user hs hlst => ?_
        exact List.mem_filter.mpr ⟨hlst, by simpa using fun hkey => ho ⟨hkey, hs⟩⟩
      · rename_i hmay
        rw [if_neg hmay]
        exact hmut.invites haw

section

variable (hu : server.users.lookup uid = some user)

include hu

theorem Listed.removeUser (hlst : server.Listed) (reason : Str) :
    (server.removeUser uid reason).Listed where
  nicks := by
    intro nick other hf
    have hnms : ∀ other, (server.removeUser uid reason).nameOf other =
        if other = uid then none else server.nameOf other :=
      map_removeUser fun _ _ => rfl
    rw [removeUser_nickIndex hu, lookup_freed hu] at hf
    split at hf
    · cases hf
    · rename_i hkept
      have hnick := hlst.nicks hf
      have ho : other ≠ uid := by
        rintro rfl
        exact hkept hnick
      rw [nickOf, hnms, if_neg ho]
      exact hnick
  uuids := by
    intro uuid other hf
    have huuids : ∀ other, (server.removeUser uid reason).uuidOf other =
        if other = uid then none else server.uuidOf other :=
      map_removeUser fun _ _ => rfl
    rw [removeUser_uuidLocal hu] at hf
    obtain ⟨hne, hf⟩ := of_lookup_erase hf
    have huuid := hlst.uuids hf
    have ho : other ≠ uid := by
      rintro rfl
      rw [uuidOf, hu, map_some, some.injEq] at huuid
      exact hne huuid.symm
    rw [huuids, if_neg ho]
    exact huuid

theorem awaits_removeUser {reason : Str}
    (haw : (server.removeUser uid reason).Awaits key other) :
    server.Awaits key other ∧ (user.registered = true → key ∈ user.invited → other ≠ uid) := by
  obtain ⟨channel, hchan, hmem⟩ := haw
  rw [removeUser_channels hu] at hchan
  split at hchan
  · rw [leaveChannels, lookup_reapChannels, lookup_mapValues] at hchan
    obtain ⟨known, hkn, rfl⟩ := map_eq_some_iff.mp hchan.1
    simp only at hmem
    split at hmem
    · obtain ⟨hold, hne⟩ := List.mem_filter.mp hmem
      exact ⟨⟨known, hkn, hold⟩, fun _ _ => by simpa using hne⟩
    · rename_i hnot
      exact ⟨⟨known, hkn, hmem⟩, fun _ hinvited => absurd hinvited hnot⟩
  · rename_i hreg
    exact ⟨⟨channel, hchan, hmem⟩, fun hyes => absurd hyes hreg⟩

theorem Mutual.removeUser (hmut : server.Mutual)
    (hscrubbed : user.registered = true ∨ ∀ key, ¬ server.Awaits key uid) (reason : Str) :
    (server.removeUser uid reason).Mutual where
  toListed := hmut.toListed.removeUser hu reason
  invites := by
    intro key other haw
    obtain ⟨hold, hgone⟩ := awaits_removeUser hu haw
    obtain ⟨known, hkn, hmem⟩ := hmut.invites hold
    have ho : other ≠ uid := by
      rintro rfl
      cases hu.symm.trans hkn
      rcases hscrubbed with hreg | hnone
      · exact hgone hreg hmem rfl
      · exact hnone key hold
    have hoth : ((server.removeUser uid reason).users.lookup other).map User.invited =
        if other = uid then none else (server.users.lookup other).map User.invited :=
      map_removeUser (fun _ _ => rfl) other
    rw [if_neg ho, hkn, map_some] at hoth
    obtain ⟨left, hleft, hs⟩ := map_eq_some_iff.mp hoth
    exact ⟨left, hleft, hs ▸ hmem⟩

end

theorem map_rekeyMembers {α : Type} {view : User → α}
    (hview : ∀ user channels, view { user with channels := channels } = view user)
    (members : Table Uid Member) (oldkey newkey : Str) (users : Table Uid User) (uid : Uid) :
    ((rekeyMembers members oldkey newkey users).lookup uid).map view =
      (users.lookup uid).map view := by
  rw [rekeyMembers, lookup_mapValues, map_map]
  congr 1
  funext user
  split
  · exact hview ..
  · rfl

theorem Mutual.renameChannel {oldkey newname : Str} {renamed : Server} (hmut : server.Mutual)
    (hren : server.renameChannel oldkey newname = some renamed)
    (hidle : toAsciiLower newname = oldkey ∨ ∀ uid, ¬ server.Awaits oldkey uid) :
    renamed.Mutual := by
  unfold Server.renameChannel at hren
  cases hchan : server.channels.lookup oldkey with
  | none =>
    rw [hchan] at hren
    cases hren
  | some channel =>
    simp only [hchan] at hren
    split at hren
    · -- only the case of the name changes
      cases hren
      refine ⟨hmut.toListed.of_names rfl rfl rfl, ?_⟩
      rintro key uid ⟨found, hf, hmem⟩
      obtain ⟨rfl, rfl⟩ | ⟨-, hf⟩ := of_lookup_insert hf
      · exact hmut.invites ⟨channel, hchan, hmem⟩
      · exact hmut.invites ⟨found, hf, hmem⟩
    · rename_i hmoves
      split at hren
      · cases hren
      · cases hren
        have hnone := hidle.resolve_left hmoves
        refine ⟨hmut.toListed.of_names (funext fun uid => ?_) rfl rfl, ?_⟩
        · exact map_rekeyMembers (fun _ _ => rfl) ..
        rintro key uid ⟨found, hf, hmem⟩
        obtain ⟨-, rfl⟩ | ⟨-, hf⟩ := of_lookup_insert hf
        · exact absurd ⟨channel, hchan, hmem⟩ (hnone uid)
        · have hf := (of_lookup_erase hf).2
          obtain ⟨user, hu, hinvited⟩ := hmut.invites ⟨found, hf, hmem⟩
          have hmv := @map_rekeyMembers _ User.invited (fun _ _ => rfl) channel.members
            oldkey (toAsciiLower newname) server.users uid
          rw [hu, map_some] at hmv
          obtain ⟨moved, hlook, hs⟩ := map_eq_some_iff.mp hmv
          exact ⟨moved, hlook, hs ▸ hinvited⟩

theorem Mutual.addConn (hmut : server.Mutual) (hfre : uid ∉ server.users) :
    (server.addConn uid user).Mutual := by
  have hoth : ∀ other, other ≠ uid →
      (server.addConn uid user).users.lookup other = server.users.lookup other :=
    fun _ ho => AList.lookup_insert_ne ho
  refine ⟨⟨?_, ?_⟩, ?_⟩
  · intro nick other hf
    have hnm := hmut.nicks hf
    have ho : other ≠ uid := by
      rintro rfl
      exact hfre (mem_of_nickOf hnm)
    rw [nickOf, nameOf, hoth other ho]
    exact hnm
  · intro uuid other hf
    obtain ⟨rfl, rfl⟩ | ⟨-, hf⟩ := of_lookup_insert hf
    · rw [uuidOf, addConn_users, AList.lookup_insert, map_some]
    · have hnm := hmut.uuids hf
      have ho : other ≠ uid := by
        rintro rfl
        exact hfre (mem_of_uuidOf hnm)
      rw [uuidOf, hoth other ho]
      exact hnm
  · intro key other haw
    obtain ⟨known, hkn, hmem⟩ := hmut.invites haw
    have ho : other ≠ uid := by
      rintro rfl
      exact hfre (mem_of_lookup hkn)
    exact ⟨known, (hoth other ho).trans hkn, hmem⟩

theorem Mutual.ite {cond : Prop} [Decidable cond] {refused allowed : Server}
    (href : refused.Mutual) (hall : allowed.Mutual) :
    (if cond then refused else allowed).Mutual := by
  split
  · exact href
  · exact hall

section

variable (hmut : server.Mutual)

include hmut

theorem Mutual.linkOut (link : Uid) (out : Out) : (server.linkOut link out).Mutual :=
  ⟨hmut.toListed.of_names rfl rfl rfl, hmut.invites⟩

theorem Mutual.routeInvite (uid : Uid) (nick chan : Str) :
    (server.routeInvite uid nick chan).Mutual := by
  unfold Server.routeInvite
  split
  · split
    · exact hmut.linkOut ..
    · exact hmut
  · exact hmut

theorem Mutual.invite (maxinvites : Nat) (uid : Uid) (nick chan : Str) :
    (server.invite maxinvites uid nick chan).Mutual := by
  unfold Server.invite
  extract_lets key
  cases server.channels.lookup key with
  | none => exact hmut
  | some channel =>
    refine hmut.ite ?_
    refine hmut.ite ?_
    cases hf : server.findNick nick with
    | none => exact hmut.routeInvite uid nick chan
    | some target =>
      refine hmut.ite ?_
      refine hmut.ite ?_
      exact hmut.bindInvite (mem_of_nickOf (hmut.nicks hf)) _

theorem Mutual.uninvite (uid : Uid) (nick chan : Str) : (server.uninvite uid nick chan).Mutual := by
  unfold Server.uninvite
  extract_lets key
  cases server.findNick nick with
  | none =>
    split
    · exact hmut
    · exact hmut
  | some target =>
    split
    · exact hmut.dropInvite target key
    · exact hmut

theorem Mutual.linkInviteRecv (via : Uid) (message : Message) :
    (server.linkInviteRecv via message).Mutual := by
  unfold Server.linkInviteRecv
  split
  · split
    · exact hmut
    · split
      · rename_i uid hf
        exact hmut.bindInvite (mem_of_uuidOf (hmut.uuids hf)) _
      · unfold forwardToTarget
        split
        · split
          · exact hmut.linkOut ..
          · exact hmut
        · exact hmut
  · exact hmut

end

end Server

/-! ## Runs -/

inductive InviteEvent where
  | invite (uid : Uid) (nick chan : Str)
  | uninvite (uid : Uid) (nick chan : Str)
  | join (uid : Uid) (name : Str)
  | rename (oldkey newname : Str)
  /-- an INVITE from a link -/
  | arrives (via : Uid) (message : Message)
  | quit (uid : Uid) (reason : Str)
  | connect (uid : Uid) (user : User)
  /-- anything that makes no invitation and takes none from a user -/
  | elsewhere

inductive InviteActs (env : Env) (maxinvites : Nat) : Server → InviteEvent → Server → Prop where
  | invite {server : Server} (uid : Uid) (nick chan : Str) :
      InviteActs env maxinvites server (.invite uid nick chan)
        (server.invite maxinvites uid nick chan)
  | uninvite {server : Server} (uid : Uid) (nick chan : Str) :
      InviteActs env maxinvites server (.uninvite uid nick chan) (server.uninvite uid nick chan)
  | join {server : Server} (uid : Uid) (name : Str) :
      InviteActs env maxinvites server (.join uid name) (server.join env uid name)
  | rename {server renamed : Server} {oldkey newname : Str}
      (hren : server.renameChannel oldkey newname = some renamed) :
      InviteActs env maxinvites server (.rename oldkey newname) renamed
  | arrives {server : Server} (via : Uid) (message : Message) :
      InviteActs env maxinvites server (.arrives via message) (server.linkInviteRecv via message)
  | quit {server : Server} (uid : Uid) (reason : Str) :
      InviteActs env maxinvites server (.quit uid reason) (server.removeUser uid reason)
  | connect {server : Server} {uid : Uid} (user : User) (hfre : uid ∉ server.users) :
      InviteActs env maxinvites server (.connect uid user) (server.addConn uid user)
  | elsewhere {before after : Server} (hlst : after.Listed)
      (hkept : ∀ {key uid}, before.Invited key uid → after.Invited key uid)
      (hnone : ∀ {key uid}, after.Awaits key uid → before.Awaits key uid) :
      InviteActs env maxinvites before .elsewhere after

/-- A channel moves to another name only without pending invitations, and a user who is
listed by a channel leaves only once registered. -/
def InviteEvent.Careful (server : Server) : InviteEvent → Prop
  | .rename oldkey newname => toAsciiLower newname = oldkey ∨ ∀ uid, ¬ server.Awaits oldkey uid
  | .quit uid _ => ∀ user, server.users.lookup uid = some user →
      user.registered = true ∨ ∀ key, ¬ server.Awaits key uid
  | _ => True

inductive InviteRun (env : Env) (maxinvites : Nat) (allowed : Server → InviteEvent → Prop)
    (start : Server) : Server → Prop where
  | start : InviteRun env maxinvites allowed start start
  | step {before after : Server} {event : InviteEvent}
      (hrun : InviteRun env maxinvites allowed start before) (hall : allowed before event)
      (hacts : InviteActs env maxinvites before event after) :
      InviteRun env maxinvites allowed start after

theorem InviteActs.mutual {env : Env} {maxinvites : Nat} {before after : Server}
    {event : InviteEvent} (hacts : InviteActs env maxinvites before event after)
    (hcareful : event.Careful before) (hmut : before.Mutual) : after.Mutual := by
  cases hacts with
  | invite uid nick chan => exact hmut.invite maxinvites uid nick chan
  | uninvite uid nick chan => exact hmut.uninvite uid nick chan
  | join uid name => exact hmut.join env uid name
  | rename hren => exact hmut.renameChannel hren hcareful
  | arrives via message => exact hmut.linkInviteRecv via message
  | quit uid reason =>
    cases hu : before.users.lookup uid with
    | none =>
      rw [Server.removeUser, hu]
      exact hmut
    | some user => exact hmut.removeUser hu (hcareful user hu) reason
  | connect user hfre => exact hmut.addConn hfre
  | elsewhere hlst hkept hnone =>
    exact ⟨hlst, fun haw => hkept (hmut.invites (hnone haw))⟩

/-- Whoever is on the invite list of a channel is connected and has the channel on its own. -/
theorem invites_mutual {env : Env} {maxinvites : Nat} {start server : Server}
    (hlst : start.Listed) (hnone : ∀ key uid, ¬ start.Awaits key uid)
    (hrun : InviteRun env maxinvites (fun server event => event.Careful server) start server) :
    ∀ key uid, server.Awaits key uid → server.Invited key uid := by
  have hmut : server.Mutual := by
    induction hrun with
    | start => exact ⟨hlst, fun haw => absurd haw (hnone _ _)⟩
    | step hrun hall hacts ih => exact hacts.mutual hall ih
  exact fun key uid haw => hmut.invites haw

/-! ## Halves that come apart -/

def hostServer : Server where
  conf := { name := "a.test", sid := "1AA" }
  clock := 100
  users := ofList
    [(1, { uuid := "1AAAAAAAA", nick := "amy", host := "h", ip := "1.1.1.1", signon := 1,
           nickTs := 1, registered := true, channels := ["#a"] }),
     (2, { uuid := "1AAAAAAAB", nick := "bob", host := "h", ip := "1.1.1.1", signon := 1,
           nickTs := 1, registered := true }),
     (3, { uuid := "1AAAAAAAC", nick := "carl", host := "h", ip := "1.1.1.1", signon := 1,
           nickTs := 1 })]
  nickIndex := ofList [("amy", 1), ("bob", 2), ("carl", 3)]
  uuidLocal := ofList [("1AAAAAAAA", 1), ("1AAAAAAAB", 2), ("1AAAAAAAC", 3)]
  channels := ofList
    [("#a", { name := "#a", created := 1,
              members := ofList [(1, { prefixes := fun held => held = .op })] })]

theorem hostServer_listed : hostServer.Listed := by
  have hnicks : ∀ nick uid, hostServer.nickIndex.lookup nick = some uid →
      hostServer.nickOf uid = some nick := forall_lookup_iff.mpr (by decide +kernel)
  have huuids : ∀ uuid uid, hostServer.uuidLocal.lookup uuid = some uid →
      hostServer.uuidOf uid = some uuid := forall_lookup_iff.mpr (by decide +kernel)
  exact ⟨fun hf => hnicks _ _ hf, fun hf => huuids _ _ hf⟩

theorem hostServer_idle (key : Str) (uid : Uid) : ¬ hostServer.Awaits key uid := by
  have hnone : ∀ key channel, hostServer.channels.lookup key = some channel →
      channel.invites = [] := forall_lookup_iff.mpr (by decide +kernel)
  rintro ⟨channel, hchan, hmem⟩
  rw [hnone key channel hchan] at hmem
  cases hmem

theorem invites_mutual_kept :
    (hostServer.invite 100 1 "bob" "#a").Awaits "#a" 2 ∧
      (hostServer.invite 100 1 "bob" "#a").Invited "#a" 2 := by
  have haw : (hostServer.invite 100 1 "bob" "#a").Awaits "#a" 2 := ⟨_, rfl, by decide +kernel⟩
  exact ⟨haw, @invites_mutual .plain 100 _ _ hostServer_listed hostServer_idle
    (.step .start (show (InviteEvent.invite 1 "bob" "#a").Careful _ from trivial)
      (.invite 1 "bob" "#a")) "#a" 2 haw⟩

def hostMoved : Server :=
  ((hostServer.invite 100 1 "bob" "#a").renameChannel "#a" "#b").getD hostServer

theorem invites_apart :
    hostServer.Listed ∧ (∀ key uid, ¬ hostServer.Awaits key uid) ∧
    (∃ server, InviteRun .plain 100 (fun _ _ => True) hostServer server ∧
      server.Awaits "#b" 2 ∧ ¬ server.Invited "#b" 2) ∧
    ∃ server, InviteRun .plain 100 (fun _ _ => True) hostServer server ∧
      server.Awaits "#a" 3 ∧ 3 ∉ server.users := by
  have hmv : (hostServer.invite 100 1 "bob" "#a").renameChannel "#a" "#b" = some hostMoved := rfl
  refine ⟨hostServer_listed, hostServer_idle, ⟨hostMoved, .step (.step .start trivial
    (.invite 1 "bob" "#a")) trivial (.rename hmv), ⟨_, rfl, by decide +kernel⟩, ?_⟩, _, .step
    (.step .start trivial (.invite 1 "carl" "#a")) trivial (.quit 3 "gone"),
    ⟨_, rfl, by decide +kernel⟩, by decide +kernel⟩
  rintro ⟨user, hu, hmem⟩
  cases hu
  exact absurd hmem (by decide +kernel)

end EchoIrcd
