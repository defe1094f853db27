import EchoIrcd.Roster

/-!
# Rosters that hang together

On a server linked to one peer every local user has one uuid of its own, every
remote user sits behind the link to the peer and has a uuid of the peer, only
registered local users and known remote users are members of channels, and a
user is on the channels it is a member of.  Every move keeps this, and says
whose seat in which channel it takes or frees.
-/

namespace EchoIrcd

open Str Option

variable {registered : Bool} {after server : Server} {chan name uuid who : Str} {other uid : Uid}
  {uuids : List Str}

/-- Two servers that tell each other apart. -/
structure Peers (first second : Str) : Prop where
  sid : validSid first = true
  peer : validSid second = true
  ne : first ≠ second

theorem Peers.symm {sid peer : Str} (hpeers : Peers sid peer) : Peers peer sid :=
  ⟨hpeers.peer, hpeers.sid, hpeers.ne.symm⟩

theorem Peers.disjoint {sid peer : Str} (hpeers : Peers sid peer)
    (huuid : IsUuid sid uuid) : ¬IsUuid peer uuid := by
  rintro ⟨suffix, heq, -, -⟩
  obtain ⟨suffix', rfl, -, -⟩ := huuid
  have hsid := hpeers.sid
  have hpeer := hpeers.peer
  simp only [validSid, decide_eq_true_eq] at hsid hpeer
  exact hpeers.ne (List.append_inj_left heq (hsid.1.trans hpeer.1.symm))

namespace Roster

/-- The roster of the server `sid` linked to the server `peer` by `port`. -/
structure Sound (sid peer : Str) (port : Uid) (roster : Roster) : Prop where
  uuids : ∀ {uid uuid registered}, roster.identity uid = some (uuid, registered) →
    roster.uidOf uuid = some uid ∧ IsUuid sid uuid
  uids : ∀ {uuid uid}, roster.uidOf uuid = some uid →
    ∃ registered, roster.identity uid = some (uuid, registered)
  members : ∀ {uid key}, roster.member uid key = true →
    ∃ uuid, roster.identity uid = some (uuid, true)
  on_eq : ∀ uid key, roster.on uid key = roster.member uid key
  remotes : ∀ {uuid link}, roster.via uuid = some link → link = port ∧ IsUuid peer uuid
  rmembers : ∀ {key uuid}, roster.rmember key uuid = true → roster.via uuid = some port

def seated (roster : Roster) (key uuid : Str) : Bool :=
  match roster.uidOf uuid with
  | some uid => roster.member uid key
  | none => roster.rmember key uuid

variable {sid peer : Str} {port : Uid} {roster : Roster}

theorem seated_of_uid (huid : roster.uidOf uuid = some uid)
    (key : Str) : roster.seated key uuid = roster.member uid key := by
  simp [seated, huid]

theorem seated_of_absent (huid : roster.uidOf uuid = none) (key : Str) :
    roster.seated key uuid = roster.rmember key uuid := by
  simp [seated, huid]

namespace Sound

section Uuids

variable (hsnd : roster.Sound sid peer port)

include hsnd

theorem uid_eq_iff (hid : roster.identity uid = some (uuid, registered))
    (ho : roster.uidOf who = some other) : other = uid ↔ who = uuid := by
  constructor
  · rintro rfl
    obtain ⟨_, hid'⟩ := hsnd.uids ho
    rw [hid] at hid'
    exact (congrArg Prod.fst (some.inj hid')).symm
  · rintro rfl
    exact some.inj (ho.symm.trans (hsnd.uuids hid).1)

theorem ne_of_absent (hid : roster.identity uid = some (uuid, registered))
    (ho : roster.uidOf who = none) : who ≠ uuid := by
  rintro rfl
  rw [(hsnd.uuids hid).1] at ho
  cases ho

theorem uidOf_of_peer (hpeers : Peers sid peer)
    (huuid : IsUuid peer uuid) : roster.uidOf uuid = none := by
  cases huid : roster.uidOf uuid with
  | none => rfl
  | some uid =>
    obtain ⟨_, hid⟩ := hsnd.uids huid
    exact absurd huuid (hpeers.disjoint (hsnd.uuids hid).2)

theorem via_of_local (hpeers : Peers sid peer)
    (huuid : IsUuid sid uuid) : roster.via uuid = none := by
  cases hvia : roster.via uuid with
  | none => rfl
  | some link => exact absurd (hsnd.remotes hvia).2 (hpeers.disjoint huuid)

end Uuids

/-! ## Moves of local users -/

section

variable (hsnd : roster.Sound sid peer port)

include hsnd

theorem enter (hid : roster.identity uid = some (uuid, true)) (key : Str) :
    (roster.enter uid key).Sound sid peer port :=
  { hsnd with
    members := by
      intro other name hmb
      simp only [enter_member, Bool.or_eq_true, Bool.and_eq_true, decide_eq_true_eq]
        at hmb
      rcases hmb with hmb | ⟨rfl, -⟩
      · exact hsnd.members hmb
      · exact ⟨uuid, hid⟩
    on_eq := by simp [hsnd.on_eq] }

theorem leave (uid : Uid) (key : Str) : (roster.leave uid key).Sound sid peer port :=
  { hsnd with
    members := by
      intro other name hmb
      simp only [leave_member, Bool.and_eq_true] at hmb
      exact hsnd.members hmb.1
    on_eq := by simp [hsnd.on_eq] }

section

variable (hid : roster.identity uid = some (uuid, registered))

include hid

theorem seated_enter (key name who : Str) :
    (roster.enter uid key).seated name who =
      (roster.seated name who || (name = key && who = uuid)) := by
  unfold seated
  simp only [enter_uidOf, enter_member, enter_rmember]
  cases ho : roster.uidOf who with
  | none => simp [hsnd.ne_of_absent hid ho]
  | some other => simp [hsnd.uid_eq_iff hid ho, Bool.and_comm]

theorem seated_leave (key name who : Str) :
    (roster.leave uid key).seated name who =
      (roster.seated name who && !(name = key && who = uuid)) := by
  unfold seated
  simp only [leave_uidOf, leave_member, leave_rmember]
  cases ho : roster.uidOf who with
  | none => simp [hsnd.ne_of_absent hid ho]
  | some other => simp [hsnd.uid_eq_iff hid ho, Bool.and_comm]

theorem depart : (roster.depart uid uuid).Sound sid peer port where
  uuids := by
    intro other who flag ho
    rw [depart_identity] at ho
    split at ho
    · cases ho
    · rename_i hne
      obtain ⟨huid, huuid⟩ := hsnd.uuids ho
      have hwho : who ≠ uuid := by
        rintro rfl
        rw [(hsnd.uuids hid).1] at huid
        exact hne (some.inj huid).symm
      rw [depart_uidOf, if_neg hwho]
      exact ⟨huid, huuid⟩
  uids := by
    intro who other ho
    rw [depart_uidOf] at ho
    split at ho
    · cases ho
    · rename_i hne
      obtain ⟨flag, hid'⟩ := hsnd.uids ho
      have hwho : other ≠ uid := by
        rintro rfl
        rw [hid] at hid'
        exact hne (congrArg Prod.fst (some.inj hid')).symm
      exact ⟨flag, by rw [depart_identity, if_neg hwho]; exact hid'⟩
  members := by
    intro other name hmb
    simp only [depart_member, hsnd.on_eq, Bool.and_eq_true, Bool.not_eq_true',
      Bool.and_eq_false_iff, decide_eq_false_iff_not] at hmb
    obtain ⟨hmb, hst⟩ := hmb
    have ho : other ≠ uid := by
      rintro rfl
      rcases hst with hne | hout
      · exact hne rfl
      · rw [hmb] at hout
        cases hout
    obtain ⟨who, hwho⟩ := hsnd.members hmb
    exact ⟨who, by rw [depart_identity, if_neg ho]; exact hwho⟩
  on_eq := by
    intro other name
    simp only [depart_on, depart_member, hsnd.on_eq]
    by_cases ho : other = uid
    · subst ho
      simp
    · simp [ho]
  remotes := hsnd.remotes
  rmembers := hsnd.rmembers

end

end

theorem seated_depart (hpeers : Peers sid peer) (hsnd : roster.Sound sid peer port)
    (hid : roster.identity uid = some (uuid, registered)) (name who : Str) :
    (roster.depart uid uuid).seated name who = (roster.seated name who && who ≠ uuid) := by
  unfold seated
  simp only [depart_uidOf, depart_member, depart_rmember, hsnd.on_eq]
  by_cases hwho : who = uuid
  · subst hwho
    have hout : roster.rmember name who = false := by
      cases hmb : roster.rmember name who with
      | false => rfl
      | true =>
        have hvia := hsnd.via_of_local hpeers (hsnd.uuids hid).2
        rw [hsnd.rmembers hmb] at hvia
        cases hvia
    simp [hout]
  · cases ho : roster.uidOf who with
    | none => simp [hwho]
    | some other =>
      have hne : other ≠ uid := by
        rwa [ne_eq, hsnd.uid_eq_iff hid ho]
      simp [hwho, hne]

/-! ## Moves of remote users -/

theorem ne_of_remote (huid : roster.uidOf uuid = none)
    (ho : roster.uidOf who = some other) : who ≠ uuid := by
  rintro rfl
  rw [huid] at ho
  cases ho

section

variable (hsnd : roster.Sound sid peer port)

include hsnd

theorem seat (hkn : ∀ uuid ∈ uuids, roster.via uuid = some port) (key : Str) :
    (roster.seat key uuids).Sound sid peer port :=
  { hsnd with
    rmembers := by
      intro name who hmb
      simp only [seat_rmember, Bool.or_eq_true, Bool.and_eq_true, decide_eq_true_eq]
        at hmb
      rcases hmb with hmb | ⟨-, hlst⟩
      · exact hsnd.rmembers hmb
      · exact hkn who hlst }

theorem unseat (key uuid : Str) : (roster.unseat key uuid).Sound sid peer port :=
  { hsnd with
    rmembers := by
      intro name who hmb
      simp only [unseat_rmember, Bool.and_eq_true] at hmb
      exact hsnd.rmembers hmb.1 }

theorem forget (uuid : Str) : (roster.forget uuid).Sound sid peer port :=
  { hsnd with
    remotes := by
      intro who link hvia
      rw [forget_via] at hvia
      split at hvia
      · cases hvia
      · exact hsnd.remotes hvia
    rmembers := by
      intro name who hmb
      simp only [forget_rmember, Bool.and_eq_true, decide_eq_true_eq] at hmb
      rw [forget_via, if_neg hmb.2]
      exact hsnd.rmembers hmb.1 }

end

theorem seated_seat (hpeers : Peers sid peer) (hsnd : roster.Sound sid peer port)
    (hkn : ∀ uuid ∈ uuids, roster.via uuid = some port) (key name who : Str) :
    (roster.seat key uuids).seated name who =
      (roster.seated name who || (name = key && who ∈ uuids)) := by
  unfold seated
  simp only [seat_uidOf, seat_member, seat_rmember]
  cases ho : roster.uidOf who with
  | none => rfl
  | some other =>
    have hne : who ∉ uuids := by
      intro hlst
      have huid := hsnd.uidOf_of_peer hpeers
        (hsnd.remotes (hkn who hlst)).2
      rw [huid] at ho
      cases ho
    simp [hne]

theorem seated_unseat (huid : roster.uidOf uuid = none) (key name who : Str) :
    (roster.unseat key uuid).seated name who =
      (roster.seated name who && !(name = key && who = uuid)) := by
  unfold seated
  simp only [unseat_uidOf, unseat_member, unseat_rmember]
  cases ho : roster.uidOf who with
  | none => rfl
  | some other =>
    simp [ne_of_remote huid ho]

theorem seated_forget (huid : roster.uidOf uuid = none) (name who : Str) :
    (roster.forget uuid).seated name who = (roster.seated name who && who ≠ uuid) := by
  unfold seated
  simp only [forget_uidOf, forget_member, forget_rmember]
  cases ho : roster.uidOf who with
  | none => rfl
  | some other =>
    simp [ne_of_remote huid ho]

end Sound

end Roster

/-! ## Channel names -/

def IsChanName (name : Str) : Prop := name.head? = some '#' ∧ ' ' ∉ name

theorem IsChanName.isToken (hname : IsChanName name) : IsToken name := by
  refine ⟨?_, hname.2, ?_⟩
  · rintro rfl
    cases hname.1
  · rw [hname.1]
    decide

theorem IsChanName.of_lower (hname : IsChanName name)
    (hlow : toAsciiLower chan = toAsciiLower name) : IsChanName chan := by
  have hhash : ('#' : Char).isAlpha = false := by decide
  have hbl : (' ' : Char).isAlpha = false := by decide
  constructor
  · rw [← head?_toAsciiLower hhash, hlow, head?_toAsciiLower hhash]
    exact hname.1
  · rw [← mem_toAsciiLower hbl, hlow, mem_toAsciiLower hbl]
    exact hname.2

theorem isChanName_of_validChan {maxlen : Nat}
    (hval : validChan name maxlen = true) : IsChanName name := by
  simp only [validChan, Bool.not_eq_true', List.any_eq_false, decide_eq_true_eq, not_or] at hval
  exact ⟨hval.1, fun hbl => (hval.2.2.2 ' ' hbl).1 rfl⟩

namespace Server

def Named (server : Server) : Prop :=
  ∀ ⦃key channel⦄, server.channels.lookup key = some channel →
    toAsciiLower channel.name = key ∧ IsChanName channel.name

def NoNewChannel (before after : Server) : Prop :=
  ∀ ⦃key channel⦄, after.channels.lookup key = some channel →
    ∃ earlier, before.channels.lookup key = some earlier ∧
      earlier.name = channel.name

theorem Named.of_noNewChannel {before : Server} (hnm : before.Named)
    (hnoNew : NoNewChannel before after) : after.Named := by
  intro key channel hchn
  obtain ⟨earlier, hprev, hname⟩ := hnoNew hchn
  rw [← hname]
  exact hnm hprev

namespace NoNewChannel

variable {first second third : Server}

theorem of_same (hchans : second.channels = first.channels) : NoNewChannel first second := by
  intro key channel hchn
  rw [hchans] at hchn
  exact ⟨channel, hchn, rfl⟩

theorem trans (hleft : NoNewChannel first second)
    (hrt : NoNewChannel second third) : NoNewChannel first third := by
  intro key channel hchn
  obtain ⟨middle, hmid, hname⟩ := hrt hchn
  obtain ⟨earlier, hprev, hname'⟩ := hleft hmid
  exact ⟨earlier, hprev, hname'.trans hname⟩

section

variable (server : Server)

theorem reapChannels : NoNewChannel server server.reapChannels := by
  intro key channel hchn
  exact ⟨channel, (lookup_reapChannels.mp hchn).1, rfl⟩

theorem changeChannel (key : Str) {change : Channel → Channel}
    (hname : ∀ channel, (change channel).name = channel.name) :
    NoNewChannel server (server.changeChannel key change) := by
  intro other channel hchn
  obtain ⟨earlier, hprev, ⟨-, rfl⟩ | ⟨-, rfl⟩⟩ := Table.of_lookup_modify hchn
  · exact ⟨earlier, hprev, (hname earlier).symm⟩
  · exact ⟨channel, hprev, rfl⟩

theorem mapChannels {change : Str → Channel → Channel}
    (hname : ∀ key channel, (change key channel).name = channel.name) :
    NoNewChannel server { server with channels := Table.mapValues change server.channels } := by
  intro key channel hchn
  rw [Table.lookup_mapValues] at hchn
  obtain ⟨earlier, hprev, rfl⟩ := map_eq_some_iff.mp hchn
  exact ⟨earlier, hprev, (hname key earlier).symm⟩

theorem dropMember (uid : Uid) (key : Str) : NoNewChannel server (server.dropMember uid key) := by
  refine .trans ?_ (reapChannels _)
  exact changeChannel server key fun _ => rfl

theorem removeUser (uid : Uid) (reason : Str) :
    NoNewChannel server (server.removeUser uid reason) := by
  cases hu : server.users.lookup uid with
  | none =>
    rw [Server.removeUser, hu]
    exact of_same rfl
  | some user =>
    have hchans := removeUser_channels hu reason
    split at hchans
    · refine .trans ?_ (of_same hchans)
      refine .trans ?_ (reapChannels _)
      exact mapChannels server fun _ _ => rfl
    · exact of_same hchans

theorem dropRemoteMember (key uuid : Str) :
    NoNewChannel server (server.dropRemoteMember key uuid) := by
  refine .trans ?_ (reapChannels _)
  exact changeChannel server key fun _ => rfl

theorem dropRemoteUser (uuid : Str) : NoNewChannel server (server.dropRemoteUser uuid) := by
  unfold Server.dropRemoteUser
  split
  · exact of_same rfl
  · refine fun key channel hchn => ?_
    have herased : NoNewChannel server { server with
        channels := Table.mapValues (fun _ channel => { channel with
          rmembers := channel.rmembers.erase uuid }) server.channels } :=
      mapChannels server fun _ _ => rfl
    exact (herased.trans (reapChannels _)) hchn

end

end NoNewChannel

theorem arbitrate_name (ts : Timestamp) (modes chan : Str) (now : Timestamp)
    (found : Option Channel) :
    (arbitrate ts modes chan now found).name = (found.map Channel.name).getD chan := by
  cases found with
  | none => rfl
  | some channel =>
    simp only [arbitrate]
    split
    · rfl
    · split <;> rfl

namespace Named

variable (hnm : server.Named)

include hnm

theorem insert (hname : IsChanName name) {channel : Channel}
    (hchans : after.channels = server.channels.insert (toAsciiLower name) channel)
    (hchn : (∃ earlier, server.channels.lookup (toAsciiLower name) = some earlier ∧
      channel.name = earlier.name) ∨ channel.name = name) : after.Named := by
  intro key found hf
  rw [hchans] at hf
  obtain ⟨hkey, rfl⟩ | ⟨-, hf⟩ := Table.of_lookup_insert hf
  · rcases hchn with ⟨earlier, hprev, heq⟩ | heq
    · rw [heq, hkey]
      exact hnm hprev
    · rw [heq, hkey]
      exact ⟨rfl, hname⟩
  · exact hnm hf

theorem letIn (uid : Uid) (hname : IsChanName name) : (server.letIn uid name).Named := by
  refine hnm.insert hname (server.letIn_channels uid name) ?_
  cases hf : server.channels.lookup (toAsciiLower name) with
  | none => exact .inr rfl
  | some channel => exact .inl ⟨channel, rfl, rfl⟩

theorem enterRemote (hchan : IsChanName chan) (uuid : Str) (member : Member) (ts : Timestamp) :
    (server.enterRemote (toAsciiLower chan) uuid member (Channel.new ts chan)).Named := by
  refine hnm.insert hchan rfl ?_
  cases hf : server.channels.lookup (toAsciiLower chan) with
  | none => exact .inr rfl
  | some channel => exact .inl ⟨channel, rfl, rfl⟩

theorem linkFjoinRecv (via : Uid) {message : Message} {ts modes members : Str} {rest : List Str}
    (hpar : message.params = chan :: ts :: modes :: members :: rest)
    (hchan : IsChanName chan) : (server.linkFjoinRecv via message).Named := by
  simp only [Server.linkFjoinRecv, hpar]
  refine hnm.insert hchan rfl ?_
  simp only [arbitrate_name]
  cases hf : server.channels.lookup (toAsciiLower chan) with
  | none => exact .inr rfl
  | some channel => exact .inl ⟨channel, rfl, rfl⟩

end Named

end Server

end EchoIrcd
