import EchoIrcd.Frame

/-!
# The handlers satisfy their frame conditions

Every handler of a registered link other than the services commands is
harmless, and `METADATA` is so when its source is not a services server.  The
services commands, which do change accounts and operator status, are framed.
-/

namespace EchoIrcd

open Str

variable (env : Env) (server : Server) (message : Message) (key uuid : Str)

namespace Server

variable {via : Uid} (nick target : Str)

theorem relayed_harmless {server changed : Server} {out : Out}
    (hchanged : Harmless via server changed) (hout : out.isHandshake = false) :
    Harmless via server (changed.propagate out (some via)) :=
  .trans hchanged (propagate_harmless _ hout fun _ => rfl)

/-! ## Remote users -/

theorem changeRemote_harmless (change : RemoteUser → RemoteUser) :
    Harmless via server (server.changeRemote uuid change) :=
  .of_same rfl rfl rfl rfl rfl rfl

theorem dropRemoteUser_harmless : Harmless via server (server.dropRemoteUser uuid) := by
  unfold dropRemoteUser
  split
  · exact .refl server
  · exact .of_same rfl rfl rfl rfl rfl rfl

theorem saveRemoteUser_harmless : Harmless via server (server.saveRemoteUser uuid) := by
  unfold saveRemoteUser
  split
  · exact .refl server
  · split
    · exact .of_same rfl rfl rfl rfl rfl rfl
    · refine .trans ?_ (propagate_harmless _ rfl nofun)
      exact .of_same rfl rfl rfl rfl rfl rfl

/-! ## Nick changes -/

/-- What a nick change or a quit from a link is made of keeps to the relation. -/
structure NickFrame (via : Uid) (Kept : Server → Server → Prop) : Prop where
  refl : ∀ server, Kept server server
  trans : ∀ {first second third}, Kept first second → Kept second third → Kept first third
  tell : ∀ server sid uuid ts, Kept server (server.linkOut via (.save sid uuid ts))
  relay : ∀ server {out}, out.isHandshake = false → Kept server (server.propagate out (some via))
  forward : ∀ server target message, Kept server (server.forwardToTarget target message via)
  setNick : ∀ server uid newnick, Kept server (server.setNick uid newnick)
  save : ∀ server uuid, Kept server (server.saveRemoteUser uuid)
  enter : ∀ server remote, Kept server (server.enterRemoteUser remote)
  rename : ∀ server uuid old new ts, Kept server (server.renameRemote uuid old new ts)
  drop : ∀ server uuid, Kept server (server.dropRemoteUser uuid)

namespace NickFrame

variable {Kept : Server → Server → Prop} (hfr : NickFrame via Kept)

include hfr

theorem step_if {first second third : Server} {condition : Prop} [Decidable condition]
    (hleft : Kept first second) (hrt : Kept second third) :
    Kept first (if condition then third else second) := by
  split
  · exact hfr.trans hleft hrt
  · exact hleft

section

variable (ts : Timestamp) (ident ip : Str)

theorem contestLocal (service : Bool) :
    Kept server (server.contestLocal via nick ts ident ip uuid service).1 := by
  unfold Server.contestLocal
  split
  · unfold resolveCollision
    split
    · exact hfr.refl server
    · exact hfr.step_if (hfr.step_if (hfr.refl server) (hfr.setNick ..))
        (hfr.tell ..)
  · exact hfr.refl server

theorem contestRemote (sid : Str) :
    Kept server (server.contestRemote via nick ts ident ip uuid sid).1 := by
  unfold Server.contestRemote
  split
  · split
    · unfold resolveRemoteCollision
      split
      · exact hfr.refl server
      · exact hfr.step_if (hfr.step_if (hfr.refl server) (hfr.save ..))
          (hfr.tell ..)
    · exact hfr.refl server
  · exact hfr.refl server

theorem arbitrateNick (sid : Str) :
    Kept server (server.arbitrateNick via nick ts ident ip uuid sid).1 :=
  hfr.trans (hfr.contestLocal ..) (hfr.contestRemote ..)

end

theorem linkUidRecv : Kept server (server.linkUidRecv via message) := by
  unfold Server.linkUidRecv
  split
  · simp only
    split
    · exact hfr.trans (hfr.arbitrateNick ..)
        (hfr.trans (hfr.enter ..) (hfr.relay _ rfl))
    · exact hfr.refl server
  · exact hfr.refl server

theorem linkSaveRecv : Kept server (server.linkSaveRecv via message) := by
  unfold Server.linkSaveRecv
  split
  · split
    · split
      · split
        · exact hfr.setNick ..
        · exact hfr.refl server
      · exact hfr.refl server
    · exact hfr.forward ..
  · exact hfr.refl server

theorem linkNickRecv : Kept server (server.linkNickRecv via message) := by
  unfold Server.linkNickRecv
  split
  · split
    · exact hfr.refl server
    · split
      · exact hfr.refl server
      · simp only
        split
        · exact hfr.contestLocal ..
        · split
          · exact hfr.trans (hfr.contestLocal ..) (hfr.contestRemote ..)
          · exact hfr.trans (hfr.contestLocal ..) (hfr.trans (hfr.contestRemote ..)
              (hfr.trans (hfr.rename ..) (hfr.relay _ rfl)))
  · exact hfr.refl server

theorem linkQuitRecv : Kept server (server.linkQuitRecv via message) := by
  unfold Server.linkQuitRecv
  split
  · split
    · exact hfr.trans (hfr.drop ..) (hfr.relay _ rfl)
    · exact hfr.refl server
  · exact hfr.refl server

end NickFrame

theorem harmless_nickFrame : NickFrame via (Harmless via) where
  refl := .refl
  trans := .trans
  tell := fun _ _ _ _ => linkOut_harmless _ rfl nofun
  relay := fun _ _ hout => propagate_harmless _ hout fun _ => rfl
  forward := fun _ _ _ => forwardToTarget_harmless ..
  setNick := fun _ _ _ => setNick_harmless ..
  save := fun _ _ => saveRemoteUser_harmless ..
  enter := fun _ _ => .of_same rfl rfl rfl rfl rfl rfl
  rename := fun _ _ _ _ _ => .of_same rfl rfl rfl rfl rfl rfl
  drop := fun _ _ => dropRemoteUser_harmless ..

theorem linkKillRecv_harmless : Harmless via server (server.linkKillRecv via message) := by
  unfold linkKillRecv
  split
  · split
    · split
      · exact removeUser_harmless ..
      · exact forwardToTarget_harmless ..
    · exact .refl server
  · exact .refl server

theorem linkAwayRecv_harmless : Harmless via server (server.linkAwayRecv via message) := by
  unfold linkAwayRecv
  split
  · split
    · exact relayed_harmless (changeRemote_harmless ..) rfl
    · exact .refl server
  · exact .refl server

theorem linkSetnameRecv_harmless : Harmless via server (server.linkSetnameRecv via message) := by
  unfold linkSetnameRecv
  split
  · split
    · exact relayed_harmless (changeRemote_harmless ..) rfl
    · exact .refl server
  · exact .refl server

theorem linkOpertypeRecv_harmless : Harmless via server (server.linkOpertypeRecv via message) := by
  unfold linkOpertypeRecv
  split
  · split
    · exact changeRemote_harmless ..
    · exact .refl server
  · exact .refl server

theorem applyRemoteHostIdent_harmless (newIdent newHost : Option Str) :
    Harmless via server (server.applyRemoteHostIdent target newIdent newHost) := by
  unfold applyRemoteHostIdent
  split
  · exact changeRemote_harmless ..
  · exact .refl server

theorem changeHostRecv_harmless (parts : Option Str × Option Str) :
    Harmless via server (server.changeHostRecv via message target parts) := by
  unfold changeHostRecv
  split
  · exact changeHostIdentQuiet_harmless ..
  · exact .trans (applyRemoteHostIdent_harmless ..) (forwardToTarget_harmless ..)

theorem linkChghostRecv_harmless : Harmless via server (server.linkChghostRecv via message) := by
  unfold linkChghostRecv
  split
  · exact changeHostRecv_harmless ..
  · exact .refl server

theorem linkChgidentRecv_harmless : Harmless via server (server.linkChgidentRecv via message) := by
  unfold linkChgidentRecv
  split
  · exact changeHostRecv_harmless ..
  · exact .refl server

theorem applyRemoteAccount_harmless (value : Str) :
    Harmless via server (server.applyRemoteAccount target value via).1 := by
  unfold applyRemoteAccount
  split
  · exact .refl server
  · split
    · exact .refl server
    · split
      · exact .refl server
      · exact changeRemote_harmless ..

/-! ## Channels -/

theorem enterRemote_harmless (member : Member) (fresh : Channel) :
    Harmless via server (server.enterRemote key uuid member fresh) :=
  .of_same rfl rfl rfl rfl rfl rfl

theorem linkJoinRecv_harmless : Harmless via server (server.linkJoinRecv via message) := by
  unfold linkJoinRecv
  split
  · split
    · exact relayed_harmless (enterRemote_harmless ..) rfl
    · exact .refl server
  · exact .refl server

theorem linkIjoinRecv_harmless : Harmless via server (server.linkIjoinRecv via message) := by
  unfold linkIjoinRecv
  split
  · split
    · exact relayed_harmless (enterRemote_harmless ..) rfl
    · exact .refl server
  · exact .refl server

theorem dropRemoteMember_harmless : Harmless via server (server.dropRemoteMember key uuid) :=
  .of_same rfl rfl rfl rfl rfl rfl

theorem linkPartRecv_harmless : Harmless via server (server.linkPartRecv via message) := by
  unfold linkPartRecv
  split
  · simp only
    split
    · exact relayed_harmless (dropRemoteMember_harmless ..) rfl
    · exact .refl server
  · exact .refl server

theorem linkKickRecv_harmless : Harmless via server (server.linkKickRecv via message) := by
  unfold linkKickRecv
  split
  · simp only
    split
    · split
      · split
        · exact relayed_harmless (dropMember_harmless ..) rfl
        · exact .refl server
      · split
        · exact relayed_harmless (dropRemoteMember_harmless ..) rfl
        · exact .refl server
      · exact .refl server
    · exact .refl server
  · exact .refl server

theorem linkFjoinRecv_harmless : Harmless via server (server.linkFjoinRecv via message) := by
  unfold linkFjoinRecv
  split
  · refine relayed_harmless ?_ rfl
    exact .of_same rfl rfl rfl rfl rfl rfl
  · exact .refl server

/-! ## Channel modes -/

structure KeepsSeats (change : Channel → Channel) : Prop where
  name : ∀ channel, (change channel).name = channel.name
  created : ∀ channel, (change channel).created = channel.created
  members : ∀ channel uid, uid ∈ (change channel).members ↔ uid ∈ channel.members
  rmembers : ∀ channel uuid,
    uuid ∈ (change channel).rmembers ↔ uuid ∈ channel.rmembers

theorem keepsSeats_withModes (change : ChanModes → ChanModes) :
    KeepsSeats (Channel.withModes change) :=
  ⟨fun _ => rfl, fun _ => rfl, fun _ _ => Iff.rfl, fun _ _ => Iff.rfl⟩

theorem keepsSeats_setList (kind : ListKind) (change : List Ban → List Ban) :
    KeepsSeats (Channel.setList kind change) :=
  ⟨fun _ => rfl, fun _ => rfl, fun _ _ => Iff.rfl, fun _ _ => Iff.rfl⟩

theorem keepsSeats_modifyMember (uid : Uid) (change : Member → Member) :
    KeepsSeats fun channel =>
      { channel with members := Table.modify uid change channel.members } :=
  ⟨fun _ => rfl, fun _ => rfl, fun _ _ => Table.mem_modify, fun _ _ => Iff.rfl⟩

theorem keepsSeats_modifyRemote (uuid : Str) (change : Member → Member) :
    KeepsSeats fun channel =>
      { channel with rmembers := Table.modify uuid change channel.rmembers } :=
  ⟨fun _ => rfl, fun _ => rfl, fun _ _ => Iff.rfl, fun _ _ => Table.mem_modify⟩

theorem applyChanMode_keepsSeats {server : Server} {chan key : Str} {mode : ChanMode}
    {adding : Bool} {param echo : Option Str} {change : Channel → Channel}
    (happ : server.applyChanMode chan key mode adding param = some (change, echo)) :
    KeepsSeats change := by
  cases applyChanMode_edit happ with
  | status letter rank target change => exact keepsSeats_modifyMember target change
  | list kind change => exact keepsSeats_setList kind change
  | modes hst hlist store => exact keepsSeats_withModes store

section

variable {Kept : Server → Server → Prop} (hrefl : ∀ server, Kept server server)
  (hchg : ∀ server {change}, KeepsSeats change → Kept server (server.changeChannel key change))

include hrefl hchg

theorem setMemberPrefix_rel (who : Str) (letter : Char) (adding : Bool) :
    Kept server (server.setMemberPrefix key who letter adding) := by
  unfold setMemberPrefix
  simp only
  split
  · exact hchg server (keepsSeats_modifyMember ..)
  · split
    · exact hchg server (keepsSeats_modifyRemote ..)
    · exact hrefl server

theorem linkModeStep_rel (source chan : Str) (state : Server × List Str) (entry : Bool × Char) :
    Kept state.1 (linkModeStep source chan key state entry).1 := by
  obtain ⟨server, args⟩ := state
  have hmds : ∀ change, Kept server (server.changeChannel key (Channel.withModes change)) :=
    fun change => hchg server (keepsSeats_withModes change)
  unfold linkModeStep
  simp only
  split
  · split
    · exact setMemberPrefix_rel _ _ hrefl hchg ..
    · exact hrefl server
  · split
    · exact hmds _
    · split
      · split
        · split
          · exact hmds _
          · exact hrefl server
        · exact hmds _
      · split
        · split
          · exact hchg server (keepsSeats_setList ..)
          · exact hrefl server
        · split
          · split
            · rename_i happ
              exact hchg server (applyChanMode_keepsSeats happ)
            · exact hrefl server
          · exact hmds _

theorem linkModeSteps_rel
    (htrans : ∀ {first second third}, Kept first second → Kept second third → Kept first third)
    (source chan : Str) (entries : List (Bool × Char)) (state : Server × List Str) :
    Kept state.1 (entries.foldl (linkModeStep source chan key) state).1 := by
  induction entries generalizing state with
  | nil => exact hrefl _
  | cons entry entries ih => exact htrans (linkModeStep_rel _ hrefl hchg ..) (ih _)

end

theorem linkModeRecv_harmless : Harmless via server (server.linkModeRecv via message) := by
  unfold linkModeRecv
  split
  · split
    · exact .refl server
    · split
      · exact relayed_harmless (changeRemote_harmless ..) rfl
      · simp only
        split
        · exact .refl server
        · split
          · exact propagate_harmless _ rfl fun _ => rfl
          · split
            · exact .refl server
            · refine relayed_harmless (linkModeSteps_rel _ .refl ?_ .trans _ _ _ (server, _)) rfl
              exact fun _ _ _ => changeChannel_harmless ..
  · exact .refl server

theorem linkTopicRecv_harmless : Harmless via server (server.linkTopicRecv via message) := by
  unfold linkTopicRecv
  split
  · simp only
    split
    · exact .refl server
    · split
      · exact .refl server
      · exact relayed_harmless (changeChannel_harmless ..) rfl
  · exact .refl server

theorem linkFtopicRecv_harmless : Harmless via server (server.linkFtopicRecv via message) := by
  unfold linkFtopicRecv
  split
  · simp only
    split
    · exact .refl server
    · split
      · exact .refl server
      · split
        · exact propagate_harmless _ rfl fun _ => rfl
        · split
          · exact propagate_harmless _ rfl fun _ => rfl
          · exact relayed_harmless (changeChannel_harmless ..) rfl
  · exact .refl server

theorem linkInviteRecv_harmless : Harmless via server (server.linkInviteRecv via message) := by
  unfold linkInviteRecv
  split
  · split
    · exact .refl server
    · split
      · refine .trans (changeChannel_harmless ..) (changeUser_harmless _ _ ?_)
        exact fun _ => ⟨rfl, rfl, rfl, rfl, rfl, rfl, rfl, rfl⟩
      · exact forwardToTarget_harmless ..
  · exact .refl server

theorem linkRenameRecv_harmless : Harmless via server (server.linkRenameRecv via message) := by
  unfold linkRenameRecv
  split
  · split
    · split
      · rename_i renamed hren
        exact relayed_harmless (renameChannel_harmless hren) rfl
      · exact .refl server
    · exact .refl server
  · exact .refl server

/-! ## Metadata, x-lines and messages -/

theorem applyFilterMetadata_harmless
    (value : Str) : Harmless via server (server.applyFilterMetadata env value) := by
  unfold applyFilterMetadata
  split
  · exact .of_same rfl rfl rfl rfl rfl rfl
  · exact .refl server

theorem linkMetadata_harmless (hsrc : server.sourceIsService message = false) :
    Harmless via server (server.linkMetadata env via message) := by
  unfold linkMetadata
  split
  · split
    · refine relayed_harmless ?_ rfl
      split
      · exact applyFilterMetadata_harmless ..
      · exact .refl server
    · split
      · simpa [hsrc] using .refl server
      · split
        · exact .step_if (applyRemoteAccount_harmless ..)
            (propagate_harmless _ rfl fun _ => rfl)
        · exact forwardToTarget_harmless ..
  · exact .refl server

theorem linkSasl_harmless : Harmless via server (server.linkSasl via message) := by
  unfold linkSasl
  split
  · split
    · split
      · exact changeUser_harmless _ _
          fun _ => ⟨rfl, rfl, rfl, rfl, rfl, rfl, rfl, rfl⟩
      · exact .refl server
    · exact forwardToTarget_harmless ..
  · exact .refl server

theorem linkStdreplyRecv_harmless : Harmless via server (server.linkStdreplyRecv via message) := by
  unfold linkStdreplyRecv
  split
  · split
    · exact .refl server
    · exact forwardToTarget_harmless ..
  · exact .refl server

theorem linkAddlineRecv_harmless :
    Harmless via server (server.linkAddlineRecv env via message) := by
  unfold linkAddlineRecv
  split
  · split
    · split
      · exact relayed_harmless (addXlineAt_harmless ..) rfl
      · exact .refl server
    · exact .refl server
  · exact .refl server

theorem linkDellineRecv_harmless : Harmless via server (server.linkDellineRecv via message) := by
  unfold linkDellineRecv
  split
  · split
    · split
      · split
        · exact relayed_harmless (removeXline_harmless ..) rfl
        · exact .refl server
      · exact .refl server
    · exact .refl server
  · exact .refl server

theorem channelLinkTargets_ne {server : Server} {key : Str} {uid : Uid}
    (huid : uid ∈ server.channelLinkTargets key via) : uid ≠ via := by
  unfold channelLinkTargets at huid
  split at huid
  · rw [List.mem_dedup, List.mem_filterMap] at huid
    obtain ⟨entry, _, hent⟩ := huid
    obtain ⟨remote, _, hvia⟩ := Option.bind_eq_some_iff.mp hent
    split at hvia
    · rename_i hne
      cases hvia
      exact hne
    · cases hvia
  · cases huid

theorem relayToChannel_harmless {out : Out} (hout : out.isHandshake = false) :
    Harmless via server (server.relayToChannel key via out) := by
  refine List.foldlRecOn _ _ (.refl server) fun middle hmid uid huid => ?_
  exact hmid.trans (middle.linkOut_harmless hout fun _ =>
    channelLinkTargets_ne huid)

theorem linkMessageRecv_harmless : Harmless via server (server.linkMessageRecv via message) := by
  unfold linkMessageRecv
  split
  · split
    · exact .refl server
    · split
      · simp only
        split
        · exact relayToChannel_harmless _ _ rfl
        · exact .refl server
      · split
        · exact .refl server
        · exact forwardToTarget_harmless ..
  · exact .refl server

theorem linkRedactRecv_harmless : Harmless via server (server.linkRedactRecv via message) := by
  unfold linkRedactRecv
  split
  · simp only
    split
    · exact relayToChannel_harmless _ _ rfl
    · exact .refl server
  · exact .refl server

theorem handle_harmless {verb : Verb} (server : Server) (hverb : verb.isServices = false)
    (hsrc : server.sourceIsService message = false) :
    Harmless via server (server.handle env verb via message) := by
  cases verb with
  | ping => exact linkOut_harmless _ rfl nofun
  | uid => exact harmless_nickFrame.linkUidRecv ..
  | nick => exact harmless_nickFrame.linkNickRecv ..
  | quit => exact harmless_nickFrame.linkQuitRecv ..
  | kill => exact linkKillRecv_harmless ..
  | save => exact harmless_nickFrame.linkSaveRecv ..
  | invite => exact linkInviteRecv_harmless ..
  | addline => exact linkAddlineRecv_harmless ..
  | delline => exact linkDellineRecv_harmless ..
  | privmsg | notice => exact linkMessageRecv_harmless ..
  | join => exact linkJoinRecv_harmless ..
  | part => exact linkPartRecv_harmless ..
  | topic => exact linkTopicRecv_harmless ..
  | ftopic => exact linkFtopicRecv_harmless ..
  | kick => exact linkKickRecv_harmless ..
  | rename => exact linkRenameRecv_harmless ..
  | mode | fmode => exact linkModeRecv_harmless ..
  | fjoin => exact linkFjoinRecv_harmless ..
  | ijoin => exact linkIjoinRecv_harmless ..
  | svsnick | svsjoin | svspart | svsmode | svslogin | svslogout | svshold
  | svstopic | svsoper | svscmode => cases hverb
  | metadata => exact linkMetadata_harmless _ _ _ hsrc
  | chghost => exact linkChghostRecv_harmless ..
  | chgident => exact linkChgidentRecv_harmless ..
  | away => exact linkAwayRecv_harmless ..
  | setname => exact linkSetnameRecv_harmless ..
  | swstdrpl => exact linkStdreplyRecv_harmless ..
  | opertype => exact linkOpertypeRecv_harmless ..
  | redact => exact linkRedactRecv_harmless ..
  | sasl => exact linkSasl_harmless ..
  | server | encap | burst | endburst | squit | error => exact .refl server

end Server

end EchoIrcd
