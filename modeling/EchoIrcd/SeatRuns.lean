import EchoIrcd.Occupancy

/-!
# Membership over whole runs

Connections that come, register, join, part, kick, rename and go, at any
stage, and a peer that introduces users, moves them and, when it is a services
server, puts connections into channels.
-/

namespace EchoIrcd

open Str

variable {server : Server}

namespace Server

/-! ## The RENAME command -/

def matchedCban (env : Env) (server : Server) (chan : Str) : Option Str :=
  (server.xlines.find? fun xline =>
    xline.kind = .cban && xline.active server.clock &&
      globMatch env (toAsciiLower xline.mask) (toAsciiLower chan)).map XLine.reason

def mayRename (env : Env) (server : Server) (uid : Uid) (old new : Str)
    (channel : Channel) : Bool :=
  let oldkey := toAsciiLower old
  let newkey := toAsciiLower new
  let oper := server.isOper uid
  server.isMember uid oldkey &&
    (30 ≤ server.rank uid oldkey || oper) &&
    (!channel.modes.flags .registered || oper) &&
    validChan new server.conf.maxchannel &&
    new.head? = old.head? &&
    (newkey = oldkey || !(newkey ∈ server.channels : Bool)) &&
    (oper || (server.matchedCban env newkey).isNone)

def renameCommand (env : Env) (uid : Uid) (old new reason : Str) (server : Server) :
    Server :=
  match server.channels.lookup (toAsciiLower old), server.users.lookup uid with
  | some channel, some user =>
    if server.mayRename env uid old new channel then
      match server.renameChannel (toAsciiLower old) new with
      | some renamed =>
        renamed.propagate (.rename user.uuid channel.name new reason) none
      | none => server
    else server
  | _, _ => server

theorem Tidy.renameCommand (htidy : server.Tidy) (env : Env) (uid : Uid)
    (old new reason : Str) : (server.renameCommand env uid old new reason).Tidy := by
  unfold Server.renameCommand
  split
  · split
    · split
      · rename_i hrn
        exact (htidy.renameChannel hrn).of_steady (steady_propagate ..)
      · exact htidy
    · exact htidy
  · exact htidy

end Server

/-! ## Events -/

inductive SeatEvent where
  | connect (uid : Uid) (user : User)
  /-- a nick change that is let through -/
  | nick (uid : Uid) (newnick : Str)
  | register (uid : Uid)
  | join (uid : Uid) (name : Str)
  | part (uid : Uid) (target reason : Str)
  | kick (uid : Uid) (chan victim reason : Str)
  | rename (uid : Uid) (old new reason : Str)
  | disconnect (uid : Uid) (reason : Str)
  | openLink (uid : Uid) (ip : Str) (outbound : Bool)
  | loseLink (uid : Uid)
  | line (uid : Uid) (message : Message)

def seatVerbs : List Verb :=
  [.server, .ping, .burst, .endburst, .uid, .nick, .save, .quit, .fjoin, .ijoin, .kick,
    .rename, .svsjoin, .squit, .error]

namespace SeatEvent

def Enabled (server : Server) : SeatEvent → Prop
  | .connect uid user => uid ∉ server.users ∧ user.channels = [] ∧ user.registered = false
  | .join uid _ | .part uid _ _ | .kick uid _ _ _ | .rename uid _ _ _ =>
    server.isEnrolled uid = true
  | .openLink uid _ _ => uid ∉ server.links
  | .line uid message => uid ∈ server.links ∧ ∃ verb ∈ seatVerbs, message.command = verb.word
  | _ => True

/-- No seat of an unregistered connection is left, and no channel without a reason. -/
def Clean (server : Server) : SeatEvent → Prop
  | .disconnect uid _ => ∀ user, server.users.lookup uid = some user →
      user.registered = true ∨ user.channels = []
  | .line _ message => message.command = Verb.fjoin.word → server.FjoinKept message
  | _ => True

def apply (env : Env) : SeatEvent → Server → Server
  | .connect uid user, server => server.addConn uid user
  | .nick uid newnick, server => server.setNick uid newnick
  | .register uid, server => server.welcome env uid
  | .join uid name, server => server.join env uid name
  | .part uid target reason, server => server.part uid target reason
  | .kick uid chan victim reason, server => server.kick uid chan victim reason
  | .rename uid old new reason, server => server.renameCommand env uid old new reason
  | .disconnect uid reason, server => server.removeUser uid reason
  | .openLink uid ip outbound, server => server.addLink uid ip outbound
  | .loseLink uid, server => server.closeLink uid
  | .line uid message, server => server.onLink env uid message

end SeatEvent

def SeatStep (env : Env) (before after : Server) : Prop :=
  ∃ now event, SeatEvent.Enabled before event ∧
    after = before.handleEvent env now (event.apply env)

def CleanStep (env : Env) (before after : Server) : Prop :=
  ∃ now event, SeatEvent.Enabled before event ∧ event.Clean (before.setClock now) ∧
    after = before.handleEvent env now (event.apply env)

/-! ## Steps -/

namespace Server

structure Vacant (server : Server) : Prop where
  users : server.users = ∅
  members : ∀ uid key, server.isMember uid key = false
  alive : server.AllAlive

theorem Vacant.tidy {boot : Server} (hboot : boot.Vacant) : boot.Tidy where
  balanced := by
    intro uid key
    rw [hboot.members, isOn_eq, hboot.users, AList.lookup_empty]
    rfl
  alive := hboot.alive

theorem Tidy.onLink (htidy : server.Tidy) (env : Env) (uid : Uid) {message : Message} {verb : Verb}
    (hverb : verb ∈ seatVerbs) (hword : message.command = verb.word)
    (hkept : message.command = Verb.fjoin.word → server.FjoinKept message) :
    (server.onLink env uid message).Tidy := by
  have htch : (server.touchLink uid).Tidy := htidy.of_steady (.of_same rfl rfl)
  have hstd : ∀ {after : Server}, Steady (server.touchLink uid) after → after.Tidy :=
    fun haft => htch.of_steady haft
  have hgated : ∀ (gate : Prop) [Decidable gate] {after : Server}, after.Tidy →
      (if gate then after else server.touchLink uid).Tidy :=
    fun _ _ _ haft => iteInduction (fun _ => haft) fun _ => htch
  simp only [Server.onLink, onLinkFuel, hword, Verb.ofWord_word]
  simp only [seatVerbs, List.mem_cons, List.not_mem_nil, or_false] at hverb
  rcases hverb with rfl | rfl | rfl | rfl | rfl | rfl | rfl | rfl | rfl | rfl | rfl | rfl |
    rfl | rfl | rfl
  · change (if (server.touchLink uid).isRegistered uid = true then server.touchLink uid
      else (server.touchLink uid).linkServer env uid message).Tidy
    split
    · exact htch
    · exact hstd (steady_linkServer ..)
  · exact hgated _ (hstd (steady_linkOut ..))
  · exact hstd (.of_same rfl rfl)
  · exact hstd (.of_same rfl rfl)
  · exact hgated _ (hstd (steady_nickFrame.linkUidRecv ..))
  · exact hgated _ (hstd (steady_nickFrame.linkNickRecv ..))
  · exact hgated _ (hstd (steady_nickFrame.linkSaveRecv ..))
  · exact hgated _ (hstd (steady_nickFrame.linkQuitRecv ..))
  · have hheld : (server.touchLink uid).FjoinKept message := hkept hword
    exact hgated _ (hstd (steady_linkFjoinRecv hheld uid))
  · exact hgated _ (hstd (steady_linkIjoinRecv ..))
  · exact hgated _ (htch.linkKickRecv ..)
  · exact hgated _ (htch.linkRenameRecv ..)
  · exact hgated _ (htch.linkSvsjoin ..)
  · exact hstd (steady_closeLink ..)
  · exact hstd (steady_closeLink ..)

theorem Tidy.apply (htidy : server.Tidy) (env : Env) {event : SeatEvent}
    (hen : event.Enabled server) (hcl : event.Clean server) :
    (event.apply env server).Tidy := by
  cases event with
  | connect uid user => exact htidy.addConn hen.1 hen.2.1
  | nick uid newnick => exact htidy.of_steady (steady_setNick ..)
  | register uid => exact htidy.welcome ..
  | join uid name => exact htidy.join ..
  | part uid target reason => exact htidy.part ..
  | kick uid chan victim reason => exact htidy.kick ..
  | rename uid old new reason => exact htidy.renameCommand ..
  | disconnect uid reason => exact htidy.removeUser hcl reason
  | openLink uid ip outbound => exact htidy.of_steady (steady_addLink ..)
  | loseLink uid => exact htidy.of_steady (steady_closeLink ..)
  | line uid message =>
    obtain ⟨-, verb, hverb, hword⟩ := hen
    exact htidy.onLink env uid hverb hword hcl

theorem Tidy.cleanStep {env : Env} {before after : Server} (htidy : before.Tidy)
    (hstep : CleanStep env before after) : after.Tidy := by
  obtain ⟨now, event, hen, hcl, rfl⟩ := hstep
  have hclk : (before.setClock now).Tidy := htidy.of_steady (.of_same rfl rfl)
  have hen' : event.Enabled (before.setClock now) := by
    cases event <;> exact hen
  exact (hclk.apply env hen' hcl).of_steady (steady_drainHooks ..)

end Server

/-! ## Two runs that leave something behind -/

def servicesBoot : Server :=
  { Server.plainBoot with conf := { Server.plainBoot.conf with ulines := ["b.test"] } }

theorem servicesBoot_vacant : servicesBoot.Vacant where
  users := rfl
  members := fun _ _ => rfl
  alive := fun _ _ hf => nomatch hf

def seatRun (events : List SeatEvent) : Server :=
  events.foldl (fun server event => server.handleEvent .plain 100 (event.apply .plain))
    servicesBoot

def peerLinks : List SeatEvent :=
  [.openLink 5 "127.0.0.2" false, .line 5 Server.peerMessage]

def strangerFjoin : Message where
  source := some "2BB"
  command := "FJOIN"
  params := ["#c", "100", "+nt", "o,2BBAAAAAZ"]

def connectedUser : User where
  uuid := "1AAAAAAAA"
  signon := 1
  nickTs := 1
  host := "host"
  ip := "127.0.0.1"

def svsjoinAnn : Message where
  source := some "2BB"
  command := "SVSJOIN"
  params := ["ann", "#c"]

def strangerChannel : Server := seatRun (peerLinks ++ [.line 5 strangerFjoin])

def ghostSeat : Server :=
  seatRun (peerLinks ++ [.connect 1 connectedUser, .nick 1 "ann", .line 5 svsjoinAnn,
    .disconnect 1 "gone"])

theorem seatStep_left_behind :
    servicesBoot.Vacant ∧
      (Relation.ReflTransGen (SeatStep .plain) servicesBoot strangerChannel ∧
        ¬strangerChannel.Housed) ∧
      Relation.ReflTransGen (SeatStep .plain) servicesBoot ghostSeat ∧ ¬ghostSeat.Housed := by
  have hopen : 5 ∉ servicesBoot.links := by decide
  refine ⟨servicesBoot_vacant, ⟨?_, ?_⟩, ?_, ?_⟩
  · refine .head ⟨100, .openLink 5 "127.0.0.2" false, hopen, rfl⟩ ?_
    refine .head ⟨100, .line 5 Server.peerMessage, ⟨by decide, .server, by decide, rfl⟩, rfl⟩ ?_
    exact .single ⟨100, .line 5 strangerFjoin, ⟨by decide, .fjoin, by decide, rfl⟩, rfl⟩
  · intro hhoused
    have hemp : (strangerChannel.channels.lookup "#c".toList).map Channel.keepAlive =
        some false := by decide
    obtain ⟨channel, hf, hdead⟩ := Option.map_eq_some_iff.mp hemp
    rw [hhoused.alive _ channel hf] at hdead
    cases hdead
  · refine .head ⟨100, .openLink 5 "127.0.0.2" false, hopen, rfl⟩ ?_
    refine .head ⟨100, .line 5 Server.peerMessage, ⟨by decide, .server, by decide, rfl⟩, rfl⟩ ?_
    refine .head ⟨100, .connect 1 connectedUser, ⟨by decide, rfl, rfl⟩, rfl⟩ ?_
    refine .head ⟨100, .nick 1 "ann", trivial, rfl⟩ ?_
    refine .head ⟨100, .line 5 svsjoinAnn, ⟨by decide, .svsjoin, by decide, rfl⟩, rfl⟩ ?_
    exact .single ⟨100, .disconnect 1 "gone", trivial, rfl⟩
  · intro hhoused
    exact absurd (hhoused.connected 1 "#c".toList (by decide)) (by decide)

/--
In a run in which no unregistered connection goes while it is on a channel and
every `FJOIN` leaves its channel with a member or a mode that keeps it,
membership agrees on both sides and no dead channel is in the table.
-/
theorem cleanRun_housed {env : Env} {boot server : Server} (hboot : boot.Vacant)
    (hrun : Relation.ReflTransGen (CleanStep env) boot server) : server.Housed := by
  have htidy : server.Tidy := by
    induction hrun with
    | refl => exact hboot.tidy
    | tail _ hstep ih => exact ih.cleanStep hstep
  exact htidy.housed

theorem cleanRun_housed_ann :
    (seatRun [.connect 1 connectedUser, .nick 1 "ann", .register 1, .join 1 "#c",
      .disconnect 1 "gone"]).Housed := by
  have hrun : Relation.ReflTransGen (CleanStep .plain) servicesBoot
      (seatRun [.connect 1 connectedUser, .nick 1 "ann", .register 1, .join 1 "#c",
        .disconnect 1 "gone"]) := by
    refine .head ⟨100, .connect 1 connectedUser, ⟨by decide, rfl, rfl⟩, trivial, rfl⟩ ?_
    refine .head ⟨100, .nick 1 "ann", trivial, trivial, rfl⟩ ?_
    refine .head ⟨100, .register 1, trivial, trivial, rfl⟩ ?_
    refine .head ⟨100, .join 1 "#c", rfl, trivial, rfl⟩ ?_
    refine .single ⟨100, .disconnect 1 "gone", trivial, ?_, rfl⟩
    intro user hu
    cases hu
    exact .inl rfl
  exact cleanRun_housed servicesBoot_vacant hrun

end EchoIrcd
