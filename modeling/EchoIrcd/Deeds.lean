import EchoIrcd.Standing

/-!
# What a command does

A JOIN, PART, QUIT or KICK of a local user moves one person on the roster and
says so in one line to every linked server; a JOIN may be followed by lines
that grant the newcomer status.
-/

namespace EchoIrcd

open Str Introduced

inductive Command where
  | act (action : Action)
  | kick (chan victim reason : Str)

def Server.obey (env : Env) (uid : Uid) (command : Command) (server : Server) :
    Server :=
  match command with
  | .act action => server.perform env uid action
  | .kick chan victim reason =>
    if server.isEnrolled uid then server.kick uid chan victim reason else server

/-! ## Status granted on join -/

def Out.IsGrant (sid : Str) (out : Out) : Prop :=
  ∃ chan ts modes args, out = .fmode sid chan ts modes args

namespace Server

structure Regrades (before after : Server) : Prop where
  rest : ∃ channels sent, after = { before with channels := channels, sent := sent }
  noNew : NoNewChannel before after
  lines : ∃ outs, (∀ out ∈ outs, out.IsGrant before.conf.sid) ∧
    ∀ link, after.linesTo link = before.linesTo link ++
      if before.isRegistered link = true then outs else []

namespace Regrades

variable {first second third : Server}

theorem refl (server : Server) : Regrades server server :=
  ⟨⟨server.channels, server.sent, rfl⟩, .of_same rfl, [], by simp, by simp⟩

theorem trans (hleft : Regrades first second) (hrt : Regrades second third) :
    Regrades first third := by
  obtain ⟨⟨channels, sent, rfl⟩, hnoNew, outs, houts, hls⟩ := hleft
  obtain ⟨⟨channels', sent', rfl⟩, hnoNew', more, hmore, hls'⟩ := hrt
  refine ⟨⟨channels', sent', rfl⟩, hnoNew.trans hnoNew', outs ++ more, ?_, ?_⟩
  · intro out hout
    rcases List.mem_append.mp hout with hout | hout
    · exact houts out hout
    · exact hmore out hout
  · intro link
    have hs : isRegistered { first with channels := channels, sent := sent } link =
        first.isRegistered link := rfl
    rw [hls', hls, hs, List.append_assoc]
    split <;> simp

theorem changeChannel (server : Server) (key : Str) {change : Channel → Channel}
    (hchg : KeepsSeats change) : Regrades server (server.changeChannel key change) :=
  ⟨⟨_, _, rfl⟩, .changeChannel server key hchg.name, [], by simp, silent_lines rfl⟩

theorem propagate (server : Server) {out : Out} (hout : out.IsGrant server.conf.sid) :
    Regrades server (server.propagate out none) := by
  refine ⟨⟨_, _, rfl⟩, .of_same rfl, [out], by simpa using hout, fun link => ?_⟩
  rw [linesTo_propagate]
  simp

theorem propagateChanMode (server : Server) (chan modes : Str) (params : List Str) :
    Regrades server (server.propagateChanMode server.conf.sid chan modes params) :=
  .propagate server ⟨_, _, _, _, rfl⟩

theorem conf (hregrades : Regrades first second) : second.conf = first.conf := by
  obtain ⟨_, _, rfl⟩ := hregrades.rest
  rfl

end Regrades

theorem regrades_grantFrame : GrantFrame Regrades where
  refl := .refl
  trans := .trans
  change := fun server key _ => .changeChannel server key
  say := fun hregrades _ _ _ => hregrades.conf ▸ .propagateChanMode ..

/-! ## Joining -/

/-- The line that announces a JOIN: an FJOIN for a new channel, else an IJOIN. -/
def joinLine (server : Server) (uuid name : Str) : Out :=
  match server.channels.lookup (toAsciiLower name) with
  | some channel => .ijoin uuid channel.name channel.created []
  | none => .fjoin server.conf.sid name server.clock "+nt" ("o," ++ uuid)

theorem linesTo_propagateJoin {joined : Server} {uid : Uid} {uuid name : Str}
    {channel : Channel} (hid : joined.roster.identity uid = some (uuid, true))
    (hchn : joined.channels.lookup (toAsciiLower name) = some channel)
    (isNew : Bool) (link : Uid) :
    (joined.propagateJoin uid name isNew).linesTo link = joined.linesTo link ++
      if joined.isRegistered link = true then
        [if isNew then .fjoin joined.conf.sid channel.name channel.created
            channel.modes.render (joined.statusLetters channel uid ++ ',' :: uuid)
          else .ijoin uuid channel.name channel.created
            (joined.statusLetters channel uid)]
      else [] := by
  obtain ⟨user, hu, rfl, hreg⟩ := identity_eq_some.mp hid
  simp only [propagateJoin, hu, hchn, hreg, if_true]
  split
  all_goals
    rw [linesTo_propagate]
    simp

theorem linesTo_letIn {server : Server} {uid : Uid} {uuid : Str}
    (hid : server.roster.identity uid = some (uuid, true)) (name : Str) (link : Uid) :
    (server.letIn uid name).linesTo link = server.linesTo link ++
      if server.isRegistered link = true then [server.joinLine uuid name]
      else [] := by
  have hjn : ∀ (joined : Server) isNew channel,
      joined.roster.identity uid = some (uuid, true) →
      joined.channels.lookup (toAsciiLower name) = some channel → _ :=
    fun joined isNew channel hid hchn =>
      linesTo_propagateJoin hid hchn isNew link
  refine (hjn _ _ _ ?_ (by rw [Table.lookup_insert_eq, if_pos rfl])).trans ?_
  · refine (map_modify ?_ uid uid).trans hid
    exact fun _ => rfl
  simp only [joinLine, statusLetters, Table.lookup_insert_eq, if_true]
  cases server.channels.lookup (toAsciiLower name) <;> rfl

theorem letIn_events (server : Server) (uid : Uid) (name : Str) :
    (server.letIn uid name).events = server.events ++ [.join uid (toAsciiLower name)] :=
  congrArg (· ++ [Hook.join uid (toAsciiLower name)]) (propagateJoin_events ..)

theorem letIn_nickIndex (server : Server) (uid : Uid) (name : Str) :
    (server.letIn uid name).nickIndex = server.nickIndex :=
  propagateJoin_nickIndex ..

theorem drainHooks_letIn {server : Server} (hevs : server.events = []) (env : Env)
    (uid : Uid) (name : Str) :
    (server.letIn uid name).drainHooks env =
      runHook env { server.letIn uid name with events := [] } (.join uid (toAsciiLower name)) := by
  rw [drainHooks, letIn_events, hevs]
  rfl

/-! ## Deeds -/

/-- The move a command of `uid` makes on the roster, and the lines it says. -/
inductive Deed (env : Env) (server : Server) (uid : Uid) :
    Command → Roster → List Out → Prop where
  | idle (command : Command) : Deed env server uid command server.roster []
  | join {name target uuid : Str} {grants : List Out}
      (hgate : env.joinGate server uid name = some target)
      (hid : server.roster.identity uid = some (uuid, true))
      (htgt : IsChanName target)
      (hgr : ∀ out ∈ grants, out.IsGrant server.conf.sid) :
      Deed env server uid (.act (.join name))
        (server.roster.enter uid (toAsciiLower target))
        (server.joinLine uuid target :: grants)
  | part {target reason uuid : Str}
      (hid : server.roster.identity uid = some (uuid, true))
      (htgt : IsChanName target) :
      Deed env server uid (.act (.part target reason))
        (server.roster.leave uid (toAsciiLower target)) [.part uuid target reason]
  | quit {reason uuid : Str}
      (hid : server.roster.identity uid = some (uuid, true)) :
      Deed env server uid (.act (.quit reason)) (server.roster.depart uid uuid)
        [.quit uuid reason]
  | kickLocal {chan victim reason uuid who : Str} {target : Uid}
      (hid : server.roster.identity uid = some (uuid, true))
      (hchan : IsChanName chan) (hvic : server.nickToUuid victim = who)
      (htgt : server.roster.identity target = some (who, true)) :
      Deed env server uid (.kick chan victim reason)
        (server.roster.leave target (toAsciiLower chan)) [.kick uuid chan who reason]
  | kickRemote {chan victim reason uuid who : Str}
      (hid : server.roster.identity uid = some (uuid, true))
      (hchan : IsChanName chan) (hvic : server.nickToUuid victim = who)
      (hmb : server.roster.rmember (toAsciiLower chan) who = true) :
      Deed env server uid (.kick chan victim reason)
        (server.roster.unseat (toAsciiLower chan) who) [.kick uuid chan who reason]

def Does (env : Env) (uid : Uid) (command : Command) (before after : Server) : Prop :=
  ∃ outs, Deed env before uid command after.roster outs ∧ after.Named ∧
    (∀ nick, before.findNick nick = none → after.findNick nick = none) ∧
    ∀ link, after.linesTo link = before.linesTo link ++
      if before.isRegistered link = true then outs else []

section Doing

variable (env : Env) {server : Server} {sid peer : Str} {port uid : Uid} {uuid : Str}

theorem Does.idle (hnm : server.Named) (command : Command) :
    Does env uid command server server :=
  ⟨[], .idle command, hnm, fun _ => id, by simp⟩

variable (hid : server.roster.identity uid = some (uuid, true)) (hnm : server.Named)
  (hevs : server.events = [])

include hid hnm hevs

theorem join_does (name : Str) :
    Does env uid (.act (.join name)) server ((server.join env uid name).drainHooks env) := by
  unfold join
  split
  · rename_i target hgate
    split
    · rename_i hmay
      have htgt : IsChanName target := by
        simp only [mayJoin, Bool.and_eq_true] at hmay
        exact isChanName_of_validChan hmay.1
      have hu : uid ∈ server.users := by
        obtain ⟨user, hu, -, -⟩ := identity_eq_some.mp hid
        exact Table.mem_of_lookup hu
      rw [drainHooks_letIn hevs]
      obtain ⟨⟨channels, sent, hrest⟩, hnoNew, grants, hgr, hls⟩ :=
        regrades_grantFrame.runHook_join { server.letIn uid target with events := [] } uid
          (toAsciiLower target) env
      have hfrd : Framed 0 server (server.letIn uid target) := letIn_framed ..
      have hadmitted := linesTo_letIn hid target
      refine ⟨server.joinLine uuid target :: grants, ?_, ?_, ?_, fun link => ?_⟩
      · rw [roster_touches (touches_joinHook ..)]
        refine (roster_letIn hu target).symm ▸ Deed.join hgate hid htgt ?_
        intro out hout
        rw [← hfrd.conf]
        exact hgr out hout
      · exact (hnm.letIn uid htgt).of_noNewChannel hnoNew
      · intro nick hnick
        rw [hrest, findNick]
        exact (congrArg _ (letIn_nickIndex server uid target)).trans hnick
      · have hreg : isRegistered { server.letIn uid target with events := [] }
            link = server.isRegistered link := by
          simp only [isRegistered, hfrd.links]
        have hcleared : linesTo { server.letIn uid target with events := [] } link =
            (server.letIn uid target).linesTo link := rfl
        rw [hls, hcleared, hadmitted, hreg, List.append_assoc]
        split <;> simp
    · rw [drainHooks_nil hevs]
      exact .idle env hnm _
  · rw [drainHooks_nil hevs]
    exact .idle env hnm _

theorem part_does (hsnd : server.roster.Sound sid peer port) (target reason : Str) :
    Does env uid (.act (.part target reason)) server
      ((server.part uid target reason).drainHooks env) := by
  obtain ⟨user, hu, rfl, hreg⟩ := identity_eq_some.mp hid
  unfold part
  simp only
  split
  · rename_i hon
    have htgt : IsChanName target := by
      have hmb := hon
      rw [show server.isOn uid (toAsciiLower target) =
        server.isMember uid (toAsciiLower target) from hsnd.on_eq ..] at hmb
      obtain ⟨channel, hchn, -⟩ := isMember_iff.mp hmb
      obtain ⟨hlow, hname⟩ := hnm hchn
      exact hname.of_lower hlow.symm
    have htold : server.propagatePart uid target reason =
        server.propagate (.part user.uuid target reason) none := by
      simp only [propagatePart, hu, hreg, if_true]
    have hq : ((server.propagate (.part user.uuid target reason) none).dropMember
        uid (toAsciiLower target)).events = [] := hevs
    rw [htold, drainHooks_nil hq]
    refine ⟨[.part user.uuid target reason], ?_, ?_, fun _ => id, fun link => ?_⟩
    · rw [roster_dropMember, roster_propagate]
      exact .part hid htgt
    · exact hnm.of_noNewChannel (.dropMember (server.propagate _ none) uid _)
    · refine (linesTo_propagate ..).trans ?_
      simp
  · rw [drainHooks_nil hevs]
    exact .idle env hnm _

theorem quit_does (reason : Str) :
    Does env uid (.act (.quit reason)) server ((server.removeUser uid reason).drainHooks env) := by
  obtain ⟨user, hu, rfl, hreg⟩ := identity_eq_some.mp hid
  have hq : (server.removeUser uid reason).events = [] := by
    rw [← hevs]
    simp only [removeUser, hu]
    split <;> split <;> rfl
  rw [drainHooks_nil hq]
  refine ⟨[.quit user.uuid reason], ?_, ?_, ?_, fun link => ?_⟩
  · rw [roster_removeUser hu hreg]
    exact .quit hid
  · exact hnm.of_noNewChannel (.removeUser server uid reason)
  · intro nick hnick
    rw [findNick, removeUser_nickIndex hu]
    split
    · rw [Table.lookup_erase_eq]
      split
      · rfl
      · exact hnick
    · exact hnick
  · rw [linesTo_removeUser hu]
    simp [hreg]

section

variable (hsnd : server.roster.Sound sid peer port)

include hsnd

theorem kick_does (chan victim reason : Str) :
    Does env uid (.kick chan victim reason) server
      ((server.kick uid chan victim reason).drainHooks env) := by
  obtain ⟨user, hu, rfl, hreg⟩ := identity_eq_some.mp hid
  have hidle : Does env uid (.kick chan victim reason) server (server.drainHooks env) := by
    rw [drainHooks_nil hevs]
    exact .idle env hnm _
  let line : Out := .kick user.uuid chan (server.nickToUuid victim) reason
  let told := server.propagate line none
  have htold : server.propagateKick uid chan victim reason = told := by
    simp only [propagateKick, hu, hreg, if_true, told, line]
  have hls : ∀ link, told.linesTo link =
      server.linesTo link ++ if server.isRegistered link = true then [line] else [] := by
    intro link
    rw [linesTo_propagate]
    simp
  unfold kick
  simp only
  split
  · exact hidle
  · rename_i channel hchn
    have hchan : IsChanName chan := by
      obtain ⟨hlow, hname⟩ := hnm hchn
      exact hname.of_lower hlow.symm
    split
    · exact hidle
    · split
      · rename_i target hf
        split
        · rename_i hkickable
          simp only [kickableLocal, decide_eq_true_eq] at hkickable
          have hmb : server.isMember target (toAsciiLower chan) = true :=
            isMember_iff.mpr ⟨channel, hchn, hkickable.1⟩
          obtain ⟨who, hwho⟩ := hsnd.members hmb
          have hvic : server.nickToUuid victim = who := by
            obtain ⟨other, ho, rfl, -⟩ := identity_eq_some.mp hwho
            simp only [nickToUuid, hf, Option.bind_some, ho]
          rw [htold]
          have hq : (told.dropMember target (toAsciiLower chan)).events = [] := hevs
          rw [drainHooks_nil hq]
          refine ⟨_, ?_, ?_, fun _ => id, hls⟩
          · simp only [roster_dropMember, roster_propagate, line, told, hvic]
            exact .kickLocal hid hchan hvic hwho
          · exact hnm.of_noNewChannel (.dropMember told target _)
        · exact hidle
      · rename_i habs
        split
        · rename_i who hkickable
          obtain ⟨via, member, hf, hse, -⟩ := (kickableRemote_eq_some ..).mp hkickable
          have hvic : server.nickToUuid victim = who := by
            simp only [nickToUuid, habs, Option.bind_none, hf]
          have hmb : server.roster.rmember (toAsciiLower chan) who = true :=
            isRemoteMember_iff.mpr ⟨channel, hchn, Table.mem_of_lookup hse⟩
          rw [htold]
          have hq : (told.changeChannel (toAsciiLower chan) fun channel =>
              { channel with rmembers := channel.rmembers.erase who }).events = [] :=
            hevs
          refine (drainHooks_nil hq env).symm ▸ ?_
          refine ⟨_, ?_, ?_, fun _ => id, hls⟩
          · simp only [roster_eraseRemote, roster_propagate, line, told, hvic]
            exact .kickRemote hid hchan hvic hmb
          · exact hnm.of_noNewChannel (.changeChannel told _ fun _ => rfl)
        · exact hidle

theorem obey_does {command : Command} (hcmd : ∀ newnick, command ≠ .act (.nick newnick)) :
    Does env uid command server ((server.obey env uid command).drainHooks env) := by
  have henr : server.isEnrolled uid = true := by
    obtain ⟨user, hu, -, hreg⟩ := identity_eq_some.mp hid
    simp [isEnrolled, hu, hreg]
  cases command with
  | act action =>
    cases action with
    | nick newnick => exact absurd rfl (hcmd newnick)
    | join name =>
      simp only [obey, perform, henr, if_true]
      exact join_does env hid hnm hevs name
    | part target reason =>
      simp only [obey, perform, henr, if_true]
      exact part_does env hid hnm hevs hsnd target reason
    | quit reason => exact quit_does env hid hnm hevs reason
  | kick chan victim reason =>
    simp only [obey, henr, if_true]
    exact kick_does env hid hnm hevs hsnd chan victim reason

end

end Doing

theorem obey_framed {via : Uid} (env : Env) (uid : Uid) (command : Command)
    (server : Server) : Framed via server (server.obey env uid command) := by
  cases command with
  | act action => exact perform_framed env uid server action
  | kick chan victim reason =>
    have htold : Framed via server (server.propagateKick uid chan victim reason) := by
      unfold propagateKick
      split
      · split
        · exact server.propagate_framed rfl rfl
        · exact .refl server
      · exact .refl server
    simp only [obey]
    split
    · unfold kick
      simp only
      split
      · exact .refl server
      · split
        · exact .refl server
        · split
          · split
            · exact htold.trans (dropMember_harmless ..).toFramed
            · exact .refl server
          · split
            · exact htold.trans (.of_same rfl rfl rfl rfl rfl)
            · exact .refl server
    · exact .refl server

end Server

end EchoIrcd
