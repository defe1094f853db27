import EchoIrcd.Wire

/-!
# What the handshake does to the links

Of a link only its stage matters to a handshake: whether it is registered,
whether our `SERVER` line has been sent and which server is behind it.  Opening,
accepting, rejecting and closing a link are described by the stage of every
link, the handshake lines written to it and the known servers.
-/

namespace EchoIrcd

open Str Table List

variable {block : LinkBlock} {message : Message} {out : Out} {server : Server} {name sid : Str}
  {uid : Uid}

def Link.stage (link : Link) : Bool × Bool × Option Str :=
  (link.registered, link.sentServer, link.sid)

namespace Server

def stage (server : Server) (uid : Uid) : Option (Bool × Bool × Option Str) :=
  (server.links.lookup uid).map Link.stage

def handshakesTo (server : Server) (uid : Uid) : List Out :=
  (server.linesTo uid).filter Out.isHandshake

theorem mem_links_iff : uid ∈ server.links ↔ server.stage uid ≠ none := by
  rw [← AList.lookup_isSome, stage]
  cases server.links.lookup uid <;> simp

theorem isRegistered_eq (server : Server) (uid : Uid) :
    server.isRegistered uid = (server.stage uid).any Prod.fst := by
  unfold isRegistered stage
  cases server.links.lookup uid <;> rfl

theorem stage_changeLink (server : Server) (uid : Uid) (change : Link → Link) (other : Uid) :
    (server.changeLink uid change).stage other =
      if other = uid then (server.links.lookup uid).map fun link =>
        (change link).stage
      else server.stage other := by
  unfold stage
  rw [changeLink_links, lookup_modify]
  split
  · rw [Option.map_map]
    rfl
  · rfl

@[simp] theorem stage_touchLink (server : Server) (uid other : Uid) :
    (server.touchLink uid).stage other = server.stage other := by
  rw [touchLink, stage_changeLink]
  split
  · rename_i hself
    rw [hself]
    rfl
  · rfl

end Server

structure EndStep (uid : Uid) (more : List Out)
    (stage : Option (Bool × Bool × Option Str)) (before after : Server) : Prop where
  conf : after.conf = before.conf
  events : after.events = before.events
  stage : ∀ other, after.stage other =
    if other = uid then stage else before.stage other
  handshakes : ∀ other, after.handshakesTo other =
    before.handshakesTo other ++ if other = uid then more else []

namespace Server

/-! ## Accepting -/

def greeting (server : Server) (uid : Uid) (block : LinkBlock) : List Out :=
  if (server.links.lookup uid).any Link.sentServer then []
  else [server.serverLine block.password]

theorem mem_greeting (hout : out ∈ server.greeting uid block) :
    out = server.serverLine block.password := by
  unfold greeting at hout
  split at hout
  · cases hout
  · exact mem_singleton.mp hout

theorem greeting_of_stage {sentServer : Bool} {sid : Option Str}
    (hstg : server.stage uid = some (false, sentServer, sid)) (block : LinkBlock) :
    server.greeting uid block =
      if sentServer then [] else [server.serverLine block.password] := by
  obtain ⟨link, hlink, hstg⟩ := Option.map_eq_some_iff.mp hstg
  simp only [Link.stage, Prod.mk.injEq] at hstg
  simp [greeting, hlink, hstg.2.1]

section

variable (server : Server) (uid : Uid) (block : LinkBlock) (name sid desc : Str)

theorem acceptLink_eq : ∃ links sent, server.acceptLink uid block name sid desc =
    { server with
      links := links
      servers := server.servers.insert sid ⟨sid, name, desc, uid,
        (server.ulineMatch name).1, (server.ulineMatch name).2⟩
      sent := sent } := by
  obtain ⟨sent, hsent⟩ := linkOutAll_eq
    ((server.registerLink uid name sid desc).greet uid block) uid
    (.burst ((server.registerLink uid name sid desc).greet uid block).clock ::
      (((server.registerLink uid name sid desc).greet uid block).netburst ++
        [Out.endburst]))
  rw [acceptLink, sendBurst, hsent, greet]
  split
  · exact ⟨_, _, rfl⟩
  · exact ⟨_, _, rfl⟩

private theorem any_sentServer : (((server.registerLink uid name sid desc).links.lookup uid).any
      Link.sentServer) = (server.links.lookup uid).any Link.sentServer := by
  rw [registerLink_links, lookup_modify_self]
  cases server.links.lookup uid <;> rfl

theorem acceptLink_servers : (server.acceptLink uid block name sid desc).servers =
      server.servers.insert sid ⟨sid, name, desc, uid,
        (server.ulineMatch name).1, (server.ulineMatch name).2⟩ := by
  obtain ⟨links, sent, hstate⟩ := server.acceptLink_eq uid block name sid desc
  rw [hstate]

end

theorem mem_channelBurst (hout : out ∈ server.channelBurst) :
    ∃ key channel, server.channels.lookup key = some channel ∧
      (out = .fjoin server.conf.sid channel.name channel.created channel.modes.render
          (intercalate [' '] (server.memberTokens channel)) ∨
        ∃ modes args, out = .fmode server.conf.sid channel.name channel.created modes args) := by
  obtain ⟨⟨key, channel⟩, hent, hburst⟩ := mem_flatMap.mp hout
  refine ⟨key, channel, Table.mem_toPairs.mp hent, ?_⟩
  unfold burstChannel at hburst
  split at hburst
  · cases hburst
  · simp only [mem_cons, mem_append, mem_map, mem_flatMap, listBurst] at hburst
    rcases hburst with rfl | (⟨_, _, rfl⟩ | ⟨_, _, rfl⟩) | ⟨_, _, _, _, rfl⟩
    · exact .inl rfl
    all_goals exact .inr ⟨_, _, rfl⟩

theorem netburst_isHandshake (hout : out ∈ server.netburst) : out.isHandshake = false := by
  simp only [netburst, mem_append] at hout
  rcases hout with ((hu | hchan) | hxl) | hfil
  · obtain ⟨entry, _, hintro⟩ := mem_flatMap.mp hu
    exact (userIntroLines_routine hintro).1
  · obtain ⟨key, channel, -, rfl | ⟨modes, args, rfl⟩⟩ := mem_channelBurst hchan <;> rfl
  · obtain ⟨xline, _, rfl⟩ := mem_map.mp hxl
    rfl
  · obtain ⟨rule, _, rfl⟩ := mem_map.mp hfil
    rfl

section

variable (huid : uid ∈ server.links) (block : LinkBlock) (name sid desc : Str)

include huid

theorem acceptLink_lines (link : Uid) :
    (server.acceptLink uid block name sid desc).linesTo link =
      server.linesTo link ++ if link = uid then
        server.greeting uid block ++
          Out.burst server.clock :: (server.netburst ++ [Out.endburst])
      else [] := by
  have hlink : uid ∈ (server.registerLink uid name sid desc).links := mem_modify.mpr huid
  unfold acceptLink sendBurst greet greeting
  rw [any_sentServer]
  split
  · rw [linesTo_linkOutAll]
    simp only [hlink, and_true]
    rfl
  · have hgreeted : uid ∈ (((server.registerLink uid name sid desc).linkOut uid
        ((server.registerLink uid name sid desc).serverLine
          block.password)).changeLink uid fun link =>
            { link with sentServer := true }).links := mem_modify.mpr hlink
    refine (linesTo_linkOutAll ..).trans ?_
    rw [linesTo_congr (changeLink_sent ..), linesTo_linkOut, append_assoc]
    congr 1
    by_cases hself : link = uid
    · simp only [hself, true_and]
      rw [if_pos hlink, if_pos hgreeted, if_pos trivial]
      rfl
    · simp [hself]

theorem acceptLink_stage (other : Uid) :
    (server.acceptLink uid block name sid desc).stage other =
      if other = uid then some (true, true, some sid) else server.stage other := by
  obtain ⟨link, hlink⟩ := mem_iff_lookup.mp huid
  unfold acceptLink sendBurst greet
  rw [any_sentServer, stage, linkOutAll_links]
  split
  · rename_i hsent
    have hsent' : link.sentServer = true := by simpa [hlink] using hsent
    rw [registerLink_links, lookup_modify]
    split
    · simp [hlink, Link.stage, hsent']
    · rfl
  · rw [changeLink_links, linkOut_links, registerLink_links, lookup_modify]
    split
    · simp [hlink, Link.stage]
    · rename_i ho
      rw [lookup_modify_ne _ _ ho]
      rfl

theorem acceptLink_handshakes (link : Uid) :
    (server.acceptLink uid block name sid desc).handshakesTo link =
      server.handshakesTo link ++
        if link = uid then server.greeting uid block else [] := by
  unfold handshakesTo
  rw [acceptLink_lines huid, filter_append]
  split
  · have hburst : (Out.burst server.clock ::
        (server.netburst ++ [Out.endburst])).filter Out.isHandshake = [] := by
      rw [filter_eq_nil_iff]
      intro out hout
      rcases mem_cons.mp hout with rfl | hrest
      · simp [Out.isHandshake]
      · rcases mem_append.mp hrest with hnet | hlast
        · simp [netburst_isHandshake hnet]
        · rw [mem_singleton.mp hlast]
          simp [Out.isHandshake]
    have hgreeting : (server.greeting uid block).filter Out.isHandshake =
        server.greeting uid block := by
      rw [filter_eq_self]
      intro out hout
      rw [mem_greeting hout]
      rfl
    rw [filter_append, hburst, hgreeting, append_nil]
  · rfl

theorem acceptLink_endStep :
    EndStep uid (server.greeting uid block) (some (true, true, some sid)) server
      (server.acceptLink uid block name sid desc) := by
  obtain ⟨links, sent, hstate⟩ := server.acceptLink_eq uid block name sid desc
  refine ⟨?_, ?_, acceptLink_stage huid block name sid desc,
    acceptLink_handshakes huid block name sid desc⟩
  · rw [hstate]
  · rw [hstate]

end

/-! ## Closing -/

theorem closeLink_eq (server : Server) (uid : Uid) :
    ∃ channels remoteUsers remoteNick, server.closeLink uid =
      { server with
        links := server.links.erase uid
        servers := retain (fun _ remote => remote.via ≠ uid) server.servers
        channels := channels
        remoteUsers := remoteUsers
        remoteNick := remoteNick } := by
  refine foldlRecOn (motive := fun reached : Server =>
    ∃ channels remoteUsers remoteNick, reached = { server with
        links := server.links.erase uid
        servers := retain (fun _ remote => remote.via ≠ uid) server.servers
        channels := channels
        remoteUsers := remoteUsers
        remoteNick := remoteNick }) _ _ ⟨_, _, _, rfl⟩ ?_
  rintro _ ⟨channels, remoteUsers, remoteNick, rfl⟩ uuid _
  unfold dropRemoteUser
  split
  · exact ⟨_, _, _, rfl⟩
  · exact ⟨_, _, _, rfl⟩

theorem closeLink_servers (server : Server) (uid : Uid) (sid : Str) :
    (server.closeLink uid).servers.lookup sid =
      (server.servers.lookup sid).filter fun remote => remote.via ≠ uid := by
  obtain ⟨channels, remoteUsers, remoteNick, hclosed⟩ := server.closeLink_eq uid
  rw [hclosed, lookup_retain]

theorem closeLink_endStep (server : Server) (uid : Uid) :
    EndStep uid [] none server (server.closeLink uid) := by
  obtain ⟨channels, remoteUsers, remoteNick, hclosed⟩ := server.closeLink_eq uid
  rw [hclosed]
  refine ⟨rfl, rfl, fun other => ?_, fun other => ?_⟩
  · rw [stage, lookup_erase_eq]
    split
    · rfl
    · rfl
  · rw [ite_self, append_nil]
    rfl

theorem linkOut_handshakes (huid : uid ∈ server.links) (hout : out.isHandshake = true)
    (other : Uid) :
    (server.linkOut uid out).handshakesTo other =
      server.handshakesTo other ++ if other = uid then [out] else [] := by
  unfold handshakesTo
  rw [linesTo_linkOut, filter_append]
  by_cases hself : other = uid
  · simp [hself, huid, hout]
  · simp [hself]

theorem rejectLink_endStep (huid : uid ∈ server.links) (why : Str) :
    EndStep uid [.error ("Link denied: " ++ why)] none server (server.rejectLink uid why) := by
  have hclose := closeLink_endStep (server.linkOut uid
    (.error ("Link denied: " ++ why))) uid
  refine ⟨hclose.conf, hclose.events, hclose.stage, fun other => ?_⟩
  refine (hclose.handshakes other).trans ?_
  rw [linkOut_handshakes huid rfl, ite_self, append_nil]

/-! ## Opening -/

theorem stage_insert (server : Server) (uid : Uid) (link : Link) (other : Uid) :
    Server.stage { server with links := server.links.insert uid link } other =
      if other = uid then some link.stage else server.stage other := by
  rw [stage, lookup_insert_eq]
  split
  · rfl
  · rfl

theorem addLink_inbound_endStep (server : Server) (uid : Uid) (ip : Str) :
    EndStep uid [] (some (false, false, none)) server (server.addLink uid ip false) := by
  refine ⟨rfl, rfl, server.stage_insert uid _, fun other => ?_⟩
  rw [ite_self, append_nil]
  rfl

theorem addLink_outbound_endStep {ip : Str}
    (hblk : server.conf.linkBlocks.find? (·.ip = ip) = some block) (uid : Uid) :
    EndStep uid [server.serverLine block.password] (some (false, true, none)) server
      (server.addLink uid ip true) := by
  have hopn : server.addLink uid ip true = Server.linkOut uid
      (server.serverLine block.password) { server with
        links := server.links.insert uid
          { outbound := true, sentServer := true, lastSeen := server.clock } } := by
    simp [addLink, hblk]
  have hlink : uid ∈ server.links.insert uid
      { outbound := true, sentServer := true, lastSeen := server.clock } :=
    (AList.mem_insert _).mpr (.inl rfl)
  rw [hopn]
  refine ⟨rfl, rfl, server.stage_insert uid _, fun other => ?_⟩
  rw [linkOut_handshakes hlink rfl]
  rfl

/-! ## The `SERVER` line -/

structure Welcome (env : Env) (server : Server) (block : LinkBlock)
    (name sid : Str) : Prop where
  jupe : server.matchedJupe env name = none
  block : server.conf.linkBlocks.find? (·.name = name) = some block
  valid : validSid sid = true
  ne : sid ≠ server.conf.sid

theorem linkServer_welcome {env : Env} {desc : Str} (hpeer : Welcome env server block name sid)
    (uid : Uid) (hpar : message.params = [name, block.password, sid, desc]) :
    server.linkServer env uid message =
      if sid ∈ server.servers then
        server.rejectLink uid "Bad or already-present SID"
      else server.acceptLink uid block name sid desc := by
  have hfree : (!validSid sid ∨ sid = server.conf.sid ∨ sid ∈ server.servers) ↔
      sid ∈ server.servers := by
    simp [hpeer.valid, hpeer.ne]
  unfold linkServer
  rw [hpar]
  simp only [hpeer.jupe, hpeer.block, ne_eq, not_true_eq_false, if_false, hfree]

theorem onLink_server (hpend : server.isRegistered uid = false) (env : Env)
    (hcmd : message.command = Verb.server.word) :
    server.onLink env uid message = (server.touchLink uid).linkServer env uid message := by
  unfold onLink onLinkFuel
  rw [hcmd, Verb.ofWord_word]
  simp [hpend]

theorem onLink_error (server : Server) (env : Env) (uid : Uid)
    (hcmd : message.command = Verb.error.word) :
    server.onLink env uid message = (server.touchLink uid).closeLink uid := by
  unfold onLink onLinkFuel
  rw [hcmd, Verb.ofWord_word]

end Server

theorem EndStep.of_touchLink {more : List Out} {stage : Option (Bool × Bool × Option Str)}
    {after : Server} (hstep : EndStep uid more stage (server.touchLink uid) after) :
    EndStep uid more stage server after := by
  refine ⟨hstep.conf, hstep.events, fun other => ?_, hstep.handshakes⟩
  rw [hstep.stage, Server.stage_touchLink]

/-! ## The lines as the peer reads them -/

theorem isToken_of_validSid (hsid : validSid sid = true) : IsToken sid := by
  simp only [validSid, decide_eq_true_eq] at hsid
  obtain ⟨hlen, _, hcaps⟩ := hsid
  refine ⟨?_, not_mem_of_isCaps hcaps (by decide), ?_⟩
  · rintro rfl
    cases hlen
  · intro hhead
    have hcol : ':' ∈ sid := mem_of_mem_head? hhead
    exact not_mem_of_isCaps hcaps (by decide) hcol

theorem Out.receive_server {pass : Str} (hname : IsToken name) (hpass : IsToken pass)
    (hsid : IsToken sid) (desc : Str) :
    (Out.server name pass sid desc).receive =
      some { source := none, command := "SERVER",
             params := [name, pass, sid, desc] } := by
  have hpar : ∀ param ∈ [name, pass, sid], IsToken param := by
    simp [hname, hpass, hsid]
  have hcmd : IsCommand ("SERVER" : Str) := by decide
  have hread : parse (Line.render ⟨none, "SERVER", [name, pass, sid], some desc⟩) =
      _ := parse_render nofun hcmd hpar
  exact hread

theorem Out.receive_error (text : Str) :
    (Out.error text).receive = some { source := none, command := "ERROR", params := [text] } := by
  have hcmd : IsCommand ("ERROR" : Str) := by decide
  have hread : parse (Line.render ⟨none, "ERROR", [], some text⟩) = _ :=
    parse_render nofun hcmd nofun
  exact hread

end EchoIrcd
