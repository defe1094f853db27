import EchoIrcd.Deeds

/-!
# What a line does

The lines a command says, as the peer that reads their text acts on them: each
one comes to an operation on the channels or the remote users of the reader,
and so to a move on its roster.  Reading them writes nothing back.
-/

namespace EchoIrcd

open Str List

variable {chan name source uuid victim : Str}

/-! ## Texts -/

theorem IsToken.of_isCaps {word : Str} (hne : word ≠ []) (hcaps : isCaps word = true) :
    IsToken word := by
  refine ⟨hne, not_mem_of_isCaps hcaps (by decide), ?_⟩
  intro hhead
  exact not_mem_of_isCaps hcaps (by decide) (mem_of_mem_head? hhead)

theorem IsUuid.isToken {sid : Str} (huuid : IsUuid sid uuid)
    (hsid : validSid sid = true) : IsToken uuid := by
  refine .of_isCaps ?_ (huuid.isCaps hsid)
  obtain ⟨suffix, rfl, hlen, -⟩ := huuid
  intro hnil
  rw [(append_eq_nil_iff.mp hnil).2] at hlen
  cases hlen

theorem isToken_renderU64 (number : UInt64) : IsToken (renderU64 number) := by
  refine ⟨ofNat_ne_nil _, ?_, ?_⟩
  · intro hbl
    exact absurd (ofNat_isDigit hbl) (by decide)
  · intro hhead
    exact absurd (ofNat_isDigit (mem_of_mem_head? hhead)) (by decide)

theorem Out.receive_tokens {out : Out} {source : Str}
    (htext : out.text = out.line.render) (hsrc : out.line.source = some source)
    (hbl : ' ' ∉ source) (hcmd : IsCommand out.line.command)
    (hpar : ∀ param ∈ out.line.params, IsToken param) :
    out.receive = some { source := some source,
                         command := toAsciiUpper out.line.command,
                         params := out.line.params ++ out.line.trailing.toList } := by
  have hok : SourceOk out.line.source := by
    rw [hsrc]
    rintro _ ⟨⟩
    exact hbl
  rw [Out.receive, htext, ← hsrc]
  exact parse_render hok hcmd hpar

/-- The command words of the lines that `handle` serves for any peer. -/
def Verb.isPlain (verb : Verb) : Bool :=
  !verb.isServices && !(verb ∈ [Verb.server, .encap, .burst, .endburst, .squit, .error])

namespace Server

theorem onLine_handle {server : Server} {port : Uid} {out : Out} {message : Message}
    {verb : Verb} (hreg : server.isRegistered port = true)
    (hrecv : out.receive = some message)
    (hverb : Verb.ofWord message.command = some verb) (hpl : verb.isPlain = true) (env : Env) :
    server.onLine env port out = (server.touchLink port).handle env verb port message := by
  have hlink : port ∈ server.links := by
    unfold isRegistered at hreg
    split at hreg
    · rename_i link hf
      exact Table.mem_of_lookup hf
    · cases hreg
  have htch : (server.touchLink port).isRegistered port = true := by
    rw [isRegistered_touchLink, hreg]
  rw [onLine, if_pos hlink, hrecv]
  simp only [onLink, onLinkFuel, hverb, htch]
  cases verb <;> first | rfl | cases hpl

section Lines

variable {server : Server} {port : Uid} (hreg : server.isRegistered port = true)
  (env : Env)

include hreg

theorem onLine_tokens {out : Out} {params : List Str} {trailing : Option Str} (verb : Verb)
    (hsrc : ' ' ∉ source) (hpar : ∀ param ∈ params, IsToken param)
    (htext : out.text = Line.render ⟨some source, verb.word, params, trailing⟩)
    (hpl : verb.isPlain = true) :
    server.onLine env port out = (server.touchLink port).handle env verb port
      { source := some source, command := verb.word, params := params ++ trailing.toList } := by
  have hok : SourceOk (some source) := by
    rintro _ ⟨⟩
    exact hsrc
  obtain ⟨hcmd, hupper⟩ : IsCommand verb.word ∧ toAsciiUpper verb.word = verb.word := by
    cases verb <;> decide
  have hread := @parse_render ⟨some source, verb.word, params, trailing⟩ hok hcmd hpar
  rw [← htext, hupper] at hread
  exact onLine_handle hreg hread (Verb.ofWord_word verb) hpl env

theorem onLine_fjoin {modes : Str} (hsrc : ' ' ∉ source) (hname : IsChanName name)
    (hmds : IsToken modes) (ts : Timestamp) (members : Str) :
    server.onLine env port (.fjoin source name ts modes members) =
      (server.touchLink port).linkFjoinRecv port
        { source := some source, command := "FJOIN",
          params := [name, renderU64 ts, modes, members] } := by
  have hpar : ∀ param ∈ [name, renderU64 ts, modes], IsToken param := by
    simp [hname.isToken, isToken_renderU64, hmds]
  rw [onLine_tokens hreg env .fjoin hsrc hpar rfl rfl]
  rfl

section

variable (huuid : IsToken uuid) (hkn : server.sourcedVia uuid port = true)

include huuid hkn

theorem onLine_ijoin (hname : IsChanName name) (ts : Timestamp) :
    ∃ relay, server.onLine env port (.ijoin uuid name ts []) =
      ((server.touchLink port).enterRemote (toAsciiLower name) uuid {}
        (Channel.new ts name)).propagate relay (some port) := by
  have hpar : ∀ param ∈ [name, ("1" : Str), renderU64 ts], IsToken param := by
    intro param hprm
    simp only [mem_cons, not_mem_nil, or_false] at hprm
    rcases hprm with rfl | rfl | rfl
    · exact hname.isToken
    · decide
    · exact isToken_renderU64 ts
  have hserved : name.head? = some '#' ∧
      (server.touchLink port).sourcedVia uuid port = true := ⟨hname.1, hkn⟩
  have hts : (([name, "1", renderU64 ts] : List Str)[2]?.bind parseU64).getD
      (server.touchLink port).clock = ts := by
    simp [parseU64_renderU64]
  refine ⟨.forward { source := some uuid, command := "IJOIN",
                     params := [name, "1", renderU64 ts] }, ?_⟩
  rw [onLine_tokens hreg env .ijoin huuid.2.1 hpar rfl rfl]
  simp only [handle, linkIjoinRecv, Option.toList_none, append_nil, if_pos hserved, hts]
  rfl

theorem onLine_part (hchan : IsChanName chan) (reason : Str) :
    server.onLine env port (.part uuid chan reason) =
      if server.isRemoteMember (toAsciiLower chan) uuid = true then
        ((server.touchLink port).dropRemoteMember (toAsciiLower chan) uuid).propagate
          (.part uuid chan reason) (some port)
      else server.touchLink port := by
  have hpar : ∀ param ∈ [chan], IsToken param := by simp [hchan.isToken]
  have hreason : ((if reason = [] then none else some reason).toList.head?).getD [] = reason := by
    split
    · rename_i hnil
      rw [hnil]
      rfl
    · rfl
  have hserved : ((server.touchLink port).sourcedVia uuid port = true ∧
      (server.touchLink port).isRemoteMember (toAsciiLower chan) uuid = true) ↔
      server.isRemoteMember (toAsciiLower chan) uuid = true :=
    ⟨fun hboth => hboth.2, fun hmb => ⟨hkn, hmb⟩⟩
  rw [onLine_tokens hreg env .part huuid.2.1 hpar rfl rfl]
  simp only [handle, linkPartRecv, cons_append, nil_append, hreason, hserved]

theorem onLine_quit (reason : Str) :
    server.onLine env port (.quit uuid reason) =
      ((server.touchLink port).dropRemoteUser uuid).propagate (.quit uuid reason) (some port) := by
  have hpar : ∀ param ∈ ([] : List Str), IsToken param := nofun
  have hserved : (server.touchLink port).sourcedVia uuid port = true := hkn
  rw [onLine_tokens hreg env .quit huuid.2.1 hpar rfl rfl]
  simp only [handle, linkQuitRecv, if_pos hserved]
  rfl

end

theorem onLine_kick (huuid : IsToken uuid) (hchan : IsChanName chan) (hvic : IsToken victim)
    (reason : Str) :
    server.onLine env port (.kick uuid chan victim reason) =
      (server.touchLink port).linkKickRecv port
        { source := some uuid, command := "KICK",
          params := [chan, victim, reason] } := by
  have hpar : ∀ param ∈ [chan, victim], IsToken param := by
    simp [hchan.isToken, hvic]
  rw [onLine_tokens hreg env .kick huuid.2.1 hpar rfl rfl]
  rfl

theorem onLine_fmode (hsrc : ' ' ∉ source) (chan : Str) (ts : Timestamp) (modes : Str)
    (args : List Str) :
    ∃ message, server.onLine env port (.fmode source chan ts modes args) =
      (server.touchLink port).linkModeRecv port message := by
  have hok : SourceOk (some source) := by
    rintro _ ⟨⟩
    exact hsrc
  have hcmd : IsCommand ("FMODE" : Str) := by decide
  obtain ⟨params, hread⟩ : ∃ params,
      (Out.fmode source chan ts modes args).receive = some
        { source := some source, command := "FMODE", params := params } :=
    parse_render_command hok hcmd
  exact ⟨_, onLine_handle hreg hread (Verb.ofWord_word .fmode) (by decide) env⟩

end Lines

/-! ## Reading -/

/-- A line read from `port` makes the roster `roster` and is not answered. -/
structure Reads (port : Uid) (before : Server) (roster : Roster) (after : Server) :
    Prop where
  conf : after.conf = before.conf
  registered : ∀ uid, after.isRegistered uid = before.isRegistered uid
  servers : after.servers = before.servers
  nickIndex : after.nickIndex = before.nickIndex
  events : after.events = before.events
  lines : after.linesTo port = before.linesTo port
  named : before.Named → after.Named
  roster_eq : after.roster = roster

namespace Reads

variable {port : Uid} {before after : Server} {roster : Roster}

theorem touchLink (server : Server) (port : Uid) :
    Reads port server server.roster (server.touchLink port) where
  conf := rfl
  registered := fun uid => isRegistered_touchLink server port uid
  servers := rfl
  nickIndex := rfl
  events := rfl
  lines := rfl
  named := id
  roster_eq := rfl

theorem propagate (hrds : Reads port before roster after) (relay : Out) :
    Reads port before roster (after.propagate relay (some port)) where
  conf := hrds.conf
  registered := hrds.registered
  servers := hrds.servers
  nickIndex := hrds.nickIndex
  events := hrds.events
  lines := by
    rw [linesTo_propagate, hrds.lines]
    simp
  named := hrds.named
  roster_eq := hrds.roster_eq

theorem of_channels (haft : ∃ channels, after = { before with channels := channels })
    (hnm : before.Named → after.Named) (hros : after.roster = roster) :
    Reads port before roster after := by
  obtain ⟨channels, rfl⟩ := haft
  exact ⟨rfl, fun _ => rfl, rfl, rfl, rfl, rfl, hnm, hros⟩

theorem trans {middle : Server} {earlier : Roster}
    (hleft : Reads port before earlier middle) (hrt : Reads port middle roster after) :
    Reads port before roster after where
  conf := hrt.conf.trans hleft.conf
  registered := fun uid => (hrt.registered uid).trans (hleft.registered uid)
  servers := hrt.servers.trans hleft.servers
  nickIndex := hrt.nickIndex.trans hleft.nickIndex
  events := hrt.events.trans hleft.events
  lines := hrt.lines.trans hleft.lines
  named := fun hnm => hrt.named (hleft.named hnm)
  roster_eq := hrt.roster_eq

end Reads

/-! ## Modes -/

/-- Channels change, but none is made or renamed. -/
structure Remodes (before after : Server) : Prop where
  rest : ∃ channels, after = { before with channels := channels }
  noNew : NoNewChannel before after
  roster : after.roster = before.roster

theorem Remodes.refl (server : Server) : Remodes server server :=
  ⟨⟨server.channels, rfl⟩, .of_same rfl, rfl⟩

theorem Remodes.trans {first second third : Server} (hleft : Remodes first second)
    (hrt : Remodes second third) : Remodes first third := by
  obtain ⟨channels, rfl⟩ := hleft.rest
  obtain ⟨channels', rfl⟩ := hrt.rest
  exact ⟨⟨channels', rfl⟩, hleft.noNew.trans hrt.noNew, hrt.roster.trans hleft.roster⟩

theorem Remodes.changeChannel (server : Server) (key : Str)
    {change : Channel → Channel} (hchg : KeepsSeats change) :
    Remodes server (server.changeChannel key change) :=
  ⟨⟨_, rfl⟩, .changeChannel server key hchg.name, roster_changeChannel server key hchg⟩

theorem linkModeRecv_reads (server : Server) (port : Uid) (message : Message) :
    Reads port server server.roster (server.linkModeRecv port message) := by
  have hidle : Reads port server server.roster server := .of_channels ⟨server.channels, rfl⟩ id rfl
  have hsteps : ∀ source chan key (entries : List (Bool × Char)) args,
      Reads port server server.roster
        (entries.foldl (linkModeStep source chan key) (server, args)).1 := by
    intro source chan key entries args
    have hremodes : Remodes server (entries.foldl (linkModeStep source chan key) (server, args)).1 :=
      linkModeSteps_rel key .refl (fun server _ => .changeChannel server key) .trans source chan
        entries (server, args)
    exact .of_channels hremodes.rest
      (fun hnm => hnm.of_noNewChannel hremodes.noNew) hremodes.roster
  unfold linkModeRecv
  split
  · split
    · exact hidle
    · split
      · refine .propagate ?_ _
        exact ⟨rfl, fun _ => rfl, rfl, rfl, rfl, rfl, id, roster_changeRemote server _ fun _ => rfl⟩
      · simp only
        split
        · exact hidle
        · split
          · exact hidle.propagate _
          · split
            · exact hidle
            · exact (hsteps _ _ _ _ _).propagate _
  · exact hidle

section Reading

variable {server : Server} {port : Uid} (hreg : server.isRegistered port = true)
  (env : Env)

include hreg

theorem fjoin_reads {modes : Str} (hsrc : ' ' ∉ source) (hname : IsChanName name)
    (hmds : IsToken modes) (ts : Timestamp) (members : Str) :
    Reads port server (server.roster.seat (toAsciiLower name) (server.seatedBy members))
      (server.onLine env port (.fjoin source name ts modes members)) := by
  rw [onLine_fjoin hreg env hsrc hname hmds]
  refine (Reads.touchLink server port).trans ?_
  have hpar : Message.params
      { source := some source, command := "FJOIN",
        params := [name, renderU64 ts, modes, members] } = _ := rfl
  have hros := roster_linkFjoinRecv (server.touchLink port) port hpar
  have hnm : (server.touchLink port).Named → _ := fun hnm =>
    hnm.linkFjoinRecv port hpar hname
  refine ⟨rfl, fun _ => rfl, rfl, rfl, rfl, ?_, hnm, hros⟩
  refine (linesTo_propagate ..).trans ?_
  simp
  rfl

omit hreg in
theorem drop_reads (key uuid : Str) (out : Out) :
    Reads port server (server.roster.unseat key uuid)
      (((server.touchLink port).dropRemoteMember key uuid).propagate out (some port)) := by
  have hdrop : Reads port (server.touchLink port) (server.roster.unseat key uuid)
      ((server.touchLink port).dropRemoteMember key uuid) :=
    .of_channels ⟨_, rfl⟩ (fun hnm => hnm.of_noNewChannel (.dropRemoteMember ..))
      (roster_dropRemoteMember ..)
  exact ((Reads.touchLink server port).trans hdrop).propagate _

omit hreg in
theorem sourceBehind_of_sourcedVia (hkn : server.sourcedVia source port = true) :
    (server.touchLink port).sourceBehind source port = true := by
  simp only [sourcedVia, decide_eq_true_eq, Option.map_eq_some_iff] at hkn
  obtain ⟨remote, hrem, hvia⟩ := hkn
  simp [sourceBehind, touchLink, hrem, hvia]

section

variable (huuid : IsToken uuid) (hkn : server.sourcedVia uuid port = true)

include huuid hkn

theorem ijoin_reads (hname : IsChanName name) (ts : Timestamp) :
    Reads port server (server.roster.seat (toAsciiLower name) [uuid])
      (server.onLine env port (.ijoin uuid name ts [])) := by
  obtain ⟨relay, heqn⟩ := onLine_ijoin hreg env huuid hkn hname ts
  rw [heqn]
  have hentd : Reads port (server.touchLink port)
      (server.roster.seat (toAsciiLower name) [uuid])
      ((server.touchLink port).enterRemote (toAsciiLower name) uuid {} (Channel.new ts name)) :=
    .of_channels ⟨_, rfl⟩ (fun hnm => hnm.enterRemote hname uuid {} ts)
      (roster_enterRemote ..)
  exact ((Reads.touchLink server port).trans hentd).propagate relay

theorem part_reads (hchan : IsChanName chan) (reason : Str) :
    Reads port server (server.roster.unseat (toAsciiLower chan) uuid)
      (server.onLine env port (.part uuid chan reason)) := by
  rw [onLine_part hreg env huuid hkn hchan]
  split
  · exact drop_reads ..
  · rename_i hout
    rw [Roster.unseat_of_absent (Bool.eq_false_iff.mpr hout)]
    exact .touchLink server port

theorem quit_reads (reason : Str) :
    Reads port server (server.roster.forget uuid) (server.onLine env port (.quit uuid reason)) := by
  rw [onLine_quit hreg env huuid hkn]
  have hrem : uuid ∈ (server.touchLink port).remoteUsers := by
    simp only [sourcedVia, decide_eq_true_eq, Option.map_eq_some_iff] at hkn
    obtain ⟨remote, hrem, -⟩ := hkn
    exact Table.mem_of_lookup hrem
  refine ((Reads.touchLink server port).trans ?_).propagate _
  have hros := roster_dropRemoteUser hrem
  have hnm : NoNewChannel (server.touchLink port)
    ((server.touchLink port).dropRemoteUser uuid) := .dropRemoteUser ..
  obtain ⟨remote, hf⟩ := Table.mem_iff_lookup.mp hrem
  have heqn : ∃ channels remoteUsers remoteNick,
      (server.touchLink port).dropRemoteUser uuid = { server.touchLink port with
        channels := channels, remoteUsers := remoteUsers, remoteNick := remoteNick } := by
    rw [dropRemoteUser, hf]
    exact ⟨_, _, _, rfl⟩
  obtain ⟨channels, remoteUsers, remoteNick, heqn⟩ := heqn
  refine ⟨?_, ?_, ?_, ?_, ?_, ?_, fun hnm' => hnm'.of_noNewChannel hnm, hros⟩
  all_goals rw [heqn]
  · exact fun _ => rfl
  · rfl

variable (hchan : IsChanName chan) (hvic : IsToken victim)

include hchan hvic

theorem kick_reads_local {uid : Uid} (huid : server.uuidLocal.lookup victim = some uid)
    (hon : server.isOn uid (toAsciiLower chan) = server.isMember uid (toAsciiLower chan))
    (reason : Str) :
    Reads port server (server.roster.leave uid (toAsciiLower chan))
      (server.onLine env port (.kick uuid chan victim reason)) := by
  have htgt : (server.touchLink port).kickVictim victim = some (.inl uid) := by
    have hloc : (server.touchLink port).linkLocalTarget victim = some uid := by
      rw [linkLocalTarget, show (server.touchLink port).uuidLocal.lookup victim =
        some uid from huid]
      rfl
    rw [kickVictim, hloc]
  rw [onLine_kick hreg env huuid hchan hvic]
  simp only [linkKickRecv, if_pos (sourceBehind_of_sourcedVia hkn), htgt]
  split
  · have hdrop : Reads port (server.touchLink port)
        (server.roster.leave uid (toAsciiLower chan))
        ((server.touchLink port).dropMember uid (toAsciiLower chan)) :=
      ⟨rfl, fun _ => rfl, rfl, rfl, rfl, rfl,
        fun hnm => hnm.of_noNewChannel (.dropMember ..), roster_dropMember ..⟩
    exact ((Reads.touchLink server port).trans hdrop).propagate _
  · rename_i hout
    have habs : server.isMember uid (toAsciiLower chan) = false := Bool.eq_false_iff.mpr hout
    have hs : server.roster.leave uid (toAsciiLower chan) = server.roster :=
      Roster.leave_of_absent (hon.trans habs) habs
    rw [hs]
    exact .touchLink server port

theorem kick_reads_remote (hloc : server.linkLocalTarget victim = none)
    (hrem : victim ∈ server.remoteUsers) (reason : Str) :
    Reads port server (server.roster.unseat (toAsciiLower chan) victim)
      (server.onLine env port (.kick uuid chan victim reason)) := by
  have htgt : (server.touchLink port).kickVictim victim = some (.inr victim) := by
    have hloc' : (server.touchLink port).linkLocalTarget victim = none := hloc
    have hrem' : victim ∈ (server.touchLink port).remoteUsers := hrem
    rw [kickVictim, hloc', if_pos hrem']
  rw [onLine_kick hreg env huuid hchan hvic]
  simp only [linkKickRecv, if_pos (sourceBehind_of_sourcedVia hkn), htgt]
  split
  · exact drop_reads ..
  · rename_i hout
    rw [Roster.unseat_of_absent (Bool.eq_false_iff.mpr hout)]
    exact .touchLink server port

end

theorem fmode_reads (hsrc : ' ' ∉ source) (chan : Str) (ts : Timestamp) (modes : Str)
    (args : List Str) :
    Reads port server server.roster
      (server.onLine env port (.fmode source chan ts modes args)) := by
  obtain ⟨message, heqn⟩ := onLine_fmode hreg env hsrc chan ts modes args
  rw [heqn]
  exact (Reads.touchLink server port).trans (linkModeRecv_reads ..)

end Reading

end Server

end EchoIrcd
