import EchoIrcd.Pair
import Mathlib.Data.List.TakeWhile

/-!
# Lines as moves

The lines that commands say, seen from both ends.  Each line is one move on
the roster of its reader, and for a single channel and a single uuid it writes
a seat, frees one or does neither.  The deed of the author comes to the same
as reading its own lines.
-/

namespace EchoIrcd

open Str Replica Server List

variable {server : Server} {name sid uuid who : Str} {port : Uid}

namespace Out

/-- A line that a command on the server `sid` says. -/
inductive Told (sid : Str) : Out → Prop where
  | fjoin {uuid name : Str} (huuid : IsUuid sid uuid) (hname : IsChanName name)
      (ts : Timestamp) : Told sid (.fjoin sid name ts "+nt" ("o," ++ uuid))
  | ijoin {uuid name : Str} (huuid : IsUuid sid uuid) (hname : IsChanName name)
      (ts : Timestamp) : Told sid (.ijoin uuid name ts [])
  | part {uuid chan : Str} (huuid : IsUuid sid uuid) (hchan : IsChanName chan)
      (reason : Str) : Told sid (.part uuid chan reason)
  | quit {uuid : Str} (huuid : IsUuid sid uuid) (reason : Str) :
      Told sid (.quit uuid reason)
  | kick {uuid chan victim : Str} (huuid : IsUuid sid uuid) (hchan : IsChanName chan)
      (hvic : IsToken victim) (reason : Str) :
      Told sid (.kick uuid chan victim reason)
  | grant {out : Out} (hgrant : out.IsGrant sid) : Told sid out

def read (roster : Roster) : Out → Roster
  | .fjoin _ name _ _ members =>
    roster.seat (toAsciiLower name) ((words members).map tokenUuid)
  | .ijoin uuid name _ _ => roster.seat (toAsciiLower name) [uuid]
  | .part uuid chan _ => roster.unseat (toAsciiLower chan) uuid
  | .quit uuid _ => roster.forget uuid
  | .kick _ chan victim _ =>
    match roster.uidOf victim with
    | some target => roster.leave target (toAsciiLower chan)
    | none => roster.unseat (toAsciiLower chan) victim
  | _ => roster

def seats (key who : Str) : Out → Option Bool
  | .fjoin _ name _ _ members =>
    if toAsciiLower name = key ∧ who ∈ (words members).map tokenUuid then some true
    else none
  | .ijoin uuid name _ _ =>
    if toAsciiLower name = key ∧ uuid = who then some true else none
  | .part uuid chan _ =>
    if toAsciiLower chan = key ∧ uuid = who then some false else none
  | .quit uuid _ => if uuid = who then some false else none
  | .kick _ chan victim _ =>
    if toAsciiLower chan = key ∧ victim = who then some false else none
  | _ => none

theorem read_of_isGrant {out : Out} (hgrant : out.IsGrant sid)
    (roster : Roster) : out.read roster = roster := by
  obtain ⟨chan, ts, modes, args, rfl⟩ := hgrant
  rfl

theorem seats_of_isGrant {out : Out} (hgrant : out.IsGrant sid)
    (key who : Str) : out.seats key who = none := by
  obtain ⟨chan, ts, modes, args, rfl⟩ := hgrant
  rfl

theorem op_solid : ∀ letter ∈ ("o" : Str), isWhitespace letter = false := by
  intro letter hlet
  obtain rfl : letter = 'o' := mem_singleton.mp hlet
  rfl

section

variable (huuid : IsUuid sid uuid) (hsid : validSid sid = true)

include huuid hsid

theorem map_tokenUuid_single : (words ("o," ++ uuid)).map tokenUuid = [uuid] :=
  listed_fjoin_single op_solid (huuid.isCaps hsid) sid [] [] 0

theorem mem_tokenUuid_single : uuid ∈ (words ("o," ++ uuid)).map tokenUuid := by
  rw [map_tokenUuid_single huuid hsid]
  exact mem_singleton_self uuid

end

end Out

/-! ## Reading -/

namespace Server

theorem splitMember_token {letters : Str} (hlets : ',' ∉ letters)
    (huuid : isCaps uuid = true) : splitMember (letters ++ ',' :: uuid) = (letters, uuid) := by
  have hcol : ':' ∉ uuid := not_mem_of_isCaps huuid (by decide)
  have hwh : uuid.takeWhile (· ≠ ':') = uuid := by
    rw [takeWhile_eq_self_iff]
    intro char hchar
    simp only [ne_eq, decide_eq_true_eq]
    rintro rfl
    exact hcol hchar
  simp only [splitMember, splitOnce_append hlets, Option.getD_some, hwh]

/-- A server linked to the server `peer` by `port`, between two events. -/
structure Sane (port : Uid) (peer : Str) (server : Server) : Prop where
  peers : Peers server.conf.sid peer
  registered : server.isRegistered port = true
  events : server.events = []
  named : server.Named
  sound : server.roster.Sound server.conf.sid peer port

theorem Sane.setClock {peer : Str} (hsane : server.Sane port peer) (now : Timestamp) :
    (server.setClock now).Sane port peer :=
  ⟨hsane.peers, hsane.registered, hsane.events, hsane.named, hsane.sound⟩

section

variable (hvia : server.roster.via uuid = some port)

include hvia

theorem mem_remoteUsers_of_via : uuid ∈ server.remoteUsers := by
  obtain ⟨remote, hrem, -⟩ := Option.map_eq_some_iff.mp hvia
  exact Table.mem_of_lookup hrem

theorem Sane.seatedBy_single {peer : Str} (hsane : server.Sane port peer)
    (huuid : IsUuid peer uuid) : server.seatedBy ("o," ++ uuid) = [uuid] := by
  have hcaps := huuid.isCaps hsane.peers.peer
  have hsol : ∀ char ∈ ("o" : Str) ++ ',' :: uuid, isWhitespace char = false :=
    fun char hchar => token_solid Out.op_solid hcaps hchar
  have hwds : words (("o" : Str) ++ ',' :: uuid) = [("o" : Str) ++ ',' :: uuid] :=
    words_of_solid (by simp) hsol
  have hloc : uuid ∉ server.uuidLocal := by
    have huid := hsane.sound.uidOf_of_peer hsane.peers huuid
    intro hmem
    obtain ⟨uid, hf⟩ := Table.mem_iff_lookup.mp hmem
    rw [show server.uuidLocal.lookup uuid = none from huid] at hf
    cases hf
  have hlets : ',' ∉ ("o" : Str) := by decide
  have hlst : ((words ("o," ++ uuid)).map fun token => (splitMember token).2) = [uuid] := by
    rw [show ("o," : Str) ++ uuid = ("o" : Str) ++ ',' :: uuid from rfl, hwds,
      map_singleton, splitMember_token hlets hcaps]
  rw [seatedBy, hlst]
  simp [hloc, mem_remoteUsers_of_via hvia]

theorem sourcedVia_of_via : server.sourcedVia uuid port = true := by
  simp only [sourcedVia, decide_eq_true_eq]
  exact hvia

end

end Server

namespace Out

/-- The reader knows everybody a line is about. -/
structure Apt (port : Uid) (peer : Str) (server : Server) (out : Out) : Prop where
  told : out.Told peer
  known : ∀ uuid, IsUuid peer uuid → out.Names uuid → server.roster.via uuid = some port
  victim : ∀ uuid chan who reason, out = .kick uuid chan who reason →
    (∃ uid, server.roster.uidOf who = some uid) ∨
      server.roster.via who = some port ∧ server.findNick who = none

variable {port : Uid} {peer : Str} {server : Server} {out : Out}

section

variable (hapt : out.Apt port peer server)

include hapt

theorem Apt.setClock (now : Timestamp) : out.Apt port peer (server.setClock now) :=
  ⟨hapt.told, hapt.known, hapt.victim⟩

namespace Apt

variable (hsane : server.Sane port peer)

include hsane

theorem reads (env : Env) :
    Reads port server (out.read server.roster) (server.onLine env port out) := by
  have hpeer := hsane.peers.peer
  have hreg := hsane.registered
  have hbl : ' ' ∉ peer := (isToken_of_validSid hpeer).2.1
  cases hapt.told with
  | @fjoin uuid name huuid hname ts =>
    have hmds : IsToken ("+nt" : Str) := by decide
    have hlst := map_tokenUuid_single huuid hpeer
    have hvia := hapt.known uuid huuid (.inr (mem_tokenUuid_single huuid hpeer))
    have hrds := fjoin_reads hreg env hbl hname hmds ts
      ("o," ++ uuid)
    rw [hsane.seatedBy_single hvia huuid] at hrds
    simpa only [read, hlst] using hrds
  | @ijoin uuid name huuid hname ts =>
    exact ijoin_reads hreg env (huuid.isToken hpeer)
      (sourcedVia_of_via (hapt.known uuid huuid (.inl rfl))) hname ts
  | @part uuid chan huuid hchan reason =>
    exact part_reads hreg env (huuid.isToken hpeer)
      (sourcedVia_of_via (hapt.known uuid huuid (.inl rfl))) hchan reason
  | @quit uuid huuid reason =>
    exact quit_reads hreg env (huuid.isToken hpeer)
      (sourcedVia_of_via (hapt.known uuid huuid (.inl rfl))) reason
  | @kick uuid chan victim huuid hchan hvic reason =>
    have hkn := sourcedVia_of_via (hapt.known uuid huuid (.inl rfl))
    rcases hapt.victim _ _ _ _ rfl with ⟨uid, huid⟩ | ⟨hvia, hnick⟩
    · simp only [read, huid]
      exact kick_reads_local hreg env (huuid.isToken hpeer) hkn hchan
        hvic huid (hsane.sound.on_eq ..) reason
    · have huid := hsane.sound.uidOf_of_peer hsane.peers (hsane.sound.remotes hvia).2
      have hloc : server.linkLocalTarget victim = none := by
        rw [linkLocalTarget, show server.uuidLocal.lookup victim = none from huid, hnick]
        rfl
      simp only [read, huid]
      exact kick_reads_remote hreg env (huuid.isToken hpeer) hkn hchan
        hvic hloc (mem_remoteUsers_of_via hvia) reason
  | grant hgrant =>
    obtain ⟨chan, ts, modes, args, rfl⟩ := hgrant
    exact fmode_reads hreg env hbl chan ts modes args

theorem sound_read : (out.read server.roster).Sound server.conf.sid peer port := by
  have hsnd := hsane.sound
  cases hapt.told with
  | @fjoin uuid name huuid hname ts =>
    have hlst := map_tokenUuid_single huuid hsane.peers.peer
    rw [read, hlst]
    have hvia := hapt.known uuid huuid (.inr (mem_tokenUuid_single huuid hsane.peers.peer))
    exact hsnd.seat (by simpa using hvia) _
  | @ijoin uuid name huuid hname ts =>
    exact hsnd.seat (by simpa using hapt.known uuid huuid (.inl rfl)) _
  | part => exact hsnd.unseat ..
  | quit => exact hsnd.forget _
  | kick =>
    simp only [read]
    split
    · exact hsnd.leave ..
    · exact hsnd.unseat ..
  | grant hgrant =>
    rw [read_of_isGrant hgrant]
    exact hsnd

theorem sane (env : Env) : (server.onLine env port out).Sane port peer := by
  have hrds := hapt.reads hsane env
  refine ⟨?_, ?_, ?_, hrds.named hsane.named, ?_⟩
  · rw [hrds.conf]
    exact hsane.peers
  · rw [hrds.registered]
    exact hsane.registered
  · rw [hrds.events]
    exact hsane.events
  · rw [hrds.conf, hrds.roster_eq]
    exact hapt.sound_read hsane

theorem handleEvent (env : Env) (now : Timestamp) :
    Reads port server (out.read server.roster)
        (server.handleEvent env now fun server => server.onLine env port out) ∧
      (server.handleEvent env now fun server => server.onLine env port out).Sane port
        peer := by
  have hrdy := hapt.setClock now
  have hsane' := hsane.setClock now
  have haft : server.handleEvent env now (fun server => server.onLine env port out) =
      (server.setClock now).onLine env port out :=
    drainHooks_nil (hrdy.sane hsane' env).events env
  rw [haft]
  have hrds := hrdy.reads hsane' env
  exact ⟨⟨hrds.conf, hrds.registered, hrds.servers, hrds.nickIndex,
    hrds.events, hrds.lines, hrds.named, hrds.roster_eq⟩, hrdy.sane hsane' env⟩

end Apt

/-! ## Seats -/

theorem Apt.seated_read (hsane : server.Sane port peer) (key who : Str) :
    (out.read server.roster).seated key who =
      write (server.roster.seated key who) (out.seats key who) := by
  have hsnd := hsane.sound
  have hpeers := hsane.peers
  cases hapt.told with
  | @fjoin uuid name huuid hname ts =>
    have hlst := map_tokenUuid_single huuid hpeers.peer
    have hkn : ∀ other ∈ [uuid], server.roster.via other = some port := by
      simpa using hapt.known uuid huuid (.inr (mem_tokenUuid_single huuid hpeers.peer))
    simp only [read, seats, hlst, hsnd.seated_seat hpeers hkn, write_true_if]
    simp [eq_comm]
  | @ijoin uuid name huuid hname ts =>
    have hkn : ∀ other ∈ [uuid], server.roster.via other = some port := by
      simpa using hapt.known uuid huuid (.inl rfl)
    simp only [read, seats, hsnd.seated_seat hpeers hkn, write_true_if]
    simp [eq_comm]
  | @part uuid chan huuid hchan reason =>
    simp only [read, seats, write_false_if, Roster.Sound.seated_unseat
      (hsnd.uidOf_of_peer hpeers huuid)]
    simp [eq_comm]
  | @quit uuid huuid reason =>
    simp only [read, seats, write_false_if, Roster.Sound.seated_forget
      (hsnd.uidOf_of_peer hpeers huuid)]
    simp [eq_comm]
  | @kick uuid chan victim huuid hchan hvic reason =>
    simp only [read, seats, write_false_if]
    cases huid : server.roster.uidOf victim with
    | some target =>
      obtain ⟨_, hid⟩ := hsnd.uids huid
      simp only [hsnd.seated_leave hid]
      simp [eq_comm]
    | none =>
      simp only [Roster.Sound.seated_unseat huid]
      simp [eq_comm]
  | grant hgrant => rw [read_of_isGrant hgrant, seats_of_isGrant hgrant]; rfl

end

end Out

/-! ## Deeds -/

namespace Server

variable {env : Env} {server : Server} {port uid : Uid} {peer : Str}
  {command : Command} {roster : Roster} {outs : List Out}

namespace Sane

variable (hsane : server.Sane port peer) (huuid : IsUuid server.conf.sid uuid)

include hsane huuid

theorem told_joinLine
    (hname : IsChanName name) : (server.joinLine uuid name).Told server.conf.sid := by
  unfold joinLine
  split
  · rename_i channel hchn
    exact .ijoin huuid (hsane.named hchn).2 _
  · exact .fjoin huuid hname _

theorem seats_joinLine (name key who : Str) :
    (server.joinLine uuid name).seats key who =
      if toAsciiLower name = key ∧ uuid = who then some true else none := by
  unfold joinLine
  split
  · rename_i channel hchn
    rw [Out.seats, (hsane.named hchn).1]
  · rw [Out.seats, Out.map_tokenUuid_single huuid hsane.peers.sid]
    simp [eq_comm]

theorem names_joinLine (hwho : IsUuid server.conf.sid who)
    (hnms : (server.joinLine uuid name).Names who) : who = uuid := by
  unfold joinLine at hnms
  split at hnms
  · rcases hnms with hsrc | hlst
    · exact (Option.some.inj hsrc).symm
    · cases hlst
  · rcases hnms with hsrc | hlst
    · exact absurd (Option.some.inj hsrc).symm hwho.ne_sid
    · have hsingle := Out.map_tokenUuid_single huuid hsane.peers.sid
      rw [Out.listed, hsingle] at hlst
      exact mem_singleton.mp hlst

end Sane

theorem Deed.told (hdeed : Deed env server uid command roster outs)
    (hsane : server.Sane port peer) : ∀ out ∈ outs, out.Told server.conf.sid := by
  have hsnd := hsane.sound
  cases hdeed with
  | idle => simp
  | join _ hid htgt hgr =>
    intro out hout
    rcases mem_cons.mp hout with rfl | hout
    · exact hsane.told_joinLine (hsnd.uuids hid).2 htgt
    · exact .grant (hgr out hout)
  | part hid htgt =>
    simpa using Out.Told.part (hsnd.uuids hid).2 htgt _
  | quit hid => simpa using Out.Told.quit (hsnd.uuids hid).2 _
  | kickLocal hid hchan _ htgt =>
    have hvic := (hsnd.uuids htgt).2.isToken hsane.peers.sid
    simpa using Out.Told.kick (hsnd.uuids hid).2 hchan hvic _
  | kickRemote hid hchan _ hmb =>
    have hvic := (hsnd.remotes (hsnd.rmembers hmb)).2.isToken
      hsane.peers.peer
    simpa using Out.Told.kick (hsnd.uuids hid).2 hchan hvic _

section

variable (hdeed : Deed env server uid command roster outs) (hsane : server.Sane port peer)

include hdeed hsane

theorem Deed.names :
    ∀ out ∈ outs, IsUuid server.conf.sid who → out.Names who →
      ∃ other, server.roster.identity other = some (who, true) := by
  have hsnd := hsane.sound
  intro out hout hwho hnms
  cases hdeed with
  | idle => cases hout
  | join _ hid _ hgr =>
    rcases mem_cons.mp hout with rfl | hout
    · rw [hsane.names_joinLine (hsnd.uuids hid).2 hwho hnms]
      exact ⟨uid, hid⟩
    · obtain ⟨chan, ts, modes, args, rfl⟩ := hgr out hout
      rcases hnms with hsrc | hlst
      · exact absurd (Option.some.inj hsrc).symm hwho.ne_sid
      · cases hlst
  | part hid | quit hid | kickLocal hid | kickRemote hid =>
    obtain rfl := mem_singleton.mp hout
    rcases hnms with hsrc | hlst
    · rw [← Option.some.inj hsrc]
      exact ⟨uid, hid⟩
    · cases hlst

theorem Deed.sound : roster.Sound server.conf.sid peer port := by
  have hsnd := hsane.sound
  cases hdeed with
  | idle => exact hsnd
  | join _ hid => exact hsnd.enter hid _
  | part => exact hsnd.leave ..
  | quit hid => exact hsnd.depart hid
  | kickLocal => exact hsnd.leave ..
  | kickRemote => exact hsnd.unseat ..

theorem Deed.seated (key who : Str) :
    roster.seated key who =
      hearAll write (server.roster.seated key who) (outs.map (Out.seats key who)) := by
  have hsnd := hsane.sound
  cases hdeed
  case idle => rfl
  case join hid _ hgr =>
    rw [map_cons, hearAll_cons, hsane.seats_joinLine (hsnd.uuids hid).2,
      write_true_if, hsnd.seated_enter hid, hearAll_of_fixed]
    · simp [eq_comm]
    · intro line hline
      obtain ⟨out, hout, rfl⟩ := mem_map.mp hline
      rw [Out.seats_of_isGrant (hgr out hout)]
      rfl
  all_goals simp only [Out.seats, map_singleton, hearAll_cons, hearAll_nil, write_false_if]
  case part hid _ =>
    rw [hsnd.seated_leave hid]
    simp [eq_comm]
  case quit hid =>
    rw [hsnd.seated_depart hsane.peers hid]
    simp [eq_comm]
  case kickLocal htgt =>
    rw [hsnd.seated_leave htgt]
    simp [eq_comm]
  case kickRemote hmb =>
    rw [Roster.Sound.seated_unseat (hsnd.uidOf_of_peer hsane.peers
      (hsnd.remotes (hsnd.rmembers hmb)).2)]
    simp [eq_comm]

end

theorem identity_of_isEnrolled {uid : Uid} (henr : server.isEnrolled uid = true) :
    ∃ uuid, server.roster.identity uid = some (uuid, true) := by
  unfold isEnrolled at henr
  split at henr
  · rename_i user hu
    refine ⟨user.uuid, Introduced.identity_eq_some.mpr ⟨user, hu, rfl, henr⟩⟩
  · cases henr

theorem Sane.obey {after : Server} (hsane : server.Sane port peer)
    (henr : server.isEnrolled uid = true)
    (hcmd : ∀ newnick, command ≠ .act (.nick newnick))
    (haft : server.handleEvent env now (Server.obey env uid command) = after) :
    ∃ outs, Deed env (server.setClock now) uid command after.roster outs ∧
      after.Sane port peer ∧ after.conf = server.conf ∧
      (∀ nick, server.findNick nick = none → after.findNick nick = none) ∧
      after.linesTo port = server.linesTo port ++ outs := by
  obtain ⟨uuid, hid⟩ := identity_of_isEnrolled henr
  have hrdy := hsane.setClock now
  have hid' : (server.setClock now).roster.identity uid = some (uuid, true) := hid
  obtain ⟨outs, hdeed, hnm, hnicks, hls⟩ :=
    obey_does env hid' hrdy.named hrdy.events hrdy.sound hcmd
  have hevs : after.events = [] := haft ▸ drainHooks_events ..
  have hfrd : Framed 0 (server.setClock now) after :=
    haft ▸ (obey_framed env uid command _).trans (drainHooks_framed env _)
  rw [handleEvent] at haft
  rw [haft] at hdeed hnm hnicks hls
  have hreg : after.isRegistered port = true := by
    rw [isRegistered, hfrd.links]
    exact hsane.registered
  refine ⟨outs, hdeed, ⟨?_, hreg, hevs, hnm, ?_⟩, hfrd.conf, hnicks, ?_⟩
  · rw [hfrd.conf]
    exact hsane.peers
  · rw [hfrd.conf]
    exact hdeed.sound hrdy
  · refine (hls port).trans ?_
    rw [if_pos hrdy.registered]
    rfl

end Server

end EchoIrcd
