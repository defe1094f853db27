import EchoIrcd.Introduction
import EchoIrcd.Handshake

/-!
# Runs that keep the order of introductions

Registrations, handshakes and closing links keep the invariant of
`Introduction`, and with the other events so does every run.  A handshake
bursts all registered users before the channels that list them.
-/

namespace EchoIrcd

open Str Server Table List

variable {env : Env} {out : Out} {after server : Server} {key modes name uuid : Str} {uid : Uid}
  {user : User} {channel : Channel} {event : Event} {held : List Action}

namespace Server

/-! ## Registration -/

theorem svsSetUserModes_refused
    (href : ∀ entry ∈ signedLetters true modes, ∀ flag,
      UserFlag.ofLetter entry.2 = some flag →
      server.applyUserMode uid flag entry.1 = none) :
    server.svsSetUserModes uid modes = server := by
  have hsteps : ∀ entries : List (Bool × Char),
      (∀ entry ∈ entries, entry ∈ signedLetters true modes) →
      entries.foldl (svsUserModeStep uid) (server, []) = (server, []) := by
    intro entries hents
    refine foldlRecOn (motive := fun reached => reached = (server, []))
      entries _ rfl ?_
    rintro _ rfl entry hent
    unfold svsUserModeStep
    split
    · rfl
    · rename_i flag hflag
      rw [href entry (hents entry hent) flag hflag]
  simp [svsSetUserModes, hsteps _ fun _ hent => hent]

theorem join_refused (href : server.Refused env uid (.join name)) :
    server.join env uid name = server := by
  unfold join
  split
  · rename_i target htgt
    simp [href target htgt]
  · rfl

theorem perform_refused {action : Action} (href : server.Refused env uid action) :
    server.perform env uid action = server := by
  cases action with
  | nick newnick => cases href
  | join name => simp [perform, join_refused href]
  | part target reason =>
    have hoff : server.isOn uid (toAsciiLower target) = false := href
    simp [perform, part, hoff]
  | quit reason => cases href

theorem Quiet.register (hq : Quiet env uid held server) :
    (server.welcome env uid).performAll env uid held = server.enroll uid := by
  have hmds : (server.markRegistered uid).setConnUmodes uid = server.markRegistered uid := by
    unfold setConnUmodes
    split
    · rename_i modes hmds
      exact svsSetUserModes_refused (hq.umodes modes hmds)
    · rfl
  have hwelcome : server.welcome env uid = (server.enroll uid).autojoinAll env uid := by
    rw [welcome, hmds]
    rfl
  have hjoins : (server.enroll uid).autojoinAll env uid = server.enroll uid := by
    refine foldlRecOn (motive := fun reached => reached = server.enroll uid)
      _ _ rfl ?_
    rintro _ rfl name hname
    exact join_refused (hq.autojoin name hname)
  rw [hwelcome, hjoins]
  refine foldlRecOn (motive := fun reached => reached = server.enroll uid)
    held _ rfl ?_
  rintro _ rfl action haction
  exact perform_refused (hq.held action haction)

end Server

namespace Introduced

variable {server : Server}

theorem serverLine_names (server : Server) (pass uuid : Str) :
    ¬(server.serverLine pass).Names uuid := by
  simp [serverLine, Out.Names, Out.listed, Out.line]

theorem userBurst_retired (hout : out ∈ server.userBurst) : out.retired = none := by
  obtain ⟨entry, _, hintro⟩ := mem_flatMap.mp hout
  exact IntroducedBut.userIntroLines_retired hintro

theorem burst_retired (hout : out ∈ server.channelBurst ++ server.xlineBurst ++
    server.filterBurst ++ [Out.endburst]) : out.retired = none := by
  simp only [mem_append, mem_singleton] at hout
  rcases hout with ((hchan | hxl) | hfil) | rfl
  · obtain ⟨key, channel, -, rfl | ⟨modes, args, rfl⟩⟩ := mem_channelBurst hchan <;> rfl
  · obtain ⟨xline, _, rfl⟩ := mem_map.mp hxl
    rfl
  · obtain ⟨rule, _, rfl⟩ := mem_map.mp hfil
    rfl
  · rfl

theorem burst_split (server : Server) :
    Out.burst server.clock :: (server.netburst ++ [Out.endburst]) =
      (Out.burst server.clock :: server.userBurst) ++ (server.channelBurst ++
        server.xlineBurst ++ server.filterBurst ++ [Out.endburst]) := by
  simp [netburst]

section

variable (hu : server.users.lookup uid = some user) (hreg : user.registered = true)
  (isOpen : Bool)

include hu hreg isOpen

theorem userBurst_opens :
    Out.session.openAfter user.uuid isOpen (Out.burst server.clock :: server.userBurst) = true := by
  have hent : (uid, user) ∈ (toPairs server.users).filter
      (·.2.registered) :=
    mem_filter.mpr ⟨mem_toPairs.mpr hu, hreg⟩
  have hline : Out.uid server.conf.sid user ∈ server.userBurst :=
    mem_flatMap.mpr ⟨(uid, user), hent, mem_cons_self⟩
  refine Session.openAfter_of_opened (mem_cons_of_mem _ hline) rfl ?_
  intro out hout
  rcases mem_cons.mp hout with rfl | hu
  · simp [Out.session, Out.retired]
  · simp [Out.session, userBurst_retired hu]

theorem burst_opens :
    Out.session.openAfter user.uuid isOpen
      (Out.burst server.clock :: (server.netburst ++ [Out.endburst])) = true := by
  rw [burst_split, Session.openAfter_append, userBurst_opens hu hreg]
  exact Session.openAfter_of_open fun out hout => by
    simp [Out.session, burst_retired hout]

end

variable (hinv : Introduced server)

include hinv

theorem queueHook (hook : Hook) : Introduced (server.queueHook hook) :=
  ⟨hinv.sid, fun link => hinv.orderly link, fun link => hinv.known link,
    hinv.uuids, hinv.members, hinv.rmembers⟩

theorem welcome_unlinked (env : Env) (hu : server.users.lookup uid = some user)
    (hlinks : ∀ link, server.isRegistered link = false) : Introduced (server.welcome env uid) := by
  have hmk : Introduced (server.markRegistered uid) := by
    have hbut := hinv.markRegistered uid
    refine ⟨hbut.sid, hbut.orderly, ?_, hbut.uuids, hbut.members, hbut.rmembers⟩
    intro link hlink
    rw [show (server.markRegistered uid).isRegistered link =
      server.isRegistered link from rfl, hlinks link] at hlink
    cases hlink
  have henr : (server.markRegistered uid).IsEnrolled uid := by
    refine ⟨user.uuid, ?_⟩
    simp [Server.markRegistered, Server.changeUser, hu, User.identity]
  have hmds : Server.Speaks uid (server.markRegistered uid)
      ((server.markRegistered uid).setConnUmodes uid) := by
    unfold Server.setConnUmodes
    split
    · exact Server.svsSetUserModes_speaks ..
    · exact .refl _
  have hspk : ∀ {before after : Server}, Server.Speaks uid before after →
      before.IsEnrolled uid → after.IsEnrolled uid := by
    rintro before after ⟨outs, hacts, _⟩ ⟨uuid, huuid⟩
    exact ⟨uuid, (hacts.people uid).trans huuid⟩
  have hsta : (((server.markRegistered uid).setConnUmodes uid).queueHook
      (.connect uid)).IsEnrolled uid := by
    obtain ⟨uuid, huuid⟩ := hspk hmds henr
    exact ⟨uuid, huuid⟩
  -- each automatic join keeps the invariant and the registration
  refine (foldlRecOn (motive := fun reached : Server =>
    Introduced reached ∧ reached.IsEnrolled uid) _ _
    ⟨(hmk.speaks hmds).queueHook _, hsta⟩ ?_).1
  rintro middle ⟨hmid, henr⟩ name _
  have hjoin := Server.join_speaks henr (fun _ => hmid.isCaps) env name
  exact ⟨hmid.speaks hjoin, hspk hjoin henr⟩

theorem register_quiet (env : Env)
    (hq : Server.Quiet env uid held server) (hevs : server.events = []) :
    Introduced (((server.welcome env uid).performAll env uid held).drainHooks env) := by
  rw [hq.register]
  have hdrain : (server.enroll uid).drainHooks env =
      ({ server with events := [] }.markRegistered uid).runHook env
        (.connect uid) := by
    simp only [Server.drainHooks, Server.enroll, Server.queueHook]
    rw [show (server.markRegistered uid).events = [] from hevs]
    rfl
  rw [hdrain]
  exact (((hinv.clearEvents.markRegistered uid).onUserConnect env).introduceToLinks)

/-! ## Opening and closing links -/

theorem shrink (hconf : after.conf = server.conf) (hus : after.users = server.users)
    (hloc : after.uuidLocal = server.uuidLocal)
    (hls : ∀ link, after.linesTo link = server.linesTo link)
    (hlinks : ∀ link, after.isRegistered link = true → server.isRegistered link = true)
    (hchans : ∀ key channel, after.channels.lookup key = some channel →
      ∃ earlier, server.channels.lookup key = some earlier ∧
        channel.members = earlier.members ∧
        ∀ uuid ∈ channel.rmembers, uuid ∈ earlier.rmembers) : Introduced after := by
  refine hinv.of_people hconf hloc (fun other => by rw [hus]) ?_ ?_ ?_ ?_
  · intro other key hmb
    obtain ⟨channel, hchan, hin⟩ := isMember_iff.mp hmb
    obtain ⟨earlier, hprev, hs, _⟩ := hchans key channel hchan
    obtain ⟨⟨uuid, huuid⟩, hon⟩ := hinv.members other key
      (isMember_iff.mpr ⟨earlier, hprev, hs ▸ hin⟩)
    have hs' : after.isOn other key = server.isOn other key := isOn_congr (by rw [hus]) key
    exact ⟨⟨uuid, by rw [hus]; exact huuid⟩, hs'.trans hon⟩
  · intro key uuid
    cases hmb : after.isRemoteMember key uuid with
    | false => rfl
    | true =>
      obtain ⟨channel, hchan, hin⟩ := isRemoteMember_iff.mp hmb
      obtain ⟨earlier, hprev, _, hfewer⟩ := hchans key channel hchan
      have hnone := hinv.rmembers key uuid
      rw [isRemoteMember_iff.mpr ⟨earlier, hprev, hfewer uuid hin⟩] at hnone
      cases hnone
  · intro link
    rw [hls]
    exact hinv.orderly link
  · intro link hlink
    rw [hls]
    exact hinv.known link (hlinks link hlink)

theorem dropRemoteUser (uuid : Str) : Introduced (server.dropRemoteUser uuid) := by
  unfold Server.dropRemoteUser
  split
  · exact hinv
  · refine hinv.shrink rfl rfl rfl (fun _ => rfl) (fun _ => id) ?_
    intro key channel hchan
    rw [Server.lookup_reapChannels, Table.lookup_mapValues] at hchan
    obtain ⟨earlier, hprev, rfl⟩ := Option.map_eq_some_iff.mp hchan.1
    exact ⟨earlier, hprev, rfl, fun other ho =>
      (AList.mem_erase.mp ho).2⟩

theorem closeLink (uid : Uid) : Introduced (server.closeLink uid) := by
  refine foldlRecOn _ _ ?_ fun _ hmid uuid _ =>
    Introduced.dropRemoteUser hmid uuid
  refine hinv.shrink rfl rfl rfl (fun _ => rfl) ?_ ?_
  · intro link hlink
    unfold isRegistered at hlink ⊢
    rw [lookup_erase_eq] at hlink
    split at hlink
    · rename_i link' hf
      split at hf
      · cases hf
      · rw [hf]
        exact hlink
    · cases hlink
  · exact fun key channel hchan => ⟨channel, hchan, rfl, fun _ => id⟩

theorem linkOut (uid : Uid) (hopens : out.introduced = none) (hcloses : out.retired = none)
    (hnms : ∀ uuid, ¬out.Names uuid) : Introduced (server.linkOut uid out) := by
  have hls := server.linesTo_linkOut uid out
  refine ⟨hinv.sid, ?_, ?_, hinv.uuids, hinv.members, hinv.rmembers⟩
  · intro link uuid huuid
    rw [hls, Session.orderly_append]
    refine ⟨hinv.orderly link uuid huuid, ?_⟩
    split
    · exact ⟨fun huses => absurd huses (hnms uuid), trivial⟩
    · trivial
  · intro link hlink other user hne hu hreg
    rw [hls, Session.openAfter_append]
    have hprev := hinv.known link hlink other user hne hu hreg
    split
    · rw [Session.openAfter_of_neutral]
      · exact hprev
      · intro line hline
        rw [mem_singleton] at hline
        subst hline
        simp [Out.session, hopens, hcloses]
    · exact hprev

theorem relink {links : Table Uid Link}
    (hlinks : ∀ uid, isRegistered { server with links := links } uid = true →
      server.isRegistered uid = true) :
    Introduced { server with links := links } :=
  ⟨hinv.sid, fun link => hinv.orderly link,
    fun link hlink => hinv.known link (hlinks link hlink), hinv.uuids,
    hinv.members, hinv.rmembers⟩

theorem addLink (uid : Uid) (ip : Str)
    (outbound : Bool) : Introduced (server.addLink uid ip outbound) := by
  have hopn : ∀ link : Link, link.registered = false →
      Introduced { server with links := server.links.insert uid link } := by
    intro link hlink
    refine hinv.relink fun other ho => ?_
    unfold Server.isRegistered at ho ⊢
    rw [Table.lookup_insert_eq] at ho
    by_cases hself : other = uid
    · simp [hself, hlink] at ho
    · simpa [hself] using ho
  unfold Server.addLink
  simp only
  split
  · refine (hopn _ rfl).linkOut uid rfl rfl fun uuid => ?_
    exact serverLine_names server _ uuid
  · exact hopn _ rfl

/-! ## The burst -/

theorem mem_memberTokens (hchan : server.channels.lookup key = some channel) {token : Str}
    (htok : token ∈ server.memberTokens channel) :
    ∃ uid user letters, server.users.lookup uid = some user ∧
      user.registered = true ∧ token = letters ++ ',' :: user.uuid ∧
      ∀ letter ∈ letters, isWhitespace letter = false := by
  rcases mem_append.mp htok with hloc | hrem
  · obtain ⟨⟨uid, member⟩, hent, hf⟩ := mem_filterMap.mp hloc
    obtain ⟨user, hu, rfl⟩ := Option.map_eq_some_iff.mp hf
    have hin : uid ∈ channel.members := mem_of_lookup (mem_toPairs.mp hent)
    obtain ⟨⟨uuid, henr⟩, _⟩ := hinv.members uid key
      (isMember_iff.mpr ⟨channel, hchan, hin⟩)
    obtain ⟨found, hf', _, hreg⟩ := identity_eq_some.mp henr
    rw [hu, Option.some.injEq] at hf'
    exact ⟨uid, user, _, hu, hf' ▸ hreg, rfl, fun _ =>
      Member.modeLetters_solid _ _⟩
  · obtain ⟨⟨uuid, member⟩, hent, _⟩ := mem_map.mp hrem
    have hnone := hinv.rmembers key uuid
    rw [isRemoteMember_iff.mpr ⟨channel, hchan,
      mem_of_lookup (mem_toPairs.mp hent)⟩] at hnone
    cases hnone

/-- The `FJOIN` of a bursting channel lists registered users. -/
theorem mem_listed_burst (hchan : server.channels.lookup key = some channel) {source : Str}
    {ts : Timestamp}
    (hlst : uuid ∈ (Out.fjoin source name ts modes
      (intercalate [' '] (server.memberTokens channel))).listed) :
    ∃ uid user, server.users.lookup uid = some user ∧ user.registered = true ∧
      user.uuid = uuid := by
  have hsol : ∀ token ∈ server.memberTokens channel,
      token ≠ [] ∧ ∀ char ∈ token, isWhitespace char = false := by
    intro token htok
    obtain ⟨uid, user, letters, hu, _, rfl, hlets⟩ := hinv.mem_memberTokens hchan htok
    exact ⟨by simp, fun _ => token_solid hlets (hinv.isCaps hu)⟩
  rw [Out.listed, words_intercalate hsol] at hlst
  obtain ⟨token, htok, huuid⟩ := mem_map.mp hlst
  obtain ⟨uid, user, letters, hu, hreg, rfl, _⟩ := hinv.mem_memberTokens hchan htok
  have hcomma : ',' ∉ user.uuid := not_mem_of_isCaps (hinv.isCaps hu) (by decide)
  rw [Out.tokenUuid_append hcomma] at huuid
  exact ⟨uid, user, hu, hreg, huuid⟩

theorem burst_names
    (hout : out ∈ server.channelBurst ++ server.xlineBurst ++ server.filterBurst ++ [Out.endburst])
    (hnms : out.Names uuid) :
    uuid = server.conf.sid ∨ ∃ uid user, server.users.lookup uid = some user ∧
      user.registered = true ∧ user.uuid = uuid := by
  have hown : ∀ {line : Out}, line.line.source = some server.conf.sid →
      line.listed = [] → line.Names uuid → uuid = server.conf.sid := by
    rintro line hsrc hlst (hnm | hnm)
    · exact Option.some.inj (hnm.symm.trans hsrc)
    · rw [hlst] at hnm
      cases hnm
  simp only [mem_append, mem_singleton] at hout
  rcases hout with ((hchan | hxl) | hfil) | rfl
  · obtain ⟨key, channel, hf, rfl | ⟨modes, args, rfl⟩⟩ := mem_channelBurst hchan
    · rcases hnms with hsrc | hlst
      · exact .inl (Option.some.inj hsrc).symm
      · exact .inr (hinv.mem_listed_burst hf hlst)
    · exact .inl (hown rfl rfl hnms)
  · obtain ⟨xline, _, rfl⟩ := mem_map.mp hxl
    exact .inl (hown rfl rfl hnms)
  · obtain ⟨rule, _, rfl⟩ := mem_map.mp hfil
    exact .inl (hown rfl rfl hnms)
  · rcases hnms with hsrc | hlst
    · cases hsrc
    · cases hlst

theorem burst_orderly (huuid : uuid ≠ server.conf.sid) (isOpen : Bool) :
    Out.session.Orderly uuid isOpen
      (Out.burst server.clock :: (server.netburst ++ [Out.endburst])) := by
  rw [burst_split, Session.orderly_append]
  constructor
  · refine Session.orderly_of_unused fun out hout hnms => ?_
    rcases mem_cons.mp hout with rfl | hu
    · rcases hnms with hsrc | hlst
      · cases hsrc
      · cases hlst
    · obtain ⟨entry, _, hintro⟩ := mem_flatMap.mp hu
      exact huuid (IntroducedBut.userIntroLines_names hintro hnms)
  · by_cases hkn : ∃ uid user, server.users.lookup uid = some user ∧
        user.registered = true ∧ user.uuid = uuid
    · obtain ⟨uid, user, hu, hreg, rfl⟩ := hkn
      rw [userBurst_opens hu hreg]
      exact Session.orderly_of_open fun out hout => by
        simp [Out.session, burst_retired hout]
    · refine Session.orderly_of_unused fun out hout hnms => ?_
      rcases hinv.burst_names hout hnms with hsid | hlst
      · exact huuid hsid
      · exact hkn hlst

/-! ## The handshake -/

theorem acceptLink (huid : uid ∈ server.links) (block : LinkBlock)
    (name sid desc : Str) : Introduced (server.acceptLink uid block name sid desc) := by
  have hls := acceptLink_lines huid block name sid desc
  obtain ⟨links, sent, hstate⟩ := server.acceptLink_eq uid block name sid desc
  have huns : ∀ uuid, ∀ out ∈ server.greeting uid block,
      ¬Out.session.Uses out uuid := by
    intro uuid out hout
    rw [mem_greeting hout]
    exact serverLine_names server _ uuid
  refine hinv.of_people ?_ ?_ ?_ ?_ ?_ ?_ ?_
  · rw [hstate]
  · rw [hstate]
  · exact fun other => by rw [hstate]
  · rw [hstate]
    exact hinv.members
  · rw [hstate]
    exact hinv.rmembers
  · intro link uuid huuid
    rw [hls, Session.orderly_append]
    refine ⟨hinv.orderly link uuid huuid, ?_⟩
    split
    · rw [Session.orderly_append]
      exact ⟨Session.orderly_of_unused (huns uuid), hinv.burst_orderly huuid _⟩
    · trivial
  · intro link hlink other user hne hu hreg
    rw [hls, Session.openAfter_append]
    split
    · rw [Session.openAfter_append, burst_opens hu hreg]
    · rename_i ho
      rw [isRegistered_eq, acceptLink_stage huid, if_neg ho, ← isRegistered_eq] at hlink
      exact hinv.known link hlink other user hne hu hreg

theorem rejectLink (uid : Uid) (why : Str) : Introduced (server.rejectLink uid why) := by
  refine (hinv.linkOut uid rfl rfl fun uuid => ?_).closeLink uid
  simp [Out.Names, Out.listed, Out.line]

theorem linkServer (env : Env) (huid : uid ∈ server.links)
    (message : Message) : Introduced (server.linkServer env uid message) :=
  linkServer_rel env message (fun _ => hinv.rejectLink ..) fun _ _ _ _ _ _ =>
    hinv.acceptLink huid ..

theorem touchLink (uid : Uid) : Introduced (server.touchLink uid) := by
  refine hinv.relink fun other ho => ?_
  rw [← isRegistered_touchLink server uid other]
  exact ho

theorem onLink_server (env : Env) (huid : uid ∈ server.links)
    {message : Message} (hcmd : message.command = Verb.server.word) :
    Introduced (server.onLink env uid message) := by
  unfold onLink onLinkFuel
  rw [hcmd, Verb.ofWord_word]
  simp only
  split
  · exact hinv.touchLink uid
  · exact (hinv.touchLink uid).linkServer env (mem_modify.mpr huid) message

end Introduced

/-! ## Runs -/

namespace Introduced

variable {server : Server}

theorem of_boot (hboot : Boot server) : Introduced server where
  sid := hboot.sid
  orderly := by
    intro link uuid _
    simp [linesTo, hboot.sent, Session.Orderly]
  known := by
    intro link hlink
    simp [isRegistered, hboot.links] at hlink
  uuids := by
    intro uid user hu
    simp [hboot.users] at hu
  members := by
    intro uid key hmb
    rw [hboot.members] at hmb
    cases hmb
  rmembers := hboot.rmembers

theorem forceJoin (hinv : Introduced server) {name : Str}
    (hcalm : server.isEnrolled uid = true ∨ server.Refused env uid (.join name)) :
    Introduced (server.join env uid name) := by
  rcases hcalm with hreg | href
  · have hjoin := hinv.performAll env uid [.join name]
    simpa [Server.performAll, Server.perform, hreg] using hjoin
  · rwa [join_refused href]

theorem apply (env : Env) (hinv : Introduced server) (hen : event.Enabled server)
    (hunlinked : ∀ uid held, event = .register uid held → ∀ link, server.isRegistered link = false)
    (hforced : ∀ uid name, event = .forceJoin uid name →
      server.isEnrolled uid = true ∨ server.Refused env uid (.join name)) :
    Introduced (event.apply env server) := by
  cases event with
  | connect uid user =>
    obtain ⟨huid, hfre, huuid, hreg⟩ := hen
    exact hinv.addConn huid hfre huuid hreg
  | act uid actions => exact hinv.performAll env uid actions
  | forceJoin uid name => exact hinv.forceJoin (hforced uid name rfl)
  | register uid held =>
    obtain ⟨user, hu, _⟩ := hen
    exact (hinv.welcome_unlinked env hu (hunlinked uid held rfl)).performAll env uid held
  | openLink uid ip outbound => exact hinv.addLink uid ip outbound
  | server uid message => exact hinv.onLink_server env hen.1 hen.2
  | closeLink uid => exact hinv.closeLink uid

theorem setClock (hinv : Introduced server) (now : Timestamp) :
    Introduced { server with clock := now } :=
  ⟨hinv.sid, fun link => hinv.orderly link, fun link => hinv.known link,
    hinv.uuids, hinv.members, hinv.rmembers⟩

theorem enabled_setClock (hen : event.Enabled server)
    (now : Timestamp) : event.Enabled { server with clock := now } := by
  cases event <;> exact hen

theorem calmStep (hinv : Introduced server) (hevs : server.events = [])
    (hstep : CalmStep env server after) : Introduced after ∧ after.events = [] := by
  obtain ⟨now, event, hen, hcalm, rfl⟩ := hstep
  refine ⟨?_, drainHooks_events ..⟩
  have hsta := hinv.setClock now
  by_cases hq : ∃ uid held, event = .register uid held ∧
      Quiet env uid held { server with clock := now }
  · obtain ⟨uid, held, rfl, hq⟩ := hq
    exact hsta.register_quiet env hq hevs
  · refine (hsta.apply env (enabled_setClock hen now) ?_ ?_).drainHooks env
    · rintro uid held rfl
      exact hcalm.resolve_right fun hheld => hq ⟨uid, held, rfl, hheld⟩
    · rintro uid name rfl
      exact hcalm

theorem calmRun {boot : Server} (hboot : Boot boot)
    (hrun : Relation.ReflTransGen (CalmStep env) boot server) :
    Introduced server ∧ server.events = [] := by
  induction hrun with
  | refl => exact ⟨of_boot hboot, hboot.events⟩
  | tail _ hstep ih => exact ih.1.calmStep ih.2 hstep

end Introduced

/-! ## A registration that is not quiet -/

namespace Server

def lobbyBoot : Server where
  conf := { name := "a.test", sid := "1AA", autojoin := ["#lobby"]
            linkBlocks := [⟨"b.test", "127.0.0.2", "secret"⟩] }
  clock := 0

def plainBoot : Server :=
  { lobbyBoot with conf := { lobbyBoot.conf with autojoin := [] } }

def annConnected : User where
  uuid := "1AAAAAAAA"
  nick := "ann"
  host := "host"
  signon := 1
  nickTs := 1
  ip := "127.0.0.1"

def peerMessage : Message where
  source := none
  command := "SERVER"
  params := ["b.test", "secret", "2BB", "peer"]

def annRegisters (boot : Server) : Server :=
  [Event.connect 1 annConnected, .openLink 5 "127.0.0.2" false,
    .server 5 peerMessage, .register 1 []].foldl
    (fun server event => event.run .plain 100 server) boot

theorem eventStep_autojoin_first :
    Boot lobbyBoot ∧
      Relation.ReflTransGen (EventStep .plain) lobbyBoot (annRegisters lobbyBoot) ∧
      (annRegisters lobbyBoot).users.lookup 1 ≠ none ∧
      ((annRegisters lobbyBoot).linesTo 5).map (fun out => out.line.command) =
        ["SERVER", "BURST", "ENDBURST", "FJOIN", "UID"] ∧
      ¬Out.session.Orderly "1AAAAAAAA" false ((annRegisters lobbyBoot).linesTo 5) := by
  have hboot : Boot lobbyBoot := ⟨by decide, rfl, rfl, rfl, rfl, fun _ _ => rfl, fun _ _ => rfl⟩
  have huuid : IsUuid lobbyBoot.conf.sid annConnected.uuid :=
    ⟨"AAAAAA", by decide, by decide, by decide⟩
  refine ⟨hboot, ?_, by decide, by decide, by decide⟩
  refine .head ⟨100, .connect 1 annConnected, ⟨by decide, by decide, huuid, rfl⟩, rfl⟩ ?_
  refine .head ⟨100, .openLink 5 "127.0.0.2" false,
    ⟨by decide, by decide⟩, rfl⟩ ?_
  refine .head ⟨100, .server 5 peerMessage, ⟨by decide, by decide⟩, rfl⟩ ?_
  exact .single ⟨100, .register 1 [], ⟨annConnected, rfl, rfl⟩, rfl⟩

end Server

/--
In a run whose registrations are quiet, or happen while no link is up, and whose
forced joins are of registered users or refused, no link is sent a line that
names a user outside the time between its `UID` and its `QUIT`.
-/
theorem calmRun_orderly {env : Env} {boot server : Server} (hboot : Boot boot)
    (hrun : Relation.ReflTransGen (CalmStep env) boot server) (link : Uid)
    {uuid : Str} (huuid : uuid ≠ server.conf.sid) :
    Out.session.Orderly uuid false (server.linesTo link) :=
  (Introduced.calmRun hboot hrun).1.orderly link uuid huuid

theorem calmRun_orderly_annRegisters :
    Out.session.Orderly "1AAAAAAAA" false ((annRegisters plainBoot).linesTo 5) := by
  have hboot : Boot plainBoot := ⟨by decide, rfl, rfl, rfl, rfl, fun _ _ => rfl, fun _ _ => rfl⟩
  have huuid : IsUuid plainBoot.conf.sid annConnected.uuid :=
    ⟨"AAAAAA", by decide, by decide, by decide⟩
  have hrun : Relation.ReflTransGen (CalmStep .plain) plainBoot
      (annRegisters plainBoot) := by
    refine .head ⟨100, .connect 1 annConnected, ⟨by decide, by decide, huuid, rfl⟩, trivial, rfl⟩ ?_
    refine .head ⟨100, .openLink 5 "127.0.0.2" false,
      ⟨by decide, by decide⟩, trivial, rfl⟩ ?_
    refine .head ⟨100, .server 5 peerMessage, ⟨by decide, by decide⟩, trivial, rfl⟩ ?_
    refine .single ⟨100, .register 1 [], ⟨annConnected, rfl, rfl⟩, .inr ?_, rfl⟩
    exact ⟨nofun, nofun, nofun⟩
  exact calmRun_orderly hboot hrun 5 (by decide)

end EchoIrcd
