import EchoIrcd.IntroductionRuns
import EchoIrcd.Naming

/-!
# Nick changes over whole runs

Local NICK commands, connections that come, register and go, links that come
and go, and the lines of a peer that introduce, rename, save and remove its
users.  A collision may rename the local user, the remote one or both while one
line is handled; each loser takes its uuid, which nobody else can hold.  The
one way around this is a second uuid that differs from a known one only in
case: both fold to the same nick.
-/

namespace EchoIrcd

open Str Index Server

variable {message : Message} {server : Server} {nick sid uuid : Str} {via : Uid}

/-! ## Collisions -/

def IsNickFor (uuid nick : Str) : Prop :=
  (∃ maxlen, validNick nick maxlen = true) ∨ nick = uuid

theorem IsNickFor.digit (hnick : IsNickFor uuid nick) :
    opensWithDigit nick = true → nick = uuid := by
  intro hdig
  rcases hnick with ⟨maxlen, hval⟩ | hown
  · rw [opensWithDigit_of_validNick hval] at hdig
    cases hdig
  · exact hown

theorem collisionDecision_local {localTs remoteTs : Timestamp} {same : Bool}
    (hkept : (collisionDecision localTs remoteTs same).2 = false) :
    (collisionDecision localTs remoteTs same).1 = true := by
  by_cases hts : remoteTs = localTs
  · rw [collisionDecision, if_pos hts] at hkept
    cases hkept
  · rw [collisionDecision, if_neg hts] at hkept ⊢
    split at hkept
    next => cases hkept
    next hnewer => rw [if_neg hnewer]

namespace Server

/-- A collision has at least one loser; whoever loses here is saved, and the peer is told when its
user loses. -/
theorem decided {holds : Server × Bool → Prop} {saved : Server} (line : Server → Out)
    {decision : Bool × Bool} (hchg : decision.2 = false → decision.1 = true)
    (hboth : holds (saved.linkOut via (line saved), true)) (hloc : holds (saved, false))
    (hrem : holds (server.linkOut via (line server), true)) :
    holds (let kept := if decision.1 then saved else server
      (if decision.2 then kept.linkOut via (line kept) else kept, decision.2)) := by
  obtain ⟨changeLocal, changeRemote⟩ := decision
  cases changeLocal with
  | true =>
    cases changeRemote with
    | true => exact hboth
    | false => exact hloc
  | false =>
    cases changeRemote with
    | true => exact hrem
    | false => cases hchg rfl

structure LocalContest (nick : Str) (before : Server) (outcome : Server × Bool) :
    Prop where
  named : outcome.1.WellNamed
  conf : outcome.1.conf = before.conf
  remotes : outcome.1.remoteNameOf = before.remoteNameOf
  free : outcome.2 = false → outcome.1.nickIndex.lookup (toAsciiLower nick) = none

theorem contestLocal_spec (hnm : server.WellNamed) (hfor : IsForeign server.conf.sid uuid)
    (hnick : IsNickFor uuid nick) (via : Uid) (ts : Timestamp) (ident ip : Str) (service : Bool) :
    LocalContest nick server (server.contestLocal via nick ts ident ip uuid service) := by
  unfold contestLocal
  cases hf : server.findNick nick with
  | none => exact ⟨hnm, rfl, rfl, fun _ => hf⟩
  | some uid =>
    obtain ⟨own, held, hname, hne, hlow⟩ := nickOf_eq_some.mp ((hnm.index _ _).mp hf)
    obtain ⟨user, hu, huserName⟩ := Option.map_eq_some_iff.mp hname
    cases huserName
    have hren := setNick_renamed hu user.uuid
    have hsaved := hnm.setNick_uuid hu
    -- the nick is not the uuid of its local holder, which the contender cannot ask for
    have ho : toAsciiLower nick ≠ toAsciiLower user.uuid := by
      intro hs
      obtain ⟨-, huuid, -⟩ := hnm.people hname
      have hown := hnick.digit (opensWithDigit_of_lower hs (huuid.opensWithDigit hnm.sid))
      rw [hown] at hs
      exact hfor.lower_ne hnm.sid huuid hs
    have hfreed : (server.setNick uid user.uuid).nickIndex.lookup
        (toAsciiLower nick) = none := by
      rw [hren.nickIndex, Table.lookup_insert_eq, if_neg ho, lookup_freed hu,
        nickOf_of_user hu, if_neg hne, hlow, if_pos rfl]
    simp only [resolveCollision, hu]
    refine decided (fun kept => .save kept.conf.sid uuid ts) ?_
      ⟨hsaved.of_sameNames (sameNames_linkOut ..), hren.conf, hren.remotes, nofun⟩
      ⟨hsaved, hren.conf, hren.remotes, fun _ => hfreed⟩
      ⟨hnm.of_sameNames (sameNames_linkOut ..), rfl, rfl, nofun⟩
    split
    · exact fun _ => rfl
    · exact collisionDecision_local

structure RemoteContest (uuid nick : Str) (before : Server) (outcome : Server × Bool) :
    Prop where
  named : outcome.1.WellNamed
  conf : outcome.1.conf = before.conf
  nickIndex : outcome.1.nickIndex = before.nickIndex
  own : outcome.1.remoteNameOf uuid = before.remoteNameOf uuid
  known : ∀ {other held}, outcome.1.remoteNameOf other = some held →
    ∃ earlier, before.remoteNameOf other = some earlier
  free : outcome.2 = false → ∀ other,
    outcome.1.remoteNick.lookup (toAsciiLower nick) = some other → other = uuid

theorem contestRemote_spec (hnm : server.WellNamed)
    (hfd : ∀ other held, server.remoteNameOf other = some held →
      toAsciiLower other = toAsciiLower uuid → other = uuid) (hnick : IsNickFor uuid nick)
    (via : Uid) (ts : Timestamp) (ident ip sid : Str) :
    RemoteContest uuid nick server (server.contestRemote via nick ts ident ip uuid sid) := by
  unfold contestRemote
  cases hf : server.remoteNick.lookup (toAsciiLower nick) with
  | none =>
    refine ⟨hnm, rfl, rfl, rfl, fun ho => ⟨_, ho⟩, fun _ other ho => ?_⟩
    rw [hf] at ho
    cases ho
  | some existing =>
    obtain ⟨held, hname, hlow⟩ := remoteNickOf_eq_some.mp ((hnm.rindex _ _).mp hf)
    obtain ⟨remote, hrem, rfl⟩ := Option.map_eq_some_iff.mp hname
    by_cases hself : existing = uuid
    · simp only [hself, ne_eq, not_true_eq_false, if_false]
      refine ⟨hnm, rfl, rfl, rfl, fun ho => ⟨_, ho⟩, fun _ other ho => ?_⟩
      rw [hf] at ho
      exact (Option.some.inj ho).symm.trans hself
    · have ho : toAsciiLower remote.nick ≠ toAsciiLower existing := by
        intro hs
        obtain ⟨hfor, -⟩ := hnm.remotes hname
        have hown := hnick.digit (opensWithDigit_of_lower (hlow.symm.trans hs)
          hfor.opensWithDigit)
        rw [hlow, hown] at hs
        exact hself (hfd existing _ hname hs.symm)
      have hren := saveRemoteUser_remoteNamed hrem ho
      have hsaved := hnm.saveRemoteUser existing
      have hown : (server.saveRemoteUser existing).remoteNameOf uuid =
          server.remoteNameOf uuid := by
        rw [hren.remotes, if_neg (Ne.symm hself)]
      have hkn : ∀ {other held},
          (server.saveRemoteUser existing).remoteNameOf other = some held →
          ∃ earlier, server.remoteNameOf other = some earlier := by
        intro other held hheld
        rw [hren.remotes] at hheld
        split at hheld
        next hs => exact ⟨_, hs ▸ hname⟩
        next => exact ⟨held, hheld⟩
      have hfreed : (server.saveRemoteUser existing).remoteNick.lookup
          (toAsciiLower nick) = none := by
        have hheld : server.remoteNickOf existing = some (toAsciiLower nick) :=
          remoteNickOf_eq_some.mpr ⟨_, hname, hlow⟩
        rw [hren.remoteNick, ← hlow, if_neg ho, hlow, if_pos hheld]
      simp only [ne_eq, hself, not_false_eq_true, if_true, resolveRemoteCollision, hrem]
      refine decided (fun kept => .save kept.conf.sid uuid ts) ?_
        ⟨hsaved.of_sameNames (sameNames_linkOut ..), hren.conf, hren.nickIndex, hown,
          hkn, nofun⟩
        ⟨hsaved, hren.conf, hren.nickIndex, hown, hkn, fun _ other hheld => ?_⟩
        ⟨hnm.of_sameNames (sameNames_linkOut ..), rfl, rfl, rfl, fun hheld => ⟨_, hheld⟩, nofun⟩
      · split
        · exact fun _ => rfl
        · split
          · exact nofun
          · exact collisionDecision_local
      · cases hfreed.symm.trans hheld

/-! ## Lines about users -/

def UuidApart (uuid : Str) (server : Server) : Prop :=
  ∀ other, other ∈ server.remoteUsers → toAsciiLower other = toAsciiLower uuid →
    other = uuid

instance (uuid : Str) (server : Server) : Decidable (server.UuidApart uuid) :=
  inferInstanceAs (Decidable (∀ other ∈ server.remoteUsers.keys,
    toAsciiLower other = toAsciiLower uuid → other = uuid))

def Unheard (uuid : Str) (server : Server) : Prop :=
  ∀ other held, server.remoteNameOf other = some held → toAsciiLower other ≠ toAsciiLower uuid

theorem sameNames_forwardToTarget (server : Server) (target : Str) (message : Message)
    (origin : Uid) : SameNames server (server.forwardToTarget target message origin) := by
  unfold forwardToTarget
  split
  · split
    · exact sameNames_linkOut ..
    · exact .refl server
  · exact .refl server

theorem sameNames_greet (server : Server) (uid : Uid) (block : LinkBlock) :
    SameNames server (server.greet uid block) := by
  unfold greet
  split
  · exact .refl server
  · exact (sameNames_linkOut ..).trans (sameNames_changeLink ..)

section

variable (hnm : server.WellNamed)

include hnm

theorem WellNamed.foreign_of_sourceBehind (hsrc : server.sourceBehind sid via = true)
    (hini : sid <+: uuid) : IsForeign server.conf.sid uuid := by
  unfold sourceBehind at hsrc
  split at hsrc
  · rename_i remote hrem
    have hname : server.remoteNameOf sid = some remote.nick := by
      rw [remoteNameOf, hrem]
      rfl
    obtain ⟨⟨other, hval, hne, ho⟩, -⟩ := hnm.remotes hname
    exact ⟨other, hval, hne, ho.trans hini⟩
  · split at hsrc
    · rename_i remote hrem
      obtain ⟨hval, hne⟩ := hnm.servers (Table.mem_of_lookup hrem)
      exact ⟨sid, hval, hne, hini⟩
    · cases hsrc

theorem arbitrateNick_spec (hfor : IsForeign server.conf.sid uuid)
    (hfd : server.Unheard uuid) (hnick : IsNickFor uuid nick) (via : Uid) (ts : Timestamp)
    (ident ip sid : Str) :
    let contested := server.arbitrateNick via nick ts ident ip uuid sid
    contested.1.WellNamed ∧ contested.1.conf = server.conf ∧ contested.1.Unheard uuid ∧
      IsNickFor uuid contested.2 ∧
      contested.1.nickIndex.lookup (toAsciiLower contested.2) = none ∧
      contested.1.remoteNick.lookup (toAsciiLower contested.2) = none := by
  have hfst := contestLocal_spec hnm hfor hnick via ts ident ip
    (server.serverIsService sid)
  simp only [arbitrateNick]
  generalize server.contestLocal via nick ts ident ip uuid (server.serverIsService sid) =
    first at hfst
  have hfolded1 : first.1.Unheard uuid := by
    rw [Unheard, hfst.remotes]
    exact hfd
  have hforeign1 : IsForeign first.1.conf.sid uuid := by
    rw [hfst.conf]
    exact hfor
  obtain ⟨firstNick, hfirstNick⟩ : ∃ chosen, chosen = if first.2 then uuid else nick := ⟨_, rfl⟩
  have hnick1 : IsNickFor uuid firstNick := by
    rw [hfirstNick]
    split
    · exact .inr rfl
    · exact hnick
  have hfree1 : first.1.nickIndex.lookup (toAsciiLower firstNick) = none := by
    by_cases hlost : first.2 = true
    · rw [hfirstNick, if_pos hlost]
      exact hfst.named.index_foreign hforeign1
    · rw [hfirstNick, if_neg hlost]
      exact hfst.free (by simpa using hlost)
  rw [← hfirstNick]
  have hsec := contestRemote_spec hfst.named
    (fun other held ho hs => absurd hs (hfolded1 other held ho)) hnick1 via ts
    ident ip sid
  generalize first.1.contestRemote via firstNick ts ident ip uuid sid = second at hsec
  have hfolded2 : second.1.Unheard uuid := by
    intro other held ho
    obtain ⟨earlier, hprev⟩ := hsec.known ho
    exact hfolded1 other earlier hprev
  have hforeign2 : IsForeign second.1.conf.sid uuid := by
    rw [hsec.conf]
    exact hforeign1
  have hnone : ∀ key, (∀ other, second.1.remoteNick.lookup key = some other → other = uuid) →
      second.1.remoteNick.lookup key = none := by
    intro key howner
    cases hheld : second.1.remoteNick.lookup key with
    | none => rfl
    | some other =>
      obtain ⟨held, hname, -⟩ :=
        remoteNickOf_eq_some.mp ((hsec.named.rindex key other).mp hheld)
      exact absurd (congrArg toAsciiLower (howner other hheld)) (hfolded2 other held hname)
  refine ⟨hsec.named, hsec.conf.trans hfst.conf, hfolded2, ?_⟩
  by_cases hlost : second.2 = true
  · rw [if_pos hlost]
    refine ⟨.inr rfl, hsec.named.index_foreign hforeign2, hnone _ ?_⟩
    intro other ho
    obtain ⟨⟨held, hheld⟩, hs⟩ := hsec.named.rindex_foreign hforeign2 ho
    exact absurd hs (hfolded2 other held hheld)
  · rw [if_neg hlost]
    refine ⟨hnick1, ?_, hnone _ (hsec.free (by simpa using hlost))⟩
    rw [hsec.nickIndex]
    exact hfree1

theorem WellNamed.linkUidRecv
    (hline : ∀ uuid ts nick rest, message.params = uuid :: ts :: nick :: rest →
      IsNickFor uuid nick ∧ server.UuidApart uuid) :
    (server.linkUidRecv via message).WellNamed := by
  unfold Server.linkUidRecv
  split
  · rename_i uuid ts nick realhost host realident ident ip signon modes more rest hpar
    obtain ⟨hnick, happart⟩ := hline uuid ts nick _ hpar
    simp only
    split
    next hok =>
      simp only [uidAcceptable, Bool.and_eq_true, decide_eq_true_eq, Bool.not_eq_true',
        decide_eq_false_iff_not, List.isPrefixOf_iff_prefix] at hok
      obtain ⟨⟨⟨⟨hsrc, -⟩, -⟩, hini⟩, hfre⟩ := hok
      have hfor := hnm.foreign_of_sourceBehind hsrc hini
      have hfd : server.Unheard uuid := by
        intro other held ho hs
        obtain ⟨remote, hrem, -⟩ := Option.map_eq_some_iff.mp ho
        have hkn := Table.mem_of_lookup hrem
        rw [happart other hkn hs] at hkn
        exact hfre hkn
      have hcontested := arbitrateNick_spec hnm hfor hfd hnick via
        ((parseU64 ts).getD server.clock) ident ip (message.source.getD [])
      refine WellNamed.of_sameNames ?_ (sameNames_propagate ..)
      generalize server.arbitrateNick via nick ((parseU64 ts).getD server.clock) ident ip uuid
        (message.source.getD []) = contested at hcontested ⊢
      obtain ⟨hnm', hconf, hfd', hnick', hloc, hrem⟩ := hcontested
      have hunknown : uuid ∉ contested.1.remoteUsers := by
        intro hkn
        obtain ⟨remote, hf⟩ := Table.mem_iff_lookup.mp hkn
        exact hfd' uuid remote.nick (by rw [remoteNameOf, hf]; rfl) rfl
      refine hnm'.remoteNamed (enterRemoteUser_remoteNamed hunknown) (hconf ▸ hfor)
        ?_ hnick'.digit hloc ?_
      · exact fun other held ho hs => absurd hs (hfd' other held ho)
      · intro other ho
        rw [hrem] at ho
        cases ho
    next => exact hnm
  · exact hnm

theorem WellNamed.linkNickRecv
    (hline : ∀ uuid nick rest, message.source = some uuid → message.params = nick :: rest →
      IsNickFor uuid nick) : (server.linkNickRecv via message).WellNamed := by
  unfold Server.linkNickRecv
  split
  · rename_i uuid newnick rest hsrc hpar
    have hnick := hline uuid newnick rest hsrc hpar
    split
    · exact hnm
    · rename_i remote hrem
      have hname : server.remoteNameOf uuid = some remote.nick := by
        rw [remoteNameOf, hrem]
        rfl
      have hfor := (hnm.remotes hname).1
      split
      · exact hnm
      · simp only
        generalize (rest.head?.bind parseU64).getD server.clock = ts
        have hfst := contestLocal_spec hnm hfor hnick via ts remote.ident remote.ip
          (server.uuidIsService uuid)
        generalize server.contestLocal via newnick ts remote.ident remote.ip uuid
          (server.uuidIsService uuid) = first at hfst ⊢
        split
        · exact hfst.named
        · rename_i hkept
          have hfolded1 : ∀ other held, first.1.remoteNameOf other = some held →
              toAsciiLower other = toAsciiLower uuid → other = uuid := by
            rw [hfst.remotes]
            exact fun other held ho hs => hnm.folded ho hname hs
          have hsec := contestRemote_spec hfst.named hfolded1 hnick via ts remote.ident
            remote.ip remote.sid
          generalize first.1.contestRemote via newnick ts remote.ident remote.ip uuid
            remote.sid = second at hsec ⊢
          split
          · exact hsec.named
          · rename_i hkept2
            refine WellNamed.of_sameNames ?_ (sameNames_propagate ..)
            have hown : second.1.remoteNameOf uuid = some remote.nick := by
              rw [hsec.own, hfst.remotes, hname]
            obtain ⟨later, hlat, hs⟩ := Option.map_eq_some_iff.mp hown
            rw [← hs]
            refine hsec.named.remoteNamed (renameRemote_remoteNamed hlat newnick _)
              ?_ ?_ hnick.digit ?_ (hsec.free (by simpa using hkept2))
            · rw [hsec.conf, hfst.conf]
              exact hfor
            · intro other held ho hlow
              obtain ⟨earlier, hprev⟩ := hsec.known ho
              exact hfolded1 other earlier hprev hlow
            · rw [hsec.nickIndex]
              exact hfst.free (by simpa using hkept)
  · exact hnm

theorem WellNamed.linkSaveRecv (via : Uid)
    (message : Message) : (server.linkSaveRecv via message).WellNamed := by
  unfold Server.linkSaveRecv
  split
  · split
    · split
      · rename_i user hu
        split
        · exact hnm.setNick_uuid hu
        · exact hnm
      · exact hnm
    · exact hnm.of_sameNames (sameNames_forwardToTarget ..)
  · exact hnm

theorem WellNamed.linkQuitRecv (via : Uid)
    (message : Message) : (server.linkQuitRecv via message).WellNamed := by
  unfold Server.linkQuitRecv
  split
  · split
    · exact (hnm.dropRemoteUser _).of_sameNames (sameNames_propagate ..)
    · exact hnm
  · exact hnm

/-! ## Links -/

theorem WellNamed.rejectLink (uid : Uid) (why : Str) : (server.rejectLink uid why).WellNamed :=
  (hnm.of_sameNames (sameNames_linkOut ..)).closeLink uid

theorem WellNamed.registerLink (hval : validSid sid = true) (hne : sid ≠ server.conf.sid)
    (uid : Uid) (name desc : Str) : (server.registerLink uid name sid desc).WellNamed := by
  refine ⟨hnm.sid, ?_, hnm.people, hnm.remotes, hnm.folded, hnm.index,
    hnm.rindex, hnm.apart⟩
  intro other ho
  rcases (AList.mem_insert _).mp ho with rfl | hkn
  · exact ⟨hval, hne⟩
  · exact hnm.servers hkn

theorem WellNamed.acceptLink (hval : validSid sid = true)
    (hne : sid ≠ server.conf.sid) (uid : Uid) (block : LinkBlock) (name desc : Str) :
    (server.acceptLink uid block name sid desc).WellNamed := by
  have hreg := hnm.registerLink hval hne uid name desc
  refine (hreg.of_sameNames (sameNames_greet _ uid block)).of_sameNames ?_
  exact foldl_rel .refl .trans (fun server out => sameNames_linkOut server uid out) _ _

theorem WellNamed.linkServer (env : Env) (uid : Uid)
    (message : Message) : (server.linkServer env uid message).WellNamed :=
  linkServer_rel env message (fun _ => hnm.rejectLink ..) fun _ _ _ _ hval hown =>
    hnm.acceptLink hval hown ..

theorem WellNamed.addLink (uid : Uid) (ip : Str)
    (outbound : Bool) : (server.addLink uid ip outbound).WellNamed := by
  refine hnm.of_sameNames ?_
  unfold Server.addLink
  simp only
  split <;> exact ⟨rfl, rfl, rfl, rfl, rfl, rfl, rfl⟩

end

end Server

/-! ## The NICK command -/

/--
The checks of NICK that only refuse and are not opened up here: NICKLOCK, the
channel rules against nick changes, and the R-lines tested after a change.
-/
structure NickGate where
  locked : Server → Uid → Bool
  barred : Server → Uid → Bool
  rlined : Server → Uid → Option Str

namespace Server

def matchedNick (env : Env) (server : Server) (kind : XKind) (nick : Str) : Option Str :=
  (server.xlines.find? fun xline =>
    xline.kind = kind && xline.active server.clock &&
      globMatch env xline.mask nick).map XLine.reason

def nickReserved (env : Env) (server : Server) (nick : Str) : Option Str :=
  (server.matchedNick env .qline nick).or (server.matchedNick env .svshold nick)

def nickCommand (env : Env) (gate : NickGate) (uid : Uid) (newnick : Str)
    (server : Server) : Server :=
  if !validNick newnick server.conf.maxnick then server
  else if gate.locked server uid && !server.isOper uid then server
  else if !server.isOper uid && (server.nickReserved env newnick).isSome then server
  else
    match server.findNick newnick with
    | some _ => server
    | none =>
      if toAsciiLower newnick ∈ server.remoteNick then server
      else if gate.barred server uid then server
      else
        let renamed := server.setNick uid newnick
        match gate.rlined renamed uid with
        | some reason => renamed.removeUser uid reason
        | none => renamed

theorem WellNamed.nickCommand (hnm : server.WellNamed) (env : Env) (gate : NickGate) (uid : Uid)
    (newnick : Str) : (server.nickCommand env gate uid newnick).WellNamed := by
  unfold Server.nickCommand
  split
  · exact hnm
  · rename_i hval
    rw [Bool.not_eq_true', Bool.not_eq_false] at hval
    split
    · exact hnm
    · split
      · exact hnm
      · split
        · exact hnm
        · rename_i hfree
          split
          · exact hnm
          · rename_i hrem
            split
            · exact hnm
            · have hren : (server.setNick uid newnick).WellNamed := by
                cases hu : server.users.lookup uid with
                | none =>
                  simp only [setNick, hu]
                  exact hnm
                | some user =>
                  have hne : newnick ≠ [] := by
                    intro hnil
                    rw [hnil] at hval
                    cases hval
                  refine hnm.renamed hu (setNick_renamed hu _) hne ?_ ?_ ?_
                  · intro hdig
                    rw [opensWithDigit_of_validNick hval] at hdig
                    cases hdig
                  · intro other ho
                    rw [findNick] at hfree
                    rw [hfree] at ho
                    cases ho
                  · exact AList.lookup_eq_none.mpr hrem
              simp only
              split
              · exact hren.removeUser ..
              · exact hren

end Server

/-! ## Runs -/

inductive NickEvent where
  | connect (uid : Uid) (user : User)
  | nick (uid : Uid) (newnick : Str)
  | register (uid : Uid)
  | disconnect (uid : Uid) (reason : Str)
  | openLink (uid : Uid) (ip : Str) (outbound : Bool)
  | loseLink (uid : Uid)
  | line (uid : Uid) (message : Message)

def nickVerbs : List Verb :=
  [.server, .ping, .burst, .endburst, .uid, .nick, .save, .quit, .squit, .error]

/-- The nicks of a line are valid, or the uuid of the user it is about. -/
structure NickLine (message : Message) : Prop where
  uid : ∀ uuid ts nick rest, message.command = Verb.uid.word →
    message.params = uuid :: ts :: nick :: rest → IsNickFor uuid nick
  nick : ∀ uuid nick rest, message.command = Verb.nick.word →
    message.source = some uuid → message.params = nick :: rest → IsNickFor uuid nick

namespace NickEvent

def Enabled (server : Server) : NickEvent → Prop
  | .connect uid user =>
    uid ∉ server.users ∧ user.uuid ∉ server.uuidLocal ∧
      IsUuid server.conf.sid user.uuid ∧ user.nick = [] ∧ user.registered = false
  | .line uid message =>
    uid ∈ server.links ∧ (∃ verb ∈ nickVerbs, message.command = verb.word) ∧
      NickLine message
  | .openLink uid _ _ => uid ∉ server.links
  | _ => True

def Apart (server : Server) : NickEvent → Prop
  | .line _ message => ∀ uuid rest, message.command = Verb.uid.word →
      message.params = uuid :: rest → server.UuidApart uuid
  | _ => True

def apply (env : Env) (gate : NickGate) : NickEvent → Server → Server
  | .connect uid user, server => server.addConn uid user
  | .nick uid newnick, server => server.nickCommand env gate uid newnick
  | .register uid, server => server.welcome env uid
  | .disconnect uid reason, server => server.removeUser uid reason
  | .openLink uid ip outbound, server => server.addLink uid ip outbound
  | .loseLink uid, server => server.closeLink uid
  | .line uid message, server => server.onLink env uid message

end NickEvent

def NickStep (env : Env) (gate : NickGate) (before after : Server) : Prop :=
  ∃ now event, NickEvent.Enabled before event ∧
    after = before.handleEvent env now (event.apply env gate)

def ApartStep (env : Env) (gate : NickGate) (before after : Server) : Prop :=
  ∃ now event, NickEvent.Enabled before event ∧ event.Apart before ∧
    after = before.handleEvent env now (event.apply env gate)

namespace Server

structure Unpeopled (server : Server) : Prop where
  sid : validSid server.conf.sid = true
  servers : server.servers = ∅
  users : server.users = ∅
  uuidLocal : server.uuidLocal = ∅
  nickIndex : server.nickIndex = ∅
  remoteUsers : server.remoteUsers = ∅
  remoteNick : server.remoteNick = ∅

theorem Unpeopled.wellNamed {boot : Server} (hboot : boot.Unpeopled) : boot.WellNamed := by
  have hnms : ∀ uid, boot.nameOf uid = none := by
    intro uid
    rw [nameOf, hboot.users, AList.lookup_empty]
    rfl
  have hremotes : ∀ uuid, boot.remoteNameOf uuid = none := by
    intro uuid
    rw [remoteNameOf, hboot.remoteUsers, AList.lookup_empty]
    rfl
  refine ⟨hboot.sid, ?_, ?_, ?_, ?_, ?_, ?_, ?_⟩
  · intro sid hsid
    rw [hboot.servers] at hsid
    exact absurd hsid (AList.notMem_empty _)
  · intro uid uuid nick hname
    rw [hnms] at hname
    cases hname
  · intro uuid nick hname
    rw [hremotes] at hname
    cases hname
  · intro first second nick other hfst
    rw [hremotes] at hfst
    cases hfst
  · intro nick uid
    simp [hboot.nickIndex, nickOf, hnms]
  · intro nick uuid
    simp [hboot.remoteNick, remoteNickOf, hremotes]
  · intro nick uid hf
    rw [hboot.nickIndex, AList.lookup_empty] at hf
    cases hf

theorem WellNamed.onLink (hnm : server.WellNamed) (env : Env) (uid : Uid) {verb : Verb}
    (hverb : verb ∈ nickVerbs) (hword : message.command = verb.word) (hline : NickLine message)
    (hap : ∀ uuid rest, message.command = Verb.uid.word →
      message.params = uuid :: rest → server.UuidApart uuid) :
    (server.onLink env uid message).WellNamed := by
  have htch : (server.touchLink uid).WellNamed := hnm.of_sameNames (sameNames_changeLink ..)
  have hchanged : ∀ change, ((server.touchLink uid).changeLink uid change).WellNamed :=
    fun change => htch.of_sameNames (sameNames_changeLink ..)
  have hgated : ∀ (gate : Prop) [Decidable gate] {after : Server}, after.WellNamed →
      (if gate then after else server.touchLink uid).WellNamed :=
    fun _ _ _ haft => iteInduction (fun _ => haft) fun _ => htch
  simp only [Server.onLink, onLinkFuel, hword, Verb.ofWord_word]
  simp only [nickVerbs, List.mem_cons, List.not_mem_nil, or_false] at hverb
  rcases hverb with rfl | rfl | rfl | rfl | rfl | rfl | rfl | rfl | rfl | rfl
  · change (if (server.touchLink uid).isRegistered uid = true then server.touchLink uid
      else (server.touchLink uid).linkServer env uid message).WellNamed
    split
    · exact htch
    · exact htch.linkServer ..
  · exact hgated _ (htch.of_sameNames (sameNames_linkOut ..))
  · exact hchanged _
  · exact hchanged _
  · refine hgated _ (htch.linkUidRecv ?_)
    intro uuid ts nick rest hpar
    exact ⟨hline.uid uuid ts nick rest hword hpar, hap uuid _ hword hpar⟩
  · exact hgated _ (htch.linkNickRecv fun uuid nick rest hsrc hpar =>
      hline.nick uuid nick rest hword hsrc hpar)
  · exact hgated _ (htch.linkSaveRecv ..)
  · exact hgated _ (htch.linkQuitRecv ..)
  · exact htch.closeLink uid
  · exact htch.closeLink uid

theorem WellNamed.apply (hnm : server.WellNamed) (env : Env) (gate : NickGate)
    {event : NickEvent} (hen : event.Enabled server)
    (hap : event.Apart server) : (event.apply env gate server).WellNamed := by
  cases event with
  | connect uid user =>
    obtain ⟨hfre, hnew, huuid, hnick, -⟩ := hen
    exact hnm.addConn hfre huuid hnew hnick
  | nick uid newnick => exact hnm.nickCommand ..
  | register uid => exact hnm.of_sameNames (sameNames_welcome ..)
  | disconnect uid reason => exact hnm.removeUser ..
  | openLink uid ip outbound => exact hnm.addLink ..
  | loseLink uid => exact hnm.closeLink uid
  | line uid message =>
    obtain ⟨-, ⟨verb, hverb, hword⟩, hline⟩ := hen
    exact hnm.onLink env uid hverb hword hline hap

theorem WellNamed.apartStep {env : Env} {gate : NickGate} {before after : Server}
    (hnm : before.WellNamed) (hstep : ApartStep env gate before after) : after.WellNamed := by
  obtain ⟨now, event, hen, hap, rfl⟩ := hstep
  have hclk := hnm.of_sameNames (sameNames_setClock before now)
  have hen' : event.Enabled (before.setClock now) := by
    cases event <;> exact hen
  have hap' : event.Apart (before.setClock now) := by
    cases event <;> exact hap
  exact (hclk.apply env gate hen' hap').of_sameNames (sameNames_drainHooks ..)

end Server

/-! ## Twin uuids -/

def uidOf (uuid : Str) : Message where
  source := some "2BB"
  command := "UID"
  params := [uuid, "100", uuid, "host", "host", "user", "user", "10.0.0.1", "100", "+",
    "name"]

theorem uidOf_nickLine (uuid : Str) : NickLine (uidOf uuid) where
  uid := by
    intro other ts nick rest _ hpar
    cases hpar
    exact .inr rfl
  nick := fun _ _ _ hcmd =>
    absurd (show Verb.uid.word = Verb.nick.word from hcmd) (by decide)

def openGate : NickGate where
  locked := fun _ _ => false
  barred := fun _ _ => false
  rlined := fun _ _ => none

def peerIntroduces (uuids : List Str) : Server :=
  (.openLink 5 "127.0.0.2" false :: .line 5 peerMessage ::
      uuids.map fun uuid => NickEvent.line 5 (uidOf uuid)).foldl
    (fun server event => server.handleEvent .plain 100 (event.apply .plain openGate))
    plainBoot

theorem plainBoot_unpeopled : plainBoot.Unpeopled :=
  ⟨by decide, rfl, rfl, rfl, rfl, rfl, rfl⟩

theorem peerMessage_nickLine : NickLine peerMessage where
  uid := fun _ _ _ _ hcmd => absurd hcmd (by decide)
  nick := fun _ _ _ hcmd => absurd hcmd (by decide)

theorem nickStep_twin_uuids :
    plainBoot.Unpeopled ∧
      Relation.ReflTransGen (NickStep .plain openGate) plainBoot
        (peerIntroduces ["2BBAAAAAA", "2BBaaaaaa"]) ∧
      ¬(peerIntroduces ["2BBAAAAAA", "2BBaaaaaa"]).NicksIndexed := by
  refine ⟨plainBoot_unpeopled, ?_, ?_⟩
  · refine .head ⟨100, .openLink 5 "127.0.0.2" false,
      (by decide : 5 ∉ plainBoot.links), rfl⟩ ?_
    refine .head ⟨100, .line 5 peerMessage,
      ⟨by decide, ⟨.server, by decide, rfl⟩, peerMessage_nickLine⟩, rfl⟩ ?_
    refine .head ⟨100, .line 5 (uidOf "2BBAAAAAA"),
      ⟨by decide, ⟨.uid, by decide, rfl⟩, uidOf_nickLine _⟩, rfl⟩ ?_
    exact .single ⟨100, .line 5 (uidOf "2BBaaaaaa"),
      ⟨by decide, ⟨.uid, by decide, rfl⟩, uidOf_nickLine _⟩, rfl⟩
  · intro hidxd
    have hfst : (peerIntroduces ["2BBAAAAAA", "2BBaaaaaa"]).heldBy
        (.inr "2BBAAAAAA".toList) = some "2bbaaaaaa".toList := by decide
    have hsec : (peerIntroduces ["2BBAAAAAA", "2BBaaaaaa"]).heldBy
        (.inr "2BBaaaaaa".toList) = some "2bbaaaaaa".toList := by decide
    exact absurd (hidxd.unique hfst hsec) (by decide)

/--
While no peer introduces a uuid that differs from a known one only in case,
the two nick indexes are exact and no two users share a nick.
-/
theorem apartRun_nicksIndexed {env : Env} {gate : NickGate} {boot server : Server}
    (hboot : boot.Unpeopled) (hrun : Relation.ReflTransGen (ApartStep env gate) boot server) :
    server.NicksIndexed := by
  have hnm : server.WellNamed := by
    induction hrun with
    | refl => exact hboot.wellNamed
    | tail _ hstep ih => exact ih.apartStep hstep
  exact hnm.nicksIndexed

theorem peerIntroduces_apart : Relation.ReflTransGen (ApartStep .plain openGate) plainBoot
    (peerIntroduces ["2BBAAAAAA", "2BBAAAAAB"]) := by
  refine .head ⟨100, .openLink 5 "127.0.0.2" false,
    (by decide : 5 ∉ plainBoot.links), trivial, rfl⟩ ?_
  refine .head ⟨100, .line 5 peerMessage,
    ⟨by decide, ⟨.server, by decide, rfl⟩, peerMessage_nickLine⟩,
    fun _ _ hcmd => absurd hcmd (by decide), rfl⟩ ?_
  refine .head ⟨100, .line 5 (uidOf "2BBAAAAAA"),
    ⟨by decide, ⟨.uid, by decide, rfl⟩, uidOf_nickLine _⟩, ?_, rfl⟩ ?_
  · rintro uuid rest - hpar
    cases hpar
    decide
  · refine .single ⟨100, .line 5 (uidOf "2BBAAAAAB"),
      ⟨by decide, ⟨.uid, by decide, rfl⟩, uidOf_nickLine _⟩, ?_, rfl⟩
    rintro uuid rest - hpar
    cases hpar
    decide

theorem apartRun_nicksIndexed_peer : (peerIntroduces ["2BBAAAAAA", "2BBAAAAAB"]).NicksIndexed :=
  apartRun_nicksIndexed plainBoot_unpeopled peerIntroduces_apart

/-- In such a run a uuid tells local users from remote ones. -/
theorem apartRun_wellNamed {env : Env} {gate : NickGate} {boot server : Server}
    (hboot : boot.Unpeopled) (hrun : Relation.ReflTransGen (ApartStep env gate) boot server) :
    server.WellNamed := by
  induction hrun with
  | refl => exact hboot.wellNamed
  | tail _ hstep ih => exact ih.apartStep hstep

theorem apartRun_wellNamed_peer : (peerIntroduces ["2BBAAAAAA", "2BBAAAAAB"]).WellNamed :=
  apartRun_wellNamed plainBoot_unpeopled peerIntroduces_apart

end EchoIrcd
