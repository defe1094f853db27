import EchoIrcd.Privilege

/-!
# Lines from a forged source

A peer may put any source in front of a line.  The handlers that ask whether
the source sits behind the link drop a forged line whole.  The others act on
it: this file shows which command words they are, through any depth of
`ENCAP`, and that for each of them some forged line changes state.
-/

namespace EchoIrcd

open Str

variable {verb : Verb}

/-- Users, channels, remote users and x-lines are as they were. -/
structure Inert (before after : Server) : Prop where
  users : after.users = before.users
  channels : after.channels = before.channels
  remoteUsers : after.remoteUsers = before.remoteUsers
  xlines : after.xlines = before.xlines

namespace Inert

theorem refl (server : Server) : Inert server server := ⟨rfl, rfl, rfl, rfl⟩

theorem trans {first second third : Server} (hleft : Inert first second)
    (hrt : Inert second third) : Inert first third :=
  ⟨hrt.users.trans hleft.users, hrt.channels.trans hleft.channels,
    hrt.remoteUsers.trans hleft.remoteUsers,
    hrt.xlines.trans hleft.xlines⟩

end Inert

namespace Server

theorem forwardToTarget_inert (server : Server) (target : Str) (message : Message) (origin : Uid) :
    Inert server (server.forwardToTarget target message origin) := by
  unfold forwardToTarget
  split
  · split
    · exact ⟨rfl, rfl, rfl, rfl⟩
    · exact .refl server
  · exact .refl server

/-! ## The handlers that check their source -/

section Forged

variable {server : Server} {via : Uid} {message : Message} {source : Str}

theorem sourcedVia_of_forged (hfg : server.sourceBehind source via = false) :
    server.sourcedVia source via = false := by
  unfold sourceBehind at hfg
  unfold sourcedVia
  cases hrem : server.remoteUsers.lookup source with
  | none => simp
  | some remote =>
    rw [hrem] at hfg
    simpa using hfg

variable (hsrc : message.source = some source)
  (hfg : server.sourceBehind source via = false)

include hsrc hfg

theorem linkUidRecv_forged : server.linkUidRecv via message = server := by
  unfold linkUidRecv
  split
  · simp [uidAcceptable, hsrc, hfg]
  · rfl

theorem linkNickRecv_forged : server.linkNickRecv via message = server := by
  unfold linkNickRecv
  rw [hsrc]
  split
  · rename_i hname _
    cases hname
    split
    · rfl
    · rename_i remote hrem
      have hvia : remote.via ≠ via := by
        simpa [sourceBehind, hrem] using hfg
      simp [hvia]
  · rfl

theorem linkQuitRecv_forged : server.linkQuitRecv via message = server := by
  simp [linkQuitRecv, hsrc, sourcedVia_of_forged hfg]

theorem linkAwayRecv_forged : server.linkAwayRecv via message = server := by
  simp [linkAwayRecv, hsrc, sourcedVia_of_forged hfg]

theorem linkOpertypeRecv_forged : server.linkOpertypeRecv via message = server := by
  simp [linkOpertypeRecv, hsrc, sourcedVia_of_forged hfg]

end Forged

end Server

/-! ## The commands that act on a forged line -/

namespace Verb

def unchecked : List Verb :=
  [fjoin, save, chghost, chgident, metadata, sasl, svsnick, svsjoin, svspart,
    svsmode, svslogin, svslogout, svshold, svstopic, svsoper, svscmode, squit,
    error]

end Verb

/-- The command word that is left when every `ENCAP` layer is taken off. -/
def innermost (command : Str) : List Str → Str
  | _ :: inner :: params =>
    if command = Verb.encap.word then innermost (toAsciiUpper inner) params
    else command
  | _ => command

namespace Server

theorem handle_forged (env : Env) {server : Server} {via : Uid} {message : Message} {source : Str}
    (hverb : verb ∉ Verb.unchecked) (hsrc : message.source = some source)
    (hfg : server.sourceBehind source via = false) :
    Inert server (server.handle env verb via message) := by
  have hs : ∀ {after : Server}, after = server → Inert server after := by
    rintro _ rfl
    exact .refl _
  cases verb with
  | ping => exact ⟨rfl, rfl, rfl, rfl⟩
  | uid => exact hs (linkUidRecv_forged hsrc hfg)
  | nick => exact hs (linkNickRecv_forged hsrc hfg)
  | quit => exact hs (linkQuitRecv_forged hsrc hfg)
  | away => exact hs (linkAwayRecv_forged hsrc hfg)
  | swstdrpl =>
    simp only [handle, linkStdreplyRecv]
    split
    · split
      · exact .refl server
      · exact forwardToTarget_inert ..
    · exact .refl server
  | opertype => exact hs (linkOpertypeRecv_forged hsrc hfg)
  | kill | invite | addline | delline | privmsg | notice | join | part | topic | ftopic | kick
  | rename | mode | fmode | ijoin | setname | redact =>
    -- these look at the source and the parameters first, and then ask for the link
    simp only [handle, linkKillRecv, linkInviteRecv, linkAddlineRecv, linkDellineRecv,
      linkMessageRecv, linkJoinRecv, linkPartRecv, linkTopicRecv, linkFtopicRecv, linkKickRecv,
      linkRenameRecv, linkModeRecv, linkIjoinRecv, linkSetnameRecv, linkRedactRecv]
    rw [hsrc]
    split
    · rename_i hname _
      cases hname
      exact hs (by simp [hfg, sourcedVia_of_forged hfg])
    · exact .refl server
  | server | encap | burst | endburst => exact .refl server
  | fjoin | save | chghost | chgident | metadata | sasl | svsnick | svsjoin
  | svspart | svsmode | svslogin | svslogout | svshold | svstopic | svsoper
  | svscmode | squit | error => exact absurd (by decide) hverb

theorem ofWord_word {word : Str} (hverb : Verb.ofWord word = some verb) : verb.word = word := by
  simpa using List.find?_some hverb

theorem innermost_of_ne {command : Str} (hcmd : command ≠ Verb.encap.word)
    (params : List Str) : innermost command params = command := by
  unfold innermost
  split
  · simp [hcmd]
  · rfl

theorem onLinkFuel_forged (env : Env) (fuel : Nat) {uid : Uid}
    {message : Message} {server : Server} {source : Str}
    (hreg : server.isRegistered uid = true) (hsrc : message.source = some source)
    (hfg : server.sourceBehind source uid = false)
    (hword : ∀ verb ∈ Verb.unchecked, verb.word = innermost message.command message.params →
      verb.isServices = true ∧ server.sourceIsService message = false) :
    Inert server (onLinkFuel env fuel uid message server) := by
  induction fuel generalizing message server with
  | zero => exact .refl server
  | succ fuel ih =>
    have htch : Inert server (server.touchLink uid) := ⟨rfl, rfl, rfl, rfl⟩
    refine htch.trans ?_
    have hpl : ∀ {verb}, Verb.ofWord message.command = some verb → verb ≠ .encap →
        verb ∈ Verb.unchecked →
          verb.isServices = true ∧ server.sourceIsService message = false := by
      intro verb hverb hne hunchecked
      have hcmd := ofWord_word hverb
      rw [innermost_of_ne (by rw [← hcmd]; revert hne; cases verb <;> decide)] at hword
      exact hword verb hunchecked hcmd
    unfold onLinkFuel
    simp only [isRegistered_touchLink, hreg, if_true, true_and]
    split
    · exact .refl _
    · exact .refl _
    · rename_i hencap
      have hcmd := ofWord_word hencap
      refine linkEncap_rel (.refl _) (fun mask inner params hpar => ?_)
        (fun _ hinert => ⟨hinert.users, hinert.channels, hinert.remoteUsers, hinert.xlines⟩)
        fun _ => ⟨rfl, rfl, rfl, rfl⟩
      refine ih (by simpa using hreg) hsrc hfg fun verb hverb hs => ?_
      exact hword verb hverb (by simpa [hpar, innermost, ← hcmd, encapUnwrap] using hs)
    · exact ⟨rfl, rfl, rfl, rfl⟩
    · exact ⟨rfl, rfl, rfl, rfl⟩
    · rename_i hverb
      cases (hpl hverb (by decide) (by decide)).1
    · rename_i hverb
      cases (hpl hverb (by decide) (by decide)).1
    · rename_i verb _ hencap _ _ _ _ hverb
      split
      · rename_i hgate
        refine handle_forged env (fun hunchecked => ?_) hsrc hfg
        obtain ⟨hserv, hno⟩ := hpl hverb hencap hunchecked
        have hno : (server.touchLink uid).sourceIsService message = false := hno
        simp [hserv, hno] at hgate
      · exact .refl _

/-! ## A forged line for each of them -/

/--
A link 5 to `2BB`, a link 6 to the services server `9SV`, and a local user in a
channel.  Lines that claim to come from `9SV` arrive on link 5.
-/
def forgedTarget : Server where
  conf := { name := "a.test", sid := "1AA" }
  clock := 100
  users := AList.singleton 1
    { uuid := "1AAAAAAAA", nick := "ann", host := "host", signon := 1
      nickTs := 1, ip := "127.0.0.1", registered := true
      account := some "ann", saslMech := some "PLAIN", channels := ["#c"] }
  nickIndex := AList.singleton "ann" 1
  uuidLocal := AList.singleton "1AAAAAAAA" 1
  channels := AList.singleton "#c"
    { name := "#c", created := 50, members := AList.singleton 1 {}
      topic := some ⟨"text", "ann", 60⟩
      lists := fun kind =>
        if kind = .ban then [Ban.mk "*!*@host" [] 60 none] else [] }
  links := Table.ofList
    [(5, { outbound := false, registered := true, lastSeen := 0 }),
      (6, { outbound := false, registered := true, lastSeen := 0 })]
  servers := Table.ofList
    [("2BB", ⟨"2BB", "b.test", [], 5, false, false⟩),
      ("9SV", ⟨"9SV", "services.test", [], 6, true, false⟩)]
  remoteUsers := AList.singleton "2BBAAAAAA"
    ⟨"2BBAAAAAA", "bob", "u", "host", "real", none, "127.0.0.1", [], "2BB", 5, 1,
      none⟩

def forgedParams : Verb → List Str
  | .fjoin => ["#d", "50", "+n", ",2BBAAAAAA"]
  | .save => ["1AAAAAAAA", "1"]
  | .chghost | .chgident | .svsnick | .svslogin => ["1AAAAAAAA", "evil"]
  | .metadata => ["2BBAAAAAA", "accountname", "evil"]
  | .sasl => ["9SVAAAAAA", "1AAAAAAAA", "D"]
  | .svsjoin => ["1AAAAAAAA", "#d"]
  | .svspart => ["1AAAAAAAA", "#c"]
  | .svsmode => ["1AAAAAAAA", "+B"]
  | .svslogout => ["1AAAAAAAA"]
  | .svshold => ["evil", "0", "held"]
  | .svstopic => ["#c"]
  | .svsoper => ["1AAAAAAAA", "netadmin"]
  | .svscmode => ["1AAAAAAAA", "#c", "b"]
  | _ => []

def forgedLine (source : Str) (verb : Verb) : Message :=
  { source := some source, command := verb.word, params := forgedParams verb }

private def traces (server : Server) : List (Option Str) :=
  let user := server.users.lookup 1
  let channel := server.channels.lookup ("#c" : Str)
  [user.map User.nick, user.map User.ident, user.bind User.vhost,
    user.bind User.account, user.bind User.saslMech,
    user.map fun user => user.channels.flatten, user.map User.umodes,
    (channel.bind Channel.topic).map Topic.text,
    channel.map fun channel => ((channel.lists .ban).map Ban.mask).flatten,
    (server.channels.lookup ("#d" : Str)).map Channel.name,
    (server.remoteUsers.lookup ("2BBAAAAAA" : Str)).map fun remote =>
      remote.nick ++ remote.account.getD [],
    server.xlines.head?.map XLine.mask]

private theorem traces_of_inert {before after : Server}
    (hinert : Inert before after) : traces after = traces before := by
  simp only [traces, hinert.users, hinert.channels, hinert.remoteUsers, hinert.xlines]

private theorem traces_forged (service : Bool) (hverb : verb ∈ Verb.unchecked)
    (hserv : verb.isServices = true → service = true) :
    traces (forgedTarget.onLink { Env.plain with banListHit := fun _ _ _ => true } 5
      (forgedLine (if service then "9SV" else "8ZZ") verb)) ≠ traces forgedTarget := by
  revert hverb hserv service
  cases verb <;> decide

theorem onLink_forged_fjoin :
    forgedTarget.isRegistered 5 = true ∧
      forgedTarget.sourceBehind "9SV" 5 = false ∧
      forgedTarget.channels.lookup ("#d" : Str) = none ∧
      ((forgedTarget.onLink .plain 5 (forgedLine "9SV" .fjoin)).channels.lookup
        ("#d" : Str)).isSome = true := by
  decide

/-- Which command words are safe to receive with a forged source that is, or is not, one of
the services. -/
theorem onLink_forged_iff (word : Str) (service : Bool) :
    (∀ (env : Env) (server : Server) (uid : Uid) (message : Message)
        (source : Str), server.isRegistered uid = true →
      message.source = some source → server.sourceBehind source uid = false →
      innermost message.command message.params = word →
      server.sourceIsService message = service →
      Inert server (server.onLink env uid message)) ↔
      ∀ verb ∈ Verb.unchecked, verb.word = word → verb.isServices = true ∧ service = false := by
  constructor
  · rintro hinert verb hverb rfl
    have hcmd : verb.word ≠ Verb.encap.word := by
      revert hverb
      cases verb <;> decide
    by_contra hacts
    refine traces_forged service hverb ?_ (traces_of_inert (hinert _ forgedTarget 5
      (forgedLine _ verb) _ (by decide) rfl ?_ (innermost_of_ne hcmd _) ?_))
    · simpa using hacts
    · cases service <;> decide
    · cases service <;> rfl
  · rintro hword env server uid message source hreg hsrc hfg rfl rfl
    exact onLinkFuel_forged env _ hreg hsrc hfg hword

end Server

end EchoIrcd
