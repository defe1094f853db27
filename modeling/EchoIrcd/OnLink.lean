import EchoIrcd.LinkChannels

/-!
# The link dispatcher

The remaining handlers of `link.rs` (services commands, metadata, SASL, x-lines,
messages) and `on_link`, which picks the handler for a line.  An `ENCAP` line
that is addressed to us is unwrapped and dispatched again with the same source;
each level consumes two parameters.
-/

namespace EchoIrcd

open Str

def validNick (nick : Str) (maxlen : Nat) : Bool :=
  let special := fun char : Char => char ∈ ("[]\\`_^\x7b\x7d|" : Str)
  match nick with
  | first :: _ =>
    (first.isAlpha || special first) && byteLength nick ≤ maxlen &&
      nick.all fun char => char.isAlphanum || special char || char = '-'
  | [] => false

namespace Server

/-! ## Services commands -/

section

variable (env : Env) (via : Uid) (message : Message) (server : Server)

def onTarget (target : Str) (act : Uid → Server → Server) (server : Server) : Server :=
  match server.linkLocalTarget target with
  | some uid => act uid server
  | none => server.forwardToTarget target message via

def linkSvsnick : Server :=
  match message.params with
  | target :: newnick :: _ =>
    server.onTarget via message target fun uid server =>
      if !validNick newnick server.conf.maxnick ∨
          (server.findNick newnick).isSome ∨
          toAsciiLower newnick ∈ server.remoteNick then server
      else server.setNick uid newnick
  | _ => server

def linkSvsjoin : Server :=
  match message.params with
  | target :: chan :: _ =>
    server.onTarget via message target fun uid server =>
      server.join env uid chan
  | _ => server

def linkSvspart : Server :=
  match message.params with
  | target :: chan :: rest =>
    server.onTarget via message target fun uid server =>
      server.forcePart uid chan (rest.head?.getD "Services forced part")
  | _ => server

def linkSvsmode : Server :=
  match message.params with
  | target :: modes :: _ =>
    if target.head? = some '#' then server
    else server.onTarget via message target fun uid server =>
      server.svsSetUserModes uid modes
  | _ => server

def linkSvslogin : Server :=
  match message.params with
  | target :: account :: _ =>
    server.onTarget via message target fun uid server =>
      if account = "*" ∨ account = "0" then server.logout uid
      else server.setLogin uid account
  | _ => server

def linkSvslogout : Server :=
  match message.params with
  | target :: _ =>
    server.onTarget via message target fun uid server => server.logout uid
  | [] => server

def linkSetter (message : Message) : Str :=
  match message.source with
  | none => "services"
  | some source =>
    match server.remoteUsers.lookup source with
    | some remote => remote.nick
    | none =>
      match (server.uuidLocal.lookup source).bind server.users.lookup with
      | some user => user.nick
      | none => source

def linkSvshold : Server :=
  match message.params with
  | [nick] =>
    (server.removeXline .svshold nick).propagate (.forward message) (some via)
  | nick :: duration :: reason :: _ =>
    match parseDuration duration with
    | some duration =>
      (server.addXlineAt env .svshold nick duration
        (server.linkSetter message) reason server.clock).propagate
        (.forward message) (some via)
    | none => server
  | _ => server

def linkSvstopic : Server :=
  match message.params with
  | [] => server
  | chan :: rest =>
    let key := toAsciiLower chan
    if key ∈ server.channels then
      let topic := match rest with
        | ts :: setter :: text :: _ =>
          if text = [] then none
          else some ⟨text, setter, (parseU64 ts).getD server.clock⟩
        | _ => none
      (server.setTopic key topic).propagate (.forward message) (some via)
    else server

def linkSvsoper : Server :=
  match message.params with
  | target :: _ :: _ =>
    server.onTarget via message target fun uid server =>
      if server.isOper uid then server else server.operUp env uid
  | _ => server

def svscmodeRemovals (uid : Uid) (channel : Channel) (letters : Str) : List (Char × Str) :=
  letters.flatMap fun letter =>
    match maskKind letter with
    | some kind => ((channel.lists kind).filter (env.banListHit server uid)).map
        fun ban => (letter, ban.mask)
    | none => []

def linkSvscmode : Server :=
  match message.params with
  | target :: chan :: letters :: _ =>
    server.onTarget via message target fun uid server =>
      match server.channels.lookup (toAsciiLower chan) with
      | some channel =>
        (server.svscmodeRemovals env uid channel letters).foldl
          (fun server entry =>
            server.svsSetChanModes chan ['-', entry.1] [entry.2]) server
      | none => server
  | _ => server

/-! ## Metadata and SASL -/

def profileKeys : List Str := ["avatar", "bio", "pronouns", "timezone", "url"]

@[simps]
def setProfile (uid : Uid) (key value : Str) (server : Server) : Server :=
  let profile := (server.profiles.lookup uid).getD ∅
  { server with
    profiles := if value = [] then
        Table.modify uid (fun profile => profile.erase key) server.profiles
      else server.profiles.insert uid (profile.insert key value) }

def applyMetadata (uid : Uid) (key value : Str) (server : Server) : Server :=
  if key = "accountname" then
    if value = [] ∨ value = "*" then server.logout uid
    else server.setLogin uid value
  else if key ∈ profileKeys then server.setProfile uid key value
  else if key = "swhois" then server.changeUser uid fun user =>
    { user with swhois := if value = [] then none else some value }
  else if key = "signore" then server.changeUser uid fun user =>
    { user with signore := (value.splitOn ' ').filter (· ≠ []) }
  else server

def linkMetadata : Server :=
  match message.params with
  | target :: key :: value :: _ =>
    if target = "*" then
      (if key = "filter" then server.applyFilterMetadata env value
        else server).propagate (.forward message) (some via)
    else
      match server.linkLocalTarget target with
      | some uid =>
        if server.sourceIsService message then server.applyMetadata uid key value
        else server
      | none =>
        if key = "accountname" then
          let (server, changed) := server.applyRemoteAccount target value via
          if changed then server.propagate (.forward message) (some via)
          else server
        else server.forwardToTarget target message via
  | _ => server

def linkSasl : Server :=
  match message.params with
  | _ :: client :: mode :: _ =>
    match server.uuidLocal.lookup client with
    | some uid =>
      if mode = "D" then
        server.changeUser uid fun user => { user with saslMech := none }
      else server
    | none => server.forwardToTarget client message via
  | _ => server

def linkStdreplyRecv : Server :=
  match message.params with
  | target :: _ :: _ :: _ :: _ :: _ =>
    if target ∈ server.uuidLocal then server
    else server.forwardToTarget target message via
  | _ => server

/-! ## X-lines and messages -/

def linkAddlineRecv : Server :=
  match message.source, message.params with
  | some source, tag :: mask :: setter :: setAt :: duration :: reason :: _ =>
    if server.sourceBehind source via then
      match XKind.fromTag tag, parseU64 duration with
      | some kind, some duration =>
        (server.addXlineAt env kind mask duration setter reason
          ((parseU64 setAt).getD server.clock)).propagate
          (.forward message) (some via)
      | _, _ => server
    else server
  | _, _ => server

def linkDellineRecv : Server :=
  match message.source, message.params with
  | some source, tag :: mask :: _ =>
    if server.sourceBehind source via then
      match XKind.fromTag tag with
      | some kind =>
        if server.hasXline kind mask then
          (server.removeXline kind mask).propagate (.forward message)
            (some via)
        else server
      | none => server
    else server
  | _, _ => server

/-- The links behind which a channel has members, other than `except`. -/
def channelLinkTargets (key : Str) (except : Uid) : List Uid :=
  match server.channels.lookup key with
  | some channel =>
    ((Table.toPairs channel.rmembers).filterMap fun entry =>
      (server.remoteUsers.lookup entry.1).bind fun remote =>
        if remote.via ≠ except then some remote.via else none).dedup
  | none => []

def relayToChannel (key : Str) (via : Uid) (out : Out) (server : Server) :
    Server :=
  (server.channelLinkTargets key via).foldl
    (fun server uid => server.linkOut uid out) server

def linkMessageRecv : Server :=
  match message.source, message.params with
  | some source, target :: text :: _ =>
    if !server.sourceBehind source via then server
    else if target.head? = some '#' then
      let key := toAsciiLower target
      if key ∈ server.channels then
        server.relayToChannel key via
          (.message source message.command target text)
      else server
    else if target ∈ server.uuidLocal then server
    else server.forwardToTarget target message via
  | _, _ => server

def linkRedactRecv : Server :=
  match message.source, message.params with
  | some source, target :: _ :: _ =>
    let key := toAsciiLower target
    if server.sourceBehind source via ∧ target.head? = some '#' ∧
        key ∈ server.channels then
      server.relayToChannel key via (.forward message)
    else server
  | _, _ => server

end

end Server

/-! ## Dispatch -/

inductive Verb where
  | server | ping | uid | nick | quit | kill | save | invite | addline | delline
  | privmsg | notice | join | part | topic | ftopic | kick | rename | mode
  | fmode | fjoin | ijoin | svsnick | svsjoin | svspart | svsmode | svslogin
  | svslogout | svshold | svstopic | svsoper | svscmode | encap | metadata
  | chghost | chgident | away | setname | swstdrpl | opertype | redact | sasl
  | burst | endburst | squit | error
  deriving DecidableEq, Repr

namespace Verb

def all : List Verb :=
  [server, ping, uid, nick, quit, kill, save, invite, addline, delline,
    privmsg, notice, join, part, topic, ftopic, kick, rename, mode, fmode,
    fjoin, ijoin, svsnick, svsjoin, svspart, svsmode, svslogin, svslogout,
    svshold, svstopic, svsoper, svscmode, encap, metadata, chghost, chgident,
    away, setname, swstdrpl, opertype, redact, sasl, burst, endburst, squit,
    error]

def word : Verb → Str
  | server => "SERVER"
  | ping => "PING"
  | uid => "UID"
  | nick => "NICK"
  | quit => "QUIT"
  | kill => "KILL"
  | save => "SAVE"
  | invite => "INVITE"
  | addline => "ADDLINE"
  | delline => "DELLINE"
  | privmsg => "PRIVMSG"
  | notice => "NOTICE"
  | join => "JOIN"
  | part => "PART"
  | topic => "TOPIC"
  | ftopic => "FTOPIC"
  | kick => "KICK"
  | rename => "RENAME"
  | mode => "MODE"
  | fmode => "FMODE"
  | fjoin => "FJOIN"
  | ijoin => "IJOIN"
  | svsnick => "SVSNICK"
  | svsjoin => "SVSJOIN"
  | svspart => "SVSPART"
  | svsmode => "SVSMODE"
  | svslogin => "SVSLOGIN"
  | svslogout => "SVSLOGOUT"
  | svshold => "SVSHOLD"
  | svstopic => "SVSTOPIC"
  | svsoper => "SVSOPER"
  | svscmode => "SVSCMODE"
  | encap => "ENCAP"
  | metadata => "METADATA"
  | chghost => "CHGHOST"
  | chgident => "CHGIDENT"
  | away => "AWAY"
  | setname => "SETNAME"
  | swstdrpl => "SWSTDRPL"
  | opertype => "OPERTYPE"
  | redact => "REDACT"
  | sasl => "SASL"
  | burst => "BURST"
  | endburst => "ENDBURST"
  | squit => "SQUIT"
  | error => "ERROR"

def ofWord (word : Str) : Option Verb := all.find? (·.word = word)

theorem ofWord_word (verb : Verb) : ofWord verb.word = some verb := by
  cases verb <;> rfl

def isServices (verb : Verb) : Bool :=
  verb ∈ [svsnick, svsjoin, svspart, svsmode, svslogin, svslogout, svshold,
    svstopic, svsoper, svscmode]

end Verb

namespace Server

def isRegistered (server : Server) (uid : Uid) : Bool :=
  match server.links.lookup uid with
  | some link => link.registered
  | none => false

def handle (env : Env) (verb : Verb) (uid : Uid) (message : Message)
    (server : Server) : Server :=
  match verb with
  | .ping => server.linkOut uid (.pong (message.params.head?.getD []))
  | .uid => server.linkUidRecv uid message
  | .nick => server.linkNickRecv uid message
  | .quit => server.linkQuitRecv uid message
  | .kill => server.linkKillRecv uid message
  | .save => server.linkSaveRecv uid message
  | .invite => server.linkInviteRecv uid message
  | .addline => server.linkAddlineRecv env uid message
  | .delline => server.linkDellineRecv uid message
  | .privmsg | .notice => server.linkMessageRecv uid message
  | .join => server.linkJoinRecv uid message
  | .part => server.linkPartRecv uid message
  | .topic => server.linkTopicRecv uid message
  | .ftopic => server.linkFtopicRecv uid message
  | .kick => server.linkKickRecv uid message
  | .rename => server.linkRenameRecv uid message
  | .mode | .fmode => server.linkModeRecv uid message
  | .fjoin => server.linkFjoinRecv uid message
  | .ijoin => server.linkIjoinRecv uid message
  | .svsnick => server.linkSvsnick uid message
  | .svsjoin => server.linkSvsjoin env uid message
  | .svspart => server.linkSvspart uid message
  | .svsmode => server.linkSvsmode uid message
  | .svslogin => server.linkSvslogin uid message
  | .svslogout => server.linkSvslogout uid message
  | .svshold => server.linkSvshold env uid message
  | .svstopic => server.linkSvstopic uid message
  | .svsoper => server.linkSvsoper env uid message
  | .svscmode => server.linkSvscmode env uid message
  | .metadata => server.linkMetadata env uid message
  | .chghost => server.linkChghostRecv uid message
  | .chgident => server.linkChgidentRecv uid message
  | .away => server.linkAwayRecv uid message
  | .setname => server.linkSetnameRecv uid message
  | .swstdrpl => server.linkStdreplyRecv uid message
  | .opertype => server.linkOpertypeRecv uid message
  | .redact => server.linkRedactRecv uid message
  | .sasl => server.linkSasl uid message
  | .server | .encap | .burst | .endburst | .squit | .error => server

def serverLink (server : Server) (mask : Str) : Option Uid :=
  ((Table.toPairs server.servers).find? fun entry =>
    entry.2.sid = mask ∨ eqIgnoreAsciiCase entry.2.name mask).map (·.2.via)

def encapUnwrap (source : Option Str) (command : Str) (params : List Str) :
    Message :=
  { source := source, command := toAsciiUpper command, params := params }

def linkEncap (env : Env) (dispatch : Message → Server → Server) (uid : Uid)
    (message : Message) (server : Server) : Server :=
  match message.params with
  | mask :: command :: params =>
    let inner := encapUnwrap message.source command params
    if mask = "*" then
      (dispatch inner server).propagate (.forward message) (some uid)
    else if mask = server.conf.sid ∨ globMatch env mask server.conf.name then
      dispatch inner server
    else
      match server.serverLink mask with
      | some via =>
        if via ≠ uid then server.linkOut via (.forward message) else server
      | none => server
  | _ => server

def touchLink (uid : Uid) (server : Server) : Server :=
  server.changeLink uid fun link => { link with lastSeen := server.clock }

@[simp] theorem isRegistered_touchLink (server : Server) (uid other : Uid) :
    (server.touchLink uid).isRegistered other = server.isRegistered other := by
  simp only [isRegistered, touchLink, changeLink_links, Table.lookup_modify]
  by_cases hself : other = uid
  · subst hself
    cases server.links.lookup other <;> simp
  · simp [hself]

def onLinkFuel (env : Env) : Nat → Uid → Message → Server → Server
  | 0, _, _, server => server
  | fuel + 1, uid, message, server =>
    let server := server.touchLink uid
    let registered := server.isRegistered uid
    match Verb.ofWord message.command with
    | none => server
    | some .server =>
      if registered then server else server.linkServer env uid message
    | some .encap =>
      if registered then
        server.linkEncap env (onLinkFuel env fuel uid) uid message
      else server
    | some .burst => server.changeLink uid fun link =>
      { link with bursting := true }
    | some .endburst => server.changeLink uid fun link =>
      { link with bursting := false }
    | some .squit | some .error => server.closeLink uid
    | some verb =>
      if registered ∧ (!verb.isServices ∨ server.sourceIsService message) then
        server.handle env verb uid message
      else server

/-- Each ENCAP level drops two parameters, so their number is enough fuel. -/
def onLink (env : Env) (uid : Uid) (message : Message) (server : Server) :
    Server :=
  onLinkFuel env (message.params.length + 1) uid message server

end Server

end EchoIrcd
