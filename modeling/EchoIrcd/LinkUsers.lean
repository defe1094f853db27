import EchoIrcd.Link

/-!
# Remote users

The handlers of `link.rs` for lines about users: introduction, nick changes,
collisions and their `SAVE` lines, quits and kills, and the fields of a remote
user that a peer may change.
-/

namespace EchoIrcd

open Str

/-! ## Nick collisions -/

def collisionDecision (localTs remoteTs : Timestamp) (samePerson : Bool) :
    Bool × Bool :=
  if remoteTs = localTs then (true, true)
  else if (samePerson ∧ remoteTs < localTs) ∨
      (!samePerson ∧ remoteTs > localTs) then (false, true)
  else (true, false)

namespace Server

section

variable (via : Uid) (message : Message) (server : Server)

def resolveCollision (uid : Uid) (remoteTs : Timestamp) (remoteIdent remoteIp remoteUuid : Str)
    (remoteIsService : Bool) (server : Server) : Server × Bool :=
  match server.users.lookup uid with
  | none => (server, true)
  | some user =>
    let same := user.ident = remoteIdent ∧ user.ip = remoteIp
    let (changeLocal, changeRemote) :=
      if remoteIsService then (true, false)
      else collisionDecision user.nickTs remoteTs same
    let server := if changeLocal then server.setNick uid user.uuid else server
    let server := if changeRemote then
        server.linkOut via (.save server.conf.sid remoteUuid remoteTs)
      else server
    (server, changeRemote)

def saveRemoteUser (uuid : Str) (server : Server) : Server :=
  match server.remoteUsers.lookup uuid with
  | none => server
  | some remote =>
    let renamed := { server with
      remoteUsers := server.remoteUsers.insert uuid
        { remote with nick := uuid } }
    if eqIgnoreAsciiCase remote.nick uuid then renamed
    else
      propagate (.save server.conf.sid uuid remote.nickTs) none { renamed with
        remoteNick := (server.remoteNick.erase (toAsciiLower remote.nick)).insert
          (toAsciiLower uuid) uuid }

def resolveRemoteCollision (existing : Str) (remoteTs : Timestamp)
    (remoteIdent remoteIp remoteUuid remoteSid : Str) (server : Server) : Server × Bool :=
  match server.remoteUsers.lookup existing with
  | none => (server, false)
  | some other =>
    let same := other.ident = remoteIdent ∧ other.ip = remoteIp
    let (changeExisting, changeIncoming) :=
      if server.serverIsService remoteSid then (true, false)
      else if server.uuidIsService existing then (false, true)
      else collisionDecision other.nickTs remoteTs same
    let server := if changeExisting then server.saveRemoteUser existing
      else server
    let server := if changeIncoming then
        server.linkOut via (.save server.conf.sid remoteUuid remoteTs)
      else server
    (server, changeIncoming)

def contestLocal (nick : Str) (remoteTs : Timestamp) (ident ip uuid : Str) (service : Bool)
    (server : Server) : Server × Bool :=
  match server.findNick nick with
  | some uid =>
    server.resolveCollision via uid remoteTs ident ip uuid service
  | none => (server, false)

def contestRemote (nick : Str) (remoteTs : Timestamp) (ident ip uuid sid : Str)
    (server : Server) : Server × Bool :=
  match server.remoteNick.lookup (toAsciiLower nick) with
  | some existing =>
    if existing ≠ uuid then
      server.resolveRemoteCollision via existing remoteTs ident ip uuid sid
    else (server, false)
  | none => (server, false)

/-! ## Introduction -/

def uidAcceptable (via : Uid) (sid uuid : Str) : Bool :=
  server.sourceBehind sid via && byteLength sid = 3 && byteLength uuid = 9 &&
    sid.isPrefixOf uuid && !(uuid ∈ server.remoteUsers : Bool)

def arbitrateNick (nick : Str) (nickTs : Timestamp) (ident ip uuid sid : Str)
    (server : Server) : Server × Str :=
  let first := server.contestLocal via nick nickTs ident ip uuid
    (server.serverIsService sid)
  let firstNick := if first.2 then uuid else nick
  let second := first.1.contestRemote via firstNick nickTs ident ip uuid sid
  (second.1, if second.2 then uuid else firstNick)

@[simps]
def enterRemoteUser (remote : RemoteUser) (server : Server) : Server :=
  { server with
    remoteNick := server.remoteNick.insert (toAsciiLower remote.nick) remote.uuid
    remoteUsers := server.remoteUsers.insert remote.uuid remote }

def linkUidRecv : Server :=
  match message.params with
  | uuid :: ts :: nick :: _ :: host :: _ :: ident :: ip :: _ :: modes ::
      more :: rest =>
      let sid := message.source.getD []
      if server.uidAcceptable via sid uuid then
        let nickTs := (parseU64 ts).getD server.clock
        let contested := server.arbitrateNick via nick nickTs ident ip uuid sid
        (contested.1.enterRemoteUser
          { uuid := uuid, nick := contested.2, ident := ident, host := host
            realname := (more :: rest).getLast (List.cons_ne_nil _ _)
            ip := ip, modes := modes.dropWhile (· = '+'), sid := sid
            via := via, nickTs := nickTs }).propagate
          (.forward { message with
            params := message.params.set 2 contested.2
            ctags := [], label := none, batch := none, concat := false })
          (some via)
      else server
  | _ => server

/-! ## Renames -/

def linkSaveRecv : Server :=
  match message.params with
  | target :: ts :: _ =>
    match server.uuidLocal.lookup target with
    | some uid =>
      match server.users.lookup uid with
      | some user =>
        if user.nickTs = (parseU64 ts).getD 0 then
          server.setNick uid user.uuid
        else server
      | none => server
    | none => server.forwardToTarget target message via
  | _ => server

@[simps]
def renameRemote (uuid old new : Str) (ts : Timestamp) (server : Server) :
    Server :=
  { server with
    remoteUsers := Table.modify uuid (fun remote =>
      { remote with nick := new, nickTs := ts }) server.remoteUsers
    remoteNick := (server.remoteNick.erase (toAsciiLower old)).insert
      (toAsciiLower new) uuid }

def linkNickRecv : Server :=
  match message.source, message.params with
  | some uuid, newnick :: rest =>
    match server.remoteUsers.lookup uuid with
    | none => server
    | some remote =>
      if remote.via ≠ via then server
      else
        let ts := (rest.head?.bind parseU64).getD server.clock
        let first := server.contestLocal via newnick ts remote.ident
          remote.ip uuid (server.uuidIsService uuid)
        if first.2 then first.1
        else
          let second := first.1.contestRemote via newnick ts remote.ident
            remote.ip uuid remote.sid
          if second.2 then second.1
          else
            (second.1.renameRemote uuid remote.nick newnick ts).propagate
              (.nick uuid newnick ts) (some via)
  | _, _ => server

/-! ## Departures -/

def linkQuitRecv : Server :=
  match message.source with
  | some uuid =>
    if server.sourcedVia uuid via then
      (server.dropRemoteUser uuid).propagate
        (.quit uuid (message.params.head?.getD [])) (some via)
    else server
  | none => server

def linkKillRecv : Server :=
  match message.source, message.params with
  | some source, target :: reason :: _ =>
    if server.sourceBehind source via then
      match server.linkLocalTarget target with
      | some uid => server.removeUser uid ("Killed (" ++ reason ++ ")")
      | none => server.forwardToTarget target message via
    else server
  | _, _ => server

/-! ## Fields of a remote user -/

@[simps]
def changeRemote (uuid : Str) (change : RemoteUser → RemoteUser)
    (server : Server) : Server :=
  { server with remoteUsers := Table.modify uuid change server.remoteUsers }

def linkAwayRecv : Server :=
  match message.source with
  | some uuid =>
    if server.sourcedVia uuid via then
      let reason := message.params.head?.filter (· ≠ [])
      (server.changeRemote uuid fun remote =>
        { remote with away := reason }).propagate (.away uuid reason) (some via)
    else server
  | none => server

def linkSetnameRecv : Server :=
  match message.source, message.params with
  | some uuid, realname :: _ =>
    if server.sourcedVia uuid via then
      (server.changeRemote uuid fun remote =>
        { remote with realname := realname }).propagate
        (.setname uuid realname) (some via)
    else server
  | _, _ => server

def linkOpertypeRecv : Server :=
  match message.source with
  | some uuid =>
    if server.sourcedVia uuid via then
      server.changeRemote uuid fun remote =>
        { remote with
          modes := if 'o' ∈ remote.modes then remote.modes
            else remote.modes ++ ['o'] }
    else server
  | none => server

def applyRemoteHostIdent (target : Str) (newIdent newHost : Option Str)
    (server : Server) : Server :=
  match server.remoteTarget target with
  | some uuid => server.changeRemote uuid fun remote =>
    { remote with
      ident := newIdent.getD remote.ident
      host := newHost.getD remote.host }
  | none => server

/-- An `ident@host` value carries both parts. -/
def splitHost (value : Str) : Option Str × Option Str :=
  match splitOnce '@' value with
  | some (ident, host) =>
    if ident ≠ [] ∧ host ≠ [] then (some ident, some host)
    else (none, some value)
  | none => (none, some value)

def changeHostRecv (target : Str) (parts : Option Str × Option Str) (server : Server) : Server :=
  match server.linkLocalTarget target with
  | some uid => server.changeHostIdentQuiet uid parts.1 parts.2
  | none =>
    (server.applyRemoteHostIdent target parts.1 parts.2).forwardToTarget
      target message via

def linkChghostRecv : Server :=
  match message.params with
  | target :: host :: _ => server.changeHostRecv via message target (splitHost host)
  | _ => server

def linkChgidentRecv : Server :=
  match message.params with
  | target :: ident :: _ => server.changeHostRecv via message target (some ident, none)
  | _ => server

end

/-- The empty value, `*` and `0` stand for no account. -/
def accountOf (value : Str) : Option Str :=
  if value = [] ∨ value = "*" ∨ value = "0" then none else some value

def applyRemoteAccount (target value : Str) (via : Uid) (server : Server) :
    Server × Bool :=
  match server.remoteTarget target with
  | none => (server, false)
  | some uuid =>
    match server.remoteUsers.lookup uuid with
    | none => (server, false)
    | some remote =>
      if remote.via ≠ via ∨ remote.account = accountOf value then
        (server, false)
      else (server.changeRemote uuid fun remote =>
        { remote with account := accountOf value }, true)

end Server

end EchoIrcd
