import EchoIrcd.Lib.Tally
import EchoIrcd.NickRuns
import EchoIrcd.OperBlock

/-!
# Connections and their counters

What the core keeps about a connection besides its user record, and the
counters that admission reads instead of scanning the users (`connclass.rs`,
`connguard.rs`): connections per address, per class and per address and class,
and the connections that have not registered.  Every function that adds or
removes a user, changes its address or its class also moves the counters.
-/

namespace EchoIrcd

open Str

inductive LobbyCommand where
  | nick
  | user
  | webirc
  | cap
  | pass
  | pong
  | quit
  /-- open to an unregistered client, without effect here: PING, AWAY, ... -/
  | idle
  /-- only for registered clients, or not known at all -/
  | other
  deriving DecidableEq, Repr

def LobbyCommand.minParams : LobbyCommand → Nat
  | .user | .webirc => 4
  | .cap | .pass => 1
  | _ => 0

structure ClientLine where
  command : LobbyCommand
  params : List Str
  deriving DecidableEq, Repr

/-- The fields of a local user that only admission reads. -/
structure Session where
  port : Nat := 0
  connClass : Option Str := none
  pass : Option Str := none
  cap : Bool := false
  dnsPending : Bool := false
  identPending : Bool := false
  authPending : Bool := false
  waitpong : Option Str := none
  identResult : Option (Option Str) := none
  deferred : List ClientLine := []

structure CloneCounts where
  perIp : Tally Str := ∅
  perClass : Tally Str := ∅
  perIpClass : Tally (Str × Str) := ∅

namespace CloneCounts

def countConnect (ip : Str) (counts : CloneCounts) : CloneCounts :=
  { counts with perIp := counts.perIp.inc ip }

def leaveClass (ip name : Str) (counts : CloneCounts) : CloneCounts :=
  { counts with
    perClass := counts.perClass.dec name
    perIpClass := counts.perIpClass.dec (ip, name) }

def enterClass (ip name : Str) (counts : CloneCounts) : CloneCounts :=
  { counts with
    perClass := counts.perClass.inc name
    perIpClass := counts.perIpClass.inc (ip, name) }

def countDisconnect (ip : Str) (connClass : Option Str) (counts : CloneCounts) :
    CloneCounts :=
  let counts := { counts with perIp := counts.perIp.dec ip }
  match connClass with
  | some name => counts.leaveClass ip name
  | none => counts

theorem countDisconnect_perIp (ip : Str) (connClass : Option Str) (counts : CloneCounts) :
    (counts.countDisconnect ip connClass).perIp = counts.perIp.dec ip := by
  cases connClass <;> rfl

def changeIp (old new : Str) (connClass : Option Str) (counts : CloneCounts) :
    CloneCounts :=
  if old = new then counts
  else
    let counts := { counts with perIp := (counts.perIp.dec old).inc new }
    match connClass with
    | some name =>
      { counts with
        perIpClass := (counts.perIpClass.dec (old, name)).inc (new, name) }
    | none => counts

end CloneCounts

structure WebircBlock where
  password : Str
  ipmask : Str

/-- The settings admission reads; they do not change during a run. -/
structure LobbyConf where
  connectclass : List Str := []
  connectclassRequired : Bool := false
  maxUnregistered : Int := 0
  useident : Bool := false
  requireident : Bool := false
  resolveHosts : Bool := false
  useResolvedHost : Bool := true
  dnsblZones : List Str := []
  webirc : List WebircBlock := []
  connWaitpong : Bool := false
  waitpongKillonbadreply : Bool := false
  rlineMatchonnickchange : Bool := false

namespace LobbyConf

def classes (conf : LobbyConf) : List ConnClass := classesOf conf.connectclass

def named (conf : LobbyConf) (name : Str) : Option ConnClass :=
  namedClass conf.connectclass name

end LobbyConf

/--
What admission calls but this development does not open up: regular
expressions, address parsing and CIDR ranges, the AS and country databases and
the digests of passwords.
-/
structure LobbyEnv where
  core : Env
  regexMatch : Str → Str → Bool
  parseIp : Str → Option Str
  isLocalIp : Str → Bool
  waitpongExemptIp : Str → Bool
  maskMatch : Str → Str → Str → Bool
  asnOf : Str → Option Nat
  countryOf : Str → Option Str
  hashing : Hashing

/-- The state admission works on, with a log of the registrations completed. -/
structure Lobby where
  server : Server
  sessions : Table Uid Session := ∅
  counts : CloneCounts := {}
  unregistered : Nat := 0
  admitted : List (Uid × Server) := []

namespace Lobby

section

variable (lobby : Lobby) (ip : Str) (uid : Uid)

def classOf : Option Str :=
  (lobby.sessions.lookup uid).bind Session.connClass

def changeUser (uid : Uid) (change : User → User) (lobby : Lobby) : Lobby :=
  { lobby with server := lobby.server.changeUser uid change }

def changeSession (change : Session → Session) (lobby : Lobby) : Lobby :=
  { lobby with sessions := Table.modify uid change lobby.sessions }

/-! ## Classes -/

def setClass (name : Str) (lobby : Lobby) : Lobby :=
  match lobby.server.users.lookup uid, lobby.sessions.lookup uid with
  | some user, some session =>
    if session.connClass = some name then lobby
    else
      let counts := match session.connClass with
        | some old => lobby.counts.leaveClass user.ip old
        | none => lobby.counts
      { lobby with
        sessions := lobby.sessions.insert uid { session with connClass := some name }
        counts := counts.enterClass user.ip name }
  | _, _ => lobby

def classCount (name : Str) (uid : Uid) : Nat :=
  lobby.counts.perClass.get name - if lobby.classOf uid = some name then 1 else 0

def hasIp (ip : Str) : Bool :=
  match lobby.server.users.lookup uid with
  | some user => user.ip = ip
  | none => false

def localClones (name : Str) (uid : Uid) : Nat :=
  lobby.counts.perIpClass.get (ip, name) -
    if lobby.hasIp uid ip ∧ lobby.classOf uid = some name then 1 else 0

def globalClones : Nat :=
  let here := lobby.counts.perIp.get ip - if lobby.hasIp uid ip then 1 else 0
  here + ((Table.toPairs lobby.server.remoteUsers).filter (·.2.ip = ip)).length

inductive Pick where
  | chosen (connClass : ConnClass)
  | deny (name : Str)
  | none

def suits (env : LobbyEnv) (host : Str) (user : User) (port : Nat)
    (connClass : ConnClass) : Bool :=
  (connClass.allow.any fun mask => env.maskMatch mask user.ip host) &&
    (!connClass.ssl || user.secure) &&
    (!connClass.sslTrusted || user.certfp.isSome) &&
    (connClass.ports = [] || port ∈ connClass.ports) &&
    (connClass.asn = [] || (env.asnOf user.ip).any (· ∈ connClass.asn)) &&
    (connClass.countries = [] ||
      (env.countryOf user.ip).any fun country =>
        toAsciiUpper country ∈ connClass.countries)

def isFull (connClass : ConnClass) : Bool :=
  match connClass.limit with
  | some limit => limit ≤ lobby.classCount connClass.name uid
  | none => false

def pickFrom (env : LobbyEnv) (lobby : Lobby) (uid : Uid) (host : Str) (user : User)
    (port : Nat) : List ConnClass → Pick
  | [] => .none
  | connClass :: rest =>
    if !suits env host user port connClass then
      pickFrom env lobby uid host user port rest
    else if connClass.deny then .deny connClass.name
    else if lobby.isFull uid connClass then
      pickFrom env lobby uid host user port rest
    else .chosen connClass

def pick (env : LobbyEnv) (conf : LobbyConf) (uid : Uid) (host : Str) (user : User)
    (lobby : Lobby) : Pick :=
  let port := (lobby.sessions.lookup uid).elim 0 Session.port
  lobby.pickFrom env uid host user port conf.classes

def overLocal (connClass : ConnClass) (lobby : Lobby) : Bool :=
  connClass.localmax.any fun limit => limit ≤ lobby.localClones ip connClass.name uid

def overGlobal (connClass : ConnClass) (lobby : Lobby) : Bool :=
  connClass.globalmax.any fun limit => limit ≤ lobby.globalClones ip uid

end

def assign (env : LobbyEnv) (conf : LobbyConf) (uid : Uid) (lobby : Lobby) :
    Except Str Lobby :=
  match lobby.server.users.lookup uid with
  | none => .ok lobby
  | some user =>
    match lobby.pick env conf uid [] user with
    | .deny name =>
      .error ("Connection class " ++ name ++ " denies your address".toList)
    | .none =>
      if (conf.classes.any fun connClass => !connClass.deny) &&
          conf.connectclassRequired then
        .error "You are not allowed to connect to this server".toList
      else .ok lobby
    | .chosen connClass =>
      if lobby.overLocal user.ip uid connClass then
        .error "Too many connections from your address".toList
      else if lobby.overGlobal user.ip uid connClass then
        .error "Too many global connections from your address".toList
      else .ok (lobby.setClass uid connClass.name)

/-! ## Removal and bans -/

def removeUser (uid : Uid) (reason : Str) (lobby : Lobby) : Lobby :=
  match lobby.server.users.lookup uid with
  | none => lobby
  | some user =>
    { lobby with
      server := lobby.server.removeUser uid reason
      sessions := lobby.sessions.erase uid
      counts := lobby.counts.countDisconnect user.ip (lobby.classOf uid)
      unregistered :=
        if user.registered then lobby.unregistered else lobby.unregistered - 1 }

theorem removeUser_server (uid : Uid) (reason : Str) (lobby : Lobby) :
    (lobby.removeUser uid reason).server = lobby.server.removeUser uid reason := by
  unfold removeUser
  split
  · rename_i habs
    simp only [Server.removeUser, habs]
  · rfl

def refuseAll (victims : List (Uid × Str)) (lobby : Lobby) : Lobby :=
  victims.foldl (fun lobby victim => lobby.removeUser victim.1 victim.2) lobby

/-- The x-line list with a line added, in place of one with its kind and mask. -/
def withXline (kind : XKind) (mask : Str) (duration : UInt64) (setter reason : Str)
    (setAt : Timestamp) (server : Server) : Server :=
  let kept := server.xlines.filter fun xline => !(xline.kind = kind ∧ xline.mask = mask)
  let expires := if duration = 0 then 0 else saturatingAdd setAt duration
  { server with xlines := kept ++ [⟨kind, mask, reason, setter, expires, setAt⟩] }

def addXlineAt (env : LobbyEnv) (kind : XKind) (mask : Str) (duration : UInt64)
    (setter reason : Str) (setAt : Timestamp) (lobby : Lobby) : Lobby :=
  let server := withXline kind mask duration setter reason setAt lobby.server
  { lobby with server := server }.refuseAll (server.xlineVictims env.core)

end Lobby

end EchoIrcd
