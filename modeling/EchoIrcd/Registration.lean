import EchoIrcd.Expiry
import EchoIrcd.Lobby

/-!
# From a new connection to a registered client

A connection passes the hurdles of `add_conn`, is put into a class, and then
sends NICK, USER, WEBIRC and CAP lines while its host name, its ident and
perhaps its class password are looked up elsewhere.  Each line and each answer
ends in `try_register`.  The checks run in a fixed order: the modules, the
K-, G- and Z-lines, the ident reply, the R-lines, the class.  A slow class
password is checked outside the core, and its result welcomes the client
without repeating any check.
-/

namespace EchoIrcd

open Str

inductive ModResult where
  | passthru
  | allow
  | deny
  | hold
  deriving DecidableEq, Repr

def Server.nickRefused (env : Env) (gate : NickGate) (uid : Uid) (newnick : Str)
    (server : Server) : Bool :=
  !validNick newnick server.conf.maxnick ||
    (gate.locked server uid && !server.isOper uid) ||
    (!server.isOper uid && (server.nickReserved env newnick).isSome) ||
    (server.findNick newnick).isSome ||
    toAsciiLower newnick ∈ server.remoteNick ||
    gate.barred server uid

def Server.matchedRline (env : LobbyEnv) (server : Server) (nick ident host ip real : Str) :
    Option Str :=
  let form := fun place : Str => nick ++ '!' :: ident ++ '@' :: place ++ ' ' :: real
  (server.xlines.find? fun xline =>
    xline.kind = .rline && xline.active server.clock &&
      (env.regexMatch xline.mask (form host) || env.regexMatch xline.mask (form ip))).map
    fun xline => "R-lined: " ++ xline.reason ++
      env.core.banExpirySuffix xline.expires server.clock

def Server.requireAuth (env : Env) (server : Server) (user : User) : Option Str :=
  if user.flags .oper || user.account.isSome then none
  else
    (server.xlines.find? fun xline =>
      (xline.kind = .aline || xline.kind = .galine) && xline.active server.clock &&
        (globMatch env xline.mask (user.ident ++ '@' :: user.hostDisplay) ||
          globMatch env xline.mask user.ip)).map fun xline =>
      if xline.reason = [] then "You must be logged into an account to use this server"
      else xline.reason

def Server.userShunned (env : Env) (server : Server) (uid : Uid) : Bool :=
  match server.users.lookup uid with
  | some user =>
    let covered := fun kind => server.xlines.any
      (XLine.covers env server.clock kind (user.ident ++ '@' :: user.host) user.ip)
    !covered .eline && covered .shun
  | none => false

def identOf (text : Str) : Str :=
  let kept := (text.filter fun char =>
    char.isAlphanum || char ∈ ("-_." : Str)).take 10
  if kept = [] then "user" else kept

/-- What the world outside the core answers during one event. -/
structure Answers where
  denied : Lobby → Uid → ClientLine → Bool
  register : Lobby → Uid → ModResult
  started : Lobby → Uid → Bool
  nick : NickGate

namespace Lobby

variable (env : LobbyEnv) (conf : LobbyConf) (answers : Answers)

/-! ## Connecting -/

/-- A new connection, and what the hurdles outside this model say to it. -/
structure Arrival where
  uid : Uid
  uuid : Str
  ip : Str
  secure : Bool := false
  certfp : Option Str := none
  port : Nat := 0
  throttled : Bool := false
  locked : Bool := false
  redirected : Bool := false
  connectban : Option (Str × UInt64 × Str × Str) := none
  identSlot : Bool := true
  dnsSlot : Bool := true
  cookie : Str := []

section

variable (uid : Uid) (lobby : Lobby)

def isOverCap : Bool :=
  0 < conf.maxUnregistered && conf.maxUnregistered < lobby.unregistered

def ofClass {α : Type} (default : α) (pick : ConnClass → α) (uid : Uid)
    (lobby : Lobby) : α :=
  ((lobby.classOf uid).bind conf.named).elim default pick

def requiresIdent : Bool :=
  lobby.ofClass conf false ConnClass.requireident uid || conf.requireident

def startLookups (arrival : Arrival) (lobby : Lobby) : Lobby :=
  let uid := arrival.uid
  let useident := lobby.ofClass conf false ConnClass.useident uid || conf.useident
  let doRdns := conf.resolveHosts && lobby.ofClass conf true ConnClass.resolvehostnames uid
  let exempt := lobby.ofClass conf false ConnClass.waitpongexempt uid ||
    env.waitpongExemptIp arrival.ip
  lobby.changeSession uid fun session =>
    { session with
      identPending := (useident || lobby.requiresIdent conf uid) && arrival.identSlot
      dnsPending := (doRdns || conf.dnsblZones ≠ []) && arrival.dnsSlot
      waitpong := if conf.connWaitpong && !exempt then some arrival.cookie else none }

def enter (user : User) (session : Session) (lobby : Lobby) : Lobby :=
  { lobby with
    server := lobby.server.addConn uid user
    sessions := lobby.sessions.insert uid session
    counts := lobby.counts.countConnect user.ip
    unregistered := if user.registered then lobby.unregistered else lobby.unregistered + 1 }

def arrive (arrival : Arrival) (lobby : Lobby) : Lobby :=
  lobby.enter arrival.uid
    { uuid := arrival.uuid, host := arrival.ip, ip := arrival.ip
      secure := arrival.secure, certfp := arrival.certfp
      signon := lobby.server.clock, nickTs := lobby.server.clock }
    { port := arrival.port }

def connectban (arrival : Arrival) (lobby : Lobby) : Lobby :=
  match arrival.connectban with
  | some (mask, duration, setter, reason) =>
    lobby.addXlineAt env .zline mask duration setter reason lobby.server.clock
  | none => lobby

def addConn (arrival : Arrival) (lobby : Lobby) : Lobby :=
  let uid := arrival.uid
  let entered := lobby.arrive arrival
  if entered.isOverCap conf && !env.isLocalIp arrival.ip then
    entered.removeUser uid "Too many unregistered connections"
  else if arrival.throttled then entered.removeUser uid "Connection throttled"
  else if arrival.locked then entered.removeUser uid "Server locked"
  else if arrival.redirected then entered.removeUser uid "Redirected (jumpserver)"
  else
    let screened := entered.connectban env arrival
    match screened.assign env conf uid with
    | .error reason => screened.removeUser uid reason
    | .ok assigned => assigned.startLookups env conf arrival

def mintPuppet (uuid nick ident host realname : Str) (lobby : Lobby) : Lobby :=
  let puppet : User :=
    { uuid := uuid, nick := nick, ident := ident, host := host, realname := realname
      signon := lobby.server.clock, nickTs := lobby.server.clock, ip := "127.0.0.1"
      registered := true
      flags := Function.update (fun _ => false) .bot true }
  let entered := lobby.enter uid puppet {}
  { entered with
    server := { entered.server with
      nickIndex := entered.server.nickIndex.insert (toAsciiLower nick) uid
      }.introduceToLinks uid }

/-! ## Commands -/

def nick (uid : Uid) (params : List Str) (lobby : Lobby) : Lobby :=
  match params with
  | [] => lobby
  | newnick :: _ =>
    if lobby.server.nickRefused env.core answers.nick uid newnick then lobby
    else
      let renamed := { lobby with server := lobby.server.setNick uid newnick }
      match renamed.server.users.lookup uid with
      | some user =>
        match renamed.server.matchedRline env user.nick user.ident user.host user.ip
            user.realname with
        | some reason =>
          if conf.rlineMatchonnickchange then renamed.removeUser uid reason
          else renamed
        | none => renamed
      | none => renamed

def user (uid : Uid) (params : List Str) (lobby : Lobby) : Lobby :=
  match params with
  | name :: _ :: _ :: realname :: _ =>
    if lobby.server.isEnrolled uid then lobby
    else lobby.changeUser uid fun user =>
      { user with ident := '~' :: identOf name, realname := realname }
  | _ => lobby

def webirc (uid : Uid) (params : List Str) (lobby : Lobby) : Lobby :=
  match lobby.server.users.lookup uid, params with
  | some user, pass :: _ :: host :: ip :: _ =>
    let gateway := conf.webirc.find? fun block =>
      block.password = pass && block.ipmask ≠ [] && globMatch env.core block.ipmask user.ip
    if user.registered || gateway.isNone then lobby
    else
      match env.parseIp ip with
      | some new =>
        let moved := lobby.changeUser uid fun user => { user with host := host, ip := new }
        { moved with counts := moved.counts.changeIp user.ip new (moved.classOf uid) }
      | none => lobby.changeUser uid fun user => { user with host := host }
  | _, _ => lobby

def cap (uid : Uid) (params : List Str) (lobby : Lobby) : Lobby :=
  match params with
  | [] => lobby
  | subcommand :: _ =>
    let subcommand := toAsciiUpper subcommand
    if subcommand = "LS" ∨ subcommand = "REQ" then
      lobby.changeSession uid fun session => { session with cap := true }
    else if subcommand = "END" then
      lobby.changeSession uid fun session => { session with cap := false }
    else lobby

def pass (uid : Uid) (params : List Str) (lobby : Lobby) : Lobby :=
  match params with
  | [] => lobby
  | password :: _ =>
    if lobby.server.isEnrolled uid then lobby
    else lobby.changeSession uid fun session => { session with pass := some password }

def pong (params : List Str) (lobby : Lobby) : Lobby :=
  match (lobby.sessions.lookup uid).bind Session.waitpong with
  | none => lobby
  | some cookie =>
    if params.getLast?.getD [] = cookie then
      lobby.changeSession uid fun session => { session with waitpong := none }
    else if conf.waitpongKillonbadreply then
      lobby.removeUser uid "Incorrect ping reply"
    else lobby

def handle (line : ClientLine) (lobby : Lobby) : Lobby :=
  match line.command with
  | .nick => lobby.nick env conf answers uid line.params
  | .user => lobby.user uid line.params
  | .webirc => lobby.webirc env conf uid line.params
  | .cap => lobby.cap uid line.params
  | .pass => lobby.pass uid line.params
  | .pong => lobby.pong conf uid line.params
  | .quit => lobby.removeUser uid ("Quit: " ++ line.params.head?.getD "Client quit".toList)
  | .idle | .other => lobby

/-! ## Completing a registration -/

def applyIdent : Lobby :=
  match (lobby.sessions.lookup uid).bind Session.identResult with
  | some (some name) => lobby.changeUser uid fun user => { user with ident := identOf name }
  | _ => lobby

def unverified : Bool :=
  lobby.requiresIdent conf uid &&
    match lobby.server.users.lookup uid with
    | some user => user.ident = [] || user.ident.head? = some '~'
    | none => true

def finalize : Except Str Lobby :=
  let applied := lobby.applyIdent uid
  if applied.unverified conf uid then
    .error "Your connection class requires a valid ident response".toList
  else .ok applied

inductive AuthOutcome where
  | proceed
  | reject (reason : Str)
  | pending
  deriving DecidableEq, Repr

def finishRegister : Lobby :=
  match lobby.ofClass conf none ConnClass.modes uid with
  | some modes => { lobby with server := lobby.server.svsSetUserModes uid modes }
  | none => lobby

def checkPassword (connClass : ConnClass) (lobby : Lobby) : Lobby × AuthOutcome :=
  match connClass.password with
  | none => (lobby.finishRegister conf uid, .proceed)
  | some password =>
    if PasswordHash.isSlow password then
      if answers.started lobby uid then
        (lobby.changeSession uid fun session => { session with authPending := true }, .pending)
      else (lobby, .reject "Server busy, try again")
    else if ((lobby.sessions.lookup uid).bind Session.pass).any
        (PasswordHash.verify env.hashing password) then
      (lobby.finishRegister conf uid, .proceed)
    else (lobby, .reject "Password mismatch for your connection class")

def checkClass (user : User) (lobby : Lobby) : Lobby × AuthOutcome :=
  match (lobby.classOf uid).bind conf.named with
  | none => (lobby, .proceed)
  | some connClass =>
    if lobby.overLocal user.ip uid connClass || lobby.overGlobal user.ip uid connClass then
      (lobby, .reject "Too many connections from your address")
    else if connClass.sslTrusted && user.certfp.isNone then
      (lobby, .reject "Your connection class requires a client certificate")
    else lobby.checkPassword env conf answers uid connClass

/-- Pick the class again, now with the host name, and check what it asks for. -/
def onRegister : Lobby × AuthOutcome :=
  match lobby.server.users.lookup uid with
  | none => (lobby, .proceed)
  | some user =>
    match lobby.pick env conf uid user.host user with
    | .deny name =>
      (lobby, .reject ("Connection class " ++ name ++ " denies your address".toList))
    | .chosen connClass =>
      (lobby.setClass uid connClass.name).checkClass env conf answers uid user
    | .none => lobby.checkClass env conf answers uid user

def welcome (uid : Uid) (lobby : Lobby) : Lobby :=
  match lobby.server.users.lookup uid with
  | none => lobby
  | some user =>
    match lobby.server.requireAuth env.core user with
    | some _ => lobby.removeUser uid "Requires authentication"
    | none =>
      { lobby with
        server := lobby.server.welcome env.core uid
        unregistered :=
          if user.registered then lobby.unregistered else lobby.unregistered - 1
        admitted := lobby.admitted ++ [(uid, lobby.server.markRegistered uid)] }

def bannedXline : Option Str :=
  (lobby.server.users.lookup uid).bind fun user =>
    lobby.server.matchedXline env.core user.ident user.host user.ip

def bannedRline : Option Str :=
  (lobby.server.users.lookup uid).bind fun user =>
    lobby.server.matchedRline env user.nick user.ident user.host user.ip user.realname

def enroll : Lobby :=
  match lobby.bannedRline env uid with
  | some reason => lobby.removeUser uid reason
  | none =>
    match lobby.onRegister env conf answers uid with
    | (checked, .proceed) => checked.welcome env uid
    | (checked, .pending) => checked
    | (checked, .reject reason) => checked.removeUser uid reason

def completeRegistration : Lobby :=
  match answers.register lobby uid with
  | .deny => lobby.removeUser uid "Registration refused"
  | .hold => lobby
  | _ =>
    match lobby.bannedXline env uid with
    | some reason => lobby.removeUser uid reason
    | none =>
      match lobby.finalize conf uid with
      | .error reason => lobby.removeUser uid reason
      | .ok settled => settled.enroll env conf answers uid

def isReady : Bool :=
  match lobby.server.users.lookup uid, lobby.sessions.lookup uid with
  | some user, some session =>
    !user.registered && user.nick ≠ [] && user.ident ≠ [] && !session.cap &&
      !session.dnsPending && !session.identPending && !session.authPending &&
      session.waitpong.isNone
  | _, _ => false

def tryRegister : Lobby :=
  if lobby.isReady uid then lobby.completeRegistration env conf answers uid else lobby

/-! ## Lines -/

def dispatch (line : ClientLine) (lobby : Lobby) : Lobby :=
  let registered := lobby.server.isEnrolled uid
  if registered && line.command ≠ .pong && line.command ≠ .quit &&
      lobby.server.userShunned env.core uid then lobby
  else if answers.denied lobby uid line || line.command = .other ||
      line.params.length < line.command.minParams then lobby
  else
    let handled := lobby.handle env conf answers uid line
    if registered || line.command = .quit then handled
    else handled.tryRegister env conf answers uid

def defers : Bool :=
  (lobby.sessions.lookup uid).any fun session =>
    !lobby.server.isEnrolled uid && session.dnsPending && session.deferred.length < 32

def onLine (line : ClientLine) (lobby : Lobby) : Lobby :=
  if lobby.defers uid then
    lobby.changeSession uid fun session =>
      { session with deferred := session.deferred ++ [line] }
  else lobby.dispatch env conf answers uid line

def replay (lines : List ClientLine) (lobby : Lobby) : Lobby :=
  lines.foldl (fun lobby line =>
    if uid ∈ lobby.server.users then lobby.onLine env conf answers uid line else lobby) lobby

/-! ## Answers to lookups -/

def onResolved (host refused : Option Str) (lobby : Lobby) : Lobby :=
  let named := match host with
    | some host =>
      if conf.useResolvedHost then
        lobby.changeUser uid fun user => { user with host := host }
      else lobby
    | none => lobby
  let reported := match refused with
    | some reason => named.removeUser uid reason
    | none => named
  reported.changeSession uid fun session => { session with dnsPending := false }

def heldLines : List ClientLine :=
  ((lobby.sessions.lookup uid).map Session.deferred).getD []

def takeDeferred : Lobby :=
  lobby.changeSession uid fun session => { session with deferred := [] }

def resolvedHost (host refused : Option Str) (lobby : Lobby) : Lobby :=
  let resolved := lobby.onResolved conf uid host refused
  ((resolved.takeDeferred uid).replay env conf answers uid (resolved.heldLines uid)).tryRegister
    env conf answers uid

def setIdent (answer : Option Str) (lobby : Lobby) : Lobby :=
  lobby.changeSession uid fun session =>
    { session with identResult := some answer, identPending := false }

def identAnswer (answer : Option Str) (lobby : Lobby) : Lobby :=
  (lobby.setIdent uid answer).tryRegister env conf answers uid

def connclassAuth (ok : Bool) (lobby : Lobby) : Lobby :=
  let held := (lobby.sessions.lookup uid).any Session.authPending
  let released := lobby.changeSession uid fun session => { session with authPending := false }
  if !held then released
  else if ok then (released.finishRegister conf uid).welcome env uid
  else released.removeUser uid "Password mismatch for your connection class"

/-! ## Bans and the clock -/

def enforceRline (pattern reason : Str) (lobby : Lobby) : Lobby :=
  lobby.refuseAll ((Table.toPairs lobby.server.users).filterMap fun (uid, user) =>
    let form := fun place : Str =>
      user.nick ++ '!' :: user.ident ++ '@' :: place ++ ' ' :: user.realname
    if user.registered && (env.regexMatch pattern (form user.host) ||
        env.regexMatch pattern (form user.ip)) then some (uid, "R-lined: " ++ reason)
    else none)

def recount : Lobby :=
  { lobby with unregistered :=
      ((Table.toPairs lobby.server.users).filter fun entry => !entry.2.registered).length }

end

end Lobby

/-! ## Events -/

inductive LobbyEvent where
  | connect (arrival : Lobby.Arrival)
  | line (uid : Uid) (line : ClientLine)
  | resolved (uid : Uid) (host refused : Option Str)
  | ident (uid : Uid) (answer : Option Str)
  | classAuth (uid : Uid) (ok : Bool)
  /-- a challenge that held the client back is solved -/
  | verified (uid : Uid)
  | puppet (uid : Uid) (uuid nick username host realname : Str)
  | disconnect (uid : Uid) (reason : Str)
  | addXline (kind : XKind) (mask : Str) (duration : UInt64) (setter reason : Str)
      (setAt : Timestamp)
  | addRline (pattern : Str) (duration : UInt64) (setter reason : Str)
  | removeXline (kind : XKind) (mask : Str)
  | tick

namespace LobbyEvent

variable (env : LobbyEnv) (conf : LobbyConf) (answers : Answers)

def Enabled (lobby : Lobby) : LobbyEvent → Prop
  | .connect arrival => arrival.uid ∉ lobby.server.users
  | .puppet uid _ _ _ _ _ => uid ∉ lobby.server.users
  | .resolved uid _ _ => ∀ session, lobby.sessions.lookup uid = some session →
      session.dnsPending = true
  | _ => True

def apply : LobbyEvent → Lobby → Lobby
  | .connect arrival, lobby => lobby.addConn env conf arrival
  | .line uid input, lobby => lobby.onLine env conf answers uid input
  | .resolved uid host refused, lobby => lobby.resolvedHost env conf answers uid host refused
  | .ident uid answer, lobby => lobby.identAnswer env conf answers uid answer
  | .classAuth uid ok, lobby => lobby.connclassAuth env conf uid ok
  | .verified uid, lobby => lobby.tryRegister env conf answers uid
  | .puppet uid uuid nick username host realname, lobby =>
    lobby.mintPuppet uid uuid nick username host realname
  | .disconnect uid reason, lobby => lobby.removeUser uid reason
  | .addXline kind mask duration setter reason setAt, lobby =>
    lobby.addXlineAt env kind mask duration setter reason setAt
  | .addRline pattern duration setter reason, lobby =>
    (lobby.addXlineAt env .rline pattern duration setter reason
      lobby.server.clock).enforceRline env pattern reason
  | .removeXline kind mask, lobby =>
    { lobby with server := lobby.server.removeXline kind mask }
  | .tick, lobby => { lobby with server := lobby.server.purgeXlines }.recount

end LobbyEvent

namespace Lobby

def setClock (now : Timestamp) (lobby : Lobby) : Lobby :=
  { lobby with server := lobby.server.setClock now }

def handleEvent (env : LobbyEnv) (now : Timestamp) (action : Lobby → Lobby)
    (lobby : Lobby) : Lobby :=
  let acted := action (lobby.setClock now)
  { acted with server := acted.server.drainHooks env.core }

end Lobby

def LobbyStep (env : LobbyEnv) (conf : LobbyConf) (before after : Lobby) : Prop :=
  ∃ now answers event, LobbyEvent.Enabled before event ∧
    after = before.handleEvent env now (event.apply env conf answers)

/-! ## Samples -/

/-- Masks are globs, no digest can be computed, and every lookup can start. -/
def LobbyEnv.plain : LobbyEnv where
  core := .plain
  regexMatch := fun _ _ => false
  parseIp := some
  isLocalIp := fun _ => false
  waitpongExemptIp := fun _ => false
  maskMatch := fun mask ip host => globMatch .plain mask ip || globMatch .plain mask host
  asnOf := fun _ => none
  countryOf := fun _ => none
  hashing := ⟨fun _ _ => false, fun _ _ => none, fun _ _ _ _ => none⟩

def Answers.plain : Answers where
  denied := fun _ _ _ => false
  register := fun _ _ => .passthru
  started := fun _ _ => true
  nick := openGate

def Lobby.plainBoot : Lobby := { server := .plainBoot }

def arrives (uid : Uid) (uuid : Str) : LobbyEvent :=
  .connect { uid := uid, uuid := uuid, ip := "10.0.0.1" }

def Lobby.after (conf : LobbyConf) (events : List LobbyEvent) : Lobby :=
  events.foldl (fun lobby event =>
    lobby.handleEvent .plain 0 (event.apply .plain conf .plain)) .plainBoot

end EchoIrcd
