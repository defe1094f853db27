import EchoIrcd.ChannelOps

/-!
# Changes made with server authority

Channel and user modes set by the server itself or on behalf of services
(`core_mode.rs`), operator status (`users.rs`, `operprefix.rs`), the hooks
drained after an event (`ircd.rs`) and the end of client registration
(`welcome`).  Registration queues the introduction of the user behind the
hooks, but runs its automatic modes and joins at once.
-/

namespace EchoIrcd

open Str

/-! ## Mode strings -/

def signedLetters : Bool → Str → List (Bool × Char)
  | _, [] => []
  | _, '+' :: rest => signedLetters true rest
  | _, '-' :: rest => signedLetters false rest
  | adding, letter :: rest => (adding, letter) :: signedLetters adding rest

def emit : Option Bool → List (Bool × Char) → Str
  | _, [] => []
  | last, (adding, letter) :: rest =>
    (if last = some adding then [] else [if adding then '+' else '-']) ++
      letter :: emit (some adding) rest

namespace Server

/-! ## Channel modes -/

def chanModeArgs (server : Server) : List (Bool × Char) → List Str → List Str
  | [], params => params
  | _ :: _, [] => []
  | (adding, letter) :: rest, param :: params =>
    if letter ∈ ("yqaohv" : Str) then
      server.nickToUuid param :: server.chanModeArgs rest params
    else if letter ∈ ("beIk" : Str) ∨ (letter = 'l' ∧ adding) then
      param :: server.chanModeArgs rest params
    else server.chanModeArgs rest (param :: params)

def propagateChanMode (source chan modes : Str) (params : List Str)
    (server : Server) : Server :=
  let ts := match server.channels.lookup (toAsciiLower chan) with
    | some channel => channel.created
    | none => server.clock
  server.propagate (.fmode source chan ts modes
    (server.chanModeArgs (signedLetters true modes) params)) none

/-- The state of the letter loop: the server, the unused arguments, the echo. -/
structure ModeLoop where
  server : Server
  args : List Str
  applied : List (Bool × Char) := []
  echoed : List Str := []

@[simps]
def changeChannel (key : Str) (change : Channel → Channel) (server : Server) :
    Server :=
  { server with channels := Table.modify key change server.channels }

def svsChanModeStep (chan key : Str) (loop : ModeLoop)
    (entry : Bool × Char) : ModeLoop :=
  match chanMode loop.server.conf.prefixes entry.2 with
  | none => loop
  | some mode =>
    let param := if mode.wantsParam entry.1 then loop.args.head? else none
    let args := if mode.wantsParam entry.1 then loop.args.tail else loop.args
    match loop.server.applyChanMode chan key mode entry.1 param with
    | none => { loop with args := args }
    | some (change, echo) =>
      { server := loop.server.changeChannel key change
        args := args
        applied := loop.applied ++ [entry]
        echoed := loop.echoed ++ echo.toList }

def svsSetChanModes (chan modes : Str) (args : List Str) (server : Server) :
    Server :=
  let key := toAsciiLower chan
  if key ∈ server.channels then
    let loop := (signedLetters true modes).foldl (svsChanModeStep chan key)
      { server := server, args := args }
    if loop.applied = [] then loop.server
    else
      loop.server.propagateChanMode server.conf.sid chan
        (emit none loop.applied) loop.echoed
  else server

/-! ## Operator prefix -/

section

variable (env : Env) (uid : Uid) (server : Server)

def setOperPrefix (on : Bool) (server : Server) (key : Str) : Server :=
  match server.users.lookup uid, server.channels.lookup key with
  | some user, some channel =>
    match channel.members.lookup uid with
    | some member =>
      if member.prefixes .oper ≠ on then
        (server.changeChannel key fun channel => { channel with
          members := Table.modify uid (fun member => { member with
            prefixes := Function.update member.prefixes .oper on })
            channel.members }).propagateChanMode server.conf.sid
          channel.name [if on then '+' else '-', 'y'] [user.nick]
      else server
    | none => server
  | _, _ => server

def channelsOf (uid : Uid) : List Str :=
  match server.users.lookup uid with
  | some user => user.channels
  | none => []

def grantAllOperPrefix : Server :=
  if server.conf.operprefix then
    (server.channelsOf uid).foldl (setOperPrefix uid true) server
  else server

def clearAllOperPrefix : Server :=
  (server.channelsOf uid).foldl (setOperPrefix uid false) server

/-! ## User modes -/

def defaultSnomask : Str := "acdfgjklnoqrtuvwx"

@[simps]
def changeUser (change : User → User) (server : Server) : Server :=
  { server with users := Table.modify uid change server.users }

def setUserFlag (flag : UserFlag) (adding : Bool) (user : User) : User :=
  let user := user.setFlag flag adding
  if flag = .snomask then
    { user with snomaskCats := if adding then defaultSnomask else [] }
  else user

def operFlag (flag : UserFlag) : Bool :=
  flag ∈ [UserFlag.hideoper, .showwhois, .helpop, .snomask]

/-- A user-mode handler under `mode_sudo`; `none` when it takes no effect. -/
def applyUserMode (flag : UserFlag) (adding : Bool) (server : Server) : Option Server :=
  match server.users.lookup uid with
  | none => none
  | some user =>
    match flag with
    | .oper =>
      if adding then none
      else some ((server.changeUser uid (User.setFlag .oper false)).clearAllOperPrefix uid)
    | .cloak =>
      if user.cloak = [] ∨ (!adding ∧ !user.flags .oper) then none
      else some (server.changeUser uid (User.setFlag .cloak adding))
    | .loggedIn => none
    | flag =>
      if operFlag flag ∧ adding ∧ !user.flags .oper then none
      else some (server.changeUser uid (setUserFlag flag adding))

def svsUserModeStep (state : Server × List (Bool × Char))
    (entry : Bool × Char) : Server × List (Bool × Char) :=
  match UserFlag.ofLetter entry.2 with
  | none => state
  | some flag =>
    match state.1.applyUserMode uid flag entry.1 with
    | some server => (server, state.2 ++ [entry])
    | none => state

def svsSetUserModes (modes : Str) (server : Server) : Server :=
  let (changed, applied) := (signedLetters true modes).foldl (svsUserModeStep uid) (server, [])
  if applied = [] then changed
  else
    match changed.users.lookup uid with
    | some user =>
      if user.registered then
        changed.propagate (.umode user.uuid (emit none applied)) none
      else changed
    | none => changed

def operUp : Server :=
  let server := server.changeUser uid fun user =>
    { (user.setFlag .oper true).setFlag .snomask true with
      snomaskCats := defaultSnomask }
  let server := server.grantAllOperPrefix uid
  let server := match server.conf.operModes with
    | some modes => server.svsSetUserModes uid modes
    | none => server
  let server := server.conf.operjoin.foldl
    (fun server chan => server.join env uid chan) server
  match server.users.lookup uid with
  | some user => server.propagate (.opertype user.uuid) none
  | none => server

/-! ## Hooks -/

def autoOpLetters (channel : Channel) (mask : Str) : Str :=
  (channel.lists .autoOp).foldl
    (fun letters entry => match splitOnce ':' entry.mask with
      | some (letter :: _, pattern) =>
        if letter ∈ ("qaohv" : Str) ∧ letter ∉ letters ∧
            globMatch env pattern mask then letters ++ [letter]
        else letters
      | _ => letters) []

def autoOpJoin (key : Str) (server : Server) : Server :=
  match server.users.lookup uid, server.channels.lookup key with
  | some user, some channel =>
    let letters := autoOpLetters env channel user.mask
    if letters = [] then server
    else server.svsSetChanModes key ('+' :: letters)
      (letters.map fun _ => user.nick)
  | _, _ => server

def operPrefixJoin (key : Str) (server : Server) : Server :=
  if server.conf.operprefix && server.isOper uid then
    server.setOperPrefix uid true key
  else server

def onUserConnect : Server :=
  let server := match env.computeCloak server uid with
    | some cloak => server.changeUser uid fun user =>
      { user.setFlag .cloak true with cloak := cloak }
    | none => server
  match env.hashedIdent server uid with
  | some ident => server.changeUser uid fun user => { user with ident := ident }
  | none => server

def runHook : Hook → Server
  | .connect uid => (server.onUserConnect env uid).introduceToLinks uid
  | .join uid key => (server.autoOpJoin env uid key).operPrefixJoin uid key

def drainHooks : Server :=
  server.events.foldl (runHook env) { server with events := [] }

/-! ## Registration -/

def markRegistered : Server :=
  server.changeUser uid fun user => { user with registered := true }

def setConnUmodes : Server :=
  match server.conf.connUmodes with
  | some modes => server.svsSetUserModes uid modes
  | none => server

def queueHook (hook : Hook) (server : Server) : Server :=
  { server with events := server.events ++ [hook] }

def autojoinAll : Server :=
  server.conf.autojoin.foldl (fun server chan => server.join env uid chan) server

def welcome : Server :=
  (((server.markRegistered uid).setConnUmodes uid).queueHook (.connect uid)).autojoinAll env uid

end

end Server

end EchoIrcd
