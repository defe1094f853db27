import EchoIrcd.Authority

/-!
# The MODE command of a client

`apply_mode` of `core_mode.rs` and `TBAN` of `core_channel.rs`.  The handlers
are those of server authority, with the checks in front of them that the acting
user has to pass: its rank in the channel, its operator status and the size of
the list.  What was applied goes to the links as one `FMODE`.  Viewing a list
and the modes of users are not modelled here.
-/

namespace EchoIrcd

open Str

/-- The settings of a mode command, and what the type of an operator allows. -/
structure ModeRules where
  modes : Nat := 20
  maxbans : Nat := 100
  classbanOperonly : Bool := false
  canUseMode : Uid → Char → Bool := fun _ _ => true

def rankHalfop : Nat := 20

def ChanMode.isList : ChanMode → Bool
  | .list _ => true
  | _ => false

def ChanFlag.operOnlyToSet : ChanFlag → Bool
  | .operOnly | .permanent => true
  | _ => false

def autoOpRank (mask : Str) : Nat :=
  match splitOnce ':' mask with
  | some ('q' :: _, _) => 50
  | some ('a' :: _, _) => 40
  | some ('o' :: _, _) => 30
  | some ('h' :: _, _) => 20
  | some ('v' :: _, _) => 10
  | _ => 0

namespace Server

/-! ## The handlers -/

def statusBy (server : Server) (uid : Uid) (src : Nat) (key : Str) (letter : Char) (rank : Nat)
    (adding : Bool) (param : Option Str) : Applied := do
  let config := server.conf.prefixes
  let nick ← param
  let target ← server.findNick nick
  let channel ← server.channels.lookup key
  let member ← channel.members.lookup target
  if !adding ∧ target = uid ∧ !config.canDepriv letter then none
  else if src < config.rankNeeded letter adding rank ∨ src < member.rank config then none
  else some (fun channel => { channel with
    members := Table.modify target (Member.setPrefix config letter adding)
      channel.members }, some nick)

def listBy (rules : ModeRules) (server : Server) (uid : Uid) (key : Str) (kind : ListKind)
    (adding : Bool) (param : Option Str) : Applied := do
  let mask ← param
  if adding ∧ kind = .autoOp ∧ server.rank uid key < autoOpRank mask then none
  else if adding ∧ kind = .ban ∧ ("C:" : Str).isPrefixOf mask ∧ rules.classbanOperonly ∧
      !server.isOper uid then none
  else
    let mask := kind.normalize mask
    let channel ← server.channels.lookup key
    let present := (channel.lists kind).any fun ban => eqIgnoreAsciiCase ban.mask mask
    if adding then
      if present ∨ rules.maxbans ≤ (channel.lists kind).length then none
      else
        let setter := ((server.users.lookup uid).map User.nick).getD []
        some (Channel.setList kind (· ++ [⟨mask, setter, server.clock, none⟩]), some mask)
    else if present then
      some (Channel.setList kind
        (List.filter fun ban => !eqIgnoreAsciiCase ban.mask mask), some mask)
    else none

def userChanMode (rules : ModeRules) (server : Server) (uid : Uid) (chan key : Str)
    (mode : ChanMode) (adding : Bool) (param : Option Str) : Applied :=
  match mode with
  | .status letter rank =>
    server.statusBy uid (server.rank uid key) key letter rank adding param
  | .list kind => server.listBy rules uid key kind adding param
  | .flag flag =>
    if flag = .registered then none
    else if flag.operOnlyToSet ∧ adding ∧
        !(server.isOper uid && rules.canUseMode uid flag.letter) then none
    else setMode (ChanModes.setFlag flag adding) none
  | mode => server.applyChanMode chan key mode adding param

/-! ## The command -/

end Server

structure ModeChange where
  adding : Bool
  letter : Char
  echo : Option Str
  deriving DecidableEq, Repr

namespace ModeChange

def entry (change : ModeChange) : Bool × Char := (change.adding, change.letter)

def echoes (changes : List ModeChange) : List Str := changes.filterMap echo

end ModeChange

structure UserModeLoop where
  server : Server
  args : List Str
  changes : List ModeChange := []

namespace Server

variable (rules : ModeRules) (uid : Uid)

def userModeStep (chan key : Str) (loop : UserModeLoop) (entry : Bool × Char) : UserModeLoop :=
  match chanMode loop.server.conf.prefixes entry.2 with
  | none => loop
  | some mode =>
    let param := if mode.wantsParam entry.1 then loop.args.head? else none
    let args := if mode.wantsParam entry.1 then loop.args.tail else loop.args
    match loop.server.userChanMode rules uid chan key mode entry.1 param with
    | none => { loop with args := args }
    | some (change, echo) =>
      { server := loop.server.changeChannel key change
        args := args
        changes := loop.changes ++ [⟨entry.1, entry.2, echo⟩] }

def userModeLoop (chan modes : Str) (args : List Str) (server : Server) : UserModeLoop :=
  ((signedLetters true modes).take (max rules.modes 1)).foldl
    (userModeStep rules uid chan (toAsciiLower chan)) { server := server, args := args }

def pureListQuery (server : Server) (modes : Str) (args : List Str) : Bool :=
  args.isEmpty && (modes.filter fun letter => letter ≠ '+' && letter ≠ '-').all fun letter =>
    (chanMode server.conf.prefixes letter).any ChanMode.isList

def sensitiveView (modes : Str) : Bool :=
  modes.any fun letter => letter ∈ ("wXg" : Str)

def cull (key : Str) (server : Server) : Server :=
  match server.channels.lookup key with
  | some channel =>
    if channel.keepAlive then server
    else { server with channels := server.channels.erase key }
  | none => server

def relayChanges (chan : Str) (loop : UserModeLoop) : Server :=
  if loop.changes = [] then loop.server
  else
    match loop.server.users.lookup uid with
    | some user =>
      loop.server.propagateChanMode user.uuid chan
        (emit none (loop.changes.map ModeChange.entry)) (ModeChange.echoes loop.changes)
    | none => loop.server

def applyMode (params : List Str) (server : Server) : Server :=
  match params with
  | chan :: modes :: args =>
    let key := toAsciiLower chan
    if chan.head? = some '#' ∧ key ∈ server.channels then
      if (!server.pureListQuery modes args || sensitiveView modes) = true ∧
          server.rank uid key < rankHalfop then server
      else (relayChanges uid chan (server.userModeLoop rules uid chan modes args)).cull key
    else server
  | _ => server

/-- `TBAN`: a ban with an end.  A mask counts as present if its text is. -/
def tban (params : List Str) (server : Server) : Server :=
  match params with
  | chan :: duration :: mask :: _ =>
    let key := toAsciiLower chan
    match server.channels.lookup key, server.users.lookup uid with
    | some channel, some user =>
      if server.rank uid key < rankHalfop then server
      else
        match (parseDuration duration).filter (0 < ·) with
        | none => server
        | some secs =>
          let mask := normalizeBanMask mask
          if (channel.lists .ban).any (·.mask = mask) then server
          else (server.changeChannel key (Channel.setList .ban
              (· ++ [⟨mask, user.nick, server.clock, some (server.clock + secs)⟩])))
            |>.propagateChanMode user.uuid chan "+b" [mask]
    | _, _ => server
  | _ => server

/-! ## SAMODE -/

def listSudo (server : Server) (uid : Uid) (key : Str) (kind : ListKind) (adding : Bool)
    (param : Option Str) : Applied := do
  let mask := kind.normalize (← param)
  let channel ← server.channels.lookup key
  let present := (channel.lists kind).any fun ban => eqIgnoreAsciiCase ban.mask mask
  if adding then
    if present then none
    else
      let setter := ((server.users.lookup uid).map User.nick).getD []
      some (Channel.setList kind (· ++ [⟨mask, setter, server.clock, none⟩]), some mask)
  else if present then
    some (Channel.setList kind (List.filter fun ban => !eqIgnoreAsciiCase ban.mask mask), some mask)
  else none

/-- `apply` for an operator under `mode_sudo`, whose rank is then that of an owner. -/
def sudoChanMode (server : Server) (uid : Uid) (chan key : Str) (mode : ChanMode) (adding : Bool)
    (param : Option Str) : Applied :=
  match mode with
  | .status letter rank => server.statusBy uid 50 key letter rank adding param
  | .list kind => server.listSudo uid key kind adding param
  | mode => server.applyChanMode chan key mode adding param

def modeStep (apply : Server → ChanMode → Bool → Option Str → Applied) (key : Str)
    (loop : UserModeLoop) (entry : Bool × Char) : UserModeLoop :=
  match chanMode loop.server.conf.prefixes entry.2 with
  | none => loop
  | some mode =>
    let param := if mode.wantsParam entry.1 then loop.args.head? else none
    let args := if mode.wantsParam entry.1 then loop.args.tail else loop.args
    match apply loop.server mode entry.1 param with
    | none => { loop with args := args }
    | some (change, echo) =>
      { server := loop.server.changeChannel key change
        args := args
        changes := loop.changes ++ [⟨entry.1, entry.2, echo⟩] }

def samode (params : List Str) (server : Server) : Server :=
  match params with
  | chan :: modes :: args =>
    let key := toAsciiLower chan
    if server.isOper uid ∧ chan.head? = some '#' ∧ key ∈ server.channels then
      let loop := ((signedLetters true modes).take (max rules.modes 1)).foldl
        (modeStep (fun server => server.sudoChanMode uid chan key) key)
        { server := server, args := args }
      (relayChanges uid chan loop).cull key
    else server
  | _ => server

end Server

end EchoIrcd
