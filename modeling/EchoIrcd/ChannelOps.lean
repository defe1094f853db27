import EchoIrcd.Mode

/-!
# Local channel operations

JOIN, PART, KICK and channel renames of local users with the lines they send
to linked servers (`channels.rs`, `core_channel.rs`, `link.rs`), modes set with
server authority (`core_mode.rs`), and the hooks that run once an event has
been handled (`ircd.rs`, `autoop.rs`, `operprefix.rs`).
-/

namespace EchoIrcd

open Str

variable {server : Server} {key : Str} {uid : Uid}

def validChan (name : Str) (maxlen : Nat) : Bool :=
  name.head? = some '#' ∧ 1 < byteLength name ∧ byteLength name ≤ maxlen ∧
    !name.any fun char => char = ' ' ∨ char = ',' ∨ char.toNat < 0x20

/-! ## Globs -/

/--
The greedy matcher of `glob_bytes` and `glob_chars`.  The indices into pattern
and text are the suffixes they leave; `star` holds the pattern after the last
star and the text from its mark on.
-/
def globFuel (eq : Char → Char → Bool) : Nat → Str → Str →
    Option (Str × Str) → Bool
  | 0, _, _, _ => false
  | _ + 1, pattern, [], _ => (pattern.dropWhile (· = '*')).isEmpty
  | fuel + 1, pattern, char :: text, star =>
    let retry := match star with
      | some (after, _ :: mark) =>
        globFuel eq fuel after mark (some (after, mark))
      | _ => false
    match pattern with
    | first :: rest =>
      if first = '?' ∨ eq first char then globFuel eq fuel rest text star
      else if first = '*' then
        globFuel eq fuel rest (char :: text) (some (rest, char :: text))
      else retry
    | [] => retry

def glob (eq : Char → Char → Bool) (pattern text : Str) : Bool :=
  globFuel eq ((pattern.length + text.length + 2) * (text.length + 2))
    pattern text none

def isAscii (text : Str) : Bool := text.all fun char => char.toNat < 128

def globMatch (env : Env) (pattern text : Str) : Bool :=
  if isAscii pattern && isAscii text then
    glob (fun left right => left.toLower = right.toLower) pattern text
  else glob (· = ·) (env.toLowercase pattern) (env.toLowercase text)

namespace Server

/-! ## Joining -/

section

variable (server : Server) (uid : Uid)

def statusLetters (channel : Channel) (uid : Uid) : Str :=
  match channel.members.lookup uid with
  | some member => member.modeLetters server.conf.prefixes
  | none => []

def propagateJoin (chan : Str) (isNew : Bool) (server : Server) : Server :=
  match server.users.lookup uid, server.channels.lookup (toAsciiLower chan) with
  | some user, some channel =>
    if user.registered then
      if isNew then
        server.propagate (.fjoin server.conf.sid channel.name channel.created
          channel.modes.render
          (server.statusLetters channel uid ++ ',' :: user.uuid)) none
      else
        server.propagate (.ijoin user.uuid channel.name channel.created
          (server.statusLetters channel uid)) none
    else server
  | _, _ => server

def letIn (name : Str) (server : Server) : Server :=
  let key := toAsciiLower name
  let found := server.channels.lookup key
  let channel := found.getD (Channel.new server.clock name)
  let member : Member := { prefixes := fun held => found.isNone && held = .op }
  let joined := { server with
    channels := server.channels.insert key { channel with
      members := channel.members.insert uid member
      invites := channel.invites.filter (· ≠ uid) }
    users := Table.modify uid (fun user => { user with
      channels := user.channels.insert key
      invited := user.invited.filter (· ≠ key) }) server.users }
  let told := joined.propagateJoin uid name found.isNone
  { told with events := told.events ++ [.join uid key] }

def mayJoin (name : Str) : Bool :=
  validChan name server.conf.maxchannel &&
    match server.users.lookup uid with
    | some user => !(toAsciiLower name ∈ user.channels : Bool)
    | none => false

def join (env : Env) (uid : Uid) (name : Str) (server : Server) : Server :=
  match env.joinGate server uid name with
  | some name => if server.mayJoin uid name then server.letIn uid name else server
  | none => server

/-! ## Leaving -/

def propagatePart (chan reason : Str) (server : Server) : Server :=
  match server.users.lookup uid with
  | some user =>
    if user.registered then
      server.propagate (.part user.uuid chan reason) none
    else server
  | none => server

def dropMember (key : Str) (server : Server) : Server :=
  reapChannels { server with
    channels := Table.modify key (fun channel =>
      { channel with members := channel.members.erase uid }) server.channels
    users := Table.modify uid (fun user =>
      { user with channels := user.channels.filter (· ≠ key) }) server.users }

def isOn (key : Str) : Bool :=
  match server.users.lookup uid with
  | some user => key ∈ user.channels
  | none => false

end

theorem isOn_iff :
    server.isOn uid key = true ↔
      ∃ user, server.users.lookup uid = some user ∧ key ∈ user.channels := by
  unfold isOn
  cases server.users.lookup uid <;> simp

def isMember (server : Server) (uid : Uid) (key : Str) : Bool :=
  match server.channels.lookup key with
  | some channel => uid ∈ channel.members
  | none => false

theorem isMember_iff :
    server.isMember uid key = true ↔
      ∃ channel, server.channels.lookup key = some channel ∧
        uid ∈ channel.members := by
  unfold isMember
  cases server.channels.lookup key <;> simp

section

variable (server : Server) (uid : Uid) (chan : Str)

def part (target reason : Str) (server : Server) : Server :=
  let key := toAsciiLower target
  if server.isOn uid key then
    (server.propagatePart uid target reason).dropMember uid key
  else server

def forcePart (reason : Str) (server : Server) : Server :=
  let key := toAsciiLower chan
  if server.isMember uid key then
    (server.propagatePart uid chan reason).dropMember uid key
  else server

/-! ## Kicking -/

def propagateKick (victim reason : Str) (server : Server) : Server :=
  match server.users.lookup uid with
  | some user =>
    if user.registered then
      server.propagate
        (.kick user.uuid chan (server.nickToUuid victim) reason) none
    else server
  | none => server

def rank (server : Server) (uid : Uid) (key : Str) : Nat :=
  match (server.channels.lookup key).bind (·.members.lookup uid) with
  | some member => member.rank server.conf.prefixes
  | none => 0

def nickServprotected (nick : Str) : Bool :=
  match server.findNick nick with
  | some uid =>
    match server.users.lookup uid with
    | some user => user.flags .servprotect
    | none => false
  | none =>
    match (server.findRemote nick).bind fun found =>
      server.remoteUsers.lookup found.1 with
    | some remote => 'k' ∈ remote.modes
    | none => false

/-- The remote victim of a KICK by `uid`, when the command lets it through. -/
def kickableRemote (channel : Channel) (key victim : Str) : Option Str := do
  let (uuid, _) ← server.findRemote victim
  let member ← channel.rmembers.lookup uuid
  if server.nickServprotected victim then none
  else if server.rank uid key < member.rank server.conf.prefixes then none
  else some uuid

theorem kickableRemote_eq_some {channel : Channel} {key victim who : Str} :
    server.kickableRemote uid channel key victim = some who ↔
      ∃ via member, server.findRemote victim = some (who, via) ∧
        channel.rmembers.lookup who = some member ∧ server.nickServprotected victim = false ∧
        member.rank server.conf.prefixes ≤ server.rank uid key := by
  simp only [kickableRemote, Option.bind_eq_bind, Option.bind_eq_some_iff, Prod.exists]
  grind

def kickableLocal (channel : Channel) (key : Str) (target : Uid) : Bool :=
  target ∈ channel.members ∧
    !(match server.users.lookup target with
      | some user => user.flags .servprotect
      | none => false) ∧
    server.rank target key ≤ server.rank uid key ∧
    !(channel.modes.flags .nokicks ∧ !server.isOper uid)

def kick (victim reason : Str) (server : Server) : Server :=
  let key := toAsciiLower chan
  match server.channels.lookup key with
  | none => server
  | some channel =>
    if server.rank uid key < 20 then server
    else
      match server.findNick victim with
      | some target =>
        if server.kickableLocal uid channel key target then
          (server.propagateKick uid chan victim reason).dropMember target key
        else server
      | none =>
        match server.kickableRemote uid channel key victim with
        | some uuid =>
          -- the remote branch does not reap the channel
          let told := server.propagateKick uid chan victim reason
          { told with
            channels := Table.modify key (fun channel =>
              { channel with rmembers := channel.rmembers.erase uuid })
              told.channels }
        | none => server

end

/-! ## Renaming a channel -/

def rekeyMembers (members : Table Uid Member) (oldkey newkey : Str)
    (users : Table Uid User) : Table Uid User :=
  Table.mapValues (fun uid user =>
    if uid ∈ members then
      { user with
        channels := (user.channels.filter (· ≠ oldkey)).insert newkey }
    else user) users

def renameChannel (oldkey newname : Str) (server : Server) : Option Server :=
  let newkey := toAsciiLower newname
  match server.channels.lookup oldkey with
  | none => none
  | some channel =>
    let renamed := { channel with name := newname }
    if newkey = oldkey then
      some { server with channels := server.channels.insert oldkey renamed }
    else if newkey ∈ server.channels then none
    else some { server with
      channels := (server.channels.erase oldkey).insert newkey renamed
      users := rekeyMembers channel.members oldkey newkey server.users }

end Server

end EchoIrcd
