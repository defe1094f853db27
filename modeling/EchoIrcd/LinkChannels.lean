import EchoIrcd.LinkUsers

/-!
# Channel lines from a peer

The handlers of `link.rs` for channel state.  `FJOIN` arbitrates by creation
timestamp, the lower one winning; `IJOIN` and `PART` do not look at it, and
`FMODE` drops a change stamped newer than the channel.
-/

namespace EchoIrcd

open Str Channel

namespace Server

/-! ## Membership -/

def enterRemote (key uuid : Str) (member : Member) (fresh : Channel)
    (server : Server) : Server :=
  let channel := (server.channels.lookup key).getD fresh
  { server with
    channels := server.channels.insert key
      { channel with rmembers := channel.rmembers.insert uuid member } }

def linkJoinRecv (via : Uid) (message : Message) (server : Server) : Server :=
  match message.source, message.params with
  | some uuid, chan :: _ =>
    if server.sourcedVia uuid via then
      (server.enterRemote (toAsciiLower chan) uuid {}
        (new server.clock chan)).propagate (.join uuid chan) (some via)
    else server
  | _, _ => server

def grantLetters (config : PrefixConfig) (letters : Str) (member : Member) :
    Member :=
  letters.foldl (fun member letter => member.setPrefix config letter true) member

/-- The status token of an IJOIN: the fourth parameter, if it is all letters. -/
def ijoinStatus (params : List Str) : Str :=
  match params[3]? with
  | some letters => if letters.all Char.isAlpha then letters else []
  | none => []

def linkIjoinRecv (via : Uid) (message : Message) (server : Server) : Server :=
  match message.source, message.params with
  | some uuid, chan :: _ =>
    if chan.head? = some '#' ∧ server.sourcedVia uuid via then
      let member := grantLetters server.conf.prefixes
        (ijoinStatus message.params) {}
      let ts := (message.params[2]?.bind parseU64).getD server.clock
      (server.enterRemote (toAsciiLower chan) uuid member
        (new ts chan)).propagate (.forward message) (some via)
    else server
  | _, _ => server

def dropRemoteMember (key uuid : Str) (server : Server) : Server :=
  reapChannels (server.changeChannel key fun channel =>
    { channel with rmembers := channel.rmembers.erase uuid })

def isRemoteMember (server : Server) (key uuid : Str) : Bool :=
  match server.channels.lookup key with
  | some channel => uuid ∈ channel.rmembers
  | none => false

theorem isRemoteMember_iff {server : Server} {key uuid : Str} :
    server.isRemoteMember key uuid = true ↔
      ∃ channel, server.channels.lookup key = some channel ∧
        uuid ∈ channel.rmembers := by
  unfold isRemoteMember
  cases server.channels.lookup key <;> simp

section

variable (via : Uid) (message : Message) (server : Server)

def linkPartRecv : Server :=
  match message.source, message.params with
  | some uuid, chan :: rest =>
    let key := toAsciiLower chan
    if server.sourcedVia uuid via ∧ server.isRemoteMember key uuid then
      (server.dropRemoteMember key uuid).propagate
        (.part uuid chan (rest.head?.getD [])) (some via)
    else server
  | _, _ => server

def kickVictim (victim : Str) : Option (Uid ⊕ Str) :=
  match server.linkLocalTarget victim with
  | some uid => some (.inl uid)
  | none =>
    if victim ∈ server.remoteUsers then some (.inr victim)
    else (server.findRemote victim).map fun found => .inr found.1

def linkKickRecv : Server :=
  match message.source, message.params with
  | some source, chan :: victim :: _ =>
    let key := toAsciiLower chan
    if server.sourceBehind source via then
      match server.kickVictim victim with
      | some (.inl uid) =>
        if server.isMember uid key then
          (server.dropMember uid key).propagate (.forward message) (some via)
        else server
      | some (.inr uuid) =>
        if server.isRemoteMember key uuid then
          (server.dropRemoteMember key uuid).propagate (.forward message)
            (some via)
        else server
      | none => server
    else server
  | _, _ => server

/-! ## The netburst of a channel -/

def splitMember (token : Str) : Str × Str :=
  let (letters, rest) := (splitOnce ',' token).getD ([], token)
  (letters, rest.takeWhile (· ≠ ':'))

/-- The loser of a timestamp war gives up its modes, lists, topic and status. -/
def wipe (channel : Channel) : Channel :=
  { channel with
    modes := {}
    lists := fun _ => []
    topic := none
    members := Table.mapValues (fun _ member => member.clearStatus)
      channel.members
    rmembers := Table.mapValues (fun _ member => member.clearStatus)
      channel.rmembers }

def applyLetters (modes : Str) (initial : ChanModes) : ChanModes :=
  (signedLetters true modes).foldl
    (fun modes entry => modes.setByLetter entry.2 entry.1) initial

def adopt (ts : Timestamp) (modes : Str) (channel : Channel) : Channel :=
  { channel with
    created := ts
    modes := applyLetters modes channel.modes }

/-- The channel after timestamp arbitration, before the members are added. -/
def arbitrate (ts : Timestamp) (modes chan : Str) (now : Timestamp)
    (found : Option Channel) : Channel :=
  match found with
  | none => adopt ts modes (new now chan)
  | some channel =>
    if ts < channel.created then adopt ts modes (wipe channel)
    else if ts > channel.created then channel
    else adopt ts modes channel

def fjoinMembers (keepStatus : Bool) (members : Str) : List (Str × Member) :=
  (words members).filterMap fun token =>
    let (letters, uuid) := splitMember token
    if uuid ∈ server.uuidLocal ∨ uuid ∉ server.remoteUsers then none
    else some (uuid, if keepStatus then
        grantLetters server.conf.prefixes letters {}
      else {})

def linkFjoinRecv : Server :=
  match message.params with
  | chan :: ts :: modes :: members :: _ =>
    let key := toAsciiLower chan
    let ts := (parseU64 ts).getD server.clock
    let found := server.channels.lookup key
    let keepStatus := match found with
      | some channel => !(ts > channel.created : Bool)
      | none => true
    let channel := arbitrate ts modes chan server.clock found
    let adds := server.fjoinMembers keepStatus members
    let merged := { channel with
      rmembers := adds.foldl (fun rmembers entry =>
        rmembers.insert entry.1 entry.2) channel.rmembers }
    propagate (.fjoin (message.source.getD []) chan ts modes members) (some via)
      { server with channels := server.channels.insert key merged }
  | _ => server

/-! ## Modes -/

def applyUmodeString (modes changes : Str) : Str :=
  (signedLetters true changes).foldl
    (fun modes entry =>
      if entry.1 then if entry.2 ∈ modes then modes else modes ++ [entry.2]
      else modes.filter (· ≠ entry.2)) modes

def setMemberPrefix (key who : Str) (letter : Char) (adding : Bool)
    (server : Server) : Server :=
  let set := Member.setPrefix server.conf.prefixes letter adding
  match server.linkLocalTarget who with
  | some uid => server.changeChannel key fun channel =>
    { channel with members := Table.modify uid set channel.members }
  | none =>
    let uuid := if who ∈ server.remoteUsers then some who
      else (server.findRemote who).map Prod.fst
    match uuid with
    | some uuid => server.changeChannel key fun channel =>
      { channel with rmembers := Table.modify uuid set channel.rmembers }
    | none => server

def changeMask (setter mask : Str) (now : Timestamp) (adding : Bool)
    (bans : List Ban) : List Ban :=
  if adding then
    if bans.any (·.mask = mask) then bans
    else bans ++ [⟨mask, setter, now, none⟩]
  else bans.filter (·.mask ≠ mask)

def maskKind : Char → Option ListKind
  | 'b' => some .ban
  | 'e' => some .except
  | 'I' => some .invex
  | _ => none

/-- One letter of a channel mode line: the server and the unused arguments. -/
def linkModeStep (source chan key : Str) (state : Server × List Str)
    (entry : Bool × Char) : Server × List Str :=
  let (server, args) := state
  let (adding, letter) := entry
  if letter ∈ ("yqaohv" : Str) then
    match args with
    | who :: args => (server.setMemberPrefix key who letter adding, args)
    | [] => (server, [])
  else if letter = 'k' then
    (server.changeChannel key (withModes fun modes =>
      { modes with key := if adding then args.head? else none }), args.tail)
  else if letter = 'l' then
    if adding then
      match args.head?.bind parseU32 with
      | some limit => (server.changeChannel key (withModes fun modes =>
        { modes with limit := some limit }), args.tail)
      | none => (server, args)
    else (server.changeChannel key (withModes fun modes =>
        { modes with limit := none }), args)
  else
    match maskKind letter with
    | some kind =>
      match args with
      | mask :: args =>
        let setter := match server.remoteUsers.lookup source with
          | some remote => remote.nick
          | none => source
        (server.changeChannel key (setList kind
          (changeMask setter mask server.clock adding)), args)
      | [] => (server, [])
    | none =>
      match chanMode server.conf.prefixes letter with
      | some mode =>
        let param := if mode.wantsParam adding then args.head? else none
        let args := if mode.wantsParam adding then args.tail else args
        match server.applyChanMode chan key mode adding param with
        | some (change, _) => (server.changeChannel key change, args)
        | none => (server, args)
      | none => (server.changeChannel key (withModes (ChanModes.setByLetter letter adding)), args)

def staleFmode (channel : Channel) : Bool :=
  message.command = "FMODE" &&
    match message.params[1]?.bind parseU64 with
    | some ts => channel.created < ts
    | none => false

def linkModeRecv : Server :=
  match message.source, message.params with
  | some source, chan :: first :: _ =>
    if !server.sourceBehind source via then server
    else if chan.head? ≠ some '#' then
      (server.changeRemote chan fun remote =>
        { remote with modes := applyUmodeString remote.modes first }).propagate
        (.forward message) (some via)
    else
      let key := toAsciiLower chan
      match server.channels.lookup key with
      | none => server
      | some channel =>
        if staleFmode message channel then
          server.propagate (.forward message) (some via)
        else
          let index := if message.command = "FMODE" then 2 else 1
          match message.params.drop index with
          | [] => server
          | modes :: args =>
            ((signedLetters true modes).foldl
              (linkModeStep source chan key) (server, args)).1.propagate
              (.forward message) (some via)
  | _, _ => server

/-! ## Topics, invites and renames -/

def setTopic (key : Str) (topic : Option Topic) (server : Server) : Server :=
  server.changeChannel key fun channel => { channel with topic := topic }

def linkTopicRecv : Server :=
  match message.source, message.params with
  | some source, chan :: text :: _ =>
    let key := toAsciiLower chan
    if !server.sourceBehind source via then server
    else
      match server.channels.lookup key with
      | none => server
      | some channel =>
        let setter := match server.remoteUsers.lookup source with
          | some remote => remote.nick
          | none => []
        (server.setTopic key (some ⟨text, setter, server.clock⟩)).propagate
          (.ftopic source chan channel.created server.clock text) (some via)
  | _, _ => server

def displayName (source : Str) : Str :=
  match server.remoteUsers.lookup source with
  | some remote => remote.nick
  | none =>
    match server.servers.lookup source with
    | some remote => remote.name
    | none => source

def linkFtopicRecv : Server :=
  match message.source, message.params with
  | some source, chan :: chants :: ts :: fourth :: rest =>
    let key := toAsciiLower chan
    if !server.sourceBehind source via then server
    else
      match server.channels.lookup key with
      | none => server
      | some channel =>
        let relay := Server.propagate (.forward message) (some via)
        let ts := (parseU64 ts).getD server.clock
        if channel.created < (parseU64 chants).getD 0 then relay server
        else if channel.topic.any fun topic => ts < topic.ts then relay server
        else
          let text := (fourth :: rest).getLast (List.cons_ne_nil _ _)
          let setter := if rest = [] then server.displayName source
            else fourth
          relay (server.setTopic key (some ⟨text, setter, ts⟩))
  | _, _ => server

def linkInviteRecv : Server :=
  match message.source, message.params with
  | some source, target :: chan :: _ =>
    if !server.sourceBehind source via then server
    else
      match server.uuidLocal.lookup target with
      | some uid =>
        let key := toAsciiLower chan
        (server.changeChannel key fun channel =>
          { channel with invites := channel.invites.insert uid }).changeUser
          uid fun user => { user with invited := user.invited.insert key }
      | none => server.forwardToTarget target message via
  | _, _ => server

def attributable (source : Str) : Bool :=
  source ∈ server.remoteUsers ∨ source ∈ server.servers ∨
    (bytePrefix 3 source).getD source ∈ server.servers

def linkRenameRecv : Server :=
  match message.source, message.params with
  | some source, old :: new :: rest =>
    if server.sourceBehind source via ∧ server.attributable source then
      match server.renameChannel (toAsciiLower old) new with
      | some renamed => renamed.propagate
          (.rename source old new (rest.head?.getD [])) (some via)
      | none => server
    else server
  | _, _ => server

end

end Server

end EchoIrcd
