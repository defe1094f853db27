import EchoIrcd.Channels
import Mathlib.Tactic.Simps.Basic

/-!
# The server state

Everything the link layer reads and writes, as one explicit record: local
users, channels, links, the servers and users known through them, x-lines and
spam filters.  What goes to a client is left out.  What goes to a linked server
is kept: a line is a value of `Out`, one constructor per `format!` call, and
`Out.text` is the text the peer receives.  `sent` is the log of these lines in
the order they were written.
-/

namespace EchoIrcd

open Str

/-! ## Users -/

/-- The user modes, in the order `umodes` lists them. -/
inductive UserFlag where
  | invisible
  | wallops
  | oper
  | cloak
  | bot
  | servprotect
  | deaf
  | hidechans
  | hideoper
  | loggedIn
  | regOnlyPm
  | sslPm
  | noctcp
  | snomask
  | callerid
  | showwhois
  | helpop
  | denyUncommon
  deriving DecidableEq, Repr

namespace UserFlag

def all : List UserFlag :=
  [invisible, wallops, oper, cloak, bot, servprotect, deaf, hidechans,
    hideoper, loggedIn, regOnlyPm, sslPm, noctcp, snomask, callerid,
    showwhois, helpop, denyUncommon]

def letter : UserFlag → Char
  | invisible => 'i'
  | wallops => 'w'
  | oper => 'o'
  | cloak => 'x'
  | bot => 'B'
  | servprotect => 'k'
  | deaf => 'D'
  | hidechans => 'I'
  | hideoper => 'H'
  | loggedIn => 'r'
  | regOnlyPm => 'R'
  | sslPm => 'z'
  | noctcp => 'T'
  | snomask => 's'
  | callerid => 'g'
  | showwhois => 'W'
  | helpop => 'h'
  | denyUncommon => 'c'

def ofLetter (char : Char) : Option UserFlag :=
  all.find? (·.letter = char)

end UserFlag

structure User where
  uuid : Str
  nick : Str := []
  ident : Str := []
  realname : Str := []
  host : Str
  cloak : Str := []
  vhost : Option Str := none
  secure : Bool := false
  certfp : Option Str := none
  account : Option Str := none
  signon : Timestamp
  nickTs : Timestamp
  ip : Str
  registered : Bool := false
  e2e : Bool := false
  saslMech : Option Str := none
  channels : List Str := []
  invited : List Str := []
  signore : List Str := []
  accept : List Str := []
  flags : UserFlag → Bool := fun _ => false
  snomaskCats : Str := []
  swhois : Option Str := none

namespace User

def umodes (user : User) : Str :=
  '+' :: (UserFlag.all.filter user.flags).map UserFlag.letter

def hostDisplay (user : User) : Str :=
  match user.vhost with
  | some vhost => vhost
  | none =>
    if user.flags .cloak && user.cloak ≠ [] then user.cloak else user.host

def mask (user : User) : Str :=
  user.nick ++ '!' :: user.ident ++ '@' :: user.hostDisplay

def setFlag (flag : UserFlag) (on : Bool) (user : User) : User :=
  { user with flags := Function.update user.flags flag on }

end User

/-! ## Servers, links and remote users -/

structure LinkBlock where
  name : Str
  ip : Str
  password : Str
  deriving DecidableEq, Repr

structure Link where
  outbound : Bool
  registered : Bool := false
  sentServer : Bool := false
  sid : Option Str := none
  name : Option Str := none
  bursting : Bool := false
  lastSeen : Timestamp
  deriving DecidableEq, Repr

structure RemoteServer where
  sid : Str
  name : Str
  desc : Str
  via : Uid
  isService : Bool
  silentService : Bool
  deriving DecidableEq, Repr

structure RemoteUser where
  uuid : Str
  nick : Str
  ident : Str
  host : Str
  realname : Str
  account : Option Str := none
  ip : Str
  modes : Str
  sid : Str
  via : Uid
  nickTs : Timestamp
  away : Option Str := none
  deriving DecidableEq, Repr

/-! ## X-lines and spam filters -/

inductive XKind where
  | kline
  | gline
  | zline
  | eline
  | shun
  | qline
  | cban
  | svshold
  | rline
  | jupe
  | aline
  | galine
  deriving DecidableEq, Repr

def XKind.all : List XKind :=
  [.kline, .gline, .zline, .eline, .shun, .qline, .cban, .svshold, .rline, .jupe, .aline, .galine]

def XKind.tag : XKind → Str
  | .kline => "K"
  | .gline => "G"
  | .zline => "Z"
  | .eline => "E"
  | .shun => "SHUN"
  | .qline => "Q"
  | .cban => "CBAN"
  | .svshold => "SVSHOLD"
  | .rline => "R"
  | .jupe => "JUPE"
  | .aline => "ALINE"
  | .galine => "GALINE"

def XKind.fromTag (tag : Str) : Option XKind :=
  XKind.all.find? (·.tag = tag)

structure XLine where
  kind : XKind
  mask : Str
  reason : Str
  setter : Str
  expires : Timestamp
  setAt : Timestamp
  deriving DecidableEq, Repr

structure SpamFilter where
  pattern : Str
  engine : Str
  action : Str
  duration : UInt64
  reason : Str
  deriving DecidableEq, Repr

/-! ## Numbers on the wire -/

def renderU64 (number : UInt64) : Str := Str.ofNat number.toNat

def parseU64 (text : Str) : Option UInt64 :=
  (toNatBelow (2 ^ 64) text).map UInt64.ofNat

def renderU32 (number : UInt32) : Str := Str.ofNat number.toNat

def parseU32 (text : Str) : Option UInt32 :=
  (toNatBelow (2 ^ 32) text).map UInt32.ofNat

def parseU8 (text : Str) : Option UInt8 :=
  (toNatBelow (2 ^ 8) text).map UInt8.ofNat

theorem parseU64_renderU64 (number : UInt64) : parseU64 (renderU64 number) = some number := by
  rw [parseU64, renderU64, toNatBelow_ofNat number.toNat_lt]
  simp

theorem parseU32_renderU32 (number : UInt32) : parseU32 (renderU32 number) = some number := by
  rw [parseU32, renderU32, toNatBelow_ofNat number.toNat_lt]
  simp

/-! ## Lines to linked servers -/

/-- The lines written to a link, one constructor per format string. -/
inductive Out where
  | server (name pass sid desc : Str)
  | error (text : Str)
  | burst (now : Timestamp)
  | endburst
  | pong (token : Str)
  | uid (sid : Str) (user : User)
  | metadata (sid target key value : Str)
  | fjoin (source name : Str) (ts : Timestamp) (modes members : Str)
  | fmode (source chan : Str) (ts : Timestamp) (modes : Str) (args : List Str)
  | addline (sid tag mask setter : Str) (setAt duration : UInt64)
      (reason : Str)
  | nick (uuid newnick : Str) (ts : Timestamp)
  | save (sid uuid : Str) (ts : Timestamp)
  | quit (uuid reason : Str)
  | join (uuid chan : Str)
  | ijoin (uuid name : Str) (ts : Timestamp) (letters : Str)
  | part (uuid chan reason : Str)
  | kick (uuid chan victim reason : Str)
  | ftopic (source chan : Str) (chants ts : Timestamp) (text : Str)
  | rename (source oldname newname reason : Str)
  | umode (uuid modes : Str)
  | opertype (uuid : Str)
  | away (uuid : Str) (reason : Option Str)
  | setname (uuid realname : Str)
  | message (source command target text : Str)
  | forward (message : Message)

namespace Out

def uidFields (user : User) : List Str :=
  [user.uuid, renderU64 user.signon, user.nick, user.host, user.hostDisplay,
    user.ident, user.ident, user.ip, renderU64 user.signon, user.umodes]

def line : Out → Line
  | server name pass sid desc => ⟨none, "SERVER", [name, pass, sid], some desc⟩
  | error text => ⟨none, "ERROR", [], some text⟩
  | burst now => ⟨none, "BURST", [renderU64 now], none⟩
  | endburst => ⟨none, "ENDBURST", [], none⟩
  | pong token => ⟨none, "PONG", [], some token⟩
  | uid sid user => ⟨some sid, "UID", uidFields user, some user.realname⟩
  | metadata sid target key value =>
    ⟨some sid, "METADATA", [target, key], some value⟩
  | fjoin source name ts modes members =>
    ⟨some source, "FJOIN", [name, renderU64 ts, modes], some members⟩
  | fmode source chan ts modes args =>
    ⟨some source, "FMODE", [chan, renderU64 ts, modes] ++ args, none⟩
  | addline sid tag mask setter setAt duration reason =>
    ⟨some sid, "ADDLINE",
      [tag, mask, setter, renderU64 setAt, renderU64 duration], some reason⟩
  | nick uuid newnick ts => ⟨some uuid, "NICK", [newnick, renderU64 ts], none⟩
  | save sid uuid ts => ⟨some sid, "SAVE", [uuid, renderU64 ts], none⟩
  | quit uuid reason => ⟨some uuid, "QUIT", [], some reason⟩
  | join uuid chan => ⟨some uuid, "JOIN", [chan], none⟩
  | ijoin uuid name ts letters =>
    ⟨some uuid, "IJOIN", [name, "1", renderU64 ts] ++
      (if letters = [] then [] else [letters]), none⟩
  | part uuid chan reason =>
    ⟨some uuid, "PART", [chan], if reason = [] then none else some reason⟩
  | kick uuid chan victim reason =>
    ⟨some uuid, "KICK", [chan, victim], some reason⟩
  | ftopic source chan chants ts text =>
    ⟨some source, "FTOPIC", [chan, renderU64 chants, renderU64 ts],
      some text⟩
  | rename source oldname newname reason =>
    ⟨some source, "RENAME", [oldname, newname], some reason⟩
  | umode uuid modes => ⟨some uuid, "MODE", [uuid, modes], none⟩
  | opertype uuid =>
    ⟨some uuid, "OPERTYPE", [], some ("IRC_Operator" : Str)⟩
  | away uuid reason => ⟨some uuid, "AWAY", [], reason⟩
  | setname uuid realname => ⟨some uuid, "SETNAME", [], some realname⟩
  | message source command target text =>
    ⟨some source, command, [target], some text⟩
  | forward parsed => ⟨parsed.source, parsed.command, parsed.params, none⟩

def text : Out → Str
  | forward parsed => parsed.toWire
  | out => out.line.render

def receive (out : Out) : Option Message := parse out.text

end Out

/-! ## The record -/

structure Config where
  name : Str
  sid : Str
  serverDesc : Str := []
  linkBlocks : List LinkBlock := []
  saslServer : Str := []
  ulines : List Str := []
  maxnick : Nat := 30
  maxchannel : Nat := 50
  filterEngine : Str := "glob"
  operprefix : Bool := false
  autojoin : List Str := []
  connUmodes : Option Str := none
  operModes : Option Str := none
  operjoin : List Str := []
  prefixes : PrefixConfig := {}

inductive Hook where
  | connect (uid : Uid)
  | join (uid : Uid) (key : Str)
  deriving DecidableEq, Repr

structure Server where
  conf : Config
  clock : Timestamp
  users : Table Uid User := ∅
  nickIndex : Table Str Uid := ∅
  uuidLocal : Table Str Uid := ∅
  acceptedNicks : Table Str Nat := ∅
  channels : Table Str Channel := ∅
  links : Table Uid Link := ∅
  servers : Table Str RemoteServer := ∅
  remoteUsers : Table Str RemoteUser := ∅
  remoteNick : Table Str Str := ∅
  xlines : List XLine := []
  filters : List SpamFilter := []
  profiles : Table Uid (Table Str Str) := ∅
  events : List Hook := []
  sent : List (Uid × Out) := []

/--
What the modelled functions call but this development does not open up: the
Unicode lower-casing of the standard library, calendar formatting, the pattern
compiler, the keyed hash behind cloaks and hashed idents, the restriction
checks in front of a JOIN and ban matching.  A JOIN that passes its checks
names the channel it ends in, which differs from the requested one after a
redirect.
-/
structure Env where
  toLowercase : Str → Str
  banExpirySuffix : Timestamp → Timestamp → Str
  patternCompiles : Str → Str → Bool
  computeCloak : Server → Uid → Option Str
  hashedIdent : Server → Uid → Option Str
  joinGate : Server → Uid → Str → Option Str
  banListHit : Server → Uid → Ban → Bool

def Env.plain : Env where
  toLowercase := toAsciiLower
  banExpirySuffix := fun _ _ => []
  patternCompiles := fun _ _ => true
  computeCloak := fun _ _ => none
  hashedIdent := fun _ _ => none
  joinGate := fun _ _ name => some name
  banListHit := fun _ _ _ => false

namespace Server

/-! ## Lookups -/

section

variable (server : Server) (target : Str)

def findNick (nick : Str) : Option Uid :=
  server.nickIndex.lookup (toAsciiLower nick)

def isOper (uid : Uid) : Bool :=
  match server.users.lookup uid with
  | some user => user.flags .oper
  | none => false

def findRemote (nick : Str) : Option (Str × Uid) :=
  (server.remoteNick.lookup (toAsciiLower nick)).bind fun uuid =>
    (server.remoteUsers.lookup uuid).map fun remote => (uuid, remote.via)

def serverIsService (sid : Str) : Bool :=
  match server.servers.lookup sid with
  | some remote => remote.isService
  | none => false

def sourceIsService (message : Message) : Bool :=
  match message.source with
  | some source =>
    server.serverIsService ((bytePrefix 3 source).getD source)
  | none => false

def uuidIsService (uuid : Str) : Bool :=
  match server.remoteUsers.lookup uuid with
  | some remote => server.serverIsService remote.sid
  | none => false

def sourcedVia (uuid : Str) (via : Uid) : Bool :=
  (server.remoteUsers.lookup uuid).map RemoteUser.via = some via

def sourceBehind (source : Str) (via : Uid) : Bool :=
  match server.remoteUsers.lookup source with
  | some remote => remote.via = via
  | none =>
    match server.servers.lookup source with
    | some remote => remote.via = via
    | none => false

def linkLocalTarget : Option Uid :=
  (server.uuidLocal.lookup target).or (server.findNick target)

def remoteTarget : Option Str :=
  if target ∈ server.remoteUsers then some target
  else server.remoteNick.lookup (toAsciiLower target)

def linkToward : Option Uid :=
  (server.remoteTarget target).bind fun uuid =>
    (server.remoteUsers.lookup uuid).map RemoteUser.via

def nickToUuid (token : Str) : Str :=
  match (server.findNick token).bind server.users.lookup with
  | some user => user.uuid
  | none =>
    match server.findRemote token with
    | some (uuid, _) => uuid
    | none => token

/-! ## Writing to links -/

@[simps]
def linkOut (uid : Uid) (out : Out) (server : Server) : Server :=
  { server with
    sent := if uid ∈ server.links then server.sent ++ [(uid, out)]
      else server.sent }

def linkTargets (except : Option Uid) : List Uid :=
  ((Table.toPairs server.links).filter fun entry =>
    entry.2.registered && some entry.1 ≠ except).map Prod.fst

@[simps]
def propagate (out : Out) (except : Option Uid) (server : Server) : Server :=
  { server with
    sent := server.sent ++ (server.linkTargets except).map fun uid => (uid, out) }

def forwardToTarget (message : Message) (origin : Uid) (server : Server) : Server :=
  match server.linkToward target with
  | some via =>
    if via ≠ origin then server.linkOut via (.forward message) else server
  | none => server

end

end Server

end EchoIrcd
