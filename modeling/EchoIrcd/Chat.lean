import EchoIrcd.MessageText
import EchoIrcd.OnLink

/-!
# PRIVMSG, NOTICE and TAGMSG

The message commands of `core_message.rs` with the lines they write to local
clients.  A message to a channel passes the checks on who may speak, slow mode,
the mute ban, the flood limit, the content modes and the repeat check, in this
order; at the flood limit the sender is kicked.  A message to a user passes the
gates that user has set up.  Tag prefixes, which depend on the capabilities of
the reader only, are left out of the lines.
-/

namespace EchoIrcd

open Str MessageText Prefix

/-! ## State -/

/-- The oper privileges the message commands ask for. -/
inductive Priv where
  | ignoreCommonchans
  | ignoreCallerid
  | ignoreNoctcp
  | ignorePrivdeaf
  deriving DecidableEq, Repr

structure OperType where
  allPrivs : Bool := false
  privs : List Priv := []
  denyPrivs : List Priv := []
  deriving DecidableEq, Repr

/-- The fields of a user that only the message commands use. -/
structure Manner where
  silence : List Str := []
  echoMessage : Bool := false
  messageTags : Bool := false
  away : Option Str := none
  lastMsg : Timestamp := 0
  operType : Option OperType := none
  deriving DecidableEq, Repr

/-- The fields of a channel member that only the message commands use. -/
structure Pace where
  joined : Timestamp := 0
  hidden : Bool := false
  recentMsgs : List Str := []
  slowHits : List Timestamp := []
  floodHits : List Timestamp := []
  deriving DecidableEq, Repr

inductive MsgKind where
  | privmsg
  | notice
  deriving DecidableEq, Repr

def MsgKind.word : MsgKind → Str
  | .privmsg => "PRIVMSG"
  | .notice => "NOTICE"

structure HistMsg where
  ts : Timestamp
  msgid : Str
  mask : Str
  kind : MsgKind
  target : Str
  text : Str
  deriving DecidableEq, Repr

/-- An inbound batch; a part may continue the one before it. -/
structure MlineBatch where
  bref : Str
  target : Str
  notice : Bool := false
  parts : List (Str × Bool) := []
  bytes : Nat := 0
  overflowed : Bool := false
  deriving DecidableEq, Repr

/-- Why a client is sent a copy of a message. -/
inductive Copy where
  | direct
  | channel
  | echo
  deriving DecidableEq, Repr

/-- A line written to a local client. -/
inductive Shown where
  | message (copy : Copy) (mask : Str) (kind : MsgKind) (target text : Str)
  | tagmsg (copy : Copy) (mask target : Str)
  | numeric (code : Nat) (text : Str)
  deriving DecidableEq, Repr

structure ChatConf where
  chathistoryLimit : Nat := 256
  maxaccept : Nat := 64
  multilineMaxbytes : Nat := 4096
  multilineMaxlines : Nat := 24
  censor : List CensorRule := []
  aliases : List Str := []
  abbreviation : Bool := false

structure Chat where
  server : Server
  created : Timestamp := 0
  manners : Table Uid Manner := ∅
  paces : Table (Str × Uid) Pace := ∅
  history : Table Str (List HistMsg) := ∅
  batches : Table Uid MlineBatch := ∅
  msgidCounter : UInt64 := 0
  shown : List (Uid × Shown) := []

def RemoteUser.mask (remote : RemoteUser) : Str :=
  remote.nick ++ '!' :: remote.ident ++ '@' :: remote.host

structure Refusal where
  code : Nat
  text : Str
  deriving DecidableEq, Repr

namespace Server

/-! ## Standing in a channel -/

section

variable (env : Env) (server : Server) (uid : Uid) (key : Str)

def isLoggedIn : Bool :=
  (server.users.lookup uid).any fun user => user.account.isSome

def isAccepted (target : Uid) (nick : Str) : Bool :=
  (server.users.lookup target).any fun user => toAsciiLower nick ∈ user.accept

def signoreOneWay (ignoring who : Uid) : Bool :=
  (server.users.lookup ignoring).any fun user =>
    user.signore.any fun mask =>
      globMatch env mask ((server.users.lookup who).elim [] User.mask)

def signoreBlocks (left right : Uid) : Bool :=
  server.signoreOneWay env left right || server.signoreOneWay env right left

def hasFlag (flag : ChanFlag) : Bool :=
  (server.channels.lookup key).any fun channel => channel.modes.flags flag

def exemptRank : Str → Option Nat
  | 'q' :: _ => some owner.rank
  | 'a' :: _ => some admin.rank
  | 'o' :: _ => some op.rank
  | 'h' :: _ => some halfop.rank
  | 'v' :: _ => some voice.rank
  | _ => none

def chanopExempt (restriction : Str) : Bool :=
  (server.channels.lookup key).any fun channel =>
    (channel.lists .exemptChanOps).any fun entry =>
      match splitOnce ':' entry.mask with
      | some (name, level) =>
        eqIgnoreAsciiCase name restriction &&
          (exemptRank level).any fun need => need ≤ server.rank uid key
      | none => false

def extbanActive (kind : Char) : Bool :=
  match server.channels.lookup key, server.users.lookup uid with
  | some channel, some user =>
    let hit := fun list : ListKind => (channel.lists list).any fun entry =>
      match entry.mask with
      | letter :: ':' :: mask => letter = kind && globMatch env mask user.mask
      | _ => false
    hit .ban && !hit .except
  | _, _ => false

def outsiderBanned (channel : Channel) : Bool :=
  (channel.lists .ban).any (env.banListHit server uid) &&
    !(channel.lists .except).any (env.banListHit server uid)

/-- `+U` routes the message of an unvoiced sender to the half-ops and above. -/
def opOnly : Bool :=
  server.hasFlag key .opmoderated && server.rank uid key < voice.rank

def allChannelLinks : List Uid :=
  match server.channels.lookup key with
  | some channel =>
    ((Table.toPairs channel.rmembers).filterMap fun entry =>
      (server.remoteUsers.lookup entry.1).map RemoteUser.via).dedup
  | none => []

def floodExempt : Bool :=
  halfop.rank ≤ server.rank uid key || server.isOper uid

end

end Server

namespace Chat

section

variable (env : Env) (key : Str) (conf : ChatConf) (uid tuid : Uid) (mask : Str) (kind : MsgKind)
  (target text : Str) (server : Server) (chat : Chat)

def manner (uid : Uid) : Manner :=
  if uid ∈ chat.server.users then (chat.manners.lookup uid).getD {} else {}

def pace (key : Str) (uid : Uid) : Pace := (chat.paces.lookup (key, uid)).getD {}

def setPace (pace : Pace) (chat : Chat) : Chat :=
  { chat with paces := chat.paces.insert (key, uid) pace }

def hasPriv (uid : Uid) (priv : Priv) : Bool :=
  chat.server.isOper uid &&
    match (chat.manner uid).operType with
    | none => true
    | some type => (type.allPrivs || priv ∈ type.privs) && priv ∉ type.denyPrivs

def isSilenced (silencer : Uid) (mask : Str) : Bool :=
  (chat.manner silencer).silence.any fun pattern => globMatch env pattern mask

/-! ## Output -/

def emitTo (line : Shown) (chat : Chat) : Chat :=
  { chat with
    shown := if uid ∈ chat.server.users then chat.shown ++ [(uid, line)] else chat.shown }

def numeric (uid : Uid) (code : Nat) (text : Str) (chat : Chat) : Chat :=
  chat.emitTo uid (.numeric code text)

def refuse (refusal : Refusal) (chat : Chat) : Chat :=
  match kind with
  | .privmsg => chat.numeric uid refusal.code refusal.text
  | .notice => chat

def hex (number : UInt64) : Str := Nat.toDigits 16 number.toNat

def nextMsgid : Chat := { chat with msgidCounter := chat.msgidCounter + 1 }

def msgid : Str := hex chat.created ++ '-' :: hex chat.msgidCounter

def record (key : Str) (entry : HistMsg) (chat : Chat) : Chat :=
  let limit := max 1 (min conf.chathistoryLimit 100000)
  let buffer := (chat.history.lookup key).getD [] ++ [entry]
  { chat with history := chat.history.insert key (buffer.drop (buffer.length - limit)) }

def dmKey (left right : Str) : Str :=
  let left := toAsciiLower left
  let right := toAsciiLower right
  if left ≤ right then '\x00' :: left ++ '\x00' :: right
  else '\x00' :: right ++ '\x00' :: left

/-! ## Channel messages -/

def cannotSend (why : Str) : Refusal := ⟨404, target ++ why⟩

def shutOut (key : Str) (server : Server) : Bool :=
  !server.isMember uid key && (server.channels.lookup key).all fun channel =>
    channel.modes.flags .noExternal || server.outsiderBanned env uid channel

def plaintext : Bool :=
  server.hasFlag key .encrypted && !List.isPrefixOf "+E2E ".toList text

def unvoiced (key : Str) (server : Server) : Bool :=
  server.rank uid key < voice.rank

def moderated (uid : Uid) (key : Str) (server : Server) : Bool :=
  server.hasFlag key .moderated && unvoiced uid key server && !server.opOnly uid key &&
    !server.chanopExempt uid key "moderated"

def regModerated (uid : Uid) (key : Str) (server : Server) : Bool :=
  server.hasFlag key .regModerated && unvoiced uid key server && !server.isLoggedIn uid &&
    !server.chanopExempt uid key "regmoderated"

def tooEarly (key : Str) (chat : Chat) : Option UInt32 :=
  let server := chat.server
  ((server.channels.lookup key).bind (·.modes.delaymsg)).filter fun secs =>
    let joined := (chat.pace key uid).joined
    unvoiced uid key server && !server.chanopExempt uid key "delaymsg" &&
      server.isMember uid key && joined ≠ 0 &&
      Server.saturatingSub server.clock joined < secs.toUInt64

def speakRefusal : Option Refusal :=
  let key := toAsciiLower target
  if shutOut env uid key chat.server then
    some (cannotSend target " :Cannot send to channel")
  else if plaintext key text chat.server then
    some (cannotSend target
      " :Channel is end-to-end encrypted (+E) — your client must send the +E2E envelope")
  else if moderated uid key chat.server then
    some (cannotSend target " :Cannot send to channel (+m)")
  else if regModerated uid key chat.server then
    some ⟨477, target ++ " :You must be logged into an account to speak here (+M)".toList⟩
  else (chat.tooEarly uid key).map fun secs => cannotSend target
    (" :You must wait ".toList ++ renderU32 secs ++ "s after joining to speak (+d)".toList)

def slowmode (uid : Uid) (key : Str) (chat : Chat) : Chat × Bool :=
  let server := chat.server
  match (server.channels.lookup key).bind (·.modes.slowmode) with
  | none => (chat, false)
  | some rate =>
    if unvoiced uid key server && !server.chanopExempt uid key "slowmode" &&
        server.isMember uid key then
      let pace := chat.pace key uid
      let cutoff := Server.saturatingSub server.clock rate.secs
      let kept := pace.slowHits.filter (cutoff < ·)
      if rate.count.toNat ≤ kept.length then
        (chat.setPace key uid { pace with slowHits := kept }, true)
      else (chat.setPace key uid { pace with slowHits := kept ++ [server.clock] }, false)
    else (chat, false)

def muted (key : Str) (server : Server) : Bool :=
  server.extbanActive env uid key 'm' && unvoiced uid key server

def messagefloodHit (key : Str) (chat : Chat) : Chat × Option Bool :=
  let server := chat.server
  match (server.channels.lookup key).bind (·.modes.flood) with
  | none => (chat, none)
  | some flood =>
    let pace := chat.pace key uid
    let recent := pace.floodHits.filter fun time =>
      Server.saturatingSub server.clock time < flood.secs
    let hits := recent ++ [server.clock]
    if flood.lines.toNat < hits.length then
      (chat.setPace key uid { pace with floodHits := [] }, some flood.ban)
    else (chat.setPace key uid { pace with floodHits := hits }, none)

def floodGate (key : Str) (chat : Chat) : Chat × Option Bool :=
  if chat.server.floodExempt uid key || chat.server.chanopExempt uid key "flood" then
    (chat, none)
  else chat.messagefloodHit uid key

def floodKick (key : Str) (ban : Bool) (chat : Chat) : Chat :=
  match chat.server.users.lookup uid with
  | none => chat
  | some user =>
    let server := chat.server
    let mask : Str := "*!*@".toList ++ user.hostDisplay
    let name := (server.channels.lookup key).elim key Channel.name
    let addBan := fun channel : Channel =>
      if (channel.lists .ban).any (·.mask = mask) then channel
      else { channel with
        lists := Function.update channel.lists .ban
          (channel.lists .ban ++ [⟨mask, server.conf.name, server.clock, none⟩]) }
    let banned := if ban then
        { server with channels := Table.modify key addBan server.channels }
      else server
    { chat with
      server := (banned.propagateKick uid name user.nick "Flood").dropMember uid key
      paces := chat.paces.erase (key, uid) }

/--
The content modes `+T`, `+C`, `+c`, the extban `c:`, `+g`, `+S`, `+G` and `+B`.
The result is the text that goes out, a refusal, or silence.
-/
def contentCheck : Except (Option Refusal) Str :=
  let key := toAsciiLower target
  let flag := fun flag restriction => server.hasFlag key flag &&
    !server.chanopExempt uid key restriction
  let filtered := (server.channels.lookup key).any fun channel =>
    (channel.lists .filter).any fun entry => globMatch env entry.mask text
  let refused := fun why : Str => Except.error (some (cannotSend target why))
  let encrypted := server.hasFlag key .encrypted
  if kind = .notice && flag .noNotice "nonotice" then .error none
  else if flag .noCtcp "noctcp" && isCtcp text && !MessageText.isAction text then
    refused " :CTCP is disabled (+C)"
  else if flag .noColor "blockcolor" && hasFormatting text then
    refused " :Formatting/colour is disabled (+c)"
  else if server.extbanActive env uid key 'c' && hasFormatting text then
    refused " :Formatting/colour is disabled for you (+b c:)"
  else if filtered && !server.chanopExempt uid key "filter" then
    refused " :Cannot send to channel (blocked by +g filter)"
  else
    let body := if flag .stripColor "stripcolor" then stripFormatting text else text
    let censored := if flag .censor "censor" && !encrypted && conf.censor ≠ [] then
        applyCensor conf.censor body
      else some body
    match censored with
    | none => refused " :Cannot send to channel (+G censor)"
    | some body =>
      let shouting := ((server.channels.lookup key).bind (·.modes.anticaps)).any fun limit =>
        (capsPercent body).any (limit.toNat ≤ ·)
      if shouting && !encrypted && !server.floodExempt uid key &&
          !server.chanopExempt uid key "anticaps" then
        refused " :Cannot send to channel (+B: too many capitals)"
      else .ok body

def repeated (key body : Str) (chat : Chat) : Chat × Bool :=
  let server := chat.server
  match (server.channels.lookup key).bind (·.modes.repeatLines) with
  | none => (chat, false)
  | some limit =>
    if server.rank uid key < halfop.rank && !server.chanopExempt uid key "repeat" &&
        server.isMember uid key then
      let pace := chat.pace key uid
      if body ∈ pace.recentMsgs then (chat, true)
      else
        let recent := pace.recentMsgs ++ [body]
        (chat.setPace key uid
          { pace with recentMsgs := recent.drop (recent.length - limit.toNat) }, false)
    else (chat, false)

def revealMember (key : Str) (chat : Chat) : Chat :=
  if (chat.pace key uid).hidden then
    chat.setPace key uid { chat.pace key uid with hidden := false }
  else chat

def hears (key : Str) (src : Uid) (opOnly : Bool) (uid : Uid) : Bool :=
  match chat.server.users.lookup uid with
  | none => false
  | some user =>
    uid ≠ src && (!user.flags .deaf || chat.hasPriv src .ignorePrivdeaf) &&
      !chat.server.signoreBlocks env src uid &&
      !(opOnly && chat.server.rank uid key < halfop.rank)

def members (chat : Chat) (key : Str) : List Uid :=
  match chat.server.channels.lookup key with
  | some channel => (Table.toPairs channel.members).map Prod.fst
  | none => []

def toChannelTagged (src : Uid) (opOnly : Bool) (line : Shown) (chat : Chat) : Chat :=
  ((chat.members key).filter (chat.hears env key src opOnly)).foldl
    (fun chat uid => chat.emitTo uid line) chat

def echo (line : Shown) (chat : Chat) : Chat :=
  if (chat.manner uid).echoMessage then chat.emitTo uid line else chat

def sendChannelToLinks (key target : Str) (kind : MsgKind) (text : Str) (chat : Chat) : Chat :=
  match chat.server.users.lookup uid with
  | some user =>
    let out := Out.message user.uuid kind.word target text
    let told := (chat.server.allChannelLinks key).foldl
      (fun server link => server.linkOut link out) chat.server
    { chat with server := told }
  | none => chat

def sendToChannel (body : Str) (chat : Chat) : Chat :=
  let key := toAsciiLower target
  let opOnly := chat.server.opOnly uid key
  let counted := (chat.revealMember uid key).nextMsgid
  let entry : HistMsg := ⟨chat.server.clock, counted.msgid, mask, kind, target, body⟩
  -- a message for the ops alone is not kept for later readers
  let recorded := if opOnly then counted else counted.record conf key entry
  let line := fun copy => Shown.message copy mask kind target body
  ((recorded.toChannelTagged env key uid opOnly (line .channel)).echo uid
    (line .echo)).sendChannelToLinks uid key target kind body

/-- The checks on a channel message: the state after a refusal, or the text to send. -/
def channelGates : Except Chat (Chat × Str) :=
  let key := toAsciiLower target
  match chat.speakRefusal env uid target text with
  | some refusal => .error (chat.refuse uid kind refusal)
  | none =>
    match chat.slowmode uid key with
    | (slowed, true) => .error (slowed.refuse uid kind (cannotSend target
        " :Channel is in slow mode (+W) — please wait before sending again"))
    | (slowed, false) =>
      if muted env uid key slowed.server then
        .error (slowed.refuse uid kind
          (cannotSend target " :Cannot send to channel (you're muted, +b m:)"))
      else
        match slowed.floodGate uid key with
        | (flooding, some ban) => .error (flooding.floodKick uid key ban)
        | (paced, none) =>
          match contentCheck env conf uid kind target text paced.server with
          | .error none => .error paced
          | .error (some refusal) => .error (paced.refuse uid kind refusal)
          | .ok body =>
            match paced.repeated uid key body with
            | (held, true) => .error (held.refuse uid kind
                (cannotSend target " :Cannot send to channel (+K: repeated message)"))
            | (passed, false) => .ok (passed, body)

def deliverChannel : Chat :=
  match chat.channelGates env conf uid kind target text with
  | .error refused => refused
  | .ok (passed, body) => passed.sendToChannel env conf uid mask kind target body

/-! ## Messages to users -/

def shareChannel (left right : Uid) : Bool :=
  match chat.server.users.lookup left, chat.server.users.lookup right with
  | some left, some right => left.channels.any (· ∈ right.channels)
  | _, _ => false

def hasUserFlag (uid : Uid) (flag : UserFlag) : Bool :=
  (chat.server.users.lookup uid).any fun user => user.flags flag

def isSecure (uid : Uid) : Bool :=
  (chat.server.users.lookup uid).any User.secure

def nickOf (uid : Uid) : Str :=
  (chat.server.users.lookup uid).elim [] User.nick

def userRefusal (uid tuid : Uid) (text : Str) : Option Refusal :=
  let nick := chat.nickOf tuid
  if chat.hasUserFlag tuid .denyUncommon && uid ≠ tuid &&
      !chat.hasPriv uid .ignoreCommonchans && !chat.shareChannel uid tuid then
    some ⟨531, nick ++ " :You must share a channel to message this user (+c)".toList⟩
  else if isCtcp text && !MessageText.isAction text && uid ≠ tuid &&
      chat.hasUserFlag tuid .noctcp && !chat.hasPriv uid .ignoreNoctcp then
    some ⟨531, nick ++
      " :Cannot CTCP this user — they have mode +T set (CTCPs blocked)".toList⟩
  else if chat.hasUserFlag tuid .regOnlyPm && !chat.server.isLoggedIn uid then
    some ⟨477, nick ++ " :You must be logged into an account to message this user (+R)".toList⟩
  else if chat.hasUserFlag tuid .sslPm && !chat.isSecure uid then
    some ⟨531, nick ++ " :You must use a TLS connection to message this user (+z)".toList⟩
  else none

def screened (uid tuid : Uid) : Bool :=
  chat.hasUserFlag tuid .callerid && uid ≠ tuid &&
    !chat.server.isAccepted tuid (chat.nickOf uid) && !chat.hasPriv uid .ignoreCallerid

def announceCaller : Chat :=
  let userHost := (chat.server.users.lookup uid).elim ['@'] fun user =>
    user.ident ++ '@' :: user.hostDisplay
  let told := chat.numeric tuid 718 (chat.nickOf uid ++ ' ' :: userHost ++
    " :is messaging you, and you have umode +g.".toList)
  let nick := chat.nickOf tuid
  (told.refuse uid kind ⟨716, nick ++ " :is in +g mode (server-side ignore).".toList⟩).refuse
    uid kind ⟨717, nick ++ " :has been informed that you messaged them.".toList⟩

def tellAway : Chat :=
  match (chat.manner tuid).away with
  | some away => chat.refuse uid kind ⟨301, target ++ " :".toList ++ away⟩
  | none => chat

/-- A sender with `+g` accepts whoever they write to. -/
def autoAccept : Chat :=
  let nick := toAsciiLower (chat.nickOf tuid)
  match chat.server.users.lookup uid with
  | some user =>
    if user.flags .callerid && nick ≠ [] && user.accept.length < conf.maxaccept &&
        nick ∉ user.accept then
      { chat with server := { chat.server with
          users := Table.modify uid (fun user =>
            { user with accept := user.accept ++ [nick] }) chat.server.users
          acceptedNicks := chat.server.acceptedNicks.insert nick
            ((chat.server.acceptedNicks.lookup nick).getD 0 + 1) } }
    else chat
  | none => chat

def ignored : Bool :=
  chat.isSilenced env tuid mask || chat.server.signoreBlocks env uid tuid

def sendToUser : Chat :=
  let silenced := chat.ignored env uid tuid mask
  let line := fun copy => Shown.message copy mask kind target text
  let counted := chat.nextMsgid
  let entry : HistMsg := ⟨chat.server.clock, counted.msgid, mask, kind, target, text⟩
  -- the silenced sender is not told, and gets the usual echo
  let sent := if silenced then counted
    else (counted.emitTo tuid (line .direct)).record conf
      (dmKey (mask.takeWhile (· ≠ '!')) target) entry
  let echoed := sent.echo uid (line .echo)
  let answered := if silenced then echoed else echoed.tellAway uid tuid kind target
  answered.autoAccept conf uid tuid

def deliverUser : Chat :=
  match chat.userRefusal uid tuid text with
  | some refusal => chat.refuse uid kind refusal
  | none =>
    if chat.screened uid tuid then chat.announceCaller uid tuid kind
    else chat.sendToUser env conf uid tuid mask kind target text

def deliverRemote (user : User) (uuid : Str) (via : Uid) (kind : MsgKind) (target text : Str)
    (chat : Chat) : Chat :=
  let out := Out.message user.uuid kind.word uuid text
  let sent := { chat with server := chat.server.linkOut via out }
  if (sent.manner uid).echoMessage then
    sent.nextMsgid.emitTo uid (.message .echo user.mask kind target text)
  else sent

def touch : Chat :=
  { chat with
    manners := chat.manners.insert uid { chat.manner uid with lastMsg := chat.server.clock } }

def deliver (params : List Str) (chat : Chat) : Chat :=
  match params with
  | [] => chat.refuse uid kind ⟨411, ":No recipient given (".toList ++ kind.word ++ [')']⟩
  | [_] | _ :: [] :: _ => chat.refuse uid kind ⟨412, ":No text to send"⟩
  | target :: text :: _ =>
    match chat.server.users.lookup uid with
    | none => chat
    | some user =>
      let active := chat.touch uid
      if target.head? = some '#' then
        active.deliverChannel env conf uid user.mask kind target text
      else
        match active.server.findNick target with
        | some tuid => active.deliverUser env conf uid tuid user.mask kind target text
        | none =>
          match active.server.findRemote target with
          | some (uuid, via) => active.deliverRemote uid user uuid via kind target text
          | none => active.refuse uid kind
              ⟨401, target ++ " :No such nick/channel".toList⟩

/-! ## TAGMSG -/

def dmBlocked (uid tuid : Uid) : Bool :=
  if uid = tuid then false
  else if tuid ∉ chat.server.users then true
  else if chat.hasUserFlag tuid .denyUncommon && !chat.hasPriv uid .ignoreCommonchans &&
      !chat.shareChannel uid tuid then true
  else if chat.hasUserFlag tuid .regOnlyPm && !chat.server.isLoggedIn uid then true
  else if chat.hasUserFlag tuid .sslPm && !chat.isSecure uid then true
  else if chat.hasUserFlag tuid .callerid && !chat.hasPriv uid .ignoreCallerid &&
      !chat.server.isAccepted tuid (chat.nickOf uid) then true
  else chat.isSilenced env tuid ((chat.server.users.lookup uid).elim [] User.mask)

def tagRefused (key : Str) (chat : Chat) : Bool :=
  !chat.server.isMember uid key ||
    (chat.server.hasFlag key .moderated && unvoiced uid key chat.server) ||
    muted env uid key chat.server

def hearsTags (src uid : Uid) : Bool :=
  (uid ≠ src || (chat.manner src).echoMessage) &&
    (!chat.hasUserFlag uid .deaf || chat.hasPriv src .ignorePrivdeaf) &&
    (chat.manner uid).messageTags

def copyFor (src uid : Uid) : Copy := if uid = src then .echo else .channel

def tagToChannel : Chat :=
  let key := toAsciiLower target
  if chat.tagRefused env uid key then chat
  else ((chat.members key).filter (chat.hearsTags uid)).foldl
    (fun chat member => chat.emitTo member (.tagmsg (copyFor uid member) mask target)) chat

def tagToUser : Chat :=
  if chat.dmBlocked env uid tuid then chat
  else
    let sent := if (chat.manner tuid).messageTags then
        chat.emitTo tuid (.tagmsg .direct mask target)
      else chat
    sent.echo uid (.tagmsg .echo mask target)

def tagMsg (tags target : Str) (chat : Chat) : Chat :=
  if tags = [] then chat
  else
    match chat.server.users.lookup uid with
    | none => chat
    | some user =>
      if target.head? = some '#' then chat.nextMsgid.tagToChannel env uid user.mask target
      else
        match chat.server.findNick target with
        | some tuid => chat.nextMsgid.tagToUser env uid tuid user.mask target
        | none => chat.nextMsgid

/-! ## Messages from a link -/

def uuidMask (uuid : Str) : Option Str :=
  match server.remoteUsers.lookup uuid with
  | some remote => some remote.mask
  | none => (server.uuidLocal.lookup uuid).bind fun uid =>
    (server.users.lookup uid).map User.mask

/-- The name a message from a link carries: a user's mask or a server's name. -/
def sourceMask (source : Str) : Option Str :=
  (uuidMask server source).or ((server.servers.lookup source).map RemoteServer.name)

def relayChannelMessage (line : Shown) (chat : Chat) : Chat :=
  ((chat.members key).filter fun uid => !chat.hasUserFlag uid .deaf).foldl
    (fun chat uid => chat.emitTo uid line) chat

end

def linkMessageRecv (via : Uid) (kind : MsgKind) (message : Message) (chat : Chat) : Chat :=
  match message.source, message.params with
  | some source, target :: text :: _ =>
    if !chat.server.sourceBehind source via then chat
    else
      match sourceMask chat.server source with
      | none => chat
      | some mask =>
        let passed := { chat with server := chat.server.linkMessageRecv via message }
        if target.head? = some '#' then
          passed.relayChannelMessage (toAsciiLower target)
            (.message .channel mask kind target text)
        else
          match chat.server.uuidLocal.lookup target with
          | some uid =>
            passed.emitTo uid (.message .direct mask kind (chat.nickOf uid) text)
          | none => passed
  | _, _ => chat

end Chat

end EchoIrcd
