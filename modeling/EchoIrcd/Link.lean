import EchoIrcd.Xline

/-!
# Links

The life of a server link (`link.rs`): the `SERVER` handshake, the netburst
that follows it, rejection and netsplit.  The burst of a channel is an `FJOIN`
with the members and the mode letters, then one `FMODE` for the key, the limit
and each `b`, `e` and `I` mask.
-/

namespace EchoIrcd

open Str Table

def validSid (sid : Str) : Bool :=
  sid.length = 3 ∧ (sid.head?.map Char.isDigit) = some true ∧
    isCaps sid

namespace Server

/-! ## Opening a link -/

section

variable (uid : Uid) (server : Server)

def serverLine (pass : Str) : Out :=
  .server server.conf.name pass server.conf.sid server.conf.serverDesc

def addLink (ip : Str) (outbound : Bool) (server : Server) : Server :=
  let block := if outbound then
      server.conf.linkBlocks.find? (·.ip = ip)
    else none
  let opened := { server with
    links := server.links.insert uid
      { outbound := outbound, sentServer := block.isSome,
        lastSeen := server.clock } }
  match block with
  | some block => opened.linkOut uid (server.serverLine block.password)
  | none => opened

def ulineMatch (name : Str) : Bool × Bool :=
  if server.conf.saslServer ≠ [] ∧
      eqIgnoreAsciiCase name server.conf.saslServer then (true, false)
  else
    match server.conf.ulines.find? fun line =>
      match words line with
      | first :: _ => eqIgnoreAsciiCase first name
      | [] => false with
    | some line =>
      (true, (words line).tail.any fun word =>
        eqIgnoreAsciiCase word "silent")
    | none => (false, false)

/-! ## The netburst -/

def userBurst : List Out :=
  ((toPairs server.users).filter (·.2.registered)).flatMap fun entry =>
    server.userIntroLines entry.2

/-- One member of an `FJOIN`: status letters, comma, uuid. -/
def memberToken (config : PrefixConfig) (member : Member) (uuid : Str) : Str :=
  member.modeLetters config ++ ',' :: uuid

def memberTokens (channel : Channel) : List Str :=
  (toPairs channel.members).filterMap (fun entry =>
    (server.users.lookup entry.1).map fun user =>
      memberToken server.conf.prefixes entry.2 user.uuid) ++
  (toPairs channel.rmembers).map fun entry =>
    memberToken server.conf.prefixes entry.2 entry.1

def listBurst (channel : Channel) (kind : ListKind) : List Out :=
  (channel.lists kind).map fun ban =>
    .fmode server.conf.sid channel.name channel.created ['+', kind.letter]
      [ban.mask]

def burstChannel (channel : Channel) : List Out :=
  if server.memberTokens channel = [] then []
  else
    .fjoin server.conf.sid channel.name channel.created channel.modes.render
        (List.intercalate [' '] (server.memberTokens channel)) ::
      ((channel.modes.key.toList.map fun key =>
        .fmode server.conf.sid channel.name channel.created "+k" [key]) ++
      (channel.modes.limit.toList.map fun limit =>
        .fmode server.conf.sid channel.name channel.created "+l"
          [renderU32 limit]) ++
      [ListKind.ban, .except, .invex].flatMap (server.listBurst channel))

def channelBurst : List Out :=
  (toPairs server.channels).flatMap fun entry =>
    server.burstChannel entry.2

def netburst : List Out :=
  server.userBurst ++ server.channelBurst ++ server.xlineBurst ++
    server.filterBurst

/-! ## Closing a link -/

def dropRemoteUser (uuid : Str) (server : Server) : Server :=
  match server.remoteUsers.lookup uuid with
  | none => server
  | some remote =>
    { reapChannels { server with
        channels := mapValues (fun _ channel =>
          { channel with rmembers := channel.rmembers.erase uuid })
          server.channels } with
      remoteUsers := server.remoteUsers.erase uuid
      remoteNick := server.remoteNick.erase (toAsciiLower remote.nick) }

def closeLink : Server :=
  let split := { server with
    links := server.links.erase uid
    servers := retain (fun _ remote => remote.via ≠ uid) server.servers }
  let gone := ((toPairs server.remoteUsers).filter (·.2.via = uid)).map
    Prod.fst
  gone.foldl (fun server uuid => server.dropRemoteUser uuid) split

def rejectLink (why : Str) (server : Server) : Server :=
  (server.linkOut uid (.error ("Link denied: " ++ why))).closeLink uid

/-! ## The handshake -/

@[simps]
def changeLink (change : Link → Link) (server : Server) : Server :=
  { server with links := modify uid change server.links }

@[simps]
def registerLink (name sid desc : Str) (server : Server) : Server :=
  { server with
    links := modify uid (fun link =>
      { link with registered := true, sid := some sid, name := some name })
      server.links
    servers := server.servers.insert sid
      ⟨sid, name, desc, uid, (server.ulineMatch name).1,
        (server.ulineMatch name).2⟩ }

def greet (block : LinkBlock) (server : Server) : Server :=
  if (server.links.lookup uid).any Link.sentServer then server
  else (server.linkOut uid (server.serverLine block.password)).changeLink uid
    fun link => { link with sentServer := true }

def sendBurst : Server :=
  server.linkOutAll uid
    (.burst server.clock :: (server.netburst ++ [Out.endburst]))

def acceptLink (block : LinkBlock) (name sid desc : Str) (server : Server) : Server :=
  ((server.registerLink uid name sid desc).greet uid block).sendBurst uid

end

def linkServer (env : Env) (uid : Uid) (message : Message) (server : Server) :
    Server :=
  match message.params with
  | name :: pass :: sid :: desc :: _ =>
    match server.matchedJupe env name with
    | some reason =>
      server.rejectLink uid ("Server name is juped: " ++ reason)
    | none =>
      match server.conf.linkBlocks.find? (·.name = name) with
      | none => server.rejectLink uid "No link block for that server name"
      | some block =>
        if block.password ≠ pass then
          server.rejectLink uid "Invalid link password"
        else if !validSid sid ∨ sid = server.conf.sid ∨
            sid ∈ server.servers then
          server.rejectLink uid "Bad or already-present SID"
        else server.acceptLink uid block name sid desc
  | _ => server.rejectLink uid "Not enough SERVER parameters"

theorem linkServer_rel {motive : Server → Prop} (env : Env) {server : Server} {uid : Uid}
    (message : Message) (hrej : ∀ reason, motive (server.rejectLink uid reason))
    (hac : ∀ block name sid desc, validSid sid = true → sid ≠ server.conf.sid →
      motive (server.acceptLink uid block name sid desc)) :
    motive (server.linkServer env uid message) := by
  unfold linkServer
  split
  · split
    · exact hrej _
    · split
      · exact hrej _
      · split
        · exact hrej _
        · split
          · exact hrej _
          · rename_i hsid
            rw [not_or, not_or] at hsid
            exact hac _ _ _ _ (by simpa using hsid.1) hsid.2.1
  · exact hrej _

end Server

end EchoIrcd
