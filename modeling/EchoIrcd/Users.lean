import EchoIrcd.Server

/-!
# Local users

Renaming, login state, host changes and removal of a local user
(`users.rs`, `accounts.rs`, `server.rs`), and the lines that introduce one to
a linked server (`link.rs`).  `set_nick` stamps the new nick with the current
time, while the introduction carries the signon time in its nick-timestamp
field; the two differ for every user that has changed nick.
-/

namespace EchoIrcd

open Str Table

namespace Server

/-! ## Introducing a user -/

def userIntroLines (server : Server) (user : User) : List Out :=
  .uid server.conf.sid user ::
    ((match user.account with
      | some account =>
        [.metadata server.conf.sid user.uuid "accountname" account]
      | none => []) ++
    match user.certfp with
    | some certfp =>
      [.metadata server.conf.sid user.uuid "ssl_cert" ("vsT " ++ certfp)]
    | none => [])

def propagateAll (outs : List Out) (except : Option Uid) (server : Server) :
    Server :=
  outs.foldl (fun server out => server.propagate out except) server

def linkOutAll (uid : Uid) (outs : List Out) (server : Server) : Server :=
  outs.foldl (fun server out => server.linkOut uid out) server

section

variable (server : Server) (target : Uid) (outs : List Out)

theorem linkOutAll_eq : ∃ sent, server.linkOutAll target outs = { server with sent := sent } := by
  refine List.foldlRecOn (motive := fun reached : Server =>
    ∃ sent, reached = { server with sent := sent }) outs _ ⟨server.sent, rfl⟩ ?_
  rintro _ ⟨sent, rfl⟩ out _
  exact ⟨_, rfl⟩

@[simp] theorem linkOutAll_users : (server.linkOutAll target outs).users = server.users := by
  obtain ⟨sent, hsent⟩ := server.linkOutAll_eq target outs
  rw [hsent]

@[simp] theorem linkOutAll_links : (server.linkOutAll target outs).links = server.links := by
  obtain ⟨sent, hsent⟩ := server.linkOutAll_eq target outs
  rw [hsent]

end

section

variable (uid : Uid)

def introduceToLinks (server : Server) : Server :=
  match server.users.lookup uid with
  | some user => server.propagateAll (server.userIntroLines user) none
  | none => server

/-! ## Nick changes -/

def propagateNick (newnick : Str) (server : Server) : Server :=
  match server.users.lookup uid with
  | some user =>
    if user.registered then
      server.propagate (.nick user.uuid newnick server.clock) none
    else server
  | none => server

@[simps]
def renameAccepted (old new : Str) (server : Server) : Server :=
  { server with
    users := mapValues (fun _ user =>
      { user with accept := user.accept.map fun nick =>
          if nick = old then new else nick }) server.users
    acceptedNicks := match server.acceptedNicks.lookup old with
      | some count =>
        let others := server.acceptedNicks.erase old
        others.insert new ((others.lookup new).getD 0 + count)
      | none => server.acceptedNicks }

def setNick (newnick : Str) (server : Server) : Server :=
  match server.users.lookup uid with
  | none => server
  | some user =>
    let index := if user.nick ≠ [] then
        server.nickIndex.erase (toAsciiLower user.nick)
      else server.nickIndex
    let renamed := { server with
      nickIndex := index.insert (toAsciiLower newnick) uid
      users := modify uid (fun user =>
        { user with nick := newnick, nickTs := server.clock }) server.users }
    let renamed :=
      if user.nick ≠ [] ∧ toAsciiLower user.nick ≠ toAsciiLower newnick then
        renamed.renameAccepted (toAsciiLower user.nick) (toAsciiLower newnick)
      else renamed
    renamed.propagateNick uid newnick

/-! ## Accounts -/

def setLogin (account : Str) (server : Server) : Server :=
  match server.users.lookup uid with
  | none => server
  | some user =>
    let server := { server with
      users := modify uid (fun user =>
        { user.setFlag .loggedIn true with account := some account })
        server.users }
    if user.registered then
      server.propagate
        (.metadata server.conf.sid user.uuid "accountname" account) none
    else server

def logout (server : Server) : Server :=
  match server.users.lookup uid with
  | none => server
  | some user =>
    if user.account.isSome then
      let server := { server with
        users := modify uid (fun user =>
          { user.setFlag .loggedIn false with account := none })
          server.users }
      server.propagate
        (.metadata server.conf.sid user.uuid "accountname" "*") none
    else server

/-! ## Hosts -/

@[simps]
def changeHostIdentQuiet (newIdent newHost : Option Str) (server : Server) : Server :=
  { server with
    users := modify uid (fun user =>
      { user with
        vhost := newHost.or user.vhost
        ident := newIdent.getD user.ident }) server.users }

/-! ## Removal -/

def releaseAccepted (counts : Table Str Nat) (nick : Str) : Table Str Nat :=
  match counts.lookup nick with
  | some count =>
    if count - 1 = 0 then counts.erase nick
    else counts.insert nick (count - 1)
  | none => counts

@[simps]
def forgetNick (nick : Str) (server : Server) : Server :=
  { server with
    nickIndex := server.nickIndex.erase nick
    acceptedNicks := server.acceptedNicks.erase nick
    users :=
      if 0 < (server.acceptedNicks.lookup nick).getD 0 then
        mapValues (fun _ user =>
          { user with accept := user.accept.filter (· ≠ nick) }) server.users
      else server.users }

@[simps]
def reapChannels (server : Server) : Server :=
  { server with
    channels := retain (fun _ channel => channel.keepAlive)
      server.channels }

theorem lookup_reapChannels {server : Server} {key : Str} {channel : Channel} :
    server.reapChannels.channels.lookup key = some channel ↔
      server.channels.lookup key = some channel ∧ channel.keepAlive = true := by
  rw [reapChannels_channels, lookup_retain, Option.filter_eq_some_iff]

def leaveChannels (user : User) (server : Server) : Server :=
  reapChannels { server with
    channels := mapValues (fun key channel =>
      { channel with
        members := if key ∈ user.channels then channel.members.erase uid
          else channel.members
        invites := if key ∈ user.invited then
            channel.invites.filter (· ≠ uid)
          else channel.invites }) server.channels }

def removeUser (reason : Str) (server : Server) : Server :=
  match server.users.lookup uid with
  | none => server
  | some user =>
    let server := { server with
      users := server.users.erase uid
      acceptedNicks := user.accept.foldl releaseAccepted server.acceptedNicks
      uuidLocal := server.uuidLocal.erase user.uuid }
    let server := if user.registered then
        server.propagate (.quit user.uuid reason) none
      else server
    let server := if user.nick ≠ [] then
        server.forgetNick (toAsciiLower user.nick)
      else server
    if user.registered then server.leaveChannels uid user else server

end

end Server

end EchoIrcd
