import EchoIrcd.Overheard

/-!
# The gates a user sets up against direct messages

Caller-id (`+g`), registered senders only (`+R`), common channels (`+c`), the
SILENCE list and the SIGNORE lists of both sides are checked where a client
sends a message.  A message that arrives from a linked server passes none of
them.
-/

namespace EchoIrcd

open Str Chat Server Option List

variable {message : Message} {copied : MsgKind} {mask target : Str} {via : Uid}

/-- A direct message: a command of a client here, or a line from a link. -/
inductive Post where
  | client (uid : Uid) (kind : MsgKind) (params : List Str)
  | peer (via : Uid) (kind : MsgKind) (message : Message)

/-- What the server of a remote user knows of them and we do not. -/
structure Abroad where
  hasPriv : Str → Priv → Bool
  signore : Str → List Str

structure Sender where
  nick : Str
  mask : Str
  loggedIn : Bool
  inChannel : Str → Bool
  hasPriv : Priv → Bool
  signore : List Str
  service : Bool

namespace Chat

def senderOfUser (chat : Chat) (uid : Uid) (user : User) : Sender where
  nick := user.nick
  mask := user.mask
  loggedIn := user.account.isSome
  inChannel := fun key => key ∈ user.channels
  hasPriv := chat.hasPriv uid
  signore := user.signore
  service := false

def senderOfRemote (abroad : Abroad) (chat : Chat) (remote : RemoteUser) : Sender where
  nick := remote.nick
  mask := remote.mask
  loggedIn := remote.account.isSome
  inChannel := fun key => (chat.server.channels.lookup key).any fun channel =>
    remote.uuid ∈ channel.rmembers
  hasPriv := abroad.hasPriv remote.uuid
  signore := abroad.signore remote.uuid
  service := chat.server.serverIsService remote.sid

def forbids (env : Env) (chat : Chat) (uid : Uid) (user : User) (sender : Sender) : Bool :=
  !sender.service &&
    ((user.flags .callerid && !decide (toAsciiLower sender.nick ∈ user.accept) &&
        !sender.hasPriv .ignoreCallerid) ||
      (user.flags .regOnlyPm && !sender.loggedIn) ||
      (user.flags .denyUncommon && !user.channels.any sender.inChannel &&
        !sender.hasPriv .ignoreCommonchans) ||
      chat.isSilenced env uid sender.mask ||
      user.signore.any (globMatch env · sender.mask) ||
      sender.signore.any (globMatch env · user.mask))

def hush (chat : Chat) : Chat := { chat with shown := [] }

end Chat

namespace Post

def apply (env : Env) (conf : ChatConf) : Post → Chat → Chat
  | .client uid kind params, chat => chat.deliver env conf uid kind params
  | .peer via kind message, chat => chat.linkMessageRecv via kind message

def sender (abroad : Abroad) (chat : Chat) : Post → Option Sender
  | .client uid _ _ => (chat.server.users.lookup uid).map (chat.senderOfUser uid)
  | .peer _ _ message =>
    (message.source.bind chat.server.remoteUsers.lookup).map (chat.senderOfRemote abroad)

def GatesKept (env : Env) (conf : ChatConf) (abroad : Abroad) (chat : Chat) (post : Post) :
    Prop :=
  ∀ uid user sender, chat.server.users.lookup uid = some user →
    post.sender abroad chat = some sender → chat.forbids env uid user sender = true →
    ∀ mask kind target text,
      (uid, .message .direct mask kind target text) ∉ (post.apply env conf chat.hush).shown

def Slips (env : Env) (abroad : Abroad) (chat : Chat) : Post → Prop
  | .client uid _ params =>
    -- a message to oneself is not held against `+g` and `+c`
    ∃ target text rest user, params = target :: text :: rest ∧ text ≠ [] ∧
      target.head? ≠ some '#' ∧ chat.server.findNick target = some uid ∧
      chat.server.users.lookup uid = some user ∧
      chat.forbids env uid user (chat.senderOfUser uid user) = true ∧
      (user.flags .regOnlyPm = true → user.account.isSome = true) ∧
      (user.flags .sslPm = true → user.secure = true) ∧
      chat.ignored env uid uid user.mask = false
  | .peer via _ message =>
    ∃ source target text rest uid user remote, message.source = some source ∧
      message.params = target :: text :: rest ∧ target.head? ≠ some '#' ∧
      chat.server.uuidLocal.lookup target = some uid ∧
      chat.server.users.lookup uid = some user ∧
      chat.server.remoteUsers.lookup source = some remote ∧ remote.via = via ∧
      chat.forbids env uid user (chat.senderOfRemote abroad remote) = true

end Post

namespace Chat

variable {env : Env} {conf : ChatConf} {chat : Chat} {uid reader : Uid} {kind : MsgKind}

/-! ## Messages of clients -/

theorem mem_deliver_direct {params : List Str} {text : Str} (hq : chat.shown = []) :
    (reader, .message .direct mask copied target text) ∈
      (chat.deliver env conf uid kind params).shown ↔
    ∃ rest user, params = target :: text :: rest ∧ text ≠ [] ∧ target.head? ≠ some '#' ∧
      chat.server.users.lookup uid = some user ∧ mask = user.mask ∧ copied = kind ∧
      chat.server.findNick target = some reader ∧ reader ∈ chat.server.users ∧
      chat.userRefusal uid reader text = none ∧ chat.screened uid reader = false ∧
      chat.ignored env uid reader mask = false := by
  constructor
  · intro hsh
    rcases deliver_cases env conf uid kind params chat with
      ⟨target', text', rest, user, rfl, htext, hu⟩ | hs
    · rw [deliver_cons chat htext hu] at hsh
      unfold forward at hsh
      split at hsh
      · rw [mem_deliverChannel rfl] at hsh
        rcases hsh with hold | ⟨_, _, _, ⟨hline, -⟩ | ⟨hline, -⟩⟩
        · exact absurd (hq ▸ hold) not_mem_nil
        · cases hline
        · cases hline
      · rename_i hchan
        split at hsh
        · rename_i tuid hf
          rw [mem_deliverUser rfl] at hsh
          rcases hsh with hold | ⟨hpass, hopen, ⟨hline, rfl, hkn, hhd⟩ | ⟨hline, -⟩⟩
          · exact absurd (hq ▸ hold) not_mem_nil
          · cases hline
            rw [userRefusal_touch] at hpass
            rw [screened_touch] at hopen
            rw [ignored_touch] at hhd
            exact ⟨rest, user, rfl, htext, hchan, hu, rfl, rfl, hf, hkn, hpass,
              hopen, hhd⟩
          · cases hline
        · split at hsh
          · rcases mem_deliverRemote hsh with hold | ⟨hline, -⟩
            · exact absurd (hq ▸ hold) not_mem_nil
            · cases hline
          · rw [(sameTalk_refuse ..).mem_iff _ _ rfl] at hsh
            exact absurd (hq ▸ hsh) not_mem_nil
    · rw [hs.mem_iff _ _ rfl, hq] at hsh
      cases hsh
  · rintro ⟨rest, user, rfl, htext, hchan, hu, rfl, rfl, hf, hkn, hpass, hopen,
      hhd⟩
    have hf' : (chat.touch uid).server.findNick target = some reader := hf
    rw [deliver_cons chat htext hu, forward, if_neg hchan, hf']
    rw [mem_deliverUser rfl, userRefusal_touch, screened_touch, ignored_touch]
    exact .inr ⟨hpass, hopen, .inl ⟨rfl, rfl, hkn, hhd⟩⟩

section

variable {user author : User} {text : Str} {abroad : Abroad}

theorem hasUserFlag_of_lookup (hrdr : chat.server.users.lookup reader = some user)
    (flag : UserFlag) : chat.hasUserFlag reader flag = user.flags flag := by
  rw [hasUserFlag, hrdr, any_some]

section

variable (hauth : chat.server.users.lookup uid = some author)

include hauth

theorem isLoggedIn_of_lookup : chat.server.isLoggedIn uid = author.account.isSome := by
  rw [isLoggedIn, hauth, any_some]

section

variable (hrdr : chat.server.users.lookup reader = some user)

include hrdr

theorem shareChannel_of_lookup :
    chat.shareChannel uid reader = user.channels.any (· ∈ author.channels) := by
  simp only [shareChannel, hauth, hrdr]
  rw [Bool.eq_iff_iff]
  simp only [List.any_eq_true, decide_eq_true_eq]
  exact exists_congr fun key => and_comm

theorem ignored_of_lookup :
    chat.ignored env uid reader author.mask =
      (chat.isSilenced env reader author.mask ||
        (author.signore.any (globMatch env · user.mask) ||
          user.signore.any (globMatch env · author.mask))) := by
  simp only [ignored, signoreBlocks, signoreOneWay, hauth, hrdr, any_some, elim_some]

theorem userRefusal_eq_none :
    chat.userRefusal uid reader text = none ↔
      ¬(user.flags .denyUncommon = true ∧ uid ≠ reader ∧
        chat.hasPriv uid .ignoreCommonchans = false ∧
        user.channels.any (· ∈ author.channels) = false) ∧
      ¬(MessageText.isCtcp text = true ∧ MessageText.isAction text = false ∧ uid ≠ reader ∧
        user.flags .noctcp = true ∧ chat.hasPriv uid .ignoreNoctcp = false) ∧
      (user.flags .regOnlyPm = true → author.account.isSome = true) ∧
      (user.flags .sslPm = true → author.secure = true) := by
  have hsecure : chat.isSecure uid = author.secure := by
    rw [isSecure, hauth, any_some]
  simp only [userRefusal, hasUserFlag_of_lookup hrdr, shareChannel_of_lookup hauth hrdr,
    isLoggedIn_of_lookup hauth, hsecure]
  split_ifs with hcommon hctcp hlogin htls <;>
    simp only [Bool.and_eq_true, decide_eq_true_eq, Bool.not_eq_true'] at * <;> grind

end

end

theorem forbids_of_passed (hne : uid ≠ reader)
    (hauth : chat.server.users.lookup uid = some author)
    (hrdr : chat.server.users.lookup reader = some user)
    (hpass : chat.userRefusal uid reader text = none) (hopen : chat.screened uid reader = false)
    (hhd : chat.ignored env uid reader author.mask = false) :
    chat.forbids env reader user (chat.senderOfUser uid author) = false := by
  rw [userRefusal_eq_none hauth hrdr] at hpass
  rw [ignored_of_lookup hauth hrdr] at hhd
  simp only [Bool.or_eq_false_iff] at hhd
  obtain ⟨hsilence, htheirs, hours⟩ := hhd
  have hcaller : (user.flags .callerid && !decide (toAsciiLower author.nick ∈ user.accept) &&
      !chat.hasPriv uid .ignoreCallerid) = false := by
    simp only [screened, hasUserFlag_of_lookup hrdr, nickOf, hauth, elim_some,
      isAccepted, hrdr, any_some] at hopen
    simpa [hne, ← Bool.not_eq_true] using hopen
  have hlogged : (user.flags .regOnlyPm && !author.account.isSome) = false := by grind
  have hshared : (user.flags .denyUncommon && !user.channels.any (· ∈ author.channels) &&
      !chat.hasPriv uid .ignoreCommonchans) = false := by grind
  simp only [forbids, senderOfUser, hlogged, hshared, hsilence, htheirs, hours, Bool.or_false]
  exact hcaller

/-! ## Messages from a link -/

theorem mem_relayChannelMessage {key : Str} {line : Shown} {entry : Uid × Shown} :
    entry ∈ (chat.relayChannelMessage key line).shown ↔
      entry ∈ chat.shown ∨ ∃ reader ∈ chat.members key, reader ∈ chat.server.users ∧
        chat.hasUserFlag reader .deaf = false ∧ entry = (reader, line) := by
  rw [relayChannelMessage, foldl_emitTo fun _ => line]
  simp only [List.mem_append, List.mem_map, List.mem_filter, Bool.not_eq_true', decide_eq_true_eq]
  constructor
  · rintro (hold | ⟨reader, ⟨⟨hmb, hdeaf⟩, hkn⟩, rfl⟩)
    · exact .inl hold
    · exact .inr ⟨reader, hmb, hkn, hdeaf, rfl⟩
  · rintro (hold | ⟨reader, hmb, hkn, hdeaf, rfl⟩)
    · exact .inl hold
    · exact .inr ⟨reader, ⟨⟨hmb, hdeaf⟩, hkn⟩, rfl⟩

theorem linkMessageRecv_cons (kind : MsgKind) {source text : Str} {rest : List Str}
    (hsrc : message.source = some source) (hpar : message.params = target :: text :: rest)
    (hbeh : chat.server.sourceBehind source via = true)
    (hmask : sourceMask chat.server source = some mask) :
    ∃ sent, chat.linkMessageRecv via kind message =
      let passed := { chat with server := { chat.server with sent := sent } }
      if target.head? = some '#' then
        passed.relayChannelMessage (toAsciiLower target) (.message .channel mask kind target text)
      else
        match chat.server.uuidLocal.lookup target with
        | some uid => passed.emitTo uid (.message .direct mask kind (chat.nickOf uid) text)
        | none => passed := by
  obtain ⟨sent, hsent⟩ := linkMessageRecv_eq via message chat.server
  refine ⟨sent, ?_⟩
  simp only [linkMessageRecv, hsrc, hpar, hbeh, hmask, hsent]
  rfl

theorem linkMessageRecv_cases (via : Uid) (kind : MsgKind) (message : Message) (chat : Chat) :
    (∃ source target text rest mask, message.source = some source ∧
      message.params = target :: text :: rest ∧
      chat.server.sourceBehind source via = true ∧
      sourceMask chat.server source = some mask) ∨
    chat.linkMessageRecv via kind message = chat := by
  unfold linkMessageRecv
  split
  · rename_i source target text rest hsrc hpar
    split
    · exact .inr rfl
    · rename_i hbeh
      split
      · exact .inr rfl
      · rename_i mask hmask
        exact .inl ⟨source, target, text, rest, mask, hsrc, hpar, by simpa using hbeh,
          hmask⟩
  · exact .inr rfl

theorem mem_linkMessageRecv_direct {nick text : Str} (hq : chat.shown = []) :
    (reader, .message .direct mask copied nick text) ∈
      (chat.linkMessageRecv via kind message).shown ↔
    ∃ source target rest, message.source = some source ∧
      message.params = target :: text :: rest ∧ target.head? ≠ some '#' ∧
      chat.server.sourceBehind source via = true ∧ sourceMask chat.server source = some mask ∧
      chat.server.uuidLocal.lookup target = some reader ∧ reader ∈ chat.server.users ∧
      copied = kind ∧ nick = chat.nickOf reader := by
  constructor
  · intro hsh
    rcases linkMessageRecv_cases via kind message chat with
      ⟨source, target, text', rest, mask', hsrc, hpar, hbeh, hmask⟩ | hs
    · obtain ⟨sent, heq⟩ := linkMessageRecv_cons kind hsrc hpar hbeh hmask
      simp only [heq] at hsh
      split at hsh
      · rcases mem_relayChannelMessage.mp hsh with hold | ⟨_, _, _, _, hline⟩
        · exact absurd (hq ▸ hold) not_mem_nil
        · cases hline
      · rename_i hchan
        split at hsh
        · rename_i uid hloc
          rcases mem_emitTo.mp hsh with hold | ⟨hkn, hline⟩
          · exact absurd (hq ▸ hold) not_mem_nil
          · cases hline
            exact ⟨source, target, rest, hsrc, hpar, hchan, hbeh, hmask, hloc,
              hkn, rfl, rfl⟩
        · exact absurd (hq ▸ hsh) not_mem_nil
    · rw [hs, hq] at hsh
      cases hsh
  · rintro ⟨source, target, rest, hsrc, hpar, hchan, hbeh, hmask, hloc, hkn,
      rfl, rfl⟩
    obtain ⟨sent, heq⟩ := linkMessageRecv_cons copied hsrc hpar hbeh hmask
    simp only [heq, if_neg hchan, hloc]
    exact mem_emitTo.mpr (.inr ⟨hkn, rfl⟩)

end

end Chat

namespace Post

variable {env : Env} {conf : ChatConf} {abroad : Abroad} {chat : Chat}

theorem gatesKept_client (uid : Uid) (kind : MsgKind) (params : List Str) :
    (Post.client uid kind params).GatesKept env conf abroad chat ↔
      ¬(Post.client uid kind params).Slips env abroad chat := by
  constructor
  · rintro hkept ⟨target, text, rest, user, rfl, htext, hchan, hf, hu, hforbids,
      hlogin, htls, hhd⟩
    refine hkept uid user _ hu (map_eq_some_iff.mpr ⟨user, hu, rfl⟩) hforbids
      user.mask kind target text ?_
    refine (mem_deliver_direct rfl).mpr ⟨rest, user, rfl, htext, hchan, hu, rfl, rfl,
      hf, Table.mem_of_lookup hu, ?_, ?_, hhd⟩
    · refine (userRefusal_eq_none hu hu).mpr ⟨?_, ?_, hlogin, htls⟩
      · rintro ⟨-, hself, -⟩
        exact hself rfl
      · rintro ⟨-, -, hself, -⟩
        exact hself rfl
    · simp [screened]
  · intro hslips reader user sender hrdr hsdr hforbids mask copied target text hsh
    obtain ⟨author, hauth, rfl⟩ := map_eq_some_iff.mp hsdr
    obtain ⟨rest, author', rfl, htext, hchan, hauth', rfl, rfl, hf, -, hpass, hopen,
      hhd⟩ := (mem_deliver_direct rfl).mp hsh
    cases Option.some.inj (hauth.symm.trans hauth')
    by_cases hself : uid = reader
    · subst hself
      cases Option.some.inj (hauth.symm.trans hrdr)
      obtain ⟨-, -, hlogin, htls⟩ := (userRefusal_eq_none hauth hauth).mp hpass
      exact hslips ⟨target, text, rest, _, rfl, htext, hchan, hf, hauth, hforbids,
        hlogin, htls, hhd⟩
    · have hfree := forbids_of_passed hself hauth hrdr hpass hopen hhd
      exact Bool.false_ne_true (hfree.symm.trans hforbids)

theorem gatesKept_peer (via : Uid) (kind : MsgKind) (message : Message) :
    (Post.peer via kind message).GatesKept env conf abroad chat ↔
      ¬(Post.peer via kind message).Slips env abroad chat := by
  constructor
  · rintro hkept ⟨source, target, text, rest, uid, user, remote, hsrc, hpar, hchan,
      hloc, hu, hrem, hvia, hforbids⟩
    have hsdr : (Post.peer via kind message).sender abroad chat =
        some (chat.senderOfRemote abroad remote) := by
      simp only [sender, hsrc, bind_some, hrem, map_some]
    refine hkept uid user _ hu hsdr hforbids remote.mask kind (chat.nickOf uid) text ?_
    refine (mem_linkMessageRecv_direct rfl).mpr ⟨source, target, rest, hsrc, hpar,
      hchan, ?_, ?_, hloc, Table.mem_of_lookup hu, rfl, rfl⟩
    · simp [hush, sourceBehind, hrem, hvia]
    · simp [hush, sourceMask, uuidMask, hrem]
  · intro hslips reader user sender hrdr hsdr hforbids mask copied nick text hsh
    obtain ⟨source, target, rest, hsrc, hpar, hchan, hbeh, -, hloc, -, -, -⟩ :=
      (mem_linkMessageRecv_direct rfl).mp hsh
    simp only [Post.sender, hsrc, bind_some] at hsdr
    obtain ⟨remote, hrem, rfl⟩ := map_eq_some_iff.mp hsdr
    have hvia : remote.via = via := by
      simpa [hush, sourceBehind, hrem] using hbeh
    exact hslips ⟨source, target, text, rest, reader, user, remote, hsrc, hpar, hchan,
      hloc, hrdr, hrem, hvia, hforbids⟩

end Post

/--
The gates hold exactly for what does not slip past them: a line from a link, and
a message to oneself.
-/
theorem gatesKept_iff (env : Env) (conf : ChatConf) (abroad : Abroad) (chat : Chat)
    (post : Post) : post.GatesKept env conf abroad chat ↔ ¬post.Slips env abroad chat := by
  cases post with
  | client uid kind params => exact Post.gatesKept_client uid kind params
  | peer via kind message => exact Post.gatesKept_peer via kind message

/-! ## Samples -/

def annGuarded : User where
  uuid := "1AAAAAAAA"
  nick := "ann"
  ident := "ann"
  host := "host"
  signon := 1
  nickTs := 1
  ip := "127.0.0.1"
  registered := true
  flags := Function.update (fun _ => false) .callerid true

def bobAbroad : RemoteUser where
  uuid := "2BBAAAAAA"
  nick := "bob"
  ident := "bob"
  host := "far"
  realname := "Bob"
  ip := "127.0.0.3"
  modes := "+"
  sid := "2BB"
  via := 5
  nickTs := 1

def guardedChat : Chat where
  server :=
    { conf := { name := "a.test", sid := "1AA" }
      clock := 100
      users := AList.insert 1 annGuarded ∅
      nickIndex := AList.insert "ann".toList 1 ∅
      uuidLocal := AList.insert "1AAAAAAAA".toList 1 ∅
      links := AList.insert 5 { outbound := false, registered := true, lastSeen := 100 } ∅
      servers := AList.insert "2BB".toList
        ⟨"2BB", "b.test", "peer", 5, false, false⟩ ∅
      remoteUsers := AList.insert "2BBAAAAAA".toList bobAbroad ∅
      remoteNick := AList.insert "bob".toList "2BBAAAAAA" ∅ }

def nothingAbroad : Abroad := ⟨fun _ _ => false, fun _ => []⟩

theorem gates_slipped :
    ¬(Post.peer 5 .privmsg
        { source := some "2BBAAAAAA", command := "PRIVMSG", params := ["1AAAAAAAA", "hi"] }).GatesKept
      .plain {} nothingAbroad guardedChat ∧
    ¬(Post.client 1 .privmsg ["ann", "hi"]).GatesKept .plain {} nothingAbroad guardedChat := by
  constructor
  · intro hkept
    refine hkept 1 annGuarded (guardedChat.senderOfRemote nothingAbroad bobAbroad) rfl rfl ?_
      "bob!bob@far" .privmsg "ann" "hi" ?_
    · decide
    · decide
  · intro hkept
    refine hkept 1 annGuarded (guardedChat.senderOfUser 1 annGuarded) rfl rfl ?_
      "ann!ann@host" .privmsg "ann" "hi" ?_
    · decide
    · decide

end EchoIrcd
