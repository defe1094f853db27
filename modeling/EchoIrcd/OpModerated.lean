import EchoIrcd.Clearance
import EchoIrcd.Lib.Relay
import EchoIrcd.WebPush

/-!
# Messages for the half-ops alone

With `+U` the message of an unvoiced member goes to the half-ops and above on
the sender's server and is not stored there.  The line to the other servers is
the one of every message: a server that takes it shows it to all members who
are not deaf, and passes it on.  The hooks that run before the delivery do not
look at `+U` either: members who are mentioned get a push, and a bridged channel
gives the text to another network.
-/

namespace EchoIrcd

open Str Relay List

/-! ## Whom a message reaches -/

/-- A message reaches a reader now or by a push, whoever asks a server for its history later, or
another network. -/
inductive Reach (ι : Type) where
  | shown (server : ι) (reader : Uid) (line : Shown) (rank : Nat)
  | stored (server : ι)
  | pushed (server : ι) (reader : Uid) (rank : Nat)
  | bridged (server : ι)
  deriving DecidableEq

def Shown.isEcho : Shown → Bool
  | .message .echo _ _ _ _ => true
  | _ => false

def Reach.Allowed {ι : Type} (origin : ι) (sender : Uid) : Reach ι → Prop
  | .shown server reader line rank =>
    Prefix.halfop.rank ≤ rank ∨ (server = origin ∧ reader = sender ∧ line.isEcho = true)
  | .pushed _ _ rank => Prefix.halfop.rank ≤ rank
  | .stored _ | .bridged _ => False

def MsgKind.ofWord (word : Str) : Option MsgKind :=
  if word = "PRIVMSG".toList then some .privmsg
  else if word = "NOTICE".toList then some .notice
  else none

namespace Chat

def takeLine (via : Uid) (out : Out) (chat : Chat) : Chat :=
  match out.receive with
  | none => chat
  | some message =>
    match MsgKind.ofWord message.command with
    | none => chat
    | some kind => chat.linkMessageRecv via kind message

def audience (via : Uid) (out : Out) (chat : Chat) : List Uid :=
  match out.receive with
  | none => []
  | some message =>
    match MsgKind.ofWord message.command, message.source, message.params with
    | some _, some source, target :: _ :: _ =>
      if !chat.server.sourceBehind source via || (sourceMask chat.server source).isNone then []
      else if target.head? = some '#' then
        (chat.members (toAsciiLower target)).filter fun uid =>
          decide (uid ∈ chat.server.users) && !chat.hasUserFlag uid .deaf
      else (chat.server.uuidLocal.lookup target).toList.filter (· ∈ chat.server.users)
    | _, _, _ => []

end Chat

/-- What the hooks of the web push and the bridge go by; `routes` are the bridged channels. -/
structure Hooks where
  push : PushConf
  subs : Subs := ∅
  routes : List Str := []

def Hooks.fire {ι : Type} (hooks : Hooks) (server : ι) (sender : Uid) (target text : Str)
    (chat : Chat) : List (Reach ι) :=
  ((WebPush.maybePush hooks.push hooks.subs sender target text chat).map fun push =>
    .pushed server push.recipient (chat.server.rank push.recipient (toAsciiLower target))) ++
  if text.head? ≠ some '\x01' ∧ toAsciiLower target ∈ hooks.routes then [.bridged server] else []

section Network

variable {ι : Type} [DecidableEq ι] (peer : ι → Uid → Option (ι × Uid)) (key : Str)

/-- Only message lines carry the text. -/
def handled (server : ι) (before after : Chat) : Handled ι Chat (Uid × Out) (Reach ι) where
  state := after
  copies := (after.server.sent.filter fun entry => entry.2.spoken.isSome).filterMap fun entry =>
    (peer server entry.1).map fun far => (far.1, far.2, entry.2)
  entries := ((after.shown.filter fun entry => entry.2.isTalk).map fun entry =>
      .shown server entry.1 entry.2 (before.server.rank entry.1 key)) ++
    if after.history.entries = before.history.entries then [] else [.stored server]

def takes (server : ι) (copy : Uid × Out) (chat : Chat) : Handled ι Chat (Uid × Out) (Reach ι) :=
  handled peer key server chat.quiet (chat.quiet.takeLine copy.1 copy.2)

def posted (hooks : Hooks) (env : Env) (conf : ChatConf) (chats : ι → Chat) (origin : ι)
    (sender : Uid) (kind : MsgKind) (target text : Str) (rest : List Str) :
    Net ι Chat (Uid × Out) (Reach ι) :=
  Net.put ⟨chats, [], hooks.fire origin sender target text (chats origin)⟩ origin
    (handled peer (toAsciiLower target) origin (chats origin).quiet
      ((chats origin).quiet.deliver env conf sender kind (target :: text :: rest)))

end Network

/-! ## What keeps a message here -/

/-- No member below half-op who is to be told of a mention has subscribed. -/
def Hooks.Unpushed (hooks : Hooks) (sender : Uid) (target text : Str) (chat : Chat) : Prop :=
  hooks.push.available = true → ∀ member ∈ WebPush.recipients sender target text chat.server,
    WebPush.reachable hooks.push member chat = true →
    Prefix.halfop.rank ≤ chat.server.rank member (toAsciiLower target) ∨
      ∀ sub ∈ (hooks.subs.lookup (WebPush.identity chat.server member)).getD [],
        hooks.push.seals sub (WebPush.payloadJson
          (((chat.server.users.lookup sender).map User.nick).getD []) target text) = false

def Hooks.Unbridged (hooks : Hooks) (target text : Str) : Prop :=
  toAsciiLower target ∈ hooks.routes → text.head? = some '\x01'

/-- A message that passes the checks finds no member of the channel behind a link. -/
def Chat.Stays {ι : Type} (peer : Uid → Option (ι × Uid)) (env : Env) (conf : ChatConf)
    (sender : Uid) (kind : MsgKind) (target text : Str) (chat : Chat) : Prop :=
  (∃ passed, (chat.quiet.touch sender).channelGates env conf sender kind target text = .ok passed) →
    ∀ link ∈ chat.server.allChannelLinks (toAsciiLower target), link ∈ chat.server.links →
      peer link = none

namespace Chat

variable {env : Env} {conf : ChatConf} {chat : Chat} {uid : Uid} {mask target text : Str}
  {kind : MsgKind}

/-! ## A line from a link -/

theorem takeLine_eq (via : Uid) (out : Out) (chat : Chat) :
    ∃ sent line, line.isTalk = true ∧ line.isEcho = false ∧
      chat.takeLine via out = { chat with
        server := { chat.server with sent := sent }
        shown := chat.shown ++ (chat.audience via out).map fun reader => (reader, line) } := by
  have hno : ∃ sent line, line.isTalk = true ∧ line.isEcho = false ∧
      chat = { chat with
        server := { chat.server with sent := sent }
        shown := chat.shown ++ ([] : List Uid).map fun reader => (reader, line) } :=
    ⟨chat.server.sent, .tagmsg .direct [] [], rfl, rfl, by simp⟩
  unfold takeLine audience
  cases out.receive with
  | none => exact hno
  | some message =>
    simp only
    cases MsgKind.ofWord message.command with
    | none => exact hno
    | some kind =>
      simp only
      unfold linkMessageRecv
      split
      · rename_i source target text rest hsrc hpar
        rw [hsrc, hpar]
        simp only
        cases hbeh : chat.server.sourceBehind source via with
        | false => simpa using hno
        | true =>
          cases hmask : sourceMask chat.server source with
          | none => simpa using hno
          | some mask =>
            obtain ⟨sent, hpass⟩ := chat.server.linkMessageRecv_eq via message
            simp only [Bool.not_true, Option.isNone_some, Bool.or_self, Bool.false_eq_true,
              if_false, hpass]
            split
            · refine ⟨sent, .message .channel mask kind target text, rfl, rfl, ?_⟩
              rw [relayChannelMessage, foldl_emitTo fun _ => _, filter_filter]
              rfl
            · refine ⟨sent, .message .direct mask kind
                ((chat.server.uuidLocal.lookup target).elim [] chat.nickOf) text, rfl, rfl, ?_⟩
              cases chat.server.uuidLocal.lookup target with
              | none => simp
              | some uid =>
                by_cases hu : uid ∈ chat.server.users <;> simp [emitTo, hu]
      · rename_i hshape
        split
        · rename_i source target text rest _ hsrc hpar
          exact (hshape source target text rest hsrc hpar).elim
        · exact hno

/-! ## The sender's server -/

theorem history_refuse (chat : Chat) (uid : Uid) (kind : MsgKind) (refusal : Refusal) :
    (chat.refuse uid kind refusal).history = chat.history := by
  cases kind <;> rfl

theorem history_floodKick (chat : Chat) (uid : Uid) (key : Str) (ban : Bool) :
    (chat.floodKick uid key ban).history = chat.history := by
  unfold floodKick
  split <;> rfl

theorem Repaced.history {before after : Chat} (hrepaced : Repaced before after) :
    after.history = before.history := by
  obtain ⟨_, rfl⟩ := hrepaced
  rfl

theorem HeldBack.history {key : Str} {held : Chat} (hheld : HeldBack uid kind key chat held) :
    held.history = chat.history := by
  cases hheld with
  | silent hpaced => exact hpaced.history
  | refused refusal hpaced => rw [history_refuse, hpaced.history]
  | kicked ban hpaced => rw [history_floodKick, hpaced.history]

theorem server_sendToChannel (user : User) (hu : chat.server.users.lookup uid = some user)
    (body : Str) :
    (chat.sendToChannel env conf uid mask kind target body).server.sent = chat.server.sent ++
      ((chat.server.allChannelLinks (toAsciiLower target)).filter (· ∈ chat.server.links)).map
        fun link => (link, .message user.uuid kind.word target body) := by
  obtain ⟨paces, hrev⟩ := repaced_revealMember chat uid (toAsciiLower target)
  have hsrv : ∀ before : Chat, before.server = chat.server →
      (before.sendChannelToLinks uid (toAsciiLower target) target kind body).server.sent =
        chat.server.sent ++ ((chat.server.allChannelLinks (toAsciiLower target)).filter
          (· ∈ chat.server.links)).map
            fun link => (link, .message user.uuid kind.word target body) := by
    intro before heq
    simp only [sendChannelToLinks, heq, hu, Server.foldl_linkOut]
  apply hsrv
  rw [server_echo, toChannelTagged_eq, hrev]
  split <;> rfl

/-- The message lines that leave with a message to a channel. -/
theorem mem_sent_deliverChannel {user : User} (hsent : chat.server.sent = [])
    (hu : chat.server.users.lookup uid = some user) {link : Uid} {out : Out} :
    (link, out) ∈ (chat.deliverChannel env conf uid mask kind target text).server.sent ∧
      out.spoken.isSome = true ↔
    ∃ passed body, chat.channelGates env conf uid kind target text = .ok (passed, body) ∧
      link ∈ chat.server.allChannelLinks (toAsciiLower target) ∧ link ∈ chat.server.links ∧
      out = .message user.uuid kind.word target body := by
  unfold deliverChannel
  rcases channelGates_cases env conf uid kind target text chat with
    ⟨refused, heq, hheld⟩ | ⟨passed, body, heq, hrepaced, -⟩
  · rw [heq]
    constructor
    · rintro ⟨hout, hspk⟩
      have hmute : ∀ body, out.spoken = some body := fun body =>
        (hheld.sends.mem_sent link out hout hspk).resolve_left (by simp [hsent])
      cases (hmute []).symm.trans (hmute ['x'])
    · rintro ⟨_, _, hok, -⟩
      cases hok
  · rw [heq]
    rw [← hrepaced.server] at hu hsent ⊢
    simp only [server_sendToChannel user hu, hsent, nil_append, mem_map, mem_filter,
      decide_eq_true_eq, Prod.mk.injEq]
    constructor
    · rintro ⟨⟨_, ⟨hlinks, hlink⟩, rfl, rfl⟩, -⟩
      exact ⟨passed, body, rfl, hlinks, hlink, rfl⟩
    · rintro ⟨_, _, hok, hlinks, hlink, rfl⟩
      cases hok
      exact ⟨⟨link, ⟨hlinks, hlink⟩, rfl, rfl⟩, rfl⟩

variable (hopOnly : chat.server.opOnly uid (toAsciiLower target) = true)

include hopOnly

theorem history_sendToChannel :
    (chat.sendToChannel env conf uid mask kind target text).history = chat.history := by
  obtain ⟨paces, hrev⟩ := repaced_revealMember chat uid (toAsciiLower target)
  unfold sendToChannel sendChannelToLinks echo
  simp only [hopOnly, if_true, toChannelTagged_eq, hrev, nextMsgid]
  split <;> split <;> rfl

theorem history_deliverChannel :
    (chat.deliverChannel env conf uid mask kind target text).history = chat.history := by
  unfold deliverChannel
  rcases channelGates_cases env conf uid kind target text chat with
    ⟨refused, heq, hheld⟩ | ⟨passed, body, heq, hrepaced, -⟩
  · rw [heq]
    exact hheld.history
  · rw [← hrepaced.server] at hopOnly
    simp only [heq, history_sendToChannel hopOnly, hrepaced.history]

/-- On the sender's server only half-ops and above read a message for the ops, and the sender. -/
theorem mem_deliverChannel_opOnly {reader : Uid} {line : Shown} (hline : line.isTalk = true)
    (hq : chat.shown = [])
    (hsh : (reader, line) ∈ (chat.deliverChannel env conf uid mask kind target text).shown) :
    Prefix.halfop.rank ≤ chat.server.rank reader (toAsciiLower target) ∨
      (reader = uid ∧ line.isEcho = true) := by
  rw [mem_deliverChannel hline, hq, hopOnly] at hsh
  rcases hsh with hold | ⟨_, _, -, ⟨rfl, -, hhears⟩ | ⟨rfl, rfl, -⟩⟩
  · cases hold
  · left
    unfold hears at hhears
    split at hhears
    · cases hhears
    · simp only [Bool.and_eq_true, Bool.not_eq_true', Bool.true_and, decide_eq_false_iff_not,
        Nat.not_lt] at hhears
      exact hhears.2
  · exact .inr ⟨rfl, rfl⟩

/-- What a message command writes when `+U` keeps the message for the ops. -/
theorem deliver_opOnly (hchan : target.head? = some '#') (hq : chat.shown = [])
    (rest : List Str) :
    (∀ entry ∈ (chat.deliver env conf uid kind (target :: text :: rest)).shown,
      entry.2.isTalk = true →
        Prefix.halfop.rank ≤ chat.server.rank entry.1 (toAsciiLower target) ∨
          (entry.1 = uid ∧ entry.2.isEcho = true)) ∧
    (chat.deliver env conf uid kind (target :: text :: rest)).history = chat.history := by
  by_cases htext : text = []
  · subst htext
    refine ⟨fun entry hent htalk => ?_, history_refuse ..⟩
    have hold := ((sameTalk_refuse chat uid kind _).mem_iff entry.1 entry.2 htalk).mp hent
    rw [hq] at hold
    cases hold
  · cases hu : chat.server.users.lookup uid with
    | none =>
      rw [deliver_absent chat htext hu, hq]
      exact ⟨by simp, rfl⟩
    | some user =>
      rw [deliver_cons chat htext hu, forward, if_pos hchan]
      exact ⟨fun entry hent htalk =>
          @mem_deliverChannel_opOnly env conf (chat.touch uid) uid user.mask target text kind
            hopOnly entry.1 entry.2 htalk hq hent,
        @history_deliverChannel env conf (chat.touch uid) uid user.mask target text kind hopOnly⟩

end Chat

section Network

variable {ι : Type} {peer : ι → Uid → Option (ι × Uid)} {hooks : Hooks}
  {env : Env} {conf : ChatConf} {chats : ι → Chat} {origin : ι} {sender : Uid} {kind : MsgKind}
  {target text : Str} {user : User}

theorem fire_allowed_iff {chat : Chat} :
    (∀ reach ∈ hooks.fire origin sender target text chat, reach.Allowed origin sender) ↔
      hooks.Unpushed sender target text chat ∧ hooks.Unbridged target text := by
  have hbridged : (∀ reach ∈ (if text.head? ≠ some '\x01' ∧ toAsciiLower target ∈ hooks.routes
      then [.bridged origin] else [] : List (Reach ι)), reach.Allowed origin sender) ↔
        hooks.Unbridged target text := by
    split
    · rename_i hroute
      simpa [Reach.Allowed, Hooks.Unbridged] using ⟨hroute.2, hroute.1⟩
    · rename_i hroute
      simpa [Hooks.Unbridged, imp_iff_or_not, or_comm] using hroute
  rw [Hooks.fire, forall_mem_append, forall_mem_map, hbridged, and_congr_left_iff]
  intro
  simp only [WebPush.mem_maybePush, Hooks.Unpushed]
  constructor
  · intro hpushed havailable member hmb hreach
    by_contra! hsub
    obtain ⟨hrank, sub, hsub, hseals⟩ := hsub
    have hallowed := hpushed ⟨member, sub, _⟩
      ⟨havailable, hmb, hreach, hsub, Bool.not_eq_false _ ▸ hseals, rfl⟩
    exact Nat.not_le_of_lt hrank hallowed
  · rintro hkept push ⟨havailable, hmb, hreach, hsub, hseals, hpayload⟩
    refine (hkept havailable _ hmb hreach).resolve_right fun hnone => ?_
    rw [← hpayload] at hnone
    exact absurd (hseals.symm.trans (hnone _ hsub)) (by decide)

/-! ## A server where anybody listens -/

def memberThere (uuid nick : Str) (via : Uid) : RemoteUser where
  uuid := uuid
  nick := nick
  ident := nick
  host := "host"
  realname := nick
  ip := "127.0.0.1"
  modes := "+"
  sid := uuid.take 3
  via := via
  nickTs := 1

def openChat (uuid key : Str) (via : Uid) : Chat where
  server :=
    { conf := { name := "b.test", sid := "2BB" }
      clock := 100
      users := AList.insert 1 (plainMember "bob" "2BBAAAAAA") ∅
      channels := AList.insert key { name := key, members := AList.insert 1 {} ∅, created := 1 } ∅
      remoteUsers := AList.insert uuid (memberThere uuid "ann" via) ∅ }

section OpenChat

variable (uuid key : Str) (via : Uid)

theorem members_openChat : (openChat uuid key via).members key = [1] := by
  rw [Chat.members, openChat]
  simp only [AList.lookup_insert]
  rfl

theorem rank_openChat : (openChat uuid key via).server.rank 1 key = 0 := by
  rw [Server.rank, openChat]
  simp only [AList.lookup_insert, Option.bind_some]
  rfl

theorem source_openChat : (openChat uuid key via).server.sourceBehind uuid via = true ∧
    (Chat.sourceMask (openChat uuid key via).server uuid).isNone = false := by
  have hremote : (openChat uuid key via).server.remoteUsers.lookup uuid =
      some (memberThere uuid "ann" via) := AList.lookup_insert _
  rw [Server.sourceBehind, Chat.sourceMask, Chat.uuidMask, hremote]
  exact ⟨decide_eq_true rfl, rfl⟩

end OpenChat

theorem mem_audience_openChat (hblank : ' ' ∉ user.uuid) (htok : IsToken target)
    (hchan : target.head? = some '#') (via : Uid) (body : Str) :
    1 ∈ (openChat user.uuid (toAsciiLower target) via).audience via
      (.message user.uuid kind.word target body) := by
  have hrecv : (Out.message user.uuid kind.word target body).receive =
      some { source := some user.uuid, command := toAsciiUpper kind.word, params := [target, body] } :=
    Out.receive_tokens rfl rfl hblank (show IsCommand kind.word by cases kind <;> decide)
      (by simpa [Out.line] using htok)
  have hword : MsgKind.ofWord (toAsciiUpper kind.word) = some kind := by cases kind <;> decide
  obtain ⟨hbeh, hmask⟩ := source_openChat user.uuid (toAsciiLower target) via
  simp only [Chat.audience, hrecv, hword, if_pos hchan, hbeh, hmask, members_openChat]
  exact mem_filter.mpr ⟨.head _, rfl⟩

theorem takes_openChat (far : ι) (hblank : ' ' ∉ user.uuid) (htok : IsToken target)
    (hchan : target.head? = some '#') (via : Uid) (body : Str) :
    ∃ line : Shown, line.isEcho = false ∧ .shown far 1 line 0 ∈
      (takes peer (toAsciiLower target) far (via, .message user.uuid kind.word target body)
        (openChat user.uuid (toAsciiLower target) via)).entries := by
  obtain ⟨sent, line, htalk, hecho, htaken⟩ := Chat.takeLine_eq via
    (.message user.uuid kind.word target body) (openChat user.uuid (toAsciiLower target) via).quiet
  refine ⟨line, hecho, mem_append_left _ (mem_map.mpr ⟨(1, line), ?_, ?_⟩)⟩
  · rw [htaken, mem_filter]
    exact ⟨mem_map.mpr ⟨1, mem_audience_openChat hblank htok hchan via body, rfl⟩, htalk⟩
  · exact congrArg _ (rank_openChat ..)

section

variable [DecidableEq ι]

theorem posted_allowed_iff (hchan : target.head? = some '#')
    (hopOnly : (chats origin).server.opOnly sender (toAsciiLower target) = true) (rest : List Str) :
    (∀ reach ∈ (posted peer hooks env conf chats origin sender kind target text rest).ledger,
      reach.Allowed origin sender) ↔
    hooks.Unpushed sender target text (chats origin) ∧ hooks.Unbridged target text := by
  obtain ⟨hsh, hhistory⟩ := @Chat.deliver_opOnly env conf (chats origin).quiet sender target text
    kind hopOnly hchan rfl rest
  rw [← fire_allowed_iff, posted, Net.put, forall_mem_append]
  refine and_iff_left ?_
  simp only [handled, hhistory, if_true, append_nil, forall_mem_map, mem_filter]
  rintro entry ⟨hent, htalk⟩
  rcases hsh entry hent htalk with hrank | ⟨hsdr, hecho⟩
  · exact .inl hrank
  · exact .inr ⟨rfl, hsdr, hecho⟩

theorem mem_flying_posted (hchan : target.head? = some '#') (htext : text ≠ [])
    (hu : (chats origin).server.users.lookup sender = some user) (rest : List Str)
    {far : ι} {via : Uid} {out : Out} :
    (far, via, out) ∈ (posted peer hooks env conf chats origin sender kind target text rest).flying ↔
    ∃ passed body link, ((chats origin).quiet.touch sender).channelGates env conf sender kind target
        text = .ok (passed, body) ∧
      link ∈ (chats origin).server.allChannelLinks (toAsciiLower target) ∧
      link ∈ (chats origin).server.links ∧ peer origin link = some (far, via) ∧
      out = .message user.uuid kind.word target body := by
  have hsent := @Chat.mem_sent_deliverChannel env conf ((chats origin).quiet.touch sender) sender
    user.mask target text kind user rfl hu
  simp only [posted, Net.put, handled, Chat.deliver_cons (chats origin).quiet htext hu,
    Chat.forward, if_pos hchan, nil_append, mem_filterMap, mem_filter, Prod.exists, hsent]
  constructor
  · rintro ⟨link, out', ⟨passed, body, hok, hlinks, hlink, rfl⟩, hpeer⟩
    obtain ⟨_, hfar, heq⟩ := Option.map_eq_some_iff.mp hpeer
    cases heq
    exact ⟨passed, body, link, hok, hlinks, hlink, hfar, rfl⟩
  · rintro ⟨passed, body, link, hok, hlinks, hlink, hpeer, rfl⟩
    exact ⟨link, _, ⟨passed, body, hok, hlinks, hlink, rfl⟩, by simp [hpeer]⟩

/--
A message that `+U` keeps for the half-ops reaches nobody else in any run, now or later, exactly if
the hooks have no one else to tell and the channel has no members on other servers.
-/
theorem opModerated_iff (hchan : target.head? = some '#') (htok : IsToken target)
    (hopOnly : (chats origin).server.opOnly sender (toAsciiLower target) = true) (htext : text ≠ [])
    (hu : (chats origin).server.users.lookup sender = some user) (hblank : ' ' ∉ user.uuid)
    (rest : List Str) :
    (∀ events, ∀ reach ∈ ((posted peer hooks env conf chats origin sender kind target text rest).run
        (takes peer (toAsciiLower target)) events).ledger, reach.Allowed origin sender) ↔
    (hooks.Unpushed sender target text (chats origin) ∧ hooks.Unbridged target text) ∧
      (chats origin).Stays (peer origin) env conf sender kind target text := by
  rw [← posted_allowed_iff hchan hopOnly rest]
  constructor
  · intro hall
    refine ⟨hall [], ?_⟩
    rintro ⟨⟨passed, body⟩, hok⟩ link hlinks hlink
    by_contra hpeer
    obtain ⟨⟨far, via⟩, hpeer⟩ := Option.ne_none_iff_exists'.mp hpeer
    obtain ⟨index, hindex⟩ := getElem?_of_mem ((mem_flying_posted hchan htext hu rest).mpr
      ⟨passed, body, link, hok, hlinks, hlink, hpeer, rfl⟩)
    have hled := hall [.meanwhile far (openChat user.uuid (toAsciiLower target) via), .arrive index]
    rw [Net.run_arrive hindex, forall_mem_append] at hled
    obtain ⟨line, hecho, hsh⟩ := takes_openChat far hblank htok hchan via body
    obtain hrank | ⟨-, -, hline⟩ := hled.2 _ hsh
    · cases hrank
    · cases hecho.symm.trans hline
  · rintro ⟨hposted, hst⟩ events
    have hstill : (posted peer hooks env conf chats origin sender kind target text rest).flying =
        [] := by
      refine eq_nil_iff_forall_not_mem.mpr ?_
      rintro ⟨far, via, out⟩ hflying
      obtain ⟨passed, body, link, hok, hlinks, hlink, hpeer, -⟩ :=
        (mem_flying_posted hchan htext hu rest).mp hflying
      cases (hst ⟨_, hok⟩ link hlinks hlink).symm.trans hpeer
    rwa [Net.run_still hstill]

end

end Network

/-! ## Samples -/

def moderatedChat (sid uuid nick farUuid farNick : Str) : Chat where
  server :=
    { conf := { name := "a.test", sid := sid }
      clock := 100
      users := AList.insert 1 (plainMember nick uuid) ∅
      nickIndex := AList.insert nick 1 ∅
      uuidLocal := AList.insert uuid 1 ∅
      channels := AList.insert "#c".toList
        { name := "#c"
          members := AList.insert 1 {} ∅
          rmembers := AList.insert farUuid {} ∅
          modes := ({} : ChanModes).setFlag .opmoderated true
          created := 1 } ∅
      links := AList.insert 7 { outbound := false, registered := true, lastSeen := 100 } ∅
      remoteUsers := AList.insert farUuid (memberThere farUuid farNick 7) ∅
      remoteNick := AList.insert farNick farUuid ∅ }

def moderatedPair : Bool → Chat
  | false => moderatedChat "1AA" "1AAAAAAAA" "ann" "2BBAAAAAA" "bob"
  | true => moderatedChat "2BB" "2BBAAAAAA" "bob" "1AAAAAAAA" "ann"

def pairPeer (server : Bool) (link : Uid) : Option (Bool × Uid) :=
  if link = 7 then some (!server, 7) else none

/-- Bob wants a push for every mention. -/
def pushesBob : Hooks where
  push := { base64 := .ofTable [], awayOnly := false }
  subs := AList.insert "bob".toList [⟨"https://one", [], []⟩] ∅

theorem opModerated_iff_alone : (gatedChat .opmoderated).server.opOnly 1 "#c" = true ∧
    ∀ events, ∀ reach ∈ ((posted pairPeer pushesBob .plain {} (fun _ => gatedChat .opmoderated) false
        1 .privmsg "#c" "hi" []).run (takes pairPeer (toAsciiLower "#c")) events).ledger,
      reach.Allowed false 1 := by
  have hopOnly : (gatedChat .opmoderated).server.opOnly 1 "#c" = true := by decide
  refine ⟨hopOnly, (@opModerated_iff Bool pairPeer pushesBob .plain {}
    (fun _ => gatedChat .opmoderated) false 1 .privmsg "#c" "hi" (plainMember "ann" "1AAAAAAAA") _
    (by decide) (by decide) hopOnly (by decide) rfl (by decide) []).mpr ⟨⟨?_, ?_⟩, ?_⟩⟩
  · unfold Hooks.Unpushed
    decide
  · unfold Hooks.Unbridged
    decide
  · rintro - link hlinks
    cases hlinks

/-- Ann's messages are for the ops alone, and Bob reads them, on another server or by a push. -/
theorem opModerated_leaks :
    (moderatedPair false).server.opOnly 1 "#c" = true ∧
      .shown true 1 (.message .channel "ann!ann@host" .privmsg "#c" "hi") 0 ∈
        ((posted pairPeer pushesBob .plain {} moderatedPair false 1 .privmsg "#c" "hi" []).run
          (takes pairPeer "#c") [.arrive 0]).ledger ∧
      ¬(Reach.shown true 1 (.message .channel "ann!ann@host" .privmsg "#c" "hi") 0).Allowed false 1 ∧
      .pushed false 2 0 ∈ (posted pairPeer pushesBob .plain {} (fun _ => gatedChat .opmoderated) false
        1 .privmsg "#c" "bob: hi" []).ledger ∧
      ¬(Reach.pushed false 2 0).Allowed false 1 := by
  refine ⟨by decide, by decide +kernel, ?_, by decide +kernel, ?_⟩ <;>
    simp [Reach.Allowed, Prefix.rank]

end EchoIrcd
