import EchoIrcd.Chat

/-!
# Who sees what the message commands write

The commands write to clients through `emit_to` alone.  For each of them one
equivalence says which message lines it adds to the log, and for whom; numeric
replies do not count.
-/

namespace EchoIrcd

open Str List

variable {first second third : Chat} {entry : Uid × Shown} {user : User}

def Shown.isTalk : Shown → Bool
  | .message _ _ _ _ _ => true
  | .tagmsg _ _ _ => true
  | .numeric _ _ => false

namespace Server

/-! ## Lines to links -/

theorem foldl_linkOut (out : Out) (uids : List Uid) (server : Server) :
    uids.foldl (fun server uid => server.linkOut uid out) server =
      { server with sent := server.sent ++
          (uids.filter (· ∈ server.links)).map fun uid => (uid, out) } := by
  induction uids generalizing server with
  | nil => simp
  | cons uid uids ih =>
    rw [foldl_cons, ih]
    by_cases hlink : uid ∈ server.links <;> simp [linkOut, hlink]

theorem linkMessageRecv_eq (via : Uid) (message : Message) (server : Server) :
    ∃ sent, server.linkMessageRecv via message = { server with sent := sent } := by
  unfold linkMessageRecv
  split
  · split
    · exact ⟨server.sent, rfl⟩
    · simp only
      split
      · split
        · rw [relayToChannel, foldl_linkOut]
          exact ⟨_, rfl⟩
        · exact ⟨server.sent, rfl⟩
      · split
        · exact ⟨server.sent, rfl⟩
        · unfold forwardToTarget
          split
          · split
            · exact ⟨_, rfl⟩
            · exact ⟨server.sent, rfl⟩
          · exact ⟨server.sent, rfl⟩
  · exact ⟨server.sent, rfl⟩

end Server

namespace Chat

variable {env : Env} {conf : ChatConf} {chat before after : Chat}
  {uid tuid reader : Uid} {line : Shown} {mask target text key : Str} {kind : MsgKind}

def quiet (chat : Chat) : Chat :=
  { chat with shown := [], server := { chat.server with sent := [] } }

/-! ## Writing a line -/

theorem mem_emitTo :
    entry ∈ (chat.emitTo uid line).shown ↔
      entry ∈ chat.shown ∨ uid ∈ chat.server.users ∧ entry = (uid, line) := by
  unfold emitTo
  by_cases hu : uid ∈ chat.server.users <;> simp [hu]

theorem foldl_emitTo (lineFor : Uid → Shown) (uids : List Uid) (chat : Chat) :
    uids.foldl (fun chat uid => chat.emitTo uid (lineFor uid)) chat =
      { chat with shown := chat.shown ++
          (uids.filter (· ∈ chat.server.users)).map fun uid => (uid, lineFor uid) } := by
  induction uids generalizing chat with
  | nil => simp
  | cons uid uids ih =>
    rw [foldl_cons, ih]
    by_cases hu : uid ∈ chat.server.users <;> simp [emitTo, hu]

theorem manner_emitTo (uid : Uid) (line : Shown) (chat : Chat) :
    (chat.emitTo uid line).manner = chat.manner := rfl

theorem manner_record (conf : ChatConf) (key : Str) (entry : HistMsg) (chat : Chat) :
    (chat.record conf key entry).manner = chat.manner := rfl

theorem manner_nextMsgid (chat : Chat) : chat.nextMsgid.manner = chat.manner := rfl

theorem mem_echo :
    entry ∈ (chat.echo uid line).shown ↔
      entry ∈ chat.shown ∨ (chat.manner uid).echoMessage = true ∧
        uid ∈ chat.server.users ∧ entry = (uid, line) := by
  unfold echo
  split
  · rename_i hecho
    simp [mem_emitTo, hecho]
  · rename_i hecho
    simp [hecho]

/-! ## Steps that say nothing -/

structure SameTalk (before after : Chat) : Prop where
  mem_iff : ∀ reader line, line.isTalk = true →
    ((reader, line) ∈ after.shown ↔ (reader, line) ∈ before.shown)

theorem SameTalk.of_shown (hsh : after.shown = before.shown) : SameTalk before after := by
  constructor
  intro reader line _
  rw [hsh]

theorem SameTalk.trans (hleft : SameTalk first second)
    (hrt : SameTalk second third) : SameTalk first third := by
  constructor
  intro reader line hline
  rw [hrt.mem_iff reader line hline, hleft.mem_iff reader line hline]

section

variable (chat : Chat) (uid : Uid)

theorem sameTalk_numeric (code : Nat) (text : Str) :
    SameTalk chat (chat.numeric uid code text) := by
  constructor
  intro reader line hline
  rw [numeric, mem_emitTo, or_iff_left]
  rintro ⟨-, heq⟩
  cases heq
  cases hline

theorem sameTalk_refuse (kind : MsgKind) (refusal : Refusal) :
    SameTalk chat (chat.refuse uid kind refusal) := by
  cases kind with
  | privmsg => apply sameTalk_numeric
  | notice => exact .of_shown rfl

theorem sameTalk_tellAway (tuid : Uid) (kind : MsgKind) (target : Str) :
    SameTalk chat (chat.tellAway uid tuid kind target) := by
  unfold tellAway
  split
  · apply sameTalk_refuse
  · exact .of_shown rfl

theorem sameTalk_announceCaller (tuid : Uid) (kind : MsgKind) :
    SameTalk chat (chat.announceCaller uid tuid kind) :=
  ((sameTalk_numeric ..).trans (sameTalk_refuse ..)).trans (sameTalk_refuse ..)

theorem sameTalk_floodKick (key : Str) (ban : Bool) :
    SameTalk chat (chat.floodKick uid key ban) := by
  unfold floodKick
  split <;> exact .of_shown rfl

/-! ## The checks on a channel message -/

def Repaced (before after : Chat) : Prop := ∃ paces, after = { before with paces := paces }

theorem Repaced.refl (chat : Chat) : Repaced chat chat := ⟨chat.paces, rfl⟩

theorem Repaced.trans (hleft : Repaced first second)
    (hrt : Repaced second third) : Repaced first third := by
  obtain ⟨_, rfl⟩ := hleft
  obtain ⟨paces, rfl⟩ := hrt
  exact ⟨paces, rfl⟩

theorem Repaced.server (hrepaced : Repaced before after) : after.server = before.server := by
  obtain ⟨_, rfl⟩ := hrepaced
  rfl

theorem Repaced.sameTalk (hrepaced : Repaced before after) : SameTalk before after := by
  obtain ⟨_, rfl⟩ := hrepaced
  exact .of_shown rfl

theorem repaced_slowmode (key : Str) : Repaced chat (chat.slowmode uid key).1 := by
  unfold slowmode
  simp only
  split
  · exact .refl chat
  · split
    · split <;> exact ⟨_, rfl⟩
    · exact .refl chat

theorem repaced_floodGate (key : Str) : Repaced chat (chat.floodGate uid key).1 := by
  unfold floodGate messagefloodHit
  simp only
  split
  · exact .refl chat
  · split
    · exact .refl chat
    · split <;> exact ⟨_, rfl⟩

theorem repaced_repeated (key body : Str) : Repaced chat (chat.repeated uid key body).1 := by
  unfold repeated
  simp only
  split
  · exact .refl chat
  · split
    · split
      · exact .refl chat
      · exact ⟨_, rfl⟩
    · exact .refl chat

theorem repaced_revealMember (key : Str) : Repaced chat (chat.revealMember uid key) := by
  unfold revealMember
  split
  · exact ⟨_, rfl⟩
  · exact .refl chat

end

/-- How a channel message is held back: in silence, with a reply, or with a kick. -/
inductive HeldBack (uid : Uid) (kind : MsgKind) (key : Str) (chat : Chat) : Chat → Prop
  | silent {paced : Chat} : Repaced chat paced → HeldBack uid kind key chat paced
  | refused {paced : Chat} (refusal : Refusal) : Repaced chat paced →
      HeldBack uid kind key chat (paced.refuse uid kind refusal)
  | kicked {paced : Chat} (ban : Bool) : Repaced chat paced →
      HeldBack uid kind key chat (paced.floodKick uid key ban)

theorem channelGates_cases (env : Env) (conf : ChatConf) (uid : Uid) (kind : MsgKind)
    (target text : Str) (chat : Chat) :
    (∃ refused, chat.channelGates env conf uid kind target text = .error refused ∧
      HeldBack uid kind (toAsciiLower target) chat refused) ∨
    ∃ passed body, chat.channelGates env conf uid kind target text = .ok (passed, body) ∧
      Repaced chat passed ∧
      contentCheck env conf uid kind target text chat.server = .ok body := by
  unfold channelGates
  simp only
  split
  · exact .inl ⟨_, rfl, .refused _ (.refl chat)⟩
  · have hslow := repaced_slowmode chat uid (toAsciiLower target)
    split
    · rename_i slowed heq
      rw [heq] at hslow
      exact .inl ⟨_, rfl, .refused _ hslow⟩
    · rename_i slowed heq
      rw [heq] at hslow
      have hflood := repaced_floodGate slowed uid (toAsciiLower target)
      split
      · exact .inl ⟨_, rfl, .refused _ hslow⟩
      · split
        · rename_i flooding ban heq
          rw [heq] at hflood
          exact .inl ⟨_, rfl, .kicked ban (hslow.trans hflood)⟩
        · rename_i paced heq
          rw [heq] at hflood
          have hpaced := hslow.trans hflood
          split
          · exact .inl ⟨_, rfl, .silent hpaced⟩
          · exact .inl ⟨_, rfl, .refused _ hpaced⟩
          · rename_i body hcnt
            rw [hpaced.server] at hcnt
            have hrepeated := repaced_repeated paced uid (toAsciiLower target) body
            split
            · rename_i held heq
              rw [heq] at hrepeated
              exact .inl ⟨_, rfl, .refused _ (hpaced.trans hrepeated)⟩
            · rename_i passed heq
              rw [heq] at hrepeated
              exact .inr ⟨_, _, rfl, hpaced.trans hrepeated, hcnt⟩

theorem HeldBack.sameTalk (hheld : HeldBack uid kind key before after) : SameTalk before after := by
  cases hheld with
  | silent hpaced => exact hpaced.sameTalk
  | refused refusal hpaced => exact hpaced.sameTalk.trans (sameTalk_refuse ..)
  | kicked ban hpaced => exact hpaced.sameTalk.trans (sameTalk_floodKick ..)

/-! ## Messages to a channel -/

theorem mem_users_of_hears {opOnly : Bool} (hhears : chat.hears env key uid opOnly reader = true) :
    reader ∈ chat.server.users := by
  unfold hears at hhears
  split at hhears
  · cases hhears
  · rename_i user hu
    exact Table.mem_of_lookup hu

theorem toChannelTagged_eq (env : Env) (key : Str) (uid : Uid) (opOnly : Bool) (line : Shown)
    (chat : Chat) :
    chat.toChannelTagged env key uid opOnly line = { chat with shown := chat.shown ++
      ((chat.members key).filter (chat.hears env key uid opOnly)).map fun reader =>
        (reader, line) } := by
  have hpres : ((chat.members key).filter (chat.hears env key uid opOnly)).filter
      (· ∈ chat.server.users) = (chat.members key).filter (chat.hears env key uid opOnly) := by
    apply filter_eq_self.mpr
    intro reader hrdr
    simpa using mem_users_of_hears (mem_filter.mp hrdr).2
  rw [toChannelTagged, foldl_emitTo (fun _ => line), hpres]

theorem sendChannelToLinks_shown (uid : Uid) (key target : Str) (kind : MsgKind) (text : Str)
    (chat : Chat) : (chat.sendChannelToLinks uid key target kind text).shown = chat.shown := by
  unfold sendChannelToLinks
  split <;> rfl

theorem mem_sendToChannel :
    (reader, line) ∈ (chat.sendToChannel env conf uid mask kind target text).shown ↔
      (reader, line) ∈ chat.shown ∨
      (line = .message .channel mask kind target text ∧
        reader ∈ chat.members (toAsciiLower target) ∧
        chat.hears env (toAsciiLower target) uid (chat.server.opOnly uid (toAsciiLower target))
          reader = true) ∨
      (line = .message .echo mask kind target text ∧ reader = uid ∧
        uid ∈ chat.server.users ∧ (chat.manner uid).echoMessage = true) := by
  obtain ⟨paces, hrev⟩ := repaced_revealMember chat uid (toAsciiLower target)
  unfold sendToChannel
  simp only [sendChannelToLinks_shown, mem_echo, toChannelTagged_eq, hrev, nextMsgid]
  -- recording touches neither the log nor what decides who hears
  split <;>
  · simp only [record, manner, mem_append, mem_map, mem_filter, Prod.mk.injEq]
    constructor
    · rintro ((hold | ⟨other, ⟨hmb, hhears⟩, rfl, rfl⟩) | ⟨hecho, hu, rfl, rfl⟩)
      · exact .inl hold
      · exact .inr (.inl ⟨rfl, hmb, hhears⟩)
      · exact .inr (.inr ⟨rfl, rfl, hu, hecho⟩)
    · rintro (hold | ⟨rfl, hmb, hhears⟩ | ⟨rfl, rfl, hu, hecho⟩)
      · exact .inl (.inl hold)
      · exact .inl (.inr ⟨reader, ⟨hmb, hhears⟩, rfl, rfl⟩)
      · exact .inr ⟨hecho, hu, rfl, rfl⟩

/-! ## Messages to a user -/

theorem autoAccept_shown (conf : ChatConf) (uid tuid : Uid) (chat : Chat) :
    (chat.autoAccept conf uid tuid).shown = chat.shown := by
  unfold autoAccept
  simp only
  split
  · split <;> rfl
  · rfl

theorem mem_sendToUser (hline : line.isTalk = true) :
    (reader, line) ∈ (chat.sendToUser env conf uid tuid mask kind target text).shown ↔
      (reader, line) ∈ chat.shown ∨
      (line = .message .direct mask kind target text ∧ reader = tuid ∧
        tuid ∈ chat.server.users ∧ chat.ignored env uid tuid mask = false) ∨
      (line = .message .echo mask kind target text ∧ reader = uid ∧
        uid ∈ chat.server.users ∧ (chat.manner uid).echoMessage = true) := by
  unfold sendToUser
  simp only [autoAccept_shown]
  cases chat.ignored env uid tuid mask with
  | true =>
    simp only [↓reduceIte, mem_echo, manner_nextMsgid, Prod.mk.injEq]
    tauto
  | false =>
    have hrec : ∀ (chat : Chat) (key : Str) (entry : HistMsg),
        (chat.record conf key entry).shown = chat.shown := fun _ _ _ => rfl
    simp only [Bool.false_eq_true, ↓reduceIte, (sameTalk_tellAway ..).mem_iff reader line hline,
      mem_echo, hrec, mem_emitTo, manner_record, manner_emitTo, manner_nextMsgid,
      Prod.mk.injEq]
    tauto

theorem mem_deliverUser (hline : line.isTalk = true) :
    (reader, line) ∈ (chat.deliverUser env conf uid tuid mask kind target text).shown ↔
      (reader, line) ∈ chat.shown ∨
      (chat.userRefusal uid tuid text = none ∧ chat.screened uid tuid = false ∧
        ((line = .message .direct mask kind target text ∧ reader = tuid ∧
          tuid ∈ chat.server.users ∧ chat.ignored env uid tuid mask = false) ∨
        (line = .message .echo mask kind target text ∧ reader = uid ∧
          uid ∈ chat.server.users ∧ (chat.manner uid).echoMessage = true))) := by
  unfold deliverUser
  split
  · rename_i refusal href
    rw [(sameTalk_refuse ..).mem_iff reader line hline, href]
    simp
  · rename_i hpass
    split
    · rename_i hscr
      rw [(sameTalk_announceCaller ..).mem_iff reader line hline, hscr]
      simp
    · rename_i hopen
      simp [mem_sendToUser hline, hpass, hopen]

/-! ## The idle clock

Nothing a message command asks about a user depends on the idle clock. -/

section

variable (chat : Chat) (uid other : Uid)

theorem manner_touch :
    ∃ time, (chat.touch uid).manner other = { chat.manner other with lastMsg := time } := by
  unfold manner touch
  by_cases hu : other ∈ chat.server.users
  · by_cases ho : other = uid
    · subst ho
      exact ⟨chat.server.clock, by simp [manner, hu]⟩
    · exact ⟨((chat.manners.lookup other).getD {}).lastMsg, by simp [hu, ho]⟩
  · exact ⟨0, by simp [hu]⟩

theorem hasPriv_touch : (chat.touch uid).hasPriv = chat.hasPriv := by
  funext other priv
  obtain ⟨time, htch⟩ := manner_touch chat uid other
  unfold hasPriv
  rw [htch]
  rfl

theorem echoMessage_touch :
    ((chat.touch uid).manner other).echoMessage = (chat.manner other).echoMessage := by
  obtain ⟨time, htch⟩ := manner_touch chat uid other
  rw [htch]

theorem isSilenced_touch (mask : Str) :
    (chat.touch uid).isSilenced env other mask = chat.isSilenced env other mask := by
  obtain ⟨time, htch⟩ := manner_touch chat uid other
  unfold isSilenced
  rw [htch]

theorem userRefusal_touch (text : Str) :
    (chat.touch uid).userRefusal uid other text = chat.userRefusal uid other text := by
  unfold userRefusal
  rw [hasPriv_touch]
  rfl

theorem screened_touch : (chat.touch uid).screened uid other = chat.screened uid other := by
  unfold screened
  rw [hasPriv_touch]
  rfl

theorem ignored_touch (mask : Str) :
    (chat.touch uid).ignored env uid other mask = chat.ignored env uid other mask := by
  unfold ignored
  rw [isSilenced_touch]
  rfl

theorem hears_touch (key : Str) (opOnly : Bool) :
    (chat.touch uid).hears env key uid opOnly = chat.hears env key uid opOnly := by
  unfold hears
  rw [hasPriv_touch]
  rfl

end

/-! ## Whole commands -/

def forward (env : Env) (conf : ChatConf) (uid : Uid) (user : User) (kind : MsgKind)
    (target text : Str) (chat : Chat) : Chat :=
  if target.head? = some '#' then chat.deliverChannel env conf uid user.mask kind target text
  else
    match chat.server.findNick target with
    | some tuid => chat.deliverUser env conf uid tuid user.mask kind target text
    | none =>
      match chat.server.findRemote target with
      | some (uuid, via) => chat.deliverRemote uid user uuid via kind target text
      | none => chat.refuse uid kind ⟨401, target ++ " :No such nick/channel".toList⟩

theorem deliver_absent (chat : Chat) {rest : List Str} (htext : text ≠ [])
    (hu : chat.server.users.lookup uid = none) :
    chat.deliver env conf uid kind (target :: text :: rest) = chat := by
  cases text with
  | nil => exact absurd rfl htext
  | cons char text => simp [deliver, hu]

theorem deliver_cons (chat : Chat) {rest : List Str} (htext : text ≠ [])
    (hu : chat.server.users.lookup uid = some user) :
    chat.deliver env conf uid kind (target :: text :: rest) =
      (chat.touch uid).forward env conf uid user kind target text := by
  cases text with
  | nil => exact absurd rfl htext
  | cons char text =>
    simp only [deliver, hu]
    rfl

theorem deliver_cases (env : Env) (conf : ChatConf) (uid : Uid) (kind : MsgKind)
    (params : List Str) (chat : Chat) :
    (∃ target text rest user, params = target :: text :: rest ∧ text ≠ [] ∧
      chat.server.users.lookup uid = some user) ∨
    SameTalk chat (chat.deliver env conf uid kind params) := by
  match params with
  | [] => exact .inr (sameTalk_refuse ..)
  | [_] => exact .inr (sameTalk_refuse ..)
  | _ :: [] :: _ => exact .inr (sameTalk_refuse ..)
  | target :: (char :: text) :: rest =>
    cases hu : chat.server.users.lookup uid with
    | some user => exact .inl ⟨target, char :: text, rest, user, rfl, by simp, rfl⟩
    | none =>
      right
      simp only [deliver, hu]
      exact .of_shown rfl

/-- A message to a channel is shown to the members who hear it if it passes the checks. -/
theorem mem_deliverChannel (hline : line.isTalk = true) :
    (reader, line) ∈ (chat.deliverChannel env conf uid mask kind target text).shown ↔
      (reader, line) ∈ chat.shown ∨
      ∃ passed body, chat.channelGates env conf uid kind target text = .ok (passed, body) ∧
        ((line = .message .channel mask kind target body ∧
          reader ∈ chat.members (toAsciiLower target) ∧
          chat.hears env (toAsciiLower target) uid
            (chat.server.opOnly uid (toAsciiLower target)) reader = true) ∨
        (line = .message .echo mask kind target body ∧ reader = uid ∧
          uid ∈ chat.server.users ∧ (chat.manner uid).echoMessage = true)) := by
  unfold deliverChannel
  rcases channelGates_cases env conf uid kind target text chat with
    ⟨refused, heq, hheld⟩ | ⟨passed, body, heq, hrepaced, -⟩
  · rw [heq, hheld.sameTalk.mem_iff reader line hline]
    simp
  · obtain ⟨paces, rfl⟩ := hrepaced
    rw [heq, mem_sendToChannel]
    constructor
    · rintro (hold | hnew)
      · exact .inl hold
      · exact .inr ⟨_, body, rfl, hnew⟩
    · rintro (hold | ⟨_, _, heq, hnew⟩)
      · exact .inl hold
      · cases heq
        exact .inr hnew

theorem mem_deliverRemote {uuid : Str} {via : Uid}
    (hsh : (reader, line) ∈ (chat.deliverRemote uid user uuid via kind target text).shown) :
    (reader, line) ∈ chat.shown ∨
      line = .message .echo user.mask kind target text ∧ reader = uid := by
  unfold deliverRemote at hsh
  simp only at hsh
  split at hsh
  · rw [mem_emitTo] at hsh
    rcases hsh with hold | ⟨-, heq⟩
    · exact .inl hold
    · cases heq
      exact .inr ⟨rfl, rfl⟩
  · exact .inl hsh

/-! ## TAGMSG -/

theorem mem_users_of_messageTags (htags : (chat.manner reader).messageTags = true) :
    reader ∈ chat.server.users := by
  by_contra habs
  simp [manner, habs] at htags

theorem mem_tagToChannel :
    (reader, line) ∈ (chat.tagToChannel env uid mask target).shown ↔ (reader, line) ∈ chat.shown ∨
      chat.tagRefused env uid (toAsciiLower target) = false ∧
        reader ∈ chat.members (toAsciiLower target) ∧ chat.hearsTags uid reader = true ∧
        line = .tagmsg (copyFor uid reader) mask target := by
  unfold tagToChannel
  simp only
  split
  · rename_i href
    simp [href]
  · rename_i hpass
    rw [foldl_emitTo fun member => .tagmsg (copyFor uid member) mask target]
    simp only [hpass, true_and, mem_append, mem_map, mem_filter, decide_eq_true_eq, Prod.mk.injEq]
    constructor
    · rintro (hold | ⟨member, ⟨⟨hmb, hhears⟩, -⟩, rfl, rfl⟩)
      · exact .inl hold
      · exact .inr ⟨hmb, hhears, rfl⟩
    · rintro (hold | ⟨hmb, hhears, rfl⟩)
      · exact .inl hold
      · have htag : (chat.manner reader).messageTags = true := by
          simp only [hearsTags, Bool.and_eq_true] at hhears
          exact hhears.2
        exact .inr ⟨reader, ⟨⟨hmb, hhears⟩, mem_users_of_messageTags htag⟩, rfl, rfl⟩

theorem mem_tagToUser :
    (reader, line) ∈ (chat.tagToUser env uid tuid mask target).shown ↔ (reader, line) ∈ chat.shown ∨
      chat.dmBlocked env uid tuid = false ∧
        (line = .tagmsg .direct mask target ∧ reader = tuid ∧
            (chat.manner tuid).messageTags = true ∨
          line = .tagmsg .echo mask target ∧ reader = uid ∧ uid ∈ chat.server.users ∧
            (chat.manner uid).echoMessage = true) := by
  unfold tagToUser
  split
  · rename_i hblocked
    simp [hblocked]
  · rename_i hpass
    simp only [hpass, true_and, mem_echo, Prod.mk.injEq]
    split
    · rename_i htag
      have hkn := mem_users_of_messageTags htag
      simp only [mem_emitTo, manner_emitTo, Prod.mk.injEq, hkn, htag, true_and, and_true]
      tauto
    · tauto

end Chat

end EchoIrcd
