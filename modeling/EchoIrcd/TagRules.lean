import EchoIrcd.DirectGates

/-!
# TAGMSG against PRIVMSG

TAGMSG has checks of its own.  In a channel it asks for membership, `+m` and
the mute ban, and leaves out `+E`, `+M`, `+d`, `+W`, `+f`, the SIGNORE lists and
the routing of `+U`.  To a user it leaves out the SIGNORE lists, and it lets
everyone write to themself.  Apart from these gaps whoever is not shown a
harmless PRIVMSG is not shown a TAGMSG either.
-/

namespace EchoIrcd

open Str Option

namespace Chat

variable {env : Env} {conf : ChatConf} {chat before after : Chat} {uid tuid reader : Uid}
  {key target text tags : Str} {user : User}

/-! ## The rate limits as predicates -/

def slowTrips (uid : Uid) (key : Str) (chat : Chat) : Bool :=
  let server := chat.server
  ((server.channels.lookup key).bind (·.modes.slowmode)).any fun rate =>
    unvoiced uid key server && !server.chanopExempt uid key "slowmode" &&
      server.isMember uid key && rate.count.toNat ≤ ((chat.pace key uid).slowHits.filter
        (Server.saturatingSub server.clock rate.secs < ·)).length

def floodTrips (uid : Uid) (key : Str) (chat : Chat) : Bool :=
  let server := chat.server
  !server.floodExempt uid key && !server.chanopExempt uid key "flood" &&
    ((server.channels.lookup key).bind (·.modes.flood)).any fun flood =>
      flood.lines.toNat < ((chat.pace key uid).floodHits.filter fun time =>
        Server.saturatingSub server.clock time < flood.secs).length + 1

def repeatTrips (uid : Uid) (key body : Str) (chat : Chat) : Bool :=
  let server := chat.server
  ((server.channels.lookup key).bind (·.modes.repeatLines)).isSome &&
    server.rank uid key < Prefix.halfop.rank && !server.chanopExempt uid key "repeat" &&
    server.isMember uid key && body ∈ (chat.pace key uid).recentMsgs

/-! Each limit has a counter of its own, and none reads the clock of idle time. -/

theorem slowmode_snd (chat : Chat) (uid : Uid) (key : Str) :
    (chat.slowmode uid key).2 = chat.slowTrips uid key := by
  unfold slowmode slowTrips
  simp only
  split
  · rename_i hrate
    rw [hrate, any_none]
  · rename_i rate hrate
    rw [hrate, any_some]
    split
    · split <;> simp_all
    · rename_i hfree
      rw [Bool.not_eq_true] at hfree
      rw [hfree, Bool.false_and]

theorem floodGate_snd (chat : Chat) (uid : Uid) (key : Str) :
    (chat.floodGate uid key).2.isSome = chat.floodTrips uid key := by
  unfold floodGate messagefloodHit floodTrips
  simp only
  split
  · rename_i hexm
    rw [Bool.or_eq_true] at hexm
    rcases hexm with hexm | hexm <;>
      simp only [hexm, Bool.not_true, Bool.false_and, Bool.and_false, isSome_none]
  · rename_i hheld
    rw [Bool.or_eq_true, not_or, Bool.not_eq_true, Bool.not_eq_true] at hheld
    split
    · rename_i hflood
      simp [hflood]
    · rename_i flood hflood
      split <;> simp_all

theorem repeated_snd (chat : Chat) (uid : Uid) (key body : Str) :
    (chat.repeated uid key body).2 = chat.repeatTrips uid key body := by
  unfold repeated repeatTrips
  simp only
  split
  · rename_i hlim
    simp [hlim]
  · rename_i limit hlim
    rw [hlim, isSome_some, Bool.true_and]
    split
    · rename_i hheld
      split <;> simp_all
    · rename_i hfree
      rw [Bool.not_eq_true] at hfree
      rw [hfree, Bool.false_and]

theorem pace_setPace (chat : Chat) (pace : Pace) :
    (chat.setPace key uid pace).pace key uid = pace := by
  simp [setPace, Chat.pace]

theorem floodHits_slowmode (chat : Chat) (uid : Uid) (key : Str) :
    ((chat.slowmode uid key).1.pace key uid).floodHits = (chat.pace key uid).floodHits ∧
      ((chat.slowmode uid key).1.pace key uid).recentMsgs = (chat.pace key uid).recentMsgs := by
  unfold slowmode
  simp only
  split
  · exact ⟨rfl, rfl⟩
  · split
    · split <;> simp only [pace_setPace, and_self]
    · exact ⟨rfl, rfl⟩

theorem recentMsgs_floodGate (chat : Chat) (uid : Uid) (key : Str) :
    ((chat.floodGate uid key).1.pace key uid).recentMsgs = (chat.pace key uid).recentMsgs := by
  unfold floodGate messagefloodHit
  simp only
  split
  · rfl
  · split
    · rfl
    · split <;> simp only [pace_setPace]

theorem floodTrips_congr (hsrv : after.server = before.server)
    (hhits : (after.pace key uid).floodHits = (before.pace key uid).floodHits) :
    after.floodTrips uid key = before.floodTrips uid key := by
  simp only [floodTrips, hsrv, hhits]

theorem repeatTrips_congr {body : Str} (hsrv : after.server = before.server)
    (hrecent : (after.pace key uid).recentMsgs = (before.pace key uid).recentMsgs) :
    after.repeatTrips uid key body = before.repeatTrips uid key body := by
  simp only [repeatTrips, hsrv, hrecent]

/-! ## What lets a channel message pass -/

theorem speakRefusal_eq_none :
    chat.speakRefusal env uid target text = none ↔
      shutOut env uid (toAsciiLower target) chat.server = false ∧
      plaintext (toAsciiLower target) text chat.server = false ∧
      moderated uid (toAsciiLower target) chat.server = false ∧
      regModerated uid (toAsciiLower target) chat.server = false ∧
      chat.tooEarly uid (toAsciiLower target) = none := by
  unfold speakRefusal
  simp only
  split_ifs with hshut hpl hmod hreg <;> simp_all

structure Harmless (env : Env) (conf : ChatConf) (chat : Chat) (uid : Uid) (target text : Str) :
    Prop where
  nonempty : text ≠ []
  content : ∃ body, contentCheck env conf uid .privmsg target text chat.server = .ok body ∧
    chat.repeatTrips uid (toAsciiLower target) body = false
  ctcp : MessageText.isCtcp text = false

/-- Nothing but the content of a message can still hold it back. -/
def Passes (env : Env) (chat : Chat) (uid : Uid) (target text : Str) : Prop :=
  chat.speakRefusal env uid target text = none ∧
    chat.slowTrips uid (toAsciiLower target) = false ∧
    muted env uid (toAsciiLower target) chat.server = false ∧
    chat.floodTrips uid (toAsciiLower target) = false

theorem channelGates_ok (hharm : Harmless env conf chat uid target text) :
    (∃ passed body, chat.channelGates env conf uid .privmsg target text = .ok (passed, body)) ↔
      chat.Passes env uid target text := by
  obtain ⟨body, hcnt, hfre⟩ := hharm.content
  unfold channelGates Passes
  simp only
  split
  · rename_i refusal href
    simp [href]
  · rename_i hspeak
    have hsrv := (repaced_slowmode chat uid (toAsciiLower target)).server
    have hslow := slowmode_snd chat uid (toAsciiLower target)
    obtain ⟨hhits, hrecent⟩ := floodHits_slowmode chat uid (toAsciiLower target)
    split
    · rename_i slowed heq
      rw [heq] at hslow
      simp [← hslow]
    · rename_i slowed heq
      rw [heq] at hslow hsrv hhits hrecent
      rw [hsrv]
      split
      · rename_i hmuted
        simp [hmuted]
      · rename_i hmuted
        have hflood := floodGate_snd slowed uid (toAsciiLower target)
        have hpaced := (repaced_floodGate slowed uid (toAsciiLower target)).server
        have hkept := recentMsgs_floodGate slowed uid (toAsciiLower target)
        rw [floodTrips_congr hsrv hhits] at hflood
        split
        · rename_i flooding ban heq
          rw [heq] at hflood
          simp [← hflood]
        · rename_i paced heq
          rw [heq] at hflood hpaced hkept
          have hrepeat := repeated_snd paced uid (toAsciiLower target) body
          rw [repeatTrips_congr (hpaced.trans hsrv) (hkept.trans hrecent), hfre] at hrepeat
          rw [hpaced, hsrv, hcnt]
          simp only
          split
          · rename_i held heq
            rw [heq] at hrepeat
            cases hrepeat
          · simp [hspeak, ← hslow, hmuted, ← hflood]

/-! ## Who is reached -/

def PrivmsgReaches (env : Env) (conf : ChatConf) (chat : Chat) (uid : Uid) (target text : Str)
    (reader : Uid) : Prop :=
  ∃ copy mask kind addressed body, (reader, .message copy mask kind addressed body) ∈
    (chat.hush.deliver env conf uid .privmsg [target, text]).shown

def TagmsgReaches (env : Env) (chat : Chat) (uid : Uid) (tags target : Str) (reader : Uid) :
    Prop :=
  ∃ copy mask addressed, (reader, .tagmsg copy mask addressed) ∈
    (chat.hush.tagMsg env uid tags target).shown

def TagLeaks (env : Env) (chat : Chat) (uid : Uid) (tags target text : Str) (reader : Uid) :
    Prop :=
  tags ≠ [] ∧ ∃ user, chat.server.users.lookup uid = some user ∧
    let key := toAsciiLower target
    if target.head? = some '#' then
      chat.tagRefused env uid key = false ∧ reader ∈ chat.members key ∧
        chat.hearsTags uid reader = true ∧
        (plaintext key text chat.server = true ∨ regModerated uid key chat.server = true ∨
          chat.tooEarly uid key ≠ none ∨ chat.slowTrips uid key = true ∨
          chat.floodTrips uid key = true ∨
          reader ≠ uid ∧ (chat.server.signoreBlocks env uid reader = true ∨
            chat.server.opOnly uid key = true ∧
              chat.server.rank reader key < Prefix.halfop.rank))
    else ∃ tuid, chat.server.findNick target = some tuid ∧
      if uid = tuid then
        reader = uid ∧ ((chat.manner uid).messageTags = true ∨
            (chat.manner uid).echoMessage = true) ∧
          (user.flags .regOnlyPm = true ∧ user.account = none ∨
            user.flags .sslPm = true ∧ user.secure = false ∨
            chat.ignored env uid uid user.mask = true ∧ (chat.manner uid).echoMessage = false)
      else
        reader = tuid ∧ chat.dmBlocked env uid tuid = false ∧
          (chat.manner tuid).messageTags = true ∧
          chat.server.signoreBlocks env uid tuid = true

section

variable (hu : chat.server.users.lookup uid = some user)

include hu

theorem privmsgReaches_channel (hchan : target.head? = some '#') (hharm : Harmless env conf chat uid target text) :
    PrivmsgReaches env conf chat uid target text reader ↔
      chat.Passes env uid target text ∧
      (reader ∈ chat.members (toAsciiLower target) ∧
          chat.hears env (toAsciiLower target) uid
            (chat.server.opOnly uid (toAsciiLower target)) reader = true ∨
        reader = uid ∧ (chat.manner uid).echoMessage = true) := by
  have hhere : uid ∈ chat.server.users := Table.mem_of_lookup hu
  have htch : Harmless env conf (chat.hush.touch uid) uid target text :=
    ⟨hharm.nonempty, hharm.content, hharm.ctcp⟩
  have hpasses := channelGates_ok htch
  unfold PrivmsgReaches
  rw [deliver_cons chat.hush hharm.nonempty hu, forward, if_pos hchan]
  constructor
  · rintro ⟨copy, mask, kind, addressed, body, hsh⟩
    rcases (mem_deliverChannel rfl).mp hsh with hold | ⟨passed, sent, hok, hrdr⟩
    · cases hold
    · refine ⟨hpasses.mp ⟨passed, sent, hok⟩, ?_⟩
      rw [hears_touch, echoMessage_touch] at hrdr
      rcases hrdr with ⟨-, hmb, hhears⟩ | ⟨-, hself, -, hecho⟩
      · exact .inl ⟨hmb, hhears⟩
      · exact .inr ⟨hself, hecho⟩
  · rintro ⟨hpass, hrdr⟩
    obtain ⟨passed, body, hok⟩ := hpasses.mpr hpass
    rcases hrdr with ⟨hmb, hhears⟩ | ⟨hself, hecho⟩
    · refine ⟨.channel, user.mask, .privmsg, target, body, (mem_deliverChannel rfl).mpr ?_⟩
      refine .inr ⟨passed, body, hok, .inl ⟨rfl, hmb, ?_⟩⟩
      rw [hears_touch]
      exact hhears
    · refine ⟨.echo, user.mask, .privmsg, target, body, (mem_deliverChannel rfl).mpr ?_⟩
      refine .inr ⟨passed, body, hok, .inr ⟨rfl, hself, hhere, ?_⟩⟩
      rw [echoMessage_touch]
      exact hecho

theorem privmsgReaches_user (hchan : target.head? ≠ some '#') (htext : text ≠ [])
    (hf : chat.server.findNick target = some tuid) :
    PrivmsgReaches env conf chat uid target text reader ↔
      (chat.userRefusal uid tuid text = none ∧ chat.screened uid tuid = false) ∧
      (reader = tuid ∧ tuid ∈ chat.server.users ∧ chat.ignored env uid tuid user.mask = false ∨
        reader = uid ∧ (chat.manner uid).echoMessage = true) := by
  have hhere : uid ∈ chat.server.users := Table.mem_of_lookup hu
  have hf' : (chat.hush.touch uid).server.findNick target = some tuid := hf
  unfold PrivmsgReaches
  rw [deliver_cons chat.hush htext hu, forward, if_neg hchan, hf']
  constructor
  · rintro ⟨copy, mask, kind, addressed, body, hsh⟩
    rcases (mem_deliverUser rfl).mp hsh with hold | ⟨hpass, hopen, hrdr⟩
    · cases hold
    · rw [userRefusal_touch] at hpass
      rw [screened_touch] at hopen
      rw [ignored_touch, echoMessage_touch] at hrdr
      refine ⟨⟨hpass, hopen⟩, ?_⟩
      rcases hrdr with ⟨-, hself, hkn, hhd⟩ | ⟨-, hself, -, hecho⟩
      · exact .inl ⟨hself, hkn, hhd⟩
      · exact .inr ⟨hself, hecho⟩
  · rintro ⟨⟨hpass, hopen⟩, hrdr⟩
    rcases hrdr with ⟨hself, hkn, hhd⟩ | ⟨hself, hecho⟩
    · refine ⟨.direct, user.mask, .privmsg, target, text, (mem_deliverUser rfl).mpr (.inr ?_)⟩
      rw [userRefusal_touch, screened_touch, ignored_touch]
      exact ⟨hpass, hopen, .inl ⟨rfl, hself, hkn, hhd⟩⟩
    · refine ⟨.echo, user.mask, .privmsg, target, text, (mem_deliverUser rfl).mpr (.inr ?_)⟩
      rw [userRefusal_touch, screened_touch, echoMessage_touch]
      exact ⟨hpass, hopen, .inr ⟨rfl, hself, hhere, hecho⟩⟩

theorem tagmsgReaches_channel (htags : tags ≠ []) (hchan : target.head? = some '#') :
    TagmsgReaches env chat uid tags target reader ↔
      chat.tagRefused env uid (toAsciiLower target) = false ∧
        reader ∈ chat.members (toAsciiLower target) ∧ chat.hearsTags uid reader = true := by
  have hu' : chat.hush.server.users.lookup uid = some user := hu
  unfold TagmsgReaches tagMsg
  simp only [if_neg htags, hu', if_pos hchan]
  constructor
  · rintro ⟨_, _, _, hsh⟩
    rcases mem_tagToChannel.mp hsh with hold | ⟨hpass, hmb, hhears, -⟩
    · cases hold
    · exact ⟨hpass, hmb, hhears⟩
  · rintro ⟨hpass, hmb, hhears⟩
    exact ⟨copyFor uid reader, user.mask, target,
      mem_tagToChannel.mpr (.inr ⟨hpass, hmb, hhears, rfl⟩)⟩

theorem tagmsgReaches_user (htags : tags ≠ []) (hchan : target.head? ≠ some '#') :
    TagmsgReaches env chat uid tags target reader ↔
      ∃ tuid, chat.server.findNick target = some tuid ∧ chat.dmBlocked env uid tuid = false ∧
        (reader = tuid ∧ (chat.manner tuid).messageTags = true ∨
          reader = uid ∧ (chat.manner uid).echoMessage = true) := by
  have hhere : uid ∈ chat.server.users := Table.mem_of_lookup hu
  have hu' : chat.hush.server.users.lookup uid = some user := hu
  unfold TagmsgReaches tagMsg
  simp only [if_neg htags, hu', if_neg hchan]
  constructor
  · rintro ⟨_, _, _, hsh⟩
    split at hsh
    · rename_i tuid hf
      refine ⟨tuid, hf, ?_⟩
      rcases mem_tagToUser.mp hsh with hold | ⟨hpass, hrdr⟩
      · cases hold
      · refine ⟨hpass, ?_⟩
        rcases hrdr with ⟨-, hself, htag⟩ | ⟨-, hself, -, hecho⟩
        · exact .inl ⟨hself, htag⟩
        · exact .inr ⟨hself, hecho⟩
    · cases hsh
  · rintro ⟨tuid, hf, hpass, hrdr⟩
    have hf' : chat.hush.server.findNick target = some tuid := hf
    rw [hf']
    rcases hrdr with ⟨hself, htag⟩ | ⟨hself, hecho⟩
    · exact ⟨.direct, user.mask, target,
        mem_tagToUser.mpr (.inr ⟨hpass, .inl ⟨rfl, hself, htag⟩⟩)⟩
    · exact ⟨.echo, user.mask, target,
        mem_tagToUser.mpr (.inr ⟨hpass, .inr ⟨rfl, hself, hhere, hecho⟩⟩)⟩

end

/-! ## The gaps in a channel -/

theorem passes_of_tagPassed (hpass : chat.tagRefused env uid (toAsciiLower target) = false) :
    chat.Passes env uid target text ↔
    plaintext (toAsciiLower target) text chat.server = false ∧
      regModerated uid (toAsciiLower target) chat.server = false ∧
      chat.tooEarly uid (toAsciiLower target) = none ∧
      chat.slowTrips uid (toAsciiLower target) = false ∧
      chat.floodTrips uid (toAsciiLower target) = false := by
  simp only [tagRefused, Bool.or_eq_false_iff, Bool.not_eq_false'] at hpass
  obtain ⟨⟨hmb, hvoiced⟩, hmuted⟩ := hpass
  have hinside : shutOut env uid (toAsciiLower target) chat.server = false := by
    simp [shutOut, hmb]
  have hmoderated : moderated uid (toAsciiLower target) chat.server = false := by
    simp [moderated, hvoiced]
  rw [Passes, speakRefusal_eq_none]
  tauto

/-- Someone else who hears tags hears a message unless SIGNORE or `+U` keeps it from them. -/
theorem hears_of_hearsTags {opOnly : Bool} (hne : reader ≠ uid)
    (htags : chat.hearsTags uid reader = true) :
    chat.hears env key uid opOnly reader = true ↔
      chat.server.signoreBlocks env uid reader = false ∧
        ¬(opOnly = true ∧ chat.server.rank reader key < Prefix.halfop.rank) := by
  simp only [hearsTags, Bool.and_eq_true] at htags
  obtain ⟨⟨-, hdeaf⟩, htag⟩ := htags
  obtain ⟨user, hu⟩ := Table.mem_iff_lookup.mp (mem_users_of_messageTags htag)
  rw [hasUserFlag_of_lookup hu] at hdeaf
  cases opOnly <;> simp [hears, hu, hne, hdeaf]

theorem echoMessage_of_hearsTags (htags : chat.hearsTags uid uid = true) :
    (chat.manner uid).echoMessage = true := by
  simp only [hearsTags, Bool.and_eq_true] at htags
  simpa using htags.1.1

/-! ## The gaps in a direct message -/

variable (hu : chat.server.users.lookup uid = some user)

include hu

theorem passes_of_dmPassed (hne : uid ≠ tuid) (hctcp : MessageText.isCtcp text = false)
    (hpass : chat.dmBlocked env uid tuid = false) :
    tuid ∈ chat.server.users ∧ chat.userRefusal uid tuid text = none ∧
      chat.screened uid tuid = false ∧
      chat.ignored env uid tuid user.mask = chat.server.signoreBlocks env uid tuid := by
  rw [dmBlocked, if_neg hne] at hpass
  split_ifs at hpass with hkn hcommon hlogin htls hcaller
  rw [hu, elim_some] at hpass
  refine ⟨by simpa using hkn, ?_, ?_, ?_⟩
  · have hshared : ¬(chat.hasUserFlag tuid .denyUncommon && uid ≠ tuid &&
        !chat.hasPriv uid .ignoreCommonchans && !chat.shareChannel uid tuid) = true := by
      simpa [hne] using hcommon
    have htext : ¬(MessageText.isCtcp text && !MessageText.isAction text && uid ≠ tuid &&
        chat.hasUserFlag tuid .noctcp && !chat.hasPriv uid .ignoreNoctcp) = true := by
      simp [hctcp]
    simp only [userRefusal, if_neg hshared, if_neg htext, if_neg hlogin, if_neg htls]
  · simp only [screened, Bool.and_right_comm _ (!chat.server.isAccepted tuid _)]
    simpa [hne] using hcaller
  · simp [ignored, hpass]

/-! ## Both commands side by side -/

variable (htags : tags ≠ []) (hharm : Harmless env conf chat uid target text)

include htags hharm

theorem tagLeaks_channel (hchan : target.head? = some '#') :
    TagLeaks env chat uid tags target text reader ↔
      TagmsgReaches env chat uid tags target reader ∧
        ¬PrivmsgReaches env conf chat uid target text reader := by
  rw [tagmsgReaches_channel hu htags hchan, privmsgReaches_channel hu hchan hharm]
  simp only [TagLeaks, htags, ne_eq, not_false_eq_true, true_and, hu, some.injEq,
    exists_eq_left', if_pos hchan]
  constructor
  · rintro ⟨hpass, hmb, hhears, hgap⟩
    refine ⟨⟨hpass, hmb, hhears⟩, ?_⟩
    rw [passes_of_tagPassed hpass]
    rintro ⟨hpasses, hrdr⟩
    have ho : reader ≠ uid ∧ (chat.server.signoreBlocks env uid reader = true ∨
        chat.server.opOnly uid (toAsciiLower target) = true ∧
          chat.server.rank reader (toAsciiLower target) < Prefix.halfop.rank) := by
      obtain ⟨hpl, hreg, hearly, hslow, hflood⟩ := hpasses
      simpa [hpl, hreg, hearly, hslow, hflood] using hgap
    rcases hrdr with ⟨-, hhd⟩ | ⟨hself, -⟩
    · rw [hears_of_hearsTags ho.1 hhears] at hhd
      rcases ho.2 with hignored | hrouted
      · exact Bool.false_ne_true (hhd.1.symm.trans hignored)
      · exact hhd.2 hrouted
    · exact ho.1 hself
  · rintro ⟨⟨hpass, hmb, hhears⟩, hunreached⟩
    refine ⟨hpass, hmb, hhears, ?_⟩
    rw [passes_of_tagPassed hpass] at hunreached
    by_contra hnone
    simp only [not_or, Bool.not_eq_true, not_not, not_and] at hnone
    obtain ⟨hpl, hreg, hearly, hslow, hflood, hoth⟩ := hnone
    refine hunreached ⟨⟨hpl, hreg, hearly, hslow, hflood⟩, ?_⟩
    by_cases hself : reader = uid
    · subst hself
      exact .inr ⟨rfl, echoMessage_of_hearsTags hhears⟩
    · obtain ⟨hhd, hrouted⟩ := hoth hself
      refine .inl ⟨hmb, (hears_of_hearsTags hself hhears).mpr ⟨hhd, ?_⟩⟩
      rintro ⟨hop, hrank⟩
      exact hrouted hop hrank

theorem tagLeaks_user (hchan : target.head? ≠ some '#') :
    TagLeaks env chat uid tags target text reader ↔
      TagmsgReaches env chat uid tags target reader ∧
        ¬PrivmsgReaches env conf chat uid target text reader := by
  rw [tagmsgReaches_user hu htags hchan]
  simp only [TagLeaks, htags, ne_eq, not_false_eq_true, true_and, hu, some.injEq,
    exists_eq_left', if_neg hchan]
  cases hf : chat.server.findNick target with
  | none => simp
  | some tuid =>
    rw [privmsgReaches_user hu hchan hharm.nonempty hf]
    simp only [some.injEq, exists_eq_left']
    by_cases hself : uid = tuid
    · subst hself
      have hhere : uid ∈ chat.server.users := Table.mem_of_lookup hu
      have hblocked : chat.dmBlocked env uid uid = false := by simp [dmBlocked]
      have hopen : chat.screened uid uid = false := by simp [screened]
      have hgates : chat.userRefusal uid uid text = none ↔
          ¬(user.flags .regOnlyPm = true ∧ user.account = none) ∧
            ¬(user.flags .sslPm = true ∧ user.secure = false) := by
        rw [userRefusal_eq_none hu hu]
        simp [isSome_iff_ne_none]
      grind
    · rw [if_neg hself]
      constructor
      · rintro ⟨rfl, hpass, htag, hsignored⟩
        obtain ⟨-, -, -, hignored⟩ := passes_of_dmPassed hu hself hharm.ctcp hpass
        refine ⟨⟨hpass, .inl ⟨rfl, htag⟩⟩, ?_⟩
        rintro ⟨-, ⟨-, -, hhd⟩ | ⟨hs, -⟩⟩
        · rw [hignored, hsignored] at hhd
          cases hhd
        · exact hself hs.symm
      · rintro ⟨⟨hpass, hrdr⟩, hunreached⟩
        obtain ⟨hkn, hgates, hopen, hignored⟩ :=
          passes_of_dmPassed hu hself hharm.ctcp hpass
        rcases hrdr with ⟨hs, htag⟩ | ⟨hs, hecho⟩
        · refine ⟨hs, hpass, htag, ?_⟩
          by_contra hhd
          rw [Bool.not_eq_true, ← hignored] at hhd
          exact hunreached ⟨⟨hgates, hopen⟩, .inl ⟨hs, hkn, hhd⟩⟩
        · exact absurd ⟨⟨hgates, hopen⟩, .inr ⟨hs, hecho⟩⟩ hunreached

end Chat

/-- A harmless PRIVMSG and a TAGMSG have the same readers, the gaps of TAGMSG apart. -/
theorem tagmsgReaches_privmsg_iff (env : Env) (conf : ChatConf) (chat : Chat) (uid : Uid)
    (tags target text : Str) (reader : Uid) (hharm : chat.Harmless env conf uid target text) :
    (¬chat.PrivmsgReaches env conf uid target text reader →
      ¬chat.TagmsgReaches env uid tags target reader) ↔
    ¬chat.TagLeaks env uid tags target text reader := by
  have hsilent : tags = [] ∨ chat.server.users.lookup uid = none →
      ¬chat.TagmsgReaches env uid tags target reader := by
    rintro hno ⟨_, _, _, hsh⟩
    have hs : chat.hush.tagMsg env uid tags target = chat.hush := by
      rcases hno with htags | habs
      · rw [Chat.tagMsg, if_pos htags]
      · have habs : chat.hush.server.users.lookup uid = none := habs
        simp only [Chat.tagMsg, habs, ite_self]
    rw [hs] at hsh
    cases hsh
  have hleaks : chat.TagLeaks env uid tags target text reader ↔
      chat.TagmsgReaches env uid tags target reader ∧
        ¬chat.PrivmsgReaches env conf uid target text reader := by
    by_cases htags : tags = []
    · exact iff_of_false (fun hleak => hleak.1 htags) fun hboth => hsilent (.inl htags) hboth.1
    · cases hu : chat.server.users.lookup uid with
      | none =>
        refine iff_of_false ?_ fun hboth => hsilent (.inr hu) hboth.1
        rintro ⟨-, user, hsome, -⟩
        rw [hu] at hsome
        cases hsome
      | some user =>
        by_cases hchan : target.head? = some '#'
        · exact Chat.tagLeaks_channel hu htags hharm hchan
        · exact Chat.tagLeaks_user hu htags hharm hchan
  tauto

/-! ## Two members without status -/

def plainMember (nick uuid : Str) : User where
  uuid := uuid
  nick := nick
  ident := nick
  host := "host"
  signon := 1
  nickTs := 1
  ip := "127.0.0.1"
  registered := true
  channels := ["#c"]

def gatedChat (mode : ChanFlag) : Chat where
  server :=
    { conf := { name := "a.test", sid := "1AA" }
      clock := 100
      users := AList.insert 2 (plainMember "bob" "1AAAAAAAB")
        (AList.insert 1 (plainMember "ann" "1AAAAAAAA") ∅)
      nickIndex := AList.insert "bob".toList 2 (AList.insert "ann".toList 1 ∅)
      channels := AList.insert "#c".toList
        { name := "#c"
          members := AList.insert 2 {} (AList.insert 1 {} ∅)
          modes := ({} : ChanModes).setFlag mode true
          created := 1 } ∅ }
  manners := AList.insert 2 { messageTags := true } ∅

theorem harmless_gatedChat (mode : ChanFlag) (hmode : mode = .regModerated ∨ mode = .opmoderated) :
    (gatedChat mode).Harmless .plain {} 1 "#c" "hi" := by
  refine ⟨by decide, ⟨"hi", ?_, ?_⟩, by decide⟩ <;>
    rcases hmode with rfl | rfl <;> decide

theorem tagmsgReaches_privmsg_iff_gatedChat :
    (gatedChat .regModerated).Harmless .plain {} 1 "#c" "hi" ∧
      ((¬(gatedChat .regModerated).PrivmsgReaches .plain {} 1 "#c" "hi" 2 →
          ¬(gatedChat .regModerated).TagmsgReaches .plain 1 "+typing=active" "#c" 2) ↔
        ¬(gatedChat .regModerated).TagLeaks .plain 1 "+typing=active" "#c" "hi" 2) :=
  have hharm := harmless_gatedChat .regModerated (.inl rfl)
  ⟨hharm, tagmsgReaches_privmsg_iff _ _ _ _ _ _ _ _ hharm⟩

def LetsTagsThrough (mode : ChanFlag) : Prop :=
  (gatedChat mode).Harmless .plain {} 1 "#c" "hi" ∧
    ¬(gatedChat mode).PrivmsgReaches .plain {} 1 "#c" "hi" 2 ∧
    (gatedChat mode).TagmsgReaches .plain 1 "+typing=active" "#c" 2

theorem letsTagsThrough (mode : ChanFlag) (hmode : mode = .regModerated ∨ mode = .opmoderated) :
    LetsTagsThrough mode := by
  refine ⟨harmless_gatedChat mode hmode, ?_, ?_⟩
  · rintro ⟨copy, mask, kind, addressed, body, hsh⟩
    have hno : ∀ entry ∈ ((gatedChat mode).hush.deliver .plain {} 1 .privmsg
        ["#c", "hi"]).shown, entry.1 ≠ 2 := by
      rcases hmode with rfl | rfl <;> decide
    exact hno _ hsh rfl
  · refine ⟨.channel, "ann!ann@host", "#c", ?_⟩
    rcases hmode with rfl | rfl <;> decide

/-- Below voice and without an account, ann's tags still reach bob in a `+M` or `+U` channel. -/
theorem tags_slipped : LetsTagsThrough .regModerated ∧ LetsTagsThrough .opmoderated :=
  ⟨letsTagsThrough .regModerated (.inl rfl), letsTagsThrough .opmoderated (.inr rfl)⟩

end EchoIrcd
