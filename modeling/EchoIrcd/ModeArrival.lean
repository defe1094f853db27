import EchoIrcd.ModeMirror

/-!
# What arrives of a mode command

A whole MODE command of a client, and the server that reads its `FMODE`.  It
stores what the client's server stores if every change can be carried: a status
letter of the configuration is not, a `z` or `E` that its own members do not
allow is refused, and a parameter of two words is cut.
-/

namespace EchoIrcd

open Str Server ModeChange Table Option List

variable {letter other : Char} {key text : Str} {entries : List (Bool × Char)} {rank : Nat}
  {rate : Rate}

/-! ## Shown parameters -/

theorem isToken_ofNat (number : Nat) : IsToken (Str.ofNat number) := by
  have hdigit : ∀ {char : Char}, char.isDigit = false → char ∉ Str.ofNat number := by
    intro char hchar hmem
    rw [ofNat_isDigit hmem] at hchar
    cases hchar
  exact ⟨ofNat_ne_nil _, hdigit (by decide),
    fun hhead => hdigit (by decide) (mem_of_mem_head? hhead)⟩

theorem IsToken.append {word rest : Str} (hword : IsToken word) (hrest : ' ' ∉ rest) :
    IsToken (word ++ rest) := by
  obtain ⟨hne, hbl, hcol⟩ := hword
  refine ⟨by simp [hne], by simp [hbl, hrest], ?_⟩
  rw [head?_append_of_ne_nil _ hne]
  exact hcol

theorem isToken_renderRate (rate : Rate) : IsToken (renderRate rate) := by
  refine (isToken_ofNat _).append ?_
  have hsecs := (isToken_ofNat rate.secs.toNat).2.1
  simpa [renderU64] using hsecs

theorem blank_not_mem_shortDuration (secs : UInt64) : ' ' ∉ shortDuration secs := by
  unfold shortDuration
  split
  · decide
  · split
    · rename_i size unit hf
      have hunit := mem_of_find?_eq_some hf
      have hbl : ' ' ≠ unit := by
        rintro rfl
        simp at hunit
      simpa [hbl, renderU64] using (isToken_ofNat _).2.1
    · exact (isToken_ofNat _).2.1

theorem isToken_of_parseRate (hrate : parseRate text = some rate) : IsToken text := by
  simp only [parseRate, bind_eq_bind, bind_eq_some_iff] at hrate
  obtain ⟨⟨count, secs⟩, hspl, number, hcnt, time, hsecs, -⟩ := hrate
  obtain ⟨below, hbelow, -⟩ := map_eq_some_iff.mp hcnt
  obtain ⟨below', hbelow', -⟩ := map_eq_some_iff.mp hsecs
  rw [(splitOnce_eq_some hspl).2]
  refine IsToken.append ⟨?_, not_mem_of_toNatBelow hbelow (by decide) (by decide), ?_⟩ ?_
  · rintro rfl
    simp [toNatBelow] at hbelow
  · intro hhead
    exact not_mem_of_toNatBelow hbelow (by decide) (by decide) (mem_of_mem_head? hhead)
  · have hbl : ' ' ∉ secs := not_mem_of_toNatBelow hbelow' (by decide) (by decide)
    simpa using hbl

theorem isToken_of_flood
    (hrate : parseRate (if text.head? = some '*' then text.tail else text) = some rate) :
    IsToken text := by
  have hprs := isToken_of_parseRate hrate
  split at hprs
  · rename_i hstar
    obtain ⟨first, rest, rfl⟩ := exists_cons_of_ne_nil (l := text) (by rintro rfl; cases hstar)
    cases hstar
    have hstars : IsToken ['*'] := by decide
    exact hstars.append hprs.2.1
  · exact hprs

theorem isToken_of_applyParam {α : Type} {adding : Bool} {parsed : Option α}
    {store : Option α → ChanModes → ChanModes} {render : α → Str} {change : Channel → Channel}
    {echo : Option Str} (hset : applyParam adding parsed store render = some (change, echo))
    (htok : ∀ value, parsed = some value → IsToken (render value)) :
    ∀ shown ∈ echo, IsToken shown := by
  intro shown hsh
  obtain ⟨value, -, rfl, -, hprs⟩ := applyParam_cases hset
  obtain ⟨found, hf, rfl⟩ := map_eq_some_iff.mp hsh
  exact htok found (hprs found hf)

namespace Server

variable {server : Server} {chan key : Str} {mode : ChanMode} {adding : Bool}
  {param echo : Option Str} {change : Channel → Channel}

/-- All shown parameters but those of a list and of `L` are single words. -/
theorem isToken_of_applyChanMode (hst : ∀ letter rank, mode ≠ .status letter rank)
    (hlist : ∀ kind, mode ≠ .list kind) (hredir : mode ≠ .redirect)
    (happ : server.applyChanMode chan key mode adding param = some (change, echo)) :
    ∀ shown ∈ echo, IsToken shown := by
  simp only [applyChanMode] at happ
  cases mode with
  | status letter rank => exact absurd rfl (hst letter rank)
  | list kind => exact absurd rfl (hlist kind)
  | redirect => exact absurd rfl hredir
  | flag flag =>
    obtain ⟨-, rfl⟩ := setMode_eq_some happ
    simp
  | secureOnly | encrypted =>
    simp only at happ
    split at happ
    · cases happ
    · obtain ⟨-, rfl⟩ := setMode_eq_some happ
      simp
  | key =>
    obtain ⟨word, -, hword, -, -, rfl⟩ | ⟨-, -, rfl⟩ :=
      @applyKey_cases _ _ server chan key _ _ happ
    · rintro _ ⟨⟩
      exact ⟨hword.1, hword.2.1, fun hhead => hword.2.2.2 (mem_of_mem_head? hhead)⟩
    · decide
  | joinFlood | nickFlood | slowMode =>
    exact isToken_of_applyParam happ fun rate _ => isToken_renderRate rate
  | limit | anticaps | kickNoRejoin | delayMsg | repeatLines =>
    exact isToken_of_applyParam happ fun _ _ => isToken_ofNat _
  | chanHistory =>
    refine isToken_of_applyParam happ fun value _ => (isToken_ofNat _).append ?_
    simpa using blank_not_mem_shortDuration value.2
  | msgFlood =>
    refine isToken_of_applyParam happ fun value hval => ?_
    obtain ⟨text, -, hval⟩ := bind_eq_some_iff.mp hval
    obtain ⟨rate, hrate, rfl⟩ := map_eq_some_iff.mp hval
    exact isToken_of_flood (by simpa using hrate)

end Server

/-! ## Mode letters -/

theorem chanMode_ne_blank {config : PrefixConfig} {mode : ChanMode}
    (hmode : chanMode config letter = some mode) : letter ≠ ' ' := by
  rintro rfl
  obtain ⟨custom, hcustom, -⟩ := map_eq_some_iff.mp hmode
  have hlet : custom.letter = ' ' := by simpa using find?_some hcustom
  have hsol := config.customDefs_solid custom (mem_of_find?_eq_some hcustom)
  rw [hlet] at hsol
  cases hsol

theorem blank_not_mem_emit (hents : ∀ entry ∈ entries, entry.2 ≠ ' ')
    (last : Option Bool) : ' ' ∉ emit last entries := by
  intro hmem
  rcases mem_emit hmem with hsign | hsign | ⟨entry, hent, hbl⟩
  · cases hsign
  · cases hsign
  · exact hents entry hent hbl

theorem isToken_emit (hne : entries ≠ [])
    (hents : ∀ entry ∈ entries, entry.2 ≠ ' ') : IsToken (emit none entries) := by
  obtain ⟨⟨adding, letter⟩, rest, rfl⟩ := exists_cons_of_ne_nil hne
  refine ⟨by simp [emit], blank_not_mem_emit hents none, ?_⟩
  cases adding <;> simp [emit]

/-! ## A command on both servers -/

/-- Both servers have the channel, and the far one holds its modes and the status of the members
on the near one. -/
def Mirrored (near : Server) (key : Str) (nearNow farNow : Server) : Prop :=
  ∃ here there, nearNow.channels.lookup key = some here ∧
    farNow.channels.lookup key = some there ∧ Mirrors near here there

section Command

variable {rules : ModeRules} {peer port uid : Uid} {chan modes : Str} {args words : List Str}
  {near far : Server} {here there : Channel} {user : User}

theorem Mirrored.of_linked (hlk : Linked peer port chan near far here there)
    (hmir : Mirrors near here there) : Mirrored near (toAsciiLower chan) near far :=
  ⟨here, there, hlk.here_eq, hlk.there_eq, hmir⟩

variable {loop : UserModeLoop} {after : Server}
  (hlk : Linked peer port chan near far here there) (hse : Seated near far here)
  (hu : near.users.lookup uid = some user)
  (hloop : near.userModeLoop rules uid chan modes args = loop)
  (happl : near.applyMode rules uid (chan :: modes :: args) = after)

include hlk hse hu hloop happl

theorem Linked.hear_applyMode (hrecv : ∀ source letters ts, IsToken source → IsToken letters →
      (Out.fmode source chan ts letters
        (near.chanModeArgs (loop.changes.map entry) (echoes loop.changes))).receive =
          some (fmodeMessage source chan ts letters words)) (env : Env) :
    after = near ∨ ∃ source relay, after.channels = loop.server.channels ∧
      far.hear env port (newLines peer near after) =
        ((loop.changes.map entry).foldl (linkModeStep source chan (toAsciiLower chan))
          (far.touchLink port, words)).1.propagate relay (some port) := by
  subst happl
  rcases applyMode_cases hlk.name.1 hlk.here_eq hlk.alive hu rules modes args
    with hs | ⟨hin, hchgs, happl⟩
  · exact .inl hs
  obtain ⟨_, hf, hreg, -⟩ := hse.user uid hin
  cases hf.symm.trans hu
  obtain ⟨htok, hbeh⟩ := hlk.known uid user hu hreg
  have hr := reached_userModeLoop rules near uid chan modes args
  obtain ⟨edit, hseats, hlook⟩ := userModeLoop_keepsSeats rules near uid chan modes args
  rw [hlk.here_eq, Option.map_some] at hlook
  obtain ⟨channels, hsrv⟩ := hr.server_eq
  rw [hloop] at *
  have hlets : IsToken (emit none (loop.changes.map entry)) := by
    refine isToken_emit (by simpa using hchgs) ?_
    simp only [List.forall_mem_map]
    intro change hchg
    obtain ⟨mode, hmode, -⟩ := (hr.sound change hchg).handler
    exact chanMode_ne_blank hmode
  have hents : signedLetters true (emit none (loop.changes.map entry)) =
      loop.changes.map entry := by
    apply signedLetters_emit _ (by simp)
    simp only [List.forall_mem_map]
    exact fun change hchg => (hr.sound change hchg).plain
  have hnew : newLines peer near (near.applyMode rules uid (chan :: modes :: args)) =
      [.fmode user.uuid chan here.created (emit none (loop.changes.map entry))
        (near.chanModeArgs (loop.changes.map entry)
          (echoes loop.changes))] := by
    have hsent : loop.server.sent = near.sent := by rw [hsrv]
    have hpeer : loop.server.isRegistered peer = true := by
      rw [hsrv]
      exact hlk.peer_up
    have hargs := @chanModeArgs_channels near (loop.changes.map entry) channels
      (echoes loop.changes)
    rw [← hsrv] at hargs
    rw [happl]
    simp only [propagateChanMode, hlook, hseats.created, hents, hargs]
    exact newLines_propagate hsent hpeer _
  have hts : ¬ there.created < here.created := by
    rw [hlk.created]
    exact UInt64.lt_irrefl _
  obtain ⟨relay, hread⟩ := onLine_fmode_read (hrecv _ _ here.created htok hlets)
    hlk.port_up hbeh hlk.name.1 hlk.there_eq hts env
  refine .inr ⟨user.uuid, relay, by rw [happl]; rfl, ?_⟩
  rw [hnew]
  simp only [hear, List.foldl_cons, List.foldl_nil]
  rw [hread, hents]

theorem Linked.mirrored (hmir : Mirrors near here there)
    (hleg : legible near.conf.prefixes loop.changes = true)
    (hcar : ∀ change ∈ loop.changes, change.Carried near far (toAsciiLower chan)) (env : Env) :
    Mirrored near (toAsciiLower chan) after (far.hear env port (newLines peer near after)) := by
  have hr := reached_userModeLoop rules near uid chan modes args
  have hmade := near.made_userModeLoop rules uid chan modes args
  rw [hloop] at hr hmade
  have hargs := chanModeArgs_of_legible hr.sound hleg
  have htoks : ∀ param ∈ relayed near loop.changes, IsToken param := by
    intro param hprm
    obtain ⟨change, hchg, hrelay⟩ := mem_filterMap.mp hprm
    exact (hcar change hchg).token param hrelay
  rcases hlk.hear_applyMode hse hu hloop happl (fun source letters ts hsrc hlets => by
    rw [hargs]
    exact receive_fmode hsrc hlk.name hlets ts htoks) env with
    hs | ⟨source, relay, hnear, hfar⟩
  · rw [hs, newLines_self]
    exact .of_linked hlk hmir
  · have hsta : Tracked near (far.touchLink port) (toAsciiLower chan) here there near
        (far.touchLink port) :=
      ⟨⟨_, rfl⟩, ⟨_, rfl⟩, here, there, hlk.here_eq, hlk.there_eq, hmir, rfl,
        fun _ => .rfl⟩
    have hse' : Seated near (far.touchLink port) here := ⟨hse.user, hse.inj⟩
    have hcar' : ∀ change ∈ loop.changes,
        change.Carried near (far.touchLink port) (toAsciiLower chan) := fun change hchg =>
      ⟨(hcar change hchg).builtin, (hcar change hchg).secure,
        (hcar change hchg).encrypted, (hcar change hchg).token⟩
    obtain ⟨farNext, hread, hnext⟩ := hsta.steps source hse' hlk.there_eq hmade hcar' []
    obtain ⟨hereNow, thereNow, hhere, hth, hnow, -⟩ := hnext.now
    refine ⟨hereNow, thereNow, ?_, ?_, hnow⟩
    · rw [hnear]
      exact hhere
    · rw [append_nil] at hread
      rw [hfar, hread]
      exact hth

omit hlk hse hu hloop happl

/-! ## Changes that do not arrive -/

theorem Mirrors.of_unmoved {hereNow thereNow : Channel} (hmir : Mirrors near hereNow thereNow)
    (hmds : thereNow.modes = there.modes) (hrm : thereNow.rmembers = there.rmembers) :
    Mirrors near hereNow there := by
  refine ⟨by rw [← hmds, hmir.modes], ?_⟩
  rw [← hrm]
  exact hmir.status

theorem mem_of_builtin_status
    (hmode : chanMode {} letter = some (.status other rank)) : letter ∈ ("yqaohv" : Str) := by
  unfold chanMode at hmode
  split at hmode
  case h_26 =>
    split at hmode
    · cases hmode
    · obtain ⟨custom, hcustom, -⟩ := map_eq_some_iff.mp hmode
      cases hcustom
  all_goals first
    | cases hmode; done
    | simp

theorem ofLetter_of_chanMode_none (hmode : chanMode {} letter = none) :
    ChanFlag.ofLetter letter = none := by
  unfold chanMode at hmode
  split at hmode
  case h_26 =>
    cases hflag : ChanFlag.ofLetter letter with
    | none => rfl
    | some flag =>
      rw [hflag] at hmode
      cases hmode
  all_goals cases hmode

theorem linkModeStep_custom {source key : Str} {config : PrefixConfig} {letter other : Char}
    {rank : Nat} (hmode : chanMode config letter = some (.status other rank))
    (hlet : letter ∉ ("yqaohv" : Str)) (adding : Bool) (words : List Str)
    (hth : far.channels.lookup key = some there) :
    ∃ next, (linkModeStep source chan key (far, words) (adding, letter)).1.channels.lookup
        key = some next ∧ next.modes = there.modes ∧ next.rmembers = there.rmembers := by
  have hnone : chanMode {} letter = none := by
    rw [chanMode_eq] at hmode
    cases hf : chanMode {} letter with
    | none => rfl
    | some found =>
      rw [hf] at hmode
      cases hmode
      exact absurd (mem_of_builtin_status hf) hlet
  cases hfar : chanMode far.conf.prefixes letter with
  | none =>
    have hk : letter ≠ 'k' := by
      rintro rfl
      cases hnone
    have hl : letter ≠ 'l' := by
      rintro rfl
      cases hnone
    have hmask : maskKind letter = none := by
      unfold maskKind
      split
      · cases hnone
      · cases hnone
      · cases hnone
      · rfl
    refine ⟨there.withModes (ChanModes.setByLetter letter adding), ?_, ?_, rfl⟩
    · simp only [linkModeStep, if_neg hlet, if_neg hk, if_neg hl, hmask, hfar]
      simp [hth]
    · simp [Channel.withModes, ChanModes.setByLetter, ofLetter_of_chanMode_none hnone]
  | some mode =>
    have hst : ∃ rank, mode = .status letter rank := by
      rw [chanMode_eq, hnone, none_or] at hfar
      obtain ⟨custom, -, rfl⟩ := map_eq_some_iff.mp hfar
      exact ⟨_, rfl⟩
    obtain ⟨rank, rfl⟩ := hst
    rw [linkModeStep_handler hfar hlet (by simp) (by simp) (by simp)]
    cases happl : far.applyChanMode chan key (.status letter rank) adding
        (if (ChanMode.status letter rank).wantsParam adding then words.head? else none) with
    | none => exact ⟨there, hth, rfl, rfl⟩
    | some applied =>
      obtain ⟨edit, said⟩ := applied
      cases applyChanMode_edit happl with
      | status _ _ target set =>
        exact ⟨{ there with members := modify target set there.members },
          by simp [carryOut, hth], rfl, rfl⟩
      | modes hst _ _ => exact absurd rfl (hst letter rank)

theorem linkModeStep_refused {source : Str} {mode : ChanMode}
    (hmode : chanMode far.conf.prefixes letter = some mode)
    (hrefuses : (mode = .secureOnly ∧ far.membersAll key User.secure = false) ∨
      (mode = .encrypted ∧ far.membersAll key User.e2e = false)) (words : List Str) :
    (linkModeStep source chan key (far, words) (true, letter)).1 = far := by
  have hlet : letter ∉ ("yqaohv" : Str) := by
    refine not_status_letter hmode ?_
    rintro _ _ rfl
    simp at hrefuses
  rcases hrefuses with ⟨rfl, hmems⟩ | ⟨rfl, hmems⟩
  all_goals
    rw [linkModeStep_handler hmode hlet (by simp) (by simp) (by simp)]
    simp [applyChanMode, hmems, carryOut]

theorem linkModeStep_redirect_cut {source key text : Str} (hhash : text.head? = some '#')
    (hbl : ' ' ∈ text) (hth : far.channels.lookup key = some there) :
    ∃ next, (linkModeStep source chan key (far, parseParams (trimStart text))
        (true, 'L')).1.channels.lookup key = some next ∧
      (next = there ∨ next.modes.redirect ≠ some text) := by
  obtain ⟨word, rest, rfl, hword⟩ := eq_append_cons_of_mem hbl
  obtain ⟨word, rfl⟩ : ∃ tail, word = '#' :: tail := by
    cases word with
    | nil => cases hhash
    | cons first tail =>
      cases hhash
      exact ⟨tail, rfl⟩
  have htok : IsToken ('#' :: word) := ⟨by simp, hword, by simp⟩
  rw [trimStart_of_head (htok.head_ne_blank _), parseParams_token_cons htok]
  rw [@linkModeStep_handler source chan key far 'L' true .redirect rfl (by decide) (by simp)
    (by simp) (by simp)]
  simp only [ChanMode.wantsParam, if_true, head?_cons, applyChanMode]
  cases hfil : (some ('#' :: word)).filter fun target =>
      target.head? = some '#' ∧ !eqIgnoreAsciiCase target chan with
  | none => exact ⟨there, hth, .inl rfl⟩
  | some target =>
    have htgt : '#' :: word = target := by
      simpa using (filter_eq_some_iff.mp hfil).1
    refine ⟨there.withModes fun modes => { modes with redirect := some target },
      by simp [applyParam, setMode, carryOut, hth], .inr ?_⟩
    rw [← htgt]
    simp [Channel.withModes]

theorem chanModeArgs_one (server : Server) (entry : Bool × Char) (param : Str) :
    ∃ sent, server.chanModeArgs [entry] [param] = [sent] ∧
      (entry.2 ∉ ("yqaohv" : Str) → sent = param) := by
  cases hwk : walksParam entry with
  | false =>
    rw [chanModeArgs_skip hwk]
    exact ⟨param, rfl, fun _ => rfl⟩
  | true =>
    rw [chanModeArgs_walk hwk, chanModeArgs_nil]
    exact ⟨_, rfl, fun hlet => if_neg hlet⟩

theorem receive_one (near : Server) (change : ModeChange) (hname : IsChanName chan) :
    ∃ words, (∀ source letters ts, IsToken source → IsToken letters →
        (Out.fmode source chan ts letters (near.chanModeArgs [change.entry]
          (echoes [change]))).receive =
            some (fmodeMessage source chan ts letters words)) ∧
      (change.letter ∉ ("yqaohv" : Str) → ∀ shown ∈ change.echo,
        words = parseParams (trimStart shown)) := by
  rw [echoes_cons]
  cases hecho : change.echo with
  | none =>
    refine ⟨[], fun source letters ts hsrc hlets => ?_, by simp⟩
    exact receive_fmode hsrc hname hlets ts (by simp [echoes])
  | some shown =>
    obtain ⟨sent, hargs, hsent⟩ := chanModeArgs_one near change.entry shown
    refine ⟨parseParams (trimStart sent), fun source letters ts hsrc hlets => ?_, ?_⟩
    · change (Out.fmode source chan ts letters (near.chanModeArgs [change.entry] [shown])).receive =
        _
      rw [hargs]
      exact receive_fmode_last hsrc hname hlets ts sent
    · rintro hlet _ ⟨⟩
      rw [hsent hlet]

section Moved

variable {source key : Str} {letter : Char} {mode : ChanMode} {adding : Bool}
  {param echo : Option Str} {edit : Channel → Channel} {thereNow : Channel}

theorem carried_status (hse : Seated near far here)
    (htok : ∀ uid user, near.users.lookup uid = some user → user.registered = true →
      IsToken user.uuid) (hhere : near.channels.lookup key = some here)
    (hmode : chanMode near.conf.prefixes letter = some (.status other rank))
    (hlet : letter ∈ ("yqaohv" : Str))
    (happ : near.userChanMode rules uid chan key (.status other rank) adding param =
      some (edit, echo)) : Carried near far key ⟨adding, letter, echo⟩ := by
  obtain ⟨nick, target, hf, rfl, ⟨channel, hchan, hin⟩, -⟩ := statusBy_cases happ
  cases hhere.symm.trans hchan
  obtain ⟨member, hmb, hreg, -⟩ := hse.user target hin
  have hst : isStatus near.conf.prefixes ⟨adding, letter, some nick⟩ = true :=
    isStatus_iff.mpr ⟨other, rank, hmode⟩
  refine ⟨fun _ => hlet, ?_, ?_, ?_⟩
  · rintro - rfl
    exact absurd hlet (by decide)
  · rintro - rfl
    exact absurd hlet (by decide)
  · simp only [relay, map_some, hst, if_true,
      Tracked.nickToUuid hf hmb]
    rintro _ ⟨⟩
    exact htok target member hmb hreg

theorem token_of_moved (hth : far.channels.lookup key = some there)
    (hmode : chanMode near.conf.prefixes letter = some mode)
    (hst : ∀ letter rank, mode ≠ .status letter rank) (hlist : ∀ kind, mode ≠ .list kind)
    (happ : near.applyChanMode chan key mode adding param = some (edit, echo))
    (hwds : ∀ shown ∈ echo, words = parseParams (trimStart shown))
    (hnext : (linkModeStep source chan key (far, words) (adding, letter)).1.channels.lookup
      key = some thereNow)
    (hnow : Mirrors near (edit here) thereNow) (hnews : ¬ Mirrors near (edit here) there) :
    ∀ shown ∈ echo, IsToken shown := by
  by_cases hredir : mode = .redirect
  · obtain ⟨-, -, -, -, hL⟩ := letter_of_chanMode hmode
    cases hL hredir
    rw [hredir] at happ
    simp only [applyChanMode] at happ
    obtain ⟨value, rfl, rfl, rfl, hprs⟩ := applyParam_cases happ
    intro shown hsh
    rw [Option.map_id_fun, id_eq] at hsh hwds
    cases hsh
    have hhash : shown.head? = some '#' :=
      (of_decide_eq_true (filter_eq_some_iff.mp (hprs shown rfl)).2).1
    by_contra htok
    have hbl : ' ' ∈ shown := by
      by_contra hbl
      refine htok ⟨?_, hbl, by simp [hhash]⟩
      rintro rfl
      cases hhash
    rw [hwds shown rfl] at hnext
    obtain ⟨next, hlook, hcut⟩ :=
      @linkModeStep_redirect_cut chan far there source key shown hhash hbl hth
    cases hnext.symm.trans hlook
    rcases hcut with rfl | hcut
    · exact hnews hnow
    · rw [hnow.modes] at hcut
      exact hcut rfl
  · exact isToken_of_applyChanMode hst hlist hredir happ

theorem carried_of_moved {change : ModeChange} (hse : Seated near far here)
    (hmir : Mirrors near here there)
    (htok : ∀ uid user, near.users.lookup uid = some user → user.registered = true →
      IsToken user.uuid)
    (hhere : near.channels.lookup key = some here) (hth : far.channels.lookup key = some there)
    (hmode : chanMode near.conf.prefixes change.letter = some mode)
    (happ : near.userChanMode rules uid chan key mode change.adding param =
      some (edit, change.echo))
    (hwds : change.letter ∉ ("yqaohv" : Str) → ∀ shown ∈ change.echo,
      words = parseParams (trimStart shown))
    (hnext : (linkModeStep source chan key (far, words) change.entry).1.channels.lookup key =
      some thereNow)
    (hnow : Mirrors near (edit here) thereNow) (hnews : ¬ Mirrors near (edit here) there) :
    change.Carried near far key := by
  obtain ⟨adding, letter, echo⟩ := change
  simp only [entry] at hmode happ hwds hnext
  by_cases hst : ∃ other rank, mode = .status other rank
  · obtain ⟨other, rank, rfl⟩ := hst
    by_cases hlet : letter ∈ ("yqaohv" : Str)
    · exact carried_status hse htok hhere hmode hlet happ
    · obtain ⟨next, hlook, hmds, hrm⟩ :=
        @linkModeStep_custom chan far there source key _ _ _ _ hmode hlet adding words hth
      cases hnext.symm.trans hlook
      exact absurd (hnow.of_unmoved hmds hrm) hnews
  · simp only [not_exists] at hst
    by_cases hlist : ∃ kind, mode = .list kind
    · obtain ⟨kind, rfl⟩ := hlist
      obtain ⟨mask, channel, -, -, -, ⟨-, -, setter, rfl⟩ | ⟨-, rfl⟩⟩ := listBy_cases happ
      · exact absurd ⟨hmir.modes, hmir.status⟩ hnews
      · exact absurd ⟨hmir.modes, hmir.status⟩ hnews
    · simp only [not_exists] at hlist
      have hfarMode : chanMode far.conf.prefixes letter = some mode :=
        chanMode_congr hmode (hst letter) _
      have hlet := not_status_letter hmode hst
      have hrelay := @Tracked.relay_of_modes near letter mode adding echo hmode hst
      -- a server that refuses the letter has not moved
      have hmoves : adding = true → ¬ ((mode = .secureOnly ∧ far.membersAll key User.secure = false) ∨
          (mode = .encrypted ∧ far.membersAll key User.e2e = false)) := by
        rintro rfl hrefuses
        rw [linkModeStep_refused hfarMode hrefuses] at hnext
        cases hnext.symm.trans hth
        exact hnews hnow
      refine ⟨?_, ?_, ?_, ?_⟩
      · intro hisStatus
        obtain ⟨other, rank, hf⟩ := isStatus_iff.mp hisStatus
        cases hf.symm.trans hmode
        exact absurd rfl (hst other rank)
      · rintro hadd rfl
        cases hmode
        simpa using hmoves hadd
      · rintro hadd rfl
        cases hmode
        simpa using hmoves hadd
      · rw [hrelay]
        exact token_of_moved hth hmode hst hlist
          (applyChanMode_of_userChanMode hst hlist happ) (hwds hlet) hnext hnow
          hnews

end Moved

include hlk hse hu hloop happl in
theorem Linked.carried (hmir : Mirrors near here there) {change : ModeChange}
    (hone : loop.changes = [change]) (env : Env)
    (hnews : ¬ Mirrored near (toAsciiLower chan) after far)
    (harrived : Mirrored near (toAsciiLower chan) after
      (far.hear env port (newLines peer near after))) :
    change.Carried near far (toAsciiLower chan) := by
  obtain ⟨words, hrecv, hwds⟩ := receive_one near change hlk.name
  have hmade := near.made_userModeLoop rules uid chan modes args
  rw [hloop, hone] at hmade
  generalize hsrv : loop.server = edited at hmade
  obtain - | @⟨_, _, mode, param, edit, _, _, hmode, happ, hlat⟩ := hmade
  cases hlat
  rcases hlk.hear_applyMode hse hu hloop happl (by rw [hone]; exact hrecv) env with
    hs | ⟨source, relay, hnear, hfar⟩
  · rw [hs] at hnews
    exact absurd (.of_linked hlk hmir) hnews
  have hhere : after.channels.lookup (toAsciiLower chan) = some (edit here) := by
    rw [hnear, hsrv]
    simp [hlk.here_eq]
  obtain ⟨_, thereNow, hf, hth, hnow⟩ := harrived
  cases hf.symm.trans hhere
  rw [hfar, hone] at hth
  have hcar := @carried_of_moved rules uid chan words near (far.touchLink port) here there
    source (toAsciiLower chan) mode param edit thereNow change ⟨hse.user, hse.inj⟩ hmir
    (fun uid user hf hreg => (hlk.known uid user hf hreg).1)
    hlk.here_eq hlk.there_eq hmode happ hwds hth hnow
    (fun hs => hnews ⟨_, there, hhere, hlk.there_eq, hs⟩)
  exact ⟨hcar.builtin, hcar.secure, hcar.encrypted, hcar.token⟩

theorem ModeChange.Carried.legible {change : ModeChange} (hcar : change.Carried near far key) :
    ModeChange.legible near.conf.prefixes [change] = true := by
  rw [ModeChange.legible]
  split
  · rename_i hoverlooked
    simp only [all_cons, all_nil, Bool.and_true, Bool.not_eq_true', Bool.eq_false_iff]
    intro hst
    have hwk : walksParam change.entry = true := walksParam_iff.mpr (.inl (hcar.builtin hst))
    simp [ModeChange.overlooked, hwk] at hoverlooked
  · rfl

/-- What the far server stores of a mode command: all of it if every change can be carried and the
line has the parameters in their places; of a single change that is news to it, only then. -/
theorem applyMode_mirrored (rules : ModeRules) (env : Env) (modes : Str) (args : List Str)
    (hlk : Linked peer port chan near far here there) (hse : Seated near far here)
    (hmir : Mirrors near here there) (hu : near.users.lookup uid = some user) :
    let changes := (near.userModeLoop rules uid chan modes args).changes
    let after := near.applyMode rules uid (chan :: modes :: args)
    let heard := far.hear env port (newLines peer near after)
    (legible near.conf.prefixes changes = true →
      (∀ change ∈ changes, change.Carried near far (toAsciiLower chan)) →
        Mirrored near (toAsciiLower chan) after heard) ∧
    ∀ change, changes = [change] → ¬ Mirrored near (toAsciiLower chan) after far →
      (Mirrored near (toAsciiLower chan) after heard ↔
        change.Carried near far (toAsciiLower chan)) := by
  refine ⟨fun hleg hcar =>
    hlk.mirrored hse hu rfl rfl hmir hleg hcar env, ?_⟩
  intro change hone hnews
  constructor
  · exact hlk.carried hse hu rfl rfl hmir hone env hnews
  · intro hcar
    have hall : ∀ made ∈ [change], made.Carried near far (toAsciiLower chan) := by
      simpa using hcar
    rw [← hone] at hall
    exact hlk.mirrored hse hu rfl rfl hmir (by rw [hone]; exact hcar.legible)
      hall env

end Command

/-! ## A guest without TLS -/

def tlsChannel : Channel where
  name := "#c"
  created := 3
  members := ofList [(1, { prefixes := fun held => held = .op }), (2, {})]
  rmembers := ofList [("0BBAAAAAA", {})]

def tlsServer : Server where
  conf := { name := "a.test", sid := "0AA" }
  clock := 7
  users := ofList
    [(1, { uuid := "0AAAAAAAA", nick := "alice", host := "h", ip := "1.1.1.1", signon := 1,
           nickTs := 1, registered := true, secure := true, channels := ["#c"] }),
     (2, { uuid := "0AAAAAAAB", nick := "bob", host := "h", ip := "1.1.1.1", signon := 1,
           nickTs := 1, registered := true, secure := true, channels := ["#c"] })]
  nickIndex := ofList [("alice", 1), ("bob", 2)]
  uuidLocal := ofList [("0AAAAAAAA", 1), ("0AAAAAAAB", 2)]
  remoteUsers := ofList
    [("0BBAAAAAA", { uuid := "0BBAAAAAA", nick := "carol", ident := "u", host := "h"
                     realname := "C", ip := "1.1.1.1", modes := "+", sid := "0BB"
                     via := 9, nickTs := 1 })]
  channels := ofList [("#c", tlsChannel)]
  links := ofList [(9, { outbound := true, registered := true, lastSeen := 7 })]

def guestChannel : Channel where
  name := "#c"
  created := 3
  members := ofList [(1, {})]
  rmembers := ofList
    [("0AAAAAAAA", { prefixes := fun held => held = .op }), ("0AAAAAAAB", {})]

def guestServer : Server where
  conf := { name := "b.test", sid := "0BB" }
  clock := 7
  users := ofList
    [(1, { uuid := "0BBAAAAAA", nick := "carol", host := "h", ip := "1.1.1.1", signon := 1,
           nickTs := 1, registered := true, channels := ["#c"] })]
  nickIndex := ofList [("carol", 1)]
  uuidLocal := ofList [("0BBAAAAAA", 1)]
  remoteUsers := ofList
    [("0AAAAAAAA", { uuid := "0AAAAAAAA", nick := "alice", ident := "u", host := "h"
                     realname := "A", ip := "1.1.1.1", modes := "+", sid := "0AA"
                     via := 5, nickTs := 1 }),
     ("0AAAAAAAB", { uuid := "0AAAAAAAB", nick := "bob", ident := "u", host := "h"
                     realname := "B", ip := "1.1.1.1", modes := "+", sid := "0AA"
                     via := 5, nickTs := 1 })]
  channels := ofList [("#c", guestChannel)]
  links := ofList [(5, { outbound := false, registered := true, lastSeen := 7 })]

theorem linked_guestServer : Linked 9 5 "#c" tlsServer guestServer tlsChannel guestChannel where
  name := ⟨rfl, by decide⟩
  here_eq := rfl
  there_eq := rfl
  alive := rfl
  created := rfl
  peer_up := rfl
  port_up := rfl
  known := forall_lookup_iff.mpr (by decide +kernel)

theorem mem_tlsChannel {uid : Uid} (hin : uid ∈ tlsChannel.members) : uid = 1 ∨ uid = 2 := by
  have hkeys : uid ∈ ([1, 2] : List Uid) := AList.mem_keys.mp hin
  simpa using hkeys

theorem seated_guestServer : Seated tlsServer guestServer tlsChannel where
  user := by
    intro uid hin
    rcases mem_tlsChannel hin with rfl | rfl <;> exact ⟨_, rfl, rfl, rfl, by decide⟩
  inj := by
    intro uid other user member hin ho hu hmb huuid
    rcases mem_tlsChannel hin with rfl | rfl <;> rcases mem_tlsChannel ho with rfl | rfl <;>
      cases hu <;> cases hmb <;> first | rfl | exact absurd huuid (by decide)

theorem mirrors_guestServer : Mirrors tlsServer tlsChannel guestChannel where
  modes := rfl
  status := forall_lookup_iff.mpr (by decide +kernel)

theorem applyMode_mirrored_op :
    (tlsServer.userModeLoop {} 1 "#c" "+ol" ["bob", "5"]).changes =
        [⟨true, 'o', some "bob"⟩, ⟨true, 'l', some "5"⟩] ∧
      Mirrored tlsServer "#c" (tlsServer.applyMode {} 1 ["#c", "+ol", "bob", "5"])
        (guestServer.hear .plain 5 (newLines 9 tlsServer
          (tlsServer.applyMode {} 1 ["#c", "+ol", "bob", "5"]))) := by
  have hchgs : (tlsServer.userModeLoop {} 1 "#c" "+ol" ["bob", "5"]).changes =
      [⟨true, 'o', some "bob"⟩, ⟨true, 'l', some "5"⟩] := by decide +kernel
  refine ⟨hchgs, (applyMode_mirrored {} .plain "+ol" ["bob", "5"] linked_guestServer
    seated_guestServer mirrors_guestServer rfl).1 ?_ ?_⟩
  · decide
  · rw [hchgs]
    simp only [forall_mem_cons, not_mem_nil, false_implies, implies_true, and_true]
    constructor
    · exact ⟨by decide, by decide, by decide, by decide⟩
    · exact ⟨by decide, by decide, by decide, by decide⟩

theorem applyMode_secure_refused :
    Linked 9 5 "#c" tlsServer guestServer tlsChannel guestChannel ∧
      Seated tlsServer guestServer tlsChannel ∧ Mirrors tlsServer tlsChannel guestChannel ∧
      let after := tlsServer.applyMode {} 1 ["#c", "+z"]
      let heard := guestServer.hear .plain 5 (newLines 9 tlsServer after)
      (after.channels.lookup ("#c" : Str)).map (fun channel => channel.modes.flags .secureOnly) =
          some true ∧
        (heard.channels.lookup ("#c" : Str)).map (fun channel => channel.modes.flags .secureOnly) =
          some false := by
  refine ⟨linked_guestServer, seated_guestServer, mirrors_guestServer, ?_, ?_⟩
  · decide +kernel
  · decide +kernel

end EchoIrcd
