import EchoIrcd.PermChannels

/-!
# Modes out of a rendered string

Applying a rendered mode string to a fresh channel.  The letters of the string
are those of the modes that are set, in one fixed order; each letter of a mode
with a parameter takes the next word behind them.
-/

namespace EchoIrcd

open Str ParamMode Server ChanModes List Option

variable {letter : Char} {mode : ParamMode} {word : Str} {α : Type} {change : Channel → Channel}
  {echoed : Option Str} {number : UInt32} {store : Option α → ChanModes → ChanModes}
  {parsed : Option α}

/-! ## The letters -/

theorem filterMap_if_eq_map_filter (set : α → Bool) (letter : α → Char) (items : List α) :
    (items.map fun item => (set item, letter item)).filterMap
      (fun entry => if entry.1 then some entry.2 else none) = (items.filter set).map letter := by
  induction items with
  | nil => rfl
  | cons item items ih => cases hset : set item <;> simp_all

namespace ParamMode

def isSet (modes : ChanModes) (mode : ParamMode) : Bool := (mode.value modes).isSome

def handler : ParamMode → ChanMode
  | key => .key
  | limit => .limit
  | flood => .msgFlood
  | joinflood => .joinFlood
  | nickflood => .nickFlood
  | slowmode => .slowMode
  | redirect => .redirect
  | history => .chanHistory
  | anticaps => .anticaps
  | kicknorejoin => .kickNoRejoin
  | delaymsg => .delayMsg
  | repeatLines => .repeatLines

theorem chanMode_letter (config : PrefixConfig) (mode : ParamMode) :
    chanMode config mode.letter = some mode.handler := by
  cases mode <;> rfl

theorem wantsParam_handler (mode : ParamMode) : mode.handler.wantsParam true = true := by
  cases mode <;> rfl

end ParamMode

def ChanFlag.handler : ChanFlag → ChanMode
  | .secureOnly => .secureOnly
  | .encrypted => .encrypted
  | flag => .flag flag

theorem chanMode_flag (config : PrefixConfig) (flag : ChanFlag) :
    chanMode config flag.letter = some flag.handler := by
  cases flag <;> rfl

theorem wantsParam_flag (flag : ChanFlag) : flag.handler.wantsParam true = false := by
  cases flag <;> rfl

namespace ChanModes

theorem paramLetters_eq (modes : ChanModes) :
    modes.paramLetters = (ParamMode.all.filter (ParamMode.isSet modes)).map ParamMode.letter := by
  rw [← filterMap_if_eq_map_filter]
  simp only [paramLetters, ParamMode.all, ParamMode.isSet, ParamMode.value, map_cons,
    map_nil, isSome_map, ParamMode.letter]

def letters (modes : ChanModes) : Str :=
  (ChanFlag.all.filter modes.flags).map ChanFlag.letter ++
    (ParamMode.all.filter (ParamMode.isSet modes)).map ParamMode.letter

theorem render_eq (modes : ChanModes) : modes.render = '+' :: modes.letters := by
  rw [render, paramLetters_eq, letters]

theorem mem_letters {modes : ChanModes} (hlet : letter ∈ modes.letters) :
    (∃ flag : ChanFlag, letter = flag.letter) ∨ ∃ mode : ParamMode, letter = mode.letter := by
  rcases mem_append.mp hlet with hflag | hprm
  · obtain ⟨flag, -, rfl⟩ := mem_map.mp hflag
    exact .inl ⟨flag, rfl⟩
  · obtain ⟨mode, -, rfl⟩ := mem_map.mp hprm
    exact .inr ⟨mode, rfl⟩

theorem letters_plain {modes : ChanModes} (hlet : letter ∈ modes.letters) :
    isWhitespace letter = false ∧ letter ≠ '+' ∧ letter ≠ '-' := by
  rcases mem_letters hlet with ⟨flag, rfl⟩ | ⟨mode, rfl⟩
  · cases flag <;> decide
  · cases mode <;> decide

end ChanModes

theorem signedLetters_plain {letters : Str}
    (hlets : ∀ letter ∈ letters, letter ≠ '+' ∧ letter ≠ '-') (adding : Bool) :
    signedLetters adding letters = letters.map fun letter => (adding, letter) := by
  induction letters with
  | nil => rfl
  | cons letter letters ih =>
    rw [forall_mem_cons] at hlets
    obtain ⟨hplus, hminus⟩ := hlets.1
    rw [map_cons, ← ih hlets.2]
    exact signedLetters.eq_4 adding letter letters hplus hminus

theorem signedLetters_render (modes : ChanModes) :
    signedLetters true modes.render = modes.letters.map fun letter => (true, letter) := by
  rw [render_eq, signedLetters, signedLetters_plain fun letter hlet => (letters_plain hlet).2]

/-! ## The words -/

def Solid (word : Str) : Prop := ∀ char ∈ word, isWhitespace char = false

instance (word : Str) : Decidable (Solid word) :=
  inferInstanceAs (Decidable (∀ char ∈ word, isWhitespace char = false))

theorem forall_mem_splitOnP {test : α → Bool} {items part : List α}
    (hpart : part ∈ items.splitOnP test) : ∀ item ∈ part, test item = false := by
  induction items generalizing part with
  | nil => simp_all
  | cons item items ih =>
    rw [splitOnP_cons_eq_if_modifyHead] at hpart
    split at hpart
    · rcases mem_cons.mp hpart with rfl | hpart
      · simp
      · exact ih hpart
    · rename_i htest
      cases hparts : items.splitOnP test with
      | nil => exact absurd hparts (splitOnP_ne_nil test items)
      | cons first rest =>
        rw [hparts, modifyHead_cons, mem_cons] at hpart
        rcases hpart with rfl | hpart
        · refine forall_mem_cons.mpr ⟨by simpa using htest, ih ?_⟩
          rw [hparts]
          exact mem_cons_self
        · refine ih ?_
          rw [hparts]
          exact mem_cons_of_mem _ hpart

theorem solid_of_mem_words {text : Str} (hword : word ∈ words text) : Solid word :=
  forall_mem_splitOnP (mem_filter.mp hword).1

theorem Solid.not_mem_cr (hword : Solid word) : word.getLast? ≠ some '\r' := by
  intro hlast
  have hcr := hword '\r' (mem_of_getLast? hlast)
  revert hcr
  decide

theorem solid_render (modes : ChanModes) : Solid modes.render := by
  rw [render_eq]
  intro char hchar
  rcases mem_cons.mp hchar with rfl | hchar
  · decide
  · exact (letters_plain hchar).1

theorem words_flatMap {values : List Str} (hne : word ≠ []) (hword : Solid word)
    (hvls : ∀ value ∈ values, value ≠ [] ∧ Solid value) :
    words (word ++ values.flatMap (' ' :: ·)) = word :: values := by
  induction values generalizing word with
  | nil => simpa using words_of_solid hne hword
  | cons value values ih =>
    rw [forall_mem_cons] at hvls
    rw [flatMap_cons, cons_append, words_cons hne hword, ih hvls.1.1 hvls.1.2 hvls.2]

/-! ## One letter -/

/-- A channel is stored under a key, and everything else is as before. -/
structure Holding (key : Str) (channel : Channel) (before after : Server) : Prop where
  self : after.channels.lookup key = some channel
  others {other : Str} (hne : other ≠ key) :
    after.channels.lookup other = before.channels.lookup other

section Letters

variable {name key : Str} {channel : Channel} {before after : Server} {args : List Str}

theorem Holding.changeChannel (hhold : Holding key channel before after)
    (change : Channel → Channel) :
    Holding key (change channel) before (after.changeChannel key change) := by
  constructor
  · simp [hhold.self]
  · intro other hne
    rw [changeChannel_channels, Table.lookup_modify_ne _ _ hne, hhold.others hne]

theorem membersAll_of_empty (hchan : after.channels.lookup key = some channel)
    (hemp : channel.members = ∅) (test : User → Bool) : after.membersAll key test = true := by
  simp only [membersAll, hchan, hemp]
  rfl

theorem Holding.flag (hhold : Holding key channel before after) (hemp : channel.members = ∅)
    (flag : ChanFlag) :
    Holding key (channel.withModes (setFlag flag true)) before
        (applyModesStep name key (after, args) (true, flag.letter)).1 ∧
      (applyModesStep name key (after, args) (true, flag.letter)).2 = args := by
  have hall := membersAll_of_empty hhold.self hemp
  have happ : after.applyChanMode name key flag.handler true none =
      setMode (setFlag flag true) none := by
    cases flag <;> simp [ChanFlag.handler, applyChanMode, hall]
  simp only [applyModesStep, chanMode_flag, wantsParam_flag, Bool.false_eq_true, if_false,
    happ, setMode]
  exact ⟨hhold.changeChannel _, trivial⟩

end Letters

/-! ## Parameters -/

/-- The parameters are as the handlers store them. -/
structure ChanModes.Sound (modes : ChanModes) : Prop where
  key : ∀ word ∈ modes.key, word ≠ [] ∧ ' ' ∉ word ∧ ',' ∉ word ∧ ':' ∉ word
  limit : ∀ number ∈ modes.limit, 0 < number
  flood : ∀ flood ∈ modes.flood, 0 < flood.lines ∧ 0 < flood.secs
  joinflood : ∀ rate ∈ modes.joinflood, 0 < rate.count ∧ 0 < rate.secs
  nickflood : ∀ rate ∈ modes.nickflood, 0 < rate.count ∧ 0 < rate.secs
  slowmode : ∀ rate ∈ modes.slowmode, 0 < rate.count ∧ 0 < rate.secs
  redirect : ∀ target ∈ modes.redirect, target.head? = some '#'
  history : ∀ kept ∈ modes.history, 0 < kept.1 ∧ kept.1 ≤ 256
  anticaps : ∀ percent ∈ modes.anticaps, 1 ≤ percent ∧ percent ≤ 100
  kicknorejoin : ∀ secs ∈ modes.kicknorejoin, 1 ≤ secs ∧ secs ≤ 3600
  delaymsg : ∀ secs ∈ modes.delaymsg, 1 ≤ secs ∧ secs ≤ 3600
  repeatLines : ∀ number ∈ modes.repeatLines, 1 ≤ number ∧ number ≤ 20

def ParamMode.copy (source : ChanModes) : ParamMode → ChanModes → ChanModes
  | key => fun modes => { modes with key := source.key }
  | limit => fun modes => { modes with limit := source.limit }
  | flood => fun modes => { modes with flood := source.flood }
  | joinflood => fun modes => { modes with joinflood := source.joinflood }
  | nickflood => fun modes => { modes with nickflood := source.nickflood }
  | slowmode => fun modes => { modes with slowmode := source.slowmode }
  | redirect => fun modes => { modes with redirect := source.redirect }
  | history => fun modes => { modes with history := source.history }
  | anticaps => fun modes => { modes with anticaps := source.anticaps }
  | kicknorejoin => fun modes => { modes with kicknorejoin := source.kicknorejoin }
  | delaymsg => fun modes => { modes with delaymsg := source.delaymsg }
  | repeatLines => fun modes => { modes with repeatLines := source.repeatLines }

theorem renderU32_not_mem {char : Char} (hchar : char.isDigit = false) :
    char ∉ renderU32 number := by
  intro hmem
  rw [ofNat_isDigit hmem] at hchar
  cases hchar

theorem splitOnce_renderU32 (number : UInt32) (rest : Str) :
    splitOnce ':' (renderU32 number ++ ':' :: rest) = some (renderU32 number, rest) :=
  splitOnce_append (renderU32_not_mem (by decide)) rest

theorem parseRate_renderRate {rate : Rate} (hrate : 0 < rate.count ∧ 0 < rate.secs) :
    parseRate (renderRate rate) = some rate := by
  simp [parseRate, renderRate, splitOnce_renderU32, parseU32_renderU32, parseU64_renderU64, hrate]

theorem parseSlow_renderRate {rate : Rate} (hrate : 0 < rate.count ∧ 0 < rate.secs) :
    parseSlow (renderRate rate) = some rate := by
  rw [parseSlow, if_pos (by simp [renderRate]), parseRate_renderRate hrate]

theorem parseU8_ofNat (number : UInt8) : parseU8 (Str.ofNat number.toNat) = some number := by
  rw [parseU8, toNatBelow_ofNat number.toNat_lt]
  simp

theorem parseCapped_renderU32 {cap : UInt32} (hnum : 1 ≤ number ∧ number ≤ cap) :
    parseCapped cap (some (renderU32 number)) = some number := by
  have hmin : min number cap = number := if_pos hnum.2
  simp [parseCapped, parseU32_renderU32, hnum.1, hmin]

theorem parseDuration_renderU64 (secs : UInt64) : parseDuration (renderU64 secs) = some secs := by
  unfold parseDuration
  split
  · rename_i hzero
    have hp := parseU64_renderU64 secs
    rcases hzero with hnil | hzero
    · exact absurd hnil (ofNat_ne_nil _)
    · rw [hzero] at hp
      exact hp
  · have hne : renderU64 secs ≠ [] := ofNat_ne_nil _
    have hdig := ofNat_isDigit (getLast_mem hne)
    simp [getLast?_eq_some_getLast hne, hdig, parseU64_renderU64]

theorem head?_renderRate (rate : Rate) : (renderRate rate).head? ≠ some '*' := by
  have hne : renderU32 rate.count ≠ [] := ofNat_ne_nil _
  rw [renderRate, head?_append_of_ne_nil _ hne]
  intro hstar
  exact renderU32_not_mem (by decide) (mem_of_head? hstar)

theorem parse_renderFlood {flood : MsgFlood} (hflood : 0 < flood.lines ∧ 0 < flood.secs) :
    (parseRate (if (renderFlood flood).head? = some '*' then (renderFlood flood).tail
        else renderFlood flood)).map
      (fun rate => (MsgFlood.mk rate.count rate.secs ((renderFlood flood).head? = some '*'),
        renderFlood flood)) = some (flood, renderFlood flood) := by
  have hp := @parseRate_renderRate ⟨flood.lines, flood.secs⟩ hflood
  have hhead := head?_renderRate ⟨flood.lines, flood.secs⟩
  obtain ⟨lines, secs, ban⟩ := flood
  cases ban <;> simp_all [renderFlood]

section Params

variable {name key : Str} {source : ChanModes}

theorem applyParam_copy (value : α) (hprs : parsed = some value)
    (hstore : store (some value) = mode.copy source)
    (echo : α → Str) :
    ∃ echoed, applyParam true parsed store echo =
      some (Channel.withModes (mode.copy source), echoed) := by
  rw [hprs, ← hstore]
  exact ⟨_, rfl⟩

theorem applyParam_value {stored : Option α} {render : α → Str} {value : Str}
    (hval : stored.map render = some value)
    (hprs : ∀ kept, stored = some kept → render kept = value → parsed = some kept)
    (hstore : store stored = mode.copy source)
    (echo : α → Str) : ∃ echoed, applyParam true parsed store echo =
      some (Channel.withModes (mode.copy source), echoed) := by
  obtain ⟨kept, rfl, hrender⟩ := map_eq_some_iff.mp hval
  exact applyParam_copy kept (hprs kept rfl hrender) hstore echo

theorem applyChanMode_value (hsnd : source.Sound)
    (hown : ∀ target ∈ source.redirect, eqIgnoreAsciiCase target name = false) (server : Server)
    {mode : ParamMode} {value : Str} (hval : mode.value source = some value) :
    ∃ echoed, server.applyChanMode name key mode.handler true (some value) =
      some (Channel.withModes (mode.copy source), echoed) := by
  simp only [applyChanMode]
  cases mode
  case key =>
    have hkey : source.key = some value := hval
    refine ⟨some value, ?_⟩
    simp only [handler, if_true, bind_eq_bind, bind_some,
      if_pos (hsnd.key value hkey), setMode, copy, hkey]
  case flood =>
    obtain ⟨flood, hflood, rfl⟩ := map_eq_some_iff.mp hval
    refine applyParam_copy (flood, renderFlood flood) ?_ ?_ Prod.snd
    · exact parse_renderFlood (hsnd.flood flood hflood)
    · simp only [copy, hflood, map_some]
  case redirect =>
    have htgt : source.redirect = some value := hval
    refine applyParam_copy value ?_ ?_ id
    · simp [hsnd.redirect value htgt, hown value htgt]
    · simp only [copy, htgt]
  -- the others parse back what their stored value is written as
  all_goals
    refine applyParam_value hval ?_ rfl _
    rintro stored hsto rfl
  case limit => simp [parseU32_renderU32, hsnd.limit stored hsto]
  case joinflood => exact parseRate_renderRate (hsnd.joinflood stored hsto)
  case nickflood => exact parseRate_renderRate (hsnd.nickflood stored hsto)
  case slowmode => exact parseSlow_renderRate (hsnd.slowmode stored hsto)
  case history =>
    obtain ⟨hls, hcap⟩ := hsnd.history stored hsto
    have hmin : min stored.1 256 = stored.1 := if_pos hcap
    simp [splitOnce_renderU32, parseU32_renderU32, hls, hmin, parseDuration_renderU64]
  case anticaps =>
    obtain ⟨hlow, hhigh⟩ := hsnd.anticaps stored hsto
    have hmin : min stored 100 = stored := if_pos hhigh
    simp [parseU8_ofNat, hlow, hmin]
  case kicknorejoin => exact parseCapped_renderU32 (hsnd.kicknorejoin stored hsto)
  case delaymsg => exact parseCapped_renderU32 (hsnd.delaymsg stored hsto)
  case repeatLines => exact parseCapped_renderU32 (hsnd.repeatLines stored hsto)

end Params

/-! ## The whole string -/

section Strings

variable {name key : Str} {channel : Channel} {before after : Server} {args : List Str}
  {source modes : ChanModes}

theorem Holding.flags (hhold : Holding key { channel with modes := modes } before after)
    (hemp : channel.members = ∅) (flags : List ChanFlag) :
    Holding key
        { channel with modes := flags.foldl (fun modes flag => modes.setFlag flag true) modes } before
        ((flags.map fun flag => (true, flag.letter)).foldl (applyModesStep name key)
          (after, args)).1 ∧
      ((flags.map fun flag => (true, flag.letter)).foldl (applyModesStep name key)
        (after, args)).2 = args := by
  induction flags generalizing after modes with
  | nil => exact ⟨hhold, rfl⟩
  | cons flag flags ih =>
    obtain ⟨hnext, hargs⟩ := @Holding.flag name key _ before after args hhold hemp flag
    rw [map_cons, foldl_cons, foldl_cons, ← Prod.eta
      (applyModesStep name key (after, args) (true, flag.letter)), hargs]
    exact ih hnext

def ChanModes.onto (source modes : ChanModes) : ChanModes :=
  (all.filter (isSet source)).foldl (fun modes mode => mode.copy source modes)
    ((ChanFlag.all.filter source.flags).foldl (fun modes flag => modes.setFlag flag true) modes)

theorem values_eq (source : ChanModes) :
    source.values = (all.filter (isSet source)).filterMap (value source) := by
  rw [values, filterMap_filter]
  refine filterMap_congr fun mode _ => ?_
  cases hval : mode.value source <;> simp [isSet, hval]

section

variable (hsnd : source.Sound)
  (hown : ∀ target ∈ source.redirect, eqIgnoreAsciiCase target name = false)

include hsnd hown

theorem Holding.param (hhold : Holding key channel before after)
    {mode : ParamMode} {value : Str} (hval : mode.value source = some value) :
    Holding key (channel.withModes (mode.copy source)) before
        (applyModesStep name key (after, value :: args) (true, mode.letter)).1 ∧
      (applyModesStep name key (after, value :: args) (true, mode.letter)).2 = args := by
  obtain ⟨echoed, happ⟩ := @applyChanMode_value name key source hsnd hown after mode value hval
  simp only [applyModesStep, chanMode_letter, wantsParam_handler, if_true, head?_cons, happ]
  exact ⟨hhold.changeChannel _, rfl⟩

theorem Holding.params (hhold : Holding key { channel with modes := modes } before after)
    {set : List ParamMode} (hset : ∀ mode ∈ set, mode.isSet source = true) :
    Holding key
        { channel with modes := set.foldl (fun modes mode => mode.copy source modes) modes } before
        ((set.map fun mode => (true, mode.letter)).foldl (Server.applyModesStep name key)
          (after, set.filterMap (ParamMode.value source))).1 := by
  induction set generalizing after modes with
  | nil => exact hhold
  | cons mode set ih =>
    rw [forall_mem_cons] at hset
    obtain ⟨value, hval⟩ := isSome_iff_exists.mp hset.1
    obtain ⟨hnext, hargs⟩ := @Holding.param name key _ before after
      (set.filterMap (ParamMode.value source)) source hsnd hown hhold mode value hval
    rw [map_cons, foldl_cons, foldl_cons, filterMap_cons_some hval,
      ← Prod.eta (Server.applyModesStep name key _ (true, mode.letter)), hargs]
    exact ih hnext hset.2

theorem Holding.applyModes (hhold : Holding key { channel with modes := modes } before after)
    (hemp : channel.members = ∅) (hvls : ∀ value ∈ source.values, value ≠ [] ∧ Solid value) :
    Holding key { channel with modes := source.onto modes } before
      (after.applyModes name key source.renderParams) := by
  have hne : source.render ≠ [] := by simp [ChanModes.render]
  have hwds := words_flatMap hne (solid_render source) hvls
  obtain ⟨hflags, hargs⟩ := @Holding.flags name key channel before after source.values modes
    hhold hemp (ChanFlag.all.filter source.flags)
  generalize hstate : ((ChanFlag.all.filter source.flags).map fun flag => (true, flag.letter)).foldl
    (Server.applyModesStep name key) (after, source.values) = state at hflags hargs
  have hpar := @Holding.params name key channel before _ source _ hsnd hown hflags
    (ParamMode.all.filter (ParamMode.isSet source)) (by simp)
  rw [← values_eq, ← hargs] at hpar
  simp only [Server.applyModes, ChanModes.renderParams, hwds, signedLetters_render,
    ChanModes.letters, List.map_append, List.map_map, List.foldl_append]
  subst hstate
  exact hpar

end

/-! ## The modes a channel starts with -/

theorem value_copy_of_ne {other : ParamMode} (hne : other ≠ mode) :
    other.value (mode.copy source modes) = other.value modes := by
  cases mode <;> cases other <;> first | rfl | exact absurd rfl hne

theorem copy_of_unset (hsrc : mode.isSet source = false)
    (hmds : mode.value modes = none) : mode.copy source modes = modes := by
  obtain ⟨⟩ := modes
  cases mode <;>
    simp_all [copy, isSet, value]

theorem foldl_copy_filter {set : List ParamMode} (hnd : set.Nodup)
    (hmds : ∀ mode ∈ set, mode.value modes = none) :
    (set.filter (isSet source)).foldl (fun modes mode => mode.copy source modes) modes =
      set.foldl (fun modes mode => mode.copy source modes) modes := by
  induction set generalizing modes with
  | nil => rfl
  | cons mode set ih =>
    rw [forall_mem_cons] at hmds
    obtain ⟨hmode, hnd⟩ := nodup_cons.mp hnd
    have hrest : ∀ other ∈ set, other.value (mode.copy source modes) = none := by
      intro other ho
      rw [value_copy_of_ne (by rintro rfl; exact hmode ho), hmds.2 other ho]
    cases hset : mode.isSet source with
    | true =>
      rw [filter_cons_of_pos hset, foldl_cons, foldl_cons, ih hnd hrest]
    | false =>
      rw [filter_cons_of_neg (by simp [hset]), foldl_cons,
        copy_of_unset hset hmds.1, ih hnd hmds.2]

theorem foldl_setFlag (flags : List ChanFlag) (modes : ChanModes) :
    flags.foldl (fun modes flag => modes.setFlag flag true) modes =
      { modes with flags := fun flag => modes.flags flag || decide (flag ∈ flags) } := by
  induction flags generalizing modes with
  | nil => simp
  | cons first flags ih =>
    rw [foldl_cons, ih]
    simp only [ChanModes.setFlag, ChanModes.mk.injEq, and_true]
    funext flag
    by_cases hflag : flag = first <;> simp [hflag]

def freshModes : ChanModes :=
  (({} : ChanModes).setFlag .noExternal true).setFlag .topicOps true

/-- On a fresh channel the rendered modes are there again, on top of `+nt`. -/
theorem onto_freshModes (source : ChanModes) :
    source.onto freshModes =
      { source with flags := fun flag =>
          flag = .noExternal || flag = .topicOps || source.flags flag } := by
  have hflags : (fun flag => freshModes.flags flag ||
      decide (flag ∈ ChanFlag.all.filter source.flags)) =
      fun flag => flag = .noExternal || flag = .topicOps || source.flags flag := by
    funext flag
    simp only [mem_filter, ChanFlag.mem_all, true_and, Bool.decide_eq_true]
    cases flag <;> rfl
  rw [onto, foldl_setFlag, hflags, foldl_copy_filter (by decide)]
  · rfl
  · intro mode _
    cases mode <;> rfl

end Strings

/-! ## What no string can do -/

/-- Modes as a string leaves them on a fresh channel, whatever its words. -/
structure Tame (name : Str) (modes : ChanModes) : Prop where
  noExternal : modes.flags .noExternal = true
  topicOps : modes.flags .topicOps = true
  key : ∀ word ∈ modes.key, Solid word
  redirect : ∀ target ∈ modes.redirect, Solid target ∧ eqIgnoreAsciiCase target name = false

section Tame

variable {name key : Str} {channel : Channel} {before after : Server} {args : List Str}
  {source modes : ChanModes}

theorem tame_freshModes (name : Str) : Tame name freshModes :=
  ⟨rfl, rfl, by rintro _ ⟨⟩, by rintro _ ⟨⟩⟩

theorem Tame.setFlag (htame : Tame name modes) (flag : ChanFlag) :
    Tame name (modes.setFlag flag true) := by
  have hflags : ∀ other, modes.flags other = true → (modes.setFlag flag true).flags other = true := by
    intro other ho
    by_cases hflag : other = flag <;> simp [ChanModes.setFlag, hflag, ho]
  exact ⟨hflags _ htame.noExternal, hflags _ htame.topicOps, htame.key, htame.redirect⟩

theorem applyParam_eq_some
    {echo : α → Str} (happ : applyParam true parsed store echo = some (change, echoed)) :
    ∃ value, parsed = some value ∧ change = Channel.withModes (store (some value)) := by
  cases parsed with
  | none => cases happ
  | some value =>
    cases happ
    exact ⟨value, rfl, rfl⟩

theorem applyChanMode_tame {param : Option Str} (hprm : ∀ word ∈ param, Solid word)
    (happ : after.applyChanMode name key mode.handler true param = some (change, echoed)) :
    ∃ store, change = Channel.withModes store ∧
      ∀ modes, Tame name modes → Tame name (store modes) := by
  cases mode with
  | key =>
    simp only [handler, applyChanMode, if_true, bind_eq_bind, bind_eq_some_iff] at happ
    obtain ⟨word, hword, happ⟩ := happ
    split at happ <;> cases happ
    refine ⟨_, rfl, fun modes htame => { htame with key := ?_ }⟩
    rintro _ ⟨⟩
    exact hprm word hword
  | redirect =>
    simp only [handler, applyChanMode] at happ
    obtain ⟨target, htgt, rfl⟩ := applyParam_eq_some happ
    rw [filter_eq_some_iff] at htgt
    refine ⟨_, rfl, fun modes htame => { htame with redirect := ?_ }⟩
    rintro _ ⟨⟩
    exact ⟨hprm target htgt.1, by simpa using (of_decide_eq_true htgt.2).2⟩
  | _ =>
    simp only [handler, applyChanMode] at happ
    obtain ⟨value, -, rfl⟩ := applyParam_eq_some happ
    exact ⟨_, rfl, fun modes htame =>
      ⟨htame.noExternal, htame.topicOps, htame.key, htame.redirect⟩⟩

variable (hhold : Holding key { channel with modes := modes } before after)
  (hemp : channel.members = ∅) (htame : Tame name modes)

include hhold hemp htame

theorem Holding.tame_letter (hargs : ∀ word ∈ args, Solid word) (hlet : letter ∈ source.letters) :
    ∃ modes', Tame name modes' ∧
      Holding key { channel with modes := modes' } before
        (applyModesStep name key (after, args) (true, letter)).1 ∧
      ∀ word ∈ (applyModesStep name key (after, args) (true, letter)).2, Solid word := by
  rcases mem_letters hlet with ⟨flag, rfl⟩ | ⟨mode, rfl⟩
  · obtain ⟨hnext, hs⟩ := @Holding.flag name key _ before after args hhold hemp flag
    exact ⟨_, htame.setFlag flag, hnext, by rwa [hs]⟩
  · have htail : ∀ word ∈ args.tail, Solid word := fun word hword =>
      hargs word (mem_of_mem_tail hword)
    have hhead : ∀ word ∈ args.head?, Solid word := fun word hword =>
      hargs word (mem_of_head? hword)
    simp only [applyModesStep, chanMode_letter, wantsParam_handler, if_true]
    cases happ : after.applyChanMode name key mode.handler true args.head? with
    | none => exact ⟨modes, htame, hhold, htail⟩
    | some applied =>
      obtain ⟨change, echoed⟩ := applied
      obtain ⟨store, rfl, hstore⟩ := applyChanMode_tame hhead happ
      exact ⟨store modes, hstore modes htame, hhold.changeChannel (Channel.withModes store), htail⟩

theorem Holding.tame_letters {letters : Str} (hlets : ∀ letter ∈ letters, letter ∈ source.letters)
    (hargs : ∀ word ∈ args, Solid word) :
    ∃ modes', Tame name modes' ∧
      Holding key { channel with modes := modes' } before
        ((letters.map fun letter => (true, letter)).foldl (applyModesStep name key)
          (after, args)).1 := by
  induction letters generalizing after modes args with
  | nil => exact ⟨modes, htame, hhold⟩
  | cons letter letters ih =>
    rw [forall_mem_cons] at hlets
    obtain ⟨next, hnext, hheld, hrest⟩ := hhold.tame_letter hemp htame hargs hlets.1
    exact ih hheld hnext hlets.2 hrest

theorem Holding.tame {text : Str} (hwds : (words text).head? = some source.render) :
    ∃ modes', Tame name modes' ∧
      Holding key { channel with modes := modes' } before (after.applyModes name key text) := by
  obtain ⟨args, hargs⟩ := head?_eq_some_iff.mp hwds
  have hsol : ∀ word ∈ args, Solid word := fun word hword =>
    solid_of_mem_words (hargs ▸ mem_cons_of_mem _ hword)
  simp only [Server.applyModes, hargs, signedLetters_render]
  exact hhold.tame_letters hemp htame (fun _ hlet => hlet) hsol

end Tame

end EchoIrcd
