import EchoIrcd.PermRestore
import Mathlib.Logic.Relation

/-!
# What local commands store

The channels that JOIN, MODE, SAMODE, TBAN, TOPIC and RENAME of local users can
bring about, and which of them survive a restart.
-/

namespace EchoIrcd

open Str Relation Table Option Channel Server List

variable {channel : Channel} {maxlen : Nat} {name : Str}

/-! ## Local commands -/

def IsSetter (setter : Str) : Prop := ' ' ∉ setter ∧ '\n' ∉ setter

/-- One change that a local command makes; what it is given came in on one line. -/
inductive LocalEdit : Channel → Channel → Prop
  /-- MODE and SAMODE, but for the lists. -/
  | mode {channel : Channel} {server : Server} {chan key : Str} {mode : ChanMode} {adding : Bool}
      {param echoed : Option Str} {change : Channel → Channel} (hlist : ∀ kind, mode ≠ .list kind)
      (hprm : ∀ word ∈ param, '\n' ∉ word)
      (happ : server.applyChanMode chan key mode adding param = some (change, echoed)) :
      LocalEdit channel (change channel)
  /-- A mask that is not in the list: a list mode, TBAN, or a ban set for flooding. -/
  | addMask {channel : Channel} {kind : ListKind} {ban : Ban} (hmask : '\n' ∉ ban.mask)
      (hset : IsSetter ban.setter) (hnew : ban.mask ∉ (channel.lists kind).map Ban.mask) :
      LocalEdit channel (channel.setList kind (· ++ [ban]))
  | dropMasks {channel : Channel} {kind : ListKind} (keep : Ban → Bool) :
      LocalEdit channel (channel.setList kind (filter keep))
  | topic {channel : Channel} {topic : Topic} (htext : '\n' ∉ topic.text)
      (hset : IsSetter topic.setter) : LocalEdit channel { channel with topic := some topic }
  | rename {channel : Channel} {name : Str} {maxlen : Nat} (hname : validChan name maxlen = true) :
      LocalEdit channel { channel with name := name }
  | people {channel : Channel} (members : Table Uid Member) (rmembers : Table Str Member)
      (invites : List Uid) :
      LocalEdit channel
        { channel with members := members, rmembers := rmembers, invites := invites }

def Produced (channel : Channel) : Prop :=
  ∃ now name maxlen, validChan name maxlen = true ∧
    ReflTransGen LocalEdit (new now name) channel

/-! ## Their parameters -/

structure ModesKept (modes : ChanModes) : Prop where
  sound : modes.Sound
  key : ∀ word ∈ modes.key, '\n' ∉ word
  redirect : ∀ target ∈ modes.redirect, '\n' ∉ target

section

variable {param : Option Str} {rate : Rate}

theorem pos_of_parseRate (hp : param.bind parseRate = some rate) :
    0 < rate.count ∧ 0 < rate.secs := by
  simp only [parseRate, bind_eq_bind, bind_eq_some_iff] at hp
  obtain ⟨_, -, _, -, _, -, _, -, hp⟩ := hp
  split at hp <;> cases hp
  assumption

theorem pos_of_parseSlow (hp : param.bind parseSlow = some rate) :
    0 < rate.count ∧ 0 < rate.secs := by
  obtain ⟨text, -, hp⟩ := bind_eq_some_iff.mp hp
  unfold parseSlow at hp
  split at hp
  · exact @pos_of_parseRate (some text) rate hp
  · simp only [bind_eq_bind, bind_eq_some_iff] at hp
    obtain ⟨_, -, hp⟩ := hp
    split at hp <;> cases hp
    exact ⟨(by decide : (0 : UInt32) < 1), by assumption⟩

theorem bounds_of_parseCapped {cap number : UInt32} (hcap : 1 ≤ cap)
    (hp : parseCapped cap param = some number) : 1 ≤ number ∧ number ≤ cap := by
  simp only [parseCapped, bind_eq_bind, bind_eq_some_iff] at hp
  obtain ⟨parsed, -, hp⟩ := hp
  split at hp <;> cases hp
  rename_i hone
  exact ⟨Std.le_min_iff.mpr ⟨hone, hcap⟩, Std.min_le_right⟩

end

theorem capped_pos {number cap : UInt32} (hnum : 0 < number) (hcap : 0 < cap) :
    0 < min number cap := by
  change 0 < if number ≤ cap then number else cap
  split
  · exact hnum
  · exact hcap

section Handlers

variable {server : Server} {chan key : Str} {mode : ChanMode} {adding : Bool}
  {param echoed : Option Str} {change : Channel → Channel}

theorem kept_of_applyParam {α : Type} {parsed : Option α} {store : Option α → ChanModes → ChanModes}
    {echo : α → Str} (happ : applyParam adding parsed store echo = some (change, echoed))
    (hstore : ∀ value, (∀ found ∈ value, parsed = some found) →
      ∀ modes, ModesKept modes → ModesKept (store value modes)) :
    ∃ kept, change = withModes kept ∧ ∀ modes, ModesKept modes → ModesKept (kept modes) := by
  obtain ⟨value, rfl, -, -, hval⟩ := applyParam_cases happ
  exact ⟨store value, rfl, hstore value hval⟩

theorem applyKey_kept (hprm : ∀ word ∈ param, '\n' ∉ word)
    (happ : server.applyChanMode chan key .key adding param = some (change, echoed)) :
    ∃ kept, change = withModes kept ∧ ∀ modes, ModesKept modes → ModesKept (kept modes) := by
  obtain ⟨word, hword, hok, -, rfl, -⟩ | ⟨-, rfl, -⟩ := applyKey_cases happ
  · refine ⟨_, rfl, fun modes hkept =>
      ⟨{ hkept.sound with key := ?_ }, ?_, hkept.redirect⟩⟩
    · rintro _ ⟨⟩
      exact hok
    · rintro _ ⟨⟩
      exact hprm word hword
  · exact ⟨_, rfl, fun modes hkept =>
      ⟨{ hkept.sound with key := by rintro _ ⟨⟩ }, by rintro _ ⟨⟩, hkept.redirect⟩⟩

theorem applyChanMode_kept (hlist : ∀ kind, mode ≠ .list kind) (hprm : ∀ word ∈ param, '\n' ∉ word)
    (happ : server.applyChanMode chan key mode adding param = some (change, echoed)) :
    (∃ kept, change = withModes kept ∧ ∀ modes, ModesKept modes → ModesKept (kept modes)) ∨
      ∃ people : Table Uid Member → Table Uid Member,
        change = fun channel => { channel with members := people channel.members } := by
  have hflag : ∀ flag on, ∀ modes, ModesKept modes → ModesKept (modes.setFlag flag on) :=
    fun flag on modes hkept => ⟨{ hkept.sound with }, hkept.key, hkept.redirect⟩
  have hedit := applyChanMode_edit happ
  simp only [applyChanMode] at happ
  cases mode
  case list kind => exact absurd rfl (hlist kind)
  case status letter rank =>
    cases hedit with
    | status => exact .inr ⟨_, rfl⟩
    | modes hst => exact absurd rfl (hst letter rank)
  case flag flag =>
    cases happ
    exact .inl ⟨_, rfl, hflag flag adding⟩
  case secureOnly | encrypted =>
    simp only at happ
    split at happ <;> cases happ
    exact .inl ⟨_, rfl, hflag _ adding⟩
  case key => exact .inl (@applyKey_kept server chan key _ _ _ _ hprm happ)
  case redirect =>
    refine .inl (kept_of_applyParam happ fun value hval modes hkept =>
      ⟨{ hkept.sound with redirect := fun target htgt => ?_ }, hkept.key,
        fun target htgt => ?_⟩)
    · exact (of_decide_eq_true (filter_eq_some_iff.mp (hval target htgt)).2).1
    · exact hprm target (filter_eq_some_iff.mp (hval target htgt)).1
  -- the others store what they parse and leave the key and the redirect alone
  all_goals refine .inl (kept_of_applyParam happ fun value hval modes hkept =>
    ⟨?_, hkept.key, hkept.redirect⟩)
  case limit =>
    refine { hkept.sound with limit := fun number hnum => ?_ }
    exact of_decide_eq_true (filter_eq_some_iff.mp (hval number hnum)).2
  case chanHistory =>
    refine { hkept.sound with history := fun found hf => ?_ }
    have hp := hval found hf
    simp only [bind_eq_some_iff, map_eq_some_iff, filter_eq_some_iff, decide_eq_true_eq] at hp
    obtain ⟨_, -, lines, ⟨-, hls⟩, rfl⟩ := hp
    exact ⟨capped_pos hls (by decide), Std.min_le_right⟩
  case msgFlood =>
    refine { hkept.sound with flood := fun found hf => ?_ }
    obtain ⟨pair, hpair, rfl⟩ := map_eq_some_iff.mp hf
    have hp := hval pair hpair
    simp only [bind_eq_some_iff, map_eq_some_iff] at hp
    obtain ⟨_, -, rate, hp, rfl⟩ := hp
    exact @pos_of_parseRate (some _) rate hp
  case joinFlood =>
    refine { hkept.sound with joinflood := fun rate hrate => ?_ }
    exact pos_of_parseRate (hval rate hrate)
  case nickFlood =>
    refine { hkept.sound with nickflood := fun rate hrate => ?_ }
    exact pos_of_parseRate (hval rate hrate)
  case slowMode =>
    refine { hkept.sound with slowmode := fun rate hrate => ?_ }
    exact pos_of_parseSlow (hval rate hrate)
  case anticaps =>
    refine { hkept.sound with anticaps := fun percent hpercent => ?_ }
    have hp := hval percent hpercent
    simp only [map_eq_some_iff, filter_eq_some_iff, decide_eq_true_eq] at hp
    obtain ⟨number, ⟨-, hnum⟩, rfl⟩ := hp
    exact ⟨Std.le_min_iff.mpr ⟨hnum, by decide⟩, Std.min_le_right⟩
  case kickNoRejoin =>
    refine { hkept.sound with kicknorejoin := fun secs hsecs => ?_ }
    exact bounds_of_parseCapped (by decide) (hval secs hsecs)
  case delayMsg =>
    refine { hkept.sound with delaymsg := fun secs hsecs => ?_ }
    exact bounds_of_parseCapped (by decide) (hval secs hsecs)
  case repeatLines =>
    refine { hkept.sound with repeatLines := fun number hnum => ?_ }
    exact bounds_of_parseCapped (by decide) (hval number hnum)

end Handlers

/-! ## Runs of local commands -/

structure Channel.Kept (channel : Channel) : Prop where
  name : channel.name ≠ [] ∧ '\n' ∉ channel.name
  modes : ModesKept channel.modes
  topic : ∀ topic ∈ channel.topic, IsSetter topic.setter ∧ '\n' ∉ topic.text
  lists : ∀ kind, ∀ ban ∈ channel.lists kind, IsSetter ban.setter ∧ '\n' ∉ ban.mask
  masks : ∀ kind, ((channel.lists kind).map Ban.mask).Nodup

section

variable (hname : validChan name maxlen = true)

include hname

theorem validChan_ne_nil : name ≠ [] := by
  rintro rfl
  simp [validChan] at hname

theorem validChan_not_mem : '\n' ∉ name := by
  intro hmem
  simp only [validChan, decide_eq_true_eq, Bool.not_eq_true', List.any_eq_false] at hname
  exact absurd (hname.2.2.2 '\n' hmem) (by decide)

theorem kept_new {now : Timestamp} : (new now name).Kept where
  name := ⟨validChan_ne_nil hname, validChan_not_mem hname⟩
  modes := by constructor <;> first | constructor <;> rintro _ ⟨⟩ | rintro _ ⟨⟩
  topic := by rintro _ ⟨⟩
  lists := by rintro _ _ ⟨⟩
  masks := by simp [new]

end

theorem Channel.Kept.setList (hkept : channel.Kept) {kind : ListKind} {change : List Ban → List Ban}
    (hbans : ∀ ban ∈ change (channel.lists kind), IsSetter ban.setter ∧ '\n' ∉ ban.mask)
    (hmasks : ((change (channel.lists kind)).map Ban.mask).Nodup) :
    (channel.setList kind change).Kept := by
  refine { hkept with lists := ?_, masks := ?_ }
  · intro other
    by_cases ho : other = kind
    · subst ho
      simpa [Channel.setList] using hbans
    · simpa [Channel.setList, ho] using hkept.lists other
  · intro other
    by_cases ho : other = kind
    · subst ho
      simpa [Channel.setList] using hmasks
    · simpa [Channel.setList, ho] using hkept.masks other

theorem LocalEdit.kept {next : Channel} (hedit : LocalEdit channel next)
    (hkept : channel.Kept) : next.Kept := by
  cases hedit with
  | mode hlist hprm happ =>
    rcases applyChanMode_kept hlist hprm happ with ⟨store, rfl, hstore⟩ | ⟨people, rfl⟩
    · exact { hkept with modes := hstore _ hkept.modes }
    · exact { hkept with }
  | addMask hmask hset hnew =>
    refine hkept.setList ?_ ?_
    · intro ban hban
      rcases mem_append.mp hban with hban | hban
      · exact hkept.lists _ ban hban
      · rw [mem_singleton.mp hban]
        exact ⟨hset, hmask⟩
    · rw [map_append, map_singleton, ← concat_eq_append]
      exact (hkept.masks _).concat hnew
  | dropMasks keep =>
    refine hkept.setList ?_ ?_
    · exact fun ban hban => hkept.lists _ ban (mem_filter.mp hban).1
    · exact (hkept.masks _).sublist (filter_sublist.map _)
  | topic htext hset =>
    refine { hkept with topic := ?_ }
    rintro _ ⟨⟩
    exact ⟨hset, htext⟩
  | rename hname =>
    exact { hkept with name := ⟨validChan_ne_nil hname, validChan_not_mem hname⟩ }
  | people => exact { hkept with }

theorem Produced.kept (hproduced : Produced channel) : channel.Kept := by
  obtain ⟨now, name, maxlen, hname, hedits⟩ := hproduced
  induction hedits with
  | refl => exact kept_new hname
  | tail _ hedit ih => exact hedit.kept ih

theorem Channel.Kept.sound (hkept : channel.Kept) : channel.Sound where
  name := hkept.name.1
  modes := hkept.modes.sound
  masks := hkept.masks
  written := {
    name := hkept.name.2
    modes := not_mem_renderParams (by decide) (by decide) hkept.modes.key hkept.modes.redirect
    topic := fun topic htopic =>
      ⟨(hkept.topic topic htopic).1.1, (hkept.topic topic htopic).1.2, (hkept.topic topic htopic).2⟩
    lists := fun kind ban hban =>
      ⟨(hkept.lists kind ban hban).1.1, (hkept.lists kind ban hban).1.2,
        (hkept.lists kind ban hban).2⟩ }

/-! ## The store -/

section Store

variable {server : Server}

theorem mem_permanents :
    channel ∈ server.permanents ↔
      (∃ key, server.channels.lookup key = some channel) ∧
        channel.modes.flags .permanent = true := by
  simp only [permanents, List.mem_insertionSort, List.mem_filter, List.mem_map, Prod.exists,
    exists_eq_right, mem_toPairs]

def KeyedByName (server : Server) : Prop :=
  ∀ key channel, server.channels.lookup key = some channel → key = toAsciiLower channel.name

theorem nodup_permanents (hkeys : KeyedByName server) :
    (server.permanents.map fun channel => toAsciiLower channel.name).Nodup := by
  have hnms : (toPairs server.channels).map (fun entry => toAsciiLower entry.2.name) =
      server.channels.keys := by
    rw [AList.keys, List.keys, toPairs, List.map_map]
    refine List.map_congr_left fun entry hent => ?_
    exact (hkeys entry.1 entry.2 (AList.mem_lookup_iff.mpr hent)).symm
  have hall : ((toPairs server.channels).map
      fun entry => toAsciiLower entry.2.name).Nodup := hnms ▸ server.channels.keys_nodup
  have hperm := (List.perm_insertionSort (fun left right : Channel => left.name ≤ right.name)
    (((toPairs server.channels).map Prod.snd).filter fun channel =>
      channel.modes.flags .permanent)).map fun channel => toAsciiLower channel.name
  refine hperm.nodup_iff.mpr (List.Nodup.sublist (List.filter_sublist.map _) ?_)
  rwa [List.map_map]

/-- Loading the file that was saved restores every permanent channel exactly if each of them is
plain. -/
theorem restored_iff_plain (fresh : Server) (hemp : fresh.channels = ∅)
    (hkeys : KeyedByName server) (hproduced : ∀ channel ∈ server.permanents, Produced channel) :
    (∀ channel ∈ server.permanents, Restored (fresh.loadText server.serialize) channel) ↔
      ∀ channel ∈ server.permanents, Plain channel := by
  have hsnd : ∀ channel ∈ server.permanents, channel.Sound := fun channel hchan =>
    (hproduced channel hchan).kept.sound
  have habs : ∀ channel ∈ server.permanents, toAsciiLower channel.name ∉ fresh.channels := by
    simp [hemp]
  rw [loadText_serialize fresh fun channel hchan => (hsnd channel hchan).written]
  constructor
  · intro hrestored channel hchan
    have hkeysSolid := @solid_foldl_reload server.permanents fresh (by simp [hemp])
    have hsol : ∀ channel ∈ server.permanents, Solid channel.name ∧ channel.name ≠ [] := by
      intro channel hchan
      obtain ⟨copy, hcopy, -⟩ := hrestored channel hchan
      have hkey := hkeysSolid _ (mem_of_lookup hcopy)
      exact ⟨solid_toAsciiLower.mp hkey, (hsnd channel hchan).name⟩
    obtain ⟨before, hbef, hlook⟩ :=
      foldl_reload_mem hsol (nodup_permanents hkeys) habs hchan
    obtain ⟨copy, hcopy, hs⟩ := hrestored channel hchan
    exact plain_of_restored (hsnd channel hchan) (hsol channel hchan).1 hbef
      ⟨copy, hlook ▸ hcopy, hs⟩
  · intro hpl channel hchan
    have hsol : ∀ channel ∈ server.permanents, Solid channel.name ∧ channel.name ≠ [] :=
      fun channel hchan => ⟨(hpl channel hchan).name, (hsnd channel hchan).name⟩
    obtain ⟨before, hbef, hlook⟩ :=
      foldl_reload_mem hsol (nodup_permanents hkeys) habs hchan
    obtain ⟨copy, hcopy, hs⟩ := restored_of_plain (hsnd channel hchan)
      (hpl channel hchan) (mem_permanents.mp hchan).2 hbef
    exact ⟨copy, hlook.trans hcopy, hs⟩

end Store

/-! ## Channels that stay and channels that change -/

section Samples

def permanentChannel : Channel :=
  (new 5 ['#', 'a']).withModes (ChanModes.setFlag .permanent true)

def openChannel : Channel := permanentChannel.withModes (ChanModes.setFlag .topicOps false)

def serverWith (channels : Table Str Channel) : Server where
  conf := { sid := ['1', 'A', 'B'], name := ['i', 'r', 'c'] }
  clock := 9
  channels := channels

theorem localEdit_flag (channel : Channel) (flag : ChanFlag) (adding : Bool) :
    LocalEdit channel (channel.withModes (ChanModes.setFlag flag adding)) :=
  @LocalEdit.mode channel (serverWith ∅) [] [] (.flag flag) adding none none _
    (fun _ hlist => nomatch hlist) (by simp) rfl

theorem produced_permanentChannel : Produced permanentChannel :=
  ⟨5, ['#', 'a'], 50, by decide, .single (localEdit_flag _ _ _)⟩

theorem keyedByName_single {key : Str} (hkey : key = toAsciiLower channel.name) :
    KeyedByName (serverWith (ofList [(key, channel)])) := by
  intro other found hf
  obtain ⟨rfl, rfl⟩ | ⟨-, hf⟩ := of_lookup_insert hf
  · exact hkey
  · cases hf

theorem permanents_single {key : Str} (hpermanent : channel.modes.flags .permanent = true) :
    (serverWith (ofList [(key, channel)])).permanents = [channel] := by
  simp [permanents, serverWith, ofList, toPairs, hpermanent]

theorem restored_iff_plain_permanentChannel :
    (∀ channel ∈ (serverWith (ofList [(['#', 'a'], permanentChannel)])).permanents,
      Restored ((serverWith ∅).loadText
        (serverWith (ofList [(['#', 'a'], permanentChannel)])).serialize) channel) ↔
    ∀ channel ∈ (serverWith (ofList [(['#', 'a'], permanentChannel)])).permanents,
      Plain channel := by
  refine restored_iff_plain (serverWith ∅) rfl (keyedByName_single rfl) ?_
  rw [permanents_single rfl]
  simpa using produced_permanentChannel

/-- A channel saved with `-t` has `+t` after the restart. -/
theorem openChannel_comes_back_locked :
    Produced openChannel ∧ openChannel.modes.flags .permanent = true ∧
      openChannel.modes.flags .topicOps = false ∧
      ((((serverWith ∅).loadText
        (serverWith (ofList [(['#', 'a'], openChannel)])).serialize).channels.lookup
          ['#', 'a']).map fun copy => copy.modes.flags .topicOps) = some true := by
  refine ⟨⟨5, ['#', 'a'], 50, by decide, .tail (.single (localEdit_flag _ .permanent true))
    (localEdit_flag _ .topicOps false)⟩, by decide, by decide, by decide +kernel⟩

end Samples

end EchoIrcd
