import EchoIrcd.ModeArrival

/-!
# Stored parameters as words of a line

What MODE, TBAN and SAMODE of `core_mode.rs`, `core_channel.rs` and `core_oper.rs`
store is sent again in every later MODE, FMODE and burst line, where it has to be one
word.  A parameter of a client may be empty or have spaces in it; the key and the
numbers are checked, the masks of the lists and the channel of `+L` are not.
-/

namespace EchoIrcd

open Str Server Option List

variable {server : Server}

/-- Every text that is stored on the channel is one word. -/
structure Channel.Worded (channel : Channel) : Prop where
  key : ∀ word ∈ channel.modes.key, IsToken word
  redirect : ∀ target ∈ channel.modes.redirect, IsToken target
  masks : ∀ kind, ∀ ban ∈ channel.lists kind, IsToken ban.mask

theorem isToken_renderFlood (flood : MsgFlood) : IsToken (renderFlood flood) := by
  have hrate := isToken_renderRate ⟨flood.lines, flood.secs⟩
  unfold renderFlood
  split
  · exact IsToken.append (show IsToken ['*'] by decide) hrate.2.1
  · exact hrate

theorem Channel.Worded.values {channel : Channel} (hwd : channel.Worded) :
    ∀ value ∈ channel.modes.values, IsToken value := by
  intro value hval
  obtain ⟨mode, -, hmode⟩ := mem_filterMap.mp hval
  cases mode with
  | key => exact hwd.key value hmode
  | redirect => exact hwd.redirect value hmode
  | limit | kicknorejoin | delaymsg | repeatLines | anticaps =>
    obtain ⟨number, -, rfl⟩ := map_eq_some_iff.mp hmode
    exact isToken_ofNat _
  | joinflood | nickflood | slowmode =>
    obtain ⟨rate, -, rfl⟩ := map_eq_some_iff.mp hmode
    exact isToken_renderRate rate
  | flood =>
    obtain ⟨flood, -, rfl⟩ := map_eq_some_iff.mp hmode
    exact isToken_renderFlood flood
  | history =>
    obtain ⟨⟨lines, secs⟩, -, rfl⟩ := map_eq_some_iff.mp hmode
    refine (isToken_ofNat _).append ?_
    simpa [renderU64] using (isToken_ofNat secs.toNat).2.1

/-! ## One letter -/

def ChanMode.Fits (adding : Bool) (param : Option Str) : ChanMode → Prop
  | .list kind => adding = true → ∀ mask ∈ param, IsToken (kind.normalize mask)
  | .redirect => adding = true → ∀ target ∈ param, IsToken target
  | _ => True

section Handlers

variable {server : Server} {rules : ModeRules} {uid : Uid} {chan key : Str} {mode : ChanMode}
  {adding : Bool} {param echo : Option Str} {change : Channel → Channel} {channel : Channel}

section

variable (hwd : channel.Worded)

include hwd

theorem Channel.Worded.setList {kind : ListKind} {edit : List Ban → List Ban}
    (hedit : ∀ ban ∈ edit (channel.lists kind), ban ∈ channel.lists kind ∨ IsToken ban.mask) :
    (channel.setList kind edit).Worded where
  key := hwd.key
  redirect := hwd.redirect
  masks := by
    intro other ban hban
    by_cases ho : other = kind
    · subst ho
      simp only [Channel.setList, Function.update_self] at hban
      exact (hedit ban hban).elim (hwd.masks other ban) id
    · simp only [Channel.setList, Function.update_of_ne ho] at hban
      exact hwd.masks other ban hban

theorem worded_keyMode
    (happ : server.applyChanMode chan key .key adding param = some (change, echo)) :
    (change channel).Worded := by
  obtain ⟨word, -, hword, -, rfl, -⟩ | ⟨-, rfl, -⟩ := applyKey_cases happ
  · refine ⟨?_, hwd.redirect, hwd.masks⟩
    rintro _ ⟨⟩
    exact ⟨hword.1, hword.2.1, fun hhead => hword.2.2.2 (mem_of_mem_head? hhead)⟩
  · exact ⟨by rintro _ ⟨⟩, hwd.redirect, hwd.masks⟩

theorem worded_applyChanMode (hlist : ∀ kind, mode ≠ .list kind) (hfits : mode.Fits adding param)
    (happ : server.applyChanMode chan key mode adding param = some (change, echo)) :
    (change channel).Worded := by
  cases mode with
  | list kind => exact absurd rfl (hlist kind)
  | key => exact worded_keyMode hwd happ
  | status letter rank =>
    cases applyChanMode_edit happ with
    | status _ _ target edit => exact { hwd with }
    | modes hst => exact absurd rfl (hst letter rank)
  | flag flag =>
    obtain ⟨rfl, -⟩ := setMode_eq_some happ
    exact { hwd with }
  | secureOnly | encrypted =>
    simp only [applyChanMode] at happ
    split at happ
    · cases happ
    · obtain ⟨rfl, -⟩ := setMode_eq_some happ
      exact { hwd with }
  | redirect =>
    simp only [applyChanMode] at happ
    obtain ⟨value, rfl, -, hval, hprs⟩ := applyParam_cases happ
    refine ⟨hwd.key, ?_, hwd.masks⟩
    intro target htgt
    have hadd : adding = true := by
      rw [← hval]
      exact isSome_of_mem htgt
    exact hfits hadd target (filter_eq_some_iff.mp (hprs target htgt)).1
  | _ =>
    simp only [applyChanMode] at happ
    obtain ⟨value, rfl, -⟩ := applyParam_cases happ
    exact { hwd with }

theorem Channel.Worded.addMask {kind : ListKind} {ban : Ban}
    (hban : IsToken ban.mask) : (channel.setList kind (· ++ [ban])).Worded := by
  refine hwd.setList fun other ho => ?_
  rcases mem_append.mp ho with hold | hnew
  · exact .inl hold
  · rw [mem_singleton.mp hnew]
    exact .inr hban

theorem Channel.Worded.dropMasks (kind : ListKind)
    (keep : Ban → Bool) : (channel.setList kind (filter keep)).Worded :=
  hwd.setList fun _ hban => .inl (mem_filter.mp hban).1

theorem worded_userChanMode (hfits : mode.Fits adding param)
    (happ : server.userChanMode rules uid chan key mode adding param = some (change, echo)) :
    (change channel).Worded := by
  cases mode with
  | status letter rank =>
    obtain ⟨_, _, -, -, -, rfl⟩ := statusBy_cases happ
    exact { hwd with }
  | list kind =>
    obtain ⟨mask, _, rfl, -, -, ⟨hadd, -, _, rfl⟩ | ⟨-, rfl⟩⟩ := listBy_cases happ
    · exact hwd.addMask (hfits hadd mask rfl)
    · exact hwd.dropMasks kind _
  | _ =>
    exact worded_applyChanMode hwd (by simp) hfits
      (applyChanMode_of_userChanMode (by simp) (by simp) happ)

theorem worded_sudoChanMode (hfits : mode.Fits adding param)
    (happ : server.sudoChanMode uid chan key mode adding param = some (change, echo)) :
    (change channel).Worded := by
  cases mode with
  | status letter rank =>
    obtain ⟨_, _, -, -, -, rfl⟩ := statusBy_cases happ
    exact { hwd with }
  | list kind =>
    simp only [sudoChanMode, listSudo, bind_eq_bind, bind_eq_some_iff] at happ
    obtain ⟨mask, hprm, _, -, happ⟩ := happ
    split at happ
    · rename_i hadd
      split at happ <;> cases happ
      exact hwd.addMask (hfits hadd mask hprm)
    · split at happ <;> cases happ
      exact hwd.dropMasks kind _
  | _ =>
    simp only [sudoChanMode] at happ
    exact worded_applyChanMode hwd (by simp) hfits happ

end

end Handlers

/-! ## The letters of a command -/

/-- The walk of the letter loop: every letter with the argument its handler takes. -/
def Fitting (config : PrefixConfig) : List (Bool × Char) → List Str → Prop
  | [], _ => True
  | entry :: entries, args =>
    match chanMode config entry.2 with
    | none => Fitting config entries args
    | some mode =>
      mode.Fits entry.1 (if mode.wantsParam entry.1 then args.head? else none) ∧
        Fitting config entries (if mode.wantsParam entry.1 then args.tail else args)

namespace Server

def Worded (server : Server) : Prop :=
  ∀ key channel, server.channels.lookup key = some channel → channel.Worded

theorem Worded.changeChannel (hwd : server.Worded) {key : Str} {change : Channel → Channel}
    (hchg : ∀ channel, channel.Worded → (change channel).Worded) :
    (server.changeChannel key change).Worded := by
  intro other channel hchan
  obtain ⟨before, hbef, ⟨-, rfl⟩ | ⟨-, rfl⟩⟩ := Table.of_lookup_modify hchan
  · exact hchg before (hwd other before hbef)
  · exact hwd other channel hbef

theorem Worded.propagateChanMode (hwd : server.Worded) (source chan modes : Str)
    (params : List Str) : (server.propagateChanMode source chan modes params).Worded := by
  intro key channel hchan
  exact hwd key channel hchan

theorem Worded.cull (hwd : server.Worded) (key : Str) : (server.cull key).Worded := by
  unfold Server.cull
  split
  · split
    · exact hwd
    · exact fun other channel hchan => hwd other channel (Table.of_lookup_erase hchan).2
  · exact hwd

theorem Worded.relayChanges {loop : UserModeLoop} (hwd : loop.server.Worded) (uid : Uid)
    (chan : Str) : (relayChanges uid chan loop).Worded := by
  unfold Server.relayChanges
  split
  · exact hwd
  · split
    · exact hwd.propagateChanMode _ _ _ _
    · exact hwd

/-- A handler that stores words when it is given words. -/
def KeepsWords (apply : Server → ChanMode → Bool → Option Str → Applied) : Prop :=
  ∀ server mode adding param change echo, ChanMode.Fits adding param mode →
    apply server mode adding param = some (change, echo) →
      ∀ channel : Channel, channel.Worded → (change channel).Worded

variable {apply : Server → ChanMode → Bool → Option Str → Applied}

theorem KeepsWords.loop (hkeeps : KeepsWords apply) (key : Str) (entries : List (Bool × Char)) :
    ∀ loop : UserModeLoop, loop.server.Worded →
      Fitting loop.server.conf.prefixes entries loop.args →
        (entries.foldl (modeStep apply key) loop).server.Worded := by
  induction entries with
  | nil => exact fun loop hwd _ => hwd
  | cons entry entries ih =>
    intro loop hwd hfits
    rw [foldl_cons]
    unfold Fitting at hfits
    cases hmode : chanMode loop.server.conf.prefixes entry.2 with
    | none =>
      rw [hmode] at hfits
      have hstep : modeStep apply key loop entry = loop := by simp only [modeStep, hmode]
      rw [hstep]
      exact ih loop hwd hfits
    | some mode =>
      rw [hmode] at hfits
      obtain ⟨hfit, hfits⟩ := hfits
      simp only [modeStep, hmode]
      split
      · exact ih _ hwd hfits
      · rename_i change echo happ
        exact ih _ (hwd.changeChannel (hkeeps _ _ _ _ _ _ hfit happ)) hfits

end Server

/-! ## Runs -/

inductive WordCommand where
  | mode (uid : Uid) (params : List Str)
  | samode (uid : Uid) (params : List Str)
  | tban (uid : Uid) (params : List Str)

namespace WordCommand

def run (rules : ModeRules) : WordCommand → Server → Server
  | mode uid params => Server.applyMode rules uid params
  | samode uid params => Server.samode rules uid params
  | tban uid params => Server.tban uid params

def Fits (rules : ModeRules) (server : Server) : WordCommand → Prop
  | mode _ (_ :: modes :: args) | samode _ (_ :: modes :: args) =>
    Fitting server.conf.prefixes ((signedLetters true modes).take (max rules.modes 1)) args
  | tban _ (_ :: _ :: mask :: _) => IsToken (normalizeBanMask mask)
  | _ => True

theorem worded_run {rules : ModeRules} {command : WordCommand} (hwd : server.Worded)
    (hfits : command.Fits rules server) : (command.run rules server).Worded := by
  cases command with
  | mode uid params =>
    rcases params with - | ⟨chan, - | ⟨modes, args⟩⟩
    · exact hwd
    · exact hwd
    · have hkeeps : Server.KeepsWords fun server =>
          server.userChanMode rules uid chan (toAsciiLower chan) :=
        fun _ _ _ _ _ _ hfit happ _ hchan => worded_userChanMode hchan hfit happ
      simp only [run, Server.applyMode]
      split
      · split
        · exact hwd
        · exact .cull (.relayChanges (hkeeps.loop _ _ ⟨server, args, []⟩ hwd hfits)
            uid chan) _
      · exact hwd
  | samode uid params =>
    rcases params with - | ⟨chan, - | ⟨modes, args⟩⟩
    · exact hwd
    · exact hwd
    · have hkeeps : Server.KeepsWords fun server =>
          server.sudoChanMode uid chan (toAsciiLower chan) :=
        fun _ _ _ _ _ _ hfit happ _ hchan => worded_sudoChanMode hchan hfit happ
      simp only [run, Server.samode]
      split
      · exact .cull (.relayChanges (hkeeps.loop _ _ ⟨server, args, []⟩ hwd hfits) uid chan) _
      · exact hwd
  | tban uid params =>
    rcases params with - | ⟨chan, - | ⟨duration, - | ⟨mask, rest⟩⟩⟩
    · exact hwd
    · exact hwd
    · exact hwd
    · simp only [run, Server.tban]
      split
      · split
        · exact hwd
        · split
          · exact hwd
          · split
            · exact hwd
            · refine Server.Worded.propagateChanMode (hwd.changeChannel ?_) _ _ _ _
              exact fun _ hbef => hbef.addMask hfits
      · exact hwd

end WordCommand

inductive WordRun (start : Server) : Server → Prop
  | refl : WordRun start start
  | step {middle : Server} (hrun : WordRun start middle) (rules : ModeRules)
      (command : WordCommand) (hfits : command.Fits rules middle) :
      WordRun start (command.run rules middle)

theorem stored_words {start last : Server} (hsta : start.Worded) (hrun : WordRun start last) :
    ∀ key channel, last.channels.lookup key = some channel →
      (∀ value ∈ channel.modes.values, IsToken value) ∧
        ∀ kind, ∀ ban ∈ channel.lists kind, IsToken ban.mask := by
  have hlast : last.Worded := by
    induction hrun with
    | refl => exact hsta
    | step _ _ _ hfits ih => exact WordCommand.worded_run ih hfits
  exact fun key channel hchan =>
    ⟨(hlast key channel hchan).values, (hlast key channel hchan).masks⟩

theorem worded_opServer : opServer.Worded := by
  refine Table.forall_lookup_iff.mpr fun pair hpair => ?_
  obtain rfl := mem_singleton.mp hpair
  exact ⟨by rintro _ ⟨⟩, by rintro _ ⟨⟩, by rintro _ _ ⟨⟩⟩

theorem stored_words_ban :
    let last := WordCommand.run {} (.mode 1 ["#c", "+bk", "x", "secret"]) opServer
    ∀ key channel, last.channels.lookup key = some channel →
      (∀ value ∈ channel.modes.values, IsToken value) ∧
        ∀ kind, ∀ ban ∈ channel.lists kind, IsToken ban.mask := by
  refine stored_words worded_opServer (.step .refl {} _ ⟨?_, trivial, trivial⟩)
  rintro - mask ⟨⟩
  decide

/-- A mask with a blank, an empty one, and a channel with a blank are stored as they are. -/
theorem stored_blank :
    opServer.Worded ∧
      ¬ (opServer.applyMode {} 1 ["#c", "+b", "a b"]).Worded ∧
      ¬ (opServer.tban 1 ["#c", "60", "a b"]).Worded ∧
      ¬ (opServer.applyMode {} 1 ["#c", "+g", ""]).Worded ∧
      ¬ (opServer.applyMode {} 1 ["#c", "+L", "#x y"]).Worded := by
  refine ⟨worded_opServer, ?_, ?_, ?_, ?_⟩ <;> intro hwd
  · have hban := (hwd "#c" _ rfl).masks .ban _ mem_cons_self
    exact absurd hban (by decide +kernel)
  · have hban := (hwd "#c" _ rfl).masks .ban _ mem_cons_self
    exact absurd hban (by decide +kernel)
  · have hword := (hwd "#c" _ rfl).masks .filter _ mem_cons_self
    exact absurd hword (by decide +kernel)
  · have htgt := (hwd "#c" _ rfl).redirect "#x y" rfl
    exact absurd htgt (by decide)

end EchoIrcd
