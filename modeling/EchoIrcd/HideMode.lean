import EchoIrcd.LinkChannels
import EchoIrcd.ModeRelay

/-!
# Hidden modes

`hidemode.rs` takes the changes of configured modes out of the MODE lines of members below
a rank.  Its filter stands in `apply_mode`; every other place that announces a mode change
to a channel writes one line for all members.  Of such a line the mode string is kept, its
source and its parameters are not.
-/

namespace EchoIrcd

open Str Server List

variable {changes : List ModeChange} {key : Str} {entry : Bool × Char} {setter uid : Uid}
  {rank : Uid → Nat} {loop : UserModeLoop}

def rankValue (name : Str) : Nat :=
  let name := toAsciiLower name
  if name ∈ [("owner" : Str), "founder", "q"] then 50
  else if name ∈ [("admin" : Str), "protect", "a"] then 40
  else if name ∈ [("halfop" : Str), "h"] then 20
  else if name ∈ [("voice" : Str), "v"] then 10
  else 30

/-- `hidden_rank` over the `hidemode` lines of the configuration. -/
def hiddenRank (hide : List Str) (letter : Char) : Option Nat :=
  hide.findSome? fun line =>
    match words line with
    | mode :: rank :: _ => if mode.head? = some letter then some (rankValue rank) else none
    | _ => none

structure SeenMode where
  stage : Server
  key : Str
  setter : Option Uid
  reader : Uid
  modes : Str

def SeenMode.Leaks (hide : List Str) (seen : SeenMode) : Prop :=
  seen.setter ≠ some seen.reader ∧ seen.stage.isOper seen.reader = false ∧
    ∃ entry ∈ signedLetters true seen.modes, ∃ need, hiddenRank hide entry.2 = some need ∧
      seen.stage.rank seen.reader seen.key < need

namespace Server

/-! ## The lines -/

section

variable (hide : List Str) (key : Str)

def membersOf (server : Server) : List Uid :=
  ((server.channels.lookup key).map fun channel => channel.members.keys).getD []

def toChannel (setter : Option Uid) (key modes : Str) (server : Server) : List SeenMode :=
  (server.membersOf key).map fun reader => ⟨server, key, setter, reader, modes⟩

def visible (privileged : Bool) (rank : Nat) (changes : List ModeChange) : List ModeChange :=
  changes.filter fun change =>
    match hiddenRank hide change.letter with
    | none => true
    | some need => privileged || decide (need ≤ rank)

/-- `broadcast` of `hidemode.rs`, with the ranks that `rank` gives. -/
def broadcast (setter : Uid) (rank : Uid → Nat) (changes : List ModeChange)
    (server : Server) : List SeenMode :=
  (server.membersOf key).filterMap fun reader =>
    let seen := visible hide (reader = setter || server.isOper reader) (rank reader) changes
    if seen = [] then none
    else some ⟨server, key, some setter, reader, emit none (seen.map ModeChange.entry)⟩

def announce (uid : Uid) (rank : Uid → Nat) (loop : UserModeLoop) : List SeenMode :=
  if loop.changes = [] then []
  else if loop.changes.any fun change => (hiddenRank hide change.letter).isSome then
    loop.server.broadcast hide key uid rank loop.changes
  else
    loop.server.toChannel (some uid) key (emit none (loop.changes.map ModeChange.entry))

def modeLines (rules : ModeRules) (uid : Uid) (params : List Str)
    (server : Server) : List SeenMode :=
  match params with
  | chan :: modes :: args =>
    let key := toAsciiLower chan
    let loop := server.userModeLoop rules uid chan modes args
    if chan.head? = some '#' ∧ key ∈ server.channels ∧
        ¬ ((!server.pureListQuery modes args || sensitiveView modes) = true ∧
          server.rank uid key < rankHalfop) then
      announce hide key uid (fun reader => loop.server.rank reader key) loop
    else []
  | _ => []

def samodeLines (rules : ModeRules) (uid : Uid) (params : List Str)
    (server : Server) : List SeenMode :=
  match params with
  | chan :: modes :: args =>
    let key := toAsciiLower chan
    if server.isOper uid ∧ chan.head? = some '#' ∧ key ∈ server.channels then
      announce hide key uid (fun _ => 50)
        (((signedLetters true modes).take (max rules.modes 1)).foldl
          (modeStep (fun server => server.sudoChanMode uid chan key) key)
          { server := server, args := args })
    else []
  | _ => []

def svsLines (chan modes : Str) (args : List Str) (server : Server) : List SeenMode :=
  let key := toAsciiLower chan
  let loop := (signedLetters true modes).foldl (svsChanModeStep chan key)
    { server := server, args := args }
  if key ∈ server.channels ∧ loop.applied ≠ [] then
    loop.server.toChannel none key (emit none loop.applied)
  else []

def tbanLines (uid : Uid) (params : List Str) (server : Server) : List SeenMode :=
  match params with
  | chan :: duration :: mask :: _ =>
    let key := toAsciiLower chan
    if rankHalfop ≤ server.rank uid key ∧
        ((parseDuration duration).filter (0 < ·)).isSome ∧
        ¬ (server.channels.lookup key).any fun channel =>
          (channel.lists .ban).any (·.mask = normalizeBanMask mask) then
      (server.tban uid params).toChannel (some uid) key "+b"
    else []
  | _ => []

def expireLines (mask : Str) (server : Server) : List SeenMode :=
  (server.changeChannel key
    (Channel.setList .ban (filter (·.mask ≠ mask)))).toChannel none key "-b"

end

def operPrefixLines (uid : Uid) (on : Bool) (key : Str) (server : Server) : List SeenMode :=
  if ((server.channels.lookup key).bind (·.members.lookup uid)).any (·.prefixes .oper ≠ on) then
    (server.setOperPrefix uid on key).toChannel none key [if on then '+' else '-', 'y']
  else []

def linkModeLines (via : Uid) (message : Message) (server : Server) : List SeenMode :=
  match message.source, message.params,
    message.params.drop (if message.command = "FMODE" then 2 else 1) with
  | some source, chan :: _ :: _, modes :: _ =>
    let key := toAsciiLower chan
    if server.sourceBehind source via ∧ chan.head? = some '#' ∧
        (server.channels.lookup key).any (!staleFmode message ·) then
      (server.linkModeRecv via message).toChannel none key modes
    else []
  | _, _, _ => []

/-- The status that is sent again behind the PART and JOIN of a user with a new host. -/
def cycledStatus (member : Member) : Str :=
  ([.owner, .admin, .op, .halfop, .voice].filter member.prefixes).map Prefix.letter

/-- A new host, for the members without the `chghost` capability. -/
def cycleLines (chghost : Uid → Bool) (memberIn : Channel → Option Member) (keys : List Str)
    (server : Server) : List SeenMode :=
  keys.flatMap fun key =>
    match server.channels.lookup key with
    | none => []
    | some channel =>
      let status := ((memberIn channel).map cycledStatus).getD []
      if status = [] then []
      else (channel.members.keys.filter fun reader => !chghost reader).map fun reader =>
        ⟨server, key, none, reader, '+' :: status⟩

/-- The member has no status with a hidden letter in any channel. -/
def Unveiled (hide : List Str) (memberIn : Channel → Option Member) (server : Server) : Prop :=
  ∀ key, ∀ channel ∈ server.channels.lookup key, ∀ member ∈ memberIn channel,
    ∀ held, held ≠ Prefix.oper → member.prefixes held → hiddenRank hide held.letter = none

end Server

/-- What announces a change of modes to a channel. -/
inductive ModeEvent where
  | mode (rules : ModeRules) (uid : Uid) (params : List Str)
  | samode (rules : ModeRules) (uid : Uid) (params : List Str)
  | authority (chan modes : Str) (args : List Str)
  | tban (uid : Uid) (params : List Str)
  | expire (key mask : Str)
  | operPrefix (uid : Uid) (on : Bool) (key : Str)
  | remote (via : Uid) (message : Message)
  /-- A remote user joins with a status. -/
  | status (key letters : Str)
  /-- A user gets another host or ident; `chghost` tells who is sent CHGHOST instead. -/
  | newHost (chghost : Uid → Bool) (uid : Uid)
  | remoteNewHost (chghost : Uid → Bool) (uuid : Str)

namespace ModeEvent

def lines (hide : List Str) (server : Server) : ModeEvent → List SeenMode
  | mode rules uid params => server.modeLines hide rules uid params
  | samode rules uid params => server.samodeLines hide rules uid params
  | authority chan modes args => server.svsLines chan modes args
  | tban uid params => server.tbanLines uid params
  | expire key mask => server.expireLines key mask
  | operPrefix uid on key => server.operPrefixLines uid on key
  | remote via message => server.linkModeLines via message
  | status key letters => server.toChannel none key ('+' :: letters)
  | newHost chghost uid =>
    server.cycleLines (fun reader => reader = uid || chghost reader) (·.members.lookup uid)
      (server.channelsOf uid)
  | remoteNewHost chghost uuid =>
    server.cycleLines chghost (·.rmembers.lookup uuid) server.channels.keys

def written : ModeEvent → Str
  | samode _ _ (_ :: modes :: _) => modes
  | authority _ modes _ => modes
  | tban _ _ => "+b"
  | expire _ _ => "-b"
  | operPrefix _ on _ => [if on then '+' else '-', 'y']
  | remote _ message =>
    ((message.params.drop (if message.command = "FMODE" then 2 else 1)).head?).getD []
  | status _ letters => '+' :: letters
  | _ => []

/-- Only MODE changes a mode that is hidden, and whoever gets another host has no status
that is. -/
def Discreet (hide : List Str) (server : Server) : ModeEvent → Prop
  | newHost _ uid => server.Unveiled hide (·.members.lookup uid)
  | remoteNewHost _ uuid => server.Unveiled hide (·.rmembers.lookup uuid)
  | event => ∀ entry ∈ signedLetters true event.written, hiddenRank hide entry.2 = none

end ModeEvent

/-! ## Who sees what -/

theorem mem_of_shown {changes : List (Bool × Char)}
    (hent : entry ∈ signedLetters true (emit none changes)) :
    ∃ change ∈ changes, change.2 = entry.2 := by
  obtain ⟨hlet, hplus, hminus⟩ := mem_signedLetters hent
  rcases mem_emit hlet with heq | heq | hchg
  · exact absurd heq hplus
  · exact absurd heq hminus
  · exact hchg

section Lines

variable {hide : List Str} {server : Server} {seen : SeenMode}

theorem SeenMode.not_leaks_of_open
    (hopen : ∀ entry ∈ signedLetters true seen.modes, hiddenRank hide entry.2 = none) :
    ¬ seen.Leaks hide := by
  rintro ⟨-, -, entry, hent, need, hneed, -⟩
  rw [hopen entry hent] at hneed
  cases hneed

theorem not_leaks_toChannel {setter : Option Uid} {modes : Str}
    (hopen : ∀ entry ∈ signedLetters true modes, hiddenRank hide entry.2 = none)
    (hseen : seen ∈ server.toChannel setter key modes) : ¬ seen.Leaks hide := by
  obtain ⟨reader, -, rfl⟩ := mem_map.mp hseen
  exact SeenMode.not_leaks_of_open hopen

theorem not_leaks_cycleLines {chghost : Uid → Bool} {memberIn : Channel → Option Member}
    {keys : List Str} (hopen : server.Unveiled hide memberIn)
    (hseen : seen ∈ server.cycleLines chghost memberIn keys) : ¬ seen.Leaks hide := by
  obtain ⟨key, -, hseen⟩ := mem_flatMap.mp hseen
  split at hseen
  · cases hseen
  · rename_i channel hchan
    dsimp only at hseen
    split at hseen
    · cases hseen
    · obtain ⟨reader, -, rfl⟩ := mem_map.mp hseen
      refine SeenMode.not_leaks_of_open fun entry hent => ?_
      obtain ⟨hlet, hplus, -⟩ := mem_signedLetters hent
      rcases mem_cons.mp hlet with heq | hlet
      · exact absurd heq hplus
      cases hmb : memberIn channel with
      | none =>
        rw [hmb] at hlet
        cases hlet
      | some member =>
        rw [hmb, Option.map_some, Option.getD_some, cycledStatus] at hlet
        obtain ⟨held, hheld, hs⟩ := mem_map.mp hlet
        obtain ⟨hmem, hhas⟩ := mem_filter.mp hheld
        rw [← hs]
        refine hopen key channel hchan member hmb held ?_ hhas
        rintro rfl
        exact absurd hmem (by decide)

theorem mem_broadcast (hseen : seen ∈ server.broadcast hide key setter rank changes) :
    ∃ reader, seen = ⟨server, key, some setter, reader, emit none
      ((visible hide (reader = setter || server.isOper reader) (rank reader) changes).map
        ModeChange.entry)⟩ := by
  obtain ⟨reader, -, hrdr⟩ := mem_filterMap.mp hseen
  dsimp only at hrdr
  split at hrdr
  · cases hrdr
  · exact ⟨reader, (Option.some.inj hrdr).symm⟩

theorem mem_changes_of_shown
    (hent : entry ∈ signedLetters true (emit none (changes.map ModeChange.entry))) :
    ∃ change ∈ changes, change.letter = entry.2 := by
  obtain ⟨pair, hpair, hlet⟩ := mem_of_shown hent
  obtain ⟨change, hchg, rfl⟩ := mem_map.mp hpair
  exact ⟨change, hchg, hlet⟩

theorem not_leaks_broadcast
    (hseen : seen ∈ server.broadcast hide key setter (fun reader => server.rank reader key) changes) : ¬ seen.Leaks hide := by
  obtain ⟨reader, rfl⟩ := mem_broadcast hseen
  rintro ⟨hset, hoper, entry, hent, need, hneed, hrank⟩
  obtain ⟨change, hchg, hlet⟩ := mem_changes_of_shown hent
  have hsees := (mem_filter.mp hchg).2
  have hne : reader ≠ setter := fun heq => hset (congrArg some heq.symm)
  rw [hlet, hneed] at hsees
  simp only at hoper hrank
  simp [hne, hoper] at hsees
  omega

theorem shown_announce (hseen : seen ∈ announce hide key uid rank loop) :
    ∀ entry ∈ signedLetters true seen.modes, ∃ change ∈ loop.changes,
      change.letter = entry.2 := by
  intro entry hent
  unfold announce at hseen
  split at hseen
  · cases hseen
  · split at hseen
    · obtain ⟨reader, rfl⟩ := mem_broadcast hseen
      obtain ⟨change, hchg, hlet⟩ := mem_changes_of_shown hent
      exact ⟨change, mem_of_mem_filter hchg, hlet⟩
    · obtain ⟨reader, -, rfl⟩ := mem_map.mp hseen
      exact mem_changes_of_shown hent

theorem not_leaks_announce
    (hseen : seen ∈ announce hide key uid (fun reader => loop.server.rank reader key) loop) : ¬ seen.Leaks hide := by
  by_cases hopen : loop.changes.any fun change => (hiddenRank hide change.letter).isSome
  · unfold announce at hseen
    split at hseen
    · cases hseen
    · exact not_leaks_broadcast hseen
  · refine SeenMode.not_leaks_of_open fun entry hent => ?_
    obtain ⟨change, hchg, hlet⟩ := shown_announce hseen entry hent
    rw [Bool.not_eq_true, any_eq_false] at hopen
    rw [← hlet]
    simpa using hopen change hchg

/-- A loop that logs, in each round, what it had and items of the round's own. -/
theorem mem_of_foldl {σ α β : Type} {step : σ → α → σ} {log : σ → List β} {item : β → α}
    (hstep : ∀ state next, ∀ found ∈ log (step state next), found ∈ log state ∨ item found = next)
    {items : List α} {start : σ} (hsta : log start = []) {found : β}
    (hf : found ∈ log (items.foldl step start)) : item found ∈ items := by
  refine foldlRecOn (motive := fun state => ∀ found ∈ log state, item found ∈ items)
    items step (by simp [hsta]) ?_ found hf
  intro state hstate next hnext found hf
  rcases hstep state next found hf with hold | hitem
  · exact hstate found hold
  · exact hitem ▸ hnext

theorem mem_modeStep (apply : Server → ChanMode → Bool → Option Str → Applied) (key : Str)
    (loop : UserModeLoop) (entry : Bool × Char) :
    ∀ change ∈ (modeStep apply key loop entry).changes,
      change ∈ loop.changes ∨ change.entry = entry := by
  unfold modeStep
  split
  · exact fun _ => .inl
  · dsimp only
    split
    · exact fun _ => .inl
    · intro change hchg
      exact (mem_append.mp hchg).imp_right fun hnew => by rw [mem_singleton.mp hnew]; rfl

theorem mem_svsChanModeStep (chan key : Str) (loop : ModeLoop) (entry : Bool × Char) :
    ∀ applied ∈ (svsChanModeStep chan key loop entry).applied,
      applied ∈ loop.applied ∨ applied = entry := by
  unfold svsChanModeStep
  split
  · exact fun _ => .inl
  · dsimp only
    split
    · exact fun _ => .inl
    · exact fun applied happl => (mem_append.mp happl).imp_right mem_singleton.mp

theorem ModeEvent.not_leaks {event : ModeEvent} (hdis : event.Discreet hide server)
    (hseen : seen ∈ event.lines hide server) : ¬ seen.Leaks hide := by
  cases event with
  | mode rules uid params =>
    rcases params with - | ⟨chan, - | ⟨modes, args⟩⟩
    · cases hseen
    · cases hseen
    · exact not_leaks_announce (mem_ite_nil_right.mp hseen).2
  | samode rules uid params =>
    rcases params with - | ⟨chan, - | ⟨modes, args⟩⟩
    · cases hseen
    · cases hseen
    · refine SeenMode.not_leaks_of_open fun entry hent => ?_
      obtain ⟨change, hchg, hlet⟩ :=
        shown_announce (mem_ite_nil_right.mp hseen).2 entry hent
      have hwr := mem_of_foldl (mem_modeStep _ _) rfl hchg
      rw [← hlet]
      exact hdis _ (mem_of_mem_take hwr)
  | authority chan modes args =>
    refine not_leaks_toChannel (fun entry hent => ?_) (mem_ite_nil_right.mp hseen).2
    obtain ⟨applied, happl, hlet⟩ := mem_of_shown hent
    rw [← hlet]
    exact hdis applied (@mem_of_foldl _ _ _ _ _ id (mem_svsChanModeStep _ _) _ _ rfl _ happl)
  | tban uid params =>
    rcases params with - | ⟨chan, - | ⟨duration, - | ⟨mask, rest⟩⟩⟩
    · cases hseen
    · cases hseen
    · cases hseen
    · exact not_leaks_toChannel hdis (mem_ite_nil_right.mp hseen).2
  | expire key mask => exact not_leaks_toChannel hdis hseen
  | operPrefix uid on key =>
    exact not_leaks_toChannel hdis (mem_ite_nil_right.mp hseen).2
  | remote via message =>
    simp only [lines, linkModeLines] at hseen
    split at hseen
    · rename_i hmds
      refine not_leaks_toChannel ?_ (mem_ite_nil_right.mp hseen).2
      simpa only [Discreet, written, hmds, head?_cons, Option.getD_some] using hdis
    · cases hseen
  | status key letters => exact not_leaks_toChannel hdis hseen
  | newHost chghost uid => exact not_leaks_cycleLines hdis hseen
  | remoteNewHost chghost uuid => exact not_leaks_cycleLines hdis hseen

end Lines

/-! ## Runs -/

/-- The lines of a run, in which anything else may happen between two events. -/
inductive ModeLog (hide : List Str) : Server → List SeenMode → Prop
  | start (server : Server) : ModeLog hide server []
  | event {server : Server} {log : List SeenMode} (hlog : ModeLog hide server log)
      {event : ModeEvent} (hdis : event.Discreet hide server) (after : Server) :
      ModeLog hide after (log ++ event.lines hide server)

theorem hidden_from_lower {hide : List Str} {server : Server} {log : List SeenMode}
    (hlog : ModeLog hide server log) : ∀ seen ∈ log, ¬ seen.Leaks hide := by
  induction hlog with
  | start => exact fun seen hseen => absurd hseen not_mem_nil
  | event _ hdis _ ih =>
    intro seen hseen
    rcases mem_append.mp hseen with hold | hnew
    · exact ih seen hold
    · exact ModeEvent.not_leaks hdis hnew

theorem hidden_from_lower_ban :
    let log := ModeEvent.lines ["b op"] opServer (.mode {} 1 ["#c", "+bm", "x"])
    log.map (fun seen => (seen.reader, seen.modes)) = [(1, ("+bm" : Str)), (2, ("+m" : Str))] ∧
      ∀ seen ∈ log, ¬ seen.Leaks ["b op"] :=
  ⟨by decide +kernel, hidden_from_lower
    (.event (.start opServer)
      (show ModeEvent.Discreet _ _ (.mode {} 1 ["#c", "+bm", "x"]) by rintro _ ⟨⟩) opServer)⟩

/-- A grant of the server and a timed ban go to everybody. -/
theorem hidden_mode_shown :
    (∃ seen ∈ ModeEvent.lines ["b op"] opServer (.authority "#c" "+b" ["x"]),
      seen.Leaks ["b op"]) ∧
    ∃ seen ∈ ModeEvent.lines ["b op"] opServer (.tban 1 ["#c", "60", "x"]),
      seen.Leaks ["b op"] := by
  refine ⟨⟨_, mem_cons_of_mem _ mem_cons_self, by decide, by decide +kernel,
      (true, 'b'), by decide +kernel, 30, by decide +kernel, by decide +kernel⟩,
    ⟨_, mem_cons_of_mem _ mem_cons_self, by decide, by decide +kernel,
      (true, 'b'), by decide +kernel, 30, by decide +kernel, by decide +kernel⟩⟩

end EchoIrcd
