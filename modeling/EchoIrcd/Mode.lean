import EchoIrcd.Users

/-!
# Channel mode handlers

The registry of `mode.rs` as server authority uses it: `mode_sudo` is set and
the acting uid is the sentinel 0, so that no rank or oper check of the local
MODE command applies.  A handler that applies yields the change of the channel
and the parameter to echo; one that does not leaves everything alone.
-/

namespace EchoIrcd

open Str Channel

variable {change : Channel → Channel} {echo : Option Str}

def eqIgnoreAsciiCase (left right : Str) : Bool :=
  toAsciiLower left = toAsciiLower right

/-! ## Mode parameters -/

def parseRate (param : Str) : Option Rate := do
  let (count, secs) ← splitOnce ':' param
  let count ← parseU32 count
  let secs ← parseU64 secs
  if 0 < count ∧ 0 < secs then some ⟨count, secs⟩ else none

def parseSlow (param : Str) : Option Rate :=
  if ':' ∈ param then parseRate param
  else do
    let secs ← parseU64 param
    if 0 < secs then some ⟨1, secs⟩ else none

def saturatingMul (left right : UInt64) : UInt64 :=
  if left.toNat * right.toNat < 2 ^ 64 then left * right
  else UInt64.ofNat (2 ^ 64 - 1)

def parseDuration (text : Str) : Option UInt64 :=
  if text = [] ∨ text = "0" then some 0
  else do
    let last ← text.getLast?
    if last.isDigit then parseU64 text
    else
      let number ← parseU64 text.dropLast
      let unit ← match last with
        | 's' => some 1
        | 'm' => some 60
        | 'h' => some 3600
        | 'd' => some 86400
        | 'w' => some 604800
        | _ => none
      some (saturatingMul number unit)

def shortDuration (secs : UInt64) : Str :=
  if secs = 0 then "0"
  else
    match [((604800 : UInt64), 'w'), (86400, 'd'), (3600, 'h'),
      (60, 'm')].find? fun entry => secs % entry.1 = 0 with
    | some (size, unit) => renderU64 (secs / size) ++ [unit]
    | none => renderU64 secs

def renderRate (rate : Rate) : Str :=
  renderU32 rate.count ++ ':' :: renderU64 rate.secs

def parseCapped (cap : UInt32) (param : Option Str) : Option UInt32 := do
  let number ← param.bind parseU32
  if 1 ≤ number then some (min number cap) else none

def normalizeMask (mask : Str) : Str :=
  match decide ('!' ∈ mask), decide ('@' ∈ mask) with
  | true, true => mask
  | false, true => "*!" ++ mask
  | true, false => mask ++ "@*"
  | false, false => mask ++ "!*@*"

def normalizeBanMask (mask : Str) : Str :=
  match mask with
  | kind :: ':' :: value =>
    if kind.isAlpha then
      if kind ∈ ("agyrjsGbC" : Str) then mask
      else kind :: ':' :: normalizeMask value
    else normalizeMask mask
  | _ => normalizeMask mask

/-! ## The registry -/

inductive ChanMode where
  | status (letter : Char) (rank : Nat)
  | flag (flag : ChanFlag)
  | secureOnly
  | encrypted
  | key
  | limit
  | chanHistory
  | list (kind : ListKind)
  | msgFlood
  | joinFlood
  | nickFlood
  | slowMode
  | redirect
  | anticaps
  | kickNoRejoin
  | delayMsg
  | repeatLines
  deriving DecidableEq, Repr

def chanMode (config : PrefixConfig) (letter : Char) : Option ChanMode :=
  match letter with
  | 'q' => some (.status 'q' 50)
  | 'a' => some (.status 'a' 40)
  | 'o' => some (.status 'o' 30)
  | 'h' => some (.status 'h' 20)
  | 'v' => some (.status 'v' 10)
  | 'b' => some (.list .ban)
  | 'e' => some (.list .except)
  | 'I' => some (.list .invex)
  | 'k' => some .key
  | 'l' => some .limit
  | 'W' => some .slowMode
  | 'z' => some .secureOnly
  | 'E' => some .encrypted
  | 'g' => some (.list .filter)
  | 'f' => some .msgFlood
  | 'j' => some .joinFlood
  | 'F' => some .nickFlood
  | 'L' => some .redirect
  | 'H' => some .chanHistory
  | 'B' => some .anticaps
  | 'J' => some .kickNoRejoin
  | 'd' => some .delayMsg
  | 'K' => some .repeatLines
  | 'X' => some (.list .exemptChanOps)
  | 'w' => some (.list .autoOp)
  | _ =>
    match ChanFlag.ofLetter letter with
    | some flag => some (.flag flag)
    | none => (config.defForLetter letter).map fun custom =>
      .status letter custom.rank

def ChanMode.wantsParam (adding : Bool) : ChanMode → Bool
  | .status _ _ | .key | .list _ => true
  | .flag _ | .secureOnly | .encrypted => false
  | _ => adding

namespace PrefixConfig

def rankToSet (config : PrefixConfig) (letter : Char) : Option Nat :=
  match Prefix.ofLetter letter with
  | some held => config.builtinRankToSet held
  | none => (config.defForLetter letter).map PrefixDef.rankToSet

def rankToUnset (config : PrefixConfig) (letter : Char) : Option Nat :=
  match Prefix.ofLetter letter with
  | some held => config.builtinRankToUnset held
  | none => (config.defForLetter letter).map PrefixDef.rankToUnset

/-- The rank a change of the prefix asks for; by default that of the prefix. -/
def rankNeeded (config : PrefixConfig) (letter : Char) (adding : Bool)
    (rank : Nat) : Nat :=
  (if adding then config.rankToSet letter else config.rankToUnset letter).getD rank

def canDepriv (config : PrefixConfig) (letter : Char) : Bool :=
  match Prefix.ofLetter letter with
  | some held => config.builtinDepriv held
  | none => match config.defForLetter letter with
      | some custom => custom.depriv
      | none => true

end PrefixConfig

/-! ## Applying a handler with server authority -/

abbrev Applied := Option ((Channel → Channel) × Option Str)

def Channel.withModes (change : ChanModes → ChanModes) (channel : Channel) :
    Channel :=
  { channel with modes := change channel.modes }

def setMode (change : ChanModes → ChanModes) (echo : Option Str) : Applied :=
  some (withModes change, echo)

def applyParam {α : Type} (adding : Bool) (parsed : Option α)
    (store : Option α → ChanModes → ChanModes) (echo : α → Str) : Applied :=
  if adding then parsed.bind fun value =>
    setMode (store (some value)) (some (echo value))
  else setMode (store none) none

def Channel.setList (kind : ListKind) (change : List Ban → List Ban)
    (channel : Channel) : Channel :=
  { channel with
    lists := Function.update channel.lists kind (change (channel.lists kind)) }

def ListKind.normalizes : ListKind → Bool
  | .ban | .except | .invex => true
  | _ => false

def ListKind.normalize (kind : ListKind) (mask : Str) : Str :=
  if kind.normalizes then normalizeBanMask mask else mask

namespace Server

def membersAll (server : Server) (key : Str) (test : User → Bool) : Bool :=
  match server.channels.lookup key with
  | some channel => (Table.toPairs channel.members).all fun entry =>
    match server.users.lookup entry.1 with
    | some user => test user
    | none => false
  | none => true

def applyStatus (server : Server) (key : Str) (letter : Char) (rank : Nat)
    (adding : Bool) (param : Option Str) : Applied := do
  let config := server.conf.prefixes
  let nick ← param
  let target ← server.findNick nick
  let channel ← server.channels.lookup key
  let member ← channel.members.lookup target
  if !adding ∧ target = 0 ∧ !config.canDepriv letter then none
  else
    if 50 < config.rankNeeded letter adding rank ∨ 50 < member.rank config then
      none
    else some (fun channel => { channel with
      members := Table.modify target (Member.setPrefix config letter adding)
        channel.members }, some nick)

def applyList (server : Server) (key : Str) (kind : ListKind) (adding : Bool)
    (param : Option Str) : Applied := do
  let mask ← param
  let mask := kind.normalize mask
  let channel ← server.channels.lookup key
  let present := (channel.lists kind).any fun ban =>
    eqIgnoreAsciiCase ban.mask mask
  if adding then
    if present then none
    else some (setList kind (· ++ [⟨mask, [], server.clock, none⟩]), some mask)
  else if present then
    some (setList kind (List.filter fun ban => !eqIgnoreAsciiCase ban.mask mask), some mask)
  else none

/-- `apply` under `mode_sudo` for the uid 0. -/
def applyChanMode (server : Server) (chan key : Str) (mode : ChanMode)
    (adding : Bool) (param : Option Str) : Applied :=
  match mode with
  | .status letter rank => server.applyStatus key letter rank adding param
  | .flag flag => setMode (ChanModes.setFlag flag adding) none
  | .secureOnly =>
    if adding ∧ !server.membersAll key User.secure then none
    else setMode (ChanModes.setFlag .secureOnly adding) none
  | .encrypted =>
    if adding ∧ !server.membersAll key User.e2e then none
    else setMode (ChanModes.setFlag .encrypted adding) none
  | .key =>
    if adding then do
      let word ← param
      if word ≠ [] ∧ ' ' ∉ word ∧ ',' ∉ word ∧ ':' ∉ word then
        setMode (fun modes => { modes with key := some word }) (some word)
      else none
    else setMode (fun modes => { modes with key := none }) (some "*")
  | .limit =>
    applyParam adding
      ((param.bind parseU32).filter fun number => 0 < number)
      (fun value modes => { modes with limit := value }) renderU32
  | .chanHistory =>
    applyParam adding
      (param.bind fun text =>
        let parts := (splitOnce ':' text).getD (text, "0")
        ((parseU32 parts.1).filter fun lines => 0 < lines).map fun lines =>
          (min lines 256, (parseDuration parts.2).getD 0))
      (fun value modes => { modes with history := value })
      fun value => renderU32 value.1 ++ ':' :: shortDuration value.2
  | .list kind => server.applyList key kind adding param
  | .msgFlood =>
    applyParam adding
      (param.bind fun text =>
        let ban := text.head? = some '*'
        (parseRate (if ban then text.tail else text)).map fun rate =>
          (MsgFlood.mk rate.count rate.secs ban, text))
      (fun value modes => { modes with flood := value.map Prod.fst })
      Prod.snd
  | .joinFlood =>
    applyParam adding (param.bind parseRate)
      (fun value modes => { modes with joinflood := value }) renderRate
  | .nickFlood =>
    applyParam adding (param.bind parseRate)
      (fun value modes => { modes with nickflood := value }) renderRate
  | .slowMode =>
    applyParam adding (param.bind parseSlow)
      (fun value modes => { modes with slowmode := value }) renderRate
  | .redirect =>
    applyParam adding
      (param.filter fun target =>
        target.head? = some '#' ∧ !eqIgnoreAsciiCase target chan)
      (fun value modes => { modes with redirect := value }) id
  | .anticaps =>
    applyParam adding
      (((param.bind parseU8).filter fun percent => 1 ≤ percent).map
        fun percent => min percent 100)
      (fun value modes => { modes with anticaps := value })
      fun percent => Str.ofNat percent.toNat
  | .kickNoRejoin =>
    applyParam adding (parseCapped 3600 param)
      (fun value modes => { modes with kicknorejoin := value }) renderU32
  | .delayMsg =>
    applyParam adding (parseCapped 3600 param)
      (fun value modes => { modes with delaymsg := value }) renderU32
  | .repeatLines =>
    applyParam adding (parseCapped 20 param)
      (fun value modes => { modes with repeatLines := value }) renderU32

end Server

/-! ## What a handler can do -/

theorem setMode_eq_some {store : ChanModes → ChanModes} {said : Option Str}
    (happ : setMode store said = some (change, echo)) :
    change = withModes store ∧ echo = said := by
  cases happ
  exact ⟨rfl, rfl⟩

theorem applyParam_cases {α : Type} {adding : Bool} {parsed : Option α}
    {store : Option α → ChanModes → ChanModes} {render : α → Str}
    (happ : applyParam adding parsed store render = some (change, echo)) :
    ∃ value, change = withModes (store value) ∧ echo = value.map render ∧
      value.isSome = adding ∧ ∀ found ∈ value, parsed = some found := by
  cases adding with
  | false =>
    cases happ
    exact ⟨none, rfl, rfl, rfl, by simp⟩
  | true =>
    obtain ⟨value, hprs, happ⟩ := Option.bind_eq_some_iff.mp happ
    cases happ
    exact ⟨some value, rfl, rfl, rfl, by simpa using hprs⟩

theorem Server.applyKey_cases {server : Server} {chan key : Str} {adding : Bool}
    {param : Option Str}
    (happ : server.applyChanMode chan key .key adding param = some (change, echo)) :
    (∃ word ∈ param, (word ≠ [] ∧ ' ' ∉ word ∧ ',' ∉ word ∧ ':' ∉ word) ∧ adding = true ∧
        change = withModes (fun modes => { modes with key := some word }) ∧
        echo = some word) ∨
      adding = false ∧ change = withModes (fun modes => { modes with key := none }) ∧
        echo = some "*".toList := by
  simp only [applyChanMode] at happ
  split at happ
  · rename_i hadd
    obtain ⟨word, hword, happ⟩ := Option.bind_eq_some_iff.mp happ
    split at happ <;> cases happ
    rename_i hok
    exact .inl ⟨word, hword, hok, hadd, rfl, rfl⟩
  · rename_i hadd
    cases happ
    exact .inr ⟨by simpa using hadd, rfl, rfl⟩

inductive ChanEdit : ChanMode → (Channel → Channel) → Prop where
  | status (letter : Char) (rank : Nat) (target : Uid) (change : Member → Member) :
      ChanEdit (.status letter rank) fun channel =>
        { channel with members := Table.modify target change channel.members }
  | list (kind : ListKind) (change : List Ban → List Ban) :
      ChanEdit (.list kind) (setList kind change)
  | modes {mode : ChanMode} (hst : ∀ letter rank, mode ≠ .status letter rank)
      (hlist : ∀ kind, mode ≠ .list kind) (store : ChanModes → ChanModes) :
      ChanEdit mode (withModes store)

theorem Server.applyChanMode_edit {server : Server} {chan key : Str} {mode : ChanMode}
    {adding : Bool} {param : Option Str}
    (happ : server.applyChanMode chan key mode adding param = some (change, echo)) :
    ChanEdit mode change := by
  cases mode with
  | status letter rank =>
    simp only [applyChanMode, applyStatus, Option.bind_eq_bind, Option.bind_eq_some_iff] at happ
    obtain ⟨nick, -, target, -, found, -, member, -, happ⟩ := happ
    split at happ
    · cases happ
    · split at happ
      · cases happ
      · cases happ
        exact .status ..
  | list kind =>
    simp only [applyChanMode, applyList, Option.bind_eq_bind, Option.bind_eq_some_iff] at happ
    obtain ⟨mask, -, found, -, happ⟩ := happ
    split at happ
    · split at happ
      · cases happ
      · cases happ
        exact .list ..
    · split at happ
      · cases happ
        exact .list ..
      · cases happ
  | flag flag =>
    obtain ⟨rfl, -⟩ := setMode_eq_some happ
    exact .modes (by simp) (by simp) _
  | secureOnly | encrypted =>
    simp only [applyChanMode] at happ
    split at happ
    · cases happ
    · obtain ⟨rfl, -⟩ := setMode_eq_some happ
      exact .modes (by simp) (by simp) _
  | key =>
    obtain ⟨_, -, -, -, rfl, -⟩ | ⟨-, rfl, -⟩ := applyKey_cases happ <;>
      exact .modes (by simp) (by simp) _
  | _ =>
    simp only [applyChanMode] at happ
    obtain ⟨value, rfl, -⟩ := applyParam_cases happ
    exact .modes (by simp) (by simp) _

end EchoIrcd
