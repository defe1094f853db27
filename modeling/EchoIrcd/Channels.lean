import EchoIrcd.Lib.Table
import EchoIrcd.Message
import Mathlib.Data.Fintype.Pi
import Mathlib.Data.Fintype.List

/-!
# Channels

The channel record of `channels.rs`: members with their status prefixes, the
boolean and parametric modes, the six mask lists, the topic and the creation
timestamp.  The boolean modes and the built-in prefixes are functions from an
enumeration of the source's fields, so that the letter tables of
`set_by_letter`, `render`, `set_prefix` and `mode_letters` are each written
once.  The rate counters a channel keeps for its own flood modes are neither
rendered nor sent to a peer and are left out.
-/

namespace EchoIrcd

open Str

abbrev Uid := Nat

abbrev Timestamp := UInt64

/-! ## Status prefixes -/

inductive Prefix where
  | oper
  | owner
  | admin
  | op
  | halfop
  | voice
  deriving DecidableEq, Repr

def Prefix.all : List Prefix := [.oper, .owner, .admin, .op, .halfop, .voice]

instance : Fintype Prefix :=
  Fintype.ofList Prefix.all fun held => by cases held <;> decide

def Prefix.letter : Prefix → Char
  | .oper => 'y'
  | .owner => 'q'
  | .admin => 'a'
  | .op => 'o'
  | .halfop => 'h'
  | .voice => 'v'

def Prefix.ofLetter : Char → Option Prefix
  | 'y' => some .oper
  | 'q' => some .owner
  | 'a' => some .admin
  | 'o' => some .op
  | 'h' => some .halfop
  | 'v' => some .voice
  | _ => none

def Prefix.rank : Prefix → Nat
  | .oper => 60
  | .owner => 50
  | .admin => 40
  | .op => 30
  | .halfop => 20
  | .voice => 10

structure PrefixDef where
  letter : Char
  rank : Nat
  rankToSet : Nat
  rankToUnset : Nat
  depriv : Bool
  deriving DecidableEq, Repr

theorem noCustomDefs_solid :
    ∀ custom ∈ ([] : List PrefixDef), isWhitespace custom.letter = false := by
  simp

/--
The prefix configuration: custom letters, and overrides for built-in ones.  A
custom letter is read off a whitespace-separated configuration line.
-/
structure PrefixConfig where
  customDefs : List PrefixDef := []
  customDefs_solid : ∀ custom ∈ customDefs, isWhitespace custom.letter = false :=
    by exact noCustomDefs_solid
  builtinRankToSet : Prefix → Option Nat := fun _ => none
  builtinRankToUnset : Prefix → Option Nat := fun _ => none
  builtinDepriv : Prefix → Bool := fun _ => true

def PrefixConfig.defForLetter (config : PrefixConfig) (letter : Char) :
    Option PrefixDef :=
  config.customDefs.find? (·.letter = letter)

structure Member where
  prefixes : Prefix → Bool := fun _ => false
  customPrefixes : List Char := []
  deriving DecidableEq

def Member.setPrefix (config : PrefixConfig) (letter : Char) (on : Bool)
    (member : Member) : Member :=
  match Prefix.ofLetter letter with
  | some held =>
    { member with prefixes := Function.update member.prefixes held on }
  | none =>
    if (config.defForLetter letter).isSome then
      let others := member.customPrefixes.filter (· ≠ letter)
      { member with
        customPrefixes := if on then others ++ [letter] else others }
    else member

/-- Only the standard status modes go: `y` and the custom prefixes stay. -/
def Member.clearStatus (member : Member) : Member :=
  { member with prefixes := fun held => held = .oper && member.prefixes held }

def Member.modeLetters (config : PrefixConfig) (member : Member) : Str :=
  (Prefix.all.filter member.prefixes).map Prefix.letter ++
    member.customPrefixes.filter fun letter =>
      (config.defForLetter letter).isSome

theorem Member.modeLetters_solid (config : PrefixConfig) (member : Member)
    {letter : Char} (hlet : letter ∈ member.modeLetters config) :
    isWhitespace letter = false := by
  rcases List.mem_append.mp hlet with hbuiltin | hcustom
  · obtain ⟨held, _, rfl⟩ := List.mem_map.mp hbuiltin
    cases held <;> decide
  · rw [List.mem_filter, Option.isSome_iff_exists] at hcustom
    obtain ⟨_, custom, hf⟩ := hcustom
    have hlet : custom.letter = letter := by
      simpa using List.find?_some hf
    rw [← hlet]
    exact config.customDefs_solid custom (List.mem_of_find?_eq_some hf)

def Member.builtinRank (member : Member) : Nat :=
  match Prefix.all.find? member.prefixes with
  | some held => held.rank
  | none => 0

def Member.rank (config : PrefixConfig) (member : Member) : Nat :=
  member.customPrefixes.foldl
    (fun rank letter => match config.defForLetter letter with
      | some custom => max rank custom.rank
      | none => rank)
    member.builtinRank

/-! ## Modes -/

/-- The boolean channel modes, in the order `render` lists them. -/
inductive ChanFlag where
  | registered
  | inviteOnly
  | moderated
  | noExternal
  | secret
  | topicOps
  | secureOnly
  | privateChan
  | operOnly
  | noNick
  | noCtcp
  | noNotice
  | noColor
  | stripColor
  | regOnly
  | regModerated
  | censor
  | auditorium
  | permanent
  | nokicks
  | allowinvite
  | opmoderated
  | delayjoin
  | encrypted
  deriving DecidableEq, Repr

namespace ChanFlag

def all : List ChanFlag :=
  [registered, inviteOnly, moderated, noExternal, secret, topicOps,
    secureOnly, privateChan, operOnly, noNick, noCtcp, noNotice, noColor,
    stripColor, regOnly, regModerated, censor, auditorium, permanent, nokicks,
    allowinvite, opmoderated, delayjoin, encrypted]

def letter : ChanFlag → Char
  | registered => 'r'
  | inviteOnly => 'i'
  | moderated => 'm'
  | noExternal => 'n'
  | secret => 's'
  | topicOps => 't'
  | secureOnly => 'z'
  | privateChan => 'p'
  | operOnly => 'O'
  | noNick => 'N'
  | noCtcp => 'C'
  | noNotice => 'T'
  | noColor => 'c'
  | stripColor => 'S'
  | regOnly => 'R'
  | regModerated => 'M'
  | censor => 'G'
  | auditorium => 'u'
  | permanent => 'P'
  | nokicks => 'Q'
  | allowinvite => 'A'
  | opmoderated => 'U'
  | delayjoin => 'D'
  | encrypted => 'E'

def ofLetter : Char → Option ChanFlag
  | 'm' => some moderated
  | 'n' => some noExternal
  | 't' => some topicOps
  | 'i' => some inviteOnly
  | 's' => some secret
  | 'z' => some secureOnly
  | 'p' => some privateChan
  | 'O' => some operOnly
  | 'N' => some noNick
  | 'C' => some noCtcp
  | 'T' => some noNotice
  | 'c' => some noColor
  | 'S' => some stripColor
  | 'R' => some regOnly
  | 'M' => some regModerated
  | 'G' => some censor
  | 'u' => some auditorium
  | 'Q' => some nokicks
  | 'A' => some allowinvite
  | 'P' => some permanent
  | 'U' => some opmoderated
  | 'D' => some delayjoin
  | 'E' => some encrypted
  | 'r' => some registered
  | _ => none

theorem mem_all (flag : ChanFlag) : flag ∈ all := by
  cases flag <;> decide

instance : Fintype ChanFlag := Fintype.ofList all mem_all

end ChanFlag

structure MsgFlood where
  lines : UInt32
  secs : UInt64
  ban : Bool
  deriving DecidableEq, Repr

structure Rate where
  count : UInt32
  secs : UInt64
  deriving DecidableEq, Repr

structure ChanModes where
  flags : ChanFlag → Bool := fun _ => false
  key : Option Str := none
  limit : Option UInt32 := none
  flood : Option MsgFlood := none
  joinflood : Option Rate := none
  nickflood : Option Rate := none
  slowmode : Option Rate := none
  redirect : Option Str := none
  history : Option (UInt32 × UInt64) := none
  anticaps : Option UInt8 := none
  kicknorejoin : Option UInt32 := none
  delaymsg : Option UInt32 := none
  repeatLines : Option UInt32 := none
  deriving DecidableEq

namespace ChanModes

def setFlag (flag : ChanFlag) (on : Bool) (modes : ChanModes) : ChanModes :=
  { modes with flags := Function.update modes.flags flag on }

def setByLetter (letter : Char) (on : Bool) (modes : ChanModes) : ChanModes :=
  match ChanFlag.ofLetter letter with
  | some flag => modes.setFlag flag on
  | none => modes

def paramLetters (modes : ChanModes) : Str :=
  [(modes.key.isSome, 'k'), (modes.limit.isSome, 'l'),
    (modes.flood.isSome, 'f'), (modes.joinflood.isSome, 'j'),
    (modes.nickflood.isSome, 'F'), (modes.slowmode.isSome, 'W'),
    (modes.redirect.isSome, 'L'), (modes.history.isSome, 'H'),
    (modes.anticaps.isSome, 'B'), (modes.kicknorejoin.isSome, 'J'),
    (modes.delaymsg.isSome, 'd'), (modes.repeatLines.isSome, 'K')].filterMap
    fun entry => if entry.1 then some entry.2 else none

/-- `render(false)`: the plus sign and every letter set. -/
def render (modes : ChanModes) : Str :=
  '+' :: ((ChanFlag.all.filter modes.flags).map ChanFlag.letter ++ modes.paramLetters)

end ChanModes

/-! ## The channel record -/

structure Topic where
  text : Str
  setter : Str
  ts : Timestamp
  deriving DecidableEq, Repr

structure Ban where
  mask : Str
  setter : Str
  ts : Timestamp
  expires : Option Timestamp := none
  deriving DecidableEq, Repr

inductive ListKind where
  | ban
  | except
  | invex
  | filter
  | exemptChanOps
  | autoOp
  deriving DecidableEq, Repr

def ListKind.letter : ListKind → Char
  | .ban => 'b'
  | .except => 'e'
  | .invex => 'I'
  | .filter => 'g'
  | .exemptChanOps => 'X'
  | .autoOp => 'w'

instance : Fintype ListKind :=
  Fintype.ofList [.ban, .except, .invex, .filter, .exemptChanOps, .autoOp]
    fun kind => by cases kind <;> decide

structure Channel where
  name : Str
  topic : Option Topic := none
  members : Table Uid Member := ∅
  rmembers : Table Str Member := ∅
  modes : ChanModes := {}
  lists : ListKind → List Ban := fun _ => []
  invites : List Uid := []
  created : Timestamp
  deriving DecidableEq

namespace Channel

def new (now : Timestamp) (name : Str) : Channel where
  name := name
  modes := (({} : ChanModes).setFlag .noExternal true).setFlag .topicOps true
  created := now

def isEmpty (channel : Channel) : Bool :=
  Table.isEmpty channel.members && Table.isEmpty channel.rmembers

def keepAlive (channel : Channel) : Bool :=
  !channel.isEmpty || channel.modes.flags .permanent ||
    channel.modes.flags .registered

theorem keepAlive_iff {channel : Channel} :
    channel.keepAlive = true ↔ (∃ uid, uid ∈ channel.members) ∨
      (∃ uuid, uuid ∈ channel.rmembers) ∨ channel.modes.flags .permanent = true ∨
        channel.modes.flags .registered = true := by
  simp only [keepAlive, isEmpty, Bool.or_eq_true, Bool.not_eq_true', Bool.and_eq_false_iff,
    Table.isEmpty_eq_false, or_assoc]

end Channel

end EchoIrcd
