import EchoIrcd.Lib.Lines
import EchoIrcd.Authority
import Mathlib.Data.List.Sort

/-!
# Permanent channels on disk

`permchannels.rs` writes every channel with `+P` to a text file and makes it
again when the server starts: a header line, then for each channel its name and
creation time, its modes with their parameters, its topic and its lists, one
line each.  The rendered modes are applied like a MODE of the server itself to a
fresh channel.
-/

namespace EchoIrcd

open Str

/-! ## Modes with their parameters -/

inductive ParamMode where
  | key
  | limit
  | flood
  | joinflood
  | nickflood
  | slowmode
  | redirect
  | history
  | anticaps
  | kicknorejoin
  | delaymsg
  | repeatLines
  deriving DecidableEq, Repr

def renderFlood (flood : MsgFlood) : Str :=
  (if flood.ban then ['*'] else []) ++ renderRate ⟨flood.lines, flood.secs⟩

namespace ParamMode

def all : List ParamMode :=
  [key, limit, flood, joinflood, nickflood, slowmode, redirect, history, anticaps, kicknorejoin,
    delaymsg, repeatLines]

def letter : ParamMode → Char
  | key => 'k'
  | limit => 'l'
  | flood => 'f'
  | joinflood => 'j'
  | nickflood => 'F'
  | slowmode => 'W'
  | redirect => 'L'
  | history => 'H'
  | anticaps => 'B'
  | kicknorejoin => 'J'
  | delaymsg => 'd'
  | repeatLines => 'K'

def value (modes : ChanModes) : ParamMode → Option Str
  | key => modes.key
  | limit => modes.limit.map renderU32
  | flood => modes.flood.map renderFlood
  | joinflood => modes.joinflood.map renderRate
  | nickflood => modes.nickflood.map renderRate
  | slowmode => modes.slowmode.map renderRate
  | redirect => modes.redirect
  | history => modes.history.map fun (lines, secs) => renderU32 lines ++ ':' :: renderU64 secs
  | anticaps => modes.anticaps.map fun percent => Str.ofNat percent.toNat
  | kicknorejoin => modes.kicknorejoin.map renderU32
  | delaymsg => modes.delaymsg.map renderU32
  | repeatLines => modes.repeatLines.map renderU32

end ParamMode

namespace ChanModes

def values (modes : ChanModes) : List Str := ParamMode.all.filterMap (ParamMode.value modes)

def renderParams (modes : ChanModes) : Str := modes.render ++ modes.values.flatMap (' ' :: ·)

end ChanModes

/-! ## Saving -/

def ListKind.stored : List ListKind := [.ban, .except, .invex, .filter, .exemptChanOps, .autoOp]

namespace Channel

def headerLine (channel : Channel) : Str :=
  'C' :: ' ' :: channel.name ++ ' ' :: renderU64 channel.created

def modesLine (channel : Channel) : Str := 'M' :: ' ' :: channel.modes.renderParams

def topicLines (channel : Channel) : List Str :=
  match channel.topic with
  | none => []
  | some topic =>
    if topic.text = [] then []
    else ['T' :: ' ' :: renderU64 topic.ts ++ ' ' :: topic.setter ++ ' ' :: ':' :: topic.text]

def listLine (kind : ListKind) (ban : Ban) : Str :=
  kind.letter :: ' ' :: renderU64 ban.ts ++ ' ' :: ban.setter ++ ' ' :: ban.mask

def listLines (channel : Channel) : List Str :=
  ListKind.stored.flatMap fun kind =>
    ((channel.lists kind).filter fun ban => ban.expires.isNone).map (listLine kind)

def detailLines (channel : Channel) : List Str :=
  channel.modesLine :: (channel.topicLines ++ channel.listLines)

end Channel

namespace Server

def permanents (server : Server) : List Channel :=
  (((Table.toPairs server.channels).map Prod.snd).filter fun channel =>
    channel.modes.flags .permanent).insertionSort fun left right => left.name ≤ right.name

def storeHeader : Str :=
  "# echoircd permanent channels — auto-generated; manual edits are overwritten".toList

def serialize (server : Server) : Str :=
  if server.permanents = [] then []
  else Lines.unlines '\n' (storeHeader ::
    server.permanents.flatMap fun channel => channel.headerLine :: channel.detailLines)

end Server

/-! ## Loading -/

def chomp (line : Str) : Str := if line.getLast? = some '\r' then line.dropLast else line

/-- `str::lines`: a last line without an end is left as it is. -/
def textLines (text : Str) : List Str :=
  (Lines.cut '\n' text).1.map chomp ++
    if (Lines.cut '\n' text).2 = [] then [] else [(Lines.cut '\n' text).2]

/-- One channel while its lines are read. -/
structure Record where
  name : Str
  created : Timestamp
  modes : Str := []
  topic : Option Topic := none
  lists : List (ListKind × Ban) := []

/-- `splitn(3, ' ')` if it gives three parts, the first of them a timestamp. -/
def stampedFields (rest : Str) : Option (Timestamp × Str × Str) := do
  let (ts, rest) ← splitOnce ' ' rest
  let (setter, text) ← splitOnce ' ' rest
  let ts ← parseU64 ts
  some (ts, setter, text)

def ListKind.ofTag (tag : Str) : Option ListKind := ListKind.stored.find? fun kind => [kind.letter] = tag

def stripColon : Str → Str
  | ':' :: text => text
  | text => text

def Record.accumulate (record : Record) (tag rest : Str) : Record :=
  if tag = ['M'] then { record with modes := rest }
  else if tag = ['T'] then
    match stampedFields rest with
    | some (ts, setter, text) => { record with topic := some ⟨stripColon text, setter, ts⟩ }
    | none => record
  else
    match ListKind.ofTag tag, stampedFields rest with
    | some kind, some (ts, setter, mask) =>
      { record with lists := record.lists ++ [(kind, ⟨mask, setter, ts, none⟩)] }
    | _, _ => record

def dedupMasks : List Str → List Ban → List Ban
  | _, [] => []
  | seen, ban :: rest =>
    if ban.mask ∈ seen then dedupMasks seen rest
    else ban :: dedupMasks (ban.mask :: seen) rest

namespace Server

def applyModesStep (name key : Str) (state : Server × List Str) (entry : Bool × Char) :
    Server × List Str :=
  match chanMode state.1.conf.prefixes entry.2 with
  | none => state
  | some mode =>
    let param := if mode.wantsParam entry.1 then state.2.head? else none
    let args := if mode.wantsParam entry.1 then state.2.tail else state.2
    match state.1.applyChanMode name key mode entry.1 param with
    | none => (state.1, args)
    | some (change, _) => (state.1.changeChannel key change, args)

def applyModes (name key modes : Str) (server : Server) : Server :=
  match words modes with
  | [] => server
  | letters :: args =>
    ((signedLetters true letters).foldl (applyModesStep name key) (server, args)).1

def bareChannel (record : Record) : Channel :=
  { Channel.new record.created record.name with
    topic := record.topic
    lists := fun kind =>
      dedupMasks [] ((record.lists.filter fun entry => entry.1 = kind).map Prod.snd) }

def build (server : Server) (record : Record) : Server :=
  let key := toAsciiLower record.name
  if record.name = [] ∨ key ∈ server.channels then server
  else
    (applyModes record.name key record.modes
      { server with channels := server.channels.insert key (bareChannel record) }).changeChannel key
      (Channel.withModes (ChanModes.setFlag .permanent true))

def buildLast (state : Server × Option Record) : Server :=
  match state.2 with
  | some record => state.1.build record
  | none => state.1

def newRecord (server : Server) (rest : Str) : Record where
  name := (words rest).head?.getD []
  created := ((words rest)[1]?.bind parseU64).getD server.clock

def loadLine (state : Server × Option Record) (line : Str) : Server × Option Record :=
  if line = [] ∨ line.head? = some '#' then state
  else
    match splitOnce ' ' line with
    | none => state
    | some (tag, rest) =>
      if tag = ['C'] then (buildLast state, some ((buildLast state).newRecord rest))
      else (state.1, state.2.map fun record => record.accumulate tag rest)

def loadText (text : Str) (server : Server) : Server :=
  buildLast ((textLines text).foldl loadLine (server, none))

end Server

end EchoIrcd
