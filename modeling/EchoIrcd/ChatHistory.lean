import EchoIrcd.Chat

/-!
# CHATHISTORY

The replayable backlog of `chathistory.rs`.  A conversation is a ring of
messages and channel events, capped in number and with an id of its own for
every entry.  CHATHISTORY picks a stretch of the ring by a selector and a limit;
the `+H` backlog replays the newest entries to someone who joins.  Events are
left out for a client that did not ask for them.
-/

namespace EchoIrcd

open Str List

/-! ## The ring -/

/-- A stored message, or with `raw` a channel event in its wire form. -/
structure HistEntry where
  ts : Timestamp
  msgid : Str
  mask : Str
  verb : Str
  target : Str
  text : Str
  raw : Option Str := none
  deriving DecidableEq, Repr

namespace HistEntry

def isEvent (entry : HistEntry) : Bool := entry.raw.isSome

def visible (playback : Bool) (entry : HistEntry) : Bool := !entry.isEvent || playback

end HistEntry

def HistMsg.entry (message : HistMsg) : HistEntry :=
  ⟨message.ts, message.msgid, message.mask, message.kind.word, message.target, message.text, none⟩

def historyLimit (conf : ChatConf) : Nat := max 1 (min conf.chathistoryLimit 100000)

/-- A capped buffer whose entries can be told apart by their ids. -/
structure Conversation (cap : Nat) where
  entries : List HistEntry
  distinct : (entries.map HistEntry.msgid).Nodup
  bounded : entries.length ≤ cap

namespace Conversation

variable {cap : Nat}

def empty : Conversation cap := ⟨[], by simp, by simp⟩

def record (entry : HistEntry) (conversation : Conversation cap)
    (hfre : entry.msgid ∉ conversation.entries.map HistEntry.msgid) : Conversation cap where
  entries :=
    let buffer := conversation.entries ++ [entry]
    buffer.drop (buffer.length - cap)
  distinct := by
    have hnd : ((conversation.entries ++ [entry]).map HistEntry.msgid).Nodup := by
      rw [map_append, nodup_append]
      refine ⟨conversation.distinct, by simp, ?_⟩
      intro id hid other ho
      rw [map_singleton, mem_singleton] at ho
      rintro rfl
      exact hfre (ho ▸ hid)
    exact hnd.sublist ((drop_sublist _ _).map _)
  bounded := by
    simp only [length_drop, length_append]
    omega

def forget (msgid : Str) (conversation : Conversation cap) : Conversation cap where
  entries := conversation.entries.filter (·.msgid ≠ msgid)
  distinct := conversation.distinct.sublist (filter_sublist.map _)
  bounded := (length_filter_le _ _).trans conversation.bounded

end Conversation

/-! ## Selectors -/

def stripPrefix (front text : Str) : Option Str :=
  if front.isPrefixOf text then some (text.drop front.length) else none

def toInt64 : Str → Option Int
  | '-' :: digits =>
    if digits.head? = some '+' then none
    else (toNatBelow (2 ^ 63 + 1) digits).map fun number => -Int.ofNat number
  | text => (toNatBelow (2 ^ 63) text).map Int.ofNat

def parseIso (text : Str) : Option Timestamp := do
  let (date, time) ← splitOnce 'T' text
  let fields := date.splitOn '-'
  let year ← fields.head?.bind toInt64
  let month ← fields[1]?.bind toInt64
  let day ← fields[2]?.bind toInt64
  let clock ← ((time.reverse.dropWhile (· = 'Z')).reverse.splitOn '.').head?
  let parts := clock.splitOn ':'
  let hour ← parts.head?.bind toInt64
  let minute ← parts[1]?.bind toInt64
  let second ← toInt64 (parts[2]?.getD ['0'])
  if 0 ≤ year ∧ year ≤ 9999 ∧ 1 ≤ month ∧ month ≤ 12 ∧ 1 ≤ day ∧ day ≤ 31 ∧
      0 ≤ hour ∧ hour ≤ 23 ∧ 0 ≤ minute ∧ minute ≤ 59 ∧ 0 ≤ second ∧ second ≤ 60 then
    let shifted := if month ≤ 2 then year - 1 else year
    let era := (if 0 ≤ shifted then shifted else shifted - 399) / 400
    let yearOfEra := shifted - era * 400
    let march := if 2 < month then month - 3 else month + 9
    let dayOfYear := (153 * march + 2) / 5 + day - 1
    let dayOfEra := yearOfEra * 365 + yearOfEra / 4 - yearOfEra / 100 + dayOfYear
    let days := era * 146097 + dayOfEra - 719468
    some (UInt64.ofNat (days * 86400 + hour * 3600 + minute * 60 + second).toNat)
  else none

def refIdx (selector : Str) (buffer : List HistEntry) : Option Nat :=
  (stripPrefix "msgid=" selector).bind fun id => buffer.findIdx? (·.msgid = id)

def refTs (selector : Str) : Option Timestamp :=
  (stripPrefix "timestamp=" selector).bind parseIso

def idxOf (selector : Str) (buffer : List HistEntry) : Option Nat :=
  match stripPrefix "msgid=" selector with
  | some id => buffer.findIdx? (·.msgid = id)
  | none => (refTs selector).bind fun bound => buffer.findIdx? (bound ≤ ·.ts)

/-! ## The command -/

inductive HistorySub where
  | before
  | after
  | around
  | between
  | latest
  deriving DecidableEq, Repr

def HistorySub.parse (sub : Str) : HistorySub :=
  if sub = "BEFORE" then .before
  else if sub = "AFTER" then .after
  else if sub = "AROUND" then .around
  else if sub = "BETWEEN" then .between
  else .latest

def pick (sub : HistorySub) (selector selector2 : Str) (limit : Nat) (buffer : List HistEntry) :
    List HistEntry :=
  match sub with
  | .before =>
    let stop := (refIdx selector buffer).getD
      (buffer.findIdx ((refTs selector).getD (UInt64.ofNat (2 ^ 64 - 1)) ≤ ·.ts))
    (buffer.take stop).drop (stop - limit)
  | .after =>
    let start := match refIdx selector buffer with
      | some index => index + 1
      | none => buffer.findIdx ((refTs selector).getD 0 < ·.ts)
    (buffer.drop start).take limit
  | .around =>
    let centre := (idxOf selector buffer).getD (buffer.length / 2)
    (buffer.drop (centre - limit / 2)).take limit
  | .between =>
    let left := (idxOf selector buffer).getD 0
    let right := (idxOf selector2 buffer).getD buffer.length
    let low := min left right
    let high := max left right
    ((buffer.drop (low + 1)).take (high - (low + 1))).take limit
  | .latest =>
    let start := match refIdx selector buffer, refTs selector with
      | some index, _ => index + 1
      | none, some bound => buffer.findIdx (bound < ·.ts)
      | none, none => 0
    buffer.drop (start + (buffer.length - start - limit))

inductive HistoryReply where
  /-- conversations with something in the window, and when -/
  | targets (found : List (Str × Timestamp))
  /-- the entries of one conversation -/
  | batch (target : Str) (entries : List HistEntry)
  deriving DecidableEq, Repr

/-- The limit of a request: 50 if there is none, and never more than the ring holds. -/
def requestLimit (cap : Nat) (param : Option Str) : Nat :=
  max 1 (min ((param.bind (toNatBelow (2 ^ 64))).getD 50) cap)

/-- CHATHISTORY TARGETS: the newest entry in the window of each conversation of the client. -/
def historyTargets (server : Server) (uid : Uid) (nick : Str) (low high : Timestamp)
    (limit : Nat) (history : Table Str (List HistEntry)) : List (Str × Timestamp) :=
  let found := (Table.toPairs history).filterMap fun (key, buffer) =>
    (buffer.reverse.find? fun entry => low ≤ entry.ts ∧ entry.ts ≤ high).bind fun newest =>
      if key.head? = some '#' then
        if server.isMember uid key then
          some ((buffer.getLast?.map HistEntry.target).getD key, newest.ts)
        else none
      else
        match (stripPrefix ['\x00'] key).map (·.splitOn '\x00') with
        | some [left, right] =>
          if left = nick ∨ right = nick then
            some (if left = nick then right else left, newest.ts)
          else none
        | _ => none
  let sorted := found.mergeSort fun left right => left.2 ≤ right.2
  sorted.drop (sorted.length - limit)

/-- The conversation a request is about: a channel, or the client's with another nick. -/
def conversationKey (nick target : Str) : Str :=
  if target.head? = some '#' then toAsciiLower target else Chat.dmKey nick target

def chathistory (conf : ChatConf) (history : Table Str (List HistEntry)) (playback : Bool)
    (server : Server) (uid : Uid) (params : List Str) : Option HistoryReply :=
  match params with
  | sub :: target :: selector :: fourth :: rest =>
    let cap := historyLimit conf
    let sub := toAsciiUpper sub
    let nick := (server.users.lookup uid).elim [] User.nick
    if sub = "TARGETS" then
      let left := (refTs target).getD 0
      let right := (refTs selector).getD (UInt64.ofNat (2 ^ 64 - 1))
      some (.targets (historyTargets server uid (toAsciiLower nick) (min left right)
        (max left right) (requestLimit cap (some fourth)) history))
    else
      let key := conversationKey nick target
      let sub := HistorySub.parse sub
      let limit := requestLimit cap (if sub = .between then rest.head? else some fourth)
      let buffer := (history.lookup key).getD []
      let picked := if target.head? ≠ some '#' || server.isMember uid key then
          pick sub selector fourth limit buffer
        else []
      some (.batch target (picked.filter (HistEntry.visible playback)))
  | _ => none

def replayChanhistory (history : Table Str (List HistEntry)) (playback : Bool) (server : Server)
    (key : Str) : List HistEntry :=
  match (server.channels.lookup key).bind (·.modes.history) with
  | none => []
  | some (lines, secs) =>
    let cutoff := if 0 < secs then Server.saturatingSub server.clock secs else 0
    let recent := ((history.lookup key).getD []).filter fun entry =>
      cutoff ≤ entry.ts && entry.visible playback
    recent.drop (recent.length - lines.toNat)

end EchoIrcd
