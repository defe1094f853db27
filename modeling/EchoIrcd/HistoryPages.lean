import EchoIrcd.ChatHistory
import EchoIrcd.Lib.Paging

/-!
# Paging through a conversation

CHATHISTORY LATEST, BEFORE and AFTER cut a page out of the stored entries and
then leave out the events a client does not see.  An event inside the cut takes
the place of a message behind it: the page is shorter than asked for, or empty
while there is more to come, and a client that pages on stops early.
-/

namespace EchoIrcd

open Str List Option

variable {list : List HistEntry} {size : Nat} {following : Str} (walk : Walk)
  (buffer : List HistEntry)

inductive Walk where
  | latest
  | before
  | after
  deriving DecidableEq, Repr

namespace Walk

def sub : Walk → HistorySub
  | .latest => .latest
  | .before => .before
  | .after => .after

def word : Walk → Str
  | .latest => "LATEST"
  | .before => "BEFORE"
  | .after => "AFTER"

def beyond (walk : Walk) (selector : Str) (buffer : List HistEntry) : List HistEntry :=
  match walk, refIdx selector buffer, refTs selector with
  | .before, some index, _ => buffer.take index
  | _, some index, _ => buffer.drop (index + 1)
  | .before, none, bound =>
    buffer.takeWhile (·.ts < bound.getD (UInt64.ofNat (2 ^ 64 - 1)))
  | .after, none, bound => buffer.dropWhile (·.ts ≤ bound.getD 0)
  | .latest, none, some bound => buffer.dropWhile (·.ts ≤ bound)
  | .latest, none, none => buffer

def near (walk : Walk) (count : Nat) (list : List HistEntry) : List HistEntry :=
  match walk with
  | .after => list.take count
  | _ => list.rtake count

def far (walk : Walk) (count : Nat) (list : List HistEntry) : List HistEntry :=
  match walk with
  | .after => list.drop count
  | _ => list.rdrop count

theorem near_of_length_le {count : Nat}
    (hlen : list.length ≤ count) : walk.near count list = list := by
  have hzero : list.length - count = 0 := by omega
  cases walk <;> simp [near, rtake, hzero, hlen]

theorem filter_near_iff {shown : HistEntry → Bool} {count : Nat} :
    (walk.near count list).filter shown = walk.near count (list.filter shown) ↔
      (∀ entry ∈ walk.near count list, shown entry = true) ∨
        ∀ entry ∈ walk.far count list, shown entry = false := by
  cases walk with
  | after => exact Paging.filter_take_iff
  | before | latest => exact Paging.filter_rtake_iff

end Walk

open Walk

/-! ## The cut -/

theorem refIdx_lt {selector : Str} {buffer : List HistEntry} {index : Nat}
    (hidx : refIdx selector buffer = some index) : index < buffer.length := by
  obtain ⟨id, -, hf⟩ := bind_eq_some_iff.mp hidx
  exact (findIdx?_eq_some_iff_getElem.mp hf).1

theorem takeWhile_ts (bound : Timestamp) (buffer : List HistEntry) :
    buffer.takeWhile (·.ts < bound) = buffer.take (buffer.findIdx (bound ≤ ·.ts)) := by
  rw [takeWhile_eq_take_findIdx_not]
  simp only [← decide_not, UInt64.not_lt]

theorem dropWhile_ts (bound : Timestamp) (buffer : List HistEntry) :
    buffer.dropWhile (·.ts ≤ bound) = buffer.drop (buffer.findIdx (bound < ·.ts)) := by
  rw [dropWhile_eq_drop_findIdx_not]
  simp only [← decide_not, UInt64.not_le]

theorem Walk.beyond_suffix {walk : Walk} (hwalk : walk ≠ .before) (selector : Str)
    (buffer : List HistEntry) : walk.beyond selector buffer <:+ buffer := by
  unfold beyond
  split
  · contradiction
  · exact drop_suffix _ _
  · contradiction
  · exact dropWhile_suffix _
  · exact dropWhile_suffix _
  · exact suffix_rfl

theorem Walk.beyond_prefix (selector : Str) (buffer : List HistEntry) :
    before.beyond selector buffer <+: buffer := by
  simp only [beyond]
  split
  · exact take_prefix _ _
  · contradiction
  · exact takeWhile_prefix _
  all_goals contradiction

theorem Walk.beyond_length_le (selector : Str) (buffer : List HistEntry) :
    (walk.beyond selector buffer).length ≤ buffer.length := by
  by_cases hwalk : walk = .before
  · subst hwalk
    exact ( beyond_prefix selector buffer).length_le
  · exact (beyond_suffix hwalk selector buffer).length_le

theorem rtake_take {buffer : List HistEntry} {stop : Nat} (count : Nat)
    (hstop : stop ≤ buffer.length) :
    (buffer.take stop).rtake count = (buffer.take stop).drop (stop - count) := by
  rw [rtake, length_take, Nat.min_eq_left hstop]

theorem rtake_drop (start count : Nat) :
    (buffer.drop start).rtake count = buffer.drop (start + (buffer.length - start - count)) := by
  rw [rtake, length_drop, drop_drop]

theorem pick_eq (selector selector2 : Str) (count : Nat) (buffer : List HistEntry) :
    pick walk.sub selector selector2 count buffer =
      walk.near count (walk.beyond selector buffer) := by
  cases hidx : refIdx selector buffer with
  | some index =>
    have hlt := refIdx_lt hidx
    cases walk <;> simp only [sub, pick, near, beyond, hidx]
    case before => rw [getD_some, rtake_take _ (by omega)]
    case latest => rw [rtake_drop]
  | none =>
    cases walk <;> simp only [sub, pick, near, beyond, hidx]
    case before => rw [getD_none, takeWhile_ts, rtake_take _ findIdx_le_length]
    case after => rw [dropWhile_ts]
    case latest =>
      cases refTs selector with
      | some bound => simp only [dropWhile_ts, rtake_drop]
      | none => simp [rtake]

/-! ## A client and a conversation -/

structure Reading where
  conf : ChatConf
  history : Table Str (List HistEntry)
  playback : Bool
  server : Server
  uid : Uid
  target : Str
  conversation : Conversation (historyLimit conf)
  stored : (history.lookup (conversationKey ((server.users.lookup uid).elim [] User.nick)
    target)).getD [] = conversation.entries
  allowed : target.head? ≠ some '#' ∨
    server.isMember uid (conversationKey ((server.users.lookup uid).elim [] User.nick) target) = true

namespace Reading

variable {reading : Reading} {count : UInt64} {selector : Str}

def entries (reading : Reading) : List HistEntry := reading.conversation.entries

def answer (reading : Reading) (params : List Str) : List HistEntry :=
  match chathistory reading.conf reading.history reading.playback reading.server reading.uid
      params with
  | some (.batch _ entries) => entries
  | _ => []

section

variable (reading : Reading) (walk : Walk)

def fetch (count : UInt64) (selector : Str) : List HistEntry :=
  reading.answer [walk.word, reading.target, selector, renderU64 count]

def seen (reading : Reading) (list : List HistEntry) : List HistEntry :=
  list.filter (HistEntry.visible reading.playback)

theorem answer_eq (reading : Reading) (sub selector fourth : Str) (rest : List Str)
    (hsub : toAsciiUpper sub ≠ "TARGETS") :
    reading.answer (sub :: reading.target :: selector :: fourth :: rest) =
      reading.seen (pick (HistorySub.parse (toAsciiUpper sub)) selector fourth
        (requestLimit (historyLimit reading.conf)
          (if HistorySub.parse (toAsciiUpper sub) = .between then rest.head? else some fourth))
        reading.entries) := by
  have hall : (reading.target.head? ≠ some '#' || reading.server.isMember reading.uid
      (conversationKey ((reading.server.users.lookup reading.uid).elim [] User.nick)
        reading.target)) = true := by
    simpa using reading.allowed
  simp only [answer, chathistory, if_neg hsub, hall, if_true, reading.stored, seen, entries]

theorem historyLimit_pos (conf : ChatConf) : 1 ≤ historyLimit conf := Nat.le_max_left _ _

theorem near_requestLimit (hcnt : 1 ≤ count) (hlist : list.length ≤ historyLimit reading.conf) :
    walk.near (requestLimit (historyLimit reading.conf) (some (renderU64 count))) list =
      walk.near count.toNat list := by
  have hpos := historyLimit_pos reading.conf
  have hnat : 1 ≤ count.toNat := UInt64.le_iff_toNat_le.mp hcnt
  have hprm : toNatBelow (2 ^ 64) (renderU64 count) = some count.toNat :=
    toNatBelow_ofNat count.toNat_lt
  simp only [requestLimit, bind_some, hprm, getD_some]
  by_cases hle : count.toNat ≤ historyLimit reading.conf
  · rw [Nat.min_eq_left hle, Nat.max_eq_right hnat]
  · rw [Nat.min_eq_right (by omega), Nat.max_eq_right hpos, walk.near_of_length_le hlist,
      walk.near_of_length_le (by omega)]

theorem fetch_eq (hcnt : 1 ≤ count) (selector : Str) :
    reading.fetch walk count selector =
      reading.seen (walk.near count.toNat (walk.beyond selector reading.entries)) := by
  have hlen : (walk.beyond selector reading.entries).length ≤ historyLimit reading.conf :=
    (walk.beyond_length_le selector reading.entries).trans reading.conversation.bounded
  have hwds : toAsciiUpper walk.word ≠ "TARGETS" ∧
      HistorySub.parse (toAsciiUpper walk.word) = walk.sub ∧ walk.sub ≠ .between := by
    cases walk <;> decide
  rw [fetch, answer_eq reading walk.word selector _ [] hwds.1, hwds.2.1,
    if_neg hwds.2.2, pick_eq, near_requestLimit reading walk hcnt hlen]

def nearest (count : UInt64) (selector : Str) : List HistEntry :=
  walk.near count.toNat (reading.seen (walk.beyond selector reading.entries))

/-- No hidden entry stands among the next ones, or nothing is to be seen behind them. -/
def Clear (count : UInt64) (selector : Str) : Prop :=
  (∀ entry ∈ walk.near count.toNat (walk.beyond selector reading.entries),
      entry.visible reading.playback = true) ∨
    ∀ entry ∈ walk.far count.toNat (walk.beyond selector reading.entries),
      entry.visible reading.playback = false

end

theorem fetch_eq_nearest_iff (hcnt : 1 ≤ count) :
    reading.fetch walk count selector = reading.nearest walk count selector ↔
      reading.Clear walk count selector := by
  rw [fetch_eq reading walk hcnt]
  exact walk.filter_near_iff

/-! ## Cursors -/

def cursor (entry : HistEntry) : Str := "msgid=".toList ++ entry.msgid

/-- A page is followed by the one behind its newest entry, or before its oldest. -/
def newest (page : List HistEntry) : Option Str := page.getLast?.map cursor

def oldest (page : List HistEntry) : Option Str := page.head?.map cursor

theorem refIdx_cursor (reading : Reading) {front back : List HistEntry} {entry : HistEntry}
    (hents : reading.entries = front ++ entry :: back) :
    refIdx (cursor entry) reading.entries = some front.length := by
  have hstrip : stripPrefix "msgid=" (cursor entry) = some entry.msgid := by
    simp [stripPrefix, cursor]
  exact Paging.findIdx?_key reading.conversation.distinct hents

theorem seen_newest (hlist : list <:+ reading.entries)
    (hnext : newest ((reading.seen list).take size) = some following) :
    reading.seen (after.beyond following reading.entries) = (reading.seen list).drop size := by
  obtain ⟨entry, hlast, rfl⟩ := map_eq_some_iff.mp hnext
  obtain ⟨page, hpage⟩ := getLast?_eq_some_iff.mp hlast
  have hseen : reading.seen list = page ++ entry :: (reading.seen list).drop size := by
    rw [← singleton_append, ← append_assoc, ← hpage, take_append_drop]
  obtain ⟨front, back, hbeyond, -, hback⟩ := Paging.filter_eq_append_cons hseen
  obtain ⟨skipped, hskipped⟩ := hlist
  have hents : reading.entries = (skipped ++ front) ++ entry :: back := by
    rw [← hskipped, hbeyond, append_assoc]
  have hcut : after.beyond (cursor entry) reading.entries = back := by
    simp only [beyond, refIdx_cursor reading hents]
    rw [hents, drop_append]
    simp
  rw [hcut]
  exact hback

theorem seen_oldest (hlist : list <+: reading.entries)
    (hnext : oldest ((reading.seen list).rtake size) = some following) :
    reading.seen (before.beyond following reading.entries) = (reading.seen list).rdrop size := by
  obtain ⟨entry, hfst, rfl⟩ := map_eq_some_iff.mp hnext
  obtain ⟨page, hpage⟩ := head?_eq_some_iff.mp hfst
  have hseen : reading.seen list = (reading.seen list).rdrop size ++ entry :: page := by
    rw [← hpage, rdrop, rtake, take_append_drop]
  obtain ⟨front, back, hbeyond, hfront, -⟩ := Paging.filter_eq_append_cons hseen
  obtain ⟨skipped, hskipped⟩ := hlist
  have hents : reading.entries = front ++ entry :: (back ++ skipped) := by
    rw [← hskipped, hbeyond, append_assoc, cons_append]
  have hcut : before.beyond (cursor entry) reading.entries = front := by
    simp only [beyond, refIdx_cursor reading hents]
    rw [hents, take_left']
    rfl
  rw [hcut]
  exact hfront

theorem newest_eq_none (page : List HistEntry) : newest page = none ↔ page = [] := by
  simp [newest]

theorem oldest_eq_none (page : List HistEntry) : oldest page = none ↔ page = [] := by
  simp [oldest]

/-! ## Paging -/

def forward (reading : Reading) (count : UInt64) (selector : Str) : List HistEntry :=
  (Paging.pages (reading.fetch .after count) newest (reading.entries.length + 1) selector).flatten

def backward (reading : Reading) (count : UInt64) (selector : Str) : List HistEntry :=
  (Paging.pages (reading.fetch .before count) oldest (reading.entries.length + 1)
    selector).reverse.flatten

def backlog (reading : Reading) (count : UInt64) : List HistEntry :=
  let page := reading.fetch .latest count "*"
  (oldest page).elim [] (reading.backward count) ++ page

/-- Every page is right, and paging leaves nothing out. -/
structure Complete (reading : Reading) (count : UInt64) : Prop where
  nearest (walk : Walk) (selector : Str) :
    reading.fetch walk count selector = reading.nearest walk count selector
  forward (selector : Str) :
    reading.forward count selector = reading.seen (after.beyond selector reading.entries)
  backward (selector : Str) :
    reading.backward count selector = reading.seen (before.beyond selector reading.entries)
  backlog : reading.backlog count = reading.seen reading.entries

theorem seen_length_lt (selector : Str) :
    (reading.seen (walk.beyond selector reading.entries)).length < reading.entries.length + 1 := by
  have hfil : (reading.seen (walk.beyond selector reading.entries)).length ≤
      (walk.beyond selector reading.entries).length := length_filter_le _ _
  have hbeyond := walk.beyond_length_le selector reading.entries
  omega

theorem complete_of_nearest (hcnt : 1 ≤ count) (hnearest : ∀ walk selector,
      reading.fetch walk count selector = reading.nearest walk count selector) :
    reading.Complete count := by
  have hsize : 0 < count.toNat := UInt64.le_iff_toNat_le.mp hcnt
  have hbackward : ∀ selector, reading.backward count selector =
      reading.seen (before.beyond selector reading.entries) := by
    intro selector
    refine Paging.flatten_reverse_pages hsize (hnearest .before) oldest_eq_none ?_ _ selector
      (seen_length_lt .before selector)
    intro selector following hnext
    rw [hnearest] at hnext
    exact seen_oldest ( beyond_prefix selector reading.entries) hnext
  refine ⟨hnearest, ?_, hbackward, ?_⟩
  · intro selector
    refine Paging.flatten_pages hsize (hnearest .after) newest_eq_none ?_ _ selector
      (seen_length_lt .after selector)
    intro selector following hnext
    rw [hnearest] at hnext
    exact seen_newest (beyond_suffix (by decide) selector reading.entries) hnext
  · have hpage : reading.fetch .latest count "*" =
        (reading.seen reading.entries).rtake count.toNat := hnearest .latest "*"
    unfold backlog
    simp only [hpage]
    cases hnext : oldest ((reading.seen reading.entries).rtake count.toNat) with
    | none =>
      rw [oldest_eq_none, rtake, drop_eq_nil_iff] at hnext
      have hemp : reading.seen reading.entries = [] := length_eq_zero_iff.mp (by omega)
      simp [hemp]
    | some following =>
      rw [elim_some, hbackward, seen_oldest prefix_rfl hnext, rdrop, rtake, take_append_drop]

end Reading

/-- Pages are right and paging complete exactly if no hidden entry displaces a visible one. -/
theorem complete_iff (reading : Reading) (count : UInt64) (hcnt : 1 ≤ count) :
    reading.Complete count ↔ ∀ walk selector, reading.Clear walk count selector := by
  constructor
  · intro hcomplete walk selector
    exact (Reading.fetch_eq_nearest_iff walk hcnt).mp (hcomplete.nearest walk selector)
  · intro hclear
    apply Reading.complete_of_nearest hcnt
    intro walk selector
    exact (Reading.fetch_eq_nearest_iff walk hcnt).mpr (hclear walk selector)

/-! ## A message and an event -/

def greeting : HistEntry := ⟨10, "a-1", "bob!bob@host", "PRIVMSG", "#c", "hi", none⟩

def leaving : HistEntry :=
  ⟨11, "a-2", "bob!bob@host", "*", "#c", "", some ":bob!bob@host PART #c"⟩

def afterwards (playback : Bool) : Reading where
  conf := {}
  history := AList.insert "#c".toList [greeting, leaving] ∅
  playback := playback
  server :=
    { conf := { name := "a.test", sid := "1AA" }
      clock := 100
      channels := AList.insert "#c".toList
        { name := "#c", members := AList.insert 1 {} ∅, created := 1 } ∅ }
  uid := 1
  target := "#c"
  conversation := ⟨[greeting, leaving], by decide +kernel, by decide⟩
  stored := by decide +kernel
  allowed := by decide +kernel

theorem complete_iff_afterwards :
    (afterwards false).seen (afterwards false).entries ≠ (afterwards false).entries ∧
      (afterwards false).Complete 2 := by
  refine ⟨by decide, (complete_iff (afterwards false) 2 (by decide)).mpr fun walk selector => .inr ?_⟩
  have hlen : (walk.beyond selector (afterwards false).entries).length ≤ 2 :=
    walk.beyond_length_le selector _
  have hfar : walk.far 2 (walk.beyond selector (afterwards false).entries) = [] := by
    cases walk <;> simp [far, rdrop, hlen]
  simp [hfar]

theorem page_displaced :
    (afterwards false).fetch .latest 1 "*" = [] ∧ (afterwards false).backlog 1 = [] ∧
      (afterwards false).seen (afterwards false).entries = [greeting] := by
  decide +kernel

end EchoIrcd
