import EchoIrcd.HistoryPages

/-!
# CHATHISTORY BETWEEN

A selector of BETWEEN stands for a point in the conversation: a stored entry, a
time that may fall between entries, or one end if it resolves to nothing.  The
command works with one index for each selector and leaves out one entry at the
lower index.  This is right if exactly one entry stands at the earlier point,
and wrong for a time without an entry or with several, for an open start, and
for a first selector behind the last entry, which counts as the start.
-/

namespace EchoIrcd

open Str Reading List

/-- A place in a conversation. -/
inductive Point where
  | start
  | entry (index : Nat)
  | time (ts : Timestamp)
  | finish
  deriving DecidableEq, Repr

namespace Point

def below (item : HistEntry × Nat) : Point → Bool
  | .start => true
  | .entry index => index < item.2
  | .time ts => ts < item.1.ts
  | .finish => false

def above (item : HistEntry × Nat) : Point → Bool
  | .start => false
  | .entry index => item.2 < index
  | .time ts => item.1.ts < ts
  | .finish => true

def stands (item : HistEntry × Nat) : Point → Bool
  | .start | .finish => false
  | .entry index => item.2 = index
  | .time ts => item.1.ts = ts

/-- The point a selector stands for; `missing` if it resolves to nothing. -/
def ofSelector (missing : Point) (selector : Str) (buffer : List HistEntry) : Point :=
  match stripPrefix "msgid=" selector with
  | some id => (buffer.findIdx? (·.msgid = id)).elim missing .entry
  | none => (refTs selector).elim missing .time

def between (left right : Point) (buffer : List HistEntry) : List HistEntry :=
  (buffer.zipIdx.filter fun item => left.below item && right.above item ||
    right.below item && left.above item).map Prod.fst

/-- The entries at one point and in front of the other. -/
def marks (left right : Point) (buffer : List HistEntry) : List (HistEntry × Nat) :=
  buffer.zipIdx.filter fun item => left.stands item && right.above item ||
    right.stands item && left.above item

def front (point : Point) (buffer : List HistEntry) : List (HistEntry × Nat) :=
  buffer.zipIdx.filter (above · point)

/-! ## Points as positions -/

def before (buffer : List HistEntry) : Point → Nat
  | .start => 0
  | .entry index => index
  | .time ts => buffer.findIdx (ts ≤ ·.ts)
  | .finish => buffer.length

def upto (buffer : List HistEntry) : Point → Nat
  | .start => 0
  | .entry index => index + 1
  | .time ts => buffer.findIdx (ts < ·.ts)
  | .finish => buffer.length

variable {buffer : List HistEntry}

section

variable (hsrt : buffer.Pairwise (·.ts ≤ ·.ts)) {index : Nat}

include hsrt

theorem findIdx_le_iff (test : Timestamp → Bool)
    (hmono : ∀ early late : Timestamp, early ≤ late → test early = true → test late = true)
    (hidx : index < buffer.length) :
    buffer.findIdx (fun entry => test entry.ts) ≤ index ↔ test buffer[index].ts = true := by
  constructor
  · intro hle
    have hlt : buffer.findIdx (fun entry => test entry.ts) < buffer.length := by omega
    have hf : test (buffer[buffer.findIdx (fun entry => test entry.ts)]).ts = true :=
      findIdx_getElem (w := hlt)
    rcases Nat.lt_or_eq_of_le hle with hless | heq
    · apply hmono _ _ _ hf
      exact pairwise_iff_getElem.mp hsrt _ _ hlt hidx hless
    · simpa only [heq] using hf
  · intro htest
    by_contra hlt
    have hnot : test buffer[index].ts = false := not_of_lt_findIdx (Nat.lt_of_not_le hlt)
    rw [htest] at hnot
    cases hnot

theorem above_iff (point : Point) (hidx : index < buffer.length) :
    point.above (buffer[index], index) = true ↔ index < point.before buffer := by
  cases point with
  | start => simp [above, before]
  | entry other => simp [above, before]
  | time ts =>
    have hcut := findIdx_le_iff hsrt (fun other => ts ≤ other)
      (by simpa using fun early late hle hearly => UInt64.le_trans hearly hle) hidx
    rw [before, ← Nat.not_le, hcut]
    simp [above]
  | finish => simpa [above, before] using hidx

theorem below_iff (point : Point) (hidx : index < buffer.length) :
    point.below (buffer[index], index) = true ↔ point.upto buffer ≤ index := by
  cases point with
  | start => simp [below, upto]
  | entry other => exact decide_eq_true_iff.trans Nat.lt_iff_add_one_le
  | time ts =>
    have hcut := findIdx_le_iff hsrt (fun other => ts < other)
      (by simpa using fun early late hle hearly => UInt64.lt_of_lt_of_le hearly hle) hidx
    rw [upto, hcut]
    simp [below]
  | finish => simpa [below, upto] using hidx

theorem stands_iff (point : Point) (hidx : index < buffer.length) :
    point.stands (buffer[index], index) = true ↔
      point.before buffer ≤ index ∧ index < point.upto buffer := by
  rw [← Nat.not_lt, ← Nat.not_le (a := point.upto buffer), ← above_iff hsrt point hidx,
    ← below_iff hsrt point hidx]
  cases point with
  | start | finish => simp [stands, above, below]
  | entry other =>
    simp only [stands, above, below, decide_eq_true_eq]
    omega
  | time ts =>
    simp only [stands, above, below, decide_eq_true_eq, UInt64.not_lt]
    constructor
    · rintro rfl
      exact ⟨UInt64.le_refl _, UInt64.le_refl _⟩
    · rintro ⟨hge, hle⟩
      exact UInt64.le_antisymm hle hge

end

theorem before_le_upto (buffer : List HistEntry) (point : Point) :
    point.before buffer ≤ point.upto buffer := by
  cases point with
  | start | finish => exact Nat.le_refl _
  | entry index => exact Nat.le_succ index
  | time ts =>
    apply findIdx_le_findIdx
    intro entry _ hlat
    simp only [decide_eq_true_eq] at hlat ⊢
    exact UInt64.le_of_lt hlat

theorem before_ofSelector_le {missing : Point} (selector : Str)
    (hmissing : missing.before buffer ≤ buffer.length) :
    (ofSelector missing selector buffer).before buffer ≤ buffer.length := by
  unfold ofSelector
  cases stripPrefix "msgid=" selector with
  | some id =>
    cases hf : buffer.findIdx? (·.msgid = id) with
    | none => simpa [hf] using hmissing
    | some place =>
      have hlt : place < buffer.length := (findIdx?_eq_some_iff_getElem.mp hf).1
      simpa [hf, before] using hlt.le
  | none =>
    cases refTs selector with
    | none => simpa using hmissing
    | some ts => exact findIdx_le_length

def lower (left right : Point) (buffer : List HistEntry) : Nat :=
  min (left.upto buffer) (right.upto buffer)

def upper (left right : Point) (buffer : List HistEntry) : Nat :=
  max (left.before buffer) (right.before buffer)

theorem between_eq_slice (hsrt : buffer.Pairwise (·.ts ≤ ·.ts)) (left right : Point) :
    between left right buffer = (buffer.drop (lower left right buffer)).take
      (upper left right buffer - lower left right buffer) := by
  have hleft := left.before_le_upto buffer
  have hrt := right.before_le_upto buffer
  apply Paging.map_filter_eq_slice
  intro index hidx
  simp only [Bool.or_eq_true, Bool.and_eq_true, above_iff hsrt _ hidx,
    below_iff hsrt _ hidx]
  simp only [lower, upper]
  omega

section Counts

variable (hsrt : buffer.Pairwise (·.ts ≤ ·.ts)) {left right : Point}

include hsrt

theorem length_marks (hleft : left.before buffer ≤ buffer.length)
    (hrt : right.before buffer ≤ buffer.length) :
    (marks left right buffer).length =
      min (upper left right buffer) (lower left right buffer) -
        min (left.before buffer) (right.before buffer) := by
  have hle := left.before_le_upto buffer
  have hle' := right.before_le_upto buffer
  have hupper : upper left right buffer ≤ buffer.length := Nat.max_le.mpr ⟨hleft, hrt⟩
  apply Paging.length_filter_zipIdx (by omega)
  intro index hidx
  simp only [Bool.or_eq_true, Bool.and_eq_true, above_iff hsrt _ hidx,
    stands_iff hsrt _ hidx]
  simp only [lower, upper]
  omega

theorem length_between (hleft : left.before buffer ≤ buffer.length)
    (hrt : right.before buffer ≤ buffer.length) :
    (between left right buffer).length =
      upper left right buffer - lower left right buffer := by
  have hupper : upper left right buffer ≤ buffer.length := Nat.max_le.mpr ⟨hleft, hrt⟩
  rw [between_eq_slice hsrt, length_take, length_drop]
  omega

theorem length_front (hleft : left.before buffer ≤ buffer.length) :
    (left.front buffer).length = left.before buffer := by
  rw [← Nat.sub_zero (left.before buffer)]
  apply Paging.length_filter_zipIdx hleft
  intro index hidx
  simp [above_iff hsrt _ hidx]

end Counts

/-! ## Points as the command sees them -/

/-- The index the command works with: `missing` for a point behind the last entry. -/
def index (missing : Nat) (point : Point) (buffer : List HistEntry) : Nat :=
  if point.before buffer < buffer.length then point.before buffer else missing

theorem getD_findIdx? (test : HistEntry → Bool) (missing : Nat) :
    (buffer.findIdx? test).getD missing =
      if buffer.findIdx test < buffer.length then buffer.findIdx test else missing := by
  rw [findIdx_eq_getD_findIdx?]
  cases hf : buffer.findIdx? test with
  | none => simp
  | some index =>
    have hlt : index < buffer.length := (findIdx?_eq_some_iff_getElem.mp hf).1
    simp [hlt]

theorem getD_idxOf {end' : Point} {missing : Nat} (selector : Str)
    (hmissing : end'.index missing buffer = missing) :
    (idxOf selector buffer).getD missing =
      (ofSelector end' selector buffer).index missing buffer := by
  unfold idxOf ofSelector
  cases stripPrefix "msgid=" selector with
  | some id =>
    cases hf : buffer.findIdx? (·.msgid = id) with
    | none => simp [hf, hmissing]
    | some place =>
      have hlt : place < buffer.length := (findIdx?_eq_some_iff_getElem.mp hf).1
      simp [hf, index, before, hlt]
  | none =>
    cases refTs selector with
    | none => simp [hmissing]
    | some ts => exact getD_findIdx? _ missing

theorem index_start : start.index 0 buffer = 0 := ite_self 0

theorem index_finish : finish.index buffer.length buffer = buffer.length := by
  simp [index, before]

end Point

/-! ## The answer -/

namespace Reading

open Point

variable {reading : Reading} {selector selector2 : Str} {count : UInt64}

section

variable (reading : Reading) (selector selector2 : Str)

def withPlayback (playback : Bool) : Reading :=
  { reading with playback := playback }

def fetchBetween (count : UInt64) (selector selector2 : Str) : List HistEntry :=
  reading.answer ["BETWEEN", reading.target, selector, selector2, renderU64 count]

def leftPoint : Point :=
  ofSelector .start selector reading.entries

def rightPoint : Point :=
  ofSelector .finish selector2 reading.entries

def inside : List HistEntry :=
  Point.between (reading.leftPoint selector) (reading.rightPoint selector2) reading.entries

def low : Nat :=
  min ((reading.leftPoint selector).index 0 reading.entries)
    ((reading.rightPoint selector2).index reading.entries.length reading.entries)

def high : Nat :=
  max ((reading.leftPoint selector).index 0 reading.entries)
    ((reading.rightPoint selector2).index reading.entries.length reading.entries)

def first : Nat :=
  lower (reading.leftPoint selector) (reading.rightPoint selector2) reading.entries

def stop : Nat :=
  upper (reading.leftPoint selector) (reading.rightPoint selector2) reading.entries

end

theorem high_le_length : reading.high selector selector2 ≤ reading.entries.length := by
  unfold high Point.index
  split <;> split <;> omega

theorem requestLimit_renderU64 (cap : Nat) (count : UInt64) :
    requestLimit cap (some (renderU64 count)) = max 1 (min count.toNat cap) := by
  have hprm : toNatBelow (2 ^ 64) (renderU64 count) = some count.toNat :=
    toNatBelow_ofNat count.toNat_lt
  rw [requestLimit, Option.bind_some, hprm, Option.getD_some]

theorem fetchBetween_eq :
    reading.fetchBetween count selector selector2 =
      reading.seen (((reading.entries.drop (reading.low selector selector2 + 1)).take
        (reading.high selector selector2 - (reading.low selector selector2 + 1))).take
          (max 1 count.toNat)) := by
  have hbounded : reading.entries.length ≤ historyLimit reading.conf := reading.conversation.bounded
  have hword : toAsciiUpper "BETWEEN" ≠ "TARGETS" ∧
      HistorySub.parse (toAsciiUpper "BETWEEN") = .between := by decide
  rw [fetchBetween, answer_eq reading _ _ _ _ hword.1, hword.2, if_pos rfl, head?_cons,
    requestLimit_renderU64]
  simp only [pick, getD_idxOf selector index_start, getD_idxOf selector2 index_finish, low, high,
    leftPoint, rightPoint]
  congr 1
  rw [take_eq_take_iff]
  simp only [length_take, length_drop]
  omega

theorem inside_eq (hsrt : reading.entries.Pairwise (·.ts ≤ ·.ts)) :
    reading.inside selector selector2 =
      (reading.entries.drop (reading.first selector selector2)).take
        (reading.stop selector selector2 - reading.first selector selector2) :=
  between_eq_slice hsrt _ _

theorem stop_le_length : reading.stop selector selector2 ≤ reading.entries.length :=
  Nat.max_le.mpr ⟨before_ofSelector_le _ (Nat.zero_le _), before_ofSelector_le _ (Nat.le_refl _)⟩

/-- Every entry lies in front of the first point. -/
def late (reading : Reading) (selector : Str) : Bool :=
  reading.entries.zipIdx.all (above · (reading.leftPoint selector))

def marked (reading : Reading) (selector selector2 : Str) : Nat :=
  (marks (reading.leftPoint selector) (reading.rightPoint selector2) reading.entries).length

/-- One entry stands at the earlier point.  For a first point behind all entries nothing may lie
behind the second, and for an empty limit no two entries may lie on the way. -/
def Meets (reading : Reading) (count : UInt64) (selector selector2 : Str) : Prop :=
  if reading.late selector then
    ((reading.rightPoint selector2).front reading.entries).length ≤ 1 ∧
      (reading.inside selector selector2 = [] ∨ count = 0)
  else if count = 0 then
    reading.marked selector selector2 + (reading.inside selector selector2).length ≤ 1
  else
    reading.marked selector selector2 = 1 ∨
      reading.marked selector selector2 = 0 ∧ reading.inside selector selector2 = []

def Uncrowded (reading : Reading) (count : UInt64) (selector selector2 : Str) : Prop :=
  (∀ entry ∈ (reading.inside selector selector2).take count.toNat, entry.isEvent = false) ∨
    ∀ entry ∈ (reading.inside selector selector2).drop count.toNat, entry.isEvent = true

theorem count_eq_zero_iff : count = 0 ↔ count.toNat = 0 := UInt64.toNat_inj.symm

theorem late_iff (hsrt : reading.entries.Pairwise (·.ts ≤ ·.ts)) :
    reading.late selector = true ↔
      reading.entries.length ≤ (reading.leftPoint selector).before reading.entries := by
  rw [late, all_eq_true]
  constructor
  · intro hlate
    by_contra hlt
    have hidx := Nat.lt_of_not_le hlt
    have habove := hlate _ (mk_mem_zipIdx_iff_getElem?.mpr (getElem?_eq_getElem hidx))
    exact Nat.lt_irrefl _ ((above_iff hsrt _ hidx).mp habove)
  · rintro hle ⟨entry, index⟩ hitem
    obtain ⟨hidx, hent⟩ := mem_zipIdx' hitem
    rw [hent, above_iff hsrt _ hidx]
    omega

theorem meets_iff (hsrt : reading.entries.Pairwise (·.ts ≤ ·.ts)) :
    reading.Meets count selector selector2 ↔
      reading.high selector selector2 ≤ reading.low selector selector2 + 1 ∧
          (reading.stop selector selector2 ≤ reading.first selector selector2 ∨
            count.toNat = 0) ∨
        count.toNat ≠ 0 ∧ reading.low selector selector2 + 1 = reading.first selector selector2 ∧
          min count.toNat (reading.high selector selector2 - reading.first selector selector2) =
            min count.toNat
              (reading.stop selector selector2 - reading.first selector selector2) := by
  have hleft : (reading.leftPoint selector).before reading.entries ≤ reading.entries.length :=
    before_ofSelector_le _ (Nat.zero_le _)
  have hrt : (reading.rightPoint selector2).before reading.entries ≤ reading.entries.length :=
    before_ofSelector_le _ (Nat.le_refl _)
  have hle := (reading.leftPoint selector).before_le_upto reading.entries
  have hle' := (reading.rightPoint selector2).before_le_upto reading.entries
  have hmarks := length_marks hsrt hleft hrt
  have hbetween := length_between hsrt hleft hrt
  have hlast : (reading.rightPoint selector2).index reading.entries.length reading.entries =
      (reading.rightPoint selector2).before reading.entries := by
    unfold Point.index
    split <;> omega
  simp only [Meets, late_iff hsrt, count_eq_zero_iff, marked, inside, ← length_eq_zero_iff, hmarks,
    hbetween, length_front hsrt hrt, low, high, first, stop, hlast, lower, upper]
  by_cases hlate :
      reading.entries.length ≤ (reading.leftPoint selector).before reading.entries
  · rw [if_pos hlate, Point.index, if_neg (Nat.not_lt.mpr hlate)]
    omega
  · rw [if_neg hlate, Point.index, if_pos (Nat.lt_of_not_le hlate)]
    split <;> omega

theorem cut_eq_iff (hsrt : reading.entries.Pairwise (·.ts ≤ ·.ts)) :
    ((reading.entries.drop (reading.low selector selector2 + 1)).take
        (reading.high selector selector2 - (reading.low selector selector2 + 1))).take
          (max 1 count.toNat) = (reading.inside selector selector2).take count.toNat ↔
      reading.Meets count selector selector2 := by
  have hnd : reading.entries.Nodup := Nodup.of_map _ reading.conversation.distinct
  have hhigh := @high_le_length reading selector selector2
  rw [inside_eq hsrt, meets_iff hsrt]
  by_cases hcnt : count.toNat = 0
  · have hone : max 1 count.toNat = 1 := by omega
    have hlen := @Paging.length_slice _ reading.entries (reading.low selector selector2 + 1)
      (reading.high selector selector2) 1 hhigh
    rw [hone, hcnt, take_zero, ← length_eq_zero_iff, hlen]
    omega
  · have hs : max 1 count.toNat = count.toNat := by omega
    rw [hs, Paging.take_slice_eq_iff hnd (by omega) hhigh stop_le_length]
    constructor
    · rintro (⟨hcut, hinside⟩ | ⟨hsta, hlen⟩)
      · exact .inl ⟨hcut, .inl hinside⟩
      · exact .inr ⟨hcnt, hsta, hsta ▸ hlen⟩
    · rintro (⟨hcut, hinside | hcnt'⟩ | ⟨-, hsta, hlen⟩)
      · exact .inl ⟨hcut, hinside⟩
      · exact absurd hcnt' hcnt
      · exact .inr ⟨hsta, hsta ▸ hlen⟩

theorem seen_withPlayback_true (list : List HistEntry) :
    (reading.withPlayback true).seen list = list := by
  simp [seen, withPlayback, HistEntry.visible]

theorem seen_withPlayback_false_iff :
    (reading.withPlayback false).seen ((reading.inside selector selector2).take count.toNat) =
        ((reading.withPlayback false).seen (reading.inside selector selector2)).take count.toNat ↔
      reading.Uncrowded count selector selector2 := by
  rw [seen, seen, Paging.filter_take_iff]
  simp [withPlayback, HistEntry.visible, Uncrowded]

end Reading

/-- BETWEEN is right for every client exactly if its cut meets the two points and no event
displaces a message. -/
theorem fetchBetween_iff (reading : Reading) (count : UInt64) (selector selector2 : Str)
    (hsrt : reading.entries.Pairwise (·.ts ≤ ·.ts)) :
    (∀ playback, (reading.withPlayback playback).fetchBetween count selector selector2 =
        ((reading.withPlayback playback).seen (reading.inside selector selector2)).take
          count.toNat) ↔
      reading.Meets count selector selector2 ∧ reading.Uncrowded count selector selector2 := by
  rw [← cut_eq_iff hsrt, ← seen_withPlayback_false_iff]
  simp only [fetchBetween_eq]
  constructor
  · intro hrt
    have hcut := hrt true
    rw [seen_withPlayback_true, seen_withPlayback_true] at hcut
    refine ⟨hcut, ?_⟩
    have hhidden := hrt false
    rw [← hhidden]
    exact congrArg _ hcut.symm
  · rintro ⟨hcut, hhidden⟩ playback
    cases playback with
    | true =>
      rw [seen_withPlayback_true, seen_withPlayback_true]
      exact hcut
    | false =>
      rw [← hhidden]
      exact congrArg _ hcut

theorem fetchBetween_iff_afterwards :
    (afterwards true).entries.Pairwise (·.ts ≤ ·.ts) ∧
      ∀ playback, ((afterwards true).withPlayback playback).fetchBetween 10 "msgid=a-1" "*" =
        (((afterwards true).withPlayback playback).seen
          ((afterwards true).inside "msgid=a-1" "*")).take 10 := by
  refine ⟨by decide, (fetchBetween_iff (afterwards true) 10 "msgid=a-1" "*" (by decide)).mpr ?_⟩
  unfold Reading.Meets Reading.Uncrowded
  decide +kernel

/-- No entry stands at the earlier time, and the first one behind it is left out. -/
theorem between_misses_first :
    (afterwards true).inside "timestamp=1970-01-01T00:00:05Z" "timestamp=1970-01-01T00:00:20Z" =
        [greeting, leaving] ∧
      (afterwards true).fetchBetween 10 "timestamp=1970-01-01T00:00:05Z"
        "timestamp=1970-01-01T00:00:20Z" = [leaving] := by
  decide +kernel

end EchoIrcd
