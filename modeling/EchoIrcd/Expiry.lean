import EchoIrcd.Delivery
import Mathlib.Data.List.TakeWhile

/-!
# X-lines in a burst

A burst sends every x-line with the time it has left, counted from the moment
of linking, and 0 for a permanent one.  The difference saturates, so a line
that is past its expiry and not yet swept is sent with 0 as well.  The mask and
the setter are written as they are: when they are not one word each, the
positions of the two numbers move.
-/

namespace EchoIrcd

open Str XLine Server List

variable {env : Env} {server : Server} {via : Uid} {copy xline : XLine} {message : Message}
  {duration expires : UInt64}

/-! ## The sweep -/

def Server.purgeXlines (server : Server) : Server :=
  { server with xlines := server.xlines.filter (active server.clock) }

/-! ## What a line of the burst installs -/

namespace XLine

def expiryOf (setAt duration : UInt64) : UInt64 :=
  if duration = 0 then 0 else saturatingAdd setAt duration

def remaining (now : Timestamp) (xline : XLine) : UInt64 :=
  if xline.expires = 0 then 0 else saturatingSub xline.expires now

def ofParams (clock : Timestamp) : List Str → Option XLine
  | tag :: mask :: setter :: setAt :: duration :: reason :: _ =>
    match XKind.fromTag tag, parseU64 duration with
    | some kind, some duration =>
      let setAt := (parseU64 setAt).getD clock
      some ⟨kind, mask, reason, setter, expiryOf setAt duration, setAt⟩
    | _, _ => none
  | _ => none

def ExpiresBy (xline copy : XLine) : Prop :=
  xline.expires = 0 ∨ copy.expires ≠ 0 ∧ copy.expires ≤ xline.expires

instance (xline copy : XLine) : Decidable (xline.ExpiresBy copy) :=
  inferInstanceAs (Decidable (_ ∨ _))

abbrev words (xline : XLine) : List Str := fields (xline.mask ++ ' ' :: xline.setter)

end XLine

namespace Server

theorem removeUser_xlines (uid : Uid) (reason : Str) (server : Server) :
    (server.removeUser uid reason).xlines = server.xlines := by
  unfold removeUser
  split
  · rfl
  · split <;> split <;> rfl

theorem enforceXlines_xlines (env : Env) (server : Server) :
    (server.enforceXlines env).xlines = server.xlines := by
  unfold enforceXlines
  generalize server.xlineVictims env = victims
  induction victims generalizing server with
  | nil => rfl
  | cons victim rest ih => rw [foldl_cons, ih, removeUser_xlines]

theorem mem_addXlineAt {kind : XKind} {mask setter reason : Str} {setAt : Timestamp} :
    copy ∈ (server.addXlineAt env kind mask duration setter reason setAt).xlines ↔
      copy = ⟨kind, mask, reason, setter, expiryOf setAt duration, setAt⟩ ∨
      copy ∈ server.xlines ∧ (copy.kind ≠ kind ∨ copy.mask ≠ mask) := by
  rw [addXlineAt, enforceXlines_xlines, mem_append, mem_singleton, or_comm]
  simp [expiryOf]

theorem mem_linkAddlineRecv (hcopy : copy ∈ (server.linkAddlineRecv env via message).xlines) :
    copy ∈ server.xlines ∨ ofParams server.clock message.params = some copy := by
  unfold linkAddlineRecv at hcopy
  split at hcopy
  · rename_i source tag mask setter setAt duration reason rest hsrc hpar
    split at hcopy
    · split at hcopy
      · rename_i kind number hkind hnum
        have hadded := mem_addXlineAt.mp hcopy
        rcases hadded with rfl | hkept
        · right
          simp [hpar, ofParams, hkind, hnum]
        · exact .inl hkept.1
      · exact .inl hcopy
    · exact .inl hcopy
  · exact .inl hcopy

theorem linkAddlineRecv_installs {source : Str} (hsrc : message.source = some source)
    (hbeh : server.sourceBehind source via = true)
    (hcopy : ofParams server.clock message.params = some copy) :
    copy ∈ (server.linkAddlineRecv env via message).xlines := by
  unfold ofParams at hcopy
  split at hcopy
  · rename_i tag mask setter setAt duration reason rest hpar
    split at hcopy
    · rename_i kind number hkind hnum
      cases hcopy
      simp only [linkAddlineRecv, hsrc, hpar, hbeh, if_true, hkind, hnum]
      exact mem_addXlineAt.mpr (.inl rfl)
    · cases hcopy
  · cases hcopy

/-! ## The burst -/

def addlineOf (server : Server) (xline : XLine) : Out :=
  .addline server.conf.sid xline.kind.tag xline.mask xline.setter server.clock
    (xline.remaining server.clock) xline.reason

def burstEntries (server : Server) : List (XLine × Out) :=
  (server.xlines.filter (·.kind ≠ .svshold)).zip server.xlineBurst

theorem mem_burstEntries {out : Out} :
    (xline, out) ∈ server.burstEntries ↔
      xline ∈ server.xlines ∧ xline.kind ≠ .svshold ∧ server.addlineOf xline = out := by
  have hents : server.burstEntries =
      (server.xlines.filter (·.kind ≠ .svshold)).map
        fun xline => (id xline, server.addlineOf xline) := by
    rw [← zip_map', map_id]
    rfl
  rw [hents]
  simp [and_assoc]

/-! ## Reading the line -/

theorem isToken_tag (kind : XKind) : IsToken kind.tag := by
  cases kind <;> decide

abbrev burstTail (server : Server) (xline : XLine) : Str :=
  renderU64 server.clock ++
    ' ' :: (renderU64 (xline.remaining server.clock) ++ ' ' :: ':' :: xline.reason)

section Reading

variable {server : Server} (hsid : validSid server.conf.sid = true) (xline : XLine)

include hsid

theorem receive_addlineOf :
    (server.addlineOf xline).receive = some
      { source := some server.conf.sid, command := "ADDLINE"
        params := xline.kind.tag :: parseParams (trimStart
          (xline.mask ++ ' ' :: xline.setter ++ ' ' :: server.burstTail xline)) } := by
  -- the same text with everything after the tag as one last parameter
  let line : Line := ⟨some server.conf.sid, "ADDLINE", [xline.kind.tag] ++
    [xline.mask ++ ' ' :: xline.setter ++ ' ' :: server.burstTail xline], none⟩
  have htext : (server.addlineOf xline).text = line.render := by
    simp [line, addlineOf, Out.text, Out.line, Line.render]
  have hsrc : SourceOk line.source := by
    rintro _ ⟨⟩
    exact (isToken_of_validSid hsid).2.1
  have hcmd : IsCommand ("ADDLINE" : Str) := by decide
  have htag : ∀ param ∈ [xline.kind.tag], IsToken param := by
    simp [isToken_tag]
  rw [Out.receive, htext]
  exact parse_render_last rfl rfl hsrc hcmd htag

theorem receive_addlineOf_middle (hmid : xline.words.all isMiddle = true) :
    (server.addlineOf xline).receive = some
      { source := some server.conf.sid, command := "ADDLINE"
        params := xline.kind.tag :: (xline.words ++
          [renderU64 server.clock, renderU64 (xline.remaining server.clock),
            xline.reason]) } := by
  have hnumbers : parseParams (trimStart (server.burstTail xline)) =
      [renderU64 server.clock, renderU64 (xline.remaining server.clock), xline.reason] := by
    have htoks : ∀ param ∈ [renderU64 server.clock,
        renderU64 (xline.remaining server.clock)], IsToken param := by
      simp [isToken_renderU64]
    have htrim : trimStart (':' :: xline.reason) = ':' :: xline.reason :=
      trimStart_of_head (by simp)
    have hread := parseParams_flatMap htoks (':' :: xline.reason)
    rw [htrim, parseParams_trailing] at hread
    simpa using hread
  rw [receive_addlineOf hsid, parseParams_fields hmid, hnumbers]

theorem receive_addlineOf_colon (hcol : xline.words.all isMiddle = false) :
    ∃ rest, (server.addlineOf xline).receive = some
      { source := some server.conf.sid, command := "ADDLINE"
        params := xline.kind.tag ::
          (xline.words.takeWhile isMiddle ++ [rest]) } := by
  obtain ⟨rest, hread⟩ := parseParams_fields_colon hcol (server.burstTail xline)
  exact ⟨rest, by rw [receive_addlineOf hsid, hread]⟩

end Reading

end Server

/-! ## Expiry -/

theorem toNat_saturatingAdd (left right : UInt64) :
    (saturatingAdd left right).toNat = min (left.toNat + right.toNat) (2 ^ 64 - 1) := by
  unfold saturatingAdd
  split
  · rw [UInt64.toNat_add]
    omega
  · rw [UInt64.toNat_ofNat_of_lt' (by decide)]
    omega

theorem toNat_saturatingSub (left right : UInt64) :
    (saturatingSub left right).toNat = left.toNat - right.toNat := by
  unfold saturatingSub
  split
  · rename_i hle
    exact UInt64.toNat_sub_of_le _ _ hle
  · rename_i hlt
    rw [UInt64.le_iff_toNat_le] at hlt
    simp
    omega

theorem UInt64.ne_zero_iff (number : UInt64) : number ≠ 0 ↔ 0 < number.toNat := by
  rw [ne_eq, ← UInt64.toNat_inj, UInt64.toNat_zero, Nat.pos_iff_ne_zero]

theorem expiryOf_le_iff {setAt : UInt64} :
    expiryOf setAt duration ≠ 0 ∧ expiryOf setAt duration ≤ expires ↔
      duration ≠ 0 ∧ saturatingAdd setAt duration ≤ expires := by
  unfold expiryOf
  split
  · simp_all
  · rename_i hduration
    have hpos : saturatingAdd setAt duration ≠ 0 := by
      rw [← ne_eq, UInt64.ne_zero_iff] at *
      rw [toNat_saturatingAdd]
      omega
    simp [hpos, hduration]

theorem saturating_iff {now : UInt64} :
    saturatingSub expires now ≠ 0 ∧
        saturatingAdd now (saturatingSub expires now) ≤ expires ↔
      now < expires := by
  rw [UInt64.ne_zero_iff, UInt64.le_iff_toNat_le, UInt64.lt_iff_toNat_lt,
    toNat_saturatingAdd, toNat_saturatingSub]
  omega

namespace XLine

/--
When the peer gets the expiry right.  The mask and the setter should be two
words, with the numbers of the burst after them.  With three words the peer
takes the third for the time of setting and that time for the duration; with
more, the third and the fourth are the two numbers.  Fewer words, or a colon
that ends the parameters early, make the peer refuse the line.
-/
def Timely (now : Timestamp) (xline : XLine) : Prop :=
  let words := fields (xline.mask ++ ' ' :: xline.setter)
  match words.takeWhile isMiddle with
  | [_, _] => words.length = 2 → now < xline.expires
  | [_, _, setAt] => words.length = 3 →
      now ≠ 0 ∧ saturatingAdd ((parseU64 setAt).getD now) now ≤ xline.expires
  | _ :: _ :: setAt :: duration :: _ => ∀ number, parseU64 duration = some number →
      number ≠ 0 ∧ saturatingAdd ((parseU64 setAt).getD now) number ≤ xline.expires
  | _ => True

theorem fromTag_tag (kind : XKind) : XKind.fromTag kind.tag = some kind := by
  cases kind <;> decide

theorem forall_ofParams_iff (htimed : xline.expires ≠ 0) (clock : Timestamp) (kind : XKind)
    (mask setter setAt duration : Str) {rest : List Str} (hrest : rest ≠ []) :
    (∀ copy, ofParams clock (kind.tag :: mask :: setter :: setAt :: duration :: rest) = some copy →
      xline.ExpiresBy copy) ↔
      ∀ number, parseU64 duration = some number →
        number ≠ 0 ∧ saturatingAdd ((parseU64 setAt).getD clock) number ≤ xline.expires := by
  obtain ⟨reason, rest, rfl⟩ := exists_cons_of_ne_nil hrest
  simp only [ofParams, fromTag_tag]
  cases parseU64 duration with
  | none => simp
  | some number => simp [ExpiresBy, htimed, ← expiryOf_le_iff]

end XLine

namespace Server

variable {server : Server} {xline : XLine}

def entryCopy (server : Server) (xline : XLine) : Option XLine :=
  (server.addlineOf xline).receive.bind fun message =>
    ofParams server.clock message.params

section

variable (hsid : validSid server.conf.sid = true)

include hsid

theorem entryCopy_middle (htimed : xline.expires ≠ 0) (hmid : xline.words.all isMiddle = true) :
    (∀ copy, server.entryCopy xline = some copy → xline.ExpiresBy copy) ↔
      xline.Timely server.clock := by
  have htake : xline.words.takeWhile isMiddle = xline.words :=
    takeWhile_eq_self_iff.mpr (all_eq_true.mp hmid)
  simp only [entryCopy, receive_addlineOf_middle hsid xline hmid, Option.bind_some,
    Timely, htake]
  unfold XLine.words
  generalize fields (xline.mask ++ ' ' :: xline.setter) = words
  match words with
  | [] => simp [ofParams]
  | [_] => simp [ofParams]
  | [mask, setter] =>
    rw [cons_append, cons_append, nil_append, forall_ofParams_iff htimed _ _ _ _ _ _ (by simp)]
    simp [parseU64_renderU64, remaining, htimed, saturating_iff]
  | [mask, setter, setAt] =>
    rw [cons_append, cons_append, cons_append, nil_append,
      forall_ofParams_iff htimed _ _ _ _ _ _ (by simp)]
    simp [parseU64_renderU64]
  | mask :: setter :: setAt :: duration :: rest =>
    exact forall_ofParams_iff htimed _ _ _ _ _ _ (by simp)

theorem entryCopy_colon (htimed : xline.expires ≠ 0) (hcol : xline.words.all isMiddle = false) :
    (∀ copy, server.entryCopy xline = some copy → xline.ExpiresBy copy) ↔
      xline.Timely server.clock := by
  obtain ⟨last, hread⟩ := receive_addlineOf_colon hsid xline hcol
  have hsho : (xline.words.takeWhile isMiddle).length < xline.words.length := by
    refine lt_of_le_of_ne ( takeWhile_prefix _).length_le ?_
    intro hlen
    have hself := ( takeWhile_prefix isMiddle).eq_of_length hlen
    rw [all_eq_true.mpr (takeWhile_eq_self_iff.mp hself)] at hcol
    cases hcol
  simp only [entryCopy, hread, Option.bind_some, Timely]
  generalize xline.words.takeWhile isMiddle = middles
    at hsho
  match middles with
  | [] => simp [ofParams]
  | [_] => simp [ofParams]
  | [mask, setter] =>
    have hlong : xline.words.length ≠ 2 := hsho.ne'
    simp [ofParams, hlong]
  | [mask, setter, setAt] =>
    have hlong : xline.words.length ≠ 3 := hsho.ne'
    simp [ofParams, hlong]
  | mask :: setter :: setAt :: duration :: rest =>
    exact forall_ofParams_iff htimed _ _ _ _ _ _ (by simp)

theorem entryCopy_iff (xline : XLine) :
    (∀ copy, server.entryCopy xline = some copy → xline.ExpiresBy copy) ↔
      xline.expires = 0 ∨ xline.Timely server.clock := by
  by_cases htimed : xline.expires = 0
  · simp [ExpiresBy, htimed]
  · rw [or_iff_right htimed]
    cases hwds : xline.words.all isMiddle with
    | true => exact entryCopy_middle hsid htimed hwds
    | false => exact entryCopy_colon hsid htimed hwds

end

/-! ## At the peer -/

/--
No x-line a linked peer installs from the burst outlasts the sender's own.
-/
def BurstExpires (server : Server) : Prop :=
  ∀ (env : Env) (peer : Server) (via : Uid), peer.isRegistered via = true →
    peer.clock = server.clock →
    ∀ xline out, (xline, out) ∈ server.burstEntries →
      ∀ copy ∈ (peer.onLine env via out).xlines, copy ∉ peer.xlines →
        xline.ExpiresBy copy

theorem onLine_addlineOf {peer : Server} (hsid : validSid server.conf.sid = true)
    (hreg : peer.isRegistered via = true) (xline : XLine) (env : Env) :
    ∃ params, (server.addlineOf xline).receive = some
        { source := some server.conf.sid, command := "ADDLINE", params := params } ∧
      peer.onLine env via (server.addlineOf xline) =
        (peer.touchLink via).linkAddlineRecv env via
          { source := some server.conf.sid, command := "ADDLINE", params := params } := by
  have hread := receive_addlineOf hsid xline
  exact ⟨_, hread, onLine_handle hreg hread (Verb.ofWord_word .addline) (by decide) env⟩

def blankPeer (server : Server) (via : Uid) : Server where
  conf := { name := [], sid := [] }
  clock := server.clock
  links := (∅ : Table Uid Link).insert via
    { outbound := false, registered := true, sid := some server.conf.sid
      lastSeen := server.clock }
  servers := (∅ : Table Str RemoteServer).insert server.conf.sid
    ⟨server.conf.sid, server.conf.name, [], via, false, false⟩

theorem isRegistered_blankPeer (server : Server) (via : Uid) :
    (server.blankPeer via).isRegistered via = true := by
  simp [blankPeer, isRegistered, -AList.insert_empty]

theorem sourceBehind_blankPeer (server : Server) (via : Uid) :
    (server.blankPeer via).sourceBehind server.conf.sid via = true := by
  simp [blankPeer, sourceBehind, -AList.insert_empty]

end Server

def Server.overdue : Server where
  conf := { name := "a.test", sid := "1AA" }
  clock := 100
  xlines := [⟨.kline, "*@bad.test", "spam", "kat", 90, 30⟩]

end EchoIrcd
