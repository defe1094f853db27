import EchoIrcd.Wire

/-!
# What a local user makes the server say

A line names the user it is sourced from and, for an `FJOIN`, the users it
lists as members.  `Speaks uid` holds of the operations a local user can
trigger: every registered link is sent the same lines, these name nobody but
the server and that user, and no user is introduced, retired or renumbered.
-/

namespace EchoIrcd

open Str Table Option

variable {letters uuid : Str} {adding : Bool} {channel : Channel} {out : Out}
  {change : User → User} (server : Server) (target : Uid) (key : Str)

namespace Out

def introduced : Out → Option Str
  | .uid _ user => some user.uuid
  | _ => none

def retired : Out → Option Str
  | .quit uuid _ => some uuid
  | _ => none

def tokenUuid (token : Str) : Str :=
  (token.reverse.takeWhile (· ≠ ',')).reverse

def listed : Out → List Str
  | .fjoin _ _ _ _ members => (words members).map tokenUuid
  | _ => []

/-- The line is sourced from `uuid` or lists it as a channel member. -/
def Names (out : Out) (uuid : Str) : Prop :=
  out.line.source = some uuid ∨ uuid ∈ out.listed

instance (out : Out) (uuid : Str) : Decidable (out.Names uuid) :=
  inferInstanceAs (Decidable (_ ∨ _))

theorem tokenUuid_append (huuid : ',' ∉ uuid) (letters : Str) :
    tokenUuid (letters ++ ',' :: uuid) = uuid := by
  have hsol : ∀ char ∈ uuid.reverse, decide (char ≠ ',') = true := by
    intro char hchar
    simp only [ne_eq, decide_eq_true_eq]
    rintro rfl
    exact huuid (List.mem_reverse.mp hchar)
  rw [tokenUuid, List.reverse_append, List.reverse_cons, List.append_assoc,
    List.takeWhile_append_of_pos hsol]
  simp

end Out

def User.identity (user : User) : Str × Bool := (user.uuid, user.registered)

def User.place (user : User) : (Str × Bool) × List Str :=
  (user.identity, user.channels)

namespace Server

/-! ## The condition -/

/-- Neither an introduction nor a retirement, and about nobody but `uid`. -/
structure Attributed (server : Server) (uid : Uid) (out : Out) : Prop where
  introduced : out.introduced = none
  retired : out.retired = none
  names : ∀ uuid, out.Names uuid → uuid = server.conf.sid ∨
    (server.users.lookup uid).map User.identity = some (uuid, true)

def IsEnrolled (server : Server) (uid : Uid) : Prop :=
  ∃ uuid, (server.users.lookup uid).map User.identity = some (uuid, true)

/-- `uid` acts, and every registered link is sent `outs`. -/
structure Acts (uid : Uid) (outs : List Out) (before after : Server) : Prop where
  conf : after.conf = before.conf
  links : after.links = before.links
  uuidLocal : after.uuidLocal = before.uuidLocal
  people : ∀ other, (after.users.lookup other).map User.identity =
    (before.users.lookup other).map User.identity
  members : ∀ {key other}, after.isMember other key = true →
    before.isMember other key = true ∧
        (before.isOn other key = true → after.isOn other key = true) ∨
      other = uid ∧ before.IsEnrolled uid ∧ after.isOn uid key = true
  rmembers : ∀ {key uuid}, after.isRemoteMember key uuid = true →
    before.isRemoteMember key uuid = true
  lines : ∀ link, after.linesTo link = before.linesTo link ++
    if before.isRegistered link = true then outs else []

def Speaks (uid : Uid) (before after : Server) : Prop :=
  ∃ outs, Acts uid outs before after ∧ ∀ out ∈ outs, before.Attributed uid out

variable {uid : Uid} {outs more : List Out} {first second third : Server}

theorem Acts.isRegistered (hacts : Acts uid outs first second) (link : Uid) :
    second.isRegistered link = first.isRegistered link := by
  simp [Server.isRegistered, hacts.links]

theorem Acts.trans (hleft : Acts uid outs first second) (hrt : Acts uid more second third) :
    Acts uid (outs ++ more) first third where
  conf := hrt.conf.trans hleft.conf
  links := hrt.links.trans hleft.links
  uuidLocal := hrt.uuidLocal.trans hleft.uuidLocal
  people := fun other => (hrt.people other).trans (hleft.people other)
  members := fun hmb => by
    rcases hrt.members hmb with ⟨hmid, hon⟩ | ⟨rfl, ⟨uuid, huuid⟩, hon⟩
    · rcases hleft.members hmid with ⟨hprev, hon'⟩ | ⟨rfl, henr, hon'⟩
      · exact .inl ⟨hprev, fun hsta => hon (hon' hsta)⟩
      · exact .inr ⟨rfl, henr, hon hon'⟩
    · exact .inr ⟨rfl, ⟨uuid, (hleft.people _).symm.trans huuid⟩, hon⟩
  rmembers := fun hmb => hleft.rmembers (hrt.rmembers hmb)
  lines := fun link => by
    rw [hrt.lines, hleft.lines, hleft.isRegistered, List.append_assoc]
    split <;> simp

theorem silent_lines (hsent : second.sent = first.sent) (link : Uid) :
    second.linesTo link = first.linesTo link ++
      if first.isRegistered link = true then ([] : List Out) else [] := by
  simp [linesTo_congr hsent]

theorem isOn_congr {other : Uid}
    (hplace : (second.users.lookup other).map User.place =
      (first.users.lookup other).map User.place) (key : Str) :
    second.isOn other key = first.isOn other key := by
  unfold isOn
  cases hsec : second.users.lookup other with
  | none =>
    cases hfst : first.users.lookup other with
    | none => rfl
    | some user => simp [hfst, hsec] at hplace
  | some user =>
    cases hfst : first.users.lookup other with
    | none => simp [hfst, hsec] at hplace
    | some user' =>
      simp only [hfst, hsec, map_some, some.injEq, User.place, Prod.mk.injEq] at hplace
      simp only [hplace.2]

theorem Acts.of_same (hconf : second.conf = first.conf) (hlinks : second.links = first.links)
    (hloc : second.uuidLocal = first.uuidLocal) (hsent : second.sent = first.sent)
    (hplace : ∀ other, (second.users.lookup other).map User.place =
      (first.users.lookup other).map User.place)
    (hmems : ∀ {key other}, second.isMember other key = true → first.isMember other key = true)
    (hrm : ∀ {key uuid}, second.isRemoteMember key uuid = true →
      first.isRemoteMember key uuid = true) : Acts uid [] first second where
  conf := hconf
  links := hlinks
  uuidLocal := hloc
  people := fun other => by
    have hid := congrArg (Option.map Prod.fst) (hplace other)
    simpa [User.place, Option.map_map, Function.comp_def] using hid
  members := fun hmb => .inl ⟨hmems hmb, fun hon => by
    rwa [isOn_congr (hplace _)]⟩
  rmembers := hrm
  lines := silent_lines hsent

theorem Acts.refl (server : Server) : Acts uid [] server server :=
  .of_same rfl rfl rfl rfl (fun _ => rfl) id id

theorem Acts.propagate (out : Out) : Acts uid [out] server (server.propagate out none) where
  conf := rfl
  links := rfl
  uuidLocal := rfl
  people := fun _ => rfl
  members := fun hmb => .inl ⟨hmb, id⟩
  rmembers := id
  lines := fun link => by simp [linesTo_propagate]

theorem Speaks.of_silent (hacts : Acts uid [] first second) : Speaks uid first second :=
  ⟨[], hacts, by simp⟩

theorem Speaks.refl (server : Server) : Speaks uid server server :=
  .of_silent (.refl server)

theorem Speaks.trans (hleft : Speaks uid first second)
    (hrt : Speaks uid second third) : Speaks uid first third := by
  obtain ⟨outs, hacts, houts⟩ := hleft
  obtain ⟨more, hacts', hmore⟩ := hrt
  refine ⟨outs ++ more, hacts.trans hacts', ?_⟩
  intro out hout
  rcases List.mem_append.mp hout with hout | hout
  · exact houts out hout
  · obtain ⟨hintr, hretired, hnms⟩ := hmore out hout
    refine ⟨hintr, hretired, fun uuid huuid => ?_⟩
    rw [← hacts.conf, ← hacts.people]
    exact hnms uuid huuid

theorem Speaks.propagate {server : Server} (hout : server.Attributed uid out) :
    Speaks uid server (server.propagate out none) :=
  ⟨[out], .propagate server out, by simpa using hout⟩

/-! ## Small changes -/

theorem map_modify {α : Type} {view : User → α} {users : Table Uid User}
    (hchg : ∀ user, view (change user) = view user) (key other : Uid) :
    ((modify key change users).lookup other).map view = (users.lookup other).map view := by
  rw [lookup_modify]
  split
  · rename_i heq
    rw [heq, map_map]
    congr 1
    funext user
    exact hchg user
  · rfl

theorem changeUser_speaks (key : Uid) (hchg : ∀ user, (change user).place = user.place) :
    Speaks uid server (server.changeUser key change) :=
  .of_silent (.of_same rfl rfl rfl rfl (map_modify hchg key) id id)

theorem changeChannel_speaks {change : Channel → Channel} (hchg : KeepsSeats change) :
    Speaks uid server (server.changeChannel key change) := by
  refine .of_silent (.of_same rfl rfl rfl rfl (fun _ => rfl) ?_ ?_)
  · intro name other hmb
    obtain ⟨channel, hchan, hin⟩ := isMember_iff.mp hmb
    refine isMember_iff.mpr ?_
    obtain ⟨earlier, hprev, ⟨-, rfl⟩ | ⟨-, rfl⟩⟩ := of_lookup_modify hchan
    · exact ⟨earlier, hprev, (hchg.members earlier other).mp hin⟩
    · exact ⟨channel, hprev, hin⟩
  · intro name uuid hmb
    obtain ⟨channel, hchan, hin⟩ := isRemoteMember_iff.mp hmb
    refine isRemoteMember_iff.mpr ?_
    obtain ⟨earlier, hprev, ⟨-, rfl⟩ | ⟨-, rfl⟩⟩ := of_lookup_modify hchan
    · exact ⟨earlier, hprev, (hchg.rmembers earlier uuid).mp hin⟩
    · exact ⟨channel, hprev, hin⟩

theorem propagateChanMode_speaks {server : Server} {source : Str}
    (hsrc : source = server.conf.sid) (chan modes : Str) (params : List Str) :
    Speaks uid server (server.propagateChanMode source chan modes params) := by
  refine .propagate ⟨rfl, rfl, fun uuid huuid => .inl ?_⟩
  rcases huuid with hname | hlst
  · exact (some.inj hname).symm.trans hsrc
  · cases hlst

theorem attributed_of_source {server : Server} {user : User}
    (hu : server.users.lookup uid = some user) (hreg : user.registered = true)
    (hintr : out.introduced = none) (hretired : out.retired = none)
    (hsrc : out.line.source = some user.uuid)
    (hlst : out.listed = []) : server.Attributed uid out := by
  refine ⟨hintr, hretired, fun uuid hnms => .inr ?_⟩
  rcases hnms with hname | hmb
  · rw [hsrc, some.injEq] at hname
    simp [hu, User.identity, hreg, hname]
  · simp [hlst] at hmb

/-! ## Channel modes -/

structure GrantFrame (Kept : Server → Server → Prop) : Prop where
  refl : ∀ server, Kept server server
  trans : ∀ {first second third}, Kept first second → Kept second third → Kept first third
  change : ∀ server key {change}, KeepsSeats change → Kept server (server.changeChannel key change)
  say : ∀ {server after}, Kept server after → ∀ chan modes params,
    Kept after (after.propagateChanMode server.conf.sid chan modes params)

namespace GrantFrame

variable {Kept : Server → Server → Prop} (hfr : GrantFrame Kept)

include hfr

theorem svsSetChanModes (chan modes : Str) (args : List Str) :
    Kept server (server.svsSetChanModes chan modes args) := by
  refine svsSetChanModes_rel hfr.refl hfr.trans (fun entry _ loop => ?_)
    (fun hkept => hfr.say hkept chan) server args
  exact svsChanModeStep_rel hfr.refl
    (fun happ => hfr.change _ _ (applyChanMode_keepsSeats happ)) loop entry

theorem setOperPrefix (on : Bool) (key : Str) : Kept server (server.setOperPrefix target on key) := by
  unfold Server.setOperPrefix
  split
  · split
    · split
      · refine hfr.trans ?changed (hfr.say ?changed ..)
        exact hfr.change server key (keepsSeats_modifyMember ..)
      · exact hfr.refl server
    · exact hfr.refl server
  · exact hfr.refl server

theorem runHook_join (env : Env) : Kept server (server.runHook env (.join target key)) := by
  have hautoOp : Kept server (server.autoOpJoin env target key) := by
    unfold autoOpJoin
    split
    · simp only
      split
      · exact hfr.refl server
      · exact hfr.svsSetChanModes ..
    · exact hfr.refl server
  refine hfr.trans hautoOp ?_
  rw [runHook, operPrefixJoin]
  split
  · exact hfr.setOperPrefix ..
  · exact hfr.refl _

end GrantFrame

theorem speaks_grantFrame : GrantFrame (Speaks uid) where
  refl := .refl
  trans := .trans
  change := fun server key _ => changeChannel_speaks server key
  say := fun ⟨_, hacts, _⟩ _ _ _ => propagateChanMode_speaks (by rw [hacts.conf]) ..

/-! ## User modes -/

theorem applyUserMode_speaks {server changed : Server} {target : Uid} {flag : UserFlag}
    (happ : server.applyUserMode target flag adding = some changed) :
    Speaks uid server changed := by
  have hflag : ∀ flag on (user : User),
      (setUserFlag flag on user).place = user.place := by
    intro flag on user
    unfold setUserFlag
    split <;> rfl
  rcases applyUserMode_cases happ with rfl | rfl | rfl
  · refine Speaks.trans ?_ (foldl_rel .refl .trans
      (fun server key => speaks_grantFrame.setOperPrefix server _ _ key) _ _)
    exact changeUser_speaks _ _ fun _ => rfl
  · exact changeUser_speaks _ _ fun _ => rfl
  · exact changeUser_speaks _ _ (hflag _ _)

theorem svsSetUserModes_speaks (modes : Str) :
    Speaks uid server (server.svsSetUserModes uid modes) :=
  svsSetUserModes_rel .refl .trans uid applyUserMode_speaks
    (fun _ hu hreg => .propagate (attributed_of_source hu hreg rfl rfl rfl rfl))
    modes server

/-! ## Renaming and leaving -/

theorem setNick_speaks (newnick : Str) : Speaks uid server (server.setNick uid newnick) := by
  have hacc : ∀ (server : Server) old new,
      Speaks uid server (server.renameAccepted old new) := by
    intro server old new
    refine .of_silent (.of_same rfl rfl rfl rfl (fun other => ?_) id id)
    rw [renameAccepted_users, lookup_mapValues, map_map]
    rfl
  have hnick : ∀ server : Server,
      Speaks uid server (server.propagateNick uid newnick) := by
    intro server
    unfold propagateNick
    split
    · rename_i user hu
      split
      · rename_i hreg
        exact .propagate (attributed_of_source hu hreg rfl rfl rfl rfl)
      · exact .refl server
    · exact .refl server
  unfold setNick
  split
  · exact .refl server
  · refine Speaks.trans ?_ (hnick _)
    have hren : ∀ index : Table Str Uid, Speaks uid server { server with
        nickIndex := index
        users := modify uid (fun user =>
          { user with nick := newnick, nickTs := server.clock }) server.users } := by
      intro index
      refine .of_silent (.of_same rfl rfl rfl rfl (map_modify ?_ uid) id id)
      exact fun _ => rfl
    split
    · exact (hren _).trans (hacc _ _ _)
    · exact hren _

private theorem dropMember_lookup {server : Server} {target : Uid} {key name : Str}
    (hchan : (server.dropMember target key).channels.lookup name = some channel) :
    ∃ earlier, server.channels.lookup name = some earlier ∧
      (∀ other ∈ channel.members, other ∈ earlier.members ∧ ¬(other = target ∧ name = key)) ∧
      channel.rmembers = earlier.rmembers := by
  rw [dropMember, lookup_reapChannels] at hchan
  obtain ⟨earlier, hprev, ⟨-, rfl⟩ | ⟨hname, rfl⟩⟩ := of_lookup_modify hchan.1
  · refine ⟨earlier, hprev, fun other ho => ?_, rfl⟩
    obtain ⟨hne, hin⟩ := AList.mem_erase.mp ho
    exact ⟨hin, fun hboth => hne hboth.1⟩
  · exact ⟨channel, hprev, fun other ho => ⟨ho, fun hboth => hname hboth.2⟩, rfl⟩

theorem dropMember_speaks : Speaks uid server (server.dropMember target key) := by
  refine .of_silent ⟨rfl, rfl, rfl, map_modify ?_ target, ?_, ?_, silent_lines rfl⟩
  · exact fun _ => rfl
  · intro name other hmb
    obtain ⟨channel, hchan, hin⟩ := isMember_iff.mp hmb
    obtain ⟨earlier, hprev, hmems, _⟩ := dropMember_lookup hchan
    obtain ⟨hold, ho⟩ := hmems other hin
    refine .inl ⟨isMember_iff.mpr ⟨earlier, hprev, hold⟩, fun hon => ?_⟩
    obtain ⟨user, hu, hkey⟩ := isOn_iff.mp hon
    rw [isOn_iff, dropMember, reapChannels_users]
    simp only [lookup_modify]
    split
    · rename_i htgt
      rw [← htgt, hu]
      refine ⟨_, rfl, List.mem_filter.mpr ⟨hkey, ?_⟩⟩
      simpa using fun hname => ho ⟨htgt, hname⟩
    · exact ⟨user, hu, hkey⟩
  · intro name uuid hmb
    obtain ⟨channel, hchan, hin⟩ := isRemoteMember_iff.mp hmb
    obtain ⟨earlier, hprev, _, hrm⟩ := dropMember_lookup hchan
    exact isRemoteMember_iff.mpr ⟨earlier, hprev, hrm ▸ hin⟩

theorem part_speaks (target reason : Str) : Speaks uid server (server.part uid target reason) := by
  unfold part
  simp only
  split
  · refine Speaks.trans ?_ (dropMember_speaks _ _ _)
    unfold propagatePart
    split
    · rename_i user hu
      split
      · rename_i hreg
        exact .propagate (attributed_of_source hu hreg rfl rfl rfl rfl)
      · exact .refl server
    · exact .refl server
  · exact .refl server

/-! ## Joining -/

section

variable (hlets : ∀ letter ∈ letters, isWhitespace letter = false) (huuid : isCaps uuid = true)

include hlets huuid

theorem token_solid {char : Char}
    (hchar : char ∈ letters ++ ',' :: uuid) : isWhitespace char = false := by
  rcases List.mem_append.mp hchar with hlet | hrest
  · exact hlets char hlet
  · rcases List.mem_cons.mp hrest with rfl | hchar
    · decide
    · exact isWhitespace_of_isCaps huuid hchar

theorem listed_fjoin_single (source name modes : Str) (ts : Timestamp) :
    (Out.fjoin source name ts modes (letters ++ ',' :: uuid)).listed = [uuid] := by
  have hcomma : ',' ∉ uuid := not_mem_of_isCaps huuid (by decide)
  simp only [Out.listed, words_of_solid (by simp) fun _ => token_solid hlets huuid,
    List.map_cons, List.map_nil, Out.tokenUuid_append hcomma]

end

theorem statusLetters_solid (channel : Channel) (target : Uid) {letter : Char}
    (hlet : letter ∈ server.statusLetters channel target) : isWhitespace letter = false := by
  unfold statusLetters at hlet
  split at hlet
  · exact Member.modeLetters_solid _ _ hlet
  · cases hlet

theorem propagateJoin_speaks (chan : Str) (isNew : Bool)
    (huuid : ∀ user, server.users.lookup uid = some user → isCaps user.uuid = true) :
    Speaks uid server (server.propagateJoin uid chan isNew) := by
  unfold propagateJoin
  split
  · rename_i user channel hu hchan
    split
    · rename_i hreg
      have hid : (server.users.lookup uid).map User.identity = some (user.uuid, true) := by
        simp [hu, User.identity, hreg]
      split
      · refine .propagate ⟨rfl, rfl, fun uuid hnms => ?_⟩
        rcases hnms with hsrc | hlst
        · exact .inl (some.inj hsrc).symm
        · rw [listed_fjoin_single (fun _ => server.statusLetters_solid channel uid)
            (huuid user hu), List.mem_singleton] at hlst
          exact .inr (hlst ▸ hid)
      · exact .propagate (attributed_of_source hu hreg rfl rfl rfl rfl)
    · exact .refl server
  · exact .refl server

private theorem enter_speaks {server : Server} (henr : server.IsEnrolled uid) (key : Str)
    (member : Member)
    (hchan : server.channels.lookup key = some channel ∨
      server.channels.lookup key = none ∧ channel.members = ∅ ∧
        channel.rmembers = ∅) :
    Speaks uid server { server with
      channels := server.channels.insert key { channel with
        members := channel.members.insert uid member
        invites := channel.invites.filter (· ≠ uid) }
      users := modify uid (fun user => { user with
        channels := user.channels.insert key
        invited := user.invited.filter (· ≠ key) }) server.users } := by
  refine .of_silent ⟨rfl, rfl, rfl, map_modify ?_ uid, ?_, ?_, silent_lines rfl⟩
  · exact fun _ => rfl
  · intro name other hmb
    obtain ⟨found, hf, hin⟩ := isMember_iff.mp hmb
    -- entering a channel takes nobody off another one
    have hmono : ∀ {place}, server.isOn other place = true → ∃ user,
        (modify uid (fun user => { user with
          channels := user.channels.insert key
          invited := user.invited.filter (· ≠ key) }) server.users).lookup other =
          some user ∧ place ∈ user.channels := by
      intro place hon
      obtain ⟨user, hu, hplace⟩ := isOn_iff.mp hon
      rw [lookup_modify]
      split
      · rename_i hself
        rw [← hself, hu]
        exact ⟨_, rfl, List.mem_insert_of_mem hplace⟩
      · exact ⟨user, hu, hplace⟩
    obtain ⟨hname, rfl⟩ | ⟨-, hf⟩ := of_lookup_insert hf
    · rcases (AList.mem_insert _).mp hin with ho | hold
      · obtain ⟨uuid, huuid⟩ := henr
        obtain ⟨user, hu, _⟩ := map_eq_some_iff.mp huuid
        refine .inr ⟨ho, ⟨uuid, huuid⟩, isOn_iff.mpr ?_⟩
        simp only [lookup_modify_self, hu, map_some]
        exact ⟨_, rfl, hname ▸ List.mem_insert_self⟩
      · rcases hchan with hsome | ⟨_, hemp, _⟩
        · exact .inl ⟨isMember_iff.mpr ⟨channel, hname ▸ hsome, hold⟩,
            fun hon => isOn_iff.mpr (hmono hon)⟩
        · rw [hemp] at hold
          exact absurd hold (AList.notMem_empty _)
    · exact .inl ⟨isMember_iff.mpr ⟨found, hf, hin⟩, fun hon => isOn_iff.mpr (hmono hon)⟩
  · intro name uuid hmb
    obtain ⟨found, hf, hin⟩ := isRemoteMember_iff.mp hmb
    obtain ⟨hname, rfl⟩ | ⟨-, hf⟩ := of_lookup_insert hf
    · rcases hchan with hsome | ⟨_, _, hemp⟩
      · exact isRemoteMember_iff.mpr ⟨channel, hname ▸ hsome, hin⟩
      · simp only [hemp] at hin
        exact absurd hin (AList.notMem_empty _)
    · exact isRemoteMember_iff.mpr ⟨found, hf, hin⟩

section

variable {server : Server} (henr : server.IsEnrolled uid)
  (huuid : ∀ user, server.users.lookup uid = some user → isCaps user.uuid = true)

include henr huuid

theorem letIn_speaks (name : Str) :
    Speaks uid server (server.letIn uid name) := by
  have hchan : server.channels.lookup (toAsciiLower name) =
      some ((server.channels.lookup (toAsciiLower name)).getD (Channel.new server.clock name)) ∨
      server.channels.lookup (toAsciiLower name) = none ∧
        ((server.channels.lookup (toAsciiLower name)).getD
          (Channel.new server.clock name)).members = ∅ ∧
        ((server.channels.lookup (toAsciiLower name)).getD
          (Channel.new server.clock name)).rmembers = ∅ := by
    cases server.channels.lookup (toAsciiLower name) with
    | some channel => exact .inl rfl
    | none => exact .inr ⟨rfl, rfl, rfl⟩
  unfold letIn
  refine Speaks.trans (enter_speaks henr _ _ hchan) (Speaks.trans
    (propagateJoin_speaks _ name _ ?_) (.of_silent
      (.of_same rfl rfl rfl rfl (fun _ => rfl) id id)))
  intro user hu
  simp only [lookup_modify_self, map_eq_some_iff] at hu
  obtain ⟨earlier, hprev, rfl⟩ := hu
  exact huuid earlier hprev

theorem join_speaks (env : Env) (name : Str) :
    Speaks uid server (server.join env uid name) := by
  unfold join
  split
  · split
    · exact letIn_speaks henr huuid _
    · exact .refl server
  · exact .refl server

end

/-! ## Hooks -/

end Server

end EchoIrcd
