import EchoIrcd.LobbyRules

/-!
# The connection counters are exact

Admission trusts four counters instead of looking at the users.  A user counts
by its address, its class and whether it has registered; this is all the
counters depend on.  Every function either leaves it alone or changes it for
one user and moves the counters with it, so in every run the counters are the
numbers of users they stand for.  A class is entered only through `pick`, which
passes over a full one, so no class ever holds more users than its limit.
-/

namespace EchoIrcd

open Str Server Lobby Table Tally Option

variable {registered : Bool} {connClass : ConnClass} {boot lobby : Lobby} {after before : Server}
  {L : Type} {uid : Uid} {change : User → User} {host ip : Str} {user : User}

/-! ## What the counters see of a server -/

namespace Server

def face (server : Server) (uid : Uid) : Option (Str × Bool) :=
  (server.cardOf uid).map fun card => (card.ip, card.registered)

def SameFaces (before after : Server) : Prop := ∀ uid, after.face uid = before.face uid

namespace SameFaces

theorem refl (server : Server) : SameFaces server server := fun _ => rfl

theorem trans {first second third : Server} (hleft : SameFaces first second)
    (hrt : SameFaces second third) : SameFaces first third :=
  fun uid => (hrt uid).trans (hleft uid)

theorem of_cards
    (hcards : ∀ uid, after.cardOf uid = before.cardOf uid) : SameFaces before after := by
  intro uid
  rw [face, face, hcards]

theorem of_users (hus : after.users = before.users) : SameFaces before after :=
  of_cards (cardOf_of_users hus)

end SameFaces

theorem face_of_user {server : Server} (hu : server.users.lookup uid = some user) :
    server.face uid = some (user.ip, user.registered) := by
  rw [face, cardOf, hu]
  rfl

theorem face_changeUser (server : Server) (uid : Uid) (changeCard : Card → Card)
    (hchg : ∀ user, (change user).card = changeCard user.card) (other : Uid) :
    (server.changeUser uid change).face other =
      if other = uid then
        (server.cardOf uid).map fun card => ((changeCard card).ip, (changeCard card).registered)
      else server.face other := by
  rw [face, cardOf_changeUser server uid changeCard hchg]
  split
  · rw [map_map]
    rfl
  · rfl

theorem sameFaces_changeUser (server : Server) (uid : Uid)
    (hip : ∀ user, (change user).ip = user.ip)
    (hreg : ∀ user, (change user).registered = user.registered) :
    SameFaces server (server.changeUser uid change) := by
  intro other
  simp only [face, cardOf, changeUser, lookup_modify]
  split
  · rename_i ho
    subst ho
    simp only [map_map, Function.comp_def, User.card, hip, hreg]
  · rfl

theorem sameFaces_touches {marked : Uid → Prop}
    (htch : Touches marked before after) : SameFaces before after := by
  refine htch.frame SameFaces .refl .trans ?_
  intro before after htouch
  cases htouch with
  | say _ _ => exact .of_users rfl
  | user uid hchg _ =>
    refine sameFaces_changeUser before uid (fun user => ?_) fun user => ?_
    · exact congrArg (fun badge => badge.2.2.2.1) (hchg user)
    · exact congrArg (fun badge => badge.2.1) (hchg user)
  | regrade key uid change => exact .of_users rfl

theorem sameFaces_drainHooks (env : Env) (server : Server) :
    SameFaces server (server.drainHooks env) := by
  refine .trans ?_ (sameFaces_touches (touches_drainHooks env server))
  exact .of_users rfl

theorem face_welcome (env : Env) (uid other : Uid) (server : Server) :
    (server.welcome env uid).face other =
      if other = uid then (server.face uid).map fun face => (face.1, true)
      else server.face other := by
  rw [face, cardOf_welcome]
  split
  · rw [face, map_map, map_map]
    rfl
  · rfl

theorem face_removeUser (server : Server) (uid : Uid) (reason : Str) (other : Uid) :
    (server.removeUser uid reason).face other =
      if other = uid then none else server.face other := by
  rw [face, cardOf_removeUser]
  split <;> rfl

theorem sameFaces_setNick (server : Server) (uid : Uid) (newnick : Str) :
    SameFaces server (server.setNick uid newnick) := by
  intro other
  rw [face, cardOf_setNick]
  split
  · rename_i ho
    rw [ho, face, map_map]
    rfl
  · rfl

end Server

/-! ## Standings -/

/-- All that the counters depend on of one user. -/
structure Standing where
  ip : Str
  registered : Bool
  connClass : Option Str

namespace Standing

def byIp (standing : Standing) : Option Str := some standing.ip

def byClass (standing : Standing) : Option Str := standing.connClass

def byIpClass (standing : Standing) : Option (Str × Str) :=
  standing.connClass.map fun name => (standing.ip, name)

def byWait (standing : Standing) : Option Unit :=
  if standing.registered then none else some ()

end Standing

open Standing

namespace Lobby

def standing (lobby : Lobby) (uid : Uid) : Option Standing :=
  (lobby.server.face uid).map fun face => ⟨face.1, face.2, lobby.classOf uid⟩

def label {L : Type} (face : Standing → Option L) (lobby : Lobby) (uid : Uid) : Option L :=
  (lobby.standing uid).bind face

def roll (lobby : Lobby) : Finset Uid := lobby.server.users.keys.toFinset

theorem mem_roll : uid ∈ lobby.roll ↔ (lobby.standing uid).isSome := by
  simp only [roll, List.mem_toFinset, AList.mem_keys, standing, face, cardOf,
    isSome_map, AList.lookup_isSome]

theorem standing_of_user (hu : lobby.server.users.lookup uid = some user) :
    lobby.standing uid = some ⟨user.ip, user.registered, lobby.classOf uid⟩ := by
  rw [standing, face_of_user hu]
  rfl

theorem standing_of_absent (habs : uid ∉ lobby.server.users) : lobby.standing uid = none := by
  rw [standing, face, cardOf_eq_none.mpr habs]
  rfl

theorem label_of_user {face : Standing → Option L} {standing : Standing}
    (hstand : lobby.standing uid = some standing) : lobby.label face uid = face standing := by
  rw [label, hstand]
  rfl

theorem label_of_absent {face : Standing → Option L}
    (hstand : lobby.standing uid = none) : lobby.label face uid = none := by
  rw [label, hstand]
  rfl

def Apart (uid : Uid) (before after : Lobby) : Prop :=
  ∀ other, other ≠ uid → after.standing other = before.standing other

theorem Apart.shift {before after : Lobby} (hap : Apart uid before after)
    (face : Standing → Option L) :
    Shift before.roll after.roll (before.label face) (after.label face) uid where
  others := fun other hne => by rw [mem_roll, mem_roll, hap other hne]
  label := fun other hne => by rw [label, label, hap other hne]
  before := fun habs => by
    rw [mem_roll, not_isSome_iff_eq_none] at habs
    exact label_of_absent habs
  after := fun habs => by
    rw [mem_roll, not_isSome_iff_eq_none] at habs
    exact label_of_absent habs

theorem Apart.counts {before after : Lobby} [DecidableEq L] {face : Standing → Option L}
    {tally : Tally L} {old new : Option Standing} (hap : Apart uid before after)
    (hcts : tally.Counts before.roll (before.label face)) (hold : before.standing uid = old)
    (hnew : after.standing uid = new) :
    ((tally.drop (old.bind face)).add (new.bind face)).Counts after.roll (after.label face) := by
  refine hcts.change (hap.shift face) ?_ ?_
  · rw [label, hold]
  · rw [label, hnew]

/-! ## Exact counters -/

def occupants (lobby : Lobby) (name : Str) : Nat :=
  population lobby.roll (lobby.label byClass) name

structure Tallied (conf : LobbyConf) (lobby : Lobby) : Prop where
  perIp : lobby.counts.perIp.Counts lobby.roll (lobby.label byIp)
  perClass : lobby.counts.perClass.Counts lobby.roll (lobby.label byClass)
  perIpClass : lobby.counts.perIpClass.Counts lobby.roll (lobby.label byIpClass)
  unregistered :
    lobby.unregistered = population lobby.roll (lobby.label byWait) ()
  room : ∀ connClass ∈ conf.classes, ∀ limit, connClass.limit = some limit →
    lobby.occupants connClass.name ≤ limit

open Tallied

section

variable {conf : LobbyConf} {before after lobby : Lobby} {uid : Uid}

structure Alike (before after : Lobby) : Prop where
  standing : ∀ uid, after.standing uid = before.standing uid
  counts : after.counts = before.counts
  unregistered : after.unregistered = before.unregistered

theorem Tallied.of_alike (htal : Tallied conf before) (halike : Alike before after) :
    Tallied conf after := by
  have hroll : after.roll = before.roll := by
    ext uid
    rw [mem_roll, mem_roll, halike.standing]
  have hlabel : ∀ {L : Type} (face : Standing → Option L),
      after.label face = before.label face := by
    intro L face
    funext uid
    rw [label, label, halike.standing]
  refine ⟨?_, ?_, ?_, ?_, ?_⟩
  · rw [halike.counts, hroll, hlabel]
    exact htal.perIp
  · rw [halike.counts, hroll, hlabel]
    exact htal.perClass
  · rw [halike.counts, hroll, hlabel]
    exact htal.perIpClass
  · rw [halike.unregistered, hroll, hlabel]
    exact htal.unregistered
  · intro connClass hmem limit hlim
    rw [occupants, hroll, hlabel]
    exact htal.room connClass hmem limit hlim

theorem alike_server {server : Server} (hfaces : SameFaces lobby.server server) :
    Alike lobby { lobby with server := server } := by
  refine ⟨fun uid => ?_, rfl, rfl⟩
  rw [standing, standing, hfaces uid]
  rfl

theorem classOf_changeSession (lobby : Lobby) (uid : Uid) (change : Session → Session)
    (other : Uid) :
    (lobby.changeSession uid change).classOf other =
      if other = uid then (lobby.sessions.lookup uid).bind fun session =>
        (change session).connClass
      else lobby.classOf other := by
  unfold classOf changeSession
  rw [lookup_modify]
  split
  · rw [bind_map]
    rfl
  · rfl

theorem alike_changeSession (lobby : Lobby) (uid : Uid) {change : Session → Session}
    (hchg : ∀ session, (change session).connClass = session.connClass) :
    Alike lobby (lobby.changeSession uid change) := by
  refine ⟨fun other => ?_, rfl, rfl⟩
  have hcla : (lobby.changeSession uid change).classOf other = lobby.classOf other := by
    rw [classOf_changeSession]
    split
    · rename_i ho
      subst ho
      simp only [hchg]
      rfl
    · rfl
  rw [standing, standing, hcla]
  rfl

theorem alike_changeUser (lobby : Lobby) (uid : Uid) (hip : ∀ user, (change user).ip = user.ip)
    (hreg : ∀ user, (change user).registered = user.registered) :
    Alike lobby (lobby.changeUser uid change) :=
  alike_server (sameFaces_changeUser _ uid hip hreg)

/-! ## Coming and going -/

theorem Apart.occupants (hap : Apart uid before after) (name : Str) :
    after.occupants name + (if before.label byClass uid = some name then 1 else 0) =
      before.occupants name +
        if after.label byClass uid = some name then 1 else 0 :=
  (hap.shift byClass).population name

theorem Tallied.room_of_apart (htal : Tallied conf before) (hap : Apart uid before after)
    (hcla : after.label byClass uid = none ∨ after.label byClass uid = before.label byClass uid) :
    ∀ connClass ∈ conf.classes, ∀ limit, connClass.limit = some limit →
      after.occupants connClass.name ≤ limit := by
  intro connClass hmem limit hlim
  have hroom := htal.room connClass hmem limit hlim
  have hmv := hap.occupants connClass.name
  rcases hcla with hnone | hs
  · rw [hnone] at hmv
    simp only [reduceCtorEq, if_false] at hmv
    omega
  · rw [hs] at hmv
    omega

theorem Tallied.unregistered_of_apart (htal : Tallied conf before)
    (hap : Apart uid before after) (hwait : after.label byWait uid = before.label byWait uid)
    (hs : after.unregistered = before.unregistered) :
    after.unregistered = population after.roll (after.label byWait) () := by
  rw [hs, htal.unregistered, (hap.shift _).population_eq hwait]

theorem standing_removeUser (lobby : Lobby) (uid : Uid) (reason : Str) (other : Uid) :
    (lobby.removeUser uid reason).standing other =
      if other = uid then none else lobby.standing other := by
  unfold removeUser
  split
  · rename_i habs
    split
    · rename_i ho
      subst ho
      exact standing_of_absent (AList.lookup_eq_none.mp habs)
    · rfl
  · simp only [standing, face_removeUser, classOf, lookup_erase_eq]
    split <;> rfl

theorem Tallied.removeUser (htal : Tallied conf lobby) (uid : Uid) (reason : Str) :
    Tallied conf (lobby.removeUser uid reason) := by
  have hap : Apart uid lobby (lobby.removeUser uid reason) := by
    intro other hne
    rw [standing_removeUser, if_neg hne]
  have hgone : (lobby.removeUser uid reason).standing uid = none := by
    rw [standing_removeUser, if_pos rfl]
  cases hu : lobby.server.users.lookup uid with
  | none =>
    simp only [Lobby.removeUser, hu]
    exact htal
  | some user =>
    have hstand := standing_of_user hu
    have hcts : (lobby.removeUser uid reason).counts =
        lobby.counts.countDisconnect user.ip (lobby.classOf uid) := by
      simp only [Lobby.removeUser, hu]
    have hunreg : (lobby.removeUser uid reason).unregistered =
        if user.registered then lobby.unregistered else lobby.unregistered - 1 := by
      simp only [Lobby.removeUser, hu]
    generalize lobby.classOf uid = connClass at hstand hcts
    refine ⟨?_, ?_, ?_, ?_, htal.room_of_apart hap (.inl (label_of_absent hgone))⟩
    · rw [hcts, CloneCounts.countDisconnect_perIp]
      exact hap.counts htal.perIp hstand hgone
    · rw [hcts]
      cases connClass <;> exact hap.counts htal.perClass hstand hgone
    · rw [hcts]
      cases connClass <;> exact hap.counts htal.perIpClass hstand hgone
    · have hmv := (hap.shift byWait).population ()
      rw [label_of_user hstand, label_of_absent hgone, byWait,
        ← htal.unregistered] at hmv
      rw [hunreg]
      cases hreg : user.registered <;> simp [hreg] at hmv ⊢ <;> omega

theorem Tallied.enter (htal : Tallied conf lobby) {session : Session}
    (hfre : uid ∉ lobby.server.users) (hcla : session.connClass = none) :
    Tallied conf (lobby.enter uid user session) := by
  have ho : ∀ other, (lobby.enter uid user session).standing other =
      if other = uid then some ⟨user.ip, user.registered, none⟩
      else lobby.standing other := by
    intro other
    simp only [standing, face, cardOf, classOf, Lobby.enter, addConn_users, lookup_insert_eq]
    split
    · simp [hcla, User.card]
    · rfl
  have hap : Apart uid lobby (lobby.enter uid user session) := by
    intro other hne
    rw [ho, if_neg hne]
  have hentd := ho uid
  rw [if_pos rfl] at hentd
  have hbef := standing_of_absent hfre
  refine ⟨?_, ?_, ?_, ?_, htal.room_of_apart hap (.inl (label_of_user hentd))⟩
  · exact hap.counts htal.perIp hbef hentd
  · exact hap.counts htal.perClass hbef hentd
  · exact hap.counts htal.perIpClass hbef hentd
  · have hmv := (hap.shift byWait).population ()
    rw [label_of_user hentd, label_of_absent hbef, byWait, ← htal.unregistered] at hmv
    have hunreg : (lobby.enter uid user session).unregistered =
        if user.registered then lobby.unregistered else lobby.unregistered + 1 := rfl
    rw [hunreg]
    cases hreg : user.registered <;> simp [hreg] at hmv ⊢ <;> omega

/-! ## Classes and addresses -/

theorem occupants_lt_of_not_full (htal : Tallied conf lobby)
    (hroom : lobby.isFull uid connClass = false)
    (hout : lobby.classOf uid ≠ some connClass.name) {limit : Nat}
    (hlim : connClass.limit = some limit) : lobby.occupants connClass.name < limit := by
  simp only [isFull, hlim, classCount, if_neg hout, Nat.sub_zero,
    htal.perClass connClass.name, decide_eq_false_iff_not, Nat.not_le] at hroom
  exact hroom

theorem label_stays (face : Standing → Option L) {old new : Standing}
    (hold : before.standing uid = some old) (hnew : after.standing uid = some new)
    (hface : face new = face old) : after.label face uid = before.label face uid := by
  rw [label_of_user hnew, label_of_user hold, hface]

namespace Tallied

variable (htal : Tallied conf before) (hap : Apart uid before after)

include htal hap

theorem reclass {name : Str} {old : Option Str}
    (hold : before.standing uid = some ⟨ip, registered, old⟩)
    (hnew : after.standing uid = some ⟨ip, registered, some name⟩)
    (hcts : after.counts = (match old with
      | some old => before.counts.leaveClass ip old
      | none => before.counts).enterClass ip name)
    (hunreg : after.unregistered = before.unregistered)
    (hfree : ∀ connClass ∈ conf.classes, connClass.name = name → ∀ limit,
      connClass.limit = some limit → before.occupants name < limit) : Tallied conf after := by
  refine ⟨?_, ?_, ?_, ?_, ?_⟩
  · have hs : after.counts.perIp = before.counts.perIp := by
      rw [hcts]
      cases old <;> rfl
    rw [hs]
    exact htal.perIp.stay (hap.shift _) (label_stays _ hold hnew rfl)
  · rw [hcts]
    cases old <;> exact hap.counts htal.perClass hold hnew
  · rw [hcts]
    cases old <;> exact hap.counts htal.perIpClass hold hnew
  · exact htal.unregistered_of_apart hap (label_stays _ hold hnew rfl) hunreg
  · intro connClass hmem limit hlim
    have hroom := htal.room connClass hmem limit hlim
    have hmv := hap.occupants connClass.name
    rw [label_of_user hnew] at hmv
    by_cases hname : connClass.name = name
    · have hbelow := hfree connClass hmem hname limit hlim
      rw [← hname] at hbelow
      split at hmv <;> split at hmv <;> omega
    · have ho : ¬byClass ⟨ip, registered, some name⟩ = some connClass.name := by
        intro heq
        exact hname (some.inj heq).symm
      rw [if_neg ho] at hmv
      omega

theorem readdress {old new : Str} {connClass : Option Str}
    (hold : before.standing uid = some ⟨old, registered, connClass⟩)
    (hnew : after.standing uid = some ⟨new, registered, connClass⟩)
    (hcts : after.counts = before.counts.changeIp old new connClass)
    (hunreg : after.unregistered = before.unregistered) : Tallied conf after := by
  have hcla := label_stays byClass hold hnew rfl
  refine ⟨?_, ?_, ?_, ?_, htal.room_of_apart hap (.inr hcla)⟩
  · rw [hcts, CloneCounts.changeIp]
    split
    · rename_i hs
      exact htal.perIp.stay (hap.shift _) (label_stays _ hold hnew (by rw [hs]))
    · cases connClass <;> exact hap.counts htal.perIp hold hnew
  · have hs : after.counts.perClass = before.counts.perClass := by
      rw [hcts, CloneCounts.changeIp]
      split
      · rfl
      · cases connClass <;> rfl
    rw [hs]
    exact htal.perClass.stay (hap.shift _) hcla
  · rw [hcts, CloneCounts.changeIp]
    split
    · rename_i hs
      exact htal.perIpClass.stay (hap.shift _) (label_stays _ hold hnew (by rw [hs]))
    · cases connClass <;> exact hap.counts htal.perIpClass hold hnew
  · exact htal.unregistered_of_apart hap (label_stays _ hold hnew rfl) hunreg

theorem register {connClass : Option Str}
    (hold : before.standing uid = some ⟨ip, registered, connClass⟩)
    (hnew : after.standing uid = some ⟨ip, true, connClass⟩)
    (hcts : after.counts = before.counts)
    (hunreg : after.unregistered =
      if registered then before.unregistered else before.unregistered - 1) :
    Tallied conf after := by
  have hcla := label_stays byClass hold hnew rfl
  refine ⟨?_, ?_, ?_, ?_, htal.room_of_apart hap (.inr hcla)⟩
  · rw [hcts]
    exact htal.perIp.stay (hap.shift _) (label_stays _ hold hnew rfl)
  · rw [hcts]
    exact htal.perClass.stay (hap.shift _) hcla
  · rw [hcts]
    exact htal.perIpClass.stay (hap.shift _) (label_stays _ hold hnew rfl)
  · have hmv := (hap.shift byWait).population ()
    rw [label_of_user hnew, label_of_user hold, ← htal.unregistered] at hmv
    rw [hunreg]
    cases registered <;> simp [byWait] at hmv ⊢ <;> omega

end Tallied

theorem Tallied.setClass (htal : Tallied conf lobby) (hmem : connClass ∈ conf.classes)
    (hroom : lobby.isFull uid connClass = false) :
    Tallied conf (lobby.setClass uid connClass.name) := by
  unfold Lobby.setClass
  split
  · rename_i user session hu hsess
    split
    · exact htal
    · rename_i hout
      have hcla : lobby.classOf uid = session.connClass := by
        rw [classOf, hsess]
        rfl
      have hold := standing_of_user hu
      rw [hcla] at hold
      refine htal.reclass ?_ hold ?_ rfl rfl ?_
      · intro other hne
        simp only [standing, classOf, lookup_insert_eq, if_neg hne]
      · simp only [standing, face_of_user hu, classOf, lookup_insert_eq,
          if_true]
        rfl
      · intro other ho hname limit hlim
        cases classesOf_unique ho hmem hname
        refine occupants_lt_of_not_full htal hroom ?_ hlim
        rw [hcla]
        exact hout
  · exact htal

/-! ## Bans and new connections -/

variable (env : LobbyEnv) (answers : Answers)

theorem pickFrom_chosen {port : Nat} {classes : List ConnClass}
    (hpick : lobby.pickFrom env uid host user port classes = .chosen connClass) :
    connClass ∈ classes ∧ lobby.isFull uid connClass = false := by
  induction classes with
  | nil => cases hpick
  | cons first rest ih =>
    have hlat : lobby.pickFrom env uid host user port rest = .chosen connClass →
        connClass ∈ first :: rest ∧ lobby.isFull uid connClass = false := by
      intro hpick
      exact ⟨List.mem_cons_of_mem _ (ih hpick).1, (ih hpick).2⟩
    rw [pickFrom] at hpick
    split at hpick
    · exact hlat hpick
    · split at hpick
      · cases hpick
      · split at hpick
        · exact hlat hpick
        · rename_i hfull
          cases hpick
          exact ⟨List.mem_cons_self, Bool.not_eq_true _ ▸ hfull⟩

namespace Tallied

variable (htal : Tallied conf lobby)

include htal

theorem server {server : Server}
    (hfaces : SameFaces lobby.server server) : Tallied conf { lobby with server := server } :=
  htal.of_alike (alike_server hfaces)

theorem changeSession (uid : Uid) {change : Session → Session}
    (hchg : ∀ session, (change session).connClass = session.connClass) :
    Tallied conf (lobby.changeSession uid change) :=
  htal.of_alike (alike_changeSession lobby uid hchg)

theorem refuseAll (victims : List (Uid × Str)) : Tallied conf (lobby.refuseAll victims) :=
  List.foldlRecOn (motive := Tallied conf) victims _ htal
    fun _ hr victim _ => hr.removeUser victim.1 victim.2

theorem addXlineAt (kind : XKind) (mask : Str) (duration : UInt64) (setter reason : Str)
    (setAt : Timestamp) :
    Tallied conf (lobby.addXlineAt env kind mask duration setter reason setAt) := by
  refine refuseAll (htal.server ?_) _
  exact .of_users rfl

theorem setPicked (hpick : lobby.pick env conf uid host user = .chosen connClass) :
    Tallied conf (lobby.setClass uid connClass.name) := by
  obtain ⟨hmem, hroom⟩ := pickFrom_chosen env hpick
  exact htal.setClass hmem hroom

theorem assign {assigned : Lobby}
    (hasg : lobby.assign env conf uid = .ok assigned) : Tallied conf assigned := by
  obtain rfl | ⟨_, _, _, hpick, rfl⟩ := assign_cases hasg
  · exact htal
  · exact htal.setPicked env hpick

theorem addConn {arrival : Arrival} (hfre : arrival.uid ∉ lobby.server.users) :
    Tallied conf (lobby.addConn env conf arrival) := by
  have hentd : Tallied conf (lobby.arrive arrival) := htal.enter hfre rfl
  have hscr : Tallied conf ((lobby.arrive arrival).connectban env arrival) := by
    unfold Lobby.connectban
    split
    · exact hentd.addXlineAt ..
    · exact hentd
  unfold Lobby.addConn
  simp only
  split
  · exact hentd.removeUser ..
  · split
    · exact hentd.removeUser ..
    · split
      · exact hentd.removeUser ..
      · split
        · exact hentd.removeUser ..
        · split
          · exact hscr.removeUser ..
          · rename_i hasg
            exact (hscr.assign env hasg).changeSession _ fun _ => rfl

theorem mintPuppet (hfre : uid ∉ lobby.server.users) (uuid nick ident host realname : Str) :
    Tallied conf (lobby.mintPuppet uid uuid nick ident host realname) := by
  refine (htal.enter hfre rfl).server ?_
  have htold : ∀ server : Server, Touches (fun _ => False) server
      (server.introduceToLinks uid) := touches_introduceToLinks uid
  refine .trans ?_ (sameFaces_touches (htold _))
  exact .of_users rfl

/-! ## Commands -/

theorem changeUser (uid : Uid) (hip : ∀ user, (change user).ip = user.ip)
    (hreg : ∀ user, (change user).registered = user.registered) :
    Tallied conf (lobby.changeUser uid change) :=
  htal.of_alike (alike_changeUser lobby uid hip hreg)

theorem does {names : Bool} {after : Lobby} (hdoes : Does uid lobby names after) :
    Tallied conf after := by
  cases hdoes with
  | nothing => exact htal
  | leaves _ reason => exact htal.removeUser uid reason
  | session _ hs => exact htal.changeSession uid fun session => (hs session).1
  | nick newnick => exact htal.server (sameFaces_setNick lobby.server uid newnick)
  | nickLeaves newnick reason =>
    exact (htal.server (sameFaces_setNick lobby.server uid newnick)).removeUser ..
  | user changeCard hcard hs =>
    refine htal.changeUser uid (fun user => ?_) fun user => ?_
    · exact (congrArg Card.ip (hcard user)).trans (hs user.card).1
    · exact (congrArg Card.registered (hcard user)).trans (hs user.card).2
  | webirc host new hu =>
    refine htal.readdress ?_ (standing_of_user hu) ?_ rfl rfl
    · intro other hne
      simp only [standing, Lobby.changeUser]
      rw [face_changeUser _ uid ({ · with host := host, ip := new }) fun _ => rfl, if_neg hne]
      rfl
    · simp only [standing, Lobby.changeUser]
      rw [face_changeUser _ uid ({ · with host := host, ip := new }) fun _ => rfl,
        if_pos rfl, cardOf, hu]
      rfl

/-! ## Registration -/

theorem applyIdent : Tallied conf (lobby.applyIdent uid) := by
  unfold Lobby.applyIdent
  split
  · exact htal.changeUser uid (fun _ => rfl) fun _ => rfl
  · exact htal

theorem finishRegister : Tallied conf (lobby.finishRegister conf uid) := by
  unfold Lobby.finishRegister
  split
  · exact htal.server (sameFaces_touches (touches_svsSetUserModes ..))
  · exact htal

theorem welcome : Tallied conf (lobby.welcome env uid) := by
  unfold Lobby.welcome
  split
  · exact htal
  · rename_i user hu
    split
    · exact htal.removeUser ..
    · refine htal.register ?_ (standing_of_user hu) ?_ rfl rfl
      · intro other hne
        simp only [standing, face_welcome, if_neg hne]
        rfl
      · simp only [standing, face_welcome, if_true]
        rw [face_of_user hu]
        rfl

omit htal in
theorem rules : Rules env conf uid (Tallied conf) (Tallied conf) where
  stop := id
  leave := fun reason htal => htal.removeUser uid reason
  choose := fun htal hpick => htal.setPicked env hpick
  finish := fun htal => htal.finishRegister
  await := fun htal => htal.changeSession uid fun _ => rfl
  welcome := fun htal => htal.welcome env

theorem tryRegister : Tallied conf (lobby.tryRegister env conf answers uid) := by
  unfold Lobby.tryRegister
  split
  · exact (rules env).completeRegistration htal fun _ =>
      ⟨htal.applyIdent, fun _ => htal.applyIdent⟩
  · exact htal

theorem onLine (line : ClientLine) : Tallied conf (lobby.onLine env conf answers uid line) := by
  have hdispatched : Tallied conf (lobby.dispatch env conf answers uid line) := by
    unfold Lobby.dispatch
    simp only
    split
    · exact htal
    · split
      · exact htal
      · split
        · exact htal.does (does_handle line)
        · exact (htal.does (does_handle line)).tryRegister ..
  unfold Lobby.onLine
  split
  · exact htal.changeSession uid fun _ => rfl
  · exact hdispatched

theorem replay (lines : List ClientLine) :
    Tallied conf (lobby.replay env conf answers uid lines) := by
  refine List.foldlRecOn (motive := Tallied conf) lines _ htal ?_
  intro reached hr line _
  split
  · exact hr.onLine ..
  · exact hr

theorem resolvedHost (host refused : Option Str) :
    Tallied conf (lobby.resolvedHost env conf answers uid host refused) := by
  have hresolved : Tallied conf (lobby.onResolved conf uid host refused) := by
    refine changeSession ?_ uid fun _ => rfl
    have hnm : Tallied conf (match host with
        | some host =>
          if conf.useResolvedHost then
            lobby.changeUser uid fun user => { user with host := host }
          else lobby
        | none => lobby) := by
      split
      · split
        · exact htal.changeUser uid (fun _ => rfl) fun _ => rfl
        · exact htal
      · exact htal
    split
    · exact hnm.removeUser ..
    · exact hnm
  refine tryRegister env answers (replay env answers ?_ _)
  refine hresolved.changeSession uid ?_
  exact fun _ => rfl

theorem connclassAuth (ok : Bool) : Tallied conf (lobby.connclassAuth env conf uid ok) := by
  have hrel : Tallied conf (lobby.changeSession uid fun session =>
      { session with authPending := false }) := htal.changeSession uid fun _ => rfl
  unfold Lobby.connclassAuth
  simp only
  split
  · exact hrel
  · split
    · exact hrel.finishRegister.welcome env
    · exact hrel.removeUser ..

end Tallied

/-! ## Events -/

def headcount (test : User → Option Str → Bool) (lobby : Lobby) : Nat :=
  ((toPairs lobby.server.users).filter fun entry =>
    test entry.2 (lobby.classOf entry.1)).length

theorem headcount_eq [DecidableEq L] (face : Standing → Option L) (label : L)
    {test : User → Option Str → Bool}
    (htest : ∀ user connClass, test user connClass = true ↔
      face ⟨user.ip, user.registered, connClass⟩ = some label) (lobby : Lobby) :
    lobby.headcount test = population lobby.roll (lobby.label face) label := by
  unfold headcount population
  rw [length_filter_toPairs]
  congr 1
  ext uid
  rw [Finset.mem_filter, Finset.mem_filter]
  refine and_congr_right fun hmem => ?_
  rw [List.mem_toFinset, ← AList.mem_keys, mem_iff_lookup] at hmem
  obtain ⟨user, hu⟩ := hmem
  rw [label_of_user (standing_of_user hu), hu, ← htest]
  rfl

theorem byWait_iff (user : User) (connClass : Option Str) :
    (!user.registered) = true ↔ byWait ⟨user.ip, user.registered, connClass⟩ = some () := by
  cases hreg : user.registered <;> simp [byWait]

theorem Tallied.recount (htal : Tallied conf lobby) : Tallied conf lobby.recount := by
  have hcnt : lobby.recount.unregistered = lobby.unregistered := by
    rw [htal.unregistered, ← headcount_eq byWait () byWait_iff]
    rfl
  exact htal.of_alike ⟨fun _ => rfl, rfl, hcnt⟩

theorem Tallied.apply (htal : Tallied conf lobby) {event : LobbyEvent}
    (hen : event.Enabled lobby) : Tallied conf (event.apply env conf answers lobby) := by
  cases event with
  | connect arrival => exact htal.addConn env hen
  | line uid line => exact htal.onLine ..
  | resolved uid host refused => exact htal.resolvedHost ..
  | ident uid answer =>
    refine tryRegister env answers (htal.changeSession uid ?_)
    exact fun _ => rfl
  | classAuth uid ok => exact htal.connclassAuth ..
  | verified uid => exact htal.tryRegister ..
  | puppet uid uuid nick username host realname => exact htal.mintPuppet hen ..
  | disconnect uid reason => exact htal.removeUser ..
  | addXline kind mask duration setter reason setAt => exact htal.addXlineAt ..
  | addRline pattern duration setter reason =>
    exact (htal.addXlineAt env .rline pattern duration setter reason _).refuseAll _
  | removeXline kind mask => exact htal.server (.of_users rfl)
  | tick =>
    refine recount (htal.server ?_)
    exact .of_users rfl

theorem Tallied.step (htal : Tallied conf before) (hstep : LobbyStep env conf before after) :
    Tallied conf after := by
  obtain ⟨now, answers, event, hen, rfl⟩ := hstep
  have hclocked : Tallied conf (before.setClock now) := htal.server (.of_users rfl)
  have hrdy : event.Enabled (before.setClock now) := by
    cases event <;> exact hen
  exact (hclocked.apply env answers hrdy).server (sameFaces_drainHooks _ _)

structure Closed (boot : Lobby) : Prop where
  users : boot.server.users = ∅
  counts : boot.counts = {}
  unregistered : boot.unregistered = 0

theorem Closed.tallied (hboot : boot.Closed) : Tallied conf boot := by
  have hroll : boot.roll = ∅ := by
    rw [roll, hboot.users]
    rfl
  have hnobody : ∀ {L : Type} [DecidableEq L] (labelOf : Uid → Option L) label,
      population boot.roll labelOf label = 0 := by
    intro L _ labelOf label
    rw [hroll]
    rfl
  refine ⟨?_, ?_, ?_, ?_, ?_⟩
  · intro ip
    rw [hnobody, hboot.counts]
    rfl
  · intro name
    rw [hnobody, hboot.counts]
    rfl
  · intro pair
    rw [hnobody, hboot.counts]
    rfl
  · rw [hnobody, hboot.unregistered]
  · intro connClass _ limit _
    rw [occupants, hnobody]
    exact Nat.zero_le limit

theorem tallied_of_run (hboot : boot.Closed)
    (hrun : Relation.ReflTransGen (LobbyStep env conf) boot lobby) : Tallied conf lobby := by
  induction hrun with
  | refl => exact hboot.tallied
  | tail _ hstep ih => exact ih.step env hstep

end

end Lobby

/-- In every run the counters are the numbers of users, and no class is overfull. -/
theorem lobbyRun_counted (env : LobbyEnv) (conf : LobbyConf) {boot lobby : Lobby}
    (hboot : boot.Closed) (hrun : Relation.ReflTransGen (LobbyStep env conf) boot lobby) :
    (∀ ip, lobby.counts.perIp.get ip = lobby.headcount fun user _ => user.ip = ip) ∧
    (∀ name, lobby.counts.perClass.get name =
      lobby.headcount fun _ connClass => connClass = some name) ∧
    (∀ ip name, lobby.counts.perIpClass.get (ip, name) =
      lobby.headcount fun user connClass => user.ip = ip ∧ connClass = some name) ∧
    lobby.unregistered = (lobby.headcount fun user _ => !user.registered) ∧
    ∀ connClass ∈ conf.classes, ∀ limit, connClass.limit = some limit →
      (lobby.headcount fun _ joined => joined = some connClass.name) ≤ limit := by
  have htal := tallied_of_run env hboot hrun
  have hcla : ∀ name, (lobby.headcount fun _ connClass => connClass = some name) =
      lobby.occupants name := by
    intro name
    refine headcount_eq byClass name (fun user connClass => ?_) lobby
    simp [byClass]
  refine ⟨fun ip => ?_, fun name => ?_, fun ip name => ?_, ?_, ?_⟩
  · rw [htal.perIp ip, headcount_eq byIp ip]
    simp [byIp]
  · rw [htal.perClass name, hcla]
    rfl
  · rw [htal.perIpClass (ip, name), headcount_eq byIpClass (ip, name)]
    intro user connClass
    cases connClass <;> simp [byIpClass]
  · rw [htal.unregistered, headcount_eq byWait () byWait_iff]
  · intro connClass hmem limit hlim
    rw [hcla]
    exact htal.room connClass hmem limit hlim

def oneSeat : LobbyConf := { connectclass := ["main limit=1"] }

theorem lobbyRun_counted_full :
    let lobby := Lobby.after oneSeat [arrives 1 "1AAAAAAAA", arrives 2 "1AAAAAAAB"]
    lobby.counts.perIp.get "10.0.0.1" = 2 ∧ lobby.counts.perClass.get "main" = 1 ∧
      lobby.unregistered = (lobby.headcount fun user _ => !user.registered) ∧
      (lobby.headcount fun _ joined => joined = some ("main" : Str)) ≤ 1 := by
  intro lobby
  have hfst : 1 ∉ Lobby.plainBoot.server.users := by decide
  have hsec : 2 ∉ (Lobby.after oneSeat [arrives 1 "1AAAAAAAA"]).server.users := by
    decide +kernel
  have hrun : Relation.ReflTransGen (LobbyStep .plain oneSeat) .plainBoot lobby :=
    .tail (.tail .refl ⟨0, .plain, arrives 1 "1AAAAAAAA", hfst, rfl⟩)
      ⟨0, .plain, arrives 2 "1AAAAAAAB", hsec, rfl⟩
  have hmain : { name := "main", allow := ["*"], limit := some 1 } ∈ oneSeat.classes := by
    decide +kernel
  obtain ⟨-, -, -, hwaiting, hroom⟩ := lobbyRun_counted .plain oneSeat ⟨rfl, rfl, rfl⟩ hrun
  refine ⟨?_, ?_, hwaiting, hroom _ hmain 1 rfl⟩
  · decide +kernel
  · decide +kernel

end EchoIrcd
