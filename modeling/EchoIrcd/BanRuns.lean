import EchoIrcd.LobbyRules

/-!
# Bans at the moment of registration

A client is matched against the K-, G- and Z-lines before its ident reply is
applied, and a client whose class password is checked outside the core is
welcomed later without being matched again.  So a confirmed ident, a line the
client sends meanwhile or a ban that is set meanwhile can let a banned client
in.  In a run without these every client that registers is clear of all bans
in force at that moment.
-/

namespace EchoIrcd

open Str Server Lobby Table Relation List Option

variable {arrival : Arrival} {card : Card} {line : ClientLine} {env : LobbyEnv}
  {after before server : Server}

namespace Server

/-! ## Bans in force -/

def hit (env : Env) (server : Server) (kind : XKind) (card : Card) : Bool :=
  server.xlines.any (XLine.covers env server.clock kind (card.ident ++ '@' :: card.host) card.ip)

def rlined (env : LobbyEnv) (server : Server) (card : Card) : Option Str :=
  server.matchedRline env card.nick card.ident card.host card.ip card.realname

def Clear (env : LobbyEnv) (server : Server) (card : Card) : Prop :=
  server.matchedXline env.core card.ident card.host card.ip = none ∧
    server.rlined env card = none

instance (env : LobbyEnv) (server : Server) (card : Card) : Decidable (server.Clear env card) :=
  inferInstanceAs (Decidable (_ ∧ _))

theorem matchedXline_eq_none {env : Env} :
    server.matchedXline env card.ident card.host card.ip = none ↔
      server.hit env .eline card = true ∨
        ∀ kind ∈ [XKind.kline, .gline, .zline], server.hit env kind card = false := by
  have hf : ∀ kind, server.hit env kind card = (server.xlines.find?
      (XLine.covers env server.clock kind (card.ident ++ '@' :: card.host) card.ip)).isSome := by
    intro kind
    rw [hit, Bool.eq_iff_iff, List.any_eq_true, find?_isSome]
  simp only [matchedXline, hf]
  split
  · rename_i hexm
    simp [hexm]
  · rename_i hexm
    simp [hexm, findSome?_eq_none_iff]

def laws (server : Server) : List XLine × Timestamp := (server.xlines, server.clock)

theorem Clear.of_laws (hclear : before.Clear env card) (hlaws : after.laws = before.laws) :
    after.Clear env card := by
  obtain ⟨hxlines, hclk⟩ := Prod.mk.inj hlaws
  simp only [Clear, matchedXline, rlined, matchedRline, hxlines, hclk] at hclear ⊢
  exact hclear

/-- No ban that matches the client comes into force, and no exemption of it ends. -/
structure Steadfast (env : LobbyEnv) (card : Card) (before after : Server) : Prop where
  exempt : before.hit env.core .eline card = true → after.hit env.core .eline card = true
  bans : ∀ kind ∈ [XKind.kline, .gline, .zline], after.hit env.core kind card = true →
    before.hit env.core kind card = true
  rlines : (after.rlined env card).isSome → (before.rlined env card).isSome

theorem Steadfast.clear (hstd : Steadfast env card before after)
    (hclear : before.Clear env card) : after.Clear env card := by
  obtain ⟨hxl, hrline⟩ := hclear
  constructor
  · rw [matchedXline_eq_none] at hxl ⊢
    rcases hxl with hexm | hfree
    · exact .inl (hstd.exempt hexm)
    · right
      intro kind hkind
      have hbef := Bool.eq_false_iff.mp (hfree kind hkind)
      exact Bool.eq_false_iff.mpr (mt (hstd.bans kind hkind) hbef)
  · rw [← not_isSome_iff_eq_none] at hrline ⊢
    exact mt hstd.rlines hrline

/-! ## What leaves the bans alone -/

def ledger (server : Server) : (List XLine × Timestamp) × List Hook :=
  (server.laws, server.events)

theorem ledger_touches {marked : Uid → Prop}
    (htch : Touches marked before after) : after.ledger = before.ledger := by
  refine htch.same ledger ?_
  intro before after htouch
  cases htouch <;> rfl

theorem ledger_removeUser (uid : Uid) (reason : Str) (server : Server) :
    (server.removeUser uid reason).ledger = server.ledger := by
  unfold removeUser
  split
  · rfl
  · split <;> split <;> rfl

theorem ledger_setNick (uid : Uid) (newnick : Str) (server : Server) :
    (server.setNick uid newnick).ledger = server.ledger := by
  have htold : ∀ server : Server,
      (server.propagateNick uid newnick).ledger = server.ledger := by
    intro server
    unfold propagateNick
    split
    · split <;> rfl
    · rfl
  unfold setNick
  split
  · rfl
  · rw [htold]
    split <;> rfl

theorem laws_join (env : Env) (uid : Uid) (server : Server) (name : Str) :
    (server.join env uid name).laws = server.laws := by
  have htold : ∀ (server : Server) name isNew,
      (server.propagateJoin uid name isNew).laws = server.laws := by
    intro server name isNew
    obtain ⟨sent, hsent⟩ := server.propagateJoin_eq uid name isNew
    rw [hsent]
    rfl
  unfold join
  split
  · split
    · exact htold ..
    · rfl
  · rfl

theorem connect_mem_join {env : Env} {uid other : Uid} {name : Str}
    (hque : Hook.connect other ∈ (server.join env uid name).events) :
    Hook.connect other ∈ server.events := by
  unfold join at hque
  split at hque
  · split at hque
    · simp only [letIn, mem_append, mem_singleton, reduceCtorEq, or_false,
        propagateJoin_events] at hque
      exact hque
    · exact hque
  · exact hque

theorem ledger_setConnUmodes (uid : Uid) (server : Server) :
    (server.setConnUmodes uid).ledger = server.ledger :=
  ledger_touches (touches_setConnUmodes uid server)

theorem laws_welcome (env : Env) (uid : Uid) (server : Server) :
    (server.welcome env uid).laws = server.laws := by
  have hque : (((server.markRegistered uid).setConnUmodes uid).queueHook
      (.connect uid)).laws = server.laws :=
    (congrArg Prod.fst (ledger_setConnUmodes uid (server.markRegistered uid))).trans rfl
  rw [← hque]
  refine foldlRecOn (motive := fun reached : Server => reached.laws = _) _ _ rfl ?_
  intro reached hr chan _
  rw [laws_join, hr]

theorem connect_mem_welcome {env : Env} {uid other : Uid}
    (hque : Hook.connect other ∈ (server.welcome env uid).events) :
    other = uid ∨ Hook.connect other ∈ server.events := by
  have hmk : ((server.markRegistered uid).setConnUmodes uid).events = server.events :=
    (congrArg Prod.snd (ledger_setConnUmodes uid (server.markRegistered uid))).trans rfl
  have hprev : Hook.connect other ∈ (((server.markRegistered uid).setConnUmodes
      uid).queueHook (.connect uid)).events := by
    revert hque
    refine foldlRecOn (motive := fun reached : Server =>
      Hook.connect other ∈ reached.events → _) _ _ id ?_
    intro reached hr chan _ hjn
    exact hr (connect_mem_join hjn)
  simp only [queueHook, hmk, mem_append, mem_singleton, Hook.connect.injEq]
    at hprev
  exact hprev.symm

end Server

/-! ## Clients that wait for a verdict -/

namespace Lobby

def waits (lobby : Lobby) (uid : Uid) : Bool :=
  (lobby.sessions.lookup uid).any Session.authPending

theorem waits_iff {lobby : Lobby} {uid : Uid} :
    lobby.waits uid = true ↔
      ∃ session, lobby.sessions.lookup uid = some session ∧ session.authPending = true :=
  Option.any_eq_true ..

structure Guarded (env : LobbyEnv) (lobby : Lobby) : Prop where
  clear : ∀ uid card, lobby.waits uid = true → lobby.server.cardOf uid = some card →
    lobby.server.Clear env card
  resolved : ∀ uid session, lobby.sessions.lookup uid = some session →
    session.authPending = true → session.dnsPending = false
  hooks : ∀ uid, Hook.connect uid ∈ lobby.server.events → lobby.waits uid = false ∧
    ∀ card, lobby.server.cardOf uid = some card → card.registered = true
  admitted : ∀ entry ∈ lobby.admitted, ∃ card, entry.2.cardOf entry.1 = some card ∧
    card.registered = true ∧ entry.2.Clear env card

/-- Nobody starts to wait, those who wait stay who they are, and no law changes. -/
structure Calm (before after : Lobby) : Prop where
  sessions : ∀ uid session', after.sessions.lookup uid = some session' →
    session'.authPending = true → ∃ session, before.sessions.lookup uid = some session ∧
      session.authPending = true ∧ (session'.dnsPending = true → session.dnsPending = true)
  cards : ∀ uid, after.waits uid = true →
    after.server.cardOf uid = before.server.cardOf uid ∨ after.server.cardOf uid = none
  known : ∀ uid card', after.server.cardOf uid = some card' →
    ∃ card, before.server.cardOf uid = some card ∧ card'.registered = card.registered
  ledger : after.server.ledger = before.server.ledger
  admitted : after.admitted = before.admitted

section

variable {env : LobbyEnv} {before after lobby : Lobby} {uid : Uid}

theorem Calm.refl (lobby : Lobby) : Calm lobby lobby where
  sessions := fun _ session hsess hwt => ⟨session, hsess, hwt, id⟩
  cards := fun _ _ => .inl rfl
  known := fun _ card hcard => ⟨card, hcard, rfl⟩
  ledger := rfl
  admitted := rfl

theorem Calm.waits (hcalm : Calm before after) (hwt : after.waits uid = true) :
    before.waits uid = true := by
  obtain ⟨session', hsess', hpend⟩ := waits_iff.mp hwt
  obtain ⟨session, hsess, hpend, -⟩ := hcalm.sessions uid session' hsess' hpend
  exact waits_iff.mpr ⟨session, hsess, hpend⟩

theorem Calm.idle (hcalm : Calm before after) (hidle : before.waits uid = false) :
    after.waits uid = false := by
  rw [Bool.eq_false_iff] at hidle ⊢
  exact mt hcalm.waits hidle

theorem Calm.trans {first second third : Lobby} (hleft : Calm first second)
    (hrt : Calm second third) : Calm first third where
  sessions := fun uid session'' hsess'' hpend'' => by
    obtain ⟨session', hsess', hpend', hdns'⟩ :=
      hrt.sessions uid session'' hsess'' hpend''
    obtain ⟨session, hsess, hpend, hdns⟩ := hleft.sessions uid session' hsess' hpend'
    exact ⟨session, hsess, hpend, fun hthird => hdns (hdns' hthird)⟩
  cards := fun uid hwt => by
    rcases hrt.cards uid hwt with hs | hgone
    · rw [hs]
      exact hleft.cards uid (hrt.waits hwt)
    · exact .inr hgone
  known := fun uid card'' hcard'' => by
    obtain ⟨card', hcard', hs'⟩ := hrt.known uid card'' hcard''
    obtain ⟨card, hcard, hs⟩ := hleft.known uid card' hcard'
    exact ⟨card, hcard, hs'.trans hs⟩
  ledger := hrt.ledger.trans hleft.ledger
  admitted := hrt.admitted.trans hleft.admitted

theorem Guarded.of_calm (hg : Guarded env before) (hcalm : Calm before after) :
    Guarded env after := by
  obtain ⟨hlaws, hevs⟩ := Prod.mk.inj hcalm.ledger
  refine ⟨?_, ?_, ?_, ?_⟩
  · intro uid card hwt hcard
    have hbef : before.server.cardOf uid = some card := by
      rcases hcalm.cards uid hwt with hs | hgone
      · rw [← hs, hcard]
      · rw [hgone] at hcard
        cases hcard
    exact (hg.clear uid card (hcalm.waits hwt) hbef).of_laws hlaws
  · intro uid session' hsess' hpend'
    obtain ⟨session, hsess, hpend, hdns⟩ := hcalm.sessions uid session' hsess' hpend'
    have hresolved := Bool.eq_false_iff.mp (hg.resolved uid session hsess hpend)
    exact Bool.eq_false_iff.mpr (mt hdns hresolved)
  · intro uid hque
    rw [hevs] at hque
    obtain ⟨hfree, hreg⟩ := hg.hooks uid hque
    refine ⟨hcalm.idle hfree, ?_⟩
    intro card' hcard'
    obtain ⟨card, hcard, hs⟩ := hcalm.known uid card' hcard'
    rw [hs, hreg card hcard]
  · rw [hcalm.admitted]
    exact hg.admitted

/-! ## What is calm -/

theorem calm_server (hcards : ∀ uid, server.cardOf uid = lobby.server.cardOf uid)
    (hled : server.ledger = lobby.server.ledger) :
    Calm lobby { lobby with server := server } where
  sessions := (Calm.refl lobby).sessions
  cards := fun uid _ => .inl (hcards uid)
  known := fun uid card hcard => ⟨card, (hcards uid) ▸ hcard, rfl⟩
  ledger := hled
  admitted := rfl

theorem calm_changeCard (hfree : lobby.waits uid = false) {changeCard : Card → Card}
    (hreg : ∀ card, (changeCard card).registered = card.registered)
    (hcards : ∀ other, server.cardOf other =
      if other = uid then (lobby.server.cardOf uid).map changeCard
      else lobby.server.cardOf other) (hled : server.ledger = lobby.server.ledger) :
    Calm lobby { lobby with server := server } where
  sessions := (Calm.refl lobby).sessions
  cards := fun other hwt => by
    have hne : other ≠ uid := by
      rintro rfl
      exact Bool.false_ne_true (hfree.symm.trans hwt)
    left
    rw [hcards, if_neg hne]
  known := fun other card' hcard' => by
    rw [hcards] at hcard'
    split at hcard'
    · rename_i ho
      obtain ⟨card, hcard, rfl⟩ := map_eq_some_iff.mp hcard'
      exact ⟨card, ho ▸ hcard, hreg card⟩
    · exact ⟨card', hcard', rfl⟩
  ledger := hled
  admitted := rfl

theorem calm_changeUser (hfree : lobby.waits uid = false) {change : User → User}
    (changeCard : Card → Card) (hchg : ∀ user, (change user).card = changeCard user.card)
    (hreg : ∀ card, (changeCard card).registered = card.registered) :
    Calm lobby (lobby.changeUser uid change) :=
  calm_changeCard hfree hreg (cardOf_changeUser _ uid changeCard hchg) rfl

theorem calm_changeSession (uid : Uid) {change : Session → Session}
    (hchg : ∀ session, lobby.sessions.lookup uid = some session →
      (change session).authPending = true → session.authPending = true ∧
        ((change session).dnsPending = true → session.dnsPending = true)) :
    Calm lobby (lobby.changeSession uid change) where
  sessions := fun other session' hsess' hpend' => by
    obtain ⟨session, hsess, ⟨rfl, rfl⟩ | ⟨-, rfl⟩⟩ := of_lookup_modify hsess'
    · exact ⟨session, hsess, hchg session hsess hpend'⟩
    · exact ⟨session', hsess, hpend', id⟩
  cards := fun _ _ => .inl rfl
  known := fun _ card hcard => ⟨card, hcard, rfl⟩
  ledger := rfl
  admitted := rfl

theorem calm_removeUser (lobby : Lobby) (uid : Uid) (reason : Str) :
    Calm lobby (lobby.removeUser uid reason) := by
  have hsrv := lobby.removeUser_server uid reason
  have hcards : ∀ other, (lobby.removeUser uid reason).server.cardOf other =
      if other = uid then none else lobby.server.cardOf other := by
    intro other
    rw [hsrv, cardOf_removeUser]
  refine ⟨?_, ?_, ?_, ?_, ?_⟩
  · intro other session hsess hpend
    refine ⟨session, ?_, hpend, id⟩
    unfold removeUser at hsess
    split at hsess
    · exact hsess
    · exact (of_lookup_erase hsess).2
  · intro other _
    rw [hcards]
    split
    · exact .inr rfl
    · exact .inl rfl
  · intro other card hcard
    rw [hcards] at hcard
    split at hcard
    · cases hcard
    · exact ⟨card, hcard, rfl⟩
  · rw [hsrv, ledger_removeUser]
  · unfold removeUser
    split <;> rfl

theorem calm_setClass (lobby : Lobby) (uid : Uid) (name : Str) :
    Calm lobby (lobby.setClass uid name) := by
  unfold setClass
  split
  · rename_i user session hu hsess
    split
    · exact .refl lobby
    · refine ⟨?_, fun _ _ => .inl rfl, fun _ card hcard => ⟨card, hcard, rfl⟩, rfl, rfl⟩
      intro other session' hsess' hpend'
      obtain ⟨rfl, rfl⟩ | ⟨-, hsess'⟩ := of_lookup_insert hsess'
      · exact ⟨session, hsess, hpend', id⟩
      · exact ⟨session', hsess', hpend', id⟩
  · exact .refl lobby

theorem calm_refuseAll (victims : List (Uid × Str)) (lobby : Lobby) :
    Calm lobby (lobby.refuseAll victims) := by
  refine foldlRecOn (motive := Calm lobby) victims _ (.refl lobby) ?_
  intro reached hr victim _
  exact hr.trans (calm_removeUser ..)

/-! ## Commands -/

variable {conf : LobbyConf} {answers : Answers}

theorem calm_does {names : Bool} (hq : lobby.waits uid = true → names = false)
    (hdoes : Does uid lobby names after) : Calm lobby after := by
  have hfree : names = true → lobby.waits uid = false := by
    intro hnms
    rw [Bool.eq_false_iff]
    exact fun hwt => Bool.eq_false_iff.mp (hq hwt) hnms
  have hnick : ∀ newnick, lobby.waits uid = false →
      Calm lobby { lobby with server := lobby.server.setNick uid newnick } := by
    intro newnick hfree
    refine calm_changeCard hfree ?_ (cardOf_setNick _ uid newnick)
      (ledger_setNick ..)
    exact fun _ => rfl
  cases hdoes with
  | nothing => exact .refl _
  | leaves => exact calm_removeUser ..
  | session _ hs =>
    refine calm_changeSession uid fun session _ hpend => ?_
    obtain ⟨-, hauth, hdns⟩ := hs session
    rw [hdns]
    exact ⟨hauth ▸ hpend, id⟩
  | nick newnick => exact hnick newnick (hfree rfl)
  | nickLeaves newnick => exact (hnick newnick (hfree rfl)).trans (calm_removeUser ..)
  | user changeCard hcard hs =>
    exact calm_changeUser (hfree rfl) changeCard hcard fun card => (hs card).2
  | webirc host new =>
    have hmv : Calm lobby (lobby.changeUser uid fun user =>
        { user with host := host, ip := new }) :=
      calm_changeUser (hfree rfl) ({ · with host := host, ip := new }) (fun _ => rfl) fun _ => rfl
    exact ⟨hmv.sessions, hmv.cards, hmv.known, hmv.ledger, hmv.admitted⟩

theorem calm_handle (hq : lobby.waits uid = true → namesClient line.command = false) :
    Calm lobby (lobby.handle env conf answers uid line) :=
  calm_does hq (does_handle line)

/-! ## Registration -/

structure Candidate (env : LobbyEnv) (uid : Uid) (lobby : Lobby) : Prop where
  guarded : Guarded env lobby
  idle : lobby.waits uid = false
  resolved : ∀ session, lobby.sessions.lookup uid = some session → session.dnsPending = false
  unqueued : Hook.connect uid ∉ lobby.server.events

structure Poised (env : LobbyEnv) (uid : Uid) (lobby : Lobby) : Prop
    extends Candidate env uid lobby where
  clear : ∀ card, lobby.server.cardOf uid = some card → lobby.server.Clear env card

theorem Candidate.of_isReady (hg : Guarded env lobby) (hrdy : lobby.isReady uid) :
    Candidate env uid lobby := by
  unfold isReady at hrdy
  split at hrdy
  · rename_i user session hu hsess
    simp only [Bool.and_eq_true, Bool.not_eq_true'] at hrdy
    obtain ⟨⟨⟨⟨⟨⟨⟨hreg, -⟩, -⟩, -⟩, hdns⟩, -⟩, hpend⟩, -⟩ := hrdy
    refine ⟨hg, ?_, ?_, ?_⟩
    · rw [waits, hsess, any_some, hpend]
    · intro session' hsess'
      rw [hsess] at hsess'
      cases hsess'
      exact hdns
    · intro hque
      have hmk := (hg.hooks uid hque).2 user.card (by rw [cardOf, hu]; rfl)
      rw [User.card, hreg] at hmk
      cases hmk
  · cases hrdy

section

variable (hcalm : Calm before after)
  (hsns : ∀ session', after.sessions.lookup uid = some session' →
    ∃ session, before.sessions.lookup uid = some session ∧
      session'.dnsPending = session.dnsPending)

include hcalm hsns

theorem Candidate.of_calm (hcand : Candidate env uid before) : Candidate env uid after where
  guarded := hcand.guarded.of_calm hcalm
  idle := hcalm.idle hcand.idle
  resolved := by
    intro session' hsess'
    obtain ⟨session, hsess, hdns⟩ := hsns session' hsess'
    rw [hdns, hcand.resolved session hsess]
  unqueued := by
    rw [(Prod.mk.inj hcalm.ledger).2]
    exact hcand.unqueued

theorem Poised.of_calm (hpoised : Poised env uid before)
    (hcard : after.server.cardOf uid = before.server.cardOf uid) : Poised env uid after where
  toCandidate := hpoised.toCandidate.of_calm hcalm hsns
  clear := by
    intro card haft
    rw [hcard] at haft
    exact (hpoised.clear card haft).of_laws (Prod.mk.inj hcalm.ledger).1

end

theorem waits_changeSession (lobby : Lobby) (uid other : Uid) (change : Session → Session) :
    (lobby.changeSession uid change).waits other =
      if other = uid then (lobby.sessions.lookup uid).any fun session =>
        (change session).authPending
      else lobby.waits other := by
  rw [waits, changeSession, lookup_modify]
  split
  · cases lobby.sessions.lookup uid <;> rfl
  · rfl

namespace Poised

variable (hpoised : Poised env uid lobby)

include hpoised

theorem setClass (name : Str) : Poised env uid (lobby.setClass uid name) := by
  refine hpoised.of_calm (calm_setClass lobby uid name) ?_ ?_
  · intro session' hsess'
    unfold Lobby.setClass at hsess'
    split at hsess'
    · rename_i user session hu hsess
      split at hsess'
      · exact ⟨session', hsess', rfl⟩
      · rw [Table.lookup_insert_eq, if_pos rfl] at hsess'
        cases hsess'
        exact ⟨session, hsess, rfl⟩
    · exact ⟨session', hsess', rfl⟩
  · unfold Lobby.setClass
    split
    · split <;> rfl
    · rfl

theorem finishRegister : Poised env uid (lobby.finishRegister conf uid) := by
  unfold Lobby.finishRegister
  split
  · rename_i modes _
    have hcards := lobby.server.cardOf_svsSetUserModes uid modes
    exact hpoised.of_calm
      (calm_server hcards (Server.ledger_touches (Server.touches_svsSetUserModes ..)))
      (fun session hsess => ⟨session, hsess, rfl⟩) (hcards uid)
  · exact hpoised

theorem await :
    Guarded env (lobby.changeSession uid fun session =>
      { session with authPending := true }) where
  clear := fun other card hwt hcard => by
    rw [waits_changeSession] at hwt
    split at hwt
    · rename_i ho
      exact hpoised.clear card (ho ▸ hcard)
    · exact hpoised.guarded.clear other card hwt hcard
  resolved := fun other session' hsess' hpend' => by
    obtain ⟨session, hsess, ⟨rfl, rfl⟩ | ⟨-, rfl⟩⟩ := of_lookup_modify hsess'
    · exact hpoised.resolved session hsess
    · exact hpoised.guarded.resolved other session' hsess hpend'
  hooks := fun other hque => by
    obtain ⟨hidle, hreg⟩ := hpoised.guarded.hooks other hque
    refine ⟨?_, hreg⟩
    rw [waits_changeSession, if_neg]
    · exact hidle
    · rintro rfl
      exact hpoised.unqueued hque
  admitted := hpoised.guarded.admitted

theorem welcome : Guarded env (lobby.welcome env uid) := by
  have hg := hpoised.guarded
  have hlaws := lobby.server.laws_welcome env.core uid
  have hcards := lobby.server.cardOf_welcome env.core uid
  unfold Lobby.welcome
  split
  · exact hg
  · rename_i user hu
    split
    · exact hg.of_calm (calm_removeUser ..)
    · refine ⟨?_, hg.resolved, ?_, ?_⟩
      · intro other card hwt hcard
        have hne : other ≠ uid := by
          rintro rfl
          exact Bool.false_ne_true (hpoised.idle.symm.trans hwt)
        rw [hcards, if_neg hne] at hcard
        exact (hg.clear other card hwt hcard).of_laws hlaws
      · intro other hque
        have hprev := Server.connect_mem_welcome hque
        constructor
        · rcases hprev with rfl | hque
          · exact hpoised.idle
          · exact (hg.hooks other hque).1
        · intro card hcard
          rw [hcards] at hcard
          split at hcard
          · obtain ⟨_, -, rfl⟩ := map_eq_some_iff.mp hcard
            rfl
          · rename_i ho
            exact (hg.hooks other (hprev.resolve_left ho)).2 card hcard
      · simp only [mem_append, mem_singleton]
        rintro entry (hent | rfl)
        · exact hg.admitted entry hent
        · have hcard : lobby.server.cardOf uid = some user.card := by
            rw [Server.cardOf, hu]
            rfl
          have hmk : (lobby.server.markRegistered uid).cardOf uid =
              (lobby.server.cardOf uid).map ({ · with registered := true }) :=
            (Server.cardOf_changeUser lobby.server uid _ (fun _ => rfl) uid).trans (if_pos rfl)
          rw [hcard] at hmk
          -- the log entry has the bans of the moment before the greeting
          exact ⟨_, hmk, rfl, hpoised.clear user.card hcard⟩

end Poised

theorem guarded_rules : Rules env conf uid (Poised env uid) (Guarded env) where
  stop := fun hpoised => hpoised.guarded
  leave := fun _ hg => hg.of_calm (calm_removeUser ..)
  choose := fun hpoised _ => hpoised.setClass _
  finish := Poised.finishRegister
  await := Poised.await
  welcome := Poised.welcome

/-- No K-, G- or Z-line matches a client, ready to register, under its confirmed ident. -/
def IdentFree (env : LobbyEnv) (uid : Uid) (lobby : Lobby) : Prop :=
  lobby.isReady uid = true → ∀ card name, lobby.server.cardOf uid = some card →
    (lobby.sessions.lookup uid).bind Session.identResult = some (some name) →
    lobby.server.matchedXline env.core (identOf name) card.host card.ip = none

theorem matchedXline_of_bannedXline (hpass : lobby.bannedXline env uid = none)
    (hcard : lobby.server.cardOf uid = some card) :
    lobby.server.matchedXline env.core card.ident card.host card.ip = none := by
  obtain ⟨user, hu, rfl⟩ := map_eq_some_iff.mp hcard
  rw [bannedXline, hu] at hpass
  exact hpass

theorem matchedXline_applyIdent (hpass : lobby.bannedXline env uid = none)
    (hrdy : lobby.isReady uid) (hfree : IdentFree env uid lobby) (card : Card)
    (hcard : (lobby.applyIdent uid).server.cardOf uid = some card) :
    (lobby.applyIdent uid).server.matchedXline env.core card.ident card.host card.ip = none := by
  unfold applyIdent at hcard ⊢
  split at hcard
  · rename_i name hname
    rw [changeUser, cardOf_changeUser _ uid ({ · with ident := identOf name })
      (fun _ => rfl), if_pos rfl] at hcard
    obtain ⟨card, hbef, rfl⟩ := map_eq_some_iff.mp hcard
    exact hfree hrdy card name hbef hname
  · exact matchedXline_of_bannedXline hpass hcard

namespace Candidate

variable (hcand : Candidate env uid lobby)

include hcand

theorem applyIdent : Candidate env uid (lobby.applyIdent uid) := by
  unfold Lobby.applyIdent
  split
  · rename_i name _
    refine hcand.of_calm (calm_changeUser hcand.idle ({ · with ident := identOf name })
      (fun _ => rfl) fun _ => rfl) ?_
    exact fun session hsess => ⟨session, hsess, rfl⟩
  · exact hcand

theorem poised
    (hxl : ∀ card, lobby.server.cardOf uid = some card →
      lobby.server.matchedXline env.core card.ident card.host card.ip = none)
    (hrline : lobby.bannedRline env uid = none) : Poised env uid lobby := by
  refine ⟨hcand, ?_⟩
  intro card hcard
  refine ⟨hxl card hcard, ?_⟩
  obtain ⟨user, hu, rfl⟩ := map_eq_some_iff.mp hcard
  rw [bannedRline, hu] at hrline
  exact hrline

theorem completeRegistration (hrdy : lobby.isReady uid) (hfree : IdentFree env uid lobby) :
    Guarded env (lobby.completeRegistration env conf answers uid) := by
  refine guarded_rules.completeRegistration hcand.guarded fun hpass =>
    ⟨hcand.applyIdent.guarded, fun hrline => ?_⟩
  exact hcand.applyIdent.poised (matchedXline_applyIdent hpass hrdy hfree) hrline

end Candidate

theorem Guarded.tryRegister (hg : Guarded env lobby) (hfree : IdentFree env uid lobby) :
    Guarded env (lobby.tryRegister env conf answers uid) := by
  unfold Lobby.tryRegister
  split
  · rename_i hrdy
    exact (Candidate.of_isReady hg hrdy).completeRegistration hrdy hfree
  · exact hg

/-! ## Lines -/

/-- A line that is carried out does not rename a client that waits, and registers nobody
under a banned ident. -/
def LineVetted (env : LobbyEnv) (conf : LobbyConf) (answers : Answers) (uid : Uid)
    (line : ClientLine) (lobby : Lobby) : Prop :=
  lobby.defers uid = false →
    (lobby.waits uid = true → namesClient line.command = false) ∧
      IdentFree env uid (lobby.handle env conf answers uid line)

def ReplayVetted (env : LobbyEnv) (conf : LobbyConf) (answers : Answers) (uid : Uid) :
    List ClientLine → Lobby → Prop
  | [], _ => True
  | line :: lines, lobby =>
    if uid ∈ lobby.server.users then
      lobby.LineVetted env conf answers uid line ∧
        ReplayVetted env conf answers uid lines (lobby.onLine env conf answers uid line)
    else ReplayVetted env conf answers uid lines lobby

theorem Guarded.onLine (hg : Guarded env lobby)
    (hvet : lobby.LineVetted env conf answers uid line) :
    Guarded env (lobby.onLine env conf answers uid line) := by
  unfold Lobby.onLine
  split
  · exact hg.of_calm (calm_changeSession uid fun _ _ hpend => ⟨hpend, id⟩)
  · rename_i hdefers
    obtain ⟨hq, hfree⟩ := hvet (Bool.not_eq_true _ ▸ hdefers)
    have hhandled : Guarded env (lobby.handle env conf answers uid line) :=
      hg.of_calm (calm_handle hq)
    unfold dispatch
    simp only
    split
    · exact hg
    · split
      · exact hg
      · split
        · exact hhandled
        · exact hhandled.tryRegister hfree

theorem Guarded.replay (hg : Guarded env lobby) {lines : List ClientLine}
    (hvet : lobby.ReplayVetted env conf answers uid lines) :
    Guarded env (lobby.replay env conf answers uid lines) := by
  induction lines generalizing lobby with
  | nil => exact hg
  | cons line lines ih =>
    unfold ReplayVetted at hvet
    unfold replay
    rw [foldl_cons]
    split at hvet
    · rename_i hpres
      rw [if_pos hpres]
      exact ih (hg.onLine hvet.1) hvet.2
    · rename_i habs
      rw [if_neg habs]
      exact ih hg hvet

theorem calm_onResolved (hidle : lobby.waits uid = false) (host refused : Option Str) :
    Calm lobby (lobby.onResolved conf uid host refused) := by
  have hdone : ∀ lobby : Lobby, Calm lobby
      (lobby.changeSession uid fun session => { session with dnsPending := false }) :=
    fun lobby => calm_changeSession uid fun _ _ hpend => ⟨hpend, fun hdns => nomatch hdns⟩
  have hnm : ∀ host : Str, Calm lobby (lobby.changeUser uid fun user =>
      { user with host := host }) := fun host =>
    calm_changeUser hidle ({ · with host := host }) (fun _ => rfl) fun _ => rfl
  unfold onResolved
  refine .trans ?_ (hdone _)
  cases refused with
  | none =>
    cases host with
    | none => exact .refl lobby
    | some host =>
      simp only
      split
      · exact hnm host
      · exact .refl lobby
  | some reason =>
    cases host with
    | none => exact calm_removeUser ..
    | some host =>
      simp only
      split
      · exact (hnm host).trans (calm_removeUser ..)
      · exact calm_removeUser ..

/-! ## Bans that come and go -/

def BansHold (env : LobbyEnv) (after : Server) (lobby : Lobby) : Prop :=
  ∀ uid card, lobby.waits uid = true → lobby.server.cardOf uid = some card →
    Steadfast env card lobby.server after

theorem steadfast_purgeXlines (env : LobbyEnv) (card : Card) (server : Server) :
    Steadfast env card server server.purgeXlines := by
  have hhit : ∀ kind, server.purgeXlines.hit env.core kind card = server.hit env.core kind card := by
    intro kind
    simp only [hit, purgeXlines, List.any_filter]
    congr 1
    funext xline
    simp only [XLine.covers]
    cases xline.active server.clock <;> simp
  refine ⟨?_, ?_, ?_⟩
  · rw [hhit]
    exact id
  · intro kind _
    rw [hhit]
    exact id
  · simp only [rlined, matchedRline, purgeXlines, Option.isSome_map,
      List.find?_isSome, List.mem_filter]
    rintro ⟨xline, ⟨hmem, -⟩, hmatches⟩
    exact ⟨xline, hmem, hmatches⟩

theorem waits_enter (lobby : Lobby) (uid : Uid) (user : User) {session : Session}
    (hsess : session.authPending = false) (other : Uid) :
    (lobby.enter uid user session).waits other =
      if other = uid then false else lobby.waits other := by
  rw [waits, enter, lookup_insert_eq]
  split
  · rw [any_some, hsess]
  · rfl

def ConnectbanHolds (env : LobbyEnv) (arrival : Arrival) (lobby : Lobby) : Prop :=
  ∀ mask duration setter reason, arrival.connectban = some (mask, duration, setter, reason) →
    lobby.BansHold env
      (withXline .zline mask duration setter reason lobby.server.clock lobby.server)

theorem calm_assign {assigned : Lobby} (hassigned : lobby.assign env conf uid = .ok assigned) :
    Calm lobby assigned := by
  obtain rfl | ⟨_, _, _, -, rfl⟩ := assign_cases hassigned
  · exact .refl _
  · exact calm_setClass ..

namespace Guarded

variable (hg : Guarded env lobby)

include hg

theorem rule (hus : server.users = lobby.server.users)
    (hevs : server.events = lobby.server.events) (hholds : lobby.BansHold env server) :
    Guarded env { lobby with server := server } where
  clear := fun uid card hwt hcard => by
    have hbef := (cardOf_of_users hus uid).symm.trans hcard
    exact (hholds uid card hwt hbef).clear (hg.clear uid card hwt hbef)
  resolved := hg.resolved
  hooks := fun uid hque => by
    obtain ⟨hidle, hreg⟩ := hg.hooks uid (hevs ▸ hque)
    exact ⟨hidle, fun card hcard =>
      hreg card ((cardOf_of_users hus uid).symm.trans hcard)⟩
  admitted := hg.admitted

theorem addXlineAt {kind : XKind} {mask : Str}
    {duration : UInt64} {setter reason : Str} {setAt : Timestamp}
    (hholds : lobby.BansHold env (withXline kind mask duration setter reason setAt lobby.server)) :
    Guarded env (lobby.addXlineAt env kind mask duration setter reason setAt) := by
  have hruled : Guarded env { lobby with
      server := withXline kind mask duration setter reason setAt lobby.server } :=
    hg.rule rfl rfl hholds
  exact hruled.of_calm (calm_refuseAll ..)

/-! ## Connections -/

theorem startLookups (hidle : lobby.waits arrival.uid = false) :
    Guarded env (lobby.startLookups env conf arrival) := by
  refine hg.of_calm (calm_changeSession arrival.uid ?_)
  intro session hsess hpend
  exact absurd (hidle.symm.trans (waits_iff.mpr ⟨session, hsess, hpend⟩))
    Bool.false_ne_true

theorem connectban (hholds : lobby.ConnectbanHolds env arrival) (hidle : lobby.waits uid = false) :
    Guarded env (lobby.connectban env arrival) ∧
      (lobby.connectban env arrival).waits uid = false := by
  unfold Lobby.connectban
  split
  · rename_i mask duration setter reason hban
    refine ⟨hg.addXlineAt (hholds mask duration setter reason hban), ?_⟩
    exact (calm_refuseAll ..).idle hidle
  · exact ⟨hg, hidle⟩

section

variable (hq : lobby.server.events = [])

include hq

theorem enter (uid : Uid) (user : User) {session : Session}
    (hsess : session.authPending = false) : Guarded env (lobby.enter uid user session) where
  clear := fun other card hwt hcard => by
    rw [waits_enter lobby uid user hsess] at hwt
    split at hwt
    · cases hwt
    · rename_i hne
      rw [Server.cardOf, Lobby.enter, Server.addConn, Table.lookup_insert_eq, if_neg hne] at hcard
      exact (hg.clear other card hwt hcard).of_laws rfl
  resolved := fun other session' hsess' hpend' => by
    obtain ⟨-, rfl⟩ | ⟨-, hsess'⟩ := Table.of_lookup_insert hsess'
    · rw [hsess] at hpend'
      cases hpend'
    · exact hg.resolved other session' hsess' hpend'
  hooks := fun other hque => by
    have hque : Hook.connect other ∈ lobby.server.events := hque
    rw [hq] at hque
    cases hque
  admitted := hg.admitted

theorem addConn (hholds : (lobby.arrive arrival).ConnectbanHolds env arrival) :
    Guarded env (lobby.addConn env conf arrival) := by
  have hentd : Guarded env (lobby.arrive arrival) := hg.enter hq _ _ rfl
  have hidle : (lobby.arrive arrival).waits arrival.uid = false := by
    rw [arrive, waits_enter _ _ _ rfl, if_pos rfl]
  obtain ⟨hscr, hidle⟩ := hentd.connectban hholds hidle
  have hremoved := fun reason =>
    hentd.of_calm (calm_removeUser (lobby.arrive arrival) arrival.uid reason)
  unfold Lobby.addConn
  simp only
  split
  · exact hremoved _
  · split
    · exact hremoved _
    · split
      · exact hremoved _
      · split
        · exact hremoved _
        · split
          · exact hscr.of_calm (calm_removeUser ..)
          · rename_i assigned hassigned
            have hcalm := calm_assign hassigned
            exact (hscr.of_calm hcalm).startLookups (hcalm.idle hidle)

theorem mintPuppet (uid : Uid) (uuid nick ident host realname : Str) :
    Guarded env (lobby.mintPuppet uid uuid nick ident host realname) := by
  unfold Lobby.mintPuppet
  have htch : ∀ server : Server, Server.Touches (fun _ => False) server
      (server.introduceToLinks uid) := Server.touches_introduceToLinks uid
  refine (hg.enter hq uid _ rfl).of_calm (calm_server (fun other => ?_) ?_)
  · exact (Server.cardOf_touches (htch _) not_false).trans rfl
  · exact (Server.ledger_touches (htch _)).trans rfl

end

/-! ## Verdicts -/

theorem connclassAuth (uid : Uid) (ok : Bool) :
    Guarded env (lobby.connclassAuth env conf uid ok) := by
  have hrel : Calm lobby (lobby.changeSession uid fun session =>
      { session with authPending := false }) :=
    calm_changeSession uid fun _ _ hpend => nomatch hpend
  unfold Lobby.connclassAuth
  simp only
  split
  · exact hg.of_calm hrel
  · rename_i hheld
    have hwt : lobby.waits uid = true := by simpa [waits] using hheld
    split
    · have hpoised : Poised env uid (lobby.changeSession uid fun session =>
          { session with authPending := false }) := by
        refine ⟨⟨hg.of_calm hrel, ?_, ?_, ?_⟩, ?_⟩
        · rw [waits_changeSession, if_pos rfl]
          cases lobby.sessions.lookup uid <;> rfl
        · intro session' hsess'
          obtain ⟨session, hsess, hpend⟩ := waits_iff.mp hwt
          rw [changeSession, Table.lookup_modify, if_pos rfl, hsess] at hsess'
          cases hsess'
          exact hg.resolved uid session hsess hpend
        · intro hque
          have hidle := (hg.hooks uid hque).1
          rw [hwt] at hidle
          cases hidle
        · exact fun card hcard => hg.clear uid card hwt hcard
      exact hpoised.finishRegister.welcome
    · exact (hg.of_calm hrel).of_calm (calm_removeUser ..)

theorem drainHooks : Guarded env { lobby with server := lobby.server.drainHooks env.core } where
  clear := fun uid card hwt hcard => by
    have hunqueued : Hook.connect uid ∉ lobby.server.events := fun hque =>
      Bool.false_ne_true ((hg.hooks uid hque).1.symm.trans hwt)
    have hlaws := congrArg Prod.fst
      (ledger_touches (touches_drainHooks env.core lobby.server))
    exact (hg.clear uid card hwt
      ((cardOf_drainHooks env.core _ hunqueued).symm.trans hcard)).of_laws hlaws
  resolved := hg.resolved
  hooks := fun uid hque => by
    have hdone := lobby.server.drainHooks_events env.core
    simp only [hdone, not_mem_nil] at hque
  admitted := hg.admitted

end Guarded

end

end Lobby

/-! ## Runs -/

/-- The event turns no ban and no new name against the checks that have passed. -/
def LobbyEvent.Vetted (env : LobbyEnv) (conf : LobbyConf) (answers : Answers) (lobby : Lobby) :
    LobbyEvent → Prop
  | .connect arrival => (lobby.arrive arrival).ConnectbanHolds env arrival
  | .line uid input => lobby.LineVetted env conf answers uid input
  | .resolved uid host refused =>
    let resolved := lobby.onResolved conf uid host refused
    let taken := resolved.takeDeferred uid
    let held := resolved.heldLines uid
    taken.ReplayVetted env conf answers uid held ∧
      (taken.replay env conf answers uid held).IdentFree env uid
  | .ident uid answer => (lobby.setIdent uid answer).IdentFree env uid
  | .verified uid => lobby.IdentFree env uid
  | .addXline kind mask duration setter reason setAt =>
    lobby.BansHold env (withXline kind mask duration setter reason setAt lobby.server)
  | .addRline pattern duration setter reason =>
    lobby.BansHold env
      (withXline .rline pattern duration setter reason lobby.server.clock lobby.server)
  | .removeXline kind mask => lobby.BansHold env (lobby.server.removeXline kind mask)
  | .classAuth _ _ | .puppet _ _ _ _ _ _ | .disconnect _ _ | .tick => True

def VettedStep (env : LobbyEnv) (conf : LobbyConf) (before after : Lobby) : Prop :=
  ∃ now answers event, LobbyEvent.Enabled before event ∧
    before.BansHold env (before.server.setClock now) ∧
    event.Vetted env conf answers (before.setClock now) ∧
    after = before.handleEvent env now (event.apply env conf answers)

namespace Lobby

variable {env : LobbyEnv} {conf : LobbyConf} {answers : Answers} {before after lobby : Lobby}

theorem Guarded.resolvedHost (hg : Guarded env lobby) {uid : Uid} {host refused : Option Str}
    (hen : LobbyEvent.Enabled lobby (.resolved uid host refused))
    (hvet : LobbyEvent.Vetted env conf answers lobby (.resolved uid host refused)) :
    Guarded env (lobby.resolvedHost env conf answers uid host refused) := by
  have hidle : lobby.waits uid = false := by
    by_contra hwt
    obtain ⟨session, hsess, hpend⟩ := waits_iff.mp (Bool.not_eq_false _ ▸ hwt)
    have hdns := hen session hsess
    rw [hg.resolved uid session hsess hpend] at hdns
    cases hdns
  have htaken : Guarded env ((lobby.onResolved conf uid host refused).takeDeferred uid) :=
    (hg.of_calm (calm_onResolved hidle host refused)).of_calm
      (calm_changeSession uid fun _ _ hpend => ⟨hpend, id⟩)
  exact (htaken.replay hvet.1).tryRegister hvet.2

theorem Guarded.apply (hg : Guarded env lobby) (hq : lobby.server.events = [])
    {event : LobbyEvent} (hen : LobbyEvent.Enabled lobby event)
    (hvet : event.Vetted env conf answers lobby) :
    Guarded env (event.apply env conf answers lobby) := by
  cases event with
  | connect arrival => exact hg.addConn hq hvet
  | line uid input => exact hg.onLine hvet
  | resolved uid host refused => exact hg.resolvedHost hen hvet
  | ident uid answer =>
    have hanswered : Guarded env (lobby.setIdent uid answer) :=
      hg.of_calm (calm_changeSession uid fun _ _ hpend => ⟨hpend, id⟩)
    exact hanswered.tryRegister hvet
  | classAuth uid ok => exact hg.connclassAuth uid ok
  | verified uid => exact hg.tryRegister hvet
  | puppet uid uuid nick username host realname =>
    exact hg.mintPuppet hq uid uuid nick username host realname
  | disconnect uid reason => exact hg.of_calm (calm_removeUser ..)
  | addXline kind mask duration setter reason setAt => exact hg.addXlineAt hvet
  | addRline pattern duration setter reason =>
    exact (hg.addXlineAt hvet).of_calm (calm_refuseAll ..)
  | removeXline kind mask =>
    have hremoved : Guarded env { lobby with server := lobby.server.removeXline kind mask } :=
      hg.rule rfl rfl hvet
    exact hremoved
  | tick =>
    have hpurged : Guarded env { lobby with server := lobby.server.purgeXlines } :=
      hg.rule rfl rfl fun _ card _ _ => steadfast_purgeXlines env card lobby.server
    exact ⟨hpurged.clear, hpurged.resolved, hpurged.hooks, hpurged.admitted⟩

theorem Guarded.step (hg : Guarded env before) (hq : before.server.events = [])
    (hstep : VettedStep env conf before after) : Guarded env after ∧ after.server.events = [] := by
  obtain ⟨now, answers, event, hen, hclk, hvet, rfl⟩ := hstep
  have hclocked : Guarded env (before.setClock now) := hg.rule rfl rfl hclk
  have hrdy : LobbyEvent.Enabled (before.setClock now) event := by
    cases event <;> exact hen
  exact ⟨(hclocked.apply hq hrdy hvet).drainHooks, drainHooks_events ..⟩

structure Unopened (boot : Lobby) : Prop where
  sessions : boot.sessions = ∅
  events : boot.server.events = []
  admitted : boot.admitted = []

theorem Unopened.guarded {boot : Lobby} (hboot : boot.Unopened) : Guarded env boot where
  clear := fun uid card hwt _ => by
    rw [waits, hboot.sessions] at hwt
    cases hwt
  resolved := fun uid session hsess => by
    rw [hboot.sessions] at hsess
    cases hsess
  hooks := fun uid hque => by
    rw [hboot.events] at hque
    cases hque
  admitted := by
    rw [hboot.admitted]
    intro entry hent
    cases hent

end Lobby

/-- In a run of vetted steps every client that registers is clear of all bans right then. -/
theorem vettedRun_clear (env : LobbyEnv) (conf : LobbyConf) {boot lobby : Lobby}
    (hboot : boot.Unopened) (hrun : ReflTransGen (VettedStep env conf) boot lobby) :
    ∀ entry ∈ lobby.admitted, ∃ card, entry.2.cardOf entry.1 = some card ∧
      card.registered = true ∧ entry.2.Clear env card := by
  have hall : lobby.Guarded env ∧ lobby.server.events = [] := by
    induction hrun with
    | refl => exact ⟨hboot.guarded, hboot.events⟩
    | tail _ hstep ih => exact ih.1.step ih.2 hstep
  exact hall.1.admitted

/-! ## Samples -/

def usesIdent : LobbyConf := { useident := true }

def slowClass : LobbyConf := { connectclass := ["main password=pbkdf2:1:00:37 hash=pbkdf2"] }

def bans (mask : Str) : LobbyEvent := .addXline .kline mask 0 "oper" "Not welcome" 0

def names (uid : Uid) (username : Str) : LobbyEvent :=
  .line uid ⟨.user, [username, "0", "*", "A client"]⟩

def renames (uid : Uid) (nick : Str) : LobbyEvent := .line uid ⟨.nick, [nick]⟩

def shows (uid : Uid) (password : Str) : LobbyEvent := .line uid ⟨.pass, [password]⟩

def Lobby.Breached (env : LobbyEnv) (lobby : Lobby) : Prop :=
  ∃ entry ∈ lobby.admitted, ∃ card ∈ entry.2.cardOf entry.1, ¬entry.2.Clear env card

instance (env : LobbyEnv) (lobby : Lobby) : Decidable (lobby.Breached env) :=
  inferInstanceAs (Decidable (∃ _ ∈ _, _))

/-- A confirmed ident, a USER line while the password is checked and a ban set meanwhile
each let a banned client in. -/
theorem lobbyRun_breached :
    ReflTransGen (LobbyStep .plain usesIdent) .plainBoot
      (.after usesIdent [bans "root@*", arrives 1 "1AAAAAAAA", names 1 "root", renames 1 "ann",
        .ident 1 (some "root")]) ∧
    (Lobby.after usesIdent [bans "root@*", arrives 1 "1AAAAAAAA", names 1 "root",
      renames 1 "ann", .ident 1 (some "root")]).Breached .plain ∧
    ReflTransGen (LobbyStep .plain slowClass) .plainBoot
      (.after slowClass [bans "~root@*", arrives 1 "1AAAAAAAA", shows 1 "pw", names 1 "ann",
        renames 1 "ann", names 1 "root", .classAuth 1 true]) ∧
    (Lobby.after slowClass [bans "~root@*", arrives 1 "1AAAAAAAA", shows 1 "pw", names 1 "ann",
      renames 1 "ann", names 1 "root", .classAuth 1 true]).Breached .plain ∧
    ReflTransGen (LobbyStep .plain slowClass) .plainBoot
      (.after slowClass [arrives 1 "1AAAAAAAA", shows 1 "pw", names 1 "ann", renames 1 "ann",
        bans "~ann@*", .classAuth 1 true]) ∧
    (Lobby.after slowClass [arrives 1 "1AAAAAAAA", shows 1 "pw", names 1 "ann", renames 1 "ann",
      bans "~ann@*", .classAuth 1 true]).Breached .plain := by
  have hfst : 1 ∉ Lobby.plainBoot.server.users := by decide
  have hsec : ∀ mask, 1 ∉ (Lobby.after slowClass [bans mask]).server.users := by
    intro mask
    exact hfst
  refine ⟨?_, by decide +kernel, ?_, by decide +kernel, ?_, by decide +kernel⟩
  · exact .tail (.tail (.tail (.tail (.tail .refl
      ⟨0, .plain, bans "root@*", trivial, rfl⟩)
      ⟨0, .plain, arrives 1 "1AAAAAAAA", hsec _, rfl⟩)
      ⟨0, .plain, names 1 "root", trivial, rfl⟩) ⟨0, .plain, renames 1 "ann", trivial, rfl⟩)
      ⟨0, .plain, .ident 1 (some "root"), trivial, rfl⟩
  · exact .tail (.tail (.tail (.tail (.tail (.tail (.tail .refl
      ⟨0, .plain, bans "~root@*", trivial, rfl⟩)
      ⟨0, .plain, arrives 1 "1AAAAAAAA", hsec _, rfl⟩)
      ⟨0, .plain, shows 1 "pw", trivial, rfl⟩)
      ⟨0, .plain, names 1 "ann", trivial, rfl⟩) ⟨0, .plain, renames 1 "ann", trivial, rfl⟩)
      ⟨0, .plain, names 1 "root", trivial, rfl⟩)
      ⟨0, .plain, .classAuth 1 true, trivial, rfl⟩
  · exact .tail (.tail (.tail (.tail (.tail (.tail .refl
      ⟨0, .plain, arrives 1 "1AAAAAAAA", hfst, rfl⟩) ⟨0, .plain, shows 1 "pw", trivial, rfl⟩)
      ⟨0, .plain, names 1 "ann", trivial, rfl⟩) ⟨0, .plain, renames 1 "ann", trivial, rfl⟩)
      ⟨0, .plain, bans "~ann@*", trivial, rfl⟩)
      ⟨0, .plain, .classAuth 1 true, trivial, rfl⟩

/-! A step is vetted when nobody waits and nobody has an ident answer. -/

theorem Lobby.bansHold_of_idle {lobby : Lobby}
    (hidle : ∀ entry ∈ toPairs lobby.sessions, entry.2.authPending = false) :
    lobby.BansHold env after := by
  intro uid card hwt
  obtain ⟨session, hsess, hpend⟩ := waits_iff.mp hwt
  have hfree := hidle (uid, session) (mem_toPairs.mpr hsess)
  rw [hpend] at hfree
  cases hfree

theorem Lobby.lineVetted_of_idle {conf : LobbyConf} {answers : Answers} {uid : Uid} {lobby : Lobby}
    (hidle : lobby.waits uid = false)
    (hunanswered : ((lobby.handle env conf answers uid line).sessions.lookup uid).bind
      Session.identResult = none) : lobby.LineVetted env conf answers uid line := by
  intro _
  refine ⟨fun hwt => ?_, fun _ card name _ hname => ?_⟩
  · rw [hidle] at hwt
    cases hwt
  · rw [hunanswered] at hname
    cases hname

theorem vettedRun_clear_ann :
    let lobby := Lobby.after {} [bans "root@*", arrives 1 "1AAAAAAAA", names 1 "ann",
      renames 1 "ann"]
    lobby.admitted.length = 1 ∧ ∀ entry ∈ lobby.admitted,
      ∃ card, entry.2.cardOf entry.1 = some card ∧ card.registered = true ∧
        entry.2.Clear .plain card := by
  intro lobby
  have hfst : 1 ∉ (Lobby.after {} [bans "root@*"]).server.users := by decide
  have hrun : ReflTransGen (VettedStep .plain {}) .plainBoot lobby := by
    refine .tail (.tail (.tail (.tail .refl
        ⟨0, .plain, bans "root@*", trivial, ?_, ?_, rfl⟩)
        ⟨0, .plain, arrives 1 "1AAAAAAAA", hfst, ?_, ?_, rfl⟩)
        ⟨0, .plain, names 1 "ann", trivial, ?_, ?_, rfl⟩)
        ⟨0, .plain, renames 1 "ann", trivial, ?_, ?_, rfl⟩
    · exact Lobby.bansHold_of_idle (by decide)
    · exact Lobby.bansHold_of_idle (by decide)
    · exact Lobby.bansHold_of_idle (by decide +kernel)
    · exact fun _ _ _ _ hban => nomatch hban
    · exact Lobby.bansHold_of_idle (by decide +kernel)
    · exact Lobby.lineVetted_of_idle (by decide +kernel) (by decide +kernel)
    · exact Lobby.bansHold_of_idle (by decide +kernel)
    · exact Lobby.lineVetted_of_idle (by decide +kernel) (by decide +kernel)
  exact ⟨by decide +kernel, vettedRun_clear .plain {} ⟨rfl, rfl, rfl⟩ hrun⟩

end EchoIrcd
