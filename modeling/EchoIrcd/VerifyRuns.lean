import EchoIrcd.BanRuns
import EchoIrcd.VerifyGate

/-!
# Runs past the human check

A client that a gate does not let through is held at every attempt to register.
The token a held client is sent carries the same issuer, address and signature
that the gate asks for, so the client may answer with it.  As long as nobody
does, only operators, whitelisted ports and cleared addresses come in.
-/

namespace EchoIrcd

open Str Checkpoint

namespace Lobby

variable {env : LobbyEnv} {conf : LobbyConf} {answers : Answers} {lobby before after : Lobby}
  {uid other : Uid}

structure Outside (uid : Uid) (lobby : Lobby) : Prop where
  cards : ∀ card, lobby.server.cardOf uid = some card → card.registered = false
  idle : lobby.waits uid = false

namespace Outside

theorem of_calm (hout : before.Outside uid) (hcalm : Calm before after) :
    after.Outside uid where
  cards := by
    intro card' hcard'
    obtain ⟨card, hcard, hs⟩ := hcalm.known uid card' hcard'
    rw [hs, hout.cards card hcard]
  idle := hcalm.idle hout.idle

theorem of_cards (hout : before.Outside uid)
    (hcards : after.server.cardOf uid = before.server.cardOf uid)
    (hsns : after.sessions.lookup uid = before.sessions.lookup uid) : after.Outside uid where
  cards := by
    rw [hcards]
    exact hout.cards
  idle := by
    rw [waits, hsns]
    exact hout.idle

section

variable (hout : lobby.Outside uid)

include hout

theorem removeUser (other : Uid) (reason : Str) : (lobby.removeUser other reason).Outside uid :=
  hout.of_calm (calm_removeUser ..)

theorem applyIdent (hne : uid ≠ other) : (lobby.applyIdent other).Outside uid := by
  unfold Lobby.applyIdent
  split
  · rename_i name _
    refine hout.of_cards ?_ rfl
    rw [changeUser, Server.cardOf_changeUser _ other ({ · with ident := identOf name })
      (fun _ => rfl), if_neg hne]
  · exact hout

theorem finishRegister : (lobby.finishRegister conf other).Outside uid := by
  unfold Lobby.finishRegister
  split
  · exact hout.of_cards (Server.cardOf_svsSetUserModes ..) rfl
  · exact hout

theorem welcome (hne : uid ≠ other) : (lobby.welcome env other).Outside uid := by
  unfold Lobby.welcome
  split
  · exact hout
  · split
    · exact hout.removeUser ..
    · refine hout.of_cards ?_ rfl
      rw [Server.cardOf_welcome, if_neg hne]

omit hout in
theorem rules (hne : uid ≠ other) : Rules env conf other (Outside uid) (Outside uid) where
  stop := id
  leave := fun reason hout => hout.removeUser other reason
  choose := fun hout _ => hout.of_calm (calm_setClass ..)
  finish := fun hout => hout.finishRegister
  await := fun hout => hout.of_cards rfl (Table.lookup_modify_ne _ _ hne)
  welcome := fun hout => hout.welcome hne

theorem completeRegistration (hne : uid ≠ other) :
    (lobby.completeRegistration env conf answers other).Outside uid :=
  (rules hne).completeRegistration hout fun _ =>
    ⟨hout.applyIdent hne, fun _ => hout.applyIdent hne⟩

theorem refused
    (hverdict : answers.register lobby uid = .deny ∨ answers.register lobby uid = .hold) :
    (lobby.completeRegistration env conf answers uid).Outside uid := by
  unfold Lobby.completeRegistration
  rcases hverdict with hdeny | hhold
  · rw [hdeny]
    exact hout.removeUser ..
  · rw [hhold]
    exact hout

theorem connclassAuth (other : Uid) (ok : Bool) :
    (lobby.connclassAuth env conf other ok).Outside uid := by
  have hrel : (lobby.changeSession other fun session =>
      { session with authPending := false }).Outside uid :=
    hout.of_calm (calm_changeSession other fun _ _ hpend => by cases hpend)
  unfold Lobby.connclassAuth
  simp only
  split
  · exact hrel
  · rename_i hheld
    have hne : uid ≠ other := by
      rintro rfl
      have hwt : lobby.waits uid = true := by simpa [waits] using hheld
      rw [hout.idle] at hwt
      cases hwt
    split
    · exact hrel.finishRegister.welcome hne
    · exact hrel.removeUser ..

theorem changeUser (hne : uid ≠ other) (change : User → User) :
    (lobby.changeUser other change).Outside uid := by
  refine hout.of_cards ?_ rfl
  rw [Server.cardOf, Server.cardOf, Lobby.changeUser, Server.changeUser,
    Table.lookup_modify_ne _ _ hne]

theorem does (hne : uid ≠ other) {names : Bool} (hdoes : Does other lobby names after) :
    after.Outside uid := by
  have hnick : ∀ newnick,
      Outside uid { lobby with server := lobby.server.setNick other newnick } := by
    intro newnick
    refine hout.of_cards ?_ rfl
    rw [Server.cardOf_setNick, if_neg hne]
  cases hdoes with
  | nothing => exact hout
  | leaves => exact hout.removeUser ..
  | session => exact hout.of_cards rfl (Table.lookup_modify_ne _ _ hne)
  | nick newnick => exact hnick newnick
  | nickLeaves newnick => exact (hnick newnick).removeUser ..
  | user => exact hout.changeUser hne _
  | webirc => exact (hout.changeUser hne _).of_cards rfl rfl

theorem handle (other : Uid) (line : ClientLine) :
    (lobby.handle env conf answers other line).Outside uid := by
  by_cases hq : lobby.waits other = true → namesClient line.command = false
  · exact hout.of_calm (calm_handle hq)
  · -- another client changes its names while its password is checked
    refine hout.does ?_ (does_handle line)
    rintro rfl
    exact hq fun hwt => absurd (hout.idle.symm.trans hwt) Bool.false_ne_true

end

end Outside

end Lobby

/-! ## Steps -/

/--
One action at the checkpoint.  A line that a client sends while its host name
is looked up is carried out once the name is known; every other action of the
lobby that does not end a registration is `elsewhere`.
-/
inductive CheckEvent where
  | token (gate : VerifyGate) (uid : Uid) (token : Str)
  | attempt (uid : Uid)
  | classAuth (uid : Uid) (ok : Bool)
  | clear (ip : Str) (expires : UInt64)
  | elsewhere (lobby : Lobby)

namespace Checkpoint

variable (setting : GateSetting)

def step (answers : Answers) (point : Checkpoint) : CheckEvent → Checkpoint
  | .token gate uid token =>
    ((point.present setting gate uid token).tryRegister setting answers uid).sweep
  | .attempt uid => (point.tryRegister setting answers uid).sweep
  | .classAuth uid ok =>
    { point with lobby := point.lobby.connclassAuth setting.env setting.lobby uid ok }.sweep
  | .clear ip expires => { point with cleared := point.cleared.insert ip expires }
  | .elsewhere lobby => { point with lobby := lobby }.sweep

def Admits (point : Checkpoint) : CheckEvent → Prop
  | .elsewhere lobby => ∀ uid, point.lobby.Outside uid → lobby.Outside uid
  | _ => True

theorem admits_handle (point : Checkpoint) {env : LobbyEnv} {conf : LobbyConf} {answers : Answers}
    (uid : Uid) (line : ClientLine) :
    point.Admits (.elsewhere (point.lobby.handle env conf answers uid line)) :=
  fun _ hout => hout.handle uid line

theorem admits_setClock (point : Checkpoint) (now : Timestamp) :
    point.Admits (.elsewhere (point.lobby.setClock now)) :=
  fun _ hout => hout.of_cards rfl rfl

/-- No operator, no whitelisted port, no cleared address. -/
structure Stranger (gate : VerifyGate) (uid : Uid) (point : Checkpoint) : Prop where
  oper : point.lobby.server.isOper uid = false
  port : point.portWhitelisted setting gate uid = false
  address : point.ipCleared uid = false

/-- The client was sent a signature for what the token says. -/
def wasSent (point : Checkpoint) (uid : Uid) (token : Str) : Prop :=
  ∃ challenge ∈ point.sent, challenge.uid = uid ∧
    Jwt.signingInput challenge.token = Jwt.signingInput token

section

variable (gate : VerifyGate) (uid : Uid)

/--
A client that the gate has no other reason to let through, and that has no
signature but for what the tokens it was sent say.
-/
def Outsider (point : Checkpoint) : CheckEvent → Prop
  | .token other sender token =>
    sender = uid → point.Stranger setting gate uid ∧
      (other = gate → ∀ claims, Jwt.verifyHs256 setting.base64 setting.hmac token
        ((setting.gates gate).secret.getD []) = some claims → point.wasSent uid token)
  | .attempt other => other = uid → point.Stranger setting gate uid
  | _ => True

/-- The client does not present what it was sent while the gate would still take it. -/
def Withholds (point : Checkpoint) : CheckEvent → Prop
  | .token other sender token =>
    sender = uid → other = gate → point.wasSent uid token →
      ∀ claims, Jwt.verifyHs256 setting.base64 setting.hmac token
          ((setting.gates gate).secret.getD []) = some claims →
        Jwt.jsonStr claims "iss" ≠ some (setting.gates gate).issuer ∨
        Jwt.jsonStr claims "ip" ≠ some ((point.ipOf uid).getD []) ∨
        (Jwt.claimNum claims "exp").getD 0 ≤ point.now
  | _ => True

def OutsiderStep (before after : Checkpoint) : Prop :=
  ∃ answers event, before.Admits event ∧ before.Outsider setting gate uid event ∧
    after = before.step setting answers event

def HeldStep (before after : Checkpoint) : Prop :=
  ∃ answers event, before.Admits event ∧ before.Outsider setting gate uid event ∧
    before.Withholds setting gate uid event ∧ after = before.step setting answers event

end

variable {setting} {gate : VerifyGate} {uid : Uid} {point : Checkpoint}

structure Shut (gate : VerifyGate) (uid : Uid) (point : Checkpoint) : Prop where
  outside : point.lobby.Outside uid
  passed : uid ∉ point.passed gate

theorem Shut.sweep (hshut : point.Shut gate uid) : point.sweep.Shut gate uid where
  outside := hshut.outside
  passed := fun hpass => hshut.passed (List.mem_of_mem_filter hpass)

structure Unmoved (before after : Checkpoint) : Prop where
  lobby : after.lobby = before.lobby
  passed : after.passed = before.passed

theorem unmoved_challenge (setting : GateSetting) (gate : VerifyGate) (uid : Uid)
    (point : Checkpoint) : Unmoved point (point.challenge setting gate uid) := by
  unfold challenge
  split <;> exact ⟨rfl, rfl⟩

theorem unmoved_onUserRegister (setting : GateSetting) (gate : VerifyGate) (uid : Uid)
    (point : Checkpoint) : Unmoved point (point.onUserRegister setting gate uid).1 := by
  unfold onUserRegister
  split
  · exact ⟨rfl, rfl⟩
  · exact unmoved_challenge ..

theorem askModules_cases (setting : GateSetting) (front : ModResult) (uid : Uid)
    (point : Checkpoint) :
    (point.askModules setting front uid = (point, .deny)) ∨
    (point.askModules setting front uid = (point, .hold)) ∨
    (point.opens setting .recaptcha uid = false ∧
      point.askModules setting front uid = (point.challenge setting .recaptcha uid, .hold)) ∨
    (point.opens setting .recaptcha uid = true ∧
      point.askModules setting front uid = point.onUserRegister setting .cloudflare uid) := by
  unfold askModules
  cases front with
  | deny => exact .inl rfl
  | hold => exact .inr (.inl rfl)
  | passthru | allow =>
    cases hopens : point.opens setting .recaptcha uid with
    | true => exact .inr (.inr (.inr (by simp [onUserRegister, hopens])))
    | false => exact .inr (.inr (.inl (by simp [onUserRegister, hopens])))

theorem unmoved_askModules (setting : GateSetting) (front : ModResult) (uid : Uid)
    (point : Checkpoint) : Unmoved point (point.askModules setting front uid).1 := by
  rcases askModules_cases setting front uid point with hask | hask | ⟨-, hask⟩ | ⟨-, hask⟩ <;>
    rw [hask]
  · exact ⟨rfl, rfl⟩
  · exact ⟨rfl, rfl⟩
  · exact unmoved_challenge ..
  · exact unmoved_onUserRegister ..

theorem askModules_refuses (front : ModResult) (hshut : point.opens setting gate uid = false) :
    (point.askModules setting front uid).2 = .deny ∨
      (point.askModules setting front uid).2 = .hold := by
  rcases askModules_cases setting front uid point with
    hask | hask | ⟨-, hask⟩ | ⟨hopens, hask⟩ <;> rw [hask]
  · exact .inl rfl
  · exact .inr rfl
  · exact .inr rfl
  · cases gate with
    | recaptcha =>
      rw [hshut] at hopens
      cases hopens
    | cloudflare =>
      right
      simp [onUserRegister, hshut]

theorem opens_eq_false (hen : (setting.gates gate).enabled = true)
    (hpass : uid ∉ point.passed gate) (hstr : point.Stranger setting gate uid) :
    point.opens setting gate uid = false := by
  simp [opens, hen, hpass, hstr.oper, hstr.port, hstr.address]

theorem Shut.tryRegister (hshut : point.Shut gate uid)
    (hen : (setting.gates gate).enabled = true) {answers : Answers} {other : Uid}
    (hstr : other = uid → point.Stranger setting gate uid) :
    (point.tryRegister setting answers other).Shut gate uid := by
  unfold Checkpoint.tryRegister
  split
  · have hmv := unmoved_askModules setting (answers.register point.lobby other) other point
    have hout : (point.askModules setting
        (answers.register point.lobby other) other).1.lobby.Outside uid := by
      rw [hmv.lobby]
      exact hshut.outside
    constructor
    · by_cases ho : other = uid
      · subst ho
        apply hout.refused
        exact askModules_refuses _ (opens_eq_false hen hshut.passed (hstr rfl))
      · exact hout.completeRegistration (Ne.symm ho)
    · show uid ∉ (point.askModules setting _ other).1.passed gate
      rw [hmv.passed]
      exact hshut.passed
  · exact hshut

theorem Shut.present (hshut : point.Shut gate uid) {other : VerifyGate} {sender : Uid} {token : Str}
    (href : sender = uid → other = gate → point.checkToken setting gate uid token ≠ .ok ()) :
    (point.present setting other sender token).Shut gate uid := by
  unfold Checkpoint.present
  split
  · split
    · rename_i hok
      refine ⟨hshut.outside, ?_⟩
      by_cases hgate : gate = other
      · subst hgate
        have hsdr : uid ≠ sender := by
          rintro rfl
          exact href rfl rfl hok
        simp [hsdr, hshut.passed]
      · simp [Function.update_of_ne hgate, hshut.passed]
    · exact hshut
  · exact hshut

theorem Stranger.present (hstr : point.Stranger setting gate uid) (other : VerifyGate)
    (sender : Uid) (token : Str) :
    (point.present setting other sender token).Stranger setting gate uid := by
  unfold Checkpoint.present
  split
  · split
    · exact ⟨hstr.oper, hstr.port, hstr.address⟩
    · exact hstr
  · exact hstr

theorem checkToken_ne_ok {token : Str}
    (hclaims : ∀ claims, Jwt.verifyHs256 setting.base64 setting.hmac token
        ((setting.gates gate).secret.getD []) = some claims →
      Jwt.jsonStr claims "iss" ≠ some (setting.gates gate).issuer ∨
      Jwt.jsonStr claims "ip" ≠ some ((point.ipOf uid).getD []) ∨
      (Jwt.claimNum claims "exp").getD 0 ≤ point.now) :
    point.checkToken setting gate uid token ≠ .ok () := by
  unfold checkToken
  simp only
  split
  · simp
  · rename_i claims hvrf
    split
    · simp
    · rename_i hiss
      split
      · simp
      · rename_i hip
        split
        · simp
        · rename_i hexp
          rcases hclaims claims hvrf with h | h | h
          · exact absurd h hiss
          · exact absurd h hip
          · exact absurd h hexp

theorem Shut.step {before after : Checkpoint} (hshut : before.Shut gate uid)
    (hen : (setting.gates gate).enabled = true)
    (hstep : HeldStep setting gate uid before after) : after.Shut gate uid := by
  obtain ⟨answers, event, hadmits, houtsider, hwithholds, rfl⟩ := hstep
  cases event with
  | token other sender token =>
    have hpresented : (before.present setting other sender token).Shut gate uid := by
      apply hshut.present
      intro hsdr ho
      apply checkToken_ne_ok
      intro claims hvrf
      exact hwithholds hsdr ho ((houtsider hsdr).2 ho claims hvrf) claims hvrf
    apply Shut.sweep
    apply hpresented.tryRegister hen
    exact fun hsdr => (houtsider hsdr).1.present ..
  | attempt other => exact (hshut.tryRegister hen houtsider).sweep
  | classAuth other ok =>
    apply Shut.sweep
    exact ⟨hshut.outside.connclassAuth other ok, hshut.passed⟩
  | clear ip expires => exact ⟨hshut.outside, hshut.passed⟩
  | elsewhere lobby =>
    apply Shut.sweep
    exact ⟨hadmits uid hshut.outside, hshut.passed⟩

end Checkpoint

/--
With the gate enabled, a client that is no operator, has no whitelisted port and
no cleared address completes its registration only after it has presented what a
token it was sent says, while the gate would take it.
-/
theorem gate_stays_shut {setting : GateSetting} {gate : VerifyGate} {uid : Uid}
    {start point : Checkpoint} (hen : (setting.gates gate).enabled = true)
    (hsta : start.Shut gate uid)
    (hrun : Relation.ReflTransGen (HeldStep setting gate uid) start point) :
    point.lobby.server.isEnrolled uid = false := by
  have hshut : point.Shut gate uid := by
    induction hrun with
    | refl => exact hsta
    | tail _ hstep ih => exact ih.step hen hstep
  rw [Server.isEnrolled]
  cases hu : point.lobby.server.users.lookup uid with
  | none => rfl
  | some user =>
    apply hshut.outside.cards user.card
    rw [Server.cardOf, hu]
    rfl

/-! ## A client that answers with its own challenge -/

/-- Of the claims in the token below, under the secret `k`. -/
def signature : Octets :=
  [140, 141, 188, 192, 168, 231, 80, 193, 205, 198, 3, 73, 248, 14, 168, 4, 245, 117, 136, 164,
    105, 159, 111, 225, 16, 227, 254, 246, 28, 163, 251, 68]

section

variable (gate : VerifyGate)

def guardedBy : GateSetting where
  env := .plain
  lobby := {}
  gates := fun other =>
    { on := other = gate, secret := some "k", url := some "v", issuer := "e" }
  base64 := .ofTable [
    ("eyJhbGciOiJIUzI1NiIsInR5cCI6IkpXVCJ9", Octets.utf8 Jwt.headerJson),
    ("eyJpc3MiOiJlIiwiaXAiOiIxMC4wLjAuMSIsImlhdCI6MCwiZXhwIjoxODAwfQ==",
      Octets.utf8 (tokenClaims "e" "10.0.0.1" 0 1800)),
    ("jI28wKjnUMHNxgNJ+A6oBPV1iKRpn2/hEOP+9hyj+0Q=", signature)]
  hmac := fun _ _ => some signature

def readyLobby : Lobby :=
  ((Lobby.plainBoot.arrive { uid := 1, uuid := "1AAAAAAAA", ip := "10.0.0.1" }).user 1
    ["ann", "0", "*", "A client"]).nick .plain {} .plain 1 ["ann"]

def readyPoint : Checkpoint := { lobby := readyLobby }

def heldPoint : Checkpoint :=
  readyPoint.step (guardedBy gate) .plain (.attempt 1)

def sentToken : Str := ((heldPoint gate).sent.head?.map Challenge.token).getD []

def admittedPoint : Checkpoint :=
  (heldPoint gate).step (guardedBy gate) .plain (.token gate 1 (sentToken gate))

theorem shut_readyPoint : readyPoint.Shut gate 1 := by
  refine ⟨⟨?_, by decide +kernel⟩, List.not_mem_nil⟩
  intro card hcard
  have hf : readyPoint.lobby.server.cardOf 1 =
      some ⟨"ann", "~ann", "10.0.0.1", "10.0.0.1", "A client", false⟩ := by decide +kernel
  cases hcard
  rfl

theorem stranger_readyPoint : readyPoint.Stranger (guardedBy gate) gate 1 := by
  cases gate <;> exact ⟨by decide +kernel, by decide +kernel, by decide +kernel⟩

theorem stranger_heldPoint : (heldPoint gate).Stranger (guardedBy gate) gate 1 := by
  cases gate <;> exact ⟨by decide +kernel, by decide +kernel, by decide +kernel⟩

theorem wasSent_heldPoint : (heldPoint gate).wasSent 1 (sentToken gate) := by
  unfold wasSent
  cases gate <;> decide +kernel

theorem outsiderRun_admitted :
    Relation.ReflTransGen (OutsiderStep (guardedBy gate) gate 1) readyPoint
      (admittedPoint gate) := by
  have hheld : OutsiderStep (guardedBy gate) gate 1 readyPoint (heldPoint gate) :=
    ⟨.plain, .attempt 1, trivial, fun _ => stranger_readyPoint gate, rfl⟩
  refine .tail (.single hheld) ?_
  refine ⟨.plain, .token gate 1 (sentToken gate), trivial, fun _ => ?_, rfl⟩
  exact ⟨stranger_heldPoint gate, fun _ _ _ => wasSent_heldPoint gate⟩

end

/-- The token of the challenge is taken as its solution, by either gate. -/
theorem own_challenge_admits :
    (readyPoint.Shut .recaptcha 1 ∧
      Relation.ReflTransGen (OutsiderStep (guardedBy .recaptcha) .recaptcha 1)
        readyPoint (admittedPoint .recaptcha) ∧
      (admittedPoint .recaptcha).lobby.server.isEnrolled 1 = true) ∧
    (readyPoint.Shut .cloudflare 1 ∧
      Relation.ReflTransGen (OutsiderStep (guardedBy .cloudflare) .cloudflare 1)
        readyPoint (admittedPoint .cloudflare) ∧
      (admittedPoint .cloudflare).lobby.server.isEnrolled 1 = true) :=
  ⟨⟨shut_readyPoint _, outsiderRun_admitted _, by decide +kernel⟩,
    shut_readyPoint _, outsiderRun_admitted _, by decide +kernel⟩

def latePoint : Checkpoint :=
  (heldPoint .recaptcha).step (guardedBy .recaptcha) .plain
    (.elsewhere ((heldPoint .recaptcha).lobby.setClock 90000))

theorem stranger_latePoint : latePoint.Stranger (guardedBy .recaptcha) .recaptcha 1 :=
  ⟨by decide +kernel, by decide +kernel, by decide +kernel⟩

/-- By then the token has expired, and the client that presents it stays out. -/
theorem gate_stays_shut_late :
    (latePoint.step (guardedBy .recaptcha) .plain
      (.token .recaptcha 1 (sentToken .recaptcha))).lobby.server.isEnrolled 1 = false := by
  have hheld : HeldStep (guardedBy .recaptcha) .recaptcha 1 readyPoint
      (heldPoint .recaptcha) :=
    ⟨.plain, .attempt 1, trivial, fun _ => stranger_readyPoint _, trivial, rfl⟩
  have hlate : HeldStep (guardedBy .recaptcha) .recaptcha 1 (heldPoint .recaptcha)
      latePoint := by
    refine ⟨.plain, .elsewhere ((heldPoint .recaptcha).lobby.setClock 90000), ?_, trivial,
      trivial, rfl⟩
    exact (heldPoint .recaptcha).admits_setClock 90000
  have hwas : latePoint.wasSent 1 (sentToken .recaptcha) := wasSent_heldPoint .recaptcha
  have hvrf : Jwt.verifyHs256 (guardedBy .recaptcha).base64
      (guardedBy .recaptcha).hmac (sentToken .recaptcha) "k" =
      some (tokenClaims "e" "10.0.0.1" 0 1800) := by decide +kernel
  refine gate_stays_shut (by decide +kernel) (shut_readyPoint .recaptcha)
    (.tail (.tail (.single hheld) hlate)
      ⟨.plain, .token .recaptcha 1 (sentToken .recaptcha), trivial, ?_, ?_, rfl⟩)
  · exact fun _ => ⟨stranger_latePoint, fun _ _ _ => hwas⟩
  · intro _ _ _ claims hclaims
    cases hvrf.symm.trans hclaims
    exact .inr (.inr (by decide +kernel))

end EchoIrcd
