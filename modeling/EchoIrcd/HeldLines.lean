import EchoIrcd.LobbyRules

/-!
# Lines held while a host name is looked up

The lines of a client are held while its lookups run, and executed when the
answer comes (`defer_if_resolving`, `take_deferred`).  At most 32 are held; one
that comes after them is executed at once, before them.
-/

namespace EchoIrcd.Lobby

def Settled (uid : Uid) (lobby : Lobby) : Prop :=
  ∀ session ∈ lobby.sessions.lookup uid, session.dnsPending = false

def Waits (uid : Uid) (held : List ClientLine) (lobby : Lobby) : Prop :=
  lobby.server.isEnrolled uid = false ∧
    ∃ session ∈ lobby.sessions.lookup uid, session.dnsPending = true ∧ session.deferred = held

section Heard

variable (env : LobbyEnv) (conf : LobbyConf) (answers : Answers) (uid : Uid)

def executed : List ClientLine → Lobby → List ClientLine
  | [], _ => []
  | line :: lines, lobby =>
    if uid ∈ lobby.server.users then
      (if lobby.defers uid then [] else [line]) ++
        executed lines (lobby.onLine env conf answers uid line)
    else []

/-- A client that has sent `sent`, of which `done` have been executed. -/
inductive Heard : List ClientLine → List ClientLine → Lobby → Prop
  | start {lobby : Lobby} (hwt : lobby.Waits uid []) : Heard [] [] lobby
  /-- a line of a client that is there, when there is room to hold it -/
  | line {sent done : List ClientLine} {lobby : Lobby} (hhd : Heard sent done lobby)
      (hhere : uid ∈ lobby.server.users) (hroom : (lobby.heldLines uid).length < 32)
      (line : ClientLine) :
      Heard (sent ++ [line]) (done ++ if lobby.defers uid then [] else [line])
        (lobby.onLine env conf answers uid line)
  /-- the answer to the lookups, when it does not refuse the client -/
  | answer {sent done : List ClientLine} {lobby : Lobby} (hhd : Heard sent done lobby)
      (hhere : uid ∈ lobby.server.users) (hpend : ¬lobby.Settled uid) (host : Option Str) :
      Heard sent (done ++ ((lobby.onResolved conf uid host none).takeDeferred uid).executed env
          conf answers uid ((lobby.onResolved conf uid host none).heldLines uid))
        (lobby.resolvedHost env conf answers uid host none)
  /-- what leaves the held lines alone, and what disconnects the client -/
  | elsewhere {sent done : List ClientLine} {lobby after : Lobby} (hhd : Heard sent done lobby)
      (hkept : uid ∈ after.server.users → uid ∈ lobby.server.users ∧
        (lobby.Settled uid → after.Settled uid) ∧ ∀ held, lobby.Waits uid held → after.Waits uid held) :
      Heard sent done after

end Heard

variable {env : LobbyEnv} {conf : LobbyConf} {answers : Answers} {lobby after : Lobby} {uid : Uid}

/-! ## After the answer -/

theorem replay_of_gone (hgone : uid ∉ lobby.server.users) (lines : List ClientLine) :
    lobby.replay env conf answers uid lines = lobby := by
  induction lines with
  | nil => rfl
  | cons line lines ih => simpa [replay, hgone] using ih

namespace Settled

variable (hset : lobby.Settled uid)

include hset

theorem changeSession {change : Session → Session}
    (hs : ∀ session, (change session).dnsPending = session.dnsPending) :
    (lobby.changeSession uid change).Settled uid := by
  simpa [Settled, Lobby.changeSession, hs] using hset

theorem removeUser (reason : Str) : (lobby.removeUser uid reason).Settled uid := by
  unfold Lobby.removeUser
  split
  · exact hset
  · simp [Settled]

theorem does {names : Bool} (hdoes : Does uid lobby names after) : after.Settled uid := by
  cases hdoes with
  | leaves _ reason => exact hset.removeUser reason
  | session _ hs => exact hset.changeSession fun session => (hs session).2.2
  | nickLeaves newnick reason =>
    have hnm : Settled uid { lobby with server := lobby.server.setNick uid newnick } := hset
    exact hnm.removeUser reason
  | _ => exact hset

omit hset in
theorem rules : Rules env conf uid (Settled uid) (Settled uid) where
  stop hset := hset
  leave reason hset := hset.removeUser reason
  choose hset _ := by
    unfold setClass
    split
    · split
      · exact hset
      · rename_i hsess _
        simpa [Settled] using hset _ hsess
    · exact hset
  finish hset := by
    unfold finishRegister
    split <;> exact hset
  await hset := hset.changeSession fun _ => rfl
  welcome hset := by
    unfold Lobby.welcome
    split
    · exact hset
    · split
      · exact hset.removeUser _
      · exact hset

theorem tryRegister : (lobby.tryRegister env conf answers uid).Settled uid := by
  unfold Lobby.tryRegister
  split
  · have happl : (lobby.applyIdent uid).Settled uid := by
      unfold applyIdent
      split <;> exact hset
    exact rules.completeRegistration hset fun _ => ⟨happl, fun _ => happl⟩
  · exact hset

theorem defers : lobby.defers uid = false := by
  rw [Lobby.defers, Option.any_eq_false]
  intro session hsess
  simp [hset session hsess]

theorem onLine (line : ClientLine) : (lobby.onLine env conf answers uid line).Settled uid := by
  rw [Lobby.onLine, if_neg (by simp [hset.defers])]
  have hhandled := hset.does (@does_handle env conf answers lobby uid line)
  unfold dispatch
  simp only
  split
  · exact hset
  · split
    · exact hset
    · split
      · exact hhandled
      · exact hhandled.tryRegister

theorem replay (lines : List ClientLine) :
    lobby.executed env conf answers uid lines <+: lines ∧
      (lobby.replay env conf answers uid lines).Settled uid ∧
      (uid ∈ (lobby.replay env conf answers uid lines).server.users →
        lobby.executed env conf answers uid lines = lines) := by
  induction lines generalizing lobby with
  | nil => simpa [executed, Lobby.replay] using hset
  | cons line lines ih =>
    by_cases hhere : uid ∈ lobby.server.users
    · simpa [executed, Lobby.replay, hhere, hset.defers] using ih (hset.onLine line)
    · have hs : lobby.replay env conf answers uid (line :: lines) = lobby := replay_of_gone hhere _
      rw [hs]
      simpa [executed, hhere] using hset

end Settled

/-- The lines of a client that is there are executed so far, or they are all held. -/
theorem Heard.kept {sent done : List ClientLine} (hhd : Heard env conf answers uid sent done lobby) :
    done <+: sent ∧ (uid ∈ lobby.server.users →
      lobby.Settled uid ∧ done = sent ∨ lobby.Waits uid sent ∧ done = []) := by
  induction hhd with
  | start hwt => exact ⟨List.prefix_rfl, fun _ => .inr ⟨hwt, rfl⟩⟩
  | @line sent done lobby _ hhere hroom line ih =>
    rcases ih.2 hhere with ⟨hset, rfl⟩ | ⟨⟨hpre, session, hsess, hpend, rfl⟩, rfl⟩
    · rw [hset.defers]
      exact ⟨List.prefix_rfl, fun _ => .inl ⟨hset.onLine line, rfl⟩⟩
    · have hdefers : lobby.defers uid = true := by
        simpa [defers, heldLines, Option.mem_def.mp hsess, hpre, hpend] using hroom
      rw [if_pos hdefers, onLine, if_pos hdefers]
      refine ⟨by simp, fun _ => .inr ⟨⟨hpre, { session with deferred := session.deferred ++ [line] },
        ?_, hpend, rfl⟩, rfl⟩⟩
      simp [changeSession, Option.mem_def.mp hsess]
  | @answer sent done lobby _ hhere hpend host ih =>
    rcases ih.2 hhere with ⟨hset, -⟩ | ⟨⟨hpre, session, hsess, -, rfl⟩, rfl⟩
    · exact absurd hset hpend
    · have hsns : (lobby.onResolved conf uid host none).sessions.lookup uid =
          some { session with dnsPending := false } := by
        unfold onResolved
        split
        · split <;> simp [changeSession, changeUser, Option.mem_def.mp hsess]
        · simp [changeSession, Option.mem_def.mp hsess]
      have htaken : ((lobby.onResolved conf uid host none).takeDeferred uid).Settled uid := by
        simp [Settled, takeDeferred, changeSession, hsns]
      obtain ⟨hdone, hset, hall⟩ := @Settled.replay env conf answers _ _ htaken session.deferred
      have hheld : (lobby.onResolved conf uid host none).heldLines uid = session.deferred := by
        simp [heldLines, hsns]
      rw [List.nil_append, hheld]
      refine ⟨hdone, fun hth => .inl ?_⟩
      rw [resolvedHost, hheld] at hth ⊢
      refine ⟨hset.tryRegister, hall ?_⟩
      by_contra hgone
      rw [tryRegister, isReady, AList.lookup_eq_none.mpr hgone] at hth
      exact hgone hth
  | elsewhere _ hkept ih =>
    refine ⟨ih.1, fun hth => ?_⟩
    obtain ⟨hhere, hsettles, hwt⟩ := hkept hth
    exact (ih.2 hhere).imp (.imp_left hsettles) (.imp_left (hwt _))

/-- In a run that never has a line while 32 are held, the lines of a client are executed in the
order they were sent, and all of them once the answer is there and as long as the client is. -/
theorem heard_in_order {sent done : List ClientLine}
    (hhd : Heard env conf answers uid sent done lobby) :
    done <+: sent ∧ (uid ∈ lobby.server.users → lobby.Settled uid → done = sent) := by
  refine ⟨hhd.kept.1, fun hhere hset => ?_⟩
  rcases hhd.kept.2 hhere with ⟨-, hdone⟩ | ⟨⟨-, session, hsess, hpend, -⟩, -⟩
  · exact hdone
  · cases (hset session hsess).symm.trans hpend

def resolves : LobbyConf := { resolveHosts := true }

def lookedUp : Lobby := .after resolves [arrives 1 "1AAAAAAAA"]

theorem lookedUp_waits : lookedUp.Waits 1 [] := ⟨rfl, _, rfl, rfl, rfl⟩

def greeting : List ClientLine := [⟨.nick, ["ann"]⟩, ⟨.user, ["ann", "0", "*", "A client"]⟩]

def answered : Lobby :=
  (lookedUp.replay .plain resolves .plain 1 greeting).resolvedHost .plain resolves .plain 1
    (some "h.test") none

/-- Two lines are held, and both are executed when the answer comes. -/
theorem heard_in_order_answered :
    (lookedUp.replay .plain resolves .plain 1 greeting).heldLines 1 = greeting ∧
      answered.server.isEnrolled 1 = true ∧
      ∃ done, Heard .plain resolves .plain 1 greeting done answered ∧ done = greeting := by
  have hheld : ¬ (lookedUp.replay .plain resolves .plain 1 greeting).Settled 1 := by
    intro hset
    cases hset _ rfl
  have hhd : Heard .plain resolves .plain 1 greeting _ answered :=
    .answer (.line (.line (.start lookedUp_waits) (by decide +kernel) (by decide +kernel) _)
      (by decide +kernel) (by decide +kernel) _) (by decide +kernel) hheld (some "h.test")
  refine ⟨by decide +kernel, by decide +kernel, _, hhd,
    (heard_in_order hhd).2 (by decide +kernel) ?_⟩
  intro session hsess
  cases hsess
  rfl

/-- The line after the 32 that are held is executed before them. -/
theorem line_overtakes_held :
    let held := lookedUp.replay .plain resolves .plain 1
      (List.replicate 32 ⟨.idle, []⟩)
    lookedUp.Waits 1 [] ∧ held.heldLines 1 = List.replicate 32 ⟨.idle, []⟩ ∧
      held.defers 1 = false ∧ lookedUp.executed .plain resolves .plain 1
        (List.replicate 32 ⟨.idle, []⟩ ++ [⟨.cap, ["LS"]⟩]) = [⟨.cap, ["LS"]⟩] := by
  refine ⟨lookedUp_waits, ?_⟩
  decide +kernel

end EchoIrcd.Lobby
