import EchoIrcd.Cards
import EchoIrcd.Registration

/-!
# What a line and a registration can do

The invariants of the lobby rest on two rules: what one command of a client may
change, and how an attempt to register goes on from check to check.
-/

namespace EchoIrcd

open Str

namespace Lobby

variable {env : LobbyEnv} {conf : LobbyConf} {answers : Answers} {lobby : Lobby} {uid : Uid}

/-! ## Commands -/

def namesClient (command : LobbyCommand) : Bool :=
  command = .nick || command = .user || command = .webirc

/-- What a command does to the lobby.  Some commands change what a client is known by. -/
inductive Does (uid : Uid) (lobby : Lobby) : Bool → Lobby → Prop
  | nothing (names : Bool) : Does uid lobby names lobby
  | leaves (names : Bool) (reason : Str) : Does uid lobby names (lobby.removeUser uid reason)
  | session (names : Bool) {change : Session → Session}
      (hs : ∀ session, (change session).connClass = session.connClass ∧
        (change session).authPending = session.authPending ∧
        (change session).dnsPending = session.dnsPending) :
      Does uid lobby names (lobby.changeSession uid change)
  | nick (newnick : Str) :
      Does uid lobby true { lobby with server := lobby.server.setNick uid newnick }
  | nickLeaves (newnick reason : Str) : Does uid lobby true
      (removeUser uid reason { lobby with server := lobby.server.setNick uid newnick })
  | user {change : User → User} (changeCard : Card → Card)
      (hcard : ∀ user, (change user).card = changeCard user.card)
      (hs : ∀ card, (changeCard card).ip = card.ip ∧
        (changeCard card).registered = card.registered) :
      Does uid lobby true (lobby.changeUser uid change)
  | webirc {user : User} (host new : Str) (hu : lobby.server.users.lookup uid = some user) :
      Does uid lobby true { lobby.changeUser uid (fun user => { user with host := host, ip := new })
        with counts := lobby.counts.changeIp user.ip new (lobby.classOf uid) }

theorem does_nick (params : List Str) :
    Does uid lobby true (lobby.nick env conf answers uid params) := by
  unfold nick
  split
  · exact .nothing _
  · split
    · exact .nothing _
    · simp only
      split
      · split
        · split
          · exact .nickLeaves ..
          · exact .nick _
        · exact .nick _
      · exact .nick _

theorem does_webirc (params : List Str) :
    Does uid lobby true (lobby.webirc env conf uid params) := by
  unfold webirc
  split
  · rename_i hu
    simp only
    split
    · exact .nothing _
    · split
      · exact .webirc _ _ hu
      · exact .user ({ · with host := _ }) (fun _ => rfl) fun _ => ⟨rfl, rfl⟩
  · exact .nothing _

theorem does_handle (line : ClientLine) :
    Does uid lobby (namesClient line.command) (lobby.handle env conf answers uid line) := by
  unfold handle
  split <;> rename_i hcmd <;> rw [hcmd]
  · exact does_nick _
  · unfold Lobby.user
    split
    · split
      · exact .nothing _
      · exact .user ({ · with ident := _, realname := _ }) (fun _ => rfl) fun _ => ⟨rfl, rfl⟩
    · exact .nothing _
  · exact does_webirc _
  · unfold cap
    split
    · exact .nothing _
    · simp only
      split
      · exact .session _ fun _ => ⟨rfl, rfl, rfl⟩
      · split
        · exact .session _ fun _ => ⟨rfl, rfl, rfl⟩
        · exact .nothing _
  · unfold pass
    split
    · exact .nothing _
    · split
      · exact .nothing _
      · exact .session _ fun _ => ⟨rfl, rfl, rfl⟩
  · unfold pong
    split
    · exact .nothing _
    · split
      · exact .session _ fun _ => ⟨rfl, rfl, rfl⟩
      · split
        · exact .leaves ..
        · exact .nothing _
  · exact .leaves ..
  · exact .nothing _
  · exact .nothing _

theorem assign_cases {assigned : Lobby} (hasg : lobby.assign env conf uid = .ok assigned) :
    assigned = lobby ∨ ∃ host user connClass,
      lobby.pick env conf uid host user = .chosen connClass ∧
      assigned = lobby.setClass uid connClass.name := by
  unfold assign at hasg
  split at hasg
  · cases hasg
    exact .inl rfl
  · split at hasg
    · cases hasg
    · split at hasg
      · cases hasg
      · cases hasg
        exact .inl rfl
    · rename_i hpick
      split at hasg
      · cases hasg
      · split at hasg
        · cases hasg
        · cases hasg
          exact .inr ⟨_, _, _, hpick, rfl⟩

/-! ## Registration -/

/--
What is to be shown of an attempt to register: `Ready` holds from the last ban
check on as long as the client may go on, and `Done` holds wherever it ends.
-/
structure Rules (env : LobbyEnv) (conf : LobbyConf) (uid : Uid) (Ready Done : Lobby → Prop) :
    Prop where
  stop : ∀ {lobby}, Ready lobby → Done lobby
  leave : ∀ {lobby} reason, Done lobby → Done (lobby.removeUser uid reason)
  choose : ∀ {lobby host user connClass}, Ready lobby →
    lobby.pick env conf uid host user = .chosen connClass →
    Ready (lobby.setClass uid connClass.name)
  finish : ∀ {lobby}, Ready lobby → Ready (lobby.finishRegister conf uid)
  await : ∀ {lobby}, Ready lobby →
    Done (lobby.changeSession uid fun session => { session with authPending := true })
  welcome : ∀ {lobby}, Ready lobby → Done (lobby.welcome env uid)

namespace Rules

variable {Ready Done : Lobby → Prop} (hrules : Rules env conf uid Ready Done)

/-- A check leaves the client ready, or ends the attempt. -/
def Checked (Ready Done : Lobby → Prop) (checked : Lobby × AuthOutcome) : Prop :=
  Done checked.1 ∧ (checked.2 = .proceed → Ready checked.1)

include hrules

theorem checkClass (hrdy : Ready lobby) (user : User) :
    Checked Ready Done (lobby.checkClass env conf answers uid user) := by
  have hproceed : ∀ {lobby}, Ready lobby → Checked Ready Done (lobby, .proceed) :=
    fun hrdy => ⟨hrules.stop hrdy, fun _ => hrdy⟩
  have hrej : ∀ reason, Checked Ready Done (lobby, .reject reason) :=
    fun _ => ⟨hrules.stop hrdy, nofun⟩
  unfold Lobby.checkClass checkPassword
  split
  · exact hproceed hrdy
  · split
    · exact hrej _
    · split
      · exact hrej _
      · split
        · exact hproceed (hrules.finish hrdy)
        · split
          · split
            · exact ⟨hrules.await hrdy, nofun⟩
            · exact hrej _
          · split
            · exact hproceed (hrules.finish hrdy)
            · exact hrej _

theorem onRegister (hrdy : Ready lobby) :
    Checked Ready Done (lobby.onRegister env conf answers uid) := by
  unfold Lobby.onRegister
  split
  · exact ⟨hrules.stop hrdy, fun _ => hrdy⟩
  · split
    · exact ⟨hrules.stop hrdy, nofun⟩
    · rename_i hpick
      exact hrules.checkClass (hrules.choose hrdy hpick) _
    · exact hrules.checkClass hrdy _

theorem enroll (hdone : Done lobby) (hrdy : lobby.bannedRline env uid = none → Ready lobby) :
    Done (lobby.enroll env conf answers uid) := by
  unfold Lobby.enroll
  split
  · exact hrules.leave _ hdone
  · rename_i hfree
    have hchecked : Checked Ready Done (lobby.onRegister env conf answers uid) :=
      hrules.onRegister (hrdy hfree)
    split <;> rename_i hcheck <;> rw [hcheck] at hchecked
    · exact hrules.welcome (hchecked.2 rfl)
    · exact hchecked.1
    · exact hrules.leave _ hchecked.1

theorem completeRegistration (hdone : Done lobby)
    (hset : lobby.bannedXline env uid = none → Done (lobby.applyIdent uid) ∧
      ((lobby.applyIdent uid).bannedRline env uid = none → Ready (lobby.applyIdent uid))) :
    Done (lobby.completeRegistration env conf answers uid) := by
  unfold Lobby.completeRegistration
  split
  · exact hrules.leave _ hdone
  · exact hdone
  · split
    · exact hrules.leave _ hdone
    · rename_i hfree
      unfold finalize
      simp only
      split
      · exact hrules.leave _ hdone
      · rename_i settled hsettles
        split at hsettles
        · cases hsettles
        · cases hsettles
          exact hrules.enroll (hset hfree).1 (hset hfree).2

end Rules

end Lobby

end EchoIrcd
