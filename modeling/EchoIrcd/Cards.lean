import EchoIrcd.Wire

/-!
# Who a client says it is

The fields of a user record that bans are matched against, with whether the
client has registered.  Each function on a server either leaves the card of a
user alone or changes it in a way one equation states.
-/

namespace EchoIrcd

open Str

variable {after before : Server} {change : User → User} (server : Server) (target uid : Uid)

structure Card where
  nick : Str
  ident : Str
  host : Str
  ip : Str
  realname : Str
  registered : Bool
  deriving DecidableEq, Repr

def User.card (user : User) : Card where
  nick := user.nick
  ident := user.ident
  host := user.host
  ip := user.ip
  realname := user.realname
  registered := user.registered

namespace Server

def cardOf (server : Server) (uid : Uid) : Option Card :=
  (server.users.lookup uid).map User.card

theorem cardOf_of_users (hus : after.users = before.users)
    (uid : Uid) : after.cardOf uid = before.cardOf uid := by
  rw [cardOf, cardOf, hus]

theorem cardOf_eq_none {server : Server} {uid : Uid} :
    server.cardOf uid = none ↔ uid ∉ server.users := by
  rw [cardOf, Option.map_eq_none_iff, AList.lookup_eq_none]

theorem cardOf_changeUser (changeCard : Card → Card)
    (hchg : ∀ user, (change user).card = changeCard user.card) (other : Uid) :
    (server.changeUser uid change).cardOf other =
      if other = uid then (server.cardOf uid).map changeCard else server.cardOf other := by
  unfold cardOf changeUser
  rw [Table.lookup_modify]
  split
  · simp only [Option.map_map, Function.comp_def, hchg]
  · rfl

theorem cardOf_changeUser_same (hchg : ∀ user, (change user).card = user.card) (other : Uid) :
    (server.changeUser uid change).cardOf other = server.cardOf other := by
  rw [cardOf_changeUser server uid id hchg]
  split
  · rename_i ho
    rw [ho, Option.map_id, id]
  · rfl

theorem card_of_badge {before after : User} (hbadge : after.badge = before.badge)
    (hident : after.ident = before.ident) : after.card = before.card := by
  simp only [User.badge, Prod.mk.injEq] at hbadge
  obtain ⟨⟨-, hnick⟩, hreg, -, hip, hhost, hrealname⟩ := hbadge
  simp only [User.card, hnick, hident, hhost, hip, hrealname, hreg]

theorem cardOf_touches {marked : Uid → Prop} (htch : Touches marked before after) {uid : Uid}
    (hspared : ¬marked uid) : after.cardOf uid = before.cardOf uid := by
  refine htch.same (fun server => server.cardOf uid) ?_
  intro before after htouch
  cases htouch with
  | say _ _ => rfl
  | user other hbadge hident =>
    by_cases ho : uid = other
    · subst ho
      have hkept := hident.resolve_left hspared
      exact cardOf_changeUser_same before uid
        (fun user => card_of_badge (hbadge user) (hkept user)) uid
    · simp only [cardOf, changeUser, Table.lookup_modify_ne _ _ ho]
  | regrade key other change => rfl

theorem cardOf_drainHooks (env : Env) (server : Server) {uid : Uid}
    (hspared : Hook.connect uid ∉ server.events) :
    (server.drainHooks env).cardOf uid = server.cardOf uid :=
  (cardOf_touches (touches_drainHooks env server) hspared).trans rfl

theorem cardOf_svsSetUserModes (modes : Str) (uid : Uid) :
    (server.svsSetUserModes target modes).cardOf uid = server.cardOf uid :=
  cardOf_touches (touches_svsSetUserModes target modes server) not_false

theorem cardOf_join (env : Env) (target : Uid) (server : Server) (name : Str) (uid : Uid) :
    (server.join env target name).cardOf uid = server.cardOf uid := by
  unfold join
  split
  · split
    · have hsent := propagateJoin_users
      simp only [letIn, cardOf, hsent]
      refine cardOf_changeUser_same server target ?_ uid
      exact fun _ => rfl
    · rfl
  · rfl

theorem cardOf_welcome (env : Env) (target : Uid) (server : Server) (uid : Uid) :
    (server.welcome env target).cardOf uid =
      if uid = target then (server.cardOf target).map ({ · with registered := true })
      else server.cardOf uid := by
  have hjn : ∀ (chans : List Str) (server : Server),
      (chans.foldl (fun server chan => server.join env target chan) server).cardOf uid =
        server.cardOf uid := by
    intro chans
    induction chans with
    | nil => exact fun _ => rfl
    | cons chan chans ih => exact fun server => (ih _).trans (cardOf_join ..)
  unfold welcome autojoinAll
  rw [hjn]
  refine (cardOf_touches (touches_setConnUmodes target (server.markRegistered target))
    not_false).trans ?_
  exact cardOf_changeUser server target _ (fun _ => rfl) uid

theorem cardOf_removeUser (reason : Str) (uid : Uid) :
    (server.removeUser target reason).cardOf uid =
      if uid = target then none else server.cardOf uid :=
  map_removeUser (fun _ _ => rfl) uid

theorem cardOf_setNick (newnick : Str) (uid : Uid) :
    (server.setNick target newnick).cardOf uid =
      if uid = target then (server.cardOf target).map ({ · with nick := newnick })
      else server.cardOf uid := by
  unfold cardOf
  rw [map_setNick (fun _ _ => rfl), Option.map_map]
  rfl

end Server

end EchoIrcd
