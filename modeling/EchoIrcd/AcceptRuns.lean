import EchoIrcd.Chat
import EchoIrcd.Introduction
import EchoIrcd.Lib.Demand

/-!
# ACCEPT lists and the nicks on them

A user with caller-id lists the nicks it hears.  A nick change carries the entries
over and a quit scrubs them, but the scrub is skipped when the count of acceptors
says that there is nothing to do (`server.rs`, `users.rs`, `core_watch.rs`).  The
count is never below the number of entries, so no entry outlives its nick.
-/

namespace EchoIrcd

open Str Table Server Tally Option List

variable {maxaccept : Nat} {user : User} {trail : List (Server × AcceptEvent)}
  {finish start : Server} {newnick : Str}

namespace Server

/-! ## The command -/

def acceptAdd (uid : Uid) (nick : Str) (server : Server) : Server :=
  if uid ∈ server.users then
    { server with
      users := modify uid (fun user => { user with accept := user.accept ++ [nick] })
        server.users
      acceptedNicks := inc nick server.acceptedNicks }
  else server

def acceptRemove (uid : Uid) (nick : Str) (server : Server) : Server :=
  if (server.users.lookup uid).any fun user => nick ∈ user.accept then
    { server with
      users := modify uid (fun user =>
        { user with accept := user.accept.filter (· ≠ nick) }) server.users
      acceptedNicks := dec nick server.acceptedNicks }
  else server

end Server

namespace Accept

/-- The nicks that ACCEPT names, each with its sign; `*` only shows the list. -/
def entries (params : List Str) : List (Bool × Str) :=
  let first := params.headD []
  if first = [] ∨ first = "*" then []
  else
    let tokens : List Str := params.flatMap (splitOnP fun char => char = ',' || char = ' ')
    (tokens.filter fun token => token ≠ [] ∧ token ≠ ("*" : Str)).filterMap fun token =>
      let entry : Bool × Str := match token with
        | '-' :: name => (false, name)
        | '+' :: name => (true, name)
        | _ => (true, token)
      if entry.2 = [] then none else some (entry.1, toAsciiLower entry.2)

end Accept

def User.follow (old new : Str) (user : User) : User :=
  { user with accept := user.accept.map (rename old new) }

def User.unaccept (nick : Str) (user : User) : User :=
  { user with accept := user.accept.filter (· ≠ nick) }

namespace Server

def acceptStep (maxaccept : Nat) (uid : Uid) (server : Server) (entry : Bool × Str) : Server :=
  match server.users.lookup uid with
  | none => server
  | some user =>
    if entry.1 then
      if entry.2 ∈ user.accept ∨ maxaccept ≤ user.accept.length then server
      else server.acceptAdd uid entry.2
    else server.acceptRemove uid entry.2

def accept (maxaccept : Nat) (uid : Uid) (params : List Str) (server : Server) : Server :=
  (Accept.entries params).foldl (acceptStep maxaccept uid) server

def lists (server : Server) (uid : Uid) (nick : Str) : Prop :=
  ∃ user, server.users.lookup uid = some user ∧ nick ∈ user.accept

def AcceptsCovered (server : Server) : Prop :=
  Covers server.acceptedNicks User.accept server.users

variable {server : Server} {uid other : Uid} {nick name : Str}

theorem lookup_modify_other {change : User → User} (other : Uid) (ho : other ≠ uid) :
    (modify uid change server.users).lookup other = server.users.lookup other :=
  lookup_modify_ne _ _ ho

namespace AcceptsCovered

variable (hcov : server.AcceptsCovered)

include hcov

theorem acceptAdd (uid : Uid) (nick : Str) : (server.acceptAdd uid nick).AcceptsCovered := by
  unfold Server.acceptAdd
  split
  · rename_i hmem
    obtain ⟨user, hu⟩ := Table.mem_iff_lookup.mp hmem
    have haft := Table.lookup_modify_self server.users uid
      fun user => { user with accept := user.accept ++ [nick] }
    rw [hu, map_some] at haft
    exact Tally.Covers.push hcov hu haft lookup_modify_other rfl
  · exact hcov

theorem acceptRemove (uid : Uid) (nick : Str) : (server.acceptRemove uid nick).AcceptsCovered := by
  unfold Server.acceptRemove
  split
  · rename_i hlst
    obtain ⟨user, hu, hmem⟩ := (any_eq_true _ _).mp hlst
    have haft := Table.lookup_modify_self server.users uid
      fun user => { user with accept := user.accept.filter (· ≠ nick) }
    rw [hu, map_some] at haft
    exact Tally.Covers.drop hcov hu haft lookup_modify_other (of_decide_eq_true hmem) rfl
  · exact hcov

theorem accept (maxaccept : Nat) (uid : Uid)
    (params : List Str) : (server.accept maxaccept uid params).AcceptsCovered := by
  refine foldlRecOn (motive := AcceptsCovered) _ _ hcov ?_
  intro server hcov entry _
  unfold acceptStep
  split
  · exact hcov
  · split
    · split
      · exact hcov
      · exact hcov.acceptAdd uid entry.2
    · exact hcov.acceptRemove uid entry.2

end AcceptsCovered

theorem lists_acceptAdd (hlis : (server.acceptAdd uid nick).lists other name) :
    server.lists other name ∨ (other = uid ∧ name = nick) := by
  obtain ⟨user, hu, hmem⟩ := hlis
  unfold acceptAdd at hu
  split at hu
  · obtain ⟨known, hkn, ⟨ho, rfl⟩ | ⟨-, rfl⟩⟩ := of_lookup_modify hu
    · rcases mem_append.mp hmem with hold | hnew
      · exact .inl ⟨known, hkn, hold⟩
      · exact .inr ⟨ho, mem_singleton.mp hnew⟩
    · exact .inl ⟨user, hkn, hmem⟩
  · exact .inl ⟨user, hu, hmem⟩

theorem lists_acceptRemove (hlis : (server.acceptRemove uid nick).lists other name) :
    server.lists other name := by
  obtain ⟨user, hu, hmem⟩ := hlis
  unfold acceptRemove at hu
  split at hu
  · obtain ⟨known, hkn, ⟨-, rfl⟩ | ⟨-, rfl⟩⟩ := of_lookup_modify hu
    · exact ⟨known, hkn, mem_of_mem_filter hmem⟩
    · exact ⟨user, hkn, hmem⟩
  · exact ⟨user, hu, hmem⟩

theorem lists_accept {params : List Str}
    (hlis : (server.accept maxaccept uid params).lists other name) :
    server.lists other name ∨ (other = uid ∧ (true, name) ∈ Accept.entries params) := by
  unfold accept at hlis
  generalize Accept.entries params = entries at hlis ⊢
  induction entries generalizing server with
  | nil => exact .inl hlis
  | cons entry entries ih =>
    rcases ih hlis with hstep | ⟨rfl, hmem⟩
    · unfold acceptStep at hstep
      split at hstep
      · exact .inl hstep
      · split at hstep
        · rename_i hadd
          split at hstep
          · exact .inl hstep
          · rcases lists_acceptAdd hstep with hold | ⟨rfl, rfl⟩
            · exact .inl hold
            · exact .inr ⟨rfl, hadd ▸ mem_cons_self ..⟩
        · exact .inl (lists_acceptRemove hstep)
    · exact .inr ⟨rfl, mem_cons_of_mem _ hmem⟩

/-! ## Nick changes and departures -/

section

variable (uid : Uid) (newnick : Str) (server : Server)

@[simp] theorem propagateNick_acceptedNicks :
    (server.propagateNick uid newnick).acceptedNicks = server.acceptedNicks := by
  unfold propagateNick
  split
  · split <;> rfl
  · rfl

def newlyNamed : Table Uid User :=
  modify uid (fun user => { user with nick := newnick, nickTs := server.clock }) server.users

theorem accept_newlyNamed (other : Uid) :
    ((server.newlyNamed uid newnick).lookup other).map User.accept =
      (server.users.lookup other).map User.accept := by
  refine map_modify ?_ uid other
  exact fun _ => rfl

end

theorem setNick_accepts (hu : server.users.lookup uid = some user) (newnick : Str) :
    ((server.setNick uid newnick).users, (server.setNick uid newnick).acceptedNicks) =
      if user.nick ≠ [] ∧ toAsciiLower user.nick ≠ toAsciiLower newnick then
        (mapValues (fun _ => User.follow (toAsciiLower user.nick) (toAsciiLower newnick))
          (server.newlyNamed uid newnick),
         move (toAsciiLower user.nick) (toAsciiLower newnick) server.acceptedNicks)
      else (server.newlyNamed uid newnick, server.acceptedNicks) := by
  simp only [setNick, hu, propagateNick_users, propagateNick_acceptedNicks]
  split
  · rfl
  · rfl

theorem AcceptsCovered.setNick (hcov : server.AcceptsCovered) (uid : Uid) (newnick : Str) :
    (server.setNick uid newnick).AcceptsCovered := by
  cases hu : server.users.lookup uid with
  | none =>
    rw [Server.setNick, hu]
    exact hcov
  | some user =>
    have hnm : Covers server.acceptedNicks User.accept (server.newlyNamed uid newnick) :=
      Covers.congr hcov (accept_newlyNamed uid newnick server)
    have hbk := setNick_accepts hu newnick
    split at hbk
    · rename_i hmoves
      rw [Prod.mk.injEq] at hbk
      rw [AcceptsCovered, hbk.1, hbk.2]
      exact hnm.rename hmoves.2 fun _ => rfl
    · rw [Prod.mk.injEq] at hbk
      rw [AcceptsCovered, hbk.1, hbk.2]
      exact hnm

theorem lists_newlyNamed {holder : User}
    (hhol : (server.newlyNamed uid newnick).lookup other = some holder)
    (hmem : name ∈ holder.accept) : server.lists other name := by
  have hac := accept_newlyNamed uid newnick server other
  rw [hhol, map_some] at hac
  obtain ⟨known, hkn, hs⟩ := map_eq_some_iff.mp hac.symm
  exact ⟨known, hkn, hs ▸ hmem⟩

/-- A nick is on a list after a nick change because it was, or because its new holder was. -/
theorem lists_setNick (hu : server.users.lookup uid = some user)
    (hlis : (server.setNick uid newnick).lists other name) :
    (server.lists other name ∧ ¬ (user.nick ≠ [] ∧ toAsciiLower user.nick = name ∧
        toAsciiLower newnick ≠ name)) ∨
      (name = toAsciiLower newnick ∧ user.nick ≠ [] ∧
        server.lists other (toAsciiLower user.nick)) := by
  obtain ⟨holder, hhol, hmem⟩ := hlis
  have hbk := setNick_accepts hu newnick
  split at hbk
  · rename_i hmoves
    rw [(Prod.mk.inj hbk).1, lookup_mapValues] at hhol
    obtain ⟨known, hkn, rfl⟩ := map_eq_some_iff.mp hhol
    obtain ⟨entry, hent, hname⟩ := mem_map.mp hmem
    have hlst := lists_newlyNamed hkn hent
    unfold rename at hname
    split at hname
    · rename_i hold
      exact .inr ⟨hname.symm, hmoves.1, hold ▸ hlst⟩
    · rename_i hold
      subst hname
      exact .inl ⟨hlst, fun hgone => hold hgone.2.1.symm⟩
  · rename_i hst
    rw [(Prod.mk.inj hbk).1] at hhol
    refine .inl ⟨lists_newlyNamed hhol hmem, ?_⟩
    rintro ⟨hnick, rfl, ho⟩
    exact hst ⟨hnick, Ne.symm ho⟩

theorem removeUser_accepts (hu : server.users.lookup uid = some user) (reason : Str) :
    ((server.removeUser uid reason).users, (server.removeUser uid reason).acceptedNicks) =
      let counts := user.accept.foldl (fun tally label => dec label tally)
        server.acceptedNicks
      if user.nick ≠ [] then
        (if 0 < get counts (toAsciiLower user.nick) then
            mapValues (fun _ => User.unaccept (toAsciiLower user.nick))
              (server.users.erase uid)
          else server.users.erase uid, counts.erase (toAsciiLower user.nick))
      else (server.users.erase uid, counts) := by
  simp only [removeUser, hu]
  cases user.registered with
  | true =>
    by_cases hnick : user.nick ≠ []
    · simp only [if_pos hnick, if_true]
      rfl
    · simp only [if_neg hnick, if_true]
      rfl
  | false =>
    by_cases hnick : user.nick ≠ []
    · simp only [if_pos hnick, Bool.false_eq_true, if_false]
      rfl
    · simp only [if_neg hnick, Bool.false_eq_true, if_false]
      rfl

theorem AcceptsCovered.removeUser (hcov : server.AcceptsCovered) (uid : Uid) (reason : Str) :
    (server.removeUser uid reason).AcceptsCovered := by
  cases hu : server.users.lookup uid with
  | none =>
    rw [Server.removeUser, hu]
    exact hcov
  | some user =>
    have hgone := Covers.depart hcov hu
    have hbk := removeUser_accepts hu reason
    split at hbk
    · rw [Prod.mk.injEq] at hbk
      rw [AcceptsCovered, hbk.1, hbk.2]
      exact hgone.forget fun _ => rfl
    · rw [Prod.mk.injEq] at hbk
      rw [AcceptsCovered, hbk.1, hbk.2]
      exact hgone

theorem lists_removeUser {reason : Str} (hcov : server.AcceptsCovered)
    (hu : server.users.lookup uid = some user)
    (hlis : (server.removeUser uid reason).lists other name) :
    server.lists other name ∧ ¬ (user.nick ≠ [] ∧ toAsciiLower user.nick = name) := by
  obtain ⟨holder, hhol, hmem⟩ := hlis
  have hgone := Covers.depart hcov hu
  have hbk := removeUser_accepts hu reason
  split at hbk
  · rw [(Prod.mk.inj hbk).1] at hhol
    constructor
    · split at hhol
      · rw [lookup_mapValues] at hhol
        obtain ⟨known, hkn, rfl⟩ := map_eq_some_iff.mp hhol
        exact ⟨known, (of_lookup_erase hkn).2, mem_of_mem_filter hmem⟩
      · exact ⟨holder, (of_lookup_erase hhol).2, hmem⟩
    · rintro ⟨-, rfl⟩
      exact hgone.not_mem_forget (fun _ => rfl) hhol hmem
  · rename_i hnick
    rw [(Prod.mk.inj hbk).1] at hhol
    exact ⟨⟨holder, (of_lookup_erase hhol).2, hmem⟩, fun hnm => hnick hnm.1⟩

/-! ## Automatic accepts -/

/-- The sender has `+g`, and room on their list for a nick that is not on it. -/
def Gives (maxaccept : Nat) (uid : Uid) (nick : Str) (server : Server) : Prop :=
  ∃ user, server.users.lookup uid = some user ∧ user.flags .callerid = true ∧
    user.accept.length < maxaccept ∧ nick ∉ user.accept

theorem autoAccept_cases (conf : ChatConf) (uid tuid : Uid) (chat : Chat) :
    (chat.autoAccept conf uid tuid).server = chat.server ∨
      toAsciiLower (chat.nickOf tuid) ≠ [] ∧
        chat.server.Gives conf.maxaccept uid (toAsciiLower (chat.nickOf tuid)) ∧
        (chat.autoAccept conf uid tuid).server =
          chat.server.acceptAdd uid (toAsciiLower (chat.nickOf tuid)) := by
  unfold Chat.autoAccept
  cases hu : chat.server.users.lookup uid with
  | none => exact .inl rfl
  | some user =>
    simp only
    split
    · rename_i hgives
      simp only [Bool.and_eq_true, decide_eq_true_eq] at hgives
      obtain ⟨⟨⟨hflag, hnick⟩, hroom⟩, hnew⟩ := hgives
      refine .inr ⟨hnick, ⟨user, hu, hflag, hroom, hnew⟩, ?_⟩
      rw [acceptAdd, if_pos (mem_of_lookup hu)]
      rfl
    · exact .inl rfl

theorem autoAccept_server (conf : ChatConf) (uid tuid : Uid) (chat : Chat) :
    (chat.autoAccept conf uid tuid).server = chat.server ∨
      ∃ target, chat.server.users.lookup tuid = some target ∧
        chat.server.Gives conf.maxaccept uid (toAsciiLower target.nick) ∧
        (chat.autoAccept conf uid tuid).server =
          chat.server.acceptAdd uid (toAsciiLower target.nick) := by
  rcases autoAccept_cases conf uid tuid chat with hs | ⟨hnick, hgives, hadded⟩
  · exact .inl hs
  · rw [Chat.nickOf] at hnick hgives hadded
    cases htgt : chat.server.users.lookup tuid with
    | none => exact absurd (by rw [htgt]; rfl) hnick
    | some target =>
      rw [htgt, elim_some] at hgives hadded
      exact .inr ⟨target, rfl, hgives, hadded⟩

end Server

/-! ## Runs -/

inductive AcceptEvent where
  | accept (uid : Uid) (params : List Str)
  /-- a private message has been delivered -/
  | writes (uid tuid : Uid)
  | nick (uid : Uid) (newnick : Str)
  | quit (uid : Uid) (reason : Str)
  | connect (uid : Uid) (user : User)
  /-- anything that leaves the lists and their counts alone -/
  | elsewhere

/-- What an event makes of the server; a message is written in some chat. -/
inductive Acts (maxaccept : Nat) : Server → AcceptEvent → Server → Prop where
  | accept {server : Server} (uid : Uid) (params : List Str) :
      Acts maxaccept server (.accept uid params) (server.accept maxaccept uid params)
  | writes {chat : Chat} {conf : ChatConf} (hmax : conf.maxaccept = maxaccept) (uid tuid : Uid) :
      Acts maxaccept chat.server (.writes uid tuid) (chat.autoAccept conf uid tuid).server
  | nick {server : Server} (uid : Uid) (newnick : Str) :
      Acts maxaccept server (.nick uid newnick) (server.setNick uid newnick)
  | quit {server : Server} (uid : Uid) (reason : Str) :
      Acts maxaccept server (.quit uid reason) (server.removeUser uid reason)
  | connect {server : Server} {uid : Uid} {user : User} (hfre : uid ∉ server.users)
      (hemp : user.accept = []) :
      Acts maxaccept server (.connect uid user) (server.addConn uid user)
  | elsewhere {before after : Server} (hlis : ∀ uid, (after.users.lookup uid).map User.accept =
        (before.users.lookup uid).map User.accept)
      (hcts : after.acceptedNicks = before.acceptedNicks) :
      Acts maxaccept before .elsewhere after

namespace AcceptEvent

def Departs (server : Server) (nick : Str) : AcceptEvent → Prop
  | .quit uid _ => ∃ user, server.users.lookup uid = some user ∧ user.nick ≠ [] ∧
      toAsciiLower user.nick = nick
  | .nick uid newnick => ∃ user, server.users.lookup uid = some user ∧ user.nick ≠ [] ∧
      toAsciiLower user.nick = nick ∧ toAsciiLower newnick ≠ nick
  | _ => False

def Accepts (maxaccept : Nat) (server : Server) (uid : Uid) (nick : Str) : AcceptEvent → Prop
  | .accept other params => other = uid ∧ (true, nick) ∈ Accept.entries params
  | .writes other tuid => other = uid ∧ ∃ user, server.users.lookup tuid = some user ∧
      toAsciiLower user.nick = nick ∧ server.Gives maxaccept uid nick
  | _ => False

def Follows (server : Server) (uid : Uid) (nick : Str) : AcceptEvent → Prop
  | .nick other newnick => toAsciiLower newnick = nick ∧ ∃ user,
      server.users.lookup other = some user ∧ user.nick ≠ [] ∧
        server.lists uid (toAsciiLower user.nick)
  | _ => False

end AcceptEvent

section Steps

variable {maxaccept : Nat} {before after : Server} {event : AcceptEvent} {uid : Uid} {nick : Str}

theorem Acts.covered (hacts : Acts maxaccept before event after)
    (hcov : before.AcceptsCovered) : after.AcceptsCovered := by
  cases hacts with
  | accept uid params => exact hcov.accept maxaccept uid params
  | @writes chat conf hmax uid tuid =>
    rcases autoAccept_server conf uid tuid chat with hs | ⟨target, -, -, hadded⟩
    · rw [hs]
      exact hcov
    · rw [hadded]
      exact hcov.acceptAdd uid _
  | nick uid newnick => exact hcov.setNick uid newnick
  | quit uid reason => exact hcov.removeUser uid reason
  | connect hfre hemp => exact Covers.arrive hcov hfre hemp
  | elsewhere hlis hcts =>
    rw [AcceptsCovered, hcts]
    exact Covers.congr hcov hlis

theorem Acts.lists (hacts : Acts maxaccept before event after)
    (hcov : before.AcceptsCovered) (hlis : after.lists uid nick) :
    (before.lists uid nick ∧ ¬ event.Departs before nick) ∨
      event.Accepts maxaccept before uid nick ∨ event.Follows before uid nick := by
  cases hacts with
  | accept other params =>
    rcases lists_accept hlis with hold | ⟨rfl, hent⟩
    · exact .inl ⟨hold, id⟩
    · exact .inr (.inl ⟨rfl, hent⟩)
  | @writes chat conf hmax other tuid =>
    rcases autoAccept_server conf other tuid chat with hs | ⟨target, htgt, hgives, hadded⟩
    · rw [hs] at hlis
      exact .inl ⟨hlis, id⟩
    · rw [hadded] at hlis
      rcases lists_acceptAdd hlis with hold | ⟨rfl, rfl⟩
      · exact .inl ⟨hold, id⟩
      · exact .inr (.inl ⟨rfl, target, htgt, rfl, hmax ▸ hgives⟩)
  | nick other newnick =>
    cases hu : before.users.lookup other with
    | none =>
      rw [Server.setNick, hu] at hlis
      refine .inl ⟨hlis, ?_⟩
      rintro ⟨user, hkn, -⟩
      cases hu.symm.trans hkn
    | some user =>
      rcases lists_setNick hu hlis with ⟨hold, hst⟩ | ⟨rfl, hnick, hfollowed⟩
      · refine .inl ⟨hold, ?_⟩
        rintro ⟨known, hkn, hdep⟩
        cases hu.symm.trans hkn
        exact hst hdep
      · exact .inr (.inr ⟨rfl, user, hu, hnick, hfollowed⟩)
  | quit other reason =>
    cases hu : before.users.lookup other with
    | none =>
      rw [Server.removeUser, hu] at hlis
      refine .inl ⟨hlis, ?_⟩
      rintro ⟨user, hkn, -⟩
      cases hu.symm.trans hkn
    | some user =>
      obtain ⟨hold, hst⟩ := lists_removeUser hcov hu hlis
      refine .inl ⟨hold, ?_⟩
      rintro ⟨known, hkn, hdep⟩
      cases hu.symm.trans hkn
      exact hst hdep
  | @connect _ other user hfre hemp =>
    obtain ⟨holder, hhol, hmem⟩ := hlis
    obtain ⟨-, rfl⟩ | ⟨-, hhol⟩ := of_lookup_insert hhol
    · rw [hemp] at hmem
      cases hmem
    · exact .inl ⟨⟨holder, hhol, hmem⟩, id⟩
  | elsewhere hs hcts =>
    obtain ⟨holder, hhol, hmem⟩ := hlis
    have hlist := hs uid
    rw [hhol, map_some] at hlist
    obtain ⟨known, hkn, hac⟩ := map_eq_some_iff.mp hlist.symm
    exact .inl ⟨⟨known, hkn, hac ▸ hmem⟩, id⟩

end Steps

inductive AcceptTrail (maxaccept : Nat) (start : Server) :
    List (Server × AcceptEvent) → Server → Prop where
  | start : AcceptTrail maxaccept start [] start
  | step {trail : List (Server × AcceptEvent)} {before after : Server} {event : AcceptEvent}
      (htrl : AcceptTrail maxaccept start trail before)
      (hacts : Acts maxaccept before event after) :
      AcceptTrail maxaccept start (trail ++ [(before, event)]) after

theorem AcceptTrail.covered (htrl : AcceptTrail maxaccept start trail finish)
    (hcov : start.AcceptsCovered) : finish.AcceptsCovered := by
  induction htrl with
  | start => exact hcov
  | step htrl hacts ih => exact hacts.covered ih

theorem AcceptTrail.lists {uid : Uid} {nick : Str}
    (htrl : AcceptTrail maxaccept start trail finish) (hcov : start.AcceptsCovered)
    (hlis : finish.lists uid nick) :
    start.lists uid nick ∨ ∃ entry ∈ trail,
      entry.2.Accepts maxaccept entry.1 uid nick ∨ entry.2.Follows entry.1 uid nick := by
  induction htrl with
  | start => exact .inl hlis
  | @step trail before after event htrl hacts ih =>
    rcases hacts.lists (htrl.covered hcov) hlis with ⟨hold, -⟩ | hnew
    · rcases ih hold with hsta | ⟨entry, hent, hev⟩
      · exact .inl hsta
      · exact .inr ⟨entry, mem_append_left _ hent, hev⟩
    · exact .inr ⟨(before, event), by simp, hnew⟩

theorem acceptsCovered_of_no_users {server : Server} (hnone : server.users = ∅) :
    server.AcceptsCovered := by
  intro label
  rw [hnone]
  exact Nat.zero_le _

/-- Once a nick has been given up it is on a list only if it was accepted again, or if an
accepted user took it. -/
theorem accept_not_inherited {maxaccept : Nat} {boot before left after : Server}
    {trail later : List (Server × AcceptEvent)} {event : AcceptEvent} {uid : Uid} {nick : Str}
    (hboot : boot.users = ∅) (htrl : AcceptTrail maxaccept boot trail before)
    (hacts : Acts maxaccept before event left) (hdep : event.Departs before nick)
    (hlat : AcceptTrail maxaccept left later after) (hlis : after.lists uid nick) :
    ∃ entry ∈ later, entry.2.Accepts maxaccept entry.1 uid nick ∨
      entry.2.Follows entry.1 uid nick := by
  have hcov := htrl.covered (acceptsCovered_of_no_users hboot)
  rcases hlat.lists (hacts.covered hcov) hlis with hleft | hagain
  · rcases hacts.lists hcov hleft with ⟨-, hst⟩ | haccepts | hfol
    · exact absurd hdep hst
    · cases event with
      | accept other params => exact absurd hdep id
      | writes other tuid => exact absurd hdep id
      | _ => exact absurd haccepts id
    · cases event with
      | nick other newnick =>
        obtain ⟨user, -, -, -, ho⟩ := hdep
        exact absurd hfol.1 ho
      | _ => exact absurd hfol id
  · exact hagain

/-! ## Two ways back onto a list -/

def caller (uuid : Str) : User where
  uuid := uuid
  host := "h"
  ip := "1.1.1.1"
  signon := 1
  nickTs := 1

def quietServer : Server where
  conf := { name := "a.test", sid := "0AA" }
  clock := 7

def threeCallers (nick : Str) : Server :=
  (((((quietServer.addConn 1 (caller "a")).setNick 1 "ann").addConn 2 (caller "b")).setNick 2
    "bob").addConn 3 (caller "c")).setNick 3 "carl" |>.accept 64 1 [nick]

theorem threeCallers_trail (nick : Str) :
    ∃ trail, AcceptTrail 64 quietServer trail (threeCallers nick) := by
  refine ⟨_, .step (.step (.step (.step (.step (.step (.step .start (.connect ?_ rfl))
    (.nick 1 "ann")) (.connect ?_ rfl)) (.nick 2 "bob")) (.connect ?_ rfl)) (.nick 3 "carl"))
    (.accept 1 [nick])⟩
  · decide
  · decide
  · decide

theorem accept_not_inherited_again :
    (((threeCallers "bob").removeUser 2 "bye").accept 64 1 ["bob"]).lists 1 "bob" ∧
      ∃ entry ∈ [((threeCallers "bob").removeUser 2 "bye", AcceptEvent.accept 1 ["bob"])],
        entry.2.Accepts 64 entry.1 1 "bob" ∨ entry.2.Follows entry.1 1 "bob" := by
  have hlis : (((threeCallers "bob").removeUser 2 "bye").accept 64 1 ["bob"]).lists 1 "bob" :=
    ⟨_, rfl, by decide +kernel⟩
  refine ⟨hlis, ?_⟩
  obtain ⟨trail, htrl⟩ := threeCallers_trail "bob"
  exact @accept_not_inherited 64 quietServer _ _ _ _ _ _ 1 "bob" rfl htrl (.quit 2 "bye")
    ⟨_, rfl, by decide, by decide⟩ (.step .start (.accept 1 ["bob"])) hlis

theorem quit_strikes {uid : Uid} (hsta : start.users = ∅)
    (htrl : AcceptTrail maxaccept start trail finish)
    (hu : finish.users.lookup uid = some user) (hnick : user.nick ≠ []) (reason : Str)
    (other : Uid) : (finish.removeUser uid reason).users.lookup other =
      ((finish.users.erase uid).lookup other).map (User.unaccept (toAsciiLower user.nick)) := by
  have hgone := Covers.depart (htrl.covered (acceptsCovered_of_no_users hsta)) hu
  have hbk := congrArg Prod.fst (removeUser_accepts hu reason)
  simp only [if_pos hnick] at hbk
  rw [hbk]
  split
  · exact lookup_mapValues ..
  · rename_i hunlisted
    cases hleft : (finish.users.erase uid).lookup other with
    | none => rfl
    | some left =>
      have hfree := hgone.not_mem (Nat.eq_zero_of_not_pos hunlisted) hleft
      rw [map_some, User.unaccept, filter_eq_self.mpr]
      intro name hname
      simpa using ne_of_mem_of_not_mem hname hfree

theorem quit_strikes_bob : ∃ user, (threeCallers "bob").users.lookup 2 = some user ∧
    ∀ other, ((threeCallers "bob").removeUser 2 "bye").users.lookup other =
      (((threeCallers "bob").users.erase 2).lookup other).map
        (User.unaccept (toAsciiLower user.nick)) := by
  obtain ⟨trail, htrl⟩ := threeCallers_trail "bob"
  exact ⟨_, rfl, quit_strikes rfl htrl rfl (by decide) "bye"⟩

theorem accept_carried :
    ∃ trail before left after later, AcceptTrail 64 quietServer trail before ∧
      Acts 64 before (.quit 2 "bye") left ∧ (AcceptEvent.quit 2 "bye").Departs before "bob" ∧
      AcceptTrail 64 left later after ∧ after.lists 1 "bob" ∧
      ∀ entry ∈ later, ¬ entry.2.Accepts 64 entry.1 1 "bob" := by
  obtain ⟨trail, htrl⟩ := threeCallers_trail "carl"
  refine ⟨trail, _, _, _, _, htrl, .quit 2 "bye", ⟨_, rfl, by decide, by decide⟩,
    .step .start (.nick 3 "bob"), ⟨_, rfl, by decide +kernel⟩, ?_⟩
  intro entry hent
  rw [nil_append, mem_singleton] at hent
  rw [hent]
  exact id

end EchoIrcd
