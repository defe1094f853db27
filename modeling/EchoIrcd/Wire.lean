import EchoIrcd.Handlers
import EchoIrcd.Hooks

/-!
# The lines written to one link

`linesTo uid` reads the lines for one link off the log.  An operation on local
users goes to every registered link alike, which `Tells` states: it is closed
under composition, with the lines of the parts one after the other.
-/

namespace EchoIrcd

open Str Table

namespace Server

def linesTo (server : Server) (uid : Uid) : List Out :=
  (server.sent.filter fun entry => entry.1 = uid).map Prod.snd

theorem linesTo_append {server after : Server} (more : List (Uid × Out))
    (hsent : after.sent = server.sent ++ more) (uid : Uid) :
    after.linesTo uid = server.linesTo uid ++
      (more.filter fun entry => entry.1 = uid).map Prod.snd := by
  simp [linesTo, hsent]

theorem linesTo_congr {server after : Server} (hsent : after.sent = server.sent)
    (uid : Uid) : after.linesTo uid = server.linesTo uid := by
  simp [linesTo, hsent]

/-! ## Targets of a propagated line -/

theorem mem_linkTargets {server : Server} {except : Option Uid} {uid : Uid} :
    uid ∈ server.linkTargets except ↔ server.isRegistered uid = true ∧ some uid ≠ except := by
  unfold linkTargets isRegistered
  simp only [List.mem_map, List.mem_filter, Bool.and_eq_true, decide_eq_true_eq,
    Prod.exists, exists_and_right, exists_eq_right, mem_toPairs]
  constructor
  · rintro ⟨link, hlink, hreg, hexcept⟩
    simp [hlink, hreg, hexcept]
  · rintro ⟨hreg, hexcept⟩
    cases hlink : server.links.lookup uid with
    | none => simp [hlink] at hreg
    | some link => exact ⟨link, rfl, by simpa [hlink] using hreg, hexcept⟩

theorem linkTargets_nodup (server : Server) (except : Option Uid) :
    (server.linkTargets except).Nodup := by
  have hkeys : ((toPairs server.links).map Prod.fst).Nodup := by
    have hnd := server.links.nodupKeys
    simpa [toPairs, List.NodupKeys, List.keys, Function.comp_def]
      using hnd
  exact hkeys.sublist (List.filter_sublist.map _)

private theorem filter_eq_of_nodup {uids : List Uid} (huids : uids.Nodup) (uid : Uid) :
    uids.filter (fun other => other = uid) = if uid ∈ uids then [uid] else [] := by
  induction huids with
  | nil => rfl
  | @cons first rest hfst _ ih =>
    have habs : first ∉ rest := fun hmem => hfst first hmem rfl
    by_cases ho : first = uid
    · subst ho
      simp [ih, habs]
    · simp [ho, Ne.symm ho, ih]

theorem linesTo_propagate (server : Server) (out : Out) (except : Option Uid) (uid : Uid) :
    (server.propagate out except).linesTo uid = server.linesTo uid ++
      if server.isRegistered uid = true ∧ some uid ≠ except then [out] else [] := by
  rw [linesTo_append ((server.linkTargets except).map (·, out)) rfl]
  rw [List.filter_map, List.map_map]
  have hfil := filter_eq_of_nodup (server.linkTargets_nodup except) uid
  simp only [Function.comp_def, hfil, mem_linkTargets]
  split <;> rfl

theorem propagateAll_eq (server : Server) (outs : List Out)
    (except : Option Uid) : ∃ sent, server.propagateAll outs except =
      { server with sent := sent } := by
  refine List.foldlRecOn (motive := fun reached : Server =>
    ∃ sent, reached = { server with sent := sent }) outs _ ⟨server.sent, rfl⟩ ?_
  rintro _ ⟨sent, rfl⟩ out _
  exact ⟨_, rfl⟩

section

variable (server : Server) (uid : Uid) (chan : Str) (isNew : Bool)

theorem propagateJoin_eq :
    ∃ sent, server.propagateJoin uid chan isNew = { server with sent := sent } := by
  unfold propagateJoin
  split
  · split
    · split
      · exact ⟨_, rfl⟩
      · exact ⟨_, rfl⟩
    · exact ⟨_, rfl⟩
  · exact ⟨_, rfl⟩

theorem propagateJoin_channels :
    (server.propagateJoin uid chan isNew).channels = server.channels := by
  obtain ⟨sent, hsent⟩ := server.propagateJoin_eq uid chan isNew
  rw [hsent]

theorem propagateJoin_users : (server.propagateJoin uid chan isNew).users = server.users := by
  obtain ⟨sent, hsent⟩ := server.propagateJoin_eq uid chan isNew
  rw [hsent]

theorem propagateJoin_events : (server.propagateJoin uid chan isNew).events = server.events := by
  obtain ⟨sent, hsent⟩ := server.propagateJoin_eq uid chan isNew
  rw [hsent]

theorem propagateJoin_nickIndex :
    (server.propagateJoin uid chan isNew).nickIndex = server.nickIndex := by
  obtain ⟨sent, hsent⟩ := server.propagateJoin_eq uid chan isNew
  rw [hsent]

end

theorem linesTo_propagateAll (server : Server) (outs : List Out) (except : Option Uid) (uid : Uid) :
    (server.propagateAll outs except).linesTo uid = server.linesTo uid ++
      if server.isRegistered uid = true ∧ some uid ≠ except then outs else [] := by
  induction outs generalizing server with
  | nil => simp [propagateAll]
  | cons out outs ih =>
    have hrest := ih (server.propagate out except)
    rw [linesTo_propagate] at hrest
    refine hrest.trans ?_
    have hs : (server.propagate out except).isRegistered uid =
        server.isRegistered uid := rfl
    rw [hs]
    split <;> simp

theorem linesTo_linkOut (server : Server) (target : Uid) (out : Out) (uid : Uid) :
    (server.linkOut target out).linesTo uid = server.linesTo uid ++
      if uid = target ∧ target ∈ server.links then [out] else [] := by
  by_cases hlink : target ∈ server.links
  · have hsent : (server.linkOut target out).sent =
        server.sent ++ [(target, out)] := by simp [hlink]
    rw [linesTo_append _ hsent]
    by_cases huid : uid = target
    · simp [huid, hlink]
    · simp [huid, Ne.symm huid]
  · have hsent : (server.linkOut target out).sent = server.sent := by
      simp [hlink]
    rw [linesTo_congr hsent]
    simp [hlink]

theorem linesTo_linkOutAll (server : Server) (target : Uid) (outs : List Out) (uid : Uid) :
    (server.linkOutAll target outs).linesTo uid = server.linesTo uid ++
      if uid = target ∧ target ∈ server.links then outs else [] := by
  induction outs generalizing server with
  | nil => simp [linkOutAll]
  | cons out outs ih =>
    have hrest := ih (server.linkOut target out)
    rw [linesTo_linkOut, linkOut_links] at hrest
    refine hrest.trans ?_
    split <;> simp

/-! ## Nick changes -/

theorem propagateNick_users (server : Server) (uid : Uid) (newnick : Str) :
    (server.propagateNick uid newnick).users = server.users := by
  unfold propagateNick
  split
  · split <;> rfl
  · rfl

/-- The renamed user gets its nick and a timestamp; the ACCEPT lists of all may change. -/
theorem map_setNick {α : Type} {view : User → α}
    (hview : ∀ user accept, view { user with accept := accept } = view user)
    (server : Server) (uid : Uid) (newnick : Str) (other : Uid) :
    ((server.setNick uid newnick).users.lookup other).map view =
      if other = uid then (server.users.lookup uid).map fun user =>
        view { user with nick := newnick, nickTs := server.clock }
      else (server.users.lookup other).map view := by
  cases hu : server.users.lookup uid with
  | none =>
    simp only [setNick, hu]
    split
    · rename_i ho
      rw [ho, hu]
      rfl
    · rfl
  | some user =>
    have hacc : ∀ (server : Server) old new,
        ((server.renameAccepted old new).users.lookup other).map view =
          (server.users.lookup other).map view := by
      intro server old new
      rw [renameAccepted_users, lookup_mapValues, Option.map_map]
      congr 1
      funext user
      exact hview user _
    simp only [setNick, hu, propagateNick_users]
    split
    · rw [hacc, lookup_modify, hu]
      split <;> rfl
    · rw [lookup_modify, hu]
      split <;> rfl

/-! ## Departures -/

section Departure

variable {server : Server} {uid : Uid} {user : User}

theorem map_removeUser {α : Type} {view : User → α} {reason : Str}
    (hview : ∀ user accept, view { user with accept := accept } = view user) (other : Uid) :
    ((server.removeUser uid reason).users.lookup other).map view =
      if other = uid then none else (server.users.lookup other).map view := by
  have hforget : ∀ (server : Server) nick,
      ((server.forgetNick nick).users.lookup other).map view =
        (server.users.lookup other).map view := by
    intro server nick
    rw [forgetNick_users]
    split
    · rw [lookup_mapValues, Option.map_map]
      congr 1
      funext user
      exact hview user _
    · rfl
  have herased : ((server.users.erase uid).lookup other).map view =
      if other = uid then none else (server.users.lookup other).map view := by
    rw [lookup_erase_eq]
    split <;> rfl
  unfold removeUser
  split
  · rename_i habs
    split
    · rename_i ho
      rw [ho, habs]
      rfl
    · rfl
  · rw [← herased]
    split
    all_goals
      split
      · exact hforget _ _
      · rfl

variable (hu : server.users.lookup uid = some user) (reason : Str)

include hu

theorem removeUser_uuidLocal : (server.removeUser uid reason).uuidLocal =
    server.uuidLocal.erase user.uuid := by
  simp only [removeUser, hu]
  split <;> split <;> rfl

theorem removeUser_nickIndex : (server.removeUser uid reason).nickIndex =
    if user.nick ≠ [] then server.nickIndex.erase (toAsciiLower user.nick)
    else server.nickIndex := by
  simp only [removeUser, hu]
  split <;> split <;> rfl

theorem linesTo_removeUser (link : Uid) : (server.removeUser uid reason).linesTo link =
    server.linesTo link ++ if user.registered = true ∧ server.isRegistered link = true then
      [.quit user.uuid reason] else [] := by
  have hsent : (server.removeUser uid reason).sent =
      if user.registered then (server.propagate (.quit user.uuid reason) none).sent
      else server.sent := by
    simp only [removeUser, hu]
    split <;> split <;> rfl
  split at hsent
  · rename_i hreg
    rw [linesTo_congr hsent, linesTo_propagate]
    simp [hreg]
  · rename_i hreg
    rw [linesTo_congr hsent]
    simp [hreg]

theorem removeUser_remoteUsers :
    (server.removeUser uid reason).remoteUsers = server.remoteUsers := by
  simp only [removeUser, hu]
  split <;> split <;> rfl

theorem removeUser_channels : (server.removeUser uid reason).channels =
    if user.registered then (server.leaveChannels uid user).channels
    else server.channels := by
  simp only [removeUser, hu]
  split <;> split <;> rfl

end Departure

/-! ## Hooks queue nothing -/

theorem drainHooks_events (env : Env) (server : Server) : (server.drainHooks env).events = [] := by
  refine ((touches_drainHooks env server).same Server.events ?_).trans rfl
  intro before after htouch
  cases htouch <;> rfl

end Server

end EchoIrcd
