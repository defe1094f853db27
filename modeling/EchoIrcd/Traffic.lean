import EchoIrcd.Dial
import EchoIrcd.Introduction

/-!
# Traffic beside the handshake

What the clients of a server ask for, the hooks that follow, and every line of
a peer that is neither a handshake line nor acts with services authority: all
of it is an aside to a handshake.
-/

namespace EchoIrcd

open Str Server

variable (env : Env) (server : Server) (uid : Uid)

namespace Server

variable {via : Uid}

/-! ## Hooks -/

theorem propagate_framed {out : Out} (hout : out.isHandshake = false)
    (hrelay : out.isForward = false) : Framed via server (server.propagate out none) := by
  have hharm : Harmless via server (server.propagate out none) :=
    server.propagate_harmless hout (by simp [hrelay])
  exact hharm.toFramed

theorem drainHooks_framed : Framed via server (server.drainHooks env) := by
  have hclear : Framed via server { server with events := [] } := .of_same rfl rfl rfl rfl rfl
  refine hclear.trans ((touches_drainHooks env server).frame (Framed via) .refl .trans ?_)
  intro before after htouch
  cases htouch with
  | say hout hrelay => exact propagate_framed before hout hrelay
  | user uid hchg _ => exact .of_same rfl rfl rfl rfl rfl
  | regrade key uid change => exact .of_same rfl rfl rfl rfl rfl

/-! ## Clients -/

theorem propagatePart_framed (chan reason : Str) :
    Framed via server (server.propagatePart uid chan reason) := by
  unfold propagatePart
  split
  · split
    · exact server.propagate_framed rfl rfl
    · exact .refl server
  · exact .refl server

theorem part_framed (target reason : Str) : Framed via server (server.part uid target reason) := by
  unfold part
  simp only
  split
  · exact .trans (propagatePart_framed server uid target reason)
      (dropMember_harmless ..).toFramed
  · exact .refl server

theorem propagateJoin_framed (chan : Str)
    (isNew : Bool) : Framed via server (server.propagateJoin uid chan isNew) := by
  unfold propagateJoin
  split
  · split
    · split
      · exact server.propagate_framed rfl rfl
      · exact server.propagate_framed rfl rfl
    · exact .refl server
  · exact .refl server

theorem letIn_framed (name : Str) : Framed via server (server.letIn uid name) := by
  refine .trans ?_ (.trans (propagateJoin_framed _ uid name _) (.of_same rfl rfl rfl rfl rfl))
  exact .of_same rfl rfl rfl rfl rfl

theorem perform_framed (server : Server) (action : Action) :
    Framed via server (server.perform env uid action) := by
  cases action with
  | nick newnick => exact (server.setNick_harmless uid newnick).toFramed
  | join name =>
    simp only [perform, join]
    split
    · split
      · split
        · exact letIn_framed ..
        · exact .refl server
      · exact .refl server
    · exact .refl server
  | part target reason =>
    simp only [perform]
    split
    · exact part_framed ..
    · exact .refl server
  | quit reason => exact (server.removeUser_harmless uid reason).toFramed

end Server

/-! ## Asides -/

theorem Aside.of_framed {via : Uid} {before middle after : Server}
    (hfrd : Framed via middle after) (hmid : ∀ uid, middle.stage uid = before.stage uid)
    (hsent : middle.sent = before.sent) (hconf : middle.conf = before.conf)
    (hsvs : middle.servers = before.servers) (hevs : after.events = []) :
    Aside before after := by
  refine ⟨hfrd.conf.trans hconf, hfrd.servers.trans hsvs, hevs, ?_, ?_⟩
  · intro uid
    rw [← hmid uid, Server.stage, hfrd.links]
    rfl
  · intro uid
    obtain ⟨more, hmore, hroutine⟩ := hfrd.sent
    have hq : ((more.filter fun entry => entry.1 = uid).map Prod.snd).filter
        Out.isHandshake = [] := by
      rw [List.filter_eq_nil_iff]
      intro out hout
      obtain ⟨entry, hent, rfl⟩ := List.mem_map.mp hout
      simp [(hroutine entry (List.mem_filter.mp hent).1).1]
    unfold Server.handshakesTo
    rw [Server.linesTo_append more hmore, List.filter_append, hq,
      List.append_nil, Server.linesTo_congr hsent]

theorem performAll_aside (now : Timestamp) (uid : Uid) (actions : List Action) (server : Server) :
    Aside server (server.handleEvent env now (performAll env uid actions)) := by
  have hactions : Framed 0 (server.setClock now)
      ((server.setClock now).performAll env uid actions) :=
    foldl_rel .refl .trans (perform_framed env uid) _ _
  exact .of_framed (hactions.trans (drainHooks_framed env _))
    (fun _ => rfl) rfl rfl rfl (drainHooks_events ..)

/-- The commands that may open or close a link, by themselves or wrapped. -/
def Verb.linking : List Verb := [.server, .encap, .squit, .error]

theorem onLink_aside (now : Timestamp) (uid : Uid) {message : Message} {server : Server}
    (hverb : ∀ verb, Verb.ofWord message.command = some verb →
      verb ∉ Verb.linking ∧ verb.isServices = false)
    (hsrc : server.sourceIsService message = false) :
    Aside server (server.handleEvent env now fun server =>
      server.onLink env uid message) := by
  have htch : ∀ other, (((server.setClock now).touchLink uid).stage other) =
      server.stage other := stage_touchLink (server.setClock now) uid
  -- the flag a burst sets is not part of the stage
  have hbursting : ∀ bursting other,
      (((server.setClock now).touchLink uid).changeLink uid fun link =>
        { link with bursting := bursting }).stage other = server.stage other := by
    intro bursting other
    rw [stage_changeLink, ← htch other]
    split
    · rename_i hself
      rw [hself]
      rfl
    · rfl
  have hdrained : ∀ after : Server, Framed uid after (after.drainHooks env) :=
    fun after => drainHooks_framed env after
  have hq : Aside server (((server.setClock now).touchLink uid).drainHooks env) :=
    .of_framed (hdrained _) htch rfl rfl rfl (drainHooks_events ..)
  unfold handleEvent onLink onLinkFuel
  simp only
  split
  · exact hq
  · rename_i hword
    exact absurd (by decide) (hverb _ hword).1
  · rename_i hword
    exact absurd (by decide) (hverb _ hword).1
  · exact .of_framed (hdrained _) (hbursting true) rfl rfl rfl
      (drainHooks_events ..)
  · exact .of_framed (hdrained _) (hbursting false) rfl rfl rfl
      (drainHooks_events ..)
  · rename_i hword
    exact absurd (by decide) (hverb _ hword).1
  · rename_i hword
    exact absurd (by decide) (hverb _ hword).1
  · rename_i verb _ _ _ _ _ _ hword
    split
    · have hharm : Harmless uid ((server.setClock now).touchLink uid) _ :=
        handle_harmless env message _ (hverb verb hword).2 hsrc
      exact .of_framed (hharm.toFramed.trans (hdrained _)) htch rfl rfl rfl
        (drainHooks_events ..)
    · exact hq

/-- Links to the servers `2BB` and `3CC`. -/
def betweenTwo : Server where
  conf := { name := "a.test", sid := "1AA" }
  clock := 0
  links := .ofList [(5, { outbound := true, registered := true, sid := some "2BB", lastSeen := 0 }),
    (6, { outbound := true, registered := true, sid := some "3CC", lastSeen := 0 })]
  servers := .ofList [("2BB", ⟨"2BB", "b.test", [], 5, false, false⟩),
    ("3CC", ⟨"3CC", "c.test", [], 6, false, false⟩)]

theorem onLink_aside_uid :
    let after := betweenTwo.handleEvent .plain 7 fun server =>
      server.onLink .plain 5 { source := some "2BB", command := "UID", params :=
        ["2BBAAAAAA", "3", "bob", "h", "h", "b", "b", "10.0.0.2", "3", "+", "Bob"] }
    Aside betweenTwo after ∧ after.remoteNick.lookup ("bob" : Str) = some ("2BBAAAAAA" : Str) ∧
      (after.linesTo 6).length = 1 :=
  ⟨onLink_aside .plain 7 5 (by rintro verb ⟨⟩; decide) (by decide +kernel), by decide +kernel,
    by decide +kernel⟩

end EchoIrcd
