import EchoIrcd.Handlers

/-!
# Accounts and operator status need services authority

A linked server that is not a services server cannot give or take an account
or operator status of a user connected here, with any sequence of lines and
through any depth of `ENCAP`.  One dispatch keeps every connected person; the
statement about a sequence follows by induction on it.
-/

namespace EchoIrcd

open Str

variable (server : Server) (uid : Uid)

namespace Server

/-! ## Opening and closing links -/

theorem closeLink_users : (server.closeLink uid).users = server.users := by
  refine List.foldlRecOn (motive := fun reached : Server => reached.users = server.users)
    _ _ rfl fun middle hmid uuid _ => ?_
  rw [← hmid]
  unfold dropRemoteUser
  split <;> rfl

theorem rejectLink_users (why : Str) : (server.rejectLink uid why).users = server.users := by
  rw [rejectLink, closeLink_users, linkOut_users]

theorem acceptLink_users (block : LinkBlock) (name sid desc : Str) :
    (server.acceptLink uid block name sid desc).users = server.users := by
  rw [acceptLink, sendBurst, linkOutAll_users, greet]
  split <;> rfl

theorem linkServer_users (env : Env) (server : Server) (uid : Uid) (message : Message) :
    (server.linkServer env uid message).users = server.users :=
  linkServer_rel (motive := fun after => after.users = server.users) env message
    (fun _ => rejectLink_users ..) fun _ _ _ _ _ _ => acceptLink_users ..

/-! ## One line -/

theorem linkEncap_rel {motive : Server → Prop} {env : Env} {dispatch : Message → Server → Server}
    {uid : Uid} {message : Message} {server : Server} (hself : motive server)
    (hinner : ∀ mask command params, message.params = mask :: command :: params →
      motive (dispatch (encapUnwrap message.source command params) server))
    (hforward : ∀ after, motive after → motive (after.propagate (.forward message) (some uid)))
    (hout : ∀ via, motive (server.linkOut via (.forward message))) :
    motive (server.linkEncap env dispatch uid message) := by
  unfold linkEncap
  split
  · rename_i mask command params hpar
    split
    · exact hforward _ (hinner _ _ _ hpar)
    · split
      · exact hinner _ _ _ hpar
      · split
        · split
          · exact hout _
          · exact hself
        · exact hself
  · exact hself

theorem onLinkFuel_people (env : Env) (fuel : Nat) (uid : Uid) (message : Message) (server : Server)
    (hsrc : server.sourceIsService message = false) :
    PeopleKept server (onLinkFuel env fuel uid message server) := by
  induction fuel generalizing message server with
  | zero => exact .of_same rfl
  | succ fuel ih =>
    -- marking the link alive does not change which servers are services
    have htouchedSource : (server.touchLink uid).sourceIsService message =
        false := hsrc
    unfold onLinkFuel
    simp only
    split
    · exact .of_same rfl
    · split
      · exact .of_same rfl
      · exact .of_same (linkServer_users ..)
    · split
      · refine linkEncap_rel (.of_same rfl) (fun _ command params _ => ih _ _ ?_)
          (fun _ hkept => hkept) fun _ => .of_same rfl
        exact htouchedSource
      · exact .of_same rfl
    · exact .of_same rfl
    · exact .of_same rfl
    · exact .of_same (closeLink_users ..)
    · exact .of_same (closeLink_users ..)
    · rename_i verb _ _ _ _ _ _ _
      split
      · rename_i hall
        have hverb : verb.isServices = false := by
          simpa [htouchedSource] using hall.2
        have hharm : Harmless uid (server.touchLink uid) _ :=
          handle_harmless env message _ hverb htouchedSource
        exact hharm.users
      · exact .of_same rfl

end Server

/-! ## A sequence of lines -/

structure Arrival where
  now : Timestamp
  uid : Uid
  message : Message

namespace Server

def arrive (env : Env) (server : Server) (arrival : Arrival) : Server :=
  { server with clock := arrival.now }.onLink env arrival.uid arrival.message

def arriveAll (env : Env) (arrivals : List Arrival) (server : Server) : Server :=
  arrivals.foldl (arrive env) server

/-- No line of the sequence comes from a services server when it arrives. -/
def NoServices (env : Env) : List Arrival → Server → Prop
  | [], _ => True
  | arrival :: rest, server =>
    server.sourceIsService arrival.message = false ∧
      NoServices env rest (server.arrive env arrival)

theorem arriveAll_people (env : Env) (arrivals : List Arrival)
    (server : Server) (hsources : NoServices env arrivals server) :
    PeopleKept server (server.arriveAll env arrivals) := by
  induction arrivals generalizing server with
  | nil => exact .of_same rfl
  | cons arrival rest ih =>
    have hfst : PeopleKept server (server.arrive env arrival) :=
      onLinkFuel_people env _ arrival.uid arrival.message
        { server with clock := arrival.now } hsources.1
    exact hfst.trans (ih _ hsources.2)

/-- Accounts and operator status survive every sequence of such lines. -/
theorem arriveAll_account_oper (env : Env) (arrivals : List Arrival)
    (server : Server) (hsources : NoServices env arrivals server) {uid : Uid}
    {before after : User} (hbef : server.users.lookup uid = some before)
    (haft : (server.arriveAll env arrivals).users.lookup uid = some after) :
    after.account = before.account ∧ after.flags .oper = before.flags .oper := by
  obtain ⟨earlier, hprev, hs⟩ := arriveAll_people env arrivals server hsources haft
  rw [hbef, Option.some.injEq] at hprev
  subst hprev
  exact ⟨hs.account, congrFun hs.flags .oper⟩

def hostileLink : Server where
  conf := { name := "a.test", sid := "1AA" }
  clock := 100
  users := AList.singleton 1
    { uuid := "1AAAAAAAA", nick := "ann", host := "host", signon := 1
      nickTs := 1, ip := "127.0.0.1", registered := true
      account := some "ann", flags := fun flag => flag = .oper }
  uuidLocal := AList.singleton "1AAAAAAAA" 1
  links := AList.singleton 5
    { outbound := false, registered := true, lastSeen := 0 }
  servers := AList.singleton "2BB" ⟨"2BB", "b.test", [], 5, false, false⟩

/-- A login pushed as metadata, and a logout wrapped in `ENCAP`. -/
def hostileLines : List Arrival :=
  [⟨101, 5, { source := some "2BB", command := "METADATA",
              params := ["1AAAAAAAA", "accountname", "mallory"] }⟩,
    ⟨102, 5, { source := some "2BB", command := "ENCAP",
               params := ["*", "SVSLOGOUT", "1AAAAAAAA"] }⟩]

theorem arriveAll_account_oper_hostile :
    ∃ after, (hostileLink.arriveAll .plain hostileLines).users.lookup 1 =
      some after ∧ after.account = some "ann" ∧ after.flags .oper = true := by
  obtain ⟨after, haft⟩ : ∃ after,
      (hostileLink.arriveAll .plain hostileLines).users.lookup 1 = some after :=
    Option.isSome_iff_exists.mp (by decide)
  exact ⟨after, haft, arriveAll_account_oper .plain hostileLines hostileLink
    ⟨by decide, by decide, trivial⟩ rfl haft⟩

end Server

end EchoIrcd
