import EchoIrcd.OnLink

/-!
# What an operation leaves alone

Two frame conditions, each closed under composition.  `Framed via` holds of
everything that runs inside an event without opening or closing a link: the
configuration, the clock, the links and the known servers stay as they were,
and the lines written meanwhile neither belong to a handshake nor relay a line
back over `via`.  `Harmless via` adds that a local user who is still connected
is the same person with the same privileges, and holds of every handler that
acts without services authority.
-/

namespace EchoIrcd

open Str

variable {out : Out} {users : Table Uid User} {user : User} {change : User → User}
  (server : Server) (uid : Uid)

/-! ## The conditions -/

/-- What only the user or a service may change about a connected user. -/
structure User.SamePerson (before after : User) : Prop where
  uuid : after.uuid = before.uuid
  realname : after.realname = before.realname
  host : after.host = before.host
  ip : after.ip = before.ip
  signon : after.signon = before.signon
  registered : after.registered = before.registered
  account : after.account = before.account
  flags : after.flags = before.flags

theorem User.SamePerson.refl (user : User) : user.SamePerson user :=
  ⟨rfl, rfl, rfl, rfl, rfl, rfl, rfl, rfl⟩

theorem User.SamePerson.trans {first second third : User}
    (hleft : first.SamePerson second) (hrt : second.SamePerson third) :
    first.SamePerson third where
  uuid := hrt.uuid.trans hleft.uuid
  realname := hrt.realname.trans hleft.realname
  host := hrt.host.trans hleft.host
  ip := hrt.ip.trans hleft.ip
  signon := hrt.signon.trans hleft.signon
  registered := hrt.registered.trans hleft.registered
  account := hrt.account.trans hleft.account
  flags := hrt.flags.trans hleft.flags

def Out.isHandshake : Out → Bool
  | .server .. | .error .. => true
  | _ => false

def Out.isForward : Out → Bool
  | .forward _ => true
  | _ => false

/-- A line a handler may write while it serves the link `via`. -/
def Routine (via : Uid) (entry : Uid × Out) : Prop :=
  entry.2.isHandshake = false ∧ (entry.2.isForward = true → entry.1 ≠ via)

structure Framed (via : Uid) (before after : Server) : Prop where
  conf : after.conf = before.conf
  clock : after.clock = before.clock
  links : after.links = before.links
  servers : after.servers = before.servers
  sent : ∃ more, after.sent = before.sent ++ more ∧
    ∀ entry ∈ more, Routine via entry

def PeopleKept (before after : Server) : Prop :=
  ∀ ⦃uid user⦄, after.users.lookup uid = some user →
    ∃ earlier, before.users.lookup uid = some earlier ∧ earlier.SamePerson user

structure Harmless (via : Uid) (before after : Server) : Prop
    extends Framed via before after where
  users : PeopleKept before after

namespace PeopleKept

variable {first second third : Server}

theorem of_same (hus : second.users = first.users) : PeopleKept first second := by
  intro uid user hf
  rw [hus] at hf
  exact ⟨user, hf, .refl user⟩

theorem trans (hleft : PeopleKept first second)
    (hrt : PeopleKept second third) : PeopleKept first third := by
  intro uid user hf
  obtain ⟨middle, hmid, hlat⟩ := hrt hf
  obtain ⟨earlier, hprev, hs⟩ := hleft hmid
  exact ⟨earlier, hprev, hs.trans hlat⟩

end PeopleKept

namespace Framed

variable {via : Uid} {first second third : Server}

theorem of_same (hconf : second.conf = first.conf)
    (hclk : second.clock = first.clock) (hlinks : second.links = first.links)
    (hsvs : second.servers = first.servers)
    (hsent : second.sent = first.sent) : Framed via first second :=
  ⟨hconf, hclk, hlinks, hsvs, [], by simp [hsent], by simp⟩

theorem refl (server : Server) : Framed via server server :=
  of_same rfl rfl rfl rfl rfl

theorem trans (hleft : Framed via first second)
    (hrt : Framed via second third) : Framed via first third := by
  obtain ⟨more, hmore, hroutine⟩ := hleft.sent
  obtain ⟨rest, hrest, hroutine'⟩ := hrt.sent
  refine ⟨hrt.conf.trans hleft.conf, hrt.clock.trans hleft.clock,
    hrt.links.trans hleft.links, hrt.servers.trans hleft.servers,
    more ++ rest, by rw [hrest, hmore, List.append_assoc], ?_⟩
  intro entry hent
  rcases List.mem_append.mp hent with hent | hent
  · exact hroutine entry hent
  · exact hroutine' entry hent

end Framed

namespace Harmless

variable {via : Uid} {first second third : Server}

theorem of_framed (hfrd : Framed via first second)
    (hus : second.users = first.users) : Harmless via first second :=
  ⟨hfrd, .of_same hus⟩

theorem of_same (hconf : second.conf = first.conf)
    (hclk : second.clock = first.clock) (hlinks : second.links = first.links)
    (hsvs : second.servers = first.servers)
    (hsent : second.sent = first.sent) (hus : second.users = first.users) :
    Harmless via first second :=
  of_framed (.of_same hconf hclk hlinks hsvs hsent) hus

theorem refl (server : Server) : Harmless via server server :=
  of_same rfl rfl rfl rfl rfl rfl

theorem trans (hleft : Harmless via first second)
    (hrt : Harmless via second third) : Harmless via first third :=
  ⟨hleft.toFramed.trans hrt.toFramed, hleft.users.trans hrt.users⟩

theorem step_if {condition : Prop} [Decidable condition]
    (hleft : Harmless via first second) (hrt : Harmless via second third) :
    Harmless via first (if condition then third else second) := by
  split
  · exact hleft.trans hrt
  · exact hleft

end Harmless

namespace Server

variable {via : Uid}

/-! ## Writing lines -/

theorem propagate_harmless {except : Option Uid} (hout : out.isHandshake = false)
    (hforward : out.isForward = true → except = some via) :
    Harmless via server (server.propagate out except) := by
  refine .of_framed ⟨rfl, rfl, rfl, rfl, _, rfl, ?_⟩ rfl
  intro entry hent
  obtain ⟨uid, huid, rfl⟩ := List.mem_map.mp hent
  refine ⟨hout, fun hrelay hvia => ?_⟩
  simp only at hvia
  simp [linkTargets, hforward hrelay, hvia] at huid

theorem linkOut_harmless {uid : Uid} (hout : out.isHandshake = false)
    (hforward : out.isForward = true → uid ≠ via) :
    Harmless via server (server.linkOut uid out) := by
  refine .of_framed ⟨rfl, rfl, rfl, rfl, ?_⟩ rfl
  by_cases hlink : uid ∈ server.links
  · exact ⟨[(uid, out)], by simp [hlink], by simpa [Routine] using ⟨hout, hforward⟩⟩
  · exact ⟨[], by simp [hlink], by simp⟩

theorem forwardToTarget_harmless (target : Str) (message : Message) :
    Harmless via server (server.forwardToTarget target message via) := by
  unfold forwardToTarget
  split
  · split
    · rename_i ho
      exact server.linkOut_harmless rfl fun _ => ho
    · exact .refl server
  · exact .refl server

/-! ## Users -/

theorem harmless_of_users {server changed : Server}
    (hconf : changed.conf = server.conf) (hclk : changed.clock = server.clock)
    (hlinks : changed.links = server.links) (hsvs : changed.servers = server.servers)
    (hsent : changed.sent = server.sent)
    (hus : PeopleKept server changed) : Harmless via server changed :=
  ⟨.of_same hconf hclk hlinks hsvs hsent, hus⟩

theorem lookup_modify_person {key uid : Uid}
    (hf : (Table.modify key change users).lookup uid = some user)
    (hchg : ∀ user : User, user.SamePerson (change user)) :
    ∃ earlier, users.lookup uid = some earlier ∧ earlier.SamePerson user := by
  obtain ⟨earlier, hprev, ⟨-, rfl⟩ | ⟨-, rfl⟩⟩ := Table.of_lookup_modify hf
  · exact ⟨earlier, hprev, hchg earlier⟩
  · exact ⟨user, hprev, .refl user⟩

theorem lookup_mapValues_person {uid : Uid} {change : Uid → User → User}
    (hf : (Table.mapValues change users).lookup uid = some user)
    (hchg : ∀ uid (user : User), user.SamePerson (change uid user)) :
    ∃ earlier, users.lookup uid = some earlier ∧ earlier.SamePerson user := by
  rw [Table.lookup_mapValues] at hf
  obtain ⟨earlier, hprev, rfl⟩ := Option.map_eq_some_iff.mp hf
  exact ⟨earlier, hprev, hchg uid earlier⟩

theorem changeUser_harmless (hchg : ∀ user : User, user.SamePerson (change user)) :
    Harmless via server (server.changeUser uid change) :=
  harmless_of_users rfl rfl rfl rfl rfl fun _ _ hf =>
    lookup_modify_person hf hchg

theorem changeHostIdentQuiet_harmless (newIdent newHost : Option Str) :
    Harmless via server (server.changeHostIdentQuiet uid newIdent newHost) :=
  harmless_of_users rfl rfl rfl rfl rfl fun _ _ hf =>
    lookup_modify_person hf fun _ =>
      ⟨rfl, rfl, rfl, rfl, rfl, rfl, rfl, rfl⟩

theorem propagateNick_harmless (newnick : Str) :
    Harmless via server (server.propagateNick uid newnick) := by
  unfold propagateNick
  split
  · split
    · exact server.propagate_harmless rfl nofun
    · exact .refl server
  · exact .refl server

theorem renameAccepted_harmless (old new : Str) :
    Harmless via server (server.renameAccepted old new) :=
  harmless_of_users rfl rfl rfl rfl rfl fun _ _ hf =>
    lookup_mapValues_person hf fun _ _ =>
      ⟨rfl, rfl, rfl, rfl, rfl, rfl, rfl, rfl⟩

theorem setNick_harmless (newnick : Str) : Harmless via server (server.setNick uid newnick) := by
  unfold setNick
  split
  · exact .refl server
  · refine .trans (.step_if ?_ (renameAccepted_harmless _ _ _))
      (propagateNick_harmless _ uid newnick)
    refine harmless_of_users rfl rfl rfl rfl rfl fun _ _ hf =>
      lookup_modify_person hf fun _ => ?_
    exact ⟨rfl, rfl, rfl, rfl, rfl, rfl, rfl, rfl⟩

theorem forgetNick_harmless (nick : Str) : Harmless via server (server.forgetNick nick) := by
  refine harmless_of_users rfl rfl rfl rfl rfl fun _ _ hf => ?_
  rw [forgetNick_users] at hf
  split at hf
  · exact lookup_mapValues_person hf fun _ _ =>
      ⟨rfl, rfl, rfl, rfl, rfl, rfl, rfl, rfl⟩
  · exact ⟨_, hf, .refl _⟩

theorem leaveChannels_harmless (user : User) :
    Harmless via server (server.leaveChannels uid user) :=
  .of_same rfl rfl rfl rfl rfl rfl

theorem removeUser_harmless (reason : Str) :
    Harmless via server (server.removeUser uid reason) := by
  unfold removeUser
  split
  · exact .refl server
  · refine .step_if (.step_if (.step_if ?_ (propagate_harmless _ rfl nofun))
      (forgetNick_harmless _ _)) (leaveChannels_harmless _ _ _)
    refine harmless_of_users rfl rfl rfl rfl rfl fun other user hf => ?_
    exact ⟨user, (Table.of_lookup_erase hf).2, .refl user⟩

/-! ## Channels -/

theorem changeChannel_harmless (key : Str) (change : Channel → Channel) :
    Harmless via server (server.changeChannel key change) :=
  .of_same rfl rfl rfl rfl rfl rfl

theorem dropMember_harmless (key : Str) : Harmless via server (server.dropMember uid key) :=
  harmless_of_users rfl rfl rfl rfl rfl fun _ _ hf =>
    lookup_modify_person hf fun _ =>
      ⟨rfl, rfl, rfl, rfl, rfl, rfl, rfl, rfl⟩

theorem renameChannel_harmless {server renamed : Server} {oldkey newname : Str}
    (hren : server.renameChannel oldkey newname = some renamed) :
    Harmless via server renamed := by
  unfold renameChannel at hren
  split at hren
  · cases hren
  · simp only at hren
    split at hren
    · cases hren
      exact .of_same rfl rfl rfl rfl rfl rfl
    · split at hren
      · cases hren
      · cases hren
        refine harmless_of_users rfl rfl rfl rfl rfl fun _ _ hf =>
          lookup_mapValues_person hf fun uid user => ?_
        split
        · exact ⟨rfl, rfl, rfl, rfl, rfl, rfl, rfl, rfl⟩
        · exact .refl user

/-! ## X-lines -/

theorem enforceXlines_harmless (env : Env) (server : Server) :
    Harmless via server (server.enforceXlines env) :=
  foldl_rel .refl .trans (fun server victim => server.removeUser_harmless victim.1 victim.2) _ _

theorem addXlineAt_harmless (env : Env) (server : Server) (kind : XKind)
    (mask : Str) (duration : UInt64) (setter reason : Str) (setAt : Timestamp) :
    Harmless via server (server.addXlineAt env kind mask duration setter reason setAt) := by
  refine .trans ?_ (enforceXlines_harmless env _)
  exact .of_same rfl rfl rfl rfl rfl rfl

theorem removeXline_harmless (kind : XKind) (mask : Str) :
    Harmless via server (server.removeXline kind mask) :=
  .of_same rfl rfl rfl rfl rfl rfl

end Server

end EchoIrcd
