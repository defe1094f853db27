import EchoIrcd.LocalMode
import EchoIrcd.Roster

/-!
# What protects a member from removal

KICK and REMOVE of `core_channel.rs`.  A channel with `+Q`, a protected service
and a higher rank are each meant to keep a member in its channel, and each of the
two commands checks for them on its own.
-/

namespace EchoIrcd

open Str Server Table

variable {chan reason uuid victim : Str} {who : Uid ⊕ Str}

namespace Server

def remove (uid : Uid) (chan victim : Str) (reason : Option Str) (server : Server) : Server :=
  let key := toAsciiLower chan
  match server.channels.lookup key, server.findNick victim with
  | some channel, some target =>
    if server.rank uid key < rankHalfop then server
    else if target ∉ channel.members then server
    else if server.rank uid key < server.rank target key then server
    else
      let kicker := ((server.users.lookup uid).map User.nick).getD []
      let shown := ("Removed by " : Str) ++ kicker ++ reason.elim [] ((": " : Str) ++ ·)
      (server.propagatePart target chan shown).dropMember target key
  | _, _ => server

def nokicks (server : Server) (key : Str) : Bool :=
  (server.channels.lookup key).any fun channel => channel.modes.flags .nokicks

/-! ## Members here and abroad -/

def seated (server : Server) (key : Str) : Uid ⊕ Str → Bool
  | .inl uid => server.isMember uid key
  | .inr uuid => server.isRemoteMember key uuid

def seatRank (server : Server) (key : Str) : Uid ⊕ Str → Nat
  | .inl uid => server.rank uid key
  | .inr uuid =>
    match (server.channels.lookup key).bind (·.rmembers.lookup uuid) with
    | some member => member.rank server.conf.prefixes
    | none => 0

def isService (server : Server) : Uid ⊕ Str → Bool
  | .inl uid => (server.users.lookup uid).any fun user => user.flags .servprotect
  | .inr uuid => (server.remoteUsers.lookup uuid).any fun remote => 'k' ∈ remote.modes

/-- The member has to stay, whatever `uid` does without the powers of an operator. -/
def Shielded (server : Server) (uid : Uid) (key : Str) (who : Uid ⊕ Str) : Prop :=
  server.nokicks key = true ∨ server.isService who = true ∨
    server.rank uid key < server.seatRank key who

end Server

inductive Ejection where
  | kick (chan victim reason : Str)
  | remove (chan victim : Str) (reason : Option Str)
  deriving DecidableEq, Repr

namespace Ejection

def key : Ejection → Str
  | .kick chan _ _ | .remove chan _ _ => toAsciiLower chan

def run (uid : Uid) (server : Server) : Ejection → Server
  | .kick chan victim reason => server.kick uid chan victim reason
  | .remove chan victim reason => server.remove uid chan victim reason

def hit (uid : Uid) (server : Server) : Ejection → Option (Uid ⊕ Str)
  | .kick chan victim _ =>
    match server.channels.lookup (toAsciiLower chan) with
    | none => none
    | some channel =>
      if server.rank uid (toAsciiLower chan) < rankHalfop then none
      else
        match server.findNick victim with
        | some target =>
          if server.kickableLocal uid channel (toAsciiLower chan) target then
            some (.inl target)
          else none
        | none => (server.kickableRemote uid channel (toAsciiLower chan) victim).map .inr
  | .remove chan victim _ =>
    match server.channels.lookup (toAsciiLower chan), server.findNick victim with
    | some channel, some target =>
      if server.rank uid (toAsciiLower chan) < rankHalfop ∨ target ∉ channel.members ∨
          server.rank uid (toAsciiLower chan) < server.rank target (toAsciiLower chan) then none
      else some (.inl target)
    | _, _ => none

variable {uid : Uid} {server : Server} {ejection : Ejection}

def ejected (roster : Roster) (key : Str) : Option (Uid ⊕ Str) → Roster
  | none => roster
  | some (.inl target) => roster.leave target key
  | some (.inr uuid) => roster.unseat key uuid

section

variable (uid : Uid) (server : Server)

theorem roster_kick (chan victim reason : Str) :
    (server.kick uid chan victim reason).roster =
      ejected server.roster (toAsciiLower chan) (hit uid server (.kick chan victim reason)) := by
  simp only [Server.kick, hit]
  cases server.channels.lookup (toAsciiLower chan) with
  | none => rfl
  | some channel =>
    by_cases hrank : server.rank uid (toAsciiLower chan) < rankHalfop
    · simp only [if_pos hrank, show server.rank uid (toAsciiLower chan) < 20 from hrank, ejected,
        if_true]
    · simp only [if_neg hrank, show ¬ server.rank uid (toAsciiLower chan) < 20 from hrank,
        if_false]
      cases server.findNick victim with
      | some target =>
        by_cases hlets : server.kickableLocal uid channel (toAsciiLower chan) target = true
        · simp only [if_pos hlets, Server.roster_dropMember, Server.roster_propagateKick,
            ejected]
        · simp only [if_neg hlets, ejected]
      | none =>
        cases server.kickableRemote uid channel (toAsciiLower chan) victim with
        | none => simp only [Option.map_none, ejected]
        | some uuid =>
          rw [← Server.roster_propagateKick server uid chan victim reason]
          exact Server.roster_eraseRemote (server.propagateKick uid chan victim reason) _ uuid

theorem roster_remove (chan victim : Str) (reason : Option Str) :
    (server.remove uid chan victim reason).roster =
      ejected server.roster (toAsciiLower chan) (hit uid server (.remove chan victim reason)) := by
  simp only [Server.remove, hit]
  cases server.channels.lookup (toAsciiLower chan) with
  | none => rfl
  | some channel =>
    cases server.findNick victim with
    | none => rfl
    | some target =>
      by_cases hrank : server.rank uid (toAsciiLower chan) < rankHalfop
      · simp [hrank, ejected]
      · by_cases hmb : target ∈ channel.members
        · by_cases hbelow : server.rank uid (toAsciiLower chan) <
              server.rank target (toAsciiLower chan)
          · simp [hrank, hbelow, ejected]
          · simp [hrank, hmb, hbelow, ejected, Server.roster_dropMember,
              Server.roster_propagatePart]
        · simp [hrank, hmb, ejected]

theorem seated_run (ejection : Ejection) (who : Uid ⊕ Str) :
    (ejection.run uid server).seated ejection.key who = true ↔
      server.seated ejection.key who = true ∧ ejection.hit uid server ≠ some who := by
  have hros : (ejection.run uid server).roster =
      ejected server.roster ejection.key (ejection.hit uid server) := by
    cases ejection with
    | kick chan victim reason => exact roster_kick ..
    | remove chan victim reason => exact roster_remove ..
  cases who with
  | inl other =>
    have hmb := congrFun₂ (congrArg Roster.member hros) other ejection.key
    simp only [roster] at hmb
    rw [seated, hmb]
    rcases ejection.hit uid server with _ | target | uuid
    · simp [ejected, seated]
    · simpa [ejected, seated] using fun _ => ne_comm
    · simp [ejected, seated]
  | inr other =>
    have hrmember := congrFun₂ (congrArg Roster.rmember hros) ejection.key other
    simp only [roster] at hrmember
    rw [seated, hrmember]
    rcases ejection.hit uid server with _ | target | uuid
    · simp [ejected, seated]
    · simp [ejected, seated]
    · simpa [ejected, seated] using fun _ => ne_comm

/-- The command passes its own checks, and one that it does not make would have stopped it. -/
def Loophole : Ejection → Prop
  | .kick chan victim _ =>
    server.nokicks (toAsciiLower chan) = true ∧ server.findNick victim = none ∧
      rankHalfop ≤ server.rank uid (toAsciiLower chan) ∧
      ∃ uuid via, server.findRemote victim = some (uuid, via) ∧
        server.seated (toAsciiLower chan) (.inr uuid) = true ∧
        server.isService (.inr uuid) = false ∧
        server.seatRank (toAsciiLower chan) (.inr uuid) ≤ server.rank uid (toAsciiLower chan)
  | .remove chan victim _ =>
    rankHalfop ≤ server.rank uid (toAsciiLower chan) ∧
      ∃ target, server.findNick victim = some target ∧
        server.seated (toAsciiLower chan) (.inl target) = true ∧
        server.rank target (toAsciiLower chan) ≤ server.rank uid (toAsciiLower chan) ∧
        (server.nokicks (toAsciiLower chan) = true ∨ server.isService (.inl target) = true)

end

theorem nickServprotected_remote {via : Uid} (habroad : server.findNick victim = none)
    (hrem : server.findRemote victim = some (uuid, via)) :
    server.nickServprotected victim = server.isService (.inr uuid) := by
  rw [nickServprotected, habroad, hrem, isService]
  cases hlook : server.remoteUsers.lookup uuid <;> simp [hlook]

theorem kickableRemote_iff {channel : Channel} {key : Str}
    (hchan : server.channels.lookup key = some channel)
    (habroad : server.findNick victim = none) :
    server.kickableRemote uid channel key victim = some uuid ↔
      (∃ via, server.findRemote victim = some (uuid, via)) ∧
        server.seated key (.inr uuid) = true ∧ server.isService (.inr uuid) = false ∧
        server.seatRank key (.inr uuid) ≤ server.rank uid key := by
  rw [kickableRemote_eq_some]
  constructor
  · rintro ⟨via, member, hrem, hmb, hfree, hrank⟩
    rw [nickServprotected_remote habroad hrem] at hfree
    refine ⟨⟨via, hrem⟩, ?_, hfree, ?_⟩
    · exact isRemoteMember_iff.mpr ⟨channel, hchan, mem_of_lookup hmb⟩
    · simpa [seatRank, hchan, hmb] using hrank
  · rintro ⟨⟨via, hrem⟩, hse, hfree, hrank⟩
    obtain ⟨found, hf, hmem⟩ := isRemoteMember_iff.mp hse
    cases hchan.symm.trans hf
    obtain ⟨member, hmb⟩ := mem_iff_lookup.mp hmem
    refine ⟨via, member, hrem, hmb, ?_, ?_⟩
    · rw [nickServprotected_remote habroad hrem, hfree]
    · simpa [seatRank, hchan, hmb] using hrank

theorem hit_kick_local {target : Uid} (hoper : server.isOper uid = false)
    (hhit : hit uid server (.kick chan victim reason) = some (.inl target)) :
    server.seated (toAsciiLower chan) (.inl target) = true ∧
      ¬ server.Shielded uid (toAsciiLower chan) (.inl target) := by
  simp only [hit] at hhit
  cases hchan : server.channels.lookup (toAsciiLower chan) with
  | none => simp [hchan] at hhit
  | some channel =>
    simp only [hchan] at hhit
    split at hhit
    · cases hhit
    · split at hhit
      · split at hhit
        · rename_i hlets
          cases hhit
          rw [kickableLocal, decide_eq_true_eq] at hlets
          obtain ⟨hmb, hfree, hrank, hkicks⟩ := hlets
          refine ⟨isMember_iff.mpr ⟨channel, hchan, hmb⟩, ?_⟩
          rintro (hq | hservice | hbelow)
          · simp [nokicks, hchan] at hq
            simp [hq, hoper] at hkicks
          · cases hu : server.users.lookup target <;>
              simp_all [isService]
          · exact absurd hrank (Nat.not_le.mpr hbelow)
        · cases hhit
      · simp at hhit

theorem hit_kick_remote :
    hit uid server (.kick chan victim reason) = some (.inr uuid) ↔
      server.findNick victim = none ∧ rankHalfop ≤ server.rank uid (toAsciiLower chan) ∧
        (∃ via, server.findRemote victim = some (uuid, via)) ∧
        server.seated (toAsciiLower chan) (.inr uuid) = true ∧
        server.isService (.inr uuid) = false ∧
        server.seatRank (toAsciiLower chan) (.inr uuid) ≤ server.rank uid (toAsciiLower chan) := by
  simp only [hit]
  cases hchan : server.channels.lookup (toAsciiLower chan) with
  | none => simp [seated, isRemoteMember, hchan]
  | some channel =>
    by_cases hrank : server.rank uid (toAsciiLower chan) < rankHalfop
    · simp [hrank]
    · cases hf : server.findNick victim with
      | some target => simp [hrank]
      | none =>
        simp only [if_neg hrank, Option.map_eq_some_iff, Sum.inr.injEq, exists_eq_right,
          kickableRemote_iff hchan hf, true_and, Nat.not_lt.mp hrank]

theorem hit_remove {reason : Option Str} :
    hit uid server (.remove chan victim reason) = some who ↔
      rankHalfop ≤ server.rank uid (toAsciiLower chan) ∧
        ∃ target, who = .inl target ∧ server.findNick victim = some target ∧
          server.seated (toAsciiLower chan) (.inl target) = true ∧
          server.rank target (toAsciiLower chan) ≤ server.rank uid (toAsciiLower chan) := by
  simp only [hit]
  cases hchan : server.channels.lookup (toAsciiLower chan) with
  | none => simp [seated, isMember, hchan]
  | some channel =>
    cases hf : server.findNick victim with
    | none => simp
    | some target =>
      simp only [seated, isMember, hchan]
      simp only [not_lt, reduceCtorEq, ite_eq_iff, not_or, not_not, and_false,
        false_or, decide_eq_true_eq, Option.some.injEq]
      constructor
      · rintro ⟨⟨hrank, hmb, habove⟩, rfl⟩
        exact ⟨hrank, target, rfl, rfl, hmb, habove⟩
      · rintro ⟨hrank, other, rfl, rfl, hmb, habove⟩
        exact ⟨⟨hrank, hmb, habove⟩, rfl⟩

theorem seated_of_hit (hoper : server.isOper uid = false)
    (hhit : ejection.hit uid server = some who) : server.seated ejection.key who = true := by
  cases ejection with
  | kick chan victim reason =>
    cases who with
    | inl target => exact (hit_kick_local hoper hhit).1
    | inr uuid => exact (hit_kick_remote.mp hhit).2.2.2.1
  | remove chan victim reason =>
    obtain ⟨-, target, rfl, -, hse, -⟩ := hit_remove.mp hhit
    exact hse

theorem loophole_iff (hoper : server.isOper uid = false) :
    ejection.Loophole uid server ↔
      ∃ who, ejection.hit uid server = some who ∧ server.Shielded uid ejection.key who := by
  cases ejection with
  | kick chan victim reason =>
    constructor
    · rintro ⟨hq, habroad, hrank, uuid, via, hrem, hse, hfree, habove⟩
      exact ⟨.inr uuid, hit_kick_remote.mpr
        ⟨habroad, hrank, ⟨via, hrem⟩, hse, hfree, habove⟩, .inl hq⟩
    · rintro ⟨target | uuid, hhit, hshield⟩
      · exact absurd hshield (hit_kick_local hoper hhit).2
      · obtain ⟨habroad, hrank, ⟨via, hrem⟩, hse, hfree, habove⟩ :=
          hit_kick_remote.mp hhit
        rcases hshield with hq | hservice | hbelow
        · exact ⟨hq, habroad, hrank, uuid, via, hrem, hse, hfree, habove⟩
        · simp [hfree] at hservice
        · exact absurd habove (Nat.not_le.mpr hbelow)
  | remove chan victim reason =>
    constructor
    · rintro ⟨hrank, target, hf, hse, habove, hq | hservice⟩
      · exact ⟨.inl target, hit_remove.mpr ⟨hrank, target, rfl, hf, hse, habove⟩,
          .inl hq⟩
      · exact ⟨.inl target, hit_remove.mpr ⟨hrank, target, rfl, hf, hse, habove⟩,
          .inr (.inl hservice)⟩
    · rintro ⟨who, hhit, hshield⟩
      obtain ⟨hrank, target, rfl, hf, hse, habove⟩ := hit_remove.mp hhit
      refine ⟨hrank, target, hf, hse, habove, ?_⟩
      rcases hshield with hq | hservice | hbelow
      · exact .inl hq
      · exact .inr hservice
      · exact absurd habove (Nat.not_le.mpr hbelow)

end Ejection

open Ejection

/-- A command removes no shielded member exactly if it is not a KICK across a link out of a
`+Q` channel, or a REMOVE from one or of a service, that passes all other checks. -/
theorem ejection_spares_iff {server : Server} {uid : Uid} {ejection : Ejection}
    (hoper : server.isOper uid = false) :
    (∀ who, server.seated ejection.key who = true →
      (ejection.run uid server).seated ejection.key who = false →
      ¬ server.Shielded uid ejection.key who) ↔ ¬ ejection.Loophole uid server := by
  rw [loophole_iff hoper]
  constructor
  · rintro hspa ⟨who, hhit, hshield⟩
    refine hspa who (seated_of_hit hoper hhit) ?_ hshield
    rw [← Bool.not_eq_true, seated_run]
    exact fun hst => hst.2 hhit
  · intro hnone who hse hgone hshield
    rw [← Bool.not_eq_true, seated_run] at hgone
    refine hnone ⟨who, ?_, hshield⟩
    by_contra hmiss
    exact hgone ⟨hse, hmiss⟩

def guardServer (flags : List ChanFlag) : Server where
  conf := { name := "a.test", sid := "1AA" }
  clock := 100
  users := ofList
    [(1, { uuid := "1AAAAAAAA", nick := "amy", host := "h", ip := "1.1.1.1", signon := 1,
           nickTs := 1, registered := true, channels := ["#c"] }),
     (2, { uuid := "1AAAAAAAB", nick := "serv", host := "h", ip := "1.1.1.1", signon := 1,
           nickTs := 1, registered := true, channels := ["#c"],
           flags := fun flag => flag = .servprotect })]
  nickIndex := ofList [("amy", 1), ("serv", 2)]
  channels := ofList
    [("#c", { name := "#c", created := 1, members := ofList
                [(1, { prefixes := fun held => held = .op }), (2, {})]
              rmembers := ofList [("2BBAAAAAA", {})]
              modes := { flags := fun flag => flag ∈ flags } })]
  remoteUsers := ofList
    [("2BBAAAAAA", { uuid := "2BBAAAAAA", nick := "bob", ident := "b", host := "far",
                     realname := "Bob", ip := "127.0.0.3", modes := "+", sid := "2BB", via := 5,
                     nickTs := 1 })]
  remoteNick := ofList [("bob", "2BBAAAAAA")]

theorem ejection_spares_iff_guest :
    ((kick "#c" "bob" "bye").run 1 (guardServer [])).seated "#c" (.inr "2BBAAAAAA") =
        false ∧
      ¬ (guardServer []).Shielded 1 "#c" (.inr "2BBAAAAAA") := by
  have hgone : ((kick "#c" "bob" "bye").run 1 (guardServer [])).seated "#c"
      (.inr "2BBAAAAAA") = false := by decide +kernel
  refine ⟨hgone, ?_⟩
  have hq : ¬ (kick "#c" "bob" "bye").Loophole 1 (guardServer []) := by
    rintro ⟨hq, -⟩
    exact absurd hq (by decide +kernel)
  exact (ejection_spares_iff (by decide +kernel)).mpr hq (.inr "2BBAAAAAA")
    (by decide +kernel) hgone

/-- KICK across a link does not look at `+Q`, and REMOVE neither at `+Q` nor at services. -/
theorem shielded_ejected :
    (guardServer []).isOper 1 = false ∧
    ((guardServer [.nokicks]).Shielded 1 "#c" (.inr "2BBAAAAAA") ∧
      (guardServer [.nokicks]).seated "#c" (.inr "2BBAAAAAA") = true ∧
      ((kick "#c" "bob" "bye").run 1 (guardServer [.nokicks])).seated "#c"
        (.inr "2BBAAAAAA") = false) ∧
    ((guardServer []).Shielded 1 "#c" (.inl 2) ∧ (guardServer []).seated "#c" (.inl 2) = true ∧
      ((remove "#c" "serv" none).run 1 (guardServer [])).seated "#c" (.inl 2) = false) := by
  refine ⟨by decide +kernel, ⟨.inl (by decide +kernel), by decide +kernel, by decide +kernel⟩,
    .inr (.inl (by decide +kernel)), by decide +kernel, by decide +kernel⟩

end EchoIrcd
