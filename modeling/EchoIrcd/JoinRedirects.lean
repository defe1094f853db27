import EchoIrcd.BanMasks
import EchoIrcd.ChannelOps

/-!
# Redirected joins

A `badchan` of the configuration (`denychans.rs`), a ban `mask$#chan` (`banredirect.rs`)
and a full channel with `+L` send whoever tries to join on to another channel, through
`join` itself.  A depth counter bounds the chain of the first, and one flag lets the other
two happen once.
-/

namespace EchoIrcd

open Str Server

structure BadChan where
  glob : Str
  redirect : Option Str
  allowopers : Bool

/-- What `join` asks for: privileges, limits, forbidden names, and what is known of recent kicks
and joins. -/
structure JoinRules extends BanEnv where
  canOverride : Server → Uid → Bool
  maxChans : Server → Uid → Option Nat
  badchan : List BadChan
  goodchan : List Str
  /-- `restrictchans` and `channames`. -/
  uncreatable : Server → Uid → Str → Bool
  kickedRecently : Server → Uid → Str → Bool
  joinflood : Server → Str → Bool

def maxRedir : Nat := 8

/-- The server with `in_redirect` and `RedirDepth`. -/
structure Joining where
  server : Server
  inRedirect : Bool
  depth : Nat

namespace JoinRules

variable (rules : JoinRules) (server : Server) (uid : Uid) (name : Str) (channel : Channel)

def barred : Bool :=
  !server.mayJoin uid name || !rules.canOverride server uid &&
    ((rules.maxChans server uid).any (fun max =>
        max ≤ ((server.users.lookup uid).map (·.channels.length)).getD 0) ||
      server.xlines.any fun xline => xline.kind = .cban && xline.active server.clock &&
        globMatch rules.toEnv (toAsciiLower xline.mask) (toAsciiLower name))

def forbidding : Option BadChan :=
  if rules.goodchan.any (globMatch rules.toEnv · name) then none
  else (rules.badchan.find? fun bad => globMatch rules.toEnv bad.glob name).filter fun bad =>
    !(server.isOper uid && bad.allowopers)

def refused : Bool :=
  let lacks := fun flag has =>
    channel.modes.flags flag && !(server.users.lookup uid).any has
  lacks .operOnly (·.flags .oper) || !rules.canOverride server uid &&
    (channel.modes.flags .inviteOnly && uid ∉ channel.invites &&
        !server.banListHit rules.toBanEnv uid (channel.lists .invex) ||
      lacks .secureOnly User.secure || lacks .encrypted User.e2e ||
      lacks .regOnly (·.account.isSome) || rules.kickedRecently server uid (toAsciiLower name))

def full : Bool :=
  channel.modes.limit.any fun limit =>
    limit ≤ .ofNat (channel.members.entries.length + channel.rmembers.entries.length)

end JoinRules

section

variable (again : Str → Joining → Option Joining) (uid : Uid) (name : Str) (target : Option Str)
  (state : Joining)

def hop : Option Joining :=
  match target with
  | some target =>
    if !eqIgnoreAsciiCase target name ∧ state.depth < maxRedir then
      (again target { state with depth := state.depth + 1 }).map fun after =>
        { after with depth := after.depth - 1 }
    else some state
  | none => some state

def bounce : Option Joining :=
  match target with
  | some target =>
    if !state.inRedirect ∧ toAsciiLower target ≠ toAsciiLower name ∧
        !state.server.isMember uid (toAsciiLower target) then
      (again target { state with inRedirect := true }).map fun after =>
        { after with inRedirect := false }
    else some state
  | none => some state

end

/-- `join`, to a depth of `fuel` calls. -/
def JoinRules.join (rules : JoinRules) (uid : Uid) :
    Nat → Str → Option Str → Joining → Option Joining
  | 0, _, _, _ => none
  | fuel + 1, name, keyArg, state =>
    let server := state.server
    let again := fun target => rules.join uid fuel target none
    let admitted := some { state with server := server.letIn uid name }
    if rules.barred server uid name then some state
    else
      match rules.forbidding server uid name with
      | some bad => hop again name bad.redirect state
      | none =>
        if rules.uncreatable server uid name then some state
        else
          match server.channels.lookup (toAsciiLower name) with
          | none => admitted
          | some channel =>
            let strict := !rules.canOverride server uid
            if strict ∧ channel.modes.key.any (keyArg ≠ some ·) then some state
            else if strict ∧ server.banned rules.toBanEnv uid channel then
              bounce again uid name
                (server.redirectTarget rules.toBanEnv uid (toAsciiLower name)) state
            else if rules.refused server uid name channel then some state
            else if strict ∧ full channel then bounce again uid name channel.modes.redirect state
            else if strict ∧ rules.joinflood server (toAsciiLower name) then some state
            else admitted

/-! ## Their end -/

/-- Both guards are as before, and at most one channel has been joined. -/
def Ends (uid : Uid) (state : Joining) (result : Option Joining) : Prop :=
  ∃ after, result = some { state with server := after } ∧
    (after = state.server ∨ ∃ chan, after = state.server.letIn uid chan)

section

variable {again : Str → Joining → Option Joining} {uid : Uid} {state : Joining}

theorem Ends.stay : Ends uid state (some state) := ⟨_, rfl, .inl rfl⟩

theorem Ends.hop (name : Str) (target : Option Str)
    (hagain : ∀ target, state.depth < maxRedir →
      Ends uid { state with depth := state.depth + 1 }
        (again target { state with depth := state.depth + 1 })) :
    Ends uid state (hop again name target state) := by
  unfold EchoIrcd.hop
  split
  · split
    · rename_i target hdepth
      obtain ⟨after, heq, hjn⟩ := hagain target hdepth.2
      exact ⟨after, by rw [heq]; rfl, hjn⟩
    · exact .stay
  · exact .stay

theorem Ends.bounce (name : Str) (target : Option Str)
    (hagain : ∀ target, state.inRedirect = false →
      Ends uid { state with inRedirect := true } (again target { state with inRedirect := true })) :
    Ends uid state (bounce again uid name target state) := by
  unfold EchoIrcd.bounce
  split
  · split
    · rename_i target hfst
      have hflag : state.inRedirect = false := by simpa using hfst.1
      obtain ⟨after, heq, hjn⟩ := hagain target hflag
      exact ⟨after, by rw [heq, ← hflag]; rfl, hjn⟩
    · exact .stay
  · exact .stay

end

/-- Every call inside a call has one hop less to go, or the flag set. -/
theorem join_ends (rules : JoinRules) (uid : Uid) {fuel : Nat} (name : Str) (keyArg : Option Str)
    {state : Joining} (hfuel : maxRedir - state.depth + (!state.inRedirect).toNat < fuel) :
    Ends uid state (rules.join uid fuel name keyArg state) := by
  induction fuel generalizing name keyArg state with
  | zero => omega
  | succ fuel ih =>
    have hadmitted : Ends uid state (some { state with server := state.server.letIn uid name }) :=
      ⟨_, rfl, .inr ⟨name, rfl⟩⟩
    have hbounce : ∀ target,
        Ends uid state (bounce (rules.join uid fuel · none) uid name target state) := by
      refine fun target => .bounce name target fun target hflag => ih target none ?_
      simp only [hflag, Bool.not_false, Bool.not_true, Bool.toNat_true, Bool.toNat_false] at hfuel ⊢
      omega
    unfold JoinRules.join
    simp only
    split
    · exact .stay
    · split
      · refine .hop name _ fun target hdepth => ih target none ?_
        simp only
        omega
      · split
        · exact .stay
        · split
          · exact hadmitted
          · split
            · exact .stay
            · split
              · exact hbounce _
              · split
                · exact .stay
                · split
                  · exact hbounce _
                  · split
                    · exact .stay
                    · exact hadmitted

/-- A JOIN ends whatever the redirects are, with at most one channel joined and both guards
reset. -/
theorem join_redirects_end (rules : JoinRules) (server : Server) (uid : Uid) (name : Str)
    (keyArg : Option Str) :
    ∃ fuel after, rules.join uid fuel name keyArg ⟨server, false, 0⟩ = some ⟨after, false, 0⟩ ∧
      (after = server ∨ ∃ chan, after = server.letIn uid chan) :=
  ⟨maxRedir + 2, join_ends rules uid name keyArg (Nat.lt_succ_self _)⟩

end EchoIrcd
