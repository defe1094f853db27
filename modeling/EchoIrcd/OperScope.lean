import EchoIrcd.OperCredential

/-!
# What an operator may do

The gates that read the grant of an operator (`opertypes.rs`), against the
scope its block gives it.  A login writes the grant only when its block names
a type that is defined under its lower-case name, and neither MODE -o nor
another login takes a grant away.
-/

namespace EchoIrcd

open Str

variable {after desk : Desk} {event : DeskEvent} {block : OperBlock} {uid : Uid}

variable {env : Env} {hashing : Hashing}

namespace Desk

def grantOf (desk : Desk) (uid : Uid) : Option OperGrant :=
  if uid ∈ desk.server.users then desk.grants.lookup uid else none

/-- The refusal of a gated command; `none` lets the command pass. -/
def onPreCommand (desk : Desk) (uid : Uid) (command : Str) : Option Str :=
  if desk.server.isOper uid = false ∨ gated command = false then none
  else
    let up := toAsciiUpper command
    match desk.grantOf uid with
    | none => none
    | some grant =>
      if grant.allowsCommand up then none
      else some (up ++ " :Permission denied — your \x02" ++ grant.title ++
        "\x02 oper type may not use " ++ up)

def hasPriv (desk : Desk) (uid : Uid) (priv : Str) : Bool :=
  desk.server.isOper uid &&
    match desk.grantOf uid with
    | none => true
    | some grant => grant.holds priv

/-- `chan` picks the channel modes; the caller has seen that the user is an operator. -/
def canUseMode (desk : Desk) (uid : Uid) (letter : Char) (chan : Bool) : Bool :=
  match desk.grantOf uid with
  | none => true
  | some grant => grant.allowsMode letter chan

end Desk

/-! ## The scope of a block -/

/--
The grant of the type a block names, as the configuration spells it or in lower
case; a block without a type, or with one that is not defined, gives everything.
-/
def OperBlock.scope (types : Table Str ResolvedType) (block : OperBlock) : OperGrant :=
  match block.operType.bind fun name =>
      (types.lookup name).or (types.lookup (toAsciiLower name)) with
  | some type => type.grant
  | none => .full

def lastBlock (logins : List Login) (uid : Uid) : Option OperBlock :=
  ((logins.filter (·.uid = uid)).getLast?).map Login.block

@[simp] theorem lastBlock_append_none (logins : List Login) (uid : Uid) :
    lastBlock (logins ++ (none : Option Login).toList) uid = lastBlock logins uid := by
  simp [lastBlock]

theorem lastBlock_append_some (logins : List Login) (login : Login) (uid : Uid) :
    lastBlock (logins ++ (some login).toList) uid =
      if login.uid = uid then some login.block else lastBlock logins uid := by
  unfold lastBlock
  by_cases huid : login.uid = uid <;> simp [List.filter_append, huid]

namespace Desk

def Settles (desk : Desk) (uid : Uid) (block : OperBlock) : Prop :=
  (desk.grantOf uid = none ∨ (desk.typeOf block.operType).isSome = true) ∧
    ∀ name, block.operType = some name → desk.types.lookup name = none ∨
      desk.types.lookup name = desk.types.lookup (toAsciiLower name)

/-- The block whose credential an event shows, if any, settles the grant of its user. -/
def Settled (hashing : Hashing) (desk : Desk) : DeskEvent → Prop
  | .oper uid name pass _ => ∀ block, desk.blockNamed name = some block →
      block.certified (desk.server.certfpOf uid) = true → block.ldapDn = none →
      block.password = "*" ∨ PasswordHash.isSlow block.password = false ∧
        PasswordHash.verify hashing block.password pass = true → desk.Settles uid block
  | .challenge uid param _ => ∀ pending block, desk.challenges.lookup uid = some pending →
      desk.server.clock.toNat - pending.issued.toNat ≤ 60 → param = '+' :: pending.expected →
      desk.keyedBlock pending.name = some block →
      block.certified (desk.server.certfpOf uid) = true → desk.Settles uid block
  | .finished task reply => task ∈ desk.tasks → task.succeeds hashing reply = true →
      desk.Settles task.uid task.block
  | .deoper _ | .elsewhere .. => True

variable (env hashing) in
inductive SettledRun (start : Desk) : List Login → Desk → Prop
  | start : SettledRun start [] start
  | step {logins : List Login} {desk : Desk} {event : DeskEvent} :
      SettledRun start logins desk → desk.Admits event → desk.Settled hashing event →
      SettledRun start (logins ++ (desk.step env hashing event).2.toList)
        (desk.step env hashing event).1

def scopeOf (desk : Desk) (uid : Uid) : OperGrant := (desk.grants.lookup uid).getD .full

theorem mem_of_isOper {server : Server} (hoper : server.isOper uid = true) :
    uid ∈ server.users := by
  rw [Server.isOper] at hoper
  split at hoper
  · rename_i hlook
    exact Table.mem_of_lookup hlook
  · cases hoper

section Gates

variable {desk : Desk} {uid : Uid} (hoper : desk.server.isOper uid = true)

include hoper

theorem onPreCommand_eq_none {command : Str} (hgated : gated command = true) :
    desk.onPreCommand uid command = none ↔
      (desk.scopeOf uid).allowsCommand (toAsciiUpper command) = true := by
  simp only [onPreCommand, grantOf, scopeOf, hoper, hgated, mem_of_isOper hoper, if_true]
  cases desk.grants.lookup uid with
  | none => simp
  | some grant => simp

theorem hasPriv_eq (priv : Str) : desk.hasPriv uid priv = (desk.scopeOf uid).holds priv := by
  simp only [hasPriv, grantOf, scopeOf, hoper, mem_of_isOper hoper, if_true, Bool.true_and]
  cases desk.grants.lookup uid with
  | none => simp
  | some grant => rfl

theorem canUseMode_eq (letter : Char) (chan : Bool) :
    desk.canUseMode uid letter chan = (desk.scopeOf uid).allowsMode letter chan := by
  simp only [canUseMode, grantOf, scopeOf, mem_of_isOper hoper, if_true]
  cases desk.grants.lookup uid with
  | none => simp
  | some grant => rfl

end Gates

/-! ## The grant after a login -/

theorem Settles.typeOf_eq (hsettles : desk.Settles uid block) :
    block.scope desk.types = ((desk.typeOf block.operType).map ResolvedType.grant).getD .full := by
  rw [OperBlock.scope, typeOf]
  cases hname : block.operType with
  | none => rfl
  | some name =>
    simp only [Option.bind_some]
    rcases hsettles.2 name hname with hnone | hs
    · rw [hnone, Option.none_or]
      cases desk.types.lookup (toAsciiLower name) <;> rfl
    · rw [hs, Option.or_self]
      cases desk.types.lookup (toAsciiLower name) <;> rfl

theorem LogsIn.scopeOf_eq {login : Login} (hlogs : desk.LogsIn uid block after (some login))
    (hsettles : desk.Settles uid block) (other : Uid) :
    login = ⟨uid, block⟩ ∧ after.scopeOf other =
      if uid = other then block.scope desk.types else desk.scopeOf other := by
  obtain ⟨huid, hlogin, hgr⟩ : uid ∈ desk.server.users ∧ some login = some ⟨uid, block⟩ ∧ _ :=
    hlogs.entry.resolve_right fun hnone => by cases hnone.2.1
  refine ⟨Option.some.inj hlogin, ?_⟩
  rw [hsettles.typeOf_eq, scopeOf, hgr]
  cases htype : desk.typeOf block.operType with
  | some type =>
    by_cases ho : uid = other
    · simp [ho]
    · simp [ho, Ne.symm ho, scopeOf]
  | none =>
    -- without a type the login writes nothing, so there was nothing before it
    have hbef : desk.grants.lookup uid = none := by
      rcases hsettles.1 with hnone | hsome
      · rwa [grantOf, if_pos huid] at hnone
      · rw [htype] at hsome
        cases hsome
    by_cases ho : uid = other
    · rw [if_pos ho, ← ho, hbef]
      rfl
    · simp [ho, scopeOf]

theorem Move.types_eq {login : Option Login}
    (hmove : desk.Move hashing event after login) : after.types = desk.types := by
  cases hmove with
  | oper _ _ _ _ hlogs | answer _ _ _ _ hlogs | finish _ _ hlogs => exact hlogs.types
  | refuse | spawn | issue | spend | drop | deoper | elsewhere => rfl

theorem LogsIn.grants_of_none
    (hlogs : desk.LogsIn uid block after none) : after.grants = desk.grants := by
  rcases hlogs.entry with ⟨-, hlogin, -⟩ | ⟨-, -, hgr⟩
  · cases hlogin
  · exact hgr

theorem Move.grants_of_none
    (hmove : desk.Move hashing event after none) : after.grants = desk.grants := by
  cases hmove with
  | oper _ _ _ _ hlogs | answer _ _ _ _ hlogs | finish _ _ hlogs => exact hlogs.grants_of_none
  | refuse | spawn | issue | spend | drop | deoper | elsewhere => rfl

theorem Move.scopeOf_of_some {login : Login} (hmove : desk.Move hashing event after (some login))
    (hset : desk.Settled hashing event) (uid : Uid) :
    after.scopeOf uid =
      if login.uid = uid then login.block.scope desk.types else desk.scopeOf uid := by
  cases hmove with
  | oper hblk hcert hldap hpass hlogs =>
    obtain ⟨rfl, hscope⟩ := hlogs.scopeOf_eq (hset _ hblk hcert hldap hpass) uid
    exact hscope
  | answer hpend hfresh hblk hcert hlogs =>
    obtain ⟨rfl, hscope⟩ := hlogs.scopeOf_eq (hset _ _ hpend hfresh rfl hblk hcert) uid
    exact hscope
  | finish htask hsucceeds hlogs =>
    obtain ⟨rfl, hscope⟩ := hlogs.scopeOf_eq (hset htask hsucceeds) uid
    exact hscope

theorem SettledRun.scopeOf_eq {start : Desk} {logins : List Login}
    (hrun : SettledRun env hashing start logins desk) :
    desk.types = start.types ∧ ∀ uid block, lastBlock logins uid = some block →
      desk.scopeOf uid = block.scope start.types := by
  induction hrun with
  | start => exact ⟨rfl, by simp [lastBlock]⟩
  | @step logins desk event _ _ hset ih =>
    obtain ⟨htypes, hscope⟩ := ih
    have hmove := step_move env hashing desk event
    refine ⟨hmove.types_eq.trans htypes, ?_⟩
    intro uid block hlast
    cases hlogin : (desk.step env hashing event).2 with
    | none =>
      rw [hlogin] at hmove hlast
      rw [lastBlock_append_none] at hlast
      rw [scopeOf, hmove.grants_of_none]
      exact hscope uid block hlast
    | some login =>
      rw [hlogin] at hmove hlast
      rw [lastBlock_append_some] at hlast
      rw [hmove.scopeOf_of_some hset, ← htypes]
      split at hlast
      · rename_i huid
        cases hlast
        rw [if_pos huid]
      · rename_i huid
        rw [if_neg huid, htypes]
        exact hscope uid block hlast

end Desk

/--
In every run whose logins settle the grant of their user, the gates let an
operator do exactly what the block of its last login gives it.
-/
theorem operator_scope {start desk : Desk} {logins : List Login} {uid : Uid} {block : OperBlock}
    (hrun : Desk.SettledRun env hashing start logins desk)
    (hlast : lastBlock logins uid = some block) (hoper : desk.server.isOper uid = true) :
    (∀ command, gated command = true → (desk.onPreCommand uid command = none ↔
      (block.scope start.types).allowsCommand (toAsciiUpper command) = true)) ∧
    (∀ priv, desk.hasPriv uid priv = (block.scope start.types).holds priv) ∧
    (∀ letter chan, desk.canUseMode uid letter chan =
      (block.scope start.types).allowsMode letter chan) := by
  have hscope := hrun.scopeOf_eq.2 uid block hlast
  refine ⟨?_, ?_, ?_⟩
  · intro command hgated
    rw [Desk.onPreCommand_eq_none hoper hgated, hscope]
  · intro priv
    rw [Desk.hasPriv_eq hoper, hscope]
  · intro letter chan
    rw [Desk.canUseMode_eq hoper, hscope]

/-! ## Grants that outlive or miss their block -/

def typedDesk (opers typeLines : List Str) : Desk :=
  { operDesk opers with types := OperTypes.buildTypes [] typeLines }

def runDesk (desk : Desk) (events : List DeskEvent) : Desk × List Login :=
  events.foldl (fun reached event =>
    let after := reached.1.step .plain .unavailable event
    (after.1, reached.2 ++ after.2.toList)) (desk, [])

def helperBlock : OperBlock := { name := "bob", password := "x", operType := some "HelpOp" }

def helperDesk : Desk := typedDesk ["bob x type=HelpOp", "amy y"] []

theorem settled_helperDesk : helperDesk.Settled .unavailable (.oper 1 "bob" "x" false) := by
  intro block hblk _ _ _
  have hf : helperDesk.blockNamed "bob" = some helperBlock := by decide +kernel
  cases hf.symm.trans hblk
  refine ⟨.inl (by decide +kernel), ?_⟩
  intro name hname
  cases hname
  exact .inl (by decide +kernel)

theorem operator_scope_helper :
    (helperDesk.step .plain .unavailable (.oper 1 "bob" "x" false)).1.server.isOper 1 = true ∧
    (helperDesk.step .plain .unavailable (.oper 1 "bob" "x" false)).1.onPreCommand 1 "KILL" ≠
      none := by
  have hoper : (helperDesk.step .plain .unavailable
      (.oper 1 "bob" "x" false)).1.server.isOper 1 = true := by decide +kernel
  refine ⟨hoper, ?_⟩
  have hrun := @Desk.SettledRun.step .plain .unavailable helperDesk [] helperDesk
    (.oper 1 "bob" "x" false) .start (show 1 ∈ helperDesk.server.users by decide +kernel)
    settled_helperDesk
  have hlast : lastBlock ([] ++ (helperDesk.step .plain .unavailable
      (.oper 1 "bob" "x" false)).2.toList) 1 = some helperBlock := by decide +kernel
  rw [Ne, (operator_scope hrun hlast hoper).1 "KILL" (by decide +kernel)]
  decide +kernel

/-- A helper drops the operator flag and logs in again with a block that has no type. -/
def againRun : Desk × List Login :=
  runDesk helperDesk [.oper 1 "bob" "x" false, .deoper 1, .oper 1 "amy" "y" false]

def guideRun : Desk × List Login :=
  runDesk (typedDesk ["bob x type=Guide"] ["Guide"]) [.oper 1 "bob" "x" false]

/--
The first run leaves KILL refused to an operator whose block gives everything,
the second allows it to one whose type has no command at all.
-/
theorem scope_outlived :
    (againRun.1.server.isOper 1 = true ∧
      (lastBlock againRun.2 1).map (·.scope againRun.1.types) = some .full ∧
      againRun.1.onPreCommand 1 "KILL" ≠ none) ∧
    (guideRun.1.server.isOper 1 = true ∧
      (lastBlock guideRun.2 1).map
        (fun block => (block.scope guideRun.1.types).allowsCommand "KILL") = some false ∧
      guideRun.1.onPreCommand 1 "KILL" = none) := by
  refine ⟨⟨?_, ?_, ?_⟩, ?_, ?_, ?_⟩ <;> decide +kernel

end EchoIrcd
