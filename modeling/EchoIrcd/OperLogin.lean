import EchoIrcd.Wire
import EchoIrcd.OperBlock
import EchoIrcd.OperTypes

/-!
# OPER, CHALLENGE and the checks behind them

A desk is a server with its oper blocks and types, what the users carry from
their logins and the checks that run off the core thread (`core_oper.rs`,
`opertypes.rs`, the `OperAuth` event of `ircd.rs`).  A uid is given out once,
so nothing kept for a user is ever found by another one.  Everything else the
server does is one step that leaves the certificates of its connections alone.
-/

namespace EchoIrcd

open Str

structure RsaChallenge where
  name : Str
  expected : Str
  issued : Timestamp
  deriving DecidableEq, Repr

/-- A check off the core thread: a bind when there is a name to bind with. -/
structure AuthTask where
  uid : Uid
  block : OperBlock
  pass : Str
  dn : Option Str
  deriving DecidableEq, Repr

def AuthTask.succeeds (hashing : Hashing) (task : AuthTask) (reply : Bool) : Bool :=
  match task.dn with
  | some _ => task.pass ≠ [] && reply
  | none => PasswordHash.verify hashing task.block.password task.pass

structure Desk where
  server : Server
  opers : List OperBlock
  types : Table Str ResolvedType := ∅
  ldapServer : Str := []
  challenges : Table Uid RsaChallenge := ∅
  grants : Table Uid OperGrant := ∅
  levels : Table Uid UInt32 := ∅
  tasks : List AuthTask := []
  nextUid : Uid := 0

structure Login where
  uid : Uid
  block : OperBlock
  deriving DecidableEq, Repr

/--
`spawned` tells whether a worker was free, `made` the expected answer to the
challenge if the key of the block could be used.
-/
inductive DeskEvent where
  | oper (uid : Uid) (name pass : Str) (spawned : Bool)
  | challenge (uid : Uid) (param : Str) (made : Option Str)
  | finished (task : AuthTask) (reply : Bool)
  | deoper (uid : Uid)
  | elsewhere (server : Server) (nextUid : Uid)

namespace Server

def setSnomask (uid : Uid) (letters : Str) (server : Server) : Server :=
  let cats := letters.filter (· ∈ defaultSnomask)
  server.changeUser uid fun user =>
    { user.setFlag .snomask (cats ≠ []) with snomaskCats := cats }

/-- The automatic modes of a type; the ENCAP line of its host is left out. -/
def takeType (uid : Uid) (type : ResolvedType) (server : Server) : Server :=
  let server := if type.modes = [] then server else server.svsSetUserModes uid type.modes
  let server := if type.allSnomasks then server.setSnomask uid defaultSnomask
    else match type.snomasks with
      | some letters => server.setSnomask uid letters
      | none => server
  match type.vhost with
  | some host => server.changeHostIdentQuiet uid none (some host)
  | none => server

def certfpOf (server : Server) (uid : Uid) : Option Str :=
  (server.users.lookup uid).bind User.certfp

end Server

def expandDn (name : Str) : Str → Str
  | [] => []
  | '%' :: 's' :: rest => name ++ expandDn name rest
  | char :: rest => char :: expandDn name rest

namespace OperBlock

def certified (block : OperBlock) (certfp : Option Str) : Bool :=
  match block.fingerprint with
  | some want => certfp.any (eqIgnoreAsciiCase · want)
  | none => true

end OperBlock

namespace Desk

def setLevel (uid : Uid) (level : UInt32) (desk : Desk) : Desk :=
  if uid ∈ desk.server.users then { desk with levels := desk.levels.insert uid level } else desk

def typeOf (desk : Desk) (operType : Option Str) : Option ResolvedType :=
  operType.bind fun name => desk.types.lookup (toAsciiLower name)

def apply (uid : Uid) (operType : Option Str) (desk : Desk) : Desk :=
  match desk.typeOf operType with
  | none => desk
  | some type =>
    let desk := { desk with server := desk.server.takeType uid type }
    let desk : Desk := match type.level with
      | some level => desk.setLevel uid level
      | none => desk
    if uid ∈ desk.server.users then { desk with grants := desk.grants.insert uid type.grant }
    else desk

variable (env : Env) (hashing : Hashing)

def operUp (uid : Uid) (block : OperBlock) (desk : Desk) : Desk × Option Login :=
  if uid ∈ desk.server.users then
    ((setLevel uid block.level { desk with server := desk.server.operUp env uid }).apply uid
      block.operType, some ⟨uid, block⟩)
  else ({ desk with server := desk.server.operUp env uid }, none)

def spawn (task : AuthTask) (spawned : Bool) (desk : Desk) : Desk :=
  if spawned then { desk with tasks := desk.tasks ++ [task] } else desk

def blockNamed (desk : Desk) (name : Str) : Option OperBlock :=
  desk.opers.find? fun block => block.name = name

def keyedBlock (desk : Desk) (name : Str) : Option OperBlock :=
  desk.opers.find? fun block => block.name = name && block.rsaKey.isSome

def oper (uid : Uid) (name pass : Str) (spawned : Bool) (desk : Desk) : Desk × Option Login :=
  match desk.blockNamed name with
  | none => (desk, none)
  | some block =>
    if block.certified (desk.server.certfpOf uid) = false then (desk, none)
    else
      match block.ldapDn with
      | some template =>
        if desk.ldapServer = [] then (desk, none)
        else (desk.spawn ⟨uid, block, pass, some (expandDn name template)⟩ spawned, none)
      | none =>
        if block.password = "*" then desk.operUp env uid block
        else if PasswordHash.isSlow block.password then
          (desk.spawn ⟨uid, block, pass, none⟩ spawned, none)
        else if PasswordHash.verify hashing block.password pass then
          desk.operUp env uid block
        else (desk, none)

def challengeResponse (uid : Uid) (response : Str) (desk : Desk) : Desk × Option Login :=
  if uid ∉ desk.server.users then (desk, none)
  else
    match desk.challenges.lookup uid with
    | none => (desk, none)
    | some pending =>
      let desk := { desk with challenges := desk.challenges.erase uid }
      if 60 < desk.server.clock.toNat - pending.issued.toNat then (desk, none)
      else if response ≠ pending.expected then (desk, none)
      else
        match desk.keyedBlock pending.name with
        | none => (desk, none)
        | some block =>
          if block.certified (desk.server.certfpOf uid) then desk.operUp env uid block
          else (desk, none)

def challenge (uid : Uid) (param : Str) (made : Option Str) (desk : Desk) :
    Desk × Option Login :=
  match param with
  | '+' :: response => desk.challengeResponse env uid response
  | name =>
    match desk.keyedBlock name, made with
    | some _, some expected =>
      if uid ∈ desk.server.users then
        ({ desk with
          challenges := desk.challenges.insert uid ⟨name, expected, desk.server.clock⟩ }, none)
      else (desk, none)
    | _, _ => (desk, none)

def finish (task : AuthTask) (reply : Bool) (desk : Desk) : Desk × Option Login :=
  if task ∈ desk.tasks then
    let desk := { desk with tasks := desk.tasks.erase task }
    if task.succeeds hashing reply then desk.operUp env task.uid task.block else (desk, none)
  else (desk, none)

def step (desk : Desk) : DeskEvent → Desk × Option Login
  | .oper uid name pass spawned => desk.oper env hashing uid name pass spawned
  | .challenge uid param made => desk.challenge env uid param made
  | .finished task reply => desk.finish env hashing task reply
  | .deoper uid => ({ desk with server := desk.server.svsSetUserModes uid "-o" }, none)
  | .elsewhere server nextUid => ({ desk with server := server, nextUid := nextUid }, none)

end Desk

/-! ## What a login leaves alone -/

namespace Server

/-- Only the operator flag of `uid` may differ, and no certificate. -/
structure Spares (uid : Uid) (before after : Server) : Prop where
  present : ∀ other, other ∈ after.users ↔ other ∈ before.users
  certfp : ∀ other, after.certfpOf other = before.certfpOf other
  oper : ∀ other, other ≠ uid → after.isOper other = before.isOper other

variable {uid : Uid}

namespace Spares

theorem refl (server : Server) : Spares uid server server := ⟨fun _ => .rfl, fun _ => rfl, fun _ _ => rfl⟩

theorem trans {first second third : Server} (hleft : Spares uid first second)
    (hrt : Spares uid second third) : Spares uid first third where
  present := fun other => (hrt.present other).trans (hleft.present other)
  certfp := fun other => (hrt.certfp other).trans (hleft.certfp other)
  oper := fun other ho => (hrt.oper other ho).trans (hleft.oper other ho)

theorem of_users {before after : Server} (hus : after.users = before.users) :
    Spares uid before after where
  present := fun other => by rw [hus]
  certfp := fun other => by rw [certfpOf, certfpOf, hus]
  oper := fun other _ => by rw [isOper, isOper, hus]

theorem of_modify {before after : Server} {change : User → User}
    (hus : after.users = Table.modify uid change before.users)
    (hcfp : ∀ user, (change user).certfp = user.certfp) : Spares uid before after where
  present := fun other => by rw [hus, Table.mem_modify]
  certfp := by
    intro other
    rw [certfpOf, certfpOf, hus, Table.lookup_modify]
    split
    · rename_i ho
      rw [ho]
      cases before.users.lookup uid <;> simp [hcfp]
    · rfl
  oper := by
    intro other ho
    rw [isOper, isOper, hus, Table.lookup_modify_ne _ _ ho]

end Spares

theorem spares_setOperPrefix (on : Bool) (server : Server) (key : Str) :
    Spares uid server (setOperPrefix uid on server key) := by
  apply Spares.of_users
  unfold setOperPrefix
  split
  · split
    · split <;> rfl
    · rfl
  · rfl

theorem spares_applyUserMode {server after : Server} {flag : UserFlag} {adding : Bool}
    (happ : server.applyUserMode uid flag adding = some after) : Spares uid server after := by
  have hflag : ∀ user, (setUserFlag flag adding user).certfp = user.certfp := by
    intro user
    unfold setUserFlag
    split <;> rfl
  rcases applyUserMode_cases happ with rfl | rfl | rfl
  · refine .trans ?_ (foldl_rel .refl .trans (spares_setOperPrefix false) _ _)
    exact .of_modify rfl fun _ => rfl
  · exact .of_modify rfl fun _ => rfl
  · exact .of_modify rfl hflag

theorem spares_svsSetUserModes (modes : Str) (server : Server) :
    Spares uid server (server.svsSetUserModes uid modes) :=
  svsSetUserModes_rel .refl .trans uid spares_applyUserMode (fun _ _ _ => .of_users rfl)
    modes server

theorem spares_join (env : Env) (server : Server) (name : Str) :
    Spares uid server (server.join env uid name) := by
  unfold join
  split
  · split
    · exact .of_modify (propagateJoin_users ..) fun _ => rfl
    · exact .refl server
  · exact .refl server

theorem spares_operUp (env : Env) (server : Server) : Spares uid server (server.operUp env uid) := by
  have hgrant : ∀ server : Server, Spares uid server (server.grantAllOperPrefix uid) := by
    intro server
    unfold grantAllOperPrefix
    split
    · exact foldl_rel .refl .trans (spares_setOperPrefix true) _ _
    · exact .refl server
  unfold operUp
  extract_lets flagged prefixed moded joined
  have hflagged : Spares uid server flagged := .of_modify rfl fun _ => rfl
  have hprefixed : Spares uid server prefixed := hflagged.trans (hgrant flagged)
  have hmoded : Spares uid server moded := by
    refine hprefixed.trans ?_
    simp only [moded]
    split
    · exact spares_svsSetUserModes ..
    · exact .refl _
  have hjn : Spares uid server joined := hmoded.trans (foldl_rel .refl .trans (spares_join env) _ _)
  split
  · exact hjn.trans (.of_users rfl)
  · exact hjn

theorem spares_takeType (type : ResolvedType) (server : Server) :
    Spares uid server (server.takeType uid type) := by
  have hmask : ∀ (letters : Str) (server : Server),
      Spares uid server (server.setSnomask uid letters) :=
    fun letters server => .of_modify rfl fun _ => rfl
  unfold takeType
  extract_lets moded masked
  have hmoded : Spares uid server moded := by
    simp only [moded]
    split
    · exact .refl server
    · exact spares_svsSetUserModes ..
  have hmsk : Spares uid server masked := by
    refine hmoded.trans ?_
    simp only [masked]
    split
    · exact hmask ..
    · split
      · exact hmask ..
      · exact .refl _
  split
  · exact hmsk.trans (.of_modify rfl fun _ => rfl)
  · exact hmsk

end Server

namespace Desk

variable {env : Env} {hashing : Hashing} (desk : Desk) (uid : Uid)

theorem setLevel_eq (level : UInt32) (desk : Desk) :
    ∃ levels, desk.setLevel uid level = { desk with levels := levels } := by
  unfold setLevel
  split
  · exact ⟨_, rfl⟩
  · exact ⟨desk.levels, rfl⟩

theorem apply_eq (operType : Option Str) (desk : Desk) (huid : uid ∈ desk.server.users) :
    ∃ server levels, desk.server.Spares uid server ∧ desk.apply uid operType =
      { desk with
        server := server
        levels := levels
        grants := match desk.typeOf operType with
          | some type => desk.grants.insert uid type.grant
          | none => desk.grants } := by
  unfold apply
  cases htype : desk.typeOf operType with
  | none => exact ⟨desk.server, desk.levels, .refl _, rfl⟩
  | some type =>
    have hspa := @Server.spares_takeType uid type desk.server
    have hst : uid ∈ (desk.server.takeType uid type).users := (hspa.present uid).mpr huid
    cases hlevel : type.level with
    | none =>
      refine ⟨_, desk.levels, hspa, ?_⟩
      simp only [hlevel, hst, if_true]
    | some level =>
      obtain ⟨levels, hlevels⟩ := setLevel_eq uid level
        { desk with server := desk.server.takeType uid type }
      refine ⟨_, levels, hspa, ?_⟩
      simp only [hlevel, hlevels, hst, if_true]

/-- What an accepted login changes: the user, its level and its grant. -/
structure LogsIn (desk : Desk) (uid : Uid) (block : OperBlock) (after : Desk)
    (login : Option Login) : Prop where
  spares : desk.server.Spares uid after.server
  opers : after.opers = desk.opers
  types : after.types = desk.types
  challenges : after.challenges = desk.challenges
  tasks : after.tasks = desk.tasks
  nextUid : after.nextUid = desk.nextUid
  entry : (uid ∈ desk.server.users ∧ login = some ⟨uid, block⟩ ∧
      after.grants = match desk.typeOf block.operType with
        | some type => desk.grants.insert uid type.grant
        | none => desk.grants) ∨
    (uid ∉ desk.server.users ∧ login = none ∧ after.grants = desk.grants)

theorem logsIn_operUp (block : OperBlock) (desk : Desk) :
    desk.LogsIn uid block (desk.operUp env uid block).1 (desk.operUp env uid block).2 := by
  have hup := @Server.spares_operUp uid env desk.server
  by_cases huid : uid ∈ desk.server.users
  · obtain ⟨levels, hlevels⟩ := setLevel_eq uid block.level
      { desk with server := desk.server.operUp env uid }
    obtain ⟨server, levels', hspa, happ⟩ := apply_eq uid block.operType
      { desk with server := desk.server.operUp env uid, levels := levels }
      ((hup.present uid).mpr huid)
    rw [operUp, if_pos huid, hlevels, happ]
    exact ⟨hup.trans hspa, rfl, rfl, rfl, rfl, rfl, .inl ⟨huid, rfl, rfl⟩⟩
  · rw [operUp, if_neg huid]
    exact ⟨hup, rfl, rfl, rfl, rfl, rfl, .inr ⟨huid, rfl, rfl⟩⟩

inductive Move (hashing : Hashing) (desk : Desk) : DeskEvent → Desk → Option Login → Prop
  | refuse (event : DeskEvent) : Move hashing desk event desk none
  | spawn {uid : Uid} {name pass : Str} {block : OperBlock} {dn : Option Str} :
      desk.blockNamed name = some block → block.certified (desk.server.certfpOf uid) = true →
      (dn.isSome = true → block.ldapDn.isSome = true) →
      (dn = none → PasswordHash.isSlow block.password = true) →
      Move hashing desk (.oper uid name pass true)
        { desk with tasks := desk.tasks ++ [⟨uid, block, pass, dn⟩] } none
  | oper {uid : Uid} {name pass : Str} {spawned : Bool} {block : OperBlock} {after : Desk}
      {login : Option Login} :
      desk.blockNamed name = some block → block.certified (desk.server.certfpOf uid) = true →
      block.ldapDn = none →
      block.password = "*" ∨ PasswordHash.isSlow block.password = false ∧
        PasswordHash.verify hashing block.password pass = true →
      desk.LogsIn uid block after login →
      Move hashing desk (.oper uid name pass spawned) after login
  | issue {uid : Uid} {name expected : Str} :
      Move hashing desk (.challenge uid name (some expected))
        { desk with
          challenges := desk.challenges.insert uid ⟨name, expected, desk.server.clock⟩ } none
  | spend {uid : Uid} {param : Str} {made : Option Str} :
      Move hashing desk (.challenge uid param made)
        { desk with challenges := desk.challenges.erase uid } none
  | answer {uid : Uid} {made : Option Str} {pending : RsaChallenge} {block : OperBlock}
      {after : Desk} {login : Option Login} :
      desk.challenges.lookup uid = some pending →
      desk.server.clock.toNat - pending.issued.toNat ≤ 60 →
      desk.keyedBlock pending.name = some block →
      block.certified (desk.server.certfpOf uid) = true →
      LogsIn { desk with challenges := desk.challenges.erase uid } uid block after login →
      Move hashing desk (.challenge uid ('+' :: pending.expected) made) after login
  | drop {task : AuthTask} {reply : Bool} :
      Move hashing desk (.finished task reply)
        { desk with tasks := desk.tasks.erase task } none
  | finish {task : AuthTask} {reply : Bool} {after : Desk} {login : Option Login} :
      task ∈ desk.tasks → task.succeeds hashing reply = true →
      LogsIn { desk with tasks := desk.tasks.erase task } task.uid task.block after login →
      Move hashing desk (.finished task reply) after login
  | deoper {uid : Uid} {server : Server} :
      desk.server.Spares uid server →
      Move hashing desk (.deoper uid) { desk with server := server } none
  | elsewhere (server : Server) (nextUid : Uid) :
      Move hashing desk (.elsewhere server nextUid)
        { desk with server := server, nextUid := nextUid } none

theorem move_oper (name pass : Str) (spawned : Bool) :
    desk.Move hashing (.oper uid name pass spawned) (desk.oper env hashing uid name pass spawned).1
      (desk.oper env hashing uid name pass spawned).2 := by
  unfold oper
  split
  · exact .refuse _
  · rename_i block hblk
    split
    · exact .refuse _
    · rename_i hcert
      have hcertified : block.certified (desk.server.certfpOf uid) = true := by
        simpa using hcert
      split
      · rename_i template htemplate
        split
        · exact .refuse _
        · cases spawned with
          | false => exact .refuse _
          | true =>
            refine .spawn hblk hcertified (fun _ => ?_) (fun hnone => ?_)
            · rw [htemplate]
              rfl
            · cases hnone
      · rename_i hldap
        split
        · rename_i hstar
          exact .oper hblk hcertified hldap (.inl hstar) (logsIn_operUp ..)
        · split
          · rename_i hslow
            cases spawned with
            | false => exact .refuse _
            | true => exact .spawn hblk hcertified (fun hsome => by cases hsome) fun _ => hslow
          · rename_i hquick
            split
            · rename_i hvrf
              exact .oper hblk hcertified hldap (.inr ⟨by simpa using hquick, hvrf⟩)
                (logsIn_operUp ..)
            · exact .refuse _

theorem move_challengeResponse (response : Str) (made : Option Str) :
    desk.Move hashing (.challenge uid ('+' :: response) made)
      (desk.challengeResponse env uid response).1 (desk.challengeResponse env uid response).2 := by
  unfold challengeResponse
  split
  · exact .refuse _
  · split
    · exact .refuse _
    · rename_i pending hpend
      simp only
      split
      · exact .spend
      · rename_i hfresh
        split
        · exact .spend
        · rename_i hresp
          split
          · exact .spend
          · rename_i block hblk
            split
            · rename_i hcertified
              rw [not_not] at hresp
              rw [hresp]
              exact .answer hpend (Nat.not_lt.mp hfresh) hblk hcertified (logsIn_operUp ..)
            · exact .spend

variable (env hashing) in
theorem step_move (event : DeskEvent) :
    desk.Move hashing event (desk.step env hashing event).1 (desk.step env hashing event).2 := by
  cases event with
  | oper uid name pass spawned => exact move_oper ..
  | challenge uid param made =>
    simp only [step, challenge]
    split
    · exact move_challengeResponse ..
    · split
      · split
        · exact .issue
        · exact .refuse _
      · exact .refuse _
  | finished task reply =>
    simp only [step, finish]
    split
    · rename_i htask
      split
      · rename_i hsucceeds
        exact .finish htask hsucceeds (logsIn_operUp ..)
      · exact .drop
    · exact .refuse _
  | deoper uid => exact .deoper (Server.spares_svsSetUserModes ..)
  | elsewhere server nextUid => exact .elsewhere server nextUid

/-! ## Runs -/

/--
A line comes from a connection, a uid is given out once, and the certificate of
a connection stays.
-/
def Admits (desk : Desk) : DeskEvent → Prop
  | .oper uid _ _ _ | .challenge uid _ _ => uid ∈ desk.server.users
  | .elsewhere server nextUid =>
    desk.nextUid ≤ nextUid ∧ (∀ uid, uid ∈ server.users → uid < nextUid) ∧
      ∀ uid, uid ∈ server.users → uid < desk.nextUid →
        uid ∈ desk.server.users ∧ server.certfpOf uid = desk.server.certfpOf uid
  | _ => True

variable (env hashing) in
/-- The events since `start`, the logins accepted by then and the desk reached. -/
inductive Run (start : Desk) : List DeskEvent → List Login → Desk → Prop
  | start : Run start [] [] start
  | step {events : List DeskEvent} {logins : List Login} {desk : Desk} {event : DeskEvent} :
      Run start events logins desk → desk.Admits event →
      Run start (events ++ [event]) (logins ++ (desk.step env hashing event).2.toList)
        (desk.step env hashing event).1

end Desk

end EchoIrcd
