import EchoIrcd.OperLogin

/-!
# Operators have shown a credential

A block may configure a password, a certificate, a key for challenges and a
name to bind with.  The OPER command takes the password `*` for "the
certificate is the whole check" and compares an unset password like any other,
so a block with the one and no certificate, or with the other and only a key,
lets anyone in.  Every other login has shown what its block asks for.
-/

namespace EchoIrcd

open Str Desk List

variable {after desk : Desk} {event : DeskEvent} {events more : List DeskEvent}
  {block : OperBlock} {login : Option Login} {uid : Uid}

variable {env : Env} {hashing : Hashing}

/-- The lines and results in `events` hold a credential that the block configures. -/
inductive OperBlock.Presented (hashing : Hashing) (events : List DeskEvent) (certfp : Option Str)
    (uid : Uid) (block : OperBlock) : Prop
  | certificate {want shown : Str} : block.fingerprint = some want → certfp = some shown →
      eqIgnoreAsciiCase shown want = true → Presented hashing events certfp uid block
  | password {pass : Str} {spawned : Bool} : .oper uid block.name pass spawned ∈ events →
      block.password ≠ [] → block.password ≠ "*" →
      PasswordHash.verify hashing block.password pass = true →
      Presented hashing events certfp uid block
  | rsa {expected : Str} {made : Option Str} : block.rsaKey.isSome = true →
      .challenge uid block.name (some expected) ∈ events →
      .challenge uid ('+' :: expected) made ∈ events → Presented hashing events certfp uid block
  | bind {task : AuthTask} {spawned : Bool} : block.ldapDn.isSome = true → task.dn.isSome = true →
      task.uid = uid → task.block = block → .oper uid block.name task.pass spawned ∈ events →
      .finished task true ∈ events → Presented hashing events certfp uid block

def OperBlock.Guarded (block : OperBlock) (pass : Str) : Prop :=
  block.fingerprint.isSome = true ∨ block.ldapDn.isSome = true ∨
    (block.password ≠ "*" ∧ (block.password ≠ [] ∨ pass ≠ []))

def DeskEvent.Guarded (opers : List OperBlock) : DeskEvent → Prop
  | .oper _ name pass _ =>
    ∀ block, opers.find? (fun block => block.name = name) = some block → block.Guarded pass
  | _ => True

/-! ## Pending checks and challenges -/

structure AuthTask.Vetted (events : List DeskEvent) (desk : Desk) (task : AuthTask) : Prop where
  issued : task.uid < desk.nextUid
  block_mem : task.block ∈ desk.opers
  certified : task.uid ∈ desk.server.users →
    task.block.certified (desk.server.certfpOf task.uid) = true
  asked : ∃ spawned, .oper task.uid task.block.name task.pass spawned ∈ events
  bind : task.dn.isSome = true → task.block.ldapDn.isSome = true
  slow : task.dn = none → PasswordHash.isSlow task.block.password = true

structure Desk.Vetted (events : List DeskEvent) (desk : Desk) : Prop where
  issued : ∀ uid, uid ∈ desk.server.users → uid < desk.nextUid
  tasks : ∀ task ∈ desk.tasks, task.Vetted events desk
  challenges : ∀ uid pending, desk.challenges.lookup uid = some pending →
    .challenge uid pending.name (some pending.expected) ∈ events

theorem AuthTask.Vetted.mono {task : AuthTask} (hvet : task.Vetted events desk)
    (hevs : events ⊆ more) (hopers : after.opers = desk.opers)
    (hnext : desk.nextUid ≤ after.nextUid)
    (hcfp : task.uid ∈ after.server.users → task.uid ∈ desk.server.users ∧
      after.server.certfpOf task.uid = desk.server.certfpOf task.uid) :
    task.Vetted more after where
  issued := hvet.issued.trans_le hnext
  block_mem := hopers ▸ hvet.block_mem
  certified := by
    intro huid
    obtain ⟨hbef, hs⟩ := hcfp huid
    rw [hs]
    exact hvet.certified hbef
  asked := by
    obtain ⟨spawned, hasked⟩ := hvet.asked
    exact ⟨spawned, hevs hasked⟩
  bind := hvet.bind
  slow := hvet.slow

section

variable (hvet : desk.Vetted events)

include hvet

theorem Desk.Vetted.mono (hevs : events ⊆ more) (hspa : desk.server.Spares uid after.server)
    (hopers : after.opers = desk.opers) (hnext : after.nextUid = desk.nextUid)
    (htasks : after.tasks ⊆ desk.tasks)
    (hchallenges : ∀ uid pending, after.challenges.lookup uid = some pending →
      desk.challenges.lookup uid = some pending) : after.Vetted more where
  issued := by
    intro other ho
    rw [hnext]
    exact hvet.issued other ((hspa.present other).mp ho)
  tasks := by
    intro task htask
    apply (hvet.tasks task (htasks htask)).mono hevs hopers hnext.ge
    exact fun huid => ⟨(hspa.present task.uid).mp huid, hspa.certfp task.uid⟩
  challenges := fun uid pending hpend =>
    hevs (hvet.challenges uid pending (hchallenges uid pending hpend))

theorem Desk.Vetted.logsIn (hevs : events ⊆ more)
    (hlogs : desk.LogsIn uid block after login) : after.Vetted more := by
  apply hvet.mono hevs hlogs.spares hlogs.opers hlogs.nextUid
  · exact hlogs.tasks ▸ Subset.refl _
  · rw [hlogs.challenges]
    exact fun _ _ => id

theorem Desk.Vetted.later (hevs : events ⊆ more) : desk.Vetted more :=
  hvet.mono hevs (@Server.Spares.refl 0 desk.server) rfl rfl (Subset.refl _) fun _ _ => id

theorem Desk.Vetted.spend
    (uid : Uid) : Desk.Vetted events { desk with challenges := desk.challenges.erase uid } := by
  refine hvet.mono (Subset.refl _) (@Server.Spares.refl uid desk.server) rfl rfl
    (Subset.refl _) ?_
  exact fun other pending hpend => (Table.of_lookup_erase hpend).2

theorem Desk.Vetted.drop
    (task : AuthTask) : Desk.Vetted events { desk with tasks := desk.tasks.erase task } :=
  hvet.mono (Subset.refl _) (@Server.Spares.refl 0 desk.server) rfl rfl erase_subset
    fun _ _ => id

theorem Desk.Vetted.move (hadmits : desk.Admits event)
    (hmove : desk.Move hashing event after login) : after.Vetted (events ++ [event]) := by
  have hevs : events ⊆ events ++ [event] := subset_append_left ..
  have hlast : event ∈ events ++ [event] := by simp
  cases hmove with
  | refuse event => exact hvet.later hevs
  | @spawn uid name pass block dn hblk hcert hbind hslow =>
    have hlat := hvet.later hevs
    refine ⟨hlat.issued, ?_, hlat.challenges⟩
    intro task htask
    rcases mem_append.mp htask with hold | hnew
    · exact (hlat.tasks task hold).mono (Subset.refl _) rfl le_rfl fun huid => ⟨huid, rfl⟩
    · cases mem_singleton.mp hnew
      have hname : block.name = name := by simpa using find?_some hblk
      exact {
        issued := hvet.issued uid hadmits
        block_mem := mem_of_find?_eq_some hblk
        certified := fun _ => hcert
        asked := ⟨true, hname ▸ hlast⟩
        bind := hbind
        slow := hslow }
  | oper hblk hcert hldap hpass hlogs => exact hvet.logsIn hevs hlogs
  | issue =>
    have hlat := hvet.later hevs
    refine ⟨hlat.issued, fun task htask => (hlat.tasks task htask).mono
      (Subset.refl _) rfl le_rfl fun huid => ⟨huid, rfl⟩, ?_⟩
    intro other pending hpend
    obtain ⟨rfl, rfl⟩ | ⟨-, hpend⟩ := Table.of_lookup_insert hpend
    · exact hlast
    · exact hlat.challenges other pending hpend
  | spend => exact (hvet.spend _).later hevs
  | answer hpend _ hblk hcert hlogs => exact (hvet.spend _).logsIn hevs hlogs
  | drop => exact (hvet.drop _).later hevs
  | finish htask hsucceeds hlogs => exact (hvet.drop _).logsIn hevs hlogs
  | deoper hspa =>
    exact hvet.mono hevs hspa rfl rfl (Subset.refl _) fun _ _ => id
  | elsewhere server nextUid =>
    obtain ⟨hnext, hissued, hkept⟩ := hadmits
    exact {
      issued := hissued
      tasks := fun task htask => (hvet.tasks task htask).mono hevs rfl hnext
        fun huid => hkept task.uid huid (hvet.tasks task htask).issued
      challenges := fun uid pending hpend => hevs (hvet.challenges uid pending hpend) }

end

theorem Desk.Move.opers_eq
    (hmove : desk.Move hashing event after login) : after.opers = desk.opers := by
  cases hmove with
  | oper _ _ _ _ hlogs | answer _ _ _ _ hlogs | finish _ _ hlogs => exact hlogs.opers
  | refuse | spawn | issue | spend | drop | deoper | elsewhere => rfl

theorem Desk.Run.vetted {start : Desk} {logins : List Login}
    (hrun : Desk.Run env hashing start events logins desk) (hsta : start.Vetted []) :
    desk.Vetted events ∧ desk.opers = start.opers := by
  induction hrun with
  | start => exact ⟨hsta, rfl⟩
  | step _ hadmits ih =>
    obtain ⟨hvet, hopers⟩ := ih
    refine ⟨hvet.move hadmits (step_move ..), ?_⟩
    exact (step_move env hashing ..).opers_eq.trans hopers

/-! ## Logins -/

theorem Desk.LogsIn.login_eq {login : Login} (hlogs : desk.LogsIn uid block after (some login)) :
    uid ∈ desk.server.users ∧ login = ⟨uid, block⟩ := by
  rcases hlogs.entry with ⟨huid, hlogin, -⟩ | ⟨-, hlogin, -⟩
  · exact ⟨huid, Option.some.inj hlogin⟩
  · cases hlogin

theorem PasswordHash.verify_nil (hashing : Hashing) (pass : Str) :
    verify hashing [] pass = decide (pass = []) := by
  have hemp : ∀ word : Str, word ≠ [] → ([] : Str).dropPrefix? word = none := by
    intro word hword
    cases word with
    | nil => exact absurd rfl hword
    | cons => rfl
  rw [verify, hemp _ (by decide)]
  simp [splitOnce, eq_comm]

theorem OperBlock.Presented.of_certified {certfp : Option Str}
    (hfp : block.fingerprint.isSome = true) (hcert : block.certified certfp = true) :
    block.Presented hashing events certfp uid := by
  obtain ⟨want, hwant⟩ := Option.isSome_iff_exists.mp hfp
  rw [OperBlock.certified, hwant] at hcert
  cases hsh : certfp with
  | none => simp [hsh] at hcert
  | some shown => exact .certificate hwant rfl (by simpa [hsh] using hcert)

/-- The login of a step belongs to a configured block and has shown what it asks for. -/
theorem Desk.Vetted.presented {login : Login} (hvet : desk.Vetted events)
    (hg : event.Guarded desk.opers) (hmove : desk.Move hashing event after (some login)) :
    login.block ∈ desk.opers ∧
      login.block.certified (desk.server.certfpOf login.uid) = true ∧
      login.block.Presented hashing (events ++ [event]) (desk.server.certfpOf login.uid)
        login.uid := by
  have hlast : event ∈ events ++ [event] := by simp
  cases hmove with
  | @oper uid name pass spawned block after login hblk hcert hldap hpass hlogs =>
    obtain ⟨-, rfl⟩ := hlogs.login_eq
    obtain rfl : block.name = name := by simpa using find?_some hblk
    refine ⟨mem_of_find?_eq_some hblk, hcert, ?_⟩
    rcases hg block hblk with hfp | hbind | ⟨hstar, hnonempty⟩
    · exact .of_certified hfp hcert
    · rw [hldap] at hbind
      cases hbind
    · have hvrf := (hpass.resolve_left hstar).2
      have hset : block.password ≠ [] := by
        intro hemp
        rw [hemp, PasswordHash.verify_nil] at hvrf
        exact hnonempty.elim (· hemp) (· (of_decide_eq_true hvrf))
      exact .password hlast hset hstar hvrf
  | @answer uid made pending block after login hpend _ hblk hcert hlogs =>
    obtain ⟨-, rfl⟩ := hlogs.login_eq
    have hf := find?_some hblk
    simp only [Bool.and_eq_true, decide_eq_true_eq] at hf
    refine ⟨mem_of_find?_eq_some hblk, hcert, .rsa hf.2 ?_ hlast⟩
    rw [hf.1]
    exact mem_append_left _ (hvet.challenges uid pending hpend)
  | @finish task reply after login htask hsucceeds hlogs =>
    obtain ⟨huid, rfl⟩ := hlogs.login_eq
    have htaken := hvet.tasks task htask
    obtain ⟨spawned, hasked⟩ := htaken.asked
    refine ⟨htaken.block_mem, htaken.certified huid, ?_⟩
    rw [AuthTask.succeeds] at hsucceeds
    cases hdn : task.dn with
    | none =>
      rw [hdn] at hsucceeds
      obtain ⟨hset, hstar⟩ := PasswordHash.ne_of_isSlow (htaken.slow hdn)
      exact .password (mem_append_left _ hasked) hset hstar hsucceeds
    | some dn =>
      rw [hdn] at hsucceeds
      simp only [Bool.and_eq_true, decide_eq_true_eq] at hsucceeds
      obtain ⟨-, rfl⟩ := hsucceeds
      exact .bind (htaken.bind (by rw [hdn]; rfl)) (by rw [hdn]; rfl) rfl rfl
        (mem_append_left _ hasked) hlast

def DeskEvent.isLogin : DeskEvent → Bool
  | .oper .. | .challenge .. | .finished .. => true
  | .deoper _ | .elsewhere .. => false

theorem Desk.LogsIn.raises {other : Uid} (hlogs : desk.LogsIn uid block after login)
    (hbef : desk.server.isOper other = false) (haft : after.server.isOper other = true) :
    login = some ⟨other, block⟩ := by
  by_cases ho : other = uid
  · rcases hlogs.entry with ⟨-, hlogin, -⟩ | ⟨huid, -, -⟩
    · rw [ho, hlogin]
    · have hgone : other ∉ after.server.users := by
        rw [hlogs.spares.present, ho]
        exact huid
      rw [Server.isOper, AList.lookup_eq_none.mpr hgone] at haft
      cases haft
  · rw [hlogs.spares.oper other ho, hbef] at haft
    cases haft

theorem Desk.Move.raises (hmove : desk.Move hashing event after login)
    (hev : event.isLogin = true) (hbef : desk.server.isOper uid = false)
    (haft : after.server.isOper uid = true) : ∃ block, login = some ⟨uid, block⟩ := by
  cases hmove with
  | oper _ _ _ _ hlogs | answer _ _ _ _ hlogs | finish _ _ hlogs =>
    exact ⟨_, hlogs.raises hbef haft⟩
  | refuse | spawn | issue | spend | drop =>
    rw [hbef] at haft
    cases haft
  | deoper | elsewhere => cases hev

/--
After any run from a configuration that the parser accepted, a login shows a
certificate where the block has one and a credential of the block, provided
that an OPER line finds a guarded block; and whoever becomes an operator by
OPER, CHALLENGE or the result of a check has logged in.
-/
theorem operator_presented {lines : List Str} {start desk : Desk} {events : List DeskEvent}
    {logins : List Login} {event : DeskEvent}
    (hopers : start.opers = OperBlock.parseAll lines) (htasks : start.tasks = [])
    (hchallenges : start.challenges = ∅)
    (hissued : ∀ uid, uid ∈ start.server.users → uid < start.nextUid)
    (hrun : Desk.Run env hashing start events logins desk)
    (hg : event.Guarded (OperBlock.parseAll lines)) :
    (∀ login, (desk.step env hashing event).2 = some login →
      login.block ∈ OperBlock.parseAll lines ∧
      login.block.certified (desk.server.certfpOf login.uid) = true ∧
      login.block.Presented hashing (events ++ [event]) (desk.server.certfpOf login.uid)
        login.uid) ∧
    (event.isLogin = true → ∀ uid, desk.server.isOper uid = false →
      (desk.step env hashing event).1.server.isOper uid = true →
      ∃ block, (desk.step env hashing event).2 = some ⟨uid, block⟩) := by
  have hsta : start.Vetted [] := by
    refine ⟨hissued, ?_, ?_⟩
    · simp [htasks]
    · simp [hchallenges]
  obtain ⟨hvet, hkept⟩ := hrun.vetted hsta
  rw [hopers] at hkept
  have hmove := step_move env hashing desk event
  constructor
  · intro login hlogin
    rw [hlogin] at hmove
    rw [← hkept] at hg ⊢
    exact hvet.presented hg hmove
  · exact fun hev uid hbef haft => hmove.raises hev hbef haft

/-! ## Two blocks that anyone may use -/

def Hashing.unavailable : Hashing where
  bcrypt := fun _ _ => false
  digest := fun _ _ => none
  pbkdf2 := fun _ _ _ _ => none

def operDesk (lines : List Str) : Desk where
  server := {
    conf := { name := "a.test", sid := "0AA" }
    clock := 7
    users := Table.ofList
      [(1, { uuid := "0AAAAAAAA", nick := "eve", host := "h", ip := "1.1.1.1", signon := 1,
             nickTs := 1, registered := true })] }
  opers := OperBlock.parseAll lines
  nextUid := 2

theorem issued_operDesk (lines : List Str) (uid : Uid)
    (huid : uid ∈ (operDesk lines).server.users) : uid < (operDesk lines).nextUid := by
  have hone : uid ∈ [1] := huid
  rw [mem_singleton.mp hone]
  exact Nat.lt_succ_self 1

def keyBlock : OperBlock := { name := "bob", rsaKey := some "/k" }

theorem operator_presented_challenge :
    (((operDesk ["bob rsakey=/k"]).step .plain .unavailable
      (.challenge 1 "bob" (some "tok"))).1.step .plain .unavailable
        (.challenge 1 "+tok" none)).2 = some ⟨1, keyBlock⟩ ∧
    keyBlock.Presented .unavailable [.challenge 1 "bob" (some "tok"), .challenge 1 "+tok" none]
      none 1 := by
  have hlogin : (((operDesk ["bob rsakey=/k"]).step .plain .unavailable
      (.challenge 1 "bob" (some "tok"))).1.step .plain .unavailable
        (.challenge 1 "+tok" none)).2 = some ⟨1, keyBlock⟩ := by decide +kernel
  refine ⟨hlogin, ?_⟩
  have hrun := @Desk.Run.step .plain .unavailable (operDesk ["bob rsakey=/k"]) [] [] _
    (.challenge 1 "bob" (some "tok")) .start (show 1 ∈ (operDesk _).server.users by decide)
  have hall := @operator_presented .plain .unavailable _ _ _ _ _ (.challenge 1 "+tok" none)
    rfl rfl rfl (issued_operDesk _) hrun trivial
  exact (hall.1 _ hlogin).2.2

/-- `oper = bob *` lets in anyone who names it, `oper = bob rsakey=/k` with an empty password. -/
theorem open_blocks :
    (∀ lines, (operDesk lines).server.isOper 1 = false) ∧
    (((operDesk ["bob *"]).step .plain .unavailable (.oper 1 "bob" "guess" false)).2 =
        some ⟨1, { name := "bob", password := "*" }⟩ ∧
      ((operDesk ["bob *"]).step .plain .unavailable
        (.oper 1 "bob" "guess" false)).1.server.isOper 1 = true ∧
      ¬ OperBlock.Presented .unavailable [.oper 1 "bob" "guess" false] none 1
        { name := "bob", password := "*" }) ∧
    (((operDesk ["bob rsakey=/k"]).step .plain .unavailable (.oper 1 "bob" [] false)).2 =
        some ⟨1, keyBlock⟩ ∧
      ((operDesk ["bob rsakey=/k"]).step .plain .unavailable
        (.oper 1 "bob" [] false)).1.server.isOper 1 = true ∧
      ¬ keyBlock.Presented .unavailable [.oper 1 "bob" [] false] none 1) := by
  refine ⟨fun _ => rfl, ⟨by decide +kernel, by decide +kernel, ?_⟩, by decide +kernel,
    by decide +kernel, ?_⟩
  · intro hpresented
    cases hpresented with
    | certificate hwant => cases hwant
    | password _ _ hstar => exact hstar rfl
    | rsa hkey => cases hkey
    | bind hdn => cases hdn
  · intro hpresented
    cases hpresented with
    | certificate hwant => cases hwant
    | password _ hset => exact hset rfl
    | rsa _ hissued => simp at hissued
    | bind hdn => cases hdn

end EchoIrcd
