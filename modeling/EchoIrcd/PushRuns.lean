import EchoIrcd.WebPush

/-!
# Runs of subscriptions

The names of accounts and the nicks of clients without one are keys of one
table, and a key stays when its client leaves.  A push reaches the endpoints
that someone once stored under the present name of its recipient.
-/

namespace EchoIrcd

open Str WebPush List

structure Enrolment where
  uid : Uid
  name : Str
  account : Option Str
  sub : Sub
  deriving DecidableEq, Repr

structure PushDesk where
  chat : Chat
  subs : Subs := ∅

inductive PushEvent where
  | webpush (uid : Uid) (params : List Str)
  | message (sender : Uid) (target text : Str)
  /-- logins, logouts, nick changes, connects and quits leave this chat -/
  | elsewhere (chat : Chat)

namespace PushDesk

def step (conf : PushConf) (desk : PushDesk) : PushEvent → PushDesk × List Push
  | .webpush uid params =>
    ({ desk with subs := (handle conf desk.chat.server uid params desk.subs).1 }, [])
  | .message sender target text =>
    (desk, maybePush conf desk.subs sender target text desk.chat)
  | .elsewhere chat => ({ desk with chat := chat }, [])

/-- The enrolments that stand after an event, of those that stood before. -/
def enrols (conf : PushConf) (desk : PushDesk) (log : List Enrolment) :
    PushEvent → List Enrolment
  | .webpush uid params =>
    let name := identity desk.chat.server uid
    let others endpoint :=
      log.filter fun enrolment => ¬ (enrolment.name = name ∧ enrolment.sub.endpoint = endpoint)
    match accepted conf params, withdrawn conf params with
    | some sub, _ => others sub.endpoint ++ [⟨uid, name, desk.chat.server.accountName uid, sub⟩]
    | none, some endpoint => others endpoint
    | none, none => log
  | .message .. | .elsewhere _ => log

inductive Run (conf : PushConf) : PushDesk → List Enrolment → Prop where
  | start (chat : Chat) : Run conf ⟨chat, ∅⟩ []
  | step {desk : PushDesk} {log : List Enrolment} (event : PushEvent) (hrun : Run conf desk log) :
      Run conf (desk.step conf event).1 (desk.enrols conf log event)

def Recorded (desk : PushDesk) (log : List Enrolment) : Prop :=
  ∀ name, ∀ sub ∈ (desk.subs.lookup name).getD [], ∃ enrolment ∈ log,
    enrolment.name = name ∧ enrolment.sub = sub

/-- The name of an enrolment is the account of its maker, if there was one. -/
def NamedByAccount (log : List Enrolment) : Prop :=
  ∀ enrolment ∈ log, ∀ account, enrolment.account = some account →
    enrolment.name = toAsciiLower account

variable {conf : PushConf} {desk : PushDesk} {log : List Enrolment}

theorem Recorded.step (hrec : desk.Recorded log) (event : PushEvent) :
    (desk.step conf event).1.Recorded (desk.enrols conf log event) := by
  cases event with
  | message sender target text => exact hrec
  | elsewhere chat => exact hrec
  | webpush uid params =>
    intro name sub hsub
    change sub ∈ ((handle conf desk.chat.server uid params desk.subs).1.lookup
      name).getD [] at hsub
    -- an enrolment stands as long as its endpoint is stored under its name
    have hstands : ∀ {endpoint}, sub ∈ (desk.subs.lookup name).getD [] →
        ¬ (name = identity desk.chat.server uid ∧ sub.endpoint = endpoint) →
        ∃ enrolment ∈ log.filter fun enrolment => ¬ (enrolment.name =
            identity desk.chat.server uid ∧ enrolment.sub.endpoint = endpoint),
          enrolment.name = name ∧ enrolment.sub = sub := by
      intro endpoint hold ho
      obtain ⟨enrolment, hmem, rfl, rfl⟩ := hrec name sub hold
      exact ⟨enrolment, mem_filter.mpr ⟨hmem, decide_eq_true ho⟩, rfl, rfl⟩
    rcases handle_cases conf desk.chat.server uid params desk.subs with
      ⟨stored, hsto, hsubs⟩ | ⟨endpoint, hsto, hgone, hsubs⟩ | ⟨hsto, hgone, hsubs⟩ <;>
      rw [hsubs] at hsub
    · simp only [enrols, hsto]
      rcases mem_add hsub with ⟨rfl, rfl⟩ | ⟨hold, ho⟩
      · exact ⟨_, mem_append_right _ (mem_singleton_self _), rfl, rfl⟩
      · obtain ⟨enrolment, hmem, hnm⟩ := hstands hold ho
        exact ⟨enrolment, mem_append_left _ hmem, hnm⟩
    · simp only [enrols, hsto, hgone]
      obtain ⟨hold, ho⟩ := mem_remove hsub
      exact hstands hold ho
    · simp only [enrols, hsto, hgone]
      exact hrec name sub hsub

theorem enrols_elsewhere (chat : Chat) : desk.enrols conf log (.elsewhere chat) = log :=
  rfl

theorem mem_enrols {event : PushEvent} {enrolment : Enrolment}
    (hmem : enrolment ∈ desk.enrols conf log event) :
    enrolment ∈ log ∨ (enrolment.name = identity desk.chat.server enrolment.uid ∧
      enrolment.account = desk.chat.server.accountName enrolment.uid) := by
  cases event with
  | message sender target text => exact .inl hmem
  | elsewhere chat => exact .inl hmem
  | webpush uid params =>
    simp only [enrols] at hmem
    split at hmem
    · rcases mem_append.mp hmem with hold | hnew
      · exact .inl (mem_of_mem_filter hold)
      · rw [mem_singleton] at hnew
        subst hnew
        exact .inr ⟨rfl, rfl⟩
    · exact .inl (mem_of_mem_filter hmem)
    · exact .inl hmem

theorem NamedByAccount.step (hnm : NamedByAccount log) (event : PushEvent) :
    NamedByAccount (desk.enrols conf log event) := by
  intro enrolment hmem account hacc
  rcases mem_enrols hmem with hold | ⟨hname, hmade⟩
  · exact hnm enrolment hold account hacc
  · rw [hname]
    exact identity_of_account (hmade.symm.trans hacc)

theorem Run.recorded (hrun : Run conf desk log) : desk.Recorded log ∧ NamedByAccount log := by
  induction hrun with
  | start chat =>
    constructor
    · intro name sub hsub
      cases hsub
    · intro enrolment hmem
      cases hmem
  | step event hrun ih => exact ⟨ih.1.step event, ih.2.step event⟩

/-- What stands enrolled under the present name of the user is the user's own, or an account's
while the user is logged in. -/
def NameKept (desk : PushDesk) (log : List Enrolment) (uid : Uid) : Prop :=
  ∀ enrolment ∈ log, enrolment.name = identity desk.chat.server uid →
    enrolment.uid = uid ∨
      (enrolment.account.isSome = true ∧ (desk.chat.server.accountName uid).isSome = true)

/-- The maker of the enrolment was this user, or logged into the account the user has now;
accounts are told apart without regard to case. -/
def Entitled (desk : PushDesk) (uid : Uid) (enrolment : Enrolment) : Prop :=
  enrolment.uid = uid ∨ ∃ earlier now, enrolment.account = some earlier ∧
    desk.chat.server.accountName uid = some now ∧ toAsciiLower earlier = toAsciiLower now

instance (desk : PushDesk) (log : List Enrolment) (uid : Uid) :
    Decidable (desk.NameKept log uid) :=
  inferInstanceAs (Decidable (∀ enrolment ∈ log, _ → _))

end PushDesk

/-- A message is pushed only to endpoints of its recipient, when what is stored under the
recipient's name is the recipient's own or an account's. -/
theorem push_reaches_owner {conf : PushConf} {desk : PushDesk} {log : List Enrolment}
    {sender : Uid} {target text : Str} {push : Push} (hrun : PushDesk.Run conf desk log)
    (hkept : ∀ uid ∈ recipients sender target text desk.chat.server, desk.NameKept log uid)
    (hpush : push ∈ (desk.step conf (.message sender target text)).2) :
    ∃ enrolment ∈ log, enrolment.sub = push.sub ∧ desk.Entitled push.recipient enrolment := by
  obtain ⟨-, hrecipient, -, hsub, -⟩ := mem_maybePush.mp hpush
  obtain ⟨hrec, hnm⟩ := hrun.recorded
  obtain ⟨enrolment, hmem, hname, hs⟩ := hrec _ _ hsub
  refine ⟨enrolment, hmem, hs, ?_⟩
  rcases hkept push.recipient hrecipient enrolment hmem hname with howner | ⟨hthen, hnow⟩
  · exact .inl howner
  · obtain ⟨account, hacc⟩ := Option.isSome_iff_exists.mp hthen
    obtain ⟨now, hnow⟩ := Option.isSome_iff_exists.mp hnow
    refine .inr ⟨account, now, hacc, hnow, ?_⟩
    rw [← hnm enrolment hmem account hacc, hname, identity_of_account hnow]

/-! ## A nick that two clients have had -/

def awayChat (clients : List (Uid × Str × Option Str)) : Chat where
  server := {
    conf := { name := "a.test", sid := "0AA" }
    clock := 7
    users := Table.ofList (clients.map fun (uid, nick, account) =>
      (uid, { uuid := nick, nick := nick, host := "h", ip := "1.1.1.1", signon := 1, nickTs := 1,
              registered := true, account := account }))
    nickIndex := Table.ofList (clients.map fun (uid, nick, _) => (nick, uid)) }
  manners := Table.ofList (clients.map fun (uid, _) => (uid, { away := some "out" }))

def bobKeys : Str :=
  "p256dh=" ++ replicate 87 'A' ++ ";auth=" ++ replicate 22 'A'

def bobRegisters : PushEvent := .webpush 1 ["REGISTER", "https://one", bobKeys]

def bobSub : Sub := ⟨"https://one", replicate 65 0, replicate 16 0⟩

def pushConf : PushConf where
  base64 := .ofTable [(replicate 87 'A' ++ "=", replicate 65 0), (replicate 22 'A' ++ "==",
    replicate 16 0)]

def enrolled (first : Option Str) : List Enrolment :=
  (PushDesk.mk (awayChat [(1, "bob", first)]) ∅).enrols pushConf [] bobRegisters

def succeeds (first second : Option Str) : PushDesk :=
  ((PushDesk.mk (awayChat [(1, "bob", first)]) ∅).step pushConf bobRegisters).1.step pushConf
    (.elsewhere (awayChat [(2, "bob", second), (3, "eve", none)])) |>.1

theorem succeeds_run (first second : Option Str) :
    PushDesk.Run pushConf (succeeds first second) (enrolled first) := by
  have hrun : PushDesk.Run pushConf _ (enrolled first) := .step bobRegisters (.start _)
  have hnext := hrun.step (.elsewhere (awayChat [(2, "bob", second), (3, "eve", none)]))
  rwa [PushDesk.enrols_elsewhere] at hnext

theorem push_reaches_owner_account :
    ⟨2, bobSub, payloadJson "eve" "bob" "hi"⟩ ∈
      ((succeeds (some "amy") (some "Amy")).step pushConf (.message 3 "bob" "hi")).2 ∧
    ∃ enrolment ∈ enrolled (some "amy"),
      enrolment.sub = bobSub ∧ (succeeds (some "amy") (some "Amy")).Entitled 2 enrolment := by
  have hpush : ⟨2, bobSub, payloadJson "eve" "bob" "hi"⟩ ∈
      ((succeeds (some "amy") (some "Amy")).step pushConf (.message 3 "bob" "hi")).2 := by
    decide +kernel
  exact ⟨hpush, push_reaches_owner (succeeds_run (some "amy") (some "Amy"))
    (by decide +kernel) hpush⟩

/-- A second bob is sent to the endpoint of the first, who has left. -/
theorem push_inherited :
    ∃ desk log, PushDesk.Run pushConf desk log ∧
      ⟨2, bobSub, payloadJson "eve" "bob" "hi"⟩ ∈ (desk.step pushConf (.message 3 "bob" "hi")).2 ∧
      ∀ enrolment ∈ log, ¬ desk.Entitled 2 enrolment := by
  refine ⟨succeeds none none, _, succeeds_run none none, by decide +kernel, ?_⟩
  intro enrolment hmem hentitled
  have hlog : enrolled none = [⟨1, "bob", none, bobSub⟩] := by decide +kernel
  rw [hlog, mem_singleton] at hmem
  rw [hmem] at hentitled
  rcases hentitled with hone | ⟨earlier, now, hthen, -⟩
  · exact absurd hone (by decide)
  · cases hthen

end EchoIrcd
