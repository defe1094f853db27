import EchoIrcd.Chat

/-!
# One line for each capability profile

`to_channel_tagged` of `server.rs` renders the line of a channel message once for
each combination of the capabilities that its tags depend on, and hands it to
every member with that combination.  `send_tagged` renders it for one recipient.
The format of the time tag is a parameter.
-/

namespace EchoIrcd

open Str

/-- The capabilities that shape the tags of a message. -/
structure TagCaps where
  serverTime : Bool
  accountTag : Bool
  messageTags : Bool

def TagCaps.slot (profile : TagCaps) : Nat :=
  profile.serverTime.toNat ||| profile.accountTag.toNat <<< 1 ||| profile.messageTags.toNat <<< 2

theorem TagCaps.slot_inj {first second : TagCaps} (hslot : first.slot = second.slot) :
    first = second := by
  obtain ⟨time, account, message⟩ := first
  obtain ⟨time', account', message'⟩ := second
  revert hslot
  cases time <;> cases account <;> cases message <;> cases time' <;> cases account' <;>
    cases message' <;> simp [TagCaps.slot]

structure Outgoing where
  src : Uid
  ctags : Str
  msgid : Str
  body : Str

namespace Outgoing

variable (out : Outgoing)

def messageTags : List Str :=
  (if out.msgid = [] then [] else ["msgid=".toList ++ out.msgid]) ++
    if out.ctags = [] then [] else [out.ctags]

def tagged (tags : List Str) : Str :=
  if tags = [] then out.body else '@' :: List.intercalate [';'] tags ++ ' ' :: out.body

end Outgoing

namespace Chat

variable (caps : Uid → TagCaps) (iso : Timestamp → Str) (env : Env) (key : Str) (opOnly : Bool)
  (out : Outgoing) (chat : Chat)

def accountOf (src : Uid) : Option Str :=
  (chat.server.users.lookup src).bind User.account

def timeTag : Str := "time=".toList ++ iso chat.server.clock

def sendTagged (uid : Uid) : List (Uid × Str) :=
  match chat.server.users.lookup uid with
  | none => []
  | some _ =>
    let time := if (caps uid).serverTime then [chat.timeTag iso] else []
    let account := if (caps uid).accountTag then
        (chat.accountOf out.src).toList.map ("account=".toList ++ ·)
      else []
    let message := if (caps uid).messageTags then out.messageTags else []
    [(uid, out.tagged (time ++ account ++ message))]

def profileLine (profile : TagCaps) : Str :=
  out.tagged ((if profile.serverTime then [chat.timeTag iso] else []) ++
    (if profile.accountTag then ["account=".toList ++ (chat.accountOf out.src).getD []] else []) ++
    if profile.messageTags then out.messageTags else [])

def profile (uid : Uid) : TagCaps :=
  { caps uid with accountTag := (caps uid).accountTag && (chat.accountOf out.src).isSome }

def passedOver (uid : Uid) (user : User) : Bool :=
  let source := chat.server.users.lookup out.src
  let srcMask := source.elim [] User.mask
  let srcSignore := source.elim [] User.signore
  uid = out.src || (user.flags .deaf && !chat.hasPriv out.src .ignorePrivdeaf) ||
    ((srcSignore ≠ [] || user.signore ≠ []) &&
      (srcSignore.any (globMatch env · user.mask) || user.signore.any (globMatch env · srcMask))) ||
    (opOnly && chat.server.rank uid key < Prefix.halfop.rank)

/-- The cache of lines, and what has been sent. -/
abbrev Fan := (Nat → Option Str) × List (Uid × Str)

def fanStep (fan : Fan) (uid : Uid) : Fan :=
  match chat.server.users.lookup uid with
  | none => fan
  | some user =>
    if chat.passedOver env key opOnly out uid user then fan
    else
      let profile := chat.profile caps out uid
      let line := (fan.1 profile.slot).getD (chat.profileLine iso out profile)
      (Function.update fan.1 profile.slot (some line), fan.2 ++ [(uid, line)])

/-- `to_channel_tagged` with the text of its lines. -/
def fanOut : List (Uid × Str) :=
  ((chat.members key).foldl (chat.fanStep caps iso env key opOnly out) (fun _ => none, [])).2

/-! ## Every slot holds the line of its combination -/

def Cached (cache : Nat → Option Str) : Prop :=
  ∀ profile : TagCaps, ∀ held ∈ cache profile.slot, held = chat.profileLine iso out profile

/-- The test for empty lists changes nothing: an empty list has no matching entry. -/
theorem guarded_any (first second : List Str) (left right : Str → Bool) :
    ((first ≠ [] || second ≠ []) && (first.any left || second.any right)) =
      (first.any left || second.any right) := by
  cases first <;> cases second <;> simp

variable {iso out chat} {uid : Uid} {user : User}

theorem hears_eq (hu : chat.server.users.lookup uid = some user) :
    chat.hears env key out.src opOnly uid = !chat.passedOver env key opOnly out uid user := by
  have hsignore : chat.server.signoreBlocks env out.src uid =
      (((chat.server.users.lookup out.src).elim [] User.signore).any (globMatch env · user.mask) ||
        user.signore.any
          (globMatch env · ((chat.server.users.lookup out.src).elim [] User.mask))) := by
    simp only [Server.signoreBlocks, Server.signoreOneWay, hu]
    cases chat.server.users.lookup out.src <;> simp
  simp only [hears, passedOver, hu, hsignore, guarded_any]
  simp [Bool.and_assoc]

theorem sendTagged_eq (hu : chat.server.users.lookup uid = some user) :
    chat.sendTagged caps iso out uid =
      [(uid, chat.profileLine iso out (chat.profile caps out uid))] := by
  cases hacc : chat.accountOf out.src <;> cases htag : (caps uid).accountTag <;>
    simp [sendTagged, profileLine, profile, hu, hacc, htag]

theorem fanStep_spec {fan : Fan} (hcached : chat.Cached iso out fan.1) (uid : Uid) :
    chat.Cached iso out (chat.fanStep caps iso env key opOnly out fan uid).1 ∧
      (chat.fanStep caps iso env key opOnly out fan uid).2 = fan.2 ++
        if chat.hears env key out.src opOnly uid then chat.sendTagged caps iso out uid else [] := by
  unfold fanStep
  cases hu : chat.server.users.lookup uid with
  | none => simp [hears, hu, hcached]
  | some user =>
    rw [hears_eq env key opOnly hu, sendTagged_eq caps hu]
    cases hpass : chat.passedOver env key opOnly out uid user with
    | true => simp [hpass, hcached]
    | false =>
      have hline : (fan.1 (chat.profile caps out uid).slot).getD
          (chat.profileLine iso out (chat.profile caps out uid)) =
          chat.profileLine iso out (chat.profile caps out uid) := by
        cases hheld : fan.1 (chat.profile caps out uid).slot with
        | none => rfl
        | some held => exact hcached _ held hheld
      simp only [hpass, Bool.false_eq_true, if_false, Bool.not_false, if_true, hline, and_true]
      intro profile held hheld
      by_cases hslot : profile.slot = (chat.profile caps out uid).slot
      · rw [hslot, Function.update_self] at hheld
        rw [TagCaps.slot_inj hslot, ← Option.some.inj hheld]
      · rw [Function.update_of_ne hslot] at hheld
        exact hcached _ held hheld

/-- Sharing the lines sends every recipient the line it would be sent alone. -/
theorem fanOut_eq_sendTagged (caps : Uid → TagCaps) (iso : Timestamp → Str) (env : Env) (key : Str)
    (opOnly : Bool) (out : Outgoing) (chat : Chat) :
    chat.fanOut caps iso env key opOnly out =
      ((chat.members key).filter (chat.hears env key out.src opOnly)).flatMap
        (chat.sendTagged caps iso out) := by
  suffices hloop : ∀ (members : List Uid) (fan : Fan), chat.Cached iso out fan.1 →
      (members.foldl (chat.fanStep caps iso env key opOnly out) fan).2 =
        fan.2 ++ (members.filter (chat.hears env key out.src opOnly)).flatMap
          (chat.sendTagged caps iso out) from
    hloop _ _ nofun
  intro members
  induction members with
  | nil => simp
  | cons uid members ih =>
    intro fan hcached
    obtain ⟨hnext, hout⟩ := fanStep_spec caps env key opOnly hcached uid
    rw [List.foldl_cons, ih _ hnext, hout, List.append_assoc]
    cases hhears : chat.hears env key out.src opOnly uid <;> simp [hhears]

end Chat

end EchoIrcd
