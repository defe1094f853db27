import EchoIrcd.Jwt

/-!
# Push subscriptions

WEBPUSH keeps endpoints under the account of a client or, without one, under
its nick, both in lower case and in one table; a private message or a
highlight is pushed to the endpoints under the name of its recipient
(`webpush.rs`).  The base64 of the library, encryption and the signature of
the request are parameters.
-/

namespace EchoIrcd

open Str List

structure Sub where
  endpoint : Str
  p256dh : Octets
  auth : Octets
  deriving DecidableEq, Repr

abbrev Subs := Table Str (List Sub)

structure PushConf where
  base64 : Base64
  /-- `webpush`, and the key of the server is there -/
  available : Bool := true
  awayOnly : Bool := true
  /-- the payload can be encrypted for the endpoint and the request signed -/
  seals : Sub → Str → Bool := fun _ _ => true

/-- A request to an endpoint, made for the sake of one recipient. -/
structure Push where
  recipient : Uid
  sub : Sub
  payload : Str
  deriving DecidableEq, Repr

inductive PushReply where
  | fail (code text : Str)
  | registered (endpoint : Str)
  | unregistered (endpoint : Str)
  deriving DecidableEq, Repr

def Server.accountName (server : Server) (uid : Uid) : Option Str :=
  (server.users.lookup uid).bind User.account

namespace WebPush

def identity (server : Server) (uid : Uid) : Str :=
  match server.users.lookup uid with
  | some user => toAsciiLower (user.account.getD user.nick)
  | none => []

theorem identity_of_account {server : Server} {uid : Uid} {account : Str}
    (hacc : server.accountName uid = some account) :
    identity server uid = toAsciiLower account := by
  obtain ⟨user, hu, hacc⟩ := Option.bind_eq_some_iff.mp hacc
  rw [identity, hu]
  simp only [hacc, Option.getD_some]

/-! ## WEBPUSH -/

def readKeys (base64 : Base64) (keys : Str) : Option Octets × Option Octets :=
  (keys.splitOn ';').foldl
    (fun (p256dh, auth) pair => match splitOnce '=' pair with
      | some (key, value) =>
        if key = "p256dh" then (base64.unurl value, auth)
        else if key = "auth" then (p256dh, base64.unurl value)
        else (p256dh, auth)
      | none => (p256dh, auth))
    (none, none)

def add (key : Str) (sub : Sub) (subs : Subs) : Subs :=
  subs.insert key
    (((subs.lookup key).getD []).filter (·.endpoint ≠ sub.endpoint) ++ [sub])

def remove (key endpoint : Str) (subs : Subs) : Subs :=
  match subs.lookup key with
  | none => subs
  | some list =>
    let kept := list.filter (·.endpoint ≠ endpoint)
    if kept = [] then subs.erase key else subs.insert key kept

def readRegister (base64 : Base64) (endpoint keys : Str) : Except PushReply Sub :=
  if ("https://" : Str).isPrefixOf endpoint = false then
    .error (.fail "INVALID_PARAMS" "endpoint must be https")
  else
    match readKeys base64 keys with
    | (some p256dh, some auth) =>
      if p256dh.length ≠ 65 ∨ auth.length ≠ 16 then
        .error (.fail "INVALID_PARAMS" "bad key length")
      else .ok ⟨endpoint, p256dh, auth⟩
    | _ => .error (.fail "INVALID_PARAMS" "keys must be p256dh=<b64url>;auth=<b64url>")

def handle (conf : PushConf) (server : Server) (uid : Uid) (params : List Str) (subs : Subs) :
    Subs × PushReply :=
  if conf.available = false then
    (subs, .fail "TEMPORARILY_UNAVAILABLE" "Web push is not available")
  else
    let subcommand := toAsciiUpper (params.headD [])
    if subcommand = "REGISTER" then
      match params with
      | _ :: endpoint :: keys :: _ =>
        match readRegister conf.base64 endpoint keys with
        | .ok sub => (add (identity server uid) sub subs, .registered endpoint)
        | .error reply => (subs, reply)
      | _ => (subs, .fail "NEED_MORE_PARAMS" "WEBPUSH REGISTER <endpoint> <keys>")
    else if subcommand = "UNREGISTER" then
      match params with
      | _ :: endpoint :: _ => (remove (identity server uid) endpoint subs, .unregistered endpoint)
      | _ => (subs, .fail "NEED_MORE_PARAMS" "WEBPUSH UNREGISTER <endpoint>")
    else (subs, .fail "INVALID_PARAMS" ("unknown WEBPUSH subcommand " ++ subcommand))

def accepted (conf : PushConf) (params : List Str) : Option Sub :=
  if conf.available = true ∧ toAsciiUpper (params.headD []) = "REGISTER" then
    match params with
    | _ :: endpoint :: keys :: _ => (readRegister conf.base64 endpoint keys).toOption
    | _ => none
  else none

def withdrawn (conf : PushConf) (params : List Str) : Option Str :=
  if conf.available = true ∧ toAsciiUpper (params.headD []) = "UNREGISTER" then params[1]?
  else none

theorem handle_cases (conf : PushConf) (server : Server) (uid : Uid) (params : List Str)
    (subs : Subs) :
    (∃ sub, accepted conf params = some sub ∧
      (handle conf server uid params subs).1 = add (identity server uid) sub subs) ∨
    (∃ endpoint, accepted conf params = none ∧ withdrawn conf params = some endpoint ∧
      (handle conf server uid params subs).1 = remove (identity server uid) endpoint subs) ∨
    (accepted conf params = none ∧ withdrawn conf params = none ∧
      (handle conf server uid params subs).1 = subs) := by
  unfold handle accepted withdrawn
  cases conf.available with
  | false =>
    exact .inr (.inr ⟨if_neg (Bool.false_ne_true ·.1), if_neg (Bool.false_ne_true ·.1), rfl⟩)
  | true =>
    simp only [Bool.true_eq_false, if_false, true_and]
    generalize toAsciiUpper (params.headD []) = subcommand
    by_cases hreg : subcommand = "REGISTER"
    · rw [if_pos hreg, if_pos hreg,
        if_neg fun ho => absurd (hreg.symm.trans ho) (by decide)]
      split
      · split
        · rename_i sub hread
          exact .inl ⟨sub, by rw [hread, Except.toOption], rfl⟩
        · rename_i hread
          exact .inr (.inr ⟨by rw [hread, Except.toOption], rfl, rfl⟩)
      · exact .inr (.inr ⟨rfl, rfl, rfl⟩)
    · rw [if_neg hreg, if_neg hreg]
      by_cases hunregister : subcommand = "UNREGISTER"
      · rw [if_pos hunregister, if_pos hunregister]
        match params with
        | [] | [_] => exact .inr (.inr ⟨rfl, rfl, rfl⟩)
        | _ :: endpoint :: _ => exact .inr (.inl ⟨endpoint, rfl, rfl, rfl⟩)
      · rw [if_neg hunregister, if_neg hunregister]
        exact .inr (.inr ⟨rfl, rfl, rfl⟩)

/-! ## Messages -/

def escapeChar (char : Char) : Str :=
  if char = '"' then "\\\""
  else if char = '\\' then "\\\\"
  else if char = '\n' then "\\n"
  else if char = '\r' then "\\r"
  else if char = '\t' then "\\t"
  else if char.toNat < 0x20 then
    let digits := Nat.toDigits 16 char.toNat
    "\\u" ++ replicate (4 - digits.length) '0' ++ digits
  else [char]

def payloadJson (sender target text : Str) : Str :=
  "\x7b\"from\":\"" ++ sender.flatMap escapeChar ++ "\",\"target\":\"" ++
    target.flatMap escapeChar ++ "\",\"body\":\"" ++ text.flatMap escapeChar ++ "\"\x7d"

def mentions (text nick : Str) : Bool :=
  ((toAsciiLower text).splitOnP fun char =>
    isWhitespace char || char ∈ (",:;.!?<>()\"" : Str)).any (· = toAsciiLower nick)

def recipients (sender : Uid) (target text : Str) (server : Server) : List Uid :=
  if target.head? = some '#' then
    match server.channels.lookup (toAsciiLower target) with
    | some channel => channel.members.keys.filter fun member =>
      member ≠ sender && (server.users.lookup member).any fun user => mentions text user.nick
    | none => []
  else
    match server.findNick target with
    | some member => if member = sender then [] else [member]
    | none => []

def reachable (conf : PushConf) (member : Uid) (chat : Chat) : Bool :=
  member ∈ chat.server.users && (!conf.awayOnly || (chat.manner member).away.isSome)

def maybePush (conf : PushConf) (subs : Subs) (sender : Uid) (target text : Str) (chat : Chat) :
    List Push :=
  if conf.available then
    let nick := ((chat.server.users.lookup sender).map User.nick).getD []
    let payload := payloadJson nick target text
    ((recipients sender target text chat.server).filter fun member =>
      reachable conf member chat).flatMap fun member =>
      (((subs.lookup (identity chat.server member)).getD []).filter
        fun sub => conf.seals sub payload).map fun sub => ⟨member, sub, payload⟩
  else []

theorem mem_add {key other : Str} {sub found : Sub} {subs : Subs}
    (hf : found ∈ ((add key sub subs).lookup other).getD []) :
    (other = key ∧ found = sub) ∨
      (found ∈ (subs.lookup other).getD [] ∧ ¬ (other = key ∧ found.endpoint = sub.endpoint)) := by
  rw [add, Table.lookup_insert_eq] at hf
  split at hf
  · rename_i ho
    rw [Option.getD_some, mem_append, mem_singleton, mem_filter] at hf
    rcases hf with ⟨hold, hne⟩ | hnew
    · right
      rw [ho]
      exact ⟨hold, fun hs => of_decide_eq_true hne hs.2⟩
    · exact .inl ⟨ho, hnew⟩
  · rename_i ho
    exact .inr ⟨hf, fun hs => ho hs.1⟩

theorem mem_remove {key endpoint other : Str} {found : Sub} {subs : Subs}
    (hf : found ∈ ((remove key endpoint subs).lookup other).getD []) :
    found ∈ (subs.lookup other).getD [] ∧ ¬ (other = key ∧ found.endpoint = endpoint) := by
  unfold remove at hf
  cases hlist : subs.lookup key with
  | none =>
    rw [hlist] at hf
    refine ⟨hf, ?_⟩
    rintro ⟨rfl, -⟩
    rw [hlist] at hf
    cases hf
  | some list =>
    simp only [hlist] at hf
    split at hf
    · rw [Table.lookup_erase_eq] at hf
      split at hf
      · cases hf
      · rename_i ho
        exact ⟨hf, fun hs => ho hs.1⟩
    · rw [Table.lookup_insert_eq] at hf
      split at hf
      · rename_i ho
        rw [Option.getD_some, mem_filter] at hf
        rw [ho, hlist]
        exact ⟨hf.1, fun hs => of_decide_eq_true hf.2 hs.2⟩
      · rename_i ho
        exact ⟨hf, fun hs => ho hs.1⟩

theorem mem_maybePush {conf : PushConf} {subs : Subs} {sender : Uid} {target text : Str}
    {chat : Chat} {push : Push} :
    push ∈ maybePush conf subs sender target text chat ↔ conf.available = true ∧
      push.recipient ∈ recipients sender target text chat.server ∧
      reachable conf push.recipient chat = true ∧
      push.sub ∈ (subs.lookup (identity chat.server push.recipient)).getD [] ∧
      conf.seals push.sub push.payload = true ∧
      push.payload =
        payloadJson (((chat.server.users.lookup sender).map User.nick).getD []) target text := by
  unfold maybePush
  split
  · rename_i havailable
    simp only [mem_flatMap, mem_map, mem_filter, havailable, true_and]
    constructor
    · rintro ⟨member, ⟨hmb, hreach⟩, sub, ⟨hsub, hseals⟩, rfl⟩
      exact ⟨hmb, hreach, hsub, hseals, rfl⟩
    · rintro ⟨hmb, hreach, hsub, hseals, hpayload⟩
      rw [hpayload] at hseals
      exact ⟨_, ⟨hmb, hreach⟩, _, ⟨hsub, hseals⟩, by rw [← hpayload]⟩
  · simp_all

end WebPush

end EchoIrcd
