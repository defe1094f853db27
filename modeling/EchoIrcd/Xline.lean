import EchoIrcd.Authority

/-!
# X-lines and spam filters

Server bans as the link layer uses them (`xline.rs`): a line that arrives from
a peer replaces an equal one and disconnects every registered local user it
matches.  Spam filters (`filter.rs`) arrive as metadata of the pseudo-target
`*` and replace a rule with the same pattern.
-/

namespace EchoIrcd

open Str

def XLine.active (now : Timestamp) (xline : XLine) : Bool :=
  xline.expires = 0 ∨ now < xline.expires

def XLine.covers (env : Env) (now : Timestamp) (kind : XKind)
    (userHost ip : Str) (xline : XLine) : Bool :=
  xline.kind = kind && xline.active now &&
    globMatch env xline.mask (if kind = .zline then ip else userHost)

def saturatingAdd (left right : UInt64) : UInt64 :=
  if left.toNat + right.toNat < 2 ^ 64 then left + right
  else UInt64.ofNat (2 ^ 64 - 1)

namespace Server

variable (env : Env) (server : Server)

def matchedJupe (name : Str) : Option Str :=
  (server.xlines.find? fun xline =>
    xline.kind = .jupe && xline.active server.clock &&
      globMatch env (toAsciiLower xline.mask) (toAsciiLower name)).map XLine.reason

def matchedXline (ident host ip : Str) : Option Str :=
  let userHost := ident ++ '@' :: host
  let covering := fun kind =>
    server.xlines.find? (XLine.covers env server.clock kind userHost ip)
  if (covering .eline).isSome then none
  else ([XKind.kline, .gline, .zline].findSome? covering).map fun xline =>
    xline.kind.tag ++ "-lined: " ++ xline.reason ++
      env.banExpirySuffix xline.expires server.clock

def xlineVictims : List (Uid × Str) :=
  (Table.toPairs server.users).filterMap fun (uid, user) =>
    if user.registered then
      (server.matchedXline env user.ident user.host user.ip).map (uid, ·)
    else none

def enforceXlines : Server :=
  (server.xlineVictims env).foldl
    (fun server victim => server.removeUser victim.1 victim.2) server

def addXlineAt (kind : XKind) (mask : Str) (duration : UInt64) (setter reason : Str)
    (setAt : Timestamp) (server : Server) : Server :=
  let kept := server.xlines.filter fun xline =>
    !(xline.kind = kind ∧ xline.mask = mask)
  let expires := if duration = 0 then 0 else saturatingAdd setAt duration
  enforceXlines env { server with
    xlines := kept ++ [⟨kind, mask, reason, setter, expires, setAt⟩] }

@[simps]
def removeXline (kind : XKind) (mask : Str) (server : Server) : Server :=
  { server with
    xlines := server.xlines.filter fun xline =>
      !(xline.kind = kind ∧ eqIgnoreAsciiCase xline.mask mask) }

def hasXline (kind : XKind) (mask : Str) : Bool :=
  server.xlines.any fun xline =>
    xline.kind = kind ∧ eqIgnoreAsciiCase xline.mask mask

/-! ## Bursts -/

def saturatingSub (left right : UInt64) : UInt64 :=
  if right ≤ left then left - right else 0

def xlineBurst : List Out :=
  (server.xlines.filter (·.kind ≠ .svshold)).map fun xline =>
    .addline server.conf.sid xline.kind.tag xline.mask xline.setter
      server.clock
      (if xline.expires = 0 then 0 else saturatingSub xline.expires server.clock)
      xline.reason

end Server

/-! ## Spam filters -/

def actionFromWire (action : Str) : Str :=
  let action := toAsciiLower action
  if action ∈ (["gline", "zline", "silent", "kill"] : List Str) then action
  else "block"

def actionToWire (action : Str) : Str :=
  if action = "kline" then "gline"
  else if action ∈ (["gline", "zline", "silent", "kill"] : List Str) then action
  else "block"

def replaceChar (old new : Char) (text : Str) : Str :=
  text.map fun char => if char = old then new else char

def decodeFilter (env : Env) (value engine : Str) : Option SpamFilter := do
  let (freeform, rest) ← splitOnce ' ' value
  let (action, rest) ← splitOnce ' ' rest
  let (_, rest) ← splitOnce ' ' rest
  let (duration, reason) := match splitOnce ' ' rest with
    | some (duration, reason) =>
      (duration, match reason with
        | ':' :: text => text
        | text => text)
    | none => (rest, ("Filtered" : Str))
  let pattern := replaceChar (Char.ofNat 7) ' ' freeform
  if env.patternCompiles engine pattern then
    some ⟨pattern, engine, actionFromWire action, (parseU64 duration).getD 0, reason⟩
  else none

def encodeFilter (rule : SpamFilter) : Str :=
  replaceChar ' ' (Char.ofNat 7) rule.pattern ++ ' ' ::
    actionToWire rule.action ++ " pn " ++ renderU64 rule.duration ++
    " :" ++ rule.reason

namespace Server

def applyFilterMetadata (env : Env) (value : Str) (server : Server) : Server :=
  match decodeFilter env value server.conf.filterEngine with
  | some rule =>
    { server with
      filters := server.filters.filter (·.pattern ≠ rule.pattern) ++ [rule] }
  | none => server

def filterBurst (server : Server) : List Out :=
  server.filters.map fun rule =>
    .metadata server.conf.sid "*" "filter" (encodeFilter rule)

end Server

end EchoIrcd
