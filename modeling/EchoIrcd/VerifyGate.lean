import EchoIrcd.Jwt
import EchoIrcd.Registration

/-!
# Registration behind a human check

Two modules hold a registration until the client has shown a signed token that
names its address (`recaptcha.rs`, `cloudflare_challenge.rs`), is let through by
its port or has an address that the verifier cleared (`verify_common.rs`).
They differ in their settings, their command and their texts.  A held client
is sent a token in the link to the verifier.
-/

namespace EchoIrcd

open Str

inductive VerifyGate where
  | recaptcha
  | cloudflare
  deriving DecidableEq, Repr

structure GateConf where
  on : Bool := false
  secret : Option Str := none
  url : Option Str := none
  issuer : Str := "echoIRCd"
  ttl : Int := 1800
  whitelistports : List Str := []
  message : Option Str := none

namespace GateConf

def enabled (conf : GateConf) : Bool :=
  conf.on && conf.secret.any (· ≠ []) && conf.url.any (· ≠ [])

def lets (conf : GateConf) (port : Nat) : Bool :=
  conf.whitelistports.any fun line =>
    ((line.splitOnP fun char => char = ',' || char = ' ').filter (· ≠ [])).any fun word =>
      toNatBelow (2 ^ 16) word = some port

def clampedTtl (conf : GateConf) : Int := max 60 (min conf.ttl 86400)

end GateConf

namespace VerifyGate

def defaultMessage : VerifyGate → Str
  | recaptcha => "*** reCAPTCHA: verify your connection at \x7burl\x7d"
  | cloudflare => "*** Cloudflare Challenge: verify your connection at \x7burl\x7d"

def badToken : VerifyGate → Str
  | recaptcha => "invalid or tampered token. Please reconnect and verify again."
  | cloudflare => "invalid or tampered token. Reconnect and verify again."

end VerifyGate

def renderInt (number : Int) : Str :=
  if number < 0 then '-' :: Str.ofNat number.natAbs else Str.ofNat number.natAbs

def tokenClaims (issuer ip : Str) (issued expires : Int) : Str :=
  "\x7b\"iss\":\"" ++ issuer ++ "\",\"ip\":\"" ++ ip ++ "\",\"iat\":" ++ renderInt issued ++
    ",\"exp\":" ++ renderInt expires ++ "\x7d"

def replaceAll (pattern value : Str) : Nat → Str → Str
  | 0, text => text
  | _, [] => []
  | fuel + 1, first :: rest =>
    if pattern.isPrefixOf (first :: rest) then
      value ++ replaceAll pattern value fuel ((first :: rest).drop pattern.length)
    else first :: replaceAll pattern value fuel rest

/-- A token handed to a client, inside the notice that carries it. -/
structure Challenge where
  uid : Uid
  token : Str
  notice : Str
  deriving DecidableEq, Repr

structure Checkpoint where
  lobby : Lobby
  passed : VerifyGate → List Uid := fun _ => []
  challenged : VerifyGate → List Uid := fun _ => []
  /-- addresses the verifier cleared, with the time their record ends -/
  cleared : Table Str UInt64 := ∅
  sent : List Challenge := []

/-- What the gates and the registration they hold depend on. -/
structure GateSetting where
  env : LobbyEnv
  lobby : LobbyConf
  gates : VerifyGate → GateConf
  base64 : Base64
  hmac : Str → Str → Option Octets

namespace Checkpoint

variable (setting : GateSetting)

section

variable (gate : VerifyGate) (uid : Uid) (point : Checkpoint)

def now : Int := point.lobby.server.clock.toNat

def ipOf (uid : Uid) : Option Str :=
  (point.lobby.server.users.lookup uid).map User.ip

def ipCleared (uid : Uid) : Bool :=
  ((point.ipOf uid).bind fun ip => point.cleared.lookup ip).any
    fun expires => point.lobby.server.clock < expires

def portWhitelisted : Bool :=
  uid ∈ point.lobby.server.users &&
    (point.lobby.sessions.lookup uid).any fun session => (setting.gates gate).lets session.port

def makeToken : Option Str := do
  let conf := setting.gates gate
  let secret ← conf.secret
  let ip ← point.ipOf uid
  Jwt.signHs256 setting.base64 setting.hmac
    (tokenClaims conf.issuer ip point.now (point.now + conf.clampedTtl)) secret

def challengeNotice (nick token : Str) (point : Checkpoint) : Str :=
  let conf := setting.gates gate
  let base := conf.url.getD []
  let link := base ++ (if '?' ∈ base then '&' else '?') :: "token=" ++ token
  let template := conf.message.getD gate.defaultMessage
  ':' :: point.lobby.server.conf.name ++ " NOTICE " ++ nick ++ " :" ++
    replaceAll "\x7burl\x7d" link template.length template

def challenge : Checkpoint :=
  if uid ∈ point.challenged gate then point
  else
    let nick := ((point.lobby.server.users.lookup uid).map User.nick).getD []
    { point with
      challenged := Function.update point.challenged gate (uid :: point.challenged gate)
      sent := match point.makeToken setting gate uid with
        | some token => point.sent ++ [⟨uid, token, point.challengeNotice setting gate nick token⟩]
        | none => point.sent }

def opens : Bool :=
  !(setting.gates gate).enabled || point.lobby.server.isOper uid || uid ∈ point.passed gate ||
    point.portWhitelisted setting gate uid || point.ipCleared uid

def onUserRegister : Checkpoint × ModResult :=
  if point.opens setting gate uid then (point, .passthru)
  else (point.challenge setting gate uid, .hold)

def askModules (front : ModResult) (uid : Uid) (point : Checkpoint) : Checkpoint × ModResult :=
  match front with
  | .deny => (point, .deny)
  | .hold => (point, .hold)
  | _ =>
    match point.onUserRegister setting .recaptcha uid with
    | (point, .hold) => (point, .hold)
    | (point, _) => point.onUserRegister setting .cloudflare uid

def tryRegister (answers : Answers) (uid : Uid) (point : Checkpoint) : Checkpoint :=
  if point.lobby.isReady uid then
    let asked := point.askModules setting (answers.register point.lobby uid) uid
    { asked.1 with
      lobby := asked.1.lobby.completeRegistration setting.env setting.lobby
        { answers with register := fun _ _ => asked.2 } uid }
  else point

/-- The checks of CAPTCHA and VERIFYCHALLENGE, with the reason of a refusal. -/
def checkToken (token : Str) (point : Checkpoint) : Except Str Unit :=
  let conf := setting.gates gate
  match Jwt.verifyHs256 setting.base64 setting.hmac token (conf.secret.getD []) with
  | none => .error gate.badToken
  | some claims =>
    if Jwt.jsonStr claims "iss" ≠ some conf.issuer then .error "token issuer mismatch."
    else if Jwt.jsonStr claims "ip" ≠ some ((point.ipOf uid).getD []) then
      .error "token IP does not match. Reconnect and verify again."
    else if (Jwt.claimNum claims "exp").getD 0 ≤ point.now then
      .error "token has expired. Please verify again."
    else .ok ()

def present (token : Str) (point : Checkpoint) : Checkpoint :=
  if (setting.gates gate).enabled then
    match point.checkToken setting gate uid token with
    | .ok () => { point with
        passed := Function.update point.passed gate (uid :: point.passed gate) }
    | .error _ => point
  else point

def sweep : Checkpoint :=
  { point with
    passed := fun gate => (point.passed gate).filter (· ∈ point.lobby.server.users)
    challenged := fun gate => (point.challenged gate).filter (· ∈ point.lobby.server.users) }

end

end Checkpoint

end EchoIrcd
