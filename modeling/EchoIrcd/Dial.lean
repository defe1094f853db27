import EchoIrcd.Handshake
import EchoIrcd.Crossing

/-!
# Two servers that dial each other

Each of two servers dials the other, so there are two connections.  On every
connection the handshake lines, `SERVER` and `ERROR`, are delivered in order,
and a side that has closed its end hangs up once its last line is read.
Between these events a server may do anything that is no part of a handshake.
-/

namespace EchoIrcd

open Str

variable {server : Server} {uid : Uid}

namespace Server

@[simps]
def setClock (now : Timestamp) (server : Server) : Server :=
  { server with clock := now }

def handleEvent (env : Env) (now : Timestamp) (action : Server → Server)
    (server : Server) : Server :=
  (action (server.setClock now)).drainHooks env

def onLine (env : Env) (uid : Uid) (out : Out) (server : Server) : Server :=
  if uid ∈ server.links then
    match out.receive with
    | some message => server.onLink env uid message
    | none => server
  else server

theorem onLine_server {env : Env} {sentServer : Bool}
    (hstg : server.stage uid = some (false, sentServer, none)) {block : LinkBlock}
    {name sid : Str} (hpeer : Welcome env server block name sid) (hname : IsToken name)
    (hpass : IsToken block.password) (desc : Str) :
    server.onLine env uid (.server name block.password sid desc) =
      if sid ∈ server.servers then
        (server.touchLink uid).rejectLink uid "Bad or already-present SID"
      else (server.touchLink uid).acceptLink uid block name sid desc := by
  have hlink : uid ∈ server.links := mem_links_iff.mpr (by simp [hstg])
  have hpend : server.isRegistered uid = false := by
    simp [isRegistered_eq, hstg]
  have htch : Welcome env (server.touchLink uid) block name sid :=
    ⟨hpeer.jupe, hpeer.block, hpeer.valid, hpeer.ne⟩
  have hline := Out.receive_server hname hpass (isToken_of_validSid hpeer.valid) desc
  rw [onLine, if_pos hlink, hline]
  exact (onLink_server hpend env rfl).trans (linkServer_welcome htch uid rfl)

theorem onLine_error (hlink : uid ∈ server.links) (env : Env) (text : Str) :
    server.onLine env uid (.error text) = (server.touchLink uid).closeLink uid := by
  rw [onLine, if_pos hlink, Out.receive_error]
  exact server.onLink_error env uid rfl

theorem drainHooks_nil (hevs : server.events = []) (env : Env) :
    server.drainHooks env = server := by
  unfold drainHooks
  cases server
  simp only at hevs
  simp [hevs]

end Server

theorem EndStep.handleEvent {more : List Out} {stage : Option (Bool × Bool × Option Str)}
    {action : Server → Server} {now : Timestamp}
    (hstep : EndStep uid more stage (server.setClock now) (action (server.setClock now)))
    (hevs : server.events = []) (env : Env) :
    server.handleEvent env now action = action (server.setClock now) ∧
      EndStep uid more stage server (server.handleEvent env now action) := by
  have hdrained : server.handleEvent env now action = action (server.setClock now) :=
    Server.drainHooks_nil (hstep.events.trans hevs) env
  refine ⟨hdrained, ?_⟩
  rw [hdrained]
  exact ⟨hstep.conf, hstep.events, hstep.stage, hstep.handshakes⟩

/-- The two connections as each side sees them. -/
structure Dialling where
  env : Side → Env
  /-- the link of a side for the connection dialled by the second side -/
  port : Side → Side → Uid
  /-- the address a side dials -/
  addr : Side → Str
  port_ne : ∀ side dialler, port side dialler.other ≠ port side dialler

structure Dial where
  srv : Side → Server
  opened : Side → Side → Bool
  /-- how many handshake lines a side has read from a connection -/
  read : Side → Side → Nat

namespace Dial

variable (setup : Dialling) (net : Dial) (side dialler : Side)

def sent : List Out :=
  (net.srv side).handshakesTo (setup.port side dialler)

def inFlight : List Out :=
  (net.sent setup side.other dialler).drop (net.read side dialler)

def set (server : Server) (opened : Bool) (read : Nat) (net : Dial) : Dial where
  srv := Function.update net.srv side server
  opened := Function.update net.opened side
    (Function.update (net.opened side) dialler opened)
  read := Function.update net.read side
    (Function.update (net.read side) dialler read)

inductive Happening where
  | connect
  | deliver
  | hangup

def Enabled : Happening → Prop
  | .connect => net.opened side dialler = false
  | .deliver => net.opened side dialler = true ∧
      net.inFlight setup side dialler ≠ []
  | .hangup => net.opened side dialler = true ∧
      net.opened side.other dialler = true ∧
      net.inFlight setup side dialler = [] ∧
      setup.port side.other dialler ∉ (net.srv side.other).links ∧
      setup.port side dialler ∈ (net.srv side).links

def happen (now : Timestamp) (net : Dial) : Happening → Dial
  | .connect => net.set side dialler
      ((net.srv side).handleEvent (setup.env side) now fun server =>
        server.addLink (setup.port side dialler) (setup.addr side)
          (side = dialler)) true (net.read side dialler)
  | .deliver =>
    match net.inFlight setup side dialler with
    | [] => net
    | out :: _ => net.set side dialler
        ((net.srv side).handleEvent (setup.env side) now fun server =>
          server.onLine (setup.env side) (setup.port side dialler) out)
        true (net.read side dialler + 1)
  | .hangup => net.set side dialler
      ((net.srv side).handleEvent (setup.env side) now fun server =>
        server.closeLink (setup.port side dialler)) true (net.read side dialler)

end Dial

/-- A transition that is no part of a handshake. -/
structure Aside (before after : Server) : Prop where
  conf : after.conf = before.conf
  servers : after.servers = before.servers
  events : after.events = []
  stage : ∀ uid, after.stage uid = before.stage uid
  handshakes : ∀ uid, after.handshakesTo uid = before.handshakesTo uid

abbrev Dial.Guard := Dial → Side → Side → Timestamp → Dial.Happening → Prop

/-- One step of the two servers, in any order. -/
inductive DialStep (setup : Dialling) (guard : Dial.Guard) (net : Dial) :
    Dial → Prop where
  | happen (side dialler : Side) (happening : Dial.Happening) (now : Timestamp)
      (hen : net.Enabled setup side dialler happening)
      (hg : guard net side dialler now happening) :
      DialStep setup guard net (net.happen setup side dialler now happening)
  | aside {side : Side} {after : Server} (haside : Aside (net.srv side) after) :
      DialStep setup guard net { net with srv := Function.update net.srv side after }

/--
A side that reads a `SERVER` line has no jupe for the peer, and if it is going
to accept, the peer has not accepted the opposite connection.
-/
def Dial.civil (setup : Dialling) : Dial.Guard
  | net, side, dialler, now, .deliver => ∀ name pass sid desc,
      (net.inFlight setup side dialler).head? = some (.server name pass sid desc) →
      Server.matchedJupe (setup.env side) ((net.srv side).setClock now) name =
          none ∧
        (sid ∉ (net.srv side).servers → (net.srv side.other).isRegistered
          (setup.port side.other dialler.other) = false)
  | _, _, _, _, _ => True

structure Peered (setup : Dialling) (secret : Str) (conf : Side → Config) :
    Prop where
  named : ∀ side, ∃ block, (conf side).linkBlocks.find?
    (·.name = (conf side.other).name) = some block ∧ block.password = secret
  addressed : ∀ side, ∃ block, (conf side).linkBlocks.find?
    (·.ip = setup.addr side) = some block ∧ block.password = secret
  name : ∀ side, IsToken (conf side).name
  secret : IsToken secret
  sid : ∀ side, validSid (conf side).sid = true
  ne : ∀ side, (conf side.other).sid ≠ (conf side).sid

structure Dial.Fresh (setup : Dialling) (net : Dial) : Prop where
  opened : ∀ side dialler, net.opened side dialler = false
  read : ∀ side dialler, net.read side dialler = 0
  events : ∀ side, (net.srv side).events = []
  stage : ∀ side dialler, (net.srv side).stage (setup.port side dialler) = none
  sent : ∀ side dialler, net.sent setup side dialler = []
  servers : ∀ side, (net.srv side.other).conf.sid ∉ (net.srv side).servers
  strangers : ∀ side uid link, (net.srv side).links.lookup uid = some link →
    link.sid ≠ some (net.srv side.other).conf.sid

/-- A registered link to the server `sid`. -/
def Server.LinkedTo (server : Server) (sid : Str) (uid : Uid) : Prop :=
  ∃ link, server.links.lookup uid = some link ∧ link.registered = true ∧
    link.sid = some sid

def Dial.Quiescent (setup : Dialling) (net : Dial) : Prop :=
  ∀ side dialler, net.opened side dialler = true ∧
    net.inFlight setup side dialler = [] ∧
    (setup.port side dialler ∈ (net.srv side).links →
      setup.port side.other dialler ∈ (net.srv side.other).links)

end EchoIrcd
