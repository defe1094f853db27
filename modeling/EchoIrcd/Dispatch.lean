import EchoIrcd.Lib.Screen
import EchoIrcd.Overheard
import EchoIrcd.Registration

/-!
# How a client line is dispatched

`Ircd::dispatch` and `multiline.rs`.  A line for an open batch is put aside.
Any other line is put to the pre-command gates of the modules, a PRIVMSG or
NOTICE then to their pre-message gates, and the command is looked up.  An
unknown command may be an alias.  A batch that is closed is delivered line by
line.

Commands other than PRIVMSG, NOTICE and BATCH are parameters: none of them
delivers a text under the name of the client (RELAYMSG delivers one under a
name that nobody has).  The hooks of the modules are parameters too; they may
change all of the state but the open batches.  The FAIL line for a batch that
is too long is left out.
-/

namespace EchoIrcd

open Str

structure Core (σ : Type) where
  chat : Chat
  ext : σ

structure Module (σ : Type) where
  onPreCommand : Uid → Str → List Str → Core σ → Core σ × ModResult :=
    fun _ _ _ core => (core, .passthru)
  onPreMessage : Uid → Str → Str → Core σ → Core σ × ModResult :=
    fun _ _ _ core => (core, .passthru)
  onPostCommand : Uid → Str → Core σ → Core σ := fun _ _ core => core

inductive Handler (σ : Type) where
  | say (kind : MsgKind)
  | batch
  | silent (handle : Uid → List Str → Core σ → Core σ)

structure Registered (σ : Type) where
  name : Str
  minParams : Nat := 0
  beforeReg : Bool := false
  handler : Handler σ

structure SilentCommand (σ : Type) where
  name : Str
  minParams : Nat := 0
  beforeReg : Bool := false
  handle : Uid → List Str → Core σ → Core σ

structure Daemon (σ : Type) where
  env : Env
  conf : ChatConf
  modules : List (Module σ)
  silent : List (SilentCommand σ) := []
  /-- The file that is configured under the name of a command, sent to the client. -/
  showfile : Uid → Str → Core σ → Option (Core σ) := fun _ _ _ => none
  /-- A quit that the command asked for, or the end of a registration. -/
  settle : Uid → Bool → Core σ → Core σ := fun _ _ core => core

def ModResult.denies (verdict : ModResult) : Bool := verdict = .deny

abbrev GateEvent := Screen.Event (Uid × Str × Str) ModResult

/-! ## Texts -/

def Shown.spoken : Shown → Option Str
  | .message _ _ _ _ text => some text
  | _ => none

def Out.spoken : Out → Option Str
  | .message _ _ _ text => some text
  | _ => none

/-- The texts of the message lines that were written to clients and links. -/
def Chat.spoken (chat : Chat) : List Str :=
  ((chat.shown.filterMap fun entry => entry.2.spoken) ++
    chat.server.sent.filterMap fun entry => entry.2.spoken).dedup

/-! ## Batches -/

namespace MlineBatch

def accumulate (conf : ChatConf) (notice : Bool) (text : Str) (concat : Bool)
    (batch : MlineBatch) : MlineBatch :=
  if batch.parts.length < conf.multilineMaxlines ∧
      batch.bytes + byteLength text ≤ conf.multilineMaxbytes then
    { batch with
      notice := notice
      bytes := batch.bytes + byteLength text
      parts := batch.parts ++ [(text, concat)] }
  else { batch with overflowed := true }

def addPart (lines : List Str) (part : Str × Bool) : List Str :=
  if part.2 then
    match lines.getLast? with
    | some last => lines.dropLast ++ [last ++ part.1]
    | none => [part.1]
  else lines ++ [part.1]

def lines (batch : MlineBatch) : List Str := batch.parts.foldl addPart []

end MlineBatch

namespace Chat

def openBatch (uid : Uid) (bref target : Str) (chat : Chat) : Chat :=
  { chat with batches := chat.batches.insert uid { bref := bref, target := target } }

def batchUnder (uid : Uid) (bref : Str) (chat : Chat) : Option MlineBatch :=
  (chat.batches.lookup uid).filter (·.bref = bref)

def accumulate (conf : ChatConf) (uid : Uid) (bref : Str) (notice : Bool) (text : Str)
    (concat : Bool) (chat : Chat) : Option Chat :=
  (chat.batchUnder uid bref).map fun batch =>
    { chat with
      batches := chat.batches.insert uid (batch.accumulate conf notice text concat) }

def closeBatch (uid : Uid) (bref : Str) (chat : Chat) : Chat × Option MlineBatch :=
  match chat.batchUnder uid bref with
  | none => (chat, none)
  | some batch =>
    ({ chat with batches := chat.batches.erase uid },
      if batch.overflowed then none else some batch)

end Chat

/-! ## Delivering a line -/

namespace Daemon

variable {σ : Type} (daemon : Daemon σ)

section

variable (uid : Uid) (cmd : Str) (params : List Str) (registered : Bool) (core : Core σ)

def say (kind : MsgKind) (params : List Str) (core : Core σ) : Core σ × List GateEvent :=
  let chat := core.chat.quiet.deliver daemon.env daemon.conf uid kind params
  ({ core with chat := chat }, chat.spoken.map fun text => .released (uid, params.headD [], text))

def sayAll (uid : Uid) (kind : MsgKind) (target : Str) : List Str → Core σ →
    Core σ × List GateEvent
  | [], core => (core, [])
  | line :: lines, core =>
    let said := daemon.say uid kind [target, line] core
    let rest := sayAll uid kind target lines said.1
    (rest.1, said.2 ++ rest.2)

def batch (uid : Uid) (params : List Str) (core : Core σ) : Core σ × List GateEvent :=
  match params with
  | ('+' :: bref) :: rest =>
    if rest.head? = some "draft/multiline".toList then
      ({ core with chat := core.chat.openBatch uid bref (rest[1]?.getD []) }, [])
    else (core, [])
  | ('-' :: bref) :: _ =>
    let closed := core.chat.closeBatch uid bref
    match closed.2 with
    | none => ({ core with chat := closed.1 }, [])
    | some batch =>
      daemon.sayAll uid (if batch.notice then .notice else .privmsg) batch.target batch.lines
        { core with chat := closed.1 }
  | _ => (core, [])

/-! ## Commands -/

def commands : List (Registered σ) :=
  [⟨"PRIVMSG", 0, false, .say .privmsg⟩, ⟨"NOTICE", 0, false, .say .notice⟩,
    ⟨"BATCH", 1, false, .batch⟩] ++
    daemon.silent.map fun command =>
      ⟨command.name, command.minParams, command.beforeReg, .silent command.handle⟩

def find (cmd : Str) : Option (Registered σ) := daemon.commands.find? (·.name = cmd)

/-- With `abbreviation`, the start of exactly one command stands for it. -/
def resolve (typed : Str) : Str :=
  if (daemon.find typed).isSome || !(registered && daemon.conf.abbreviation) then typed
  else
    match (daemon.commands.map Registered.name).filter typed.isPrefixOf with
    | [full] => full
    | _ => typed

def aliasTarget : Option Str :=
  daemon.conf.aliases.findSome? fun line =>
    match words line with
    | name :: target :: _ => if eqIgnoreAsciiCase name cmd then some target else none
    | _ => none

def unknown : Core σ × List GateEvent :=
  match daemon.showfile uid cmd core with
  | some shown => (shown, [])
  | none =>
    match daemon.aliasTarget cmd with
    | some target =>
      if params = [] then (core, [])
      else daemon.say uid .privmsg [target, List.intercalate [' '] params] core
    | none =>
      ({ core with chat := core.chat.numeric uid 421 (cmd ++ " :Unknown command".toList) }, [])

def handle (uid : Uid) (params : List Str) (core : Core σ) :
    Handler σ → Core σ × List GateEvent
  | .say kind => daemon.say uid kind params core
  | .batch => daemon.batch uid params core
  | .silent handle => (handle uid params core, [])

def finish : Core σ :=
  daemon.settle uid registered
    (daemon.modules.foldl (fun core module => module.onPostCommand uid cmd core) core)

/-- The part of `dispatch` behind the gates. -/
def perform : Core σ × List GateEvent :=
  match daemon.find cmd with
  | none => if registered then daemon.unknown uid cmd params core else (core, [])
  | some command =>
    if !registered && !command.beforeReg then
      ({ core with chat := core.chat.numeric uid 451 ":You have not registered" }, [])
    else if params.length < command.minParams then
      ({ core with
        chat := core.chat.numeric uid 461 (cmd ++ " :Not enough parameters".toList) }, [])
    else
      let handled := daemon.handle uid params core command.handler
      (daemon.finish uid cmd registered handled.1, handled.2)

/-! ## Gates -/

def isMessage : Bool := cmd = "PRIVMSG".toList || cmd = "NOTICE".toList

def preCommand : Core σ × List ModResult × Bool :=
  Screen.ask ModResult.denies
    (daemon.modules.map fun module => module.onPreCommand uid cmd params) core

def preMessage (target text : Str) (core : Core σ) : Core σ × List ModResult × Bool :=
  Screen.ask ModResult.denies
    (daemon.modules.map fun module => module.onPreMessage uid target text) core

def offer : Core σ × List GateEvent :=
  match isMessage cmd, params with
  | true, target :: text :: _ =>
    let asked := daemon.preMessage uid target text core
    if asked.2.2 then
      let performed := daemon.perform uid cmd params registered asked.1
      (performed.1, Screen.offers (uid, target, text) asked.2.1 ++ performed.2)
    else (asked.1, Screen.offers (uid, target, text) asked.2.1)
  | _, _ => daemon.perform uid cmd params registered core

def buffer (message : Message) (core : Core σ) : Option (Core σ) :=
  match message.batch, message.params with
  | some bref, _ :: text :: _ =>
    if isMessage cmd then
      (core.chat.accumulate daemon.conf uid bref (cmd = "NOTICE".toList) text
        message.concat).map fun chat => { core with chat := chat }
    else none
  | _, _ => none

def dispatch (message : Message) (registered : Bool) (core : Core σ) : Core σ × List GateEvent :=
  let cmd := daemon.resolve registered message.command
  let keepalive : List Str := ["PING", "PONG", "QUIT"]
  if registered && cmd ∉ keepalive && core.chat.server.userShunned daemon.env uid then (core, [])
  else
    match daemon.buffer uid cmd message core with
    | some buffered => (buffered, [])
    | none =>
      let asked := daemon.preCommand uid cmd message.params core
      if asked.2.2 then daemon.offer uid cmd message.params registered asked.1
      else (asked.1, [])

/-- A line held back during the lookups counts as one that arrives when it is replayed. -/
def onLine (line : Str) (core : Core σ) : Core σ × List GateEvent :=
  match parse line with
  | none => (core, [])
  | some message => daemon.dispatch uid message (core.chat.server.isEnrolled uid) core

/-! ## Runs -/

/-- A client line, or anything else that happens in between. -/
inductive Event (σ : Type) where
  | line (uid : Uid) (text : Str)
  | meanwhile (core : Core σ)

def step : Event σ → Core σ × List GateEvent
  | .line uid text => daemon.onLine uid text core
  | .meanwhile core => (core, [])

end

def trail : Core σ → List (Event σ) → List GateEvent
  | _, [] => []
  | core, event :: events =>
    (daemon.step core event).2 ++ trail (daemon.step core event).1 events

end Daemon

end EchoIrcd
