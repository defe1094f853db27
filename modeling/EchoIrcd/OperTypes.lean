import EchoIrcd.ConnClass

/-!
# Oper classes and types

A class is a bundle of commands, privileges and modes; a type is built from
classes and is selected by an oper block (`opertypes.rs`).  The `class` and
`opertype` lines of the configuration extend the classes and types that ship
with the server.  The types are kept under their names as the configuration
writes them.
-/

namespace EchoIrcd

open Str

inductive ModeAllow where
  | all
  | only (letters : List Char)
  deriving DecidableEq, Repr

namespace ModeAllow

def allows : ModeAllow → Char → Bool
  | all, _ => true
  | only letters, letter => letter ∈ letters

def parse (value : Str) : ModeAllow :=
  if '*' ∈ value then all else only (value.filter Char.isAlpha)

def merge : Option ModeAllow → Option ModeAllow → Option ModeAllow
  | acc, none => acc
  | _, some all => some all
  | some all, some (only _) => some all
  | some (only existing), some (only letters) => some (only (existing ++ letters))
  | none, some (only letters) => some (only letters)

end ModeAllow

/-- What a typed operator may do, kept on the user from oper-up on. -/
structure OperGrant where
  title : Str := []
  allCommands : Bool := false
  commands : List Str := []
  denyCommands : List Str := []
  allPrivs : Bool := false
  privs : List Str := []
  denyPrivs : List Str := []
  usermodes : ModeAllow := .all
  chanmodes : ModeAllow := .all
  deriving DecidableEq, Repr

namespace OperGrant

def allowsCommand (grant : OperGrant) (command : Str) : Bool :=
  (grant.allCommands || command ∈ grant.commands) && command ∉ grant.denyCommands

def holds (grant : OperGrant) (priv : Str) : Bool :=
  (grant.allPrivs || priv ∈ grant.privs) && priv ∉ grant.denyPrivs

def allowsMode (grant : OperGrant) (letter : Char) (chan : Bool) : Bool :=
  if chan then grant.chanmodes.allows letter else grant.usermodes.allows letter

def full : OperGrant := { allCommands := true, allPrivs := true }

@[simp] theorem allowsCommand_full (command : Str) : full.allowsCommand command = true := by
  simp [full, allowsCommand]

@[simp] theorem holds_full (priv : Str) : full.holds priv = true := by
  simp [full, holds]

@[simp] theorem allowsMode_full (letter : Char) (chan : Bool) :
    full.allowsMode letter chan = true := by
  cases chan <;> rfl

end OperGrant

def gatedCommands : List Str :=
  ["KILL", "KLINE", "GLINE", "ZLINE", "QLINE", "ELINE", "RLINE", "SHUN", "CBAN", "CHECK",
    "NICKLOCK", "NICKUNLOCK", "SAJOIN", "SAPART", "SANICK", "SAKICK", "SAMODE", "SATOPIC",
    "SAQUIT", "CLEARCHAN", "SVSNICK", "SVSJOIN", "SVSPART", "SVSMODE", "SVSLOGIN",
    "SVSLOGOUT", "CHGHOST", "CHGIDENT", "CHGNAME", "SETHOST", "SETIDENT", "SETIDLE",
    "SWHOIS", "WALLOPS", "GLOBOPS", "CONNECT", "SQUIT", "DIE", "RESTART"]

def gated (command : Str) : Bool := toAsciiUpper command ∈ gatedCommands

/-! ## Classes and types -/

structure ClassDef where
  allCommands : Bool := false
  commands : List Str := []
  allPrivs : Bool := false
  privs : List Str := []
  denyCommands : List Str := []
  denyPrivs : List Str := []
  allSnomasks : Bool := false
  snomasks : Str := []
  usermodes : Option ModeAllow := none
  chanmodes : Option ModeAllow := none
  deriving DecidableEq, Repr

structure TypeDef extends ClassDef where
  title : Str := []
  allClasses : Bool := false
  classes : List Str := []
  modes : Str := []
  vhost : Option Str := none
  level : Option UInt32 := none
  deriving DecidableEq, Repr

structure ResolvedType where
  grant : OperGrant
  modes : Str := []
  snomasks : Option Str := none
  allSnomasks : Bool := false
  vhost : Option Str := none
  level : Option UInt32 := none
  deriving DecidableEq, Repr

namespace OperTypes

/-- The tokens of a comma list: `*` for all, `-X` to deny and `X` to allow. -/
def foldTokens (value : Str) (norm : Str → Str) (all : Bool) (allow deny : List Str) :
    Bool × List Str × List Str :=
  (commaList value).foldl
    (fun (all, allow, deny) (token : Str) =>
      if token = "*" then (true, allow, deny)
      else match token with
        | '-' :: first :: rest => (all, allow, deny ++ [norm (first :: rest)])
        | _ => (all, allow ++ [norm token], deny))
    (all, allow, deny)

def applyClassKv (rules : ClassDef) (key value : Str) : ClassDef :=
  if key = "commands" ∨ key = "cmds" then
    let (all, allow, deny) :=
      foldTokens value toAsciiUpper rules.allCommands rules.commands rules.denyCommands
    { rules with allCommands := all, commands := allow, denyCommands := deny }
  else if key = "privs" then
    let (all, allow, deny) := foldTokens value toAsciiLower rules.allPrivs rules.privs rules.denyPrivs
    { rules with allPrivs := all, privs := allow, denyPrivs := deny }
  else if key = "snomasks" ∨ key = "snomask" then
    if '*' ∈ value then { rules with allSnomasks := true }
    else { rules with snomasks := rules.snomasks ++ value }
  else if key = "usermodes" then { rules with usermodes := some (.parse value) }
  else if key = "chanmodes" then { rules with chanmodes := some (.parse value) }
  else rules

def applyTypeKv (rules : TypeDef) (key value : Str) : TypeDef :=
  if key = "classes" then
    if value = "*" then { rules with allClasses := true }
    else { rules with classes := rules.classes ++ (value.splitOn ',').filter (· ≠ []) }
  else if key = "modes" then { rules with modes := value }
  else if key = "vhost" ∨ key = "host" then { rules with vhost := some value }
  else if key = "title" then { rules with title := replaceChar '_' ' ' value }
  else if key = "level" then
    match parseU32 value with
    | some level => { rules with level := some level }
    | none => rules
  else { rules with toClassDef := applyClassKv rules.toClassDef key value }

def builtinClass (commands privs : List Str) (snomasks : Str) : ClassDef :=
  { commands := commands, privs := privs, snomasks := snomasks }

def builtinClasses : Table Str ClassDef :=
  .ofList [
    ("announce", builtinClass ["WALLOPS", "GLOBOPS"] [] "ag"),
    ("ban", builtinClass ["KILL", "KLINE", "GLINE", "ZLINE", "QLINE", "ELINE", "RLINE", "SHUN",
      "CBAN", "CHECK", "NICKLOCK", "NICKUNLOCK"] [] "kx"),
    ("override", builtinClass ["SAJOIN", "SAPART", "SANICK", "SAKICK", "SAMODE", "SATOPIC",
      "SAQUIT", "CLEARCHAN"] ["channels/override", "users/flood", "channels/restricted-create",
      "channels/ignore-nonicks", "users/ignore-restrictmsg", "servers/ignore-securelist",
      "servers/ignore-blockamsg"] "v"),
    ("host", builtinClass ["CHGHOST", "CHGIDENT", "CHGNAME", "SETHOST", "SETIDENT", "SETIDLE",
      "SWHOIS"] [] ""),
    ("services", builtinClass ["SVSNICK", "SVSJOIN", "SVSPART", "SVSMODE", "SVSLOGIN",
      "SVSLOGOUT"] ["users/ignore-noctcp"] ""),
    ("server", builtinClass ["CONNECT", "SQUIT", "DIE", "RESTART"]
      ["servers/use-disabled-commands"] "lr"),
    ("auspex", builtinClass [] ["users/auspex", "channels/auspex", "servers/auspex",
      "users/secret-whois", "users/ignore-callerid", "users/ignore-privdeaf"] "")]

def builtinType (title : Str) (classes : List Str) (allClasses : Bool) (modes snomasks : Str)
    (allSnomasks : Bool) (level : UInt32) : TypeDef :=
  { title := title, classes := classes, allClasses := allClasses, modes := modes,
    snomasks := snomasks, allSnomasks := allSnomasks, level := some level }

def builtinTypes : Table Str TypeDef :=
  .ofList [
    ("helpop", builtinType "Help Operator" [] false "+ih" "o" false 10),
    ("globop", builtinType "GlobOp" ["announce"] false "+iw" "acgoq" false 20),
    ("admin", builtinType "Administrator" ["announce", "ban", "override", "host"] false "+iw" ""
      true 50),
    ("servadmin", builtinType "Services Administrator"
      ["announce", "ban", "override", "host", "services"] false "+iw" "" true 70),
    ("netadmin", builtinType "Network Administrator" [] true "+iw" "" true 100)]

def applyTokens {Def : Type} (apply : Def → Str → Str → Def) (tokens : List Str) (start : Def) :
    Def :=
  tokens.foldl
    (fun rules token => match splitOnce '=' token with
      | some (key, value) => apply rules key value
      | none => rules)
    start

def addClass (classes : Table Str ClassDef) (line : Str) : Table Str ClassDef :=
  match words line with
  | [] => classes
  | name :: tokens =>
    classes.insert name (applyTokens applyClassKv tokens ((classes.lookup name).getD {}))

def addType (types : Table Str TypeDef) (line : Str) : Table Str TypeDef :=
  match words line with
  | [] => types
  | name :: tokens =>
    let rules := applyTokens applyTypeKv tokens ((types.lookup name).getD {})
    types.insert name (if rules.title = [] then { rules with title := name } else rules)

def absorb (acc added : ClassDef) : ClassDef where
  allCommands := acc.allCommands || added.allCommands
  commands := acc.commands ++ added.commands
  allPrivs := acc.allPrivs || added.allPrivs
  privs := acc.privs ++ added.privs
  denyCommands := acc.denyCommands ++ added.denyCommands
  denyPrivs := acc.denyPrivs ++ added.denyPrivs
  allSnomasks := acc.allSnomasks || added.allSnomasks
  snomasks := acc.snomasks ++ added.snomasks
  usermodes := ModeAllow.merge acc.usermodes added.usermodes
  chanmodes := ModeAllow.merge acc.chanmodes added.chanmodes

def resolve (classes : Table Str ClassDef) (rules : TypeDef) : ResolvedType :=
  let start := if rules.allClasses then
      { rules.toClassDef with
        allCommands := true, allPrivs := true
        usermodes := some .all, chanmodes := some .all }
    else rules.toClassDef
  let names := if rules.allClasses then classes.keys else rules.classes
  let sum := (names.filterMap classes.lookup).foldl absorb start
  let letters := (sum.snomasks.filter (· ∈ Server.defaultSnomask)).eraseDups
  { grant := {
      title := rules.title
      allCommands := sum.allCommands, commands := sum.commands
      denyCommands := sum.denyCommands
      allPrivs := sum.allPrivs, privs := sum.privs, denyPrivs := sum.denyPrivs
      usermodes := sum.usermodes.getD .all, chanmodes := sum.chanmodes.getD .all }
    modes := rules.modes
    snomasks := if sum.allSnomasks || letters = [] then none else some letters
    allSnomasks := sum.allSnomasks
    vhost := rules.vhost
    level := rules.level }

def buildTypes (classLines typeLines : List Str) : Table Str ResolvedType :=
  let classes := classLines.foldl addClass builtinClasses
  Table.mapValues (fun _ => resolve classes) (typeLines.foldl addType builtinTypes)

end OperTypes

end EchoIrcd
