import EchoIrcd.Xline

/-!
# Connection classes

The `connectclass` lines of the configuration (`connclass.rs`).  A line names a
class and lists `key=value` tokens; a class inherits the tokens of its parent
except those that say whom it is for.  Of two lines with one name only the
first is ever read, so the name of a class settles everything about it.
-/

namespace EchoIrcd

open Str

variable {connClass : ConnClass} {lines : List Str}

structure ConnClass where
  name : Str
  allow : List Str := []
  deny : Bool := false
  ssl : Bool := false
  sslTrusted : Bool := false
  password : Option Str := none
  ports : List Nat := []
  asn : List Nat := []
  countries : List Str := []
  localmax : Option Nat := none
  globalmax : Option Nat := none
  limit : Option Nat := none
  modes : Option Str := none
  useident : Bool := false
  requireident : Bool := false
  resolvehostnames : Bool := true
  waitpongexempt : Bool := false
  deriving DecidableEq, Repr

def trim (text : Str) : Str :=
  ((text.dropWhile isWhitespace).reverse.dropWhile isWhitespace).reverse

def pieces (separator : Char → Bool) (value : Str) : List Str :=
  ((value.splitOnP separator).map trim).filter (· ≠ [])

def commaList (value : Str) : List Str := pieces (· = ',') value

def parseUsize (text : Str) : Option Nat := (parseU64 text).map UInt64.toNat

def asnList (value : Str) : List Nat :=
  (pieces (fun char => char = ',' || char = ' ') value).filterMap fun piece =>
    let number := (piece.dropPrefix? ("AS" : Str)).or (piece.dropPrefix? ("as" : Str))
    (parseU32 (number.getD piece)).map UInt32.toNat

namespace ConnClass

def apply (connClass : ConnClass) (key value : Str) : ConnClass :=
  if key = "allow" then { connClass with allow := connClass.allow ++ commaList value }
  else if key = "deny" then { connClass with deny := eqIgnoreAsciiCase value "yes" }
  else if key = "ssl" ∨ key = "requiressl" then
    { connClass with
      ssl := !eqIgnoreAsciiCase value "no" && value ≠ []
      sslTrusted := eqIgnoreAsciiCase value "trusted" }
  else if key = "password" ∨ key = "pass" then { connClass with password := some value }
  else if key = "port" then
    { connClass with
      ports := connClass.ports ++ (commaList value).filterMap (toNatBelow (2 ^ 16)) }
  else if key = "asn" then { connClass with asn := connClass.asn ++ asnList value }
  else if key = "country" ∨ key = "countries" then
    { connClass with
      countries := connClass.countries ++ (commaList value).map toAsciiUpper }
  else if key = "localmax" then { connClass with localmax := parseUsize value }
  else if key = "globalmax" then { connClass with globalmax := parseUsize value }
  else if key = "limit" then { connClass with limit := parseUsize value }
  else if key = "modes" then { connClass with modes := some value }
  else if key = "useident" then { connClass with useident := eqIgnoreAsciiCase value "yes" }
  else if key = "requireident" then
    { connClass with requireident := eqIgnoreAsciiCase value "yes" }
  else if key = "resolvehostnames" then
    { connClass with resolvehostnames := !eqIgnoreAsciiCase value "no" }
  else if key = "waitpongexempt" then
    { connClass with waitpongexempt := eqIgnoreAsciiCase value "yes" }
  else connClass

theorem apply_name (connClass : ConnClass) (key value : Str) :
    (connClass.apply key value).name = connClass.name := by
  simp only [apply, apply_ite ConnClass.name, ite_self]

end ConnClass

/-! ## Lines -/

def rawLine (lines : List Str) (name : Str) : Option Str :=
  lines.find? fun line => (words line).head? = some name

def tokenValue (key : Str) (tokens : List Str) : Option Str :=
  tokens.findSome? fun token => token.dropPrefix? key

/-- The tokens of a class behind those of its parents, at most `depth` of them. -/
def tokensFor (lines : List Str) : Nat → Str → Option (List Str)
  | depth, name => (rawLine lines name).map fun line =>
    let own := (words line).tail
    let inherited := match depth, tokenValue "parent=" own with
      | depth + 1, some parent =>
        match tokensFor lines depth parent with
        | some tokens => tokens.filter fun token =>
          !("allow=" : Str).isPrefixOf token && !("deny=" : Str).isPrefixOf token &&
            !("parent=" : Str).isPrefixOf token
        | none => []
      | _, _ => []
    inherited ++ own

/-- A password with the algorithm a `hash=` token names, unless it has its own.  Without a
`hash=` token the password is dropped. -/
def foldHash (algo password : Option Str) : Option Str :=
  match algo, password with
  | some algo, some password =>
    some (if ':' ∈ password then password else algo ++ ':' :: password)
  | _, _ => none

def applyTokens (connClass : ConnClass) (tokens : List Str) : ConnClass :=
  tokens.foldl (fun connClass token =>
    match splitOnce '=' token with
    | some (key, value) => connClass.apply key value
    | none => connClass) connClass

theorem applyTokens_name (connClass : ConnClass) (tokens : List Str) :
    (applyTokens connClass tokens).name = connClass.name := by
  refine List.foldlRecOn (motive := fun reached : ConnClass =>
    reached.name = connClass.name) tokens _ rfl ?_
  intro reached hname token _
  split
  · rw [ConnClass.apply_name, hname]
  · exact hname

def buildClass (lines : List Str) (name : Str) : Option ConnClass :=
  (tokensFor lines 8 name).map fun tokens =>
    let connClass := applyTokens { name := name } tokens
    { connClass with
      password := foldHash (tokenValue "hash=" tokens.reverse) connClass.password
      allow := if connClass.allow = [] then ["*"] else connClass.allow }

theorem buildClass_name {name : Str}
    (hbuilt : buildClass lines name = some connClass) : connClass.name = name := by
  obtain ⟨tokens, -, rfl⟩ := Option.map_eq_some_iff.mp hbuilt
  exact applyTokens_name ..

def classesOf (lines : List Str) : List ConnClass :=
  (lines.filterMap fun line => (words line).head?).filterMap (buildClass lines)

theorem buildClass_of_mem (hmem : connClass ∈ classesOf lines) :
    buildClass lines connClass.name = some connClass := by
  obtain ⟨name, -, hbuilt⟩ := List.mem_filterMap.mp hmem
  rw [buildClass_name hbuilt, hbuilt]

theorem classesOf_unique {first second : ConnClass} (hfst : first ∈ classesOf lines)
    (hsec : second ∈ classesOf lines) (hname : first.name = second.name) : first = second := by
  have hbuilt := buildClass_of_mem hfst
  rw [hname, buildClass_of_mem hsec] at hbuilt
  exact (Option.some.inj hbuilt).symm

def namedClass (lines : List Str) (name : Str) : Option ConnClass :=
  (classesOf lines).find? fun connClass => connClass.name = name

example : (classesOf ["base limit=9 allow=10.* hash=md5", "web parent=base limit=2 pass=x",
      "bare pass=x"]).map
    (fun connClass => (connClass.limit, connClass.allow, connClass.password)) =
    [(some 9, [("10.*" : Str)], none), (some 2, [("*" : Str)], some ("md5:x" : Str)),
      (none, [("*" : Str)], none)] := by
  decide +kernel

end EchoIrcd
