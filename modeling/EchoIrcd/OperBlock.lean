import EchoIrcd.ConnClass
import EchoIrcd.Lib.Octets

/-!
# Oper blocks and stored passwords

The `oper` lines of the configuration (`config.rs`) and the check of a password
against a stored one (`password_hash.rs`).  The digests and key derivations are
parameters; the formats that select between them are modelled.
-/

namespace EchoIrcd

open Str

structure OperBlock where
  name : Str
  password : Str := []
  level : UInt32 := 0
  fingerprint : Option Str := none
  operType : Option Str := none
  /-- Path to the public key of CHALLENGE logins. -/
  rsaKey : Option Str := none
  /-- Bind name with `%s` for the name of the operator. -/
  ldapDn : Option Str := none
  deriving DecidableEq, Repr

namespace OperBlock

def isOption (token : Str) : Bool :=
  (["password=", "fp=", "certfp=", "type=", "rsakey=", "key=", "ldapdn="] : List String).any
    fun key => key.toList.isPrefixOf token

def apply (block : OperBlock) (token : Str) : OperBlock :=
  match token.dropPrefix? ("password=" : Str) with
  | some password => { block with password }
  | none =>
  match (token.dropPrefix? ("fp=" : Str)).or (token.dropPrefix? ("certfp=" : Str)) with
  | some fingerprint => { block with fingerprint := some (toAsciiLower fingerprint) }
  | none =>
  match token.dropPrefix? ("type=" : Str) with
  | some operType => { block with operType := some operType }
  | none =>
  match (token.dropPrefix? ("rsakey=" : Str)).or (token.dropPrefix? ("key=" : Str)) with
  | some path => { block with rsaKey := some path }
  | none =>
  match token.dropPrefix? ("ldapdn=" : Str) with
  | some dn => { block with ldapDn := some dn }
  | none =>
  match parseU32 token with
  | some level => { block with level }
  | none => block

def hasCredential (block : OperBlock) : Bool :=
  block.password ≠ [] || block.fingerprint.isSome || block.rsaKey.isSome || block.ldapDn.isSome

def parse (line : Str) : Option OperBlock :=
  match words line with
  | [] => none
  | name :: tokens =>
    let block : OperBlock := match tokens with
      | [] => { name := name }
      | first :: rest =>
        if isOption first then tokens.foldl apply { name := name }
        else rest.foldl apply { name := name, password := first }
    if block.hasCredential then some block else none

def parseAll (lines : List Str) : List OperBlock := lines.filterMap parse

end OperBlock

/-! ## Stored passwords -/

inductive Digest where
  | md5
  | sha1
  | sha256
  | sha512
  deriving DecidableEq, Repr

/-- What the cryptographic library computes. -/
structure Hashing where
  bcrypt : Str → Str → Bool
  digest : Digest → Str → Option Octets
  pbkdf2 : Str → Octets → Nat → Nat → Option Octets

namespace PasswordHash

def digestFor (algo : Str) : Option Digest :=
  let algo := toAsciiLower algo
  if algo = "md5" then some .md5
  else if algo = "sha1" then some .sha1
  else if algo = "sha256" ∨ algo = "sha2" ∨ algo = "sha-256" then some .sha256
  else if algo = "sha512" ∨ algo = "sha-512" then some .sha512
  else none

def hexDigit (char : Char) : Option Nat :=
  if char.isDigit then some (char.toNat - '0'.toNat)
  else if 'a' ≤ char ∧ char ≤ 'f' then some (char.toNat - 'a'.toNat + 10)
  else if 'A' ≤ char ∧ char ≤ 'F' then some (char.toNat - 'A'.toNat + 10)
  else none

/-- Two characters as one octet; a plus sign in front of one digit is let through. -/
def hexPair (high low : Char) : Option UInt8 :=
  if high = '+' then (hexDigit low).map UInt8.ofNat
  else do
    let high ← hexDigit high
    let low ← hexDigit low
    some (UInt8.ofNat (16 * high + low))

def unhex : Str → Option Octets
  | [] => some []
  | [_] => none
  | high :: low :: rest => do
      let octet ← hexPair high low
      let octets ← unhex rest
      some (octet :: octets)

def maxPbkdf2Iters : Nat := 10000000

/-- `pbkdf2:<iters>:<salthex>:<hashhex>` behind its first word. -/
def verifyPbkdf2 (hashing : Hashing) (rest plaintext : Str) : Bool :=
  let fields := do
    let (iters, rest) ← splitOnce ':' rest
    let (salt, want) ← splitOnce ':' rest
    some (← parseUsize iters, ← unhex salt, ← unhex want)
  match fields with
  | none => false
  | some (iters, salt, want) =>
    if iters = 0 ∨ maxPbkdf2Iters < iters then false
    else if want = [] ∨ salt = [] then false
    else hashing.pbkdf2 plaintext salt iters want.length = some want

def verify (hashing : Hashing) (stored plaintext : Str) : Bool :=
  if ("$2a$" : Str).isPrefixOf stored || ("$2b$" : Str).isPrefixOf stored ||
      ("$2y$" : Str).isPrefixOf stored then hashing.bcrypt stored plaintext
  else
    match stored.dropPrefix? ("pbkdf2:" : Str) with
    | some rest => verifyPbkdf2 hashing rest plaintext
    | none =>
      match (splitOnce ':' stored).bind fun (algo, want) =>
          (digestFor algo).map fun digest => (digest, want) with
      | some (digest, want) =>
        match hashing.digest digest plaintext, unhex want with
        | some got, some want => got = want
        | _, _ => false
      | none => stored = plaintext

def isSlow (stored : Str) : Bool :=
  ("$2" : Str).isPrefixOf stored || ("pbkdf2:" : Str).isPrefixOf stored

theorem ne_of_isSlow {stored : Str} (hslow : isSlow stored = true) :
    stored ≠ [] ∧ stored ≠ "*" := by
  constructor
  all_goals
    rintro rfl
    exact absurd hslow (by decide)

end PasswordHash

end EchoIrcd
