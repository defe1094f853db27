import EchoIrcd.ChatHistory
import EchoIrcd.ConnClass
import EchoIrcd.Lib.Utf8

/-!
# Signed tokens

Compact HS256 tokens (`jwt.rs`) and the readers that pick a field out of the
JSON text they carry (`http.rs`).  The keyed digest and the base64 of the
library are parameters; the readers are those of the source.
-/

namespace EchoIrcd

open Str Octets

/-! ## Base64 -/

/-- The base64 of the cryptographic library. -/
structure Base64 where
  encodeBlock : Octets → Str
  decodeBlock : Str → Option Octets

namespace Base64

variable (base64 : Base64)

def url (octets : Octets) : Str :=
  replaceChar '/' '_' (replaceChar '+' '-'
    ((base64.encodeBlock octets).reverse.dropWhile (· = '=')).reverse)

def unurl (text : Str) : Option Octets :=
  let text := replaceChar '_' '/' (replaceChar '-' '+' text)
  base64.decodeBlock (text ++ List.replicate ((4 - Str.byteLength text % 4) % 4) '=')

/-- A library that knows these texts and what they encode. -/
def ofTable (table : List (Str × Octets)) : Base64 where
  encodeBlock octets := ((table.find? (·.2 = octets)).map Prod.fst).getD []
  decodeBlock text := (table.find? (·.1 = text)).map Prod.snd

end Base64

/-! ## Tokens -/

namespace Jwt

variable (base64 : Base64) (hmac : Str → Str → Option Octets)

def headerJson : Str := "\x7b\"alg\":\"HS256\",\"typ\":\"JWT\"\x7d"

def signHs256 (claims secret : Str) : Option Str :=
  let input := base64.url (utf8 headerJson) ++ '.' :: base64.url (utf8 claims)
  (hmac secret input).map fun signature => input ++ '.' :: base64.url signature

def verifyHs256 (token secret : Str) : Option Str :=
  match token.splitOn '.' with
  | [header, payload, signature] => do
      let want ← hmac secret (header ++ '.' :: payload)
      let got ← base64.unurl signature
      if got = want then (base64.unurl payload).bind fromUtf8 else none
  | _ => none

/-- What the signature of a token is for. -/
def signingInput (token : Str) : Option Str :=
  match token.splitOn '.' with
  | [header, payload, _] => some (header ++ '.' :: payload)
  | _ => none

/-! ## Fields -/

def afterFirst (pattern : Str) : Str → Option Str
  | [] => if pattern = [] then some [] else none
  | first :: rest =>
    if pattern.isPrefixOf (first :: rest) then some ((first :: rest).drop pattern.length)
    else afterFirst pattern rest

/-- A string behind its opening quote; a backslash takes the next character as it is. -/
def readString : Str → Option Str
  | [] => none
  | '\\' :: char :: rest => (readString rest).map (char :: ·)
  | ['\\'] => none
  | '"' :: _ => some []
  | char :: rest => (readString rest).map (char :: ·)

def quoted (key : Str) : Str := '"' :: key ++ ['"']

def jsonStr (body key : Str) : Option Str := do
  let rest ← afterFirst (quoted key) body
  let value ← afterFirst [':'] rest
  match value.dropWhile isWhitespace with
  | '"' :: text => readString text
  | value => some (trim (value.takeWhile fun char => char ∉ [',', '\x7d', '\n']))

def numberAfter (rest : Str) : Option Int :=
  match rest.dropWhile isWhitespace with
  | ':' :: tail =>
    toInt64 ((tail.dropWhile isWhitespace).takeWhile fun char => char.isDigit || char = '-')
  | _ => none

def scanNum (key : Str) : Int → Bool → Bool → Str → Option Int
  | _, _, _, [] => none
  | depth, true, true, _ :: rest => scanNum key depth true false rest
  | depth, true, false, char :: rest =>
    if char = '\\' then scanNum key depth true true rest
    else scanNum key depth (char ≠ '"') false rest
  | depth, false, escaped, char :: rest =>
    if char = '\x7b' ∨ char = '[' then scanNum key (depth + 1) false escaped rest
    else if char = '\x7d' ∨ char = ']' then scanNum key (depth - 1) false escaped rest
    else if char = '"' then
      let found := if depth = 1 ∧ (quoted key).isPrefixOf (char :: rest) then
          (char :: rest).drop (quoted key).length
        else []
      if (found.dropWhile isWhitespace).head? = some ':' then numberAfter found
      else scanNum key depth true escaped rest
    else scanNum key depth false escaped rest

def claimNum (claims key : Str) : Option Int := scanNum key 0 false false claims

end Jwt

end EchoIrcd
