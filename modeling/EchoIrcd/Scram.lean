import EchoIrcd.Jwt

/-!
# The bridge's SCRAM-SHA-1 login

The exchange with an XMPP server over the messages it reads; what the library computes
is a parameter.  What it sends is left out.  A server proves that it knows the password by a signature in
its last message, but a last message without one is taken as well.
-/

namespace EchoIrcd.Xmpp

open Str Octets

structure Digests where
  base64 : Base64
  pbkdf2 : Str → Octets → Nat → Octets
  hmac : Octets → Str → Octets

def innerText (elem xml : Str) : Option Str := do
  let rest ← Jwt.afterFirst ('<' :: elem) xml
  let body ← Jwt.afterFirst ['>'] rest
  let tail ← Jwt.afterFirst ('<' :: '/' :: elem ++ ['>']) body
  if (elem ++ rest.takeWhile (· ≠ '>')).getLast? = some '/' then none
  else some (trim (body.take (body.length - (tail.length + elem.length + 3))))

def decoded (base64 : Base64) (elem xml : Str) : Option Str :=
  ((innerText elem xml).bind base64.decodeBlock).bind fromUtf8

def scramField (msg : Str) (key : Char) : Option Str :=
  (msg.splitOn ',').findSome? (stripPrefix [key, '='])

def saslEscape (text : Str) : Str :=
  text.flatMap fun char => if char = '=' then "=3D" else if char = ',' then "=2C" else [char]

structure ServerFirst where
  text : Str
  nonce : Str
  salt : Octets
  iters : Nat

def orError {α : Type} (message : Str) : Option α → Except Str α
  | some value => .ok value
  | none => .error message

def serverFirst (base64 : Base64) (chal : Str) : Except Str ServerFirst := do
  let text ← orError "SCRAM: bad challenge" (decoded base64 "challenge" chal)
  let nonce ← orError "SCRAM: no server nonce" (scramField text 'r')
  let salt ← orError "SCRAM: no salt" ((scramField text 's').bind base64.decodeBlock)
  let iters ← orError "SCRAM: no iteration count"
    ((scramField text 'i').bind (toNatBelow (2 ^ 64)))
  return ⟨text, nonce, salt, iters⟩

def serverSignature (digests : Digests) (user pass cnonce : Str) (first : ServerFirst) : Str :=
  let salted := digests.pbkdf2 pass first.salt first.iters
  digests.base64.encodeBlock (digests.hmac (digests.hmac salted "Server Key")
    ("n=" ++ saslEscape user ++ ",r=" ++ cnonce ++ "," ++ first.text ++
      ",c=biws,r=" ++ first.nonce))

def serverProof (base64 : Base64) (succ : Str) : Option Str :=
  (decoded base64 "success" succ).bind (scramField · 'v')

section

variable (digests : Digests) (user pass cnonce : Str)

def saslScramSha1 (messages : List Str) : Except Str Unit := do
  let first ← orError "stream closed by server" messages[0]? >>= serverFirst digests.base64
  orError "SCRAM: server nonce does not extend ours" (guard (cnonce.isPrefixOf first.nonce))
  let succ ← orError "stream closed by server" messages[1]?
  orError "SCRAM: authentication failed" (guard (Jwt.afterFirst "success" succ ≠ none))
  orError "SCRAM: server signature mismatch"
    (guard ((serverProof digests.base64 succ).all
      (· = serverSignature digests user pass cnonce first)))

/-- The first message extends the nonce, and the second has the signature. -/
def Proved (messages : List Str) : Prop :=
  ∃ chal succ rest first, messages = chal :: succ :: rest ∧
    serverFirst digests.base64 chal = .ok first ∧ cnonce.isPrefixOf first.nonce ∧
    serverProof digests.base64 succ = some (serverSignature digests user pass cnonce first)

end

@[simp] theorem orError_eq_ok {α : Type} {message : Str} {found : Option α} {value : α} :
    orError message found = .ok value ↔ found = some value := by
  cases found <;> simp [orError]

/-- A login that succeeds has proved the server exactly if the last message has a proof. -/
theorem proved_iff {digests : Digests} {user pass cnonce : Str} {messages : List Str}
    (hok : saslScramSha1 digests user pass cnonce messages = .ok ()) :
    Proved digests user pass cnonce messages ↔
      (messages[1]?.bind (serverProof digests.base64)).isSome := by
  simp only [saslScramSha1, bind, Except.bind_eq_ok, orError_eq_ok,
    Option.guard_eq_some', exists_const] at hok
  obtain ⟨first, ⟨chal, hchal, hfst⟩, hnonce, succ, hsucc, -, hproof⟩ := hok
  constructor
  · rintro ⟨_, _, _, _, rfl, -, -, hsigned⟩
    exact Option.isSome_of_eq_some hsigned
  · intro hth
    rw [hsucc, Option.bind_some] at hth
    obtain ⟨proof, hsigned⟩ := Option.isSome_iff_exists.mp hth
    rw [hsigned, Option.all_some, decide_eq_true_eq] at hproof
    match messages, hchal, hsucc with
    | _ :: _ :: rest, rfl, rfl => exact ⟨_, _, rest, first, rfl, hfst, hnonce, hproof ▸ hsigned⟩

/-- The digests of the password `p` in the exchange below. -/
def sample : Digests where
  base64 := .ofTable [("cj1jMSxzPUFBQUEsaT0x", utf8 "r=c1,s=AAAA,i=1"), ("AAAA", [0, 0, 0]),
    ("dj1oOGFYc0R2L2FQNGJoZ0U1QTVWWDNjMEZ2OWs9", utf8 "v=h8aXsDv/aP4bhgE5A5VX3c0Fv9k="),
    ("h8aXsDv/aP4bhgE5A5VX3c0Fv9k=", [135, 198, 151, 176, 59, 255, 104, 254, 27, 134, 1, 57, 3,
      149, 87, 221, 205, 5, 191, 217])]
  pbkdf2 _ _ _ := [71, 66, 14, 86, 45, 249, 208, 156, 6, 118, 27, 41, 8, 150, 15, 251, 143, 38,
    156, 151]
  hmac _ text :=
    if text = "Server Key" then
      [70, 187, 207, 223, 196, 88, 237, 119, 236, 106, 239, 34, 102, 222, 161, 146, 163, 239, 239,
        127]
    else [135, 198, 151, 176, 59, 255, 104, 254, 27, 134, 1, 57, 3, 149, 87, 221, 205, 5, 191, 217]

theorem proved_iff_signed :
    let messages : List Str := ["<challenge>cj1jMSxzPUFBQUEsaT0x</challenge>",
      "<success>dj1oOGFYc0R2L2FQNGJoZ0U1QTVWWDNjMEZ2OWs9</success>"]
    saslScramSha1 sample "u" "p" "c" messages = .ok () ∧ Proved sample "u" "p" "c" messages := by
  intro messages
  have hok : saslScramSha1 sample "u" "p" "c" messages = .ok () := by decide +kernel
  exact ⟨hok, (proved_iff hok).mpr (by decide +kernel)⟩

/-- The first message extends the nonce `c`; the second has no signature at all. -/
theorem not_proved_unsigned :
    let messages : List Str := ["<challenge>cj1jMSxzPUFBQUEsaT0x</challenge>", "<success/>"]
    saslScramSha1 sample "u" "p" "c" messages = .ok () ∧ ¬ Proved sample "u" "p" "c" messages := by
  refine ⟨by decide +kernel, ?_⟩
  rintro ⟨_, _, _, _, hmessages, -, -, hsigned⟩
  cases hmessages
  cases hsigned

end EchoIrcd.Xmpp
