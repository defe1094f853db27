import EchoIrcd.Lib.Octets

/-!
# LDAP bind results

The reader of the answer to an operator's bind request.  It reads every element up to
the end of the message, so an element may reach past the one it stands in.
-/

namespace EchoIrcd.Ldap

open Octets Option

/-- One element: its tag, the octets from its value on and the size of the value; `none` if
it is cut off or its length is indefinite or takes over four octets. -/
def readTlv : Octets → Option (UInt8 × Octets × Nat)
  | tag :: first :: rest =>
    let count := first.toNat - 128
    let size := if first.toNat < 128 then first.toNat else toNat (rest.take count)
    if first.toNat = 128 ∨ 4 < count ∨ rest.length < count + size then none
    else some (tag, rest.drop count, size)
  | _ => none

def parseBindResult (msg : Octets) : Option Nat := do
  let (tag, body, _) ← readTlv msg
  guard (tag = 0x30)
  let (tag, id, idSize) ← readTlv body
  guard (tag = 0x02)
  let (tag, response, _) ← readTlv (id.drop idSize)
  guard (tag = 0x61)
  let (tag, result, size) ← readTlv response
  guard (tag = 0x0a ∧ size ≠ 0 ∧ size ≤ 4)
  some (toNat (result.take size))

def element (octets : Octets) : Option (UInt8 × Octets × Octets) :=
  (readTlv octets).map fun (tag, start, size) => (tag, start.take size, start.drop size)

/-- A sequence of an identifier and a bind response that starts with this result, every one
of them within the content of the one before. -/
def IsBindResult (code : Nat) (msg : Octets) : Prop :=
  ∃ body id response content value rest, element msg = some (0x30, body, []) ∧
    element body = some (0x02, id, response) ∧ element response = some (0x61, content, []) ∧
    element content = some (0x0a, value, rest) ∧ toNat value = code

/-- What is left behind the sequence and behind the bind response. -/
def leftovers (msg : Octets) : Option (Octets × Octets) := do
  let (_, body, size) ← readTlv msg
  let (_, id, idSize) ← readTlv body
  let (_, response, responseSize) ← readTlv (id.drop idSize)
  some (body.drop size, response.drop responseSize)

theorem element_of_readTlv {octets start : Octets} {tag : UInt8} {size : Nat}
    (hread : readTlv octets = some (tag, start, size)) :
    element octets = some (tag, start.take size, start.drop size) := by
  rw [element, hread, map_some]

/-- A result is that of a well-formed message exactly if the two lengths that the reader does
not look at again reach to the end of the message. -/
theorem isBindResult_iff {code : Nat} {msg : Octets} (hres : parseBindResult msg = some code) :
    IsBindResult code msg ↔ leftovers msg = some ([], []) := by
  simp only [parseBindResult, bind_eq_bind, bind_eq_some_iff, guard_eq_some',
    some.injEq, exists_const, Prod.exists] at hres
  obtain ⟨_, body, size, hmsg, rfl, _, id, idSize, hid, rfl, _, response, responseSize, hresp,
    rfl, _, result, resultSize, hval, ⟨rfl, -⟩, rfl⟩ := hres
  have hleft : leftovers msg = some (body.drop size, response.drop responseSize) := by
    simp [leftovers, hmsg, hid, hresp]
  rw [hleft, some.injEq, Prod.mk.injEq, IsBindResult, element_of_readTlv hmsg]
  constructor
  · rintro ⟨_, _, _, _, _, _, hwh, hnum, hinn, -⟩
    simp only [some.injEq, Prod.mk.injEq, true_and] at hwh
    obtain ⟨rfl, hnone⟩ := hwh
    rw [List.take_of_length_le (List.drop_eq_nil_iff.mp hnone), element_of_readTlv hid] at hnum
    cases hnum
    rw [element_of_readTlv hresp] at hinn
    simp only [some.injEq, Prod.mk.injEq, true_and] at hinn
    exact ⟨hnone, hinn.2⟩
  · rintro ⟨hnone, hlast⟩
    have hbody := List.take_of_length_le (List.drop_eq_nil_iff.mp hnone)
    have hcnt := List.take_of_length_le (List.drop_eq_nil_iff.mp hlast)
    exact ⟨body, _, _, response, _, _, by rw [hbody, hnone], element_of_readTlv hid,
      by rw [element_of_readTlv hresp, hcnt, hlast], element_of_readTlv hval, rfl⟩

theorem isBindResult_iff_granted : IsBindResult 0 [0x30, 8, 0x02, 1, 1, 0x61, 3, 0x0a, 1, 0] ↔
    leftovers [0x30, 8, 0x02, 1, 1, 0x61, 3, 0x0a, 1, 0] = some ([], []) :=
  isBindResult_iff (by decide)

theorem isBindResult_outside :
    parseBindResult [0x30, 8, 0x02, 1, 1, 0x61, 0, 0x0a, 1, 0] = some 0 ∧
      ¬ IsBindResult 0 [0x30, 8, 0x02, 1, 1, 0x61, 0, 0x0a, 1, 0] := by
  refine ⟨by decide, ?_⟩
  rintro ⟨_, _, _, _, _, _, hwh, hnum, hinn, -⟩
  cases hwh
  cases hnum
  cases hinn

end EchoIrcd.Ldap
