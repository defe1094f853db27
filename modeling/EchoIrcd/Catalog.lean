import EchoIrcd.OperBlock

/-!
# Message catalogs

`i18n.rs`.  A line of a catalog is kept when its two texts name the same
placeholders.  `placeholders` passes over a malformed placeholder as a whole, and
`render` copies its brace only and reads on inside.
-/

namespace EchoIrcd.Catalog

open Str

/-! ## Reading a line -/

def unescape (code : Char) : Str :=
  if code = 'n' then ['\n']
  else if code = 't' then ['\t']
  else if code = '"' ∨ code = '\\' then [code]
  else ['\\', code]

def readInside : Str → Option (Str × Str)
  | [] | ['\\'] | ['\\', 'x'] | ['\\', 'x', _] => none
  | '"' :: rest => some ([], rest)
  | '\\' :: 'x' :: high :: low :: rest =>
    let out := (PasswordHash.hexPair high low).elim ['\\', 'x', high, low]
      fun octet => [Char.ofNat octet.toNat]
    (readInside rest).map fun found => (out ++ found.1, found.2)
  | '\\' :: code :: rest =>
    (readInside rest).map fun found => (unescape code ++ found.1, found.2)
  | char :: rest => (readInside rest).map fun found => (char :: found.1, found.2)

def readQuoted : Str → Option (Str × Str)
  | '"' :: rest => readInside rest
  | _ => none

def parseEntry (line : Str) : Option (Str × Str) := do
  let (key, rest) ← readQuoted line
  let rest := rest.dropWhile isWhitespace
  if rest.head? ≠ some '=' then none
  let (val, tail) ← readQuoted (rest.tail.dropWhile isWhitespace)
  if tail.all isWhitespace then some (key, val) else none

/-! ## Templates -/

/-- The texts between braces.  The number says how many characters are passed over. -/
def braces : Nat → Str → List Str
  | _, [] => []
  | skip + 1, _ :: rest => braces skip rest
  | 0, char :: rest =>
    if char ≠ '{' then braces 0 rest
    else if rest.head? = some '{' then braces 1 rest
    else match splitOnce '}' rest with
      | some (inner, _) => inner :: braces (inner.length + 1) rest
      | none => braces 0 rest

def placeholders (text : Str) : Finset Nat := ((braces 0 text).filterMap parseUsize).toFinset

inductive Piece where
  | char (letter : Char)
  | arg (index : Nat)
  deriving DecidableEq

def readIndex (rest : Str) : Option (Nat × Nat) := do
  let (inner, _) ← splitOnce '}' rest
  let index ← parseUsize inner
  some (index, inner.length + 1)

/-- What `render` writes. -/
def scan : Nat → Str → List Piece
  | _, [] => []
  | skip + 1, _ :: rest => scan skip rest
  | 0, char :: rest =>
    if (char = '{' ∨ char = '}') ∧ rest.head? = some char then .char char :: scan 1 rest
    else match if char = '{' then readIndex rest else none with
      | some (index, width) => .arg index :: scan width rest
      | none => .char char :: scan 0 rest

def Piece.fill (args : List Str) : Piece → Str
  | char letter => [letter]
  | arg index => args[index]?.getD []

def render (template : Str) (args : List Str) : Str :=
  if '{' ∈ template then (scan 0 template).flatMap (Piece.fill args) else template

def loadLine (raw : Str) : Option (Str × Str) :=
  let line := trim raw
  if line = [] ∨ line.head? = some '#' then none
  else (parseEntry line).filter fun entry =>
    placeholders entry.1 = placeholders entry.2 ∧ entry.2 ≠ []

/-- Rendering with `args` inserts the argument `index`. -/
def Inserts (template : Str) (args : List Str) (index : Nat) : Prop :=
  .arg index ∈ scan 0 template ∧ index < args.length

/-- How many opening braces there are at the end of a text that stands behind `run` of them. -/
def openings (run : Nat) (text : Str) : Nat :=
  text.foldl (fun run char => if char = '{' then run + 1 else 0) run

/-- The text ends with `index` behind an opening brace that those in front of it do not pair. -/
def Opens (run : Nat) (inner : Str) (index : Nat) : Prop :=
  ∃ front number, inner = front ++ '{' :: number ∧ parseUsize number = some index ∧
    openings run front % 2 = 0

/-- A malformed placeholder ends with an unpaired brace and an index. -/
def Hides (text : Str) (index : Nat) : Prop :=
  ∃ inner ∈ braces 0 text, parseUsize inner = none ∧ Opens 0 inner index

variable {index skip : Nat} {inner text rest key val : Str}

theorem readIndex_eq (hspl : splitOnce '}' rest = some (inner, text)) :
    readIndex rest = (parseUsize inner).map (·, inner.length + 1) := by
  cases hp : parseUsize inner <;> simp [readIndex, hspl, hp]

theorem scan_skip (front back : Str) : scan front.length (front ++ back) = scan 0 back := by
  induction front with
  | nil => rfl
  | cons _ _ ih => exact ih

theorem arg_close (rest : Str) : .arg index ∈ scan 0 ('}' :: rest) ↔ .arg index ∈ scan 0 rest := by
  induction rest with
  | nil => simp [scan]
  | cons next rest ih =>
    by_cases hnext : next = '}'
    · subst hnext
      rw [ih]
      simp [scan]
    · simp [scan, hnext]

/-- A text without a closing brace is read the same whatever follows that brace. -/
theorem arg_append (hinn : '}' ∉ inner) (hskip : skip ≤ inner.length + 1) (rest : Str) :
    .arg index ∈ scan skip (inner ++ '}' :: rest) ↔
      .arg index ∈ scan skip (inner ++ ['}']) ∨ .arg index ∈ scan 0 rest := by
  induction inner generalizing skip with
  | nil =>
    rcases skip with - | skip
    · rw [List.nil_append, arg_close]
      simp [scan]
    · obtain rfl : skip = 0 := by simpa using hskip
      simp [scan]
  | cons char inner ih =>
    rw [List.mem_cons, not_or] at hinn
    rcases skip with - | skip
    · have hread : ∀ rest, readIndex (inner ++ '}' :: rest) =
          (parseUsize inner).map (·, inner.length + 1) :=
        fun rest => readIndex_eq (splitOnce_append hinn.2 rest)
      have hhead : ∀ rest, (inner ++ '}' :: rest).head? = some (inner.head?.getD '}') := by
        intro rest
        cases inner <;> rfl
      simp only [List.cons_append, scan, hread, hhead]
      split
      · simpa using ih hinn.2 (by simp)
      · split
        · rename_i hf
          obtain ⟨-, -, -, -, rfl⟩ := by simpa using hf
          simpa [or_assoc] using or_congr_right (ih hinn.2 (Nat.le_refl _))
        · simpa using ih hinn.2 (Nat.zero_le _)
    · exact ih hinn.2 (by simpa using hskip)

theorem parseUsize_brace (hbrace : '{' ∈ inner) : parseUsize inner = none := by
  rw [parseUsize, parseU64, Option.map_map, Option.map_eq_none_iff,
    Option.eq_none_iff_forall_ne_some]
  exact fun _ hnum => not_mem_of_toNatBelow hnum (by decide) (by decide) hbrace

theorem opens_cons (run : Nat) (char : Char) : Opens run (char :: rest) index ↔
    char = '{' ∧ parseUsize rest = some index ∧ run % 2 = 0 ∨
      Opens (if char = '{' then run + 1 else 0) rest index := by
  constructor
  · rintro ⟨front, number, hs, hp, heven⟩
    rcases List.cons_eq_append_iff.mp hs with ⟨rfl, hrest⟩ | ⟨front, rfl, hrest⟩
    · cases hrest
      exact .inl ⟨rfl, hp, heven⟩
    · exact .inr ⟨front, number, hrest, hp, heven⟩
  · rintro (⟨rfl, hp, heven⟩ | ⟨front, number, rfl, hp, heven⟩)
    · exact ⟨[], rest, rfl, hp, heven⟩
    · exact ⟨char :: front, number, rfl, hp, heven⟩

theorem opens_add_two (run : Nat) : Opens (run + 2) inner index ↔ Opens run inner index := by
  induction inner generalizing run with
  | nil => simp [Opens]
  | cons char rest ih =>
    rw [opens_cons, opens_cons, Nat.add_mod_right]
    split
    · rw [Nat.add_right_comm, ih]
    · rfl

theorem opens_one (hsingle : inner.head? ≠ some '{') :
    Opens 1 inner index ↔ Opens 0 inner index := by
  cases inner with
  | nil => simp [Opens]
  | cons next inner =>
    have hnext : next ≠ '{' := by simpa using hsingle
    simp [opens_cons, hnext]

theorem not_opens {number : Nat} (hp : parseUsize inner = some number) (run : Nat) :
    ¬ Opens run inner index := by
  rintro ⟨front, digits, rfl, -⟩
  rw [parseUsize_brace (by simp)] at hp
  cases hp

/-- Inside a text without a closing brace `render` fills an index behind an unpaired brace. -/
theorem arg_iff_opens (hinn : '}' ∉ inner) (hskip : skip ≤ 1) :
    .arg index ∈ scan skip (inner ++ ['}']) ↔ Opens skip inner index := by
  induction inner generalizing skip with
  | nil =>
    obtain rfl | rfl := Nat.le_one_iff_eq_zero_or_eq_one.mp hskip <;> simp [scan, Opens]
  | cons char inner ih =>
    rw [List.mem_cons, not_or] at hinn
    rw [opens_cons]
    obtain rfl | rfl := Nat.le_one_iff_eq_zero_or_eq_one.mp hskip
    · by_cases hopen : char = '{'
      · subst hopen
        by_cases hdouble : inner.head? = some '{'
        · have hhead : (inner ++ ['}']).head? = some '{' := by simp [hdouble]
          simpa [scan, hhead, parseUsize_brace (List.mem_of_mem_head? hdouble)] using
            ih hinn.2 (Nat.le_refl 1)
        · have hhead : inner.head?.getD '}' ≠ '{' := by
            cases inner with
            | nil => decide
            | cons next rest => simpa using hdouble
          have hread := readIndex_eq (splitOnce_append hinn.2 [])
          cases hp : parseUsize inner with
          | none =>
            simpa [scan, hhead, hread, hp, opens_one hdouble] using ih hinn.2 (Nat.zero_le 1)
          | some number =>
            have hno := @not_opens index _ _ hp 1
            have hend : scan (inner.length + 1) (inner ++ ['}']) = [] := by
              simpa [scan] using scan_skip (inner ++ ['}']) []
            simpa [scan, hhead, hread, hp, hno, hend] using eq_comm
      · simpa [scan, hopen, Ne.symm hinn.1] using ih hinn.2 (Nat.zero_le 1)
    · have hnext : Opens (if char = '{' then 2 else 0) inner index ↔ Opens 0 inner index := by
        split
        · exact opens_add_two 0
        · rfl
      simpa [scan, hnext] using ih hinn.2 (Nat.zero_le 1)

/-- What `render` fills are the placeholders the loader sees and those in malformed ones. -/
theorem arg_mem_iff (text : Str) (skip : Nat) : .arg index ∈ scan skip text ↔
    ∃ inner ∈ braces skip text, parseUsize inner = some index ∨
      parseUsize inner = none ∧ Opens 0 inner index := by
  induction text generalizing skip with
  | nil => simp [scan, braces]
  | cons char rest ih =>
    rcases skip with - | skip
    · by_cases hopen : char = '{'
      · subst hopen
        by_cases hdouble : rest.head? = some '{'
        · simp [scan, braces, hdouble, ih]
        · cases hspl : splitOnce '}' rest with
          | none => simp [scan, braces, hdouble, hspl, readIndex, ih]
          | some found =>
            obtain ⟨inner, after⟩ := found
            obtain ⟨hinn, htext⟩ := splitOnce_eq_some hspl
            have hlat := ih (inner.length + 1)
            cases hp : parseUsize inner with
            | some number =>
              simp [scan, braces, hdouble, hspl, readIndex_eq hspl, hp, hlat, eq_comm]
            | none =>
              have hskip : scan (inner.length + 1) rest = scan 0 after := by
                simpa [htext] using scan_skip (inner ++ ['}']) after
              have hrds := @arg_append index 0 inner hinn (Nat.zero_le _) after
              rw [← htext, ← hskip, hlat, arg_iff_opens hinn (Nat.zero_le 1)] at hrds
              simp [scan, braces, hdouble, hspl, readIndex_eq hspl, hp, hrds]
      · have hbraces : braces 0 (char :: rest) = braces 0 rest := by simp [braces, hopen]
        rw [hbraces, ← ih]
        by_cases hclose : char = '}'
        · rw [hclose, arg_close]
        · simp [scan, hopen, hclose]
    · exact ih skip

theorem inserts_iff (args : List Str) : Inserts text args index ↔
    (index ∈ placeholders text ∨ Hides text index) ∧ index < args.length := by
  rw [Inserts, arg_mem_iff]
  simp only [Hides, placeholders, List.mem_toFinset, List.mem_filterMap, and_or_left, exists_or]

/-- A kept translation inserts the arguments its message does if, placeholders of the
message apart, the two hide the same ones in malformed placeholders. -/
theorem inserts_translated_iff {raw : Str} (hload : loadLine raw = some (key, val)) :
    (∀ args index, Inserts val args index ↔ Inserts key args index) ↔
      ∀ index ∉ placeholders key, Hides val index ↔ Hides key index := by
  have hs : placeholders key = placeholders val := by
    simp only [loadLine] at hload
    split at hload
    · cases hload
    · exact (of_decide_eq_true (Option.filter_eq_some_iff.mp hload).2).1
  simp only [inserts_iff, ← hs]
  constructor
  · intro hinserts index hidx
    simpa [hidx] using hinserts (List.replicate (index + 1) []) index
  · intro hhides args index
    by_cases hidx : index ∈ placeholders key
    · simp [hidx]
    · simp [hidx, hhides index hidx]

theorem inserts_translated_iff_plain :
    (∀ args index, Inserts "\x7b0\x7d ?" args index ↔ Inserts "Who is \x7b0\x7d?" args index) ↔
      ∀ index ∉ placeholders "Who is \x7b0\x7d?",
        Hides "\x7b0\x7d ?" index ↔ Hides "Who is \x7b0\x7d?" index :=
  @inserts_translated_iff _ _ "\"Who is \x7b0\x7d?\" = \"\x7b0\x7d ?\"" (by decide +kernel)

theorem translation_drops_arg :
    loadLine "\"\x7ba\x7b0\x7d\" = \"\x7ba\x7d\"" =
        some ("\x7ba\x7b0\x7d".toList, "\x7ba\x7d".toList) ∧
      Inserts "\x7ba\x7b0\x7d" ["x"] 0 ∧ ¬ Inserts "\x7ba\x7d" ["x"] 0 ∧
      render "\x7ba\x7b0\x7d" ["x"] = "\x7bax" ∧ render "\x7ba\x7d" ["x"] = "\x7ba\x7d" := by
  unfold Inserts
  decide +kernel

end EchoIrcd.Catalog
