import EchoIrcd.Lib.Text

/-!
# Regular expressions

The engine of `regex.rs`: a parser for patterns, a compiler to a program with
branches and jumps, and a simulation that follows all threads of the program at
once through a text.  An unanchored search is a loop in front of the program
that skips characters.
-/

namespace EchoIrcd

open Str

/-- A member of a character class, or a shorthand like `\d`. -/
inductive ClassItem where
  | range (low high : Char)
  | digit
  | notDigit
  | word
  | notWord
  | space
  | notSpace
  deriving DecidableEq, Repr

def isAsciiWhitespace (char : Char) : Bool :=
  char = ' ' || char = '\t' || char = '\n' || char = '\x0c' || char = '\r'

def isWordChar (char : Char) : Bool := char.isAlpha || char.isDigit || char = '_'

def ClassItem.matches (char : Char) : ClassItem → Bool
  | .range low high => low ≤ char && char ≤ high
  | .digit => char.isDigit
  | .notDigit => !char.isDigit
  | .word => isWordChar char
  | .notWord => !isWordChar char
  | .space => isAsciiWhitespace char
  | .notSpace => !isAsciiWhitespace char

def classHit (items : List ClassItem) (negated : Bool) (char : Char) : Bool :=
  items.any (ClassItem.matches char) != negated

structure RepeatBound where
  min : Nat
  max : Option Nat
  ordered : ∀ most ∈ max, min ≤ most
  deriving DecidableEq, Repr

/-- The syntax tree of a pattern; there is no alternation without alternatives. -/
inductive Ast where
  | empty
  | char (char : Char)
  | any
  | charClass (items : List ClassItem) (negated : Bool)
  | start
  | finish
  | concat (items : List Ast)
  | alt (first : Ast) (rest : List Ast)
  | star (body : Ast)
  | plus (body : Ast)
  | quest (body : Ast)
  | counted (body : Ast) (bound : RepeatBound)

inductive Inst where
  | char (char : Char)
  | any
  | charClass (items : List ClassItem) (negated : Bool)
  | split (left right : Nat)
  | jmp (goal : Nat)
  | start
  | finish
  | accept
  deriving DecidableEq, Repr

abbrev Prog := List Inst

/-! ## The parser -/

def maxDepth : Nat := 200

def maxRepeat : Nat := 1000

abbrev AstParser := Str → Except Str (Ast × Str)

def parseInt (rest : Str) : Option Nat × Str :=
  let digits := rest.takeWhile Char.isDigit
  (if digits = [] then none else toNatBelow (2 ^ 32) digits, rest.dropWhile Char.isDigit)

def boundOf (rest : Str) : Option (Nat × Option Nat × Str) :=
  let (min, rest) := parseInt rest
  match rest with
  | '\x7d' :: rest => min.map fun min => (min, some min, rest)
  | ',' :: rest =>
    let (max, rest) := parseInt rest
    match rest with
    | '\x7d' :: rest => some (min.getD 0, max, rest)
    | _ => none
  | _ => none

/-- `try_bound`: a bound that is one but too large or upside down is an error. -/
def tryBound (rest : Str) : Except Str (Option (RepeatBound × Str)) :=
  match boundOf rest with
  | none => .ok none
  | some (min, max, rest) =>
    if maxRepeat < min ∨ max.any (maxRepeat < ·) then .error "repetition count too large"
    else if ordered : ∀ most ∈ max, min ≤ most then .ok (some (⟨min, max, ordered⟩, rest))
    else .error "bad repetition range"

def escaped (char : Char) : Char :=
  if char = 'n' then '\n' else if char = 't' then '\t' else if char = 'r' then '\r' else char

def shorthand (char : Char) : Option ClassItem :=
  if char = 'd' then some .digit
  else if char = 'D' then some .notDigit
  else if char = 'w' then some .word
  else if char = 'W' then some .notWord
  else if char = 's' then some .space
  else if char = 'S' then some .notSpace
  else none

def parseEscape : AstParser
  | [] => .error "trailing backslash"
  | char :: rest =>
    match shorthand char with
    | some item => .ok (.charClass [item] false, rest)
    | none => .ok (.char (escaped char), rest)

def classMaybeRange (low : Char) (rest : Str) : Except Str (ClassItem × Str) :=
  match rest with
  | '-' :: next :: rest =>
    if next = ']' then .ok (.range low low, '-' :: next :: rest)
    else if next = '\\' then
      match rest with
      | [] => .error "unterminated `[`"
      | char :: rest =>
        if escaped char < low then .error "bad character range"
        else .ok (.range low (escaped char), rest)
    else if next < low then .error "bad character range"
    else .ok (.range low next, rest)
  | _ => .ok (.range low low, rest)

def classMember : Str → Except Str (ClassItem × Str)
  | [] => .error "unterminated `[`"
  | '\\' :: [] => .error "unterminated `[`"
  | '\\' :: char :: rest =>
    match shorthand char with
    | some item => .ok (item, rest)
    | none => classMaybeRange (escaped char) rest
  | char :: rest => classMaybeRange char rest

def parseClassLoop (negated : Bool) : Nat → List ClassItem → AstParser
  | 0, _, _ => .error "unterminated `[`"
  | fuel + 1, items, rest =>
    if rest.head? = some ']' ∧ items ≠ [] then .ok (.charClass items negated, rest.drop 1)
    else
      match classMember rest with
      | .error message => .error message
      | .ok (item, rest) => parseClassLoop negated fuel (items ++ [item]) rest

def parseClass : AstParser
  | '^' :: rest => parseClassLoop true (rest.length + 1) [] rest
  | rest => parseClassLoop false (rest.length + 1) [] rest

def skipFlags : Str → Str
  | '?' :: rest => (rest.dropWhile fun char => char ≠ ':' && char ≠ ')').drop 1
  | rest => rest

/-- `parse_atom`; `inner` parses what is inside a group. -/
def parseAtom (inner : AstParser) : AstParser
  | [] => .ok (.empty, [])
  | '(' :: rest =>
    match inner (skipFlags rest) with
    | .error message => .error message
    | .ok (ast, ')' :: rest) => .ok (ast, rest)
    | .ok _ => .error "unmatched `(`"
  | '[' :: rest => parseClass rest
  | '.' :: rest => .ok (.any, rest)
  | '^' :: rest => .ok (.start, rest)
  | '$' :: rest => .ok (.finish, rest)
  | '\\' :: rest => parseEscape rest
  | char :: rest =>
    if char = '*' ∨ char = '+' ∨ char = '?' then .error "nothing to repeat"
    else .ok (.char char, rest)

def eatLazy : Str → Str
  | '?' :: rest => rest
  | rest => rest

def parseRepeat (atom : AstParser) (rest : Str) : Except Str (Ast × Str) :=
  match atom rest with
  | .error message => .error message
  | .ok (ast, '*' :: rest) => .ok (.star ast, eatLazy rest)
  | .ok (ast, '+' :: rest) => .ok (.plus ast, eatLazy rest)
  | .ok (ast, '?' :: rest) => .ok (.quest ast, eatLazy rest)
  | .ok (ast, '\x7b' :: rest) =>
    match tryBound rest with
    | .error message => .error message
    | .ok none => .ok (ast, '\x7b' :: rest)
    | .ok (some (bound, rest)) => .ok (.counted ast bound, eatLazy rest)
  | .ok found => .ok found

def Ast.ofItems : List Ast → Ast
  | [] => .empty
  | [item] => item
  | items => .concat items

def parseConcat (atom : AstParser) : Nat → List Ast → AstParser
  | 0, items, rest => .ok (.ofItems items, rest)
  | fuel + 1, items, rest =>
    if rest = [] ∨ rest.head? = some '|' ∨ rest.head? = some ')' then .ok (.ofItems items, rest)
    else
      match parseRepeat atom rest with
      | .error message => .error message
      | .ok (item, rest) => parseConcat atom fuel (items ++ [item]) rest

def Ast.ofAlts (first : Ast) : List Ast → Ast
  | [] => first
  | rest => .alt first rest

def parseAlts (atom : AstParser) (first : Ast) : Nat → List Ast → AstParser
  | fuel + 1, alts, '|' :: rest =>
    match parseConcat atom rest.length [] rest with
    | .error message => .error message
    | .ok (ast, rest) => parseAlts atom first fuel (alts ++ [ast]) rest
  | _, alts, rest => .ok (.ofAlts first alts, rest)

def parseAlt (atom : AstParser) : AstParser := fun rest =>
  match parseConcat atom rest.length [] rest with
  | .error message => .error message
  | .ok (first, rest) => parseAlts atom first rest.length [] rest

def atomAt : Nat → AstParser
  | 0 => fun _ => .error "pattern too deeply nested"
  | room + 1 => parseAtom (parseAlt (atomAt room))

def parsePattern (pattern : Str) : Except Str Ast :=
  match parseAlt (atomAt maxDepth) pattern with
  | .error message => .error message
  | .ok (ast, []) => .ok ast
  | .ok (_, char :: _) => .error ("unexpected `".toList ++ char :: "`".toList)

/-! ## The compiler -/

def maxProg : Nat := 200000

abbrev Gen := Prog → Except Str Prog

namespace Gen

def guarded (body : Gen) : Gen := fun prog =>
  if maxProg < prog.length then .error "pattern too large"
  else
    match body prog with
    | .error message => .error message
    | .ok prog => if maxProg < prog.length then .error "pattern too large" else .ok prog

def push (inst : Inst) : Gen := fun prog => .ok (prog ++ [inst])

def seq : List Gen → Gen
  | [] => fun prog => .ok prog
  | gen :: gens => fun prog => (gen prog).bind (seq gens)

def star (body : Gen) : Gen := fun prog =>
  (body (prog ++ [.split 0 0])).map fun compiled =>
    (compiled ++ [.jmp prog.length]).set prog.length
      (.split (prog.length + 1) (compiled.length + 1))

def plus (body : Gen) : Gen := fun prog =>
  (body prog).map fun compiled => compiled ++ [.split prog.length (compiled.length + 1)]

def quest (body : Gen) : Gen := fun prog =>
  (body (prog ++ [.split 0 0])).map fun compiled =>
    compiled.set prog.length (.split (prog.length + 1) compiled.length)

def altLoop : Gen → List Gen → List Nat → Prog → Except Str (Prog × List Nat)
  | gen, [], jmps, prog => (gen prog).map fun compiled => (compiled, jmps)
  | gen, next :: gens, jmps, prog =>
    (gen (prog ++ [.split 0 0])).bind fun compiled =>
      altLoop next gens (jmps ++ [compiled.length])
        ((compiled ++ [Inst.jmp 0]).set prog.length
          (.split (prog.length + 1) (compiled.length + 1)))

def alt (first : Gen) (rest : List Gen) : Gen := fun prog =>
  (altLoop first rest [] prog).map fun (compiled, jmps) =>
    jmps.foldl (fun prog place => prog.set place (Inst.jmp compiled.length)) compiled

/-- `min` copies, and then a loop or optional copies up to `max`. -/
def counted (body : Gen) (bound : RepeatBound) : Gen :=
  seq (List.replicate bound.min body ++
    match bound.max with
    | none => [guarded (star body)]
    | some max => List.replicate (max - bound.min) (guarded (quest body)))

end Gen

mutual

def Ast.compile : Ast → Gen
  | .empty => .guarded fun prog => .ok prog
  | .char letter => .guarded (.push (.char letter))
  | .any => .guarded (.push .any)
  | .charClass items negated => .guarded (.push (.charClass items negated))
  | .start => .guarded (.push .start)
  | .finish => .guarded (.push .finish)
  | .concat items => .guarded (.seq (Ast.compileAll items))
  | .alt first rest => .guarded (.alt first.compile (Ast.compileAll rest))
  | .star body => .guarded (.star body.compile)
  | .plus body => .guarded (.plus body.compile)
  | .quest body => .guarded (.quest body.compile)
  | .counted body bound => .guarded (.counted body.compile bound)

def Ast.compileAll : List Ast → List Gen
  | [] => []
  | item :: items => item.compile :: Ast.compileAll items

end

def searchPrefix : Prog := [.split 1 3, .any, .jmp 0]

def compileSearch (ast : Ast) : Except Str Prog :=
  (ast.compile searchPrefix).map fun prog => prog ++ [.accept]

def Regex.new (pattern : Str) : Except Str Prog := (parsePattern pattern).bind compileSearch

/-! ## The simulation -/

def Inst.next (pos length pc : Nat) : Inst → List Nat
  | .jmp goal => [goal]
  | .split left right => [left, right]
  | .start => if pos = 0 then [pc + 1] else []
  | .finish => if pos = length then [pc + 1] else []
  | _ => []

def Inst.waits : Inst → Bool
  | .char _ | .any | .charClass _ _ | .accept => true
  | _ => false

def Inst.hits (next : Option Char) : Inst → Bool
  | .char letter => next = some letter
  | .any => next.any (· ≠ '\n')
  | .charClass items negated => next.any (classHit items negated)
  | _ => false

/-- Threads at a position, and for each counter the last generation that visited it. -/
structure Threads where
  list : List Nat
  seen : List Nat
  deriving DecidableEq, Repr

def addThreads (prog : Prog) (gen pos length : Nat) : Nat → List Nat → Threads → Threads
  | fuel + 1, pc :: stack, threads =>
    if threads.seen[pc]? = some gen then addThreads prog gen pos length fuel stack threads
    else
      match prog[pc]? with
      | none => addThreads prog gen pos length fuel stack threads
      | some inst =>
        addThreads prog gen pos length fuel (inst.next pos length pc ++ stack)
          ⟨if inst.waits then threads.list ++ [pc] else threads.list, threads.seen.set pc gen⟩
  | _, _, threads => threads

def addThread (prog : Prog) (gen pos length start : Nat) (threads : Threads) : Threads :=
  addThreads prog gen pos length (2 * prog.length + 1) [start] threads

/-- The threads of a position make those of the next; `none` if one accepts. -/
def stepThreads (prog : Prog) (gen pos length : Nat) (next : Option Char) :
    List Nat → Threads → Option Threads
  | [], threads => some threads
  | pc :: list, threads =>
    match prog[pc]? with
    | none => stepThreads prog gen pos length next list threads
    | some inst =>
      if inst = .accept then none
      else if inst.hits next then
        stepThreads prog gen pos length next list
          (addThread prog gen (pos + 1) length (pc + 1) threads)
      else stepThreads prog gen pos length next list threads

def matchFrom (prog : Prog) (length : Nat) : Str → Nat → Nat → Threads → Bool
  | rest, pos, gen, threads =>
    match stepThreads prog (gen + 1) pos length rest.head? threads.list ⟨[], threads.seen⟩ with
    | none => true
    | some threads =>
      match rest with
      | [] => false
      | _ :: rest => matchFrom prog length rest (pos + 1) (gen + 1) threads

def Regex.isMatch (prog : Prog) (text : Str) : Bool :=
  matchFrom prog text.length text 0 1
    (addThread prog 1 0 text.length 0 ⟨[], List.replicate prog.length 0⟩)

example : (Regex.new "a(b|c)+$").map (Regex.isMatch · "xxabcb") = .ok true := by decide +kernel

example : (Regex.new "b").map (Regex.isMatch · "a\nb") = .ok false := by decide +kernel

end EchoIrcd
