import EchoIrcd.Lib.Text

/-!
# Wire lines

`message.rs`: one line of text is parsed into a source, an upper-cased command
and parameters, the last of which may be a trailing parameter with blanks in
it.  A server writes a line as a `Line`, the arguments of one `format!` call;
the peer only ever sees its text.  The main result reads a rendered line back:
every parameter survives that is a single wire token, and a last parameter that
is not is cut by `parseParams`, exactly as the peer cuts it.
-/

namespace EchoIrcd

open Str List

variable {command text word : Str} {line : Line} {params : List Str}

structure Message where
  source : Option Str
  command : Str
  params : List Str
  ctags : Str := []
  label : Option Str := none
  batch : Option Str := none
  concat : Bool := false
  deriving DecidableEq, Repr

/-! ## Parsing -/

structure Tags where
  ctags : Str := []
  label : Option Str := none
  batch : Option Str := none
  concat : Bool := false

def Tags.add (tags : Tags) (tag : Str) : Tags :=
  if tag.head? = some '+' then
    { tags with
      ctags := (if tags.ctags = [] then [] else tags.ctags ++ [';']) ++ tag }
  else if ("label=" : Str).isPrefixOf tag then
    { tags with label := some (tag.drop 6) }
  else if ("batch=" : Str).isPrefixOf tag then
    { tags with batch := some (tag.drop 6) }
  else if tag = "draft/multiline-concat" then { tags with concat := true }
  else tags

def parseParamsFuel : Nat → Str → List Str
  | 0, _ => []
  | _ + 1, [] => []
  | _ + 1, ':' :: trailing => [trailing]
  | fuel + 1, first :: rest =>
    match splitOnce ' ' (first :: rest) with
    | some (param, rest) => param :: parseParamsFuel fuel (trimStart rest)
    | none => [first :: rest]

def parseParams (rest : Str) : List Str := parseParamsFuel rest.length rest

def parseBody (tags : Tags) (source : Option Str) (rest : Str) :
    Option Message :=
  let (command, rest) := match splitOnce ' ' rest with
    | some (command, rest) => (command, trimStart rest)
    | none => (rest, [])
  if command = [] then none
  else some {
    source := source
    command := toAsciiUpper command
    params := parseParams rest
    ctags := tags.ctags
    label := tags.label
    batch := tags.batch
    concat := tags.concat }

def parseSource (tags : Tags) (rest : Str) : Option Message :=
  match rest with
  | ':' :: after =>
    (splitOnce ' ' after).bind fun (source, rest) =>
      parseBody tags (some source) (trimStart rest)
  | _ => parseBody tags none rest

def parse (line : Str) : Option Message :=
  match trimStart line with
  | '@' :: after =>
    (splitOnce ' ' after).bind fun (tags, rest) =>
      parseSource ((tags.splitOn ';').foldl Tags.add {}) (trimStart rest)
  | rest => parseSource {} rest

/-! ## Writing -/

def needsColon (param : Str) : Bool :=
  param = [] ∨ ' ' ∈ param ∨ param.head? = some ':'

def wireParams : List Str → Str
  | [] => []
  | [last] => ' ' :: (if needsColon last then ':' :: last else last)
  | param :: rest => ' ' :: param ++ wireParams rest

def wireSource : Option Str → Str
  | some source => ':' :: source ++ [' ']
  | none => []

def Message.toWire (message : Message) : Str :=
  wireSource message.source ++ message.command ++ wireParams message.params

structure Line where
  source : Option Str
  command : Str
  params : List Str
  trailing : Option Str := none
  deriving DecidableEq, Repr

def Line.render (line : Line) : Str :=
  wireSource line.source ++ line.command ++
    line.params.flatMap (' ' :: ·) ++
    match line.trailing with
    | some trailing => ' ' :: ':' :: trailing
    | none => []

/-! ## Wire tokens -/

def IsToken (word : Str) : Prop :=
  word ≠ [] ∧ ' ' ∉ word ∧ word.head? ≠ some ':'

instance (word : Str) : Decidable (IsToken word) :=
  inferInstanceAs (Decidable (_ ∧ _ ∧ _))

theorem IsToken.head_ne_blank (hword : IsToken word)
    (rest : Str) : (word ++ rest).head? ≠ some ' ' := by
  cases word with
  | nil => exact absurd rfl hword.1
  | cons first word =>
    intro hhead
    have hfst : first = ' ' := by simpa using hhead
    exact hword.2.1 (by simp [hfst])

theorem IsToken.head_ne_colon (hword : IsToken word)
    (rest : Str) : ∀ after, word ++ rest ≠ ':' :: after := by
  intro after heq
  cases word with
  | nil => exact hword.1 rfl
  | cons first word =>
    simp only [cons_append, cons.injEq] at heq
    exact hword.2.2 (by simp [heq.1])

private theorem parseParamsFuel_eq {fuel more : Nat} {rest : Str}
    (hfuel : rest.length ≤ fuel) (hmore : rest.length ≤ more) :
    parseParamsFuel fuel rest = parseParamsFuel more rest := by
  induction fuel generalizing more rest with
  | zero =>
    have hnil : rest = [] := length_eq_zero_iff.mp (by omega)
    subst hnil
    cases more <;> rfl
  | succ fuel ih =>
    cases rest with
    | nil => cases more <;> rfl
    | cons first rest =>
      obtain ⟨more, rfl⟩ : ∃ k, more = k + 1 :=
        ⟨more - 1, by simp only [length_cons] at hmore; omega⟩
      by_cases hcol : first = ':'
      · subst hcol
        rfl
      · rw [parseParamsFuel, parseParamsFuel]
        · cases hspl : splitOnce ' ' (first :: rest) with
          | none => rfl
          | some parts =>
            obtain ⟨word, tail⟩ := parts
            have hlen := congrArg length
              (splitOnce_eq_some hspl).2
            have htrim := trimStart_length_le tail
            simp only [length_cons, length_append]
              at hlen hfuel hmore
            have hrest : parseParamsFuel fuel (trimStart tail) =
                parseParamsFuel more (trimStart tail) :=
              ih (by omega) (by omega)
            simp only [hrest]
        · simpa using hcol
        · simpa using hcol

theorem parseParams_trailing (trailing : Str) : parseParams (':' :: trailing) = [trailing] := rfl

theorem parseParams_token_cons (hword : IsToken word) (rest : Str) :
    parseParams (word ++ ' ' :: rest) = word :: parseParams (trimStart rest) := by
  obtain ⟨first, tail, rfl⟩ := exists_cons_of_ne_nil hword.1
  have hcol : first ≠ ':' := by simpa using hword.2.2
  have hspl := splitOnce_append hword.2.1 rest
  have htrim := trimStart_length_le rest
  rw [parseParams, cons_append, length_cons, parseParamsFuel]
  · rw [← cons_append, hspl]
    simp only [cons.injEq, true_and]
    exact parseParamsFuel_eq
      (by simp only [length_append, length_cons]; omega) (Nat.le_refl _)
  · simpa using hcol

theorem parseParams_token (hword : IsToken word) : parseParams word = [word] := by
  obtain ⟨first, tail, rfl⟩ := exists_cons_of_ne_nil hword.1
  have hcol : first ≠ ':' := by simpa using hword.2.2
  rw [parseParams, length_cons, parseParamsFuel, splitOnce_eq_none hword.2.1]
  simpa using hcol

/-! ## Reading a rendered line back -/

private theorem flatMap_blank (params : List Str) (tail : Str) :
    ∃ after, params.flatMap (' ' :: ·) ++ ' ' :: tail = ' ' :: after := by
  cases params with
  | nil => exact ⟨tail, rfl⟩
  | cons param rest => exact ⟨_, rfl⟩

theorem parseParams_flatMap (hpar : ∀ param ∈ params, IsToken param) (tail : Str) :
    parseParams (trimStart (params.flatMap (' ' :: ·) ++ ' ' :: tail)) =
      params ++ parseParams (trimStart tail) := by
  induction params with
  | nil => simp
  | cons param rest ih =>
    have htok := hpar param mem_cons_self
    have hrest := ih fun other ho =>
      hpar other (mem_cons_of_mem _ ho)
    obtain ⟨after, haft⟩ := flatMap_blank rest tail
    rw [haft, trimStart_blank] at hrest
    rw [flatMap_cons, append_assoc, haft, cons_append,
      trimStart_blank, trimStart_of_head (htok.head_ne_blank _),
      parseParams_token_cons htok, hrest]
    rfl

theorem parseParams_flatMap_nil (hpar : ∀ param ∈ params, IsToken param) :
    parseParams (trimStart (params.flatMap (' ' :: ·))) = params := by
  rcases eq_nil_or_concat params with rfl | ⟨front, last, rfl⟩
  · rfl
  · have hlast : IsToken last := hpar last (by simp)
    have htoks : ∀ param ∈ front, IsToken param := by
      intro param hprm
      exact hpar param (by simp [hprm])
    have hfront := parseParams_flatMap htoks last
    have htrim : trimStart last = last := by
      simpa using trimStart_of_head (hlast.head_ne_blank [])
    rw [htrim, parseParams_token hlast] at hfront
    simpa using hfront

def IsCommand (word : Str) : Prop :=
  IsToken word ∧ word.head? ≠ some '@'

instance (word : Str) : Decidable (IsCommand word) :=
  inferInstanceAs (Decidable (_ ∧ _))

def SourceOk (source : Option Str) : Prop :=
  ∀ name, source = some name → ' ' ∉ name

private theorem parse_source {source : Option Str} (hsrc : SourceOk source)
    (hcmd : IsCommand command) (rest : Str) :
    parse (wireSource source ++ (command ++ rest)) = parseBody {} source (command ++ rest) := by
  have htrim := trimStart_of_head (hcmd.1.head_ne_blank rest)
  cases source with
  | some name =>
    have hname : ' ' ∉ name := hsrc name rfl
    have hcut : parse (':' :: (name ++ ' ' :: (command ++ rest))) =
        (splitOnce ' ' (name ++ ' ' :: (command ++ rest))).bind
          fun parts => parseBody {} (some parts.1) (trimStart parts.2) := by
      rfl
    rw [splitOnce_append hname] at hcut
    simpa [wireSource, htrim] using hcut
  | none =>
    rw [parse, wireSource, nil_append, htrim]
    obtain ⟨first, tail, rfl⟩ := exists_cons_of_ne_nil hcmd.1.1
    have hat : first ≠ '@' := by simpa using hcmd.2
    have hcol : first ≠ ':' := by simpa using hcmd.1.2.2
    split
    · rename_i after heq
      exact absurd (cons.inj heq).1 hat
    · rw [parseSource]
      intro after heq
      exact hcol (cons.inj heq).1

private theorem parseBody_command (hcmd : IsCommand command) (source : Option Str)
    (rest : Str) :
    parseBody {} source (command ++ ' ' :: rest) =
      some { source := source, command := toAsciiUpper command,
             params := parseParams (trimStart rest) } := by
  rw [parseBody, splitOnce_append hcmd.1.2.1]
  simp [hcmd.1.1]

theorem parse_render (hsrc : SourceOk line.source) (hcmd : IsCommand line.command)
    (hpar : ∀ param ∈ line.params, IsToken param) :
    parse line.render =
      some { source := line.source, command := toAsciiUpper line.command,
             params := line.params ++ line.trailing.toList } := by
  obtain ⟨source, command, params, trailing⟩ := line
  simp only [Line.render, append_assoc]
  rw [parse_source hsrc hcmd]
  cases trailing with
  | some trailing =>
    obtain ⟨after, haft⟩ := flatMap_blank params (':' :: trailing)
    have hread := parseParams_flatMap hpar (':' :: trailing)
    rw [haft, trimStart_blank] at hread
    simp only [haft, parseBody_command hcmd, hread]
    rfl
  | none =>
    have hread := parseParams_flatMap_nil hpar
    cases params with
    | nil =>
      rw [parseBody, flatMap_nil, append_nil, append_nil, splitOnce_eq_none hcmd.1.2.1]
      simp [hcmd.1.1, parseParams, parseParamsFuel]
    | cons param rest =>
      rw [flatMap_cons, cons_append, trimStart_blank] at hread
      simp only [flatMap_cons, cons_append, append_nil, parseBody_command hcmd, hread]
      simp

theorem parse_render_last {line : Line} {params : List Str} {last : Str}
    (hline : line.params = params ++ [last]) (htrailing : line.trailing = none)
    (hsrc : SourceOk line.source) (hcmd : IsCommand line.command)
    (hpar : ∀ param ∈ params, IsToken param) :
    parse line.render =
      some { source := line.source, command := toAsciiUpper line.command,
             params := params ++ parseParams (trimStart last) } := by
  obtain ⟨source, command, _, trailing⟩ := line
  simp only at hline htrailing
  subst hline htrailing
  simp only [Line.render, append_assoc, append_nil]
  rw [parse_source hsrc hcmd, flatMap_append, flatMap_singleton]
  obtain ⟨after, haft⟩ := flatMap_blank params last
  have hread := parseParams_flatMap hpar last
  rw [haft, trimStart_blank] at hread
  rw [haft, parseBody_command hcmd, hread]

theorem parse_render_command (hsrc : SourceOk line.source) (hcmd : IsCommand line.command) :
    ∃ params, parse line.render =
      some { source := line.source, command := toAsciiUpper line.command,
             params := params } := by
  obtain ⟨source, command, params, trailing⟩ := line
  have hbl : ∀ rest, ∃ params, parse (wireSource source ++ (command ++ ' ' :: rest)) =
      some { source := source, command := toAsciiUpper command, params := params } := by
    intro rest
    rw [parse_source hsrc hcmd, parseBody_command hcmd]
    exact ⟨_, rfl⟩
  simp only [Line.render, append_assoc]
  cases params with
  | cons param params => exact hbl _
  | nil =>
    cases trailing with
    | some trailing => exact hbl _
    | none =>
      refine ⟨[], ?_⟩
      rw [parse_source hsrc hcmd, parseBody, flatMap_nil,
        append_nil, append_nil, splitOnce_eq_none hcmd.1.2.1]
      simp [hcmd.1.1, parseParams, parseParamsFuel]

/-! ## Texts of several words -/

def fields (text : Str) : List Str := (text.splitOnP (· = ' ')).filter (· ≠ [])

theorem fields_of_solid (hbl : ' ' ∉ text) : fields text = if text = [] then [] else [text] := by
  have hsol : ∀ char ∈ text, decide (char = ' ') = false := by
    intro char hchar
    have hne : char ≠ ' ' := by
      rintro rfl
      exact hbl hchar
    simp [hne]
  rw [fields, splitOnP_eq_singleton hsol]
  by_cases hnil : text = [] <;> simp [hnil]

theorem fields_blank (hbl : ' ' ∉ word) (rest : Str) :
    fields (word ++ ' ' :: rest) = fields word ++ fields rest := by
  have hsol : ∀ char ∈ word, decide (char = ' ') = false := by
    intro char hchar
    have hne : char ≠ ' ' := by
      rintro rfl
      exact hbl hchar
    simp [hne]
  rw [fields, splitOnP_append_cons word rest (by decide),
    splitOnP_eq_singleton hsol, fields, splitOnP_eq_singleton hsol, fields,
    ← filter_append]

theorem fieldsInduction {motive : Str → Prop} (solid : ∀ word, ' ' ∉ word → motive word)
    (blank : ∀ word rest, ' ' ∉ word → motive rest → motive (word ++ ' ' :: rest))
    (text : Str) : motive text := by
  induction hlen : text.length using Nat.strongRecOn generalizing text with
  | _ length ih =>
    by_cases hbl : ' ' ∈ text
    · obtain ⟨word, rest, rfl, hword⟩ := eq_append_cons_of_mem hbl
      refine blank word rest hword (ih rest.length ?_ rest rfl)
      simp only [← hlen, length_append, length_cons]
      omega
    · exact solid text hbl

def isMiddle (word : Str) : Bool := word.head? ≠ some ':'

theorem all_isMiddle_of_solid (hbl : ' ' ∉ word) :
    (fields word).all isMiddle = isMiddle word := by
  rw [fields_of_solid hbl]
  split
  · subst_vars
    rfl
  · simp

theorem parseParams_middle (hbl : ' ' ∉ word) (hmid : isMiddle word = true) (tail : Str) :
    parseParams (trimStart (word ++ ' ' :: tail)) =
      fields word ++ parseParams (trimStart tail) := by
  rw [fields_of_solid hbl]
  cases word with
  | nil => simp
  | cons first rest =>
    have htok : IsToken (first :: rest) :=
      ⟨cons_ne_nil _ _, hbl, by simpa [isMiddle] using hmid⟩
    rw [trimStart_of_head (htok.head_ne_blank _), parseParams_token_cons htok]
    simp

theorem parseParams_colon (hcol : isMiddle word = false) (tail : Str) :
    ∃ rest, parseParams (trimStart (word ++ tail)) = [rest] := by
  cases word with
  | nil => cases hcol
  | cons first word =>
    have hfst : first = ':' := by simpa [isMiddle] using hcol
    subst hfst
    exact ⟨word ++ tail, by rw [trimStart_of_head (by simp)]; rfl⟩

theorem parseParams_fields (hmid : (fields text).all isMiddle = true) (tail : Str) :
    parseParams (trimStart (text ++ ' ' :: tail)) =
      fields text ++ parseParams (trimStart tail) := by
  induction text using fieldsInduction generalizing tail with
  | solid text hbl =>
    rw [all_isMiddle_of_solid hbl] at hmid
    exact parseParams_middle hbl hmid tail
  | blank word rest hbl ih =>
    rw [fields_blank hbl, all_append, Bool.and_eq_true,
      all_isMiddle_of_solid hbl] at hmid
    rw [fields_blank hbl, append_assoc, cons_append,
      parseParams_middle hbl hmid.1, ih hmid.2, append_assoc]

theorem parseParams_fields_colon (hcol : (fields text).all isMiddle = false) (tail : Str) :
    ∃ rest, parseParams (trimStart (text ++ ' ' :: tail)) =
      (fields text).takeWhile isMiddle ++ [rest] := by
  induction text using fieldsInduction generalizing tail with
  | solid text hbl =>
    rw [all_isMiddle_of_solid hbl] at hcol
    obtain ⟨rest, hread⟩ := parseParams_colon hcol (' ' :: tail)
    rw [hread, fields_of_solid hbl]
    split <;> simp [hcol]
  | blank word rest hbl ih =>
    rw [fields_blank hbl, all_append, all_isMiddle_of_solid hbl] at hcol
    rw [fields_blank hbl, append_assoc, cons_append]
    cases hword : isMiddle word with
    | false =>
      obtain ⟨last, hread⟩ := parseParams_colon hword (' ' :: (rest ++ ' ' :: tail))
      have hne : word ≠ [] := by
        rintro rfl
        cases hword
      rw [hread, fields_of_solid hbl, if_neg hne]
      simp [hword]
    | true =>
      rw [hword, Bool.true_and] at hcol
      obtain ⟨last, hread⟩ := ih hcol tail
      refine ⟨last, ?_⟩
      have hall : (fields word).all isMiddle = true := by
        rw [all_isMiddle_of_solid hbl, hword]
      rw [parseParams_middle hbl hword, hread, ← append_assoc,
        takeWhile_append_of_pos (all_eq_true.mp hall)]

end EchoIrcd
