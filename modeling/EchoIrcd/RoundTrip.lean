import EchoIrcd.Message

/-!
# Messages rebuilt for another link

A line that is passed on is parsed and written out again by `to_wire`.  What
the parser makes of a line has one shape: no blank in the source or the command
word, and every parameter but the last a single token.  A message of that shape
is read back unchanged, unless it has no source and its command word opens like
a tag block, which a line can only bring about behind a tag block of its own.
-/

namespace EchoIrcd

open Str List Option

variable {params : List Str} {message : Message} {rest : Str} {tags : Tags}

/-! ## The shape of a parsed message -/

theorem parseParamsFuel_dropLast (fuel : Nat) (rest : Str) (hrest : rest.head? ≠ some ' ') :
    ∀ param ∈ (parseParamsFuel fuel rest).dropLast, IsToken param := by
  induction fuel generalizing rest with
  | zero => simp [parseParamsFuel]
  | succ fuel ih =>
    cases rest with
    | nil => simp [parseParamsFuel]
    | cons first rest =>
      by_cases hcol : first = ':'
      · subst hcol
        simp [parseParamsFuel]
      · rw [parseParamsFuel]
        · split
          · rename_i word tail hspl
            obtain ⟨hword, htext⟩ := splitOnce_eq_some hspl
            intro param hprm
            have hcases : param = word ∨
                param ∈ (parseParamsFuel fuel (trimStart tail)).dropLast := by
              cases hmore : parseParamsFuel fuel (trimStart tail) with
              | nil => simp [hmore] at hprm
              | cons next more => simpa [hmore] using hprm
            rcases hcases with rfl | hlat
            · -- a word in front of a blank: not empty, as the text starts with no blank
              cases param with
              | nil => simp_all
              | cons head word =>
                obtain rfl : first = head := by simpa using congrArg head? htext
                exact ⟨by simp, hword, by simpa using hcol⟩
            · exact ih _ (trimStart_head tail) param hlat
          · simp
        · simpa using hcol

/-- What the parser makes of a line. -/
structure Message.Parsed (message : Message) : Prop where
  source : SourceOk message.source
  nonempty : message.command ≠ []
  solid : ' ' ∉ message.command
  upper : toAsciiUpper message.command = message.command
  unsourced : message.source = none → message.command.head? ≠ some ':'
  params : ∀ param ∈ message.params.dropLast, IsToken param

theorem parseBody_eq_some {source : Option Str} (hsrc : SourceOk source)
    (hcol : source = none → rest.head? ≠ some ':') (hrest : rest.head? ≠ some ' ')
    (hp : parseBody tags source rest = some message) :
    message.Parsed ∧ message.source = source ∧
      (message.command.head? = some '@' ↔ rest.head? = some '@') := by
  have hbody : ∀ command after : Str, ' ' ∉ command → after.head? ≠ some ' ' →
      (command = [] ∨ command.head? = rest.head?) →
      (if command = [] then none else some
        { source := source, command := toAsciiUpper command, params := parseParams after,
          ctags := tags.ctags, label := tags.label, batch := tags.batch,
          concat := tags.concat : Message }) = some message →
      message.Parsed ∧ message.source = source ∧
        (message.command.head? = some '@' ↔ rest.head? = some '@') := by
    intro command after hsol haft hhead hmsg
    split_ifs at hmsg with hemp
    rw [some.injEq] at hmsg
    subst hmsg
    have hhead : command.head? = rest.head? := hhead.resolve_left hemp
    refine ⟨⟨hsrc, ?_, ?_, toAsciiUpper_toAsciiUpper command, ?_, ?_⟩, rfl, ?_⟩
    · simpa [toAsciiUpper] using hemp
    · rw [mem_toAsciiUpper (by decide)]
      exact hsol
    · intro hnone
      rw [Ne, head?_toAsciiUpper (by decide), hhead]
      exact hcol hnone
    · exact parseParamsFuel_dropLast _ after haft
    · rw [head?_toAsciiUpper (by decide), hhead]
  unfold parseBody at hp
  cases hspl : splitOnce ' ' rest with
  | some parts =>
    obtain ⟨command, after⟩ := parts
    obtain ⟨hsol, htext⟩ := splitOnce_eq_some hspl
    rw [hspl] at hp
    refine hbody command (trimStart after) hsol (trimStart_head after) ?_ hp
    cases command with
    | nil => exact .inl rfl
    | cons first command => simp [htext]
  | none =>
    rw [hspl] at hp
    refine hbody rest [] ?_ (by simp) (.inr rfl) hp
    intro hbl
    obtain ⟨word, tail, rfl, hword⟩ := eq_append_cons_of_mem hbl
    rw [splitOnce_append hword] at hspl
    cases hspl

theorem parseSource_eq_some (hrest : rest.head? ≠ some ' ')
    (hp : parseSource tags rest = some message) :
    message.Parsed ∧
      (message.source = none ∧ message.command.head? = some '@' ↔ rest.head? = some '@') := by
  unfold parseSource at hp
  split at hp
  · rw [bind_eq_some_iff] at hp
    obtain ⟨⟨source, tail⟩, hspl, hp⟩ := hp
    have hsrc : SourceOk (some source) := by
      rintro name ⟨⟩
      exact (splitOnce_eq_some hspl).1
    obtain ⟨hprs, hs, -⟩ := parseBody_eq_some hsrc (by simp) (trimStart_head tail) hp
    refine ⟨hprs, ?_⟩
    simp [hs]
  · rename_i hcol
    have hhead : rest.head? ≠ some ':' := by
      intro hhead
      cases rest with
      | nil => cases hhead
      | cons first rest =>
        obtain rfl : first = ':' := by simpa using hhead
        exact hcol rest rfl
    obtain ⟨hprs, hs, hat⟩ :=
      parseBody_eq_some (by rintro name ⟨⟩) (fun _ => hhead) hrest hp
    refine ⟨hprs, ?_⟩
    rw [hat]
    simp [hs]

def TagsTwice (line : Str) : Prop :=
  ∃ tags rest, trimStart line = '@' :: (tags ++ ' ' :: rest) ∧ ' ' ∉ tags ∧
    (trimStart rest).head? = some '@'

theorem parse_eq_some {line : Str} (hp : parse line = some message) :
    message.Parsed ∧
      (message.source = none ∧ message.command.head? = some '@' ↔ TagsTwice line) := by
  unfold parse at hp
  split at hp
  · rename_i after hline
    rw [bind_eq_some_iff] at hp
    obtain ⟨⟨tags, rest⟩, hspl, hp⟩ := hp
    obtain ⟨hsol, rfl⟩ := splitOnce_eq_some hspl
    obtain ⟨hprs, hat⟩ := parseSource_eq_some (trimStart_head rest) hp
    refine ⟨hprs, hat.trans ⟨fun hhead => ⟨tags, rest, hline, hsol, hhead⟩, ?_⟩⟩
    rintro ⟨word, tail, htext, hword, hhead⟩
    rw [hline, cons.injEq] at htext
    have hcut := splitOnce_append hword tail
    rw [← htext.2, splitOnce_append hsol, some.injEq, Prod.mk.injEq] at hcut
    rw [hcut.2]
    exact hhead
  · rename_i hline
    obtain ⟨hprs, hat⟩ := parseSource_eq_some (trimStart_head line) hp
    refine ⟨hprs, hat.trans (iff_of_false ?_ ?_)⟩
    · intro hhead
      cases htext : trimStart line with
      | nil => simp [htext] at hhead
      | cons first rest =>
        obtain rfl : first = '@' := by simpa [htext] using hhead
        exact hline rest htext
    · rintro ⟨word, tail, htext, -⟩
      exact hline _ htext

/-! ## Writing and reading back -/

theorem needsColon_eq_false {param : Str} : needsColon param = false ↔ IsToken param := by
  simp [needsColon, IsToken]

theorem wireParams_concat (front : List Str) (last : Str) :
    wireParams (front ++ [last]) =
      front.flatMap (' ' :: ·) ++ ' ' :: (if needsColon last then ':' :: last else last) := by
  induction front with
  | nil => rfl
  | cons param front ih =>
    cases front with
    | nil => simp [wireParams]
    | cons next front =>
      have hcut : wireParams (param :: (next :: front ++ [last])) =
          ' ' :: param ++ wireParams (next :: front ++ [last]) := rfl
      rw [cons_append, hcut, ih]
      simp

theorem parseParams_wireParams (hpar : ∀ param ∈ params.dropLast, IsToken param) :
    parseParams (trimStart (wireParams params)) = params := by
  rcases eq_nil_or_concat params with rfl | ⟨front, last, rfl⟩
  · rfl
  · rw [concat_eq_append, dropLast_concat] at hpar
    rw [concat_eq_append, wireParams_concat, parseParams_flatMap hpar]
    congr 1
    cases hcol : needsColon last with
    | true => exact parseParams_trailing last
    | false =>
      have htok := needsColon_eq_false.mp hcol
      have htrim : trimStart last = last := by
        simpa using trimStart_of_head (htok.head_ne_blank [])
      simp [htrim, parseParams_token htok]

theorem parseBody_wireParams {command : Str} (tags : Tags) (source : Option Str)
    (hemp : command ≠ []) (hsol : ' ' ∉ command)
    (hpar : ∀ param ∈ params.dropLast, IsToken param) :
    parseBody tags source (command ++ wireParams params) =
      some { source := source, command := toAsciiUpper command, params := params,
             ctags := tags.ctags, label := tags.label, batch := tags.batch,
             concat := tags.concat } := by
  have hread := parseParams_wireParams hpar
  unfold parseBody
  cases params with
  | nil =>
    rw [wireParams, append_nil, splitOnce_eq_none hsol]
    simp [hemp, parseParams, parseParamsFuel]
  | cons param rest =>
    obtain ⟨after, haft⟩ : ∃ after, wireParams (param :: rest) = ' ' :: after := by
      cases rest <;> exact ⟨_, rfl⟩
    rw [haft, trimStart_blank] at hread
    rw [haft, splitOnce_append hsol]
    simp [hemp, hread]

/-- The fields that `to_wire` writes. -/
def Message.SameCore (left right : Message) : Prop :=
  left.source = right.source ∧ left.command = right.command ∧ left.params = right.params

theorem parse_toWire (hprs : message.Parsed)
    (hat : ¬(message.source = none ∧ message.command.head? = some '@')) :
    ∃ again, parse message.toWire = some again ∧ again.SameCore message := by
  have hbody := parseBody_wireParams {} message.source hprs.nonempty hprs.solid
    hprs.params
  rw [hprs.upper] at hbody
  refine ⟨{ source := message.source, command := message.command, params := message.params },
    ?_, rfl, rfl, rfl⟩
  obtain ⟨first, command, hcmd⟩ := exists_cons_of_ne_nil hprs.nonempty
  have hbl : first ≠ ' ' := by
    rintro rfl
    exact hprs.solid (by simp [hcmd])
  have htrim : trimStart (message.command ++ wireParams message.params) =
      message.command ++ wireParams message.params :=
    trimStart_of_head (by simpa [hcmd] using hbl)
  rw [← hbody, Message.toWire, append_assoc]
  cases hsrc : message.source with
  | some name =>
    have hname : ' ' ∉ name := hprs.source name hsrc
    have htext : wireSource (some name) ++ (message.command ++ wireParams message.params) =
        ':' :: (name ++ ' ' :: (message.command ++ wireParams message.params)) := by
      simp [wireSource]
    have hcut : parse (':' :: (name ++ ' ' :: (message.command ++ wireParams message.params))) =
        (splitOnce ' ' (name ++ ' ' :: (message.command ++ wireParams message.params))).bind
          fun parts => parseBody {} (some parts.1) (trimStart parts.2) := by
      rfl
    rw [htext, hcut, splitOnce_append hname, bind_some, htrim]
  | none =>
    have hcol : first ≠ ':' := by simpa [hcmd] using hprs.unsourced hsrc
    have hat : first ≠ '@' := by simpa [hsrc, hcmd] using hat
    rw [wireSource, nil_append, parse, htrim, hcmd, cons_append]
    split
    · rename_i after heq
      exact absurd (cons.inj heq).1 hat
    · rw [parseSource]
      intro after heq
      exact hcol (cons.inj heq).1

theorem parse_toWire_tagged {again : Message} (hprs : message.Parsed)
    (hsrc : message.source = none) (hat : message.command.head? = some '@')
    (hp : parse message.toWire = some again) : ¬again.SameCore message := by
  rintro ⟨hs, -, hpar⟩
  rw [hsrc] at hs
  obtain ⟨first, word, hcmd⟩ := exists_cons_of_ne_nil hprs.nonempty
  obtain rfl : first = '@' := by simpa [hcmd] using hat
  have hword : ' ' ∉ word := by
    intro hbl
    exact hprs.solid (by simp [hcmd, hbl])
  have htrim : ∀ rest : Str, trimStart ('@' :: rest) = '@' :: rest := fun rest =>
    trimStart_of_head (by simp)
  rw [Message.toWire, hsrc, wireSource, nil_append, hcmd, cons_append, parse,
    htrim] at hp
  simp only at hp
  cases hrest : message.params with
  | nil =>
    rw [hrest, wireParams, append_nil, splitOnce_eq_none hword] at hp
    cases hp
  | cons param rest =>
    have htoks := hprs.params
    rw [hrest] at htoks hp hpar
    -- either the first parameter is now the command, or its colon opens a source
    by_cases htok : IsToken param
    · have htext : wireParams (param :: rest) = ' ' :: (param ++ wireParams rest) := by
        cases rest with
        | nil => simp [wireParams, needsColon_eq_false.mpr htok]
        | cons next rest => rfl
      rw [htext, splitOnce_append hword, bind_some] at hp
      simp only [trimStart_of_head (htok.head_ne_blank _)] at hp
      rw [parseSource, parseBody_wireParams _ _ htok.1 htok.2.1, some.injEq]
        at hp
      · rw [← hp] at hpar
        exact absurd (congrArg length hpar) (by simp)
      · intro other ho
        cases rest with
        | nil => simp at ho
        | cons next rest => exact htoks other (mem_cons_of_mem _ ho)
      · exact htok.head_ne_colon _
    · cases rest with
      | cons next rest => exact htok (htoks param (by simp))
      | nil =>
        have hcol : needsColon param = true := by
          rw [← Bool.not_eq_false, needsColon_eq_false]
          exact htok
        rw [wireParams, hcol, if_pos rfl, splitOnce_append hword, bind_some,
          trimStart_of_head (by simp)] at hp
        simp only [parseSource, bind_eq_some_iff] at hp
        obtain ⟨⟨source, tail⟩, -, hp⟩ := hp
        simp only [parseBody] at hp
        split_ifs at hp
        rw [← some.inj hp] at hs
        cases hs

/-- Rebuilding a parsed line keeps its core, unless its tags hide another tag block. -/
theorem parse_toWire_iff (line : Str) (message : Message) (hp : parse line = some message) :
    (∃ again, parse message.toWire = some again ∧ again.SameCore message) ↔ ¬TagsTwice line := by
  obtain ⟨hprs, hat⟩ := parse_eq_some hp
  rw [← hat]
  constructor
  · rintro ⟨again, hagain, hs⟩ ⟨hsrc, hhead⟩
    exact parse_toWire_tagged hprs hsrc hhead hagain hs
  · intro hpl
    exact parse_toWire hprs hpl

theorem parse_toWire_iff_privmsg :
    (∃ again, parse (Message.toWire
        { source := none, command := "PRIVMSG", params := ["#c", "a b"] }) = some again ∧
      again.SameCore { source := none, command := "PRIVMSG", params := ["#c", "a b"] }) ↔
    ¬TagsTwice "PRIVMSG #c :a b" :=
  parse_toWire_iff "PRIVMSG #c :a b" _ (by decide +kernel)

theorem parse_toWire_lost :
    parse "@t @x y" = some { source := none, command := "@X", params := ["y"] } ∧
      parse (Message.toWire { source := none, command := "@X", params := ["y"] }) =
        some { source := none, command := "Y", params := [] } := by
  decide +kernel

end EchoIrcd
