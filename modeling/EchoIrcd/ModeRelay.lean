import EchoIrcd.LocalMode

/-!
# The parameters of a relayed mode change

`propagate_chan_mode` walks the letters of an applied mode string to find the
parameters that name a member.  It knows the built-in status letters and four
more that take a parameter, and passes over every other letter without taking
one; what is left at the end is sent as it is.
-/

namespace EchoIrcd

open Str ModeChange List Option Table

variable {adding : Bool} {change : Channel → Channel} {letter : Char} {echo param : Option Str}
  {mode : ChanMode} {last : Option Bool} {modes : Str}

/-! ## Mode strings -/

theorem mem_signedLetters {entry : Bool × Char} (hent : entry ∈ signedLetters adding modes) :
    entry.2 ∈ modes ∧ entry.2 ≠ '+' ∧ entry.2 ≠ '-' := by
  fun_induction signedLetters adding modes with
  | case1 => cases hent
  | case2 _ rest ih => exact ⟨mem_cons_of_mem _ (ih hent).1, (ih hent).2⟩
  | case3 _ rest ih => exact ⟨mem_cons_of_mem _ (ih hent).1, (ih hent).2⟩
  | case4 adding letter rest hplus hminus ih =>
    rcases mem_cons.mp hent with rfl | hent
    · exact ⟨mem_cons_self, hplus, hminus⟩
    · exact ⟨mem_cons_of_mem _ (ih hent).1, (ih hent).2⟩

theorem mem_emit {changes : List (Bool × Char)} (hlet : letter ∈ emit last changes) :
    letter = '+' ∨ letter = '-' ∨ ∃ entry ∈ changes, entry.2 = letter := by
  induction changes generalizing last with
  | nil => cases hlet
  | cons entry changes ih =>
    obtain ⟨adding, found⟩ := entry
    rcases mem_append.mp hlet with hsign | hrest
    · cases adding <;> split at hsign <;> simp_all
    · rcases mem_cons.mp hrest with rfl | hrest
      · exact .inr (.inr ⟨_, mem_cons_self, rfl⟩)
      · rcases ih hrest with hplus | hminus | ⟨entry, hent, heq⟩
        · exact .inl hplus
        · exact .inr (.inl hminus)
        · exact .inr (.inr ⟨entry, mem_cons_of_mem _ hent, heq⟩)

theorem signedLetters_emit {changes : List (Bool × Char)}
    (hpl : ∀ entry ∈ changes, entry.2 ≠ '+' ∧ entry.2 ≠ '-')
    (hlast : ∀ sign ∈ last, sign = adding) :
    signedLetters adding (emit last changes) = changes := by
  induction changes generalizing last adding with
  | nil => rfl
  | cons entry changes ih =>
    obtain ⟨sign, letter⟩ := entry
    rw [forall_mem_cons] at hpl
    have hlet : signedLetters sign (letter :: emit (some sign) changes) =
        (sign, letter) :: changes := by
      rw [signedLetters.eq_4 _ _ _ hpl.1.1 hpl.1.2, ih hpl.2 (by simp)]
    rw [emit]
    split
    · rename_i hs
      rw [← hlast sign hs]
      exact hlet
    · cases sign
      · exact hlet
      · exact hlet

/-! ## Letters that take a parameter -/

def walksParam (entry : Bool × Char) : Bool :=
  entry.2 ∈ ("yqaohv" : Str) ∨ entry.2 ∈ ("beIk" : Str) ∨ (entry.2 = 'l' ∧ entry.1)

theorem mem_yqaohv : letter ∈ ("yqaohv" : Str) ↔
    letter = 'y' ∨ letter = 'q' ∨ letter = 'a' ∨ letter = 'o' ∨ letter = 'h' ∨ letter = 'v' := by
  have hlets : ("yqaohv" : Str) = ['y', 'q', 'a', 'o', 'h', 'v'] := rfl
  simp [hlets]

theorem mem_beIk : letter ∈ ("beIk" : Str) ↔
    letter = 'b' ∨ letter = 'e' ∨ letter = 'I' ∨ letter = 'k' := by
  have hlets : ("beIk" : Str) = ['b', 'e', 'I', 'k'] := rfl
  simp [hlets]

theorem walksParam_iff {entry : Bool × Char} : walksParam entry = true ↔
    entry.2 ∈ ("yqaohv" : Str) ∨ entry.2 ∈ ("beIk" : Str) ∨ (entry.2 = 'l' ∧ entry.1) := by
  rw [walksParam, decide_eq_true_iff]

namespace Server

variable {server : Server} {entry : Bool × Char} {entries rest : List (Bool × Char)}

@[simp] theorem chanModeArgs_nil : server.chanModeArgs entries [] = [] := by
  cases entries <;> rfl

theorem chanModeArgs_walk (hwk : walksParam entry = true) (param : Str) (params : List Str) :
    server.chanModeArgs (entry :: rest) (param :: params) =
      (if entry.2 ∈ ("yqaohv" : Str) then server.nickToUuid param else param) ::
        server.chanModeArgs rest params := by
  rw [walksParam_iff] at hwk
  rw [chanModeArgs]
  split
  · rfl
  · rename_i hst
    rw [if_pos (hwk.resolve_left hst)]

theorem chanModeArgs_skip (hwk : walksParam entry = false) (params : List Str) :
    server.chanModeArgs (entry :: rest) params = server.chanModeArgs rest params := by
  simp only [walksParam, decide_eq_false_iff_not, not_or] at hwk
  cases params with
  | nil => rw [chanModeArgs_nil, chanModeArgs_nil]
  | cons param params =>
    rw [chanModeArgs, if_neg hwk.1, if_neg (by simpa using hwk.2)]

theorem chanModeArgs_channels (channels : Table Str Channel) {params : List Str} :
    { server with channels := channels }.chanModeArgs entries params =
      server.chanModeArgs entries params := by
  induction entries generalizing params with
  | nil => rfl
  | cons entry entries ih =>
    cases hwk : walksParam entry with
    | false => rw [chanModeArgs_skip hwk, chanModeArgs_skip hwk, ih]
    | true =>
      cases params with
      | nil => rfl
      | cons param params =>
        rw [chanModeArgs_walk hwk, chanModeArgs_walk hwk, ih]
        rfl

theorem chanModeArgs_of_no_status
    (hents : ∀ entry ∈ entries, entry.2 ∉ ("yqaohv" : Str)) (params : List Str) :
    server.chanModeArgs entries params = params := by
  induction entries generalizing params with
  | nil => rfl
  | cons entry entries ih =>
    rw [forall_mem_cons] at hents
    cases hwk : walksParam entry with
    | false => rw [chanModeArgs_skip hwk, ih hents.2]
    | true =>
      cases params with
      | nil => rw [chanModeArgs_nil]
      | cons param params =>
        rw [chanModeArgs_walk hwk, if_neg hents.1, ih hents.2]

theorem chanModeArgs_reach {front rear : List Str}
    (hreach : entries.countP walksParam ≤ front.length)
    (hrest : ∀ entry ∈ rest, entry.2 ∉ ("yqaohv" : Str)) :
    ∃ sent, sent.length = front.length ∧
      server.chanModeArgs (entries ++ rest) (front ++ rear) = sent ++ rear := by
  induction entries generalizing front with
  | nil => exact ⟨front, rfl, chanModeArgs_of_no_status hrest _⟩
  | cons entry entries ih =>
    rw [cons_append]
    cases hwk : walksParam entry with
    | false =>
      rw [countP_cons_of_neg (by simp [hwk])] at hreach
      rw [chanModeArgs_skip hwk]
      exact ih hreach
    | true =>
      rw [countP_cons_of_pos hwk] at hreach
      cases front with
      | nil => simp at hreach
      | cons param front =>
        obtain ⟨sent, hlen, hsent⟩ := ih (Nat.le_of_succ_le_succ hreach)
        rw [cons_append, chanModeArgs_walk hwk, hsent]
        exact ⟨_ :: sent, by simp [hlen], rfl⟩

end Server

/-! ## Applied changes -/

namespace ModeChange

def isStatus (config : PrefixConfig) (change : ModeChange) : Bool :=
  match chanMode config change.letter with
  | some (.status _ _) => true
  | _ => false

/-- The parameter as it should be sent: of a status the uuid of the member. -/
def relay (server : Server) (change : ModeChange) : Option Str :=
  change.echo.map fun param =>
    if change.isStatus server.conf.prefixes then server.nickToUuid param else param

def relayed (server : Server) (changes : List ModeChange) : List Str :=
  changes.filterMap (relay server)

/-- A change that a handler made: it has a parameter exactly if the mode takes one. -/
structure Sound (config : PrefixConfig) (change : ModeChange) : Prop where
  handler : ∃ mode, chanMode config change.letter = some mode ∧
    change.echo.isSome = mode.wantsParam change.adding
  plain : change.letter ≠ '+' ∧ change.letter ≠ '-'

def overlooked (change : ModeChange) : Bool :=
  change.echo.isSome && !walksParam change.entry

variable {config : PrefixConfig} {change : ModeChange} {changes front rear : List ModeChange}

theorem chanMode_of_status_letter (hlet : letter ∈ ("yqaohv" : Str))
    (hmode : chanMode config letter = some mode) : ∃ rank, mode = .status letter rank := by
  rcases mem_yqaohv.mp hlet with rfl | rfl | rfl | rfl | rfl | rfl
  · -- `y` has no handler of its own, but the configuration may define it
    obtain ⟨custom, -, rfl⟩ := map_eq_some_iff.mp hmode
    exact ⟨_, rfl⟩
  all_goals
    cases hmode
    exact ⟨_, rfl⟩

theorem not_status_letter (hmode : chanMode config letter = some mode)
    (hst : ∀ letter rank, mode ≠ .status letter rank) : letter ∉ ("yqaohv" : Str) := by
  intro hlet
  obtain ⟨rank, hrank⟩ := chanMode_of_status_letter hlet hmode
  exact hst letter rank hrank

theorem chanMode_of_mask_letter {letter : Char} (hlet : letter ∈ ("beIk" : Str)) :
    chanMode config letter = some .key ∨ ∃ kind, chanMode config letter = some (.list kind) := by
  rcases mem_beIk.mp hlet with rfl | rfl | rfl | rfl
  · exact .inr ⟨_, rfl⟩
  · exact .inr ⟨_, rfl⟩
  · exact .inr ⟨_, rfl⟩
  · exact .inl rfl

theorem walks_iff : walksParam change.entry = true ↔ change.letter ∈ ("yqaohv" : Str) ∨
    change.letter ∈ ("beIk" : Str) ∨ (change.letter = 'l' ∧ change.adding) :=
  walksParam_iff

theorem isStatus_iff : change.isStatus config = true ↔
    ∃ letter rank, chanMode config change.letter = some (.status letter rank) := by
  unfold isStatus
  split
  · rename_i letter rank hmode
    simp [hmode]
  · rename_i hmode
    simp only [Bool.false_eq_true, false_iff, not_exists]
    exact hmode

theorem isStatus_of_mem (hsnd : change.Sound config)
    (hlet : change.letter ∈ ("yqaohv" : Str)) : change.isStatus config = true := by
  obtain ⟨⟨mode, hmode, -⟩, -⟩ := hsnd
  obtain ⟨rank, rfl⟩ := chanMode_of_status_letter hlet hmode
  exact isStatus_iff.mpr ⟨_, _, hmode⟩

theorem mem_of_isStatus (hst : change.isStatus config = true)
    (hwk : walksParam change.entry = true) : change.letter ∈ ("yqaohv" : Str) := by
  obtain ⟨letter, rank, hmode⟩ := isStatus_iff.mp hst
  rcases walks_iff.mp hwk with hlet | hlet | ⟨hlet, -⟩
  · exact hlet
  · rcases @chanMode_of_mask_letter config _ hlet with hf | ⟨kind, hf⟩
    · cases hf.symm.trans hmode
    · cases hf.symm.trans hmode
  · rw [hlet] at hmode
    cases hmode

theorem Sound.isSome_of_walks (hsnd : change.Sound config)
    (hwk : walksParam change.entry = true) : change.echo.isSome = true := by
  obtain ⟨⟨mode, hmode, hecho⟩, -⟩ := hsnd
  rw [hecho]
  rcases walks_iff.mp hwk with hlet | hlet | ⟨hlet, hadd⟩
  · obtain ⟨rank, rfl⟩ := chanMode_of_status_letter hlet hmode
    rfl
  · rcases @chanMode_of_mask_letter config _ hlet with hf | ⟨kind, hf⟩
    · cases hf.symm.trans hmode
      rfl
    · cases hf.symm.trans hmode
      rfl
  · rw [hlet] at hmode
    cases hmode
    exact hadd

theorem Sound.isSome_of_status (hsnd : change.Sound config)
    (hst : change.isStatus config = true) : change.echo.isSome = true := by
  obtain ⟨⟨mode, hmode, hecho⟩, -⟩ := hsnd
  obtain ⟨letter, rank, hf⟩ := isStatus_iff.mp hst
  cases hf.symm.trans hmode
  exact hecho

/-! ## The walk over what was applied -/

def legible (config : PrefixConfig) : List ModeChange → Bool
  | [] => true
  | change :: rest =>
    if change.overlooked then (change :: rest).all fun later => !later.isStatus config
    else legible config rest

section Walk

variable {server : Server}

theorem echoes_cons : echoes (change :: rear) = change.echo.toList ++ echoes rear := by
  cases hecho : change.echo <;> simp [echoes, hecho]

theorem echoes_append : echoes (front ++ rear) = echoes front ++ echoes rear :=
  filterMap_append

theorem relayed_cons :
    relayed server (change :: rear) = (change.relay server).toList ++ relayed server rear := by
  cases hrelay : change.relay server <;> simp [relayed, hrelay]

theorem relayed_append :
    relayed server (front ++ rear) = relayed server front ++ relayed server rear :=
  filterMap_append

theorem relay_of_not_status (hst : change.isStatus server.conf.prefixes = false) :
    change.relay server = change.echo := by
  cases hecho : change.echo <;> simp [relay, hecho, hst]

theorem length_relayed : (relayed server changes).length = (echoes changes).length := by
  induction changes with
  | nil => rfl
  | cons change changes ih =>
    rw [relayed_cons, echoes_cons, length_append, length_append, ih]
    cases hecho : change.echo <;> simp [relay, hecho]

theorem relayed_of_no_status
    (hst : ∀ change ∈ changes, change.isStatus server.conf.prefixes = false) :
    relayed server changes = echoes changes := by
  apply filterMap_congr
  intro change hchg
  exact relay_of_not_status (hst change hchg)

theorem entries_of_no_status (hsnd : ∀ change ∈ changes, change.Sound config)
    (hst : ∀ change ∈ changes, change.isStatus config = false) :
    ∀ entry ∈ changes.map ModeChange.entry, entry.2 ∉ ("yqaohv" : Str) := by
  intro entry hent hlet
  obtain ⟨change, hchg, rfl⟩ := mem_map.mp hent
  have hno := hst change hchg
  rw [isStatus_of_mem (hsnd change hchg) hlet] at hno
  cases hno

theorem chanModeArgs_cons (hsnd : change.Sound server.conf.prefixes)
    (hseen : change.overlooked = false) (entries : List (Bool × Char)) (params : List Str) :
    server.chanModeArgs (change.entry :: entries) (change.echo.toList ++ params) =
      (change.relay server).toList ++ server.chanModeArgs entries params := by
  cases hwk : walksParam change.entry with
  | false =>
    have hecho : change.echo = none := by simpa [overlooked, hwk] using hseen
    rw [Server.chanModeArgs_skip hwk]
    simp [relay, hecho]
  | true =>
    obtain ⟨param, hecho⟩ := isSome_iff_exists.mp (hsnd.isSome_of_walks hwk)
    have hlet : change.entry.2 ∈ ("yqaohv" : Str) ↔
        change.isStatus server.conf.prefixes = true :=
      ⟨isStatus_of_mem hsnd, fun hst => mem_of_isStatus hst hwk⟩
    rw [hecho, toList_some, singleton_append, Server.chanModeArgs_walk hwk, relay, hecho]
    simp only [hlet, map_some, toList_some, singleton_append]

theorem chanModeArgs_of_legible (hsnd : ∀ change ∈ changes, change.Sound server.conf.prefixes)
    (hleg : legible server.conf.prefixes changes = true) :
    server.chanModeArgs (changes.map entry) (echoes changes) = relayed server changes := by
  induction changes with
  | nil => rfl
  | cons change changes ih =>
    rw [legible] at hleg
    cases hseen : change.overlooked with
    | false =>
      rw [hseen, if_neg (by simp)] at hleg
      rw [forall_mem_cons] at hsnd
      rw [map_cons, echoes_cons, relayed_cons, chanModeArgs_cons hsnd.1 hseen,
        ih hsnd.2 hleg]
    | true =>
      have hst : ∀ later ∈ change :: changes,
          later.isStatus server.conf.prefixes = false := by
        simpa [hseen] using hleg
      rw [relayed_of_no_status hst,
        Server.chanModeArgs_of_no_status (entries_of_no_status hsnd hst)]

theorem countP_walksParam_le (hsnd : ∀ change ∈ changes, change.Sound config) :
    (changes.map entry).countP walksParam ≤ (echoes changes).length := by
  induction changes with
  | nil => simp
  | cons change changes ih =>
    rw [forall_mem_cons] at hsnd
    have hrest := ih hsnd.2
    rw [map_cons, countP_cons, echoes_cons, length_append]
    split
    · rename_i hwk
      obtain ⟨param, hecho⟩ := isSome_iff_exists.mp (hsnd.1.isSome_of_walks hwk)
      rw [hecho, toList_some, length_singleton]
      omega
    · omega

theorem exists_last_of_mem {α : Type} {test : α → Bool} {items : List α} {item : α}
    (hitem : item ∈ items) (htest : test item = true) :
    ∃ before last behind, items = before ++ last :: behind ∧ test last = true ∧
      ∀ later ∈ behind, test later = false := by
  have hsome : (items.reverse.find? test).isSome = true :=
    find?_isSome.mpr ⟨item, mem_reverse.mpr hitem, htest⟩
  obtain ⟨last, hlast⟩ := isSome_iff_exists.mp hsome
  obtain ⟨hpass, behind, before, hspl, hbeh⟩ := find?_eq_some_iff_append.mp hlast
  refine ⟨before.reverse, last, behind.reverse, ?_, hpass, ?_⟩
  · simpa using congrArg reverse hspl
  · intro later hlat
    simpa using hbeh later (mem_reverse.mp hlat)

/-- Behind an overlooked parameter the walk does not reach the one of the last status. -/
theorem chanModeArgs_ne_relayed (hsnd : ∀ later ∈ change :: rear, later.Sound server.conf.prefixes)
    (hoverlooked : change.overlooked = true) {later : ModeChange} (hlat : later ∈ change :: rear)
    (hst : later.isStatus server.conf.prefixes = true)
    (hnms : ∀ other ∈ change :: rear, other.isStatus server.conf.prefixes = true →
      ∀ nick ∈ other.echo, server.nickToUuid nick ≠ nick) :
    server.chanModeArgs ((change :: rear).map entry) (echoes (change :: rear)) ≠
      relayed server (change :: rear) := by
  obtain ⟨before, last, behind, hspl, hlast, hbeh⟩ := exists_last_of_mem hlat hst
  have hmem : last ∈ change :: rear := by simp [hspl]
  obtain ⟨nick, hnick⟩ := isSome_iff_exists.mp ((hsnd last hmem).isSome_of_status hlast)
  have hsoundBehind : ∀ other ∈ behind, other.Sound server.conf.prefixes :=
    fun other ho => hsnd other (by simp [hspl, ho])
  have hreach : ((before ++ [last]).map entry).countP walksParam ≤ (echoes before).length := by
    simp only [overlooked, Bool.and_eq_true, Bool.not_eq_true'] at hoverlooked
    cases before with
    | nil =>
      -- the overlooked parameter is that of the last status
      rw [nil_append, cons.injEq] at hspl
      rw [← hspl.1]
      simp [hoverlooked.2]
    | cons first before =>
      obtain ⟨rfl, rfl⟩ := hspl
      have hcnt : (before.map entry).countP walksParam ≤ (echoes before).length :=
        countP_walksParam_le fun other ho => hsnd other (by simp [ho])
      have hone : [last.entry].countP walksParam ≤ 1 := countP_le_length
      obtain ⟨param, hprm⟩ := isSome_iff_exists.mp hoverlooked.1
      rw [cons_append, map_cons, countP_cons_of_neg (by simp [hoverlooked.2]),
        map_append, countP_append, echoes_cons, hprm, length_append]
      simp only [map_cons, map_nil, toList_some, length_singleton]
      omega
  obtain ⟨sent, hlen, hsent⟩ := @Server.chanModeArgs_reach server _ _ _ (nick :: echoes behind)
    hreach (entries_of_no_status hsoundBehind hbeh)
  have hents : (change :: rear).map entry = (before ++ [last]).map entry ++ behind.map entry := by
    simp [hspl]
  have hechoes : echoes (change :: rear) = echoes before ++ nick :: echoes behind := by
    rw [hspl, echoes_append, echoes_cons, hnick]
    rfl
  have hrelayed : relayed server (change :: rear) =
      relayed server before ++ server.nickToUuid nick :: relayed server behind := by
    rw [hspl, relayed_append, relayed_cons, relay, hnick]
    simp [hlast]
  rw [hents, hechoes, hrelayed, hsent]
  intro heq
  have htail := (append_inj heq (by rw [hlen, length_relayed])).2
  exact hnms last hmem hlast nick hnick (cons.inj htail).1.symm

theorem legible_of_chanModeArgs (hsnd : ∀ change ∈ changes, change.Sound server.conf.prefixes)
    (hnms : ∀ change ∈ changes, change.isStatus server.conf.prefixes = true →
      ∀ nick ∈ change.echo, server.nickToUuid nick ≠ nick)
    (hargs : server.chanModeArgs (changes.map entry) (echoes changes) = relayed server changes) :
    legible server.conf.prefixes changes = true := by
  induction changes with
  | nil => rfl
  | cons change changes ih =>
    rw [legible]
    cases hseen : change.overlooked with
    | false =>
      rw [forall_mem_cons] at hsnd hnms
      rw [map_cons, echoes_cons, relayed_cons, chanModeArgs_cons hsnd.1 hseen] at hargs
      exact ih hsnd.2 hnms.2 (append_cancel_left hargs)
    | true =>
      rw [if_pos rfl, List.all_eq_true]
      intro later hlat
      cases hst : later.isStatus server.conf.prefixes with
      | false => rfl
      | true => exact absurd hargs (chanModeArgs_ne_relayed hsnd hseen hlat hst hnms)

end Walk

end ModeChange

/-! ## The command -/

namespace Server

variable {rules : ModeRules} {server : Server} {uid : Uid} {chan key : Str}

theorem statusBy_cases {src rank : Nat}
    (happ : server.statusBy uid src key letter rank adding param = some (change, echo)) :
    ∃ nick target, server.findNick nick = some target ∧ echo = some nick ∧
      (∃ channel, server.channels.lookup key = some channel ∧ target ∈ channel.members) ∧
      change = fun channel => { channel with
        members := modify target (Member.setPrefix server.conf.prefixes letter adding)
          channel.members } := by
  simp only [statusBy, bind_eq_bind, bind_eq_some_iff] at happ
  obtain ⟨nick, -, target, hf, channel, hchan, member, hmb, happ⟩ := happ
  have hse : target ∈ channel.members := mem_of_lookup hmb
  split at happ
  · cases happ
  · split at happ
    · cases happ
    · cases happ
      exact ⟨nick, target, hf, rfl, ⟨channel, hchan, hse⟩, rfl⟩

theorem listBy_cases {kind : ListKind}
    (happ : server.listBy rules uid key kind adding param = some (change, echo)) :
    ∃ mask channel, param = some mask ∧ server.channels.lookup key = some channel ∧
      echo = some (kind.normalize mask) ∧
      ((adding = true ∧ (∀ ban ∈ channel.lists kind,
            eqIgnoreAsciiCase ban.mask (kind.normalize mask) = false) ∧
          ∃ setter, change = Channel.setList kind
            (· ++ [⟨kind.normalize mask, setter, server.clock, none⟩])) ∨
        (adding = false ∧ change = Channel.setList kind
          (filter fun ban => !eqIgnoreAsciiCase ban.mask (kind.normalize mask)))) := by
  simp only [listBy, bind_eq_bind, bind_eq_some_iff] at happ
  obtain ⟨mask, hprm, happ⟩ := happ
  split at happ
  · cases happ
  · split at happ
    · cases happ
    · obtain ⟨channel, hchan, happ⟩ := bind_eq_some_iff.mp happ
      refine ⟨mask, channel, hprm, hchan, ?_⟩
      split at happ
      · rename_i hadd
        split at happ
        · cases happ
        · rename_i hfree
          cases happ
          rw [not_or, Bool.not_eq_true, List.any_eq_false] at hfree
          exact ⟨rfl, .inl ⟨hadd, by simpa using hfree.1, _, rfl⟩⟩
      · rename_i hadd
        split at happ
        · cases happ
          exact ⟨rfl, .inr ⟨by simpa using hadd, rfl⟩⟩
        · cases happ

theorem applyChanMode_of_userChanMode (hst : ∀ letter rank, mode ≠ .status letter rank)
    (hlist : ∀ kind, mode ≠ .list kind)
    (happ : server.userChanMode rules uid chan key mode adding param = some (change, echo)) :
    server.applyChanMode chan key mode adding param = some (change, echo) := by
  cases mode with
  | status letter rank => exact absurd rfl (hst letter rank)
  | list kind => exact absurd rfl (hlist kind)
  | flag flag =>
    simp only [userChanMode] at happ
    split at happ
    · cases happ
    · split at happ
      · cases happ
      · exact happ
  | _ => exact happ

theorem userChanMode_echo
    (happ : server.userChanMode rules uid chan key mode adding param = some (change, echo)) :
    echo.isSome = mode.wantsParam adding := by
  cases mode with
  | status letter rank =>
    obtain ⟨nick, -, -, rfl, -⟩ := statusBy_cases happ
    rfl
  | list kind =>
    obtain ⟨mask, -, -, -, rfl, -⟩ := listBy_cases happ
    rfl
  | flag flag =>
    cases applyChanMode_of_userChanMode (by simp) (by simp) happ
    rfl
  | secureOnly | encrypted =>
    simp only [userChanMode, applyChanMode] at happ
    split at happ
    · cases happ
    · cases happ
      rfl
  | key =>
    obtain ⟨_, -, -, rfl, -, rfl⟩ | ⟨rfl, -, rfl⟩ :=
      @applyKey_cases _ _ server chan key _ _ happ <;> rfl
  | _ =>
    simp only [userChanMode, applyChanMode] at happ
    obtain ⟨value, -, rfl, hval, -⟩ := applyParam_cases happ
    rw [isSome_map]
    exact hval

theorem userModeStep_cases (rules : ModeRules) (uid : Uid) (chan key : Str) (loop : UserModeLoop)
    (entry : Bool × Char) :
    (∃ args, userModeStep rules uid chan key loop entry = { loop with args := args }) ∨
      ∃ mode param change echo args,
        chanMode loop.server.conf.prefixes entry.2 = some mode ∧
        loop.server.userChanMode rules uid chan key mode entry.1 param = some (change, echo) ∧
        userModeStep rules uid chan key loop entry =
          { server := loop.server.changeChannel key change
            args := args
            changes := loop.changes ++ [⟨entry.1, entry.2, echo⟩] } := by
  cases hmode : chanMode loop.server.conf.prefixes entry.2 with
  | none =>
    left
    exact ⟨loop.args, by simp [userModeStep, hmode]⟩
  | some mode =>
    cases happ : loop.server.userChanMode rules uid chan key mode entry.1
        (if mode.wantsParam entry.1 then loop.args.head? else none) with
    | none =>
      left
      exact ⟨if mode.wantsParam entry.1 then loop.args.tail else loop.args,
        by simp only [userModeStep, hmode, happ]⟩
    | some applied =>
      right
      obtain ⟨change, echo⟩ := applied
      exact ⟨mode, _, change, echo,
        if mode.wantsParam entry.1 then loop.args.tail else loop.args, rfl, happ,
        by simp only [userModeStep, hmode, happ]⟩

inductive Made (rules : ModeRules) (uid : Uid) (chan key : Str) :
    Server → List ModeChange → Server → Prop
  | nil (server : Server) : Made rules uid chan key server [] server
  | cons {server after : Server} {mode : ChanMode} {param : Option Str} {edit : Channel → Channel}
      {change : ModeChange} {changes : List ModeChange}
      (hmode : chanMode server.conf.prefixes change.letter = some mode)
      (happ : server.userChanMode rules uid chan key mode change.adding param =
        some (edit, change.echo))
      (hlat : Made rules uid chan key (server.changeChannel key edit) changes after) :
      Made rules uid chan key server (change :: changes) after

theorem made_userModeStep (rules : ModeRules) (uid : Uid) (chan key : Str) (loop : UserModeLoop)
    (entries : List (Bool × Char)) : ∃ changes,
    (entries.foldl (userModeStep rules uid chan key) loop).changes = loop.changes ++ changes ∧
      Made rules uid chan key loop.server changes
        (entries.foldl (userModeStep rules uid chan key) loop).server := by
  induction entries generalizing loop with
  | nil => exact ⟨[], by simp, .nil _⟩
  | cons entry entries ih =>
    obtain ⟨later, hlat, hmade⟩ := ih (userModeStep rules uid chan key loop entry)
    rw [foldl_cons, hlat]
    rcases userModeStep_cases rules uid chan key loop entry with
      ⟨args, hstep⟩ | ⟨mode, param, edit, echo, args, hmode, happ, hstep⟩
    · rw [hstep] at hmade ⊢
      exact ⟨later, rfl, hmade⟩
    · rw [hstep] at hmade ⊢
      exact ⟨⟨entry.1, entry.2, echo⟩ :: later, by simp, .cons hmode happ hmade⟩

theorem made_userModeLoop (rules : ModeRules) (server : Server) (uid : Uid) (chan modes : Str)
    (args : List Str) : Made rules uid chan (toAsciiLower chan) server
      (server.userModeLoop rules uid chan modes args).changes
      (server.userModeLoop rules uid chan modes args).server := by
  obtain ⟨changes, hchgs, hmade⟩ := made_userModeStep rules uid chan (toAsciiLower chan)
    { server := server, args := args } ((signedLetters true modes).take (max rules.modes 1))
  rw [userModeLoop, hchgs]
  exact hmade

/-- What the letter loop changes: the channels of the server, and the list of sound changes. -/
structure Reached (server : Server) (loop : UserModeLoop) : Prop where
  server_eq : ∃ channels, loop.server = { server with channels := channels }
  sound : ∀ change ∈ loop.changes, change.Sound server.conf.prefixes
  idle : loop.changes = [] → loop.server = server

theorem Reached.step {loop : UserModeLoop} (hr : Reached server loop) {entry : Bool × Char}
    (hpl : entry.2 ≠ '+' ∧ entry.2 ≠ '-') :
    Reached server (userModeStep rules uid chan key loop entry) := by
  obtain ⟨⟨channels, hsrv⟩, hsnd, hidle⟩ := hr
  rcases userModeStep_cases rules uid chan key loop entry with
    ⟨args, hstep⟩ | ⟨mode, param, change, echo, args, hmode, happ, hstep⟩
  · rw [hstep]
    exact ⟨⟨channels, hsrv⟩, hsnd, hidle⟩
  · rw [hstep]
    rw [hsrv] at hmode
    refine ⟨?_, ?_, by simp⟩
    · rw [hsrv]
      exact ⟨_, rfl⟩
    · intro made hmade
      rcases mem_append.mp hmade with hmade | hmade
      · exact hsnd made hmade
      · rw [mem_singleton.mp hmade]
        exact ⟨⟨mode, hmode, userChanMode_echo happ⟩, hpl⟩

theorem reached_userModeLoop (rules : ModeRules) (server : Server) (uid : Uid) (chan modes : Str)
    (args : List Str) : Reached server (server.userModeLoop rules uid chan modes args) := by
  refine foldlRecOn (motive := Reached server) _ _ ⟨⟨_, rfl⟩, by simp, fun _ => rfl⟩ ?_
  intro loop hr entry hent
  exact hr.step (mem_signedLetters (mem_of_mem_take hent)).2

theorem sent_cull (server : Server) (key : Str) : (server.cull key).sent = server.sent := by
  unfold cull
  split
  · split <;> rfl
  · rfl

theorem applyMode_line {args : List Str} {lines : List (Uid × Out)} {link : Uid}
    {source name letters : Str} {ts : Timestamp} {params : List Str}
    (hsent : (server.applyMode rules uid (chan :: modes :: args)).sent = server.sent ++ lines)
    (hline : (link, Out.fmode source name ts letters params) ∈ lines) :
    letters = emit none
        ((server.userModeLoop rules uid chan modes args).changes.map ModeChange.entry) ∧
      params = server.chanModeArgs (signedLetters true letters)
        (echoes (server.userModeLoop rules uid chan modes args).changes) := by
  have hq : ∀ {after : Server}, after.sent = server.sent → after.sent = server.sent ++ lines →
      False := by
    intro after hs hmore
    rw [hs, self_eq_append_right] at hmore
    rw [hmore] at hline
    cases hline
  obtain ⟨channels, hloop⟩ := (reached_userModeLoop rules server uid chan modes args).server_eq
  simp only [applyMode] at hsent
  split at hsent
  · split at hsent
    · exact (hq rfl hsent).elim
    · rw [sent_cull, relayChanges] at hsent
      split at hsent
      · rw [hloop] at hsent
        exact (hq rfl hsent).elim
      · split at hsent
        · simp only [propagateChanMode, propagate_sent, hloop] at hsent
          rw [← append_cancel_left hsent] at hline
          obtain ⟨_, -, hs⟩ := mem_map.mp hline
          cases hs
          exact ⟨rfl, chanModeArgs_channels _⟩
        · rw [hloop] at hsent
          exact (hq rfl hsent).elim
  · exact (hq rfl hsent).elim

def opServer : Server where
  conf := { name := "a.test", sid := "0AA" }
  clock := 7
  users := ofList
    [(1, { uuid := "0AAAAAAAA", nick := "alice", host := "h", ip := "1.1.1.1", signon := 1,
           nickTs := 1, registered := true, channels := ["#c"] }),
     (2, { uuid := "0AAAAAAAB", nick := "bob", host := "h", ip := "1.1.1.1", signon := 1,
           nickTs := 1, registered := true, channels := ["#c"] })]
  nickIndex := ofList [("alice", 1), ("bob", 2)]
  uuidLocal := ofList [("0AAAAAAAA", 1), ("0AAAAAAAB", 2)]
  channels := ofList
    [("#c", { name := "#c", created := 3,
              members := ofList [(1, { prefixes := fun held => held = .op }), (2, {})] })]
  links := ofList [(9, { outbound := true, registered := true, lastSeen := 7 })]

end Server

end EchoIrcd
