import EchoIrcd.Reactor

/-!
# PROXY headers that arrive in pieces

The reactor judges the header after every read, and a TLS listener after every
byte.  Neither reads the length of the header first: a version 1 line is refused
once more than 107 bytes are there without its end, and any header once more
than 256 are there.  A longer header is taken if it arrives at once and refused
if it comes in pieces.
-/

namespace EchoIrcd

open List

variable {buf more part : Octets}

inductive ProxyStage where
  | waiting
  | refused
  | passed (source : ProxySource) (data : List Octets)
  deriving DecidableEq, Repr

def stripHeader (parseIp : Str → Option Octets) : Octets → List Octets → ProxyStage
  | _, [] => .waiting
  | buf, chunk :: chunks =>
    match parseProxy parseIp (buf ++ chunk) with
    | (.need, _) =>
      if proxyMax < (buf ++ chunk).length then .refused
      else stripHeader parseIp (buf ++ chunk) chunks
    | (.invalid, _) => .refused
    | (.accepted source, used) => .passed source ((buf ++ chunk).drop used :: chunks)

/-- `read_header`: one byte at a time.  It blocks when there is none, and the end of the stream
makes it refuse. -/
def readHeader (parseIp : Str → Option Octets) : Octets → Octets → ProxyStage
  | _, [] => .waiting
  | buf, octet :: rest =>
    if 256 < (buf ++ [octet]).length then .refused
    else
      match parseProxy parseIp (buf ++ [octet]) with
      | (.need, _) => readHeader parseIp (buf ++ [octet]) rest
      | (.invalid, _) => .refused
      | (.accepted source, _) => .passed source [rest]

/-! ## The connection -/

section Conn

variable {parseIp : Str → Option Octets}

def Conn.behind (conn : Conn) (source : ProxySource) : Conn :=
  { conn with rbuf := [], addr := source.addr conn.addr, proxyPending := false }

theorem read_proxyPending {conn : Conn} (hpend : conn.proxyPending = true) (turn : Turn)
    (chunk : Octets) :
    conn.read parseIp turn chunk =
      match parseProxy parseIp (conn.rbuf ++ chunk) with
      | (.need, _) =>
        ({ conn with rbuf := conn.rbuf ++ chunk },
          if proxyMax < (conn.rbuf ++ chunk).length then { turn with close := true } else turn)
      | (.invalid, _) =>
        ({ conn with rbuf := conn.rbuf ++ chunk }, { turn with close := true })
      | (.accepted source, used) =>
        (conn.behind source).read parseIp { turn with connect := some (source.connect conn.addr) }
          ((conn.rbuf ++ chunk).drop used) := by
  unfold Conn.read
  rw [if_pos hpend]
  rcases parseProxy parseIp (conn.rbuf ++ chunk) with ⟨parsed, used⟩
  cases parsed with
  | need =>
    simp only
    split <;> rfl
  | invalid | accepted source => rfl

theorem reads_proxyPending (conn : Conn) (turn : Turn) (chunks : List Octets)
    (hpend : conn.proxyPending = true) (hopen : turn.close = false) :
    match stripHeader parseIp conn.rbuf chunks with
    | .waiting =>
      conn.reads parseIp turn chunks = ({ conn with rbuf := conn.rbuf ++ chunks.flatten }, turn)
    | .refused => ∃ rbuf, conn.reads parseIp turn chunks =
        ({ conn with rbuf := rbuf }, { turn with close := true })
    | .passed source data => conn.reads parseIp turn chunks =
        (conn.behind source).reads parseIp
          { turn with connect := some (source.connect conn.addr) } data := by
  induction chunks generalizing conn with
  | nil => simp [stripHeader, Conn.reads]
  | cons chunk chunks ih =>
    rw [stripHeader, Conn.reads, read_proxyPending hpend]
    rcases parseProxy parseIp (conn.rbuf ++ chunk) with ⟨parsed, used⟩
    cases parsed with
    | need =>
      by_cases hlong : proxyMax < (conn.rbuf ++ chunk).length
      · simp only [hlong, if_true]
        exact ⟨_, rfl⟩
      · have hgoes : ¬ turn.close = true := by simp [hopen]
        simp only [hlong, if_false, if_neg hgoes, flatten_cons, ← append_assoc]
        exact ih { conn with rbuf := conn.rbuf ++ chunk } hpend
    | invalid => exact ⟨_, rfl⟩
    | accepted source => rfl

/-- The header of a proxy that names no client, in two reads. -/
theorem reads_proxyPending_pieces :
    (Conn.accept ⟨[10, 0, 0, 1], 7⟩ 512 8 true).reads (fun _ => none) {}
        [proxyWord ++ [85, 78, 75], [78, 79, 87, 78, 13, 10, 72, 73]] =
      ((Conn.accept ⟨[10, 0, 0, 1], 7⟩ 512 8 true).behind .peer).reads (fun _ => none)
        { connect := some (ProxySource.peer.connect ⟨[10, 0, 0, 1], 7⟩) } [[72, 73]] := by
  have hstrip : stripHeader (fun _ => none) [] [proxyWord ++ [85, 78, 75],
      [78, 79, 87, 78, 13, 10, 72, 73]] = .passed .peer [[72, 73]] := by decide +kernel
  have hrds := @reads_proxyPending (fun _ => none) (Conn.accept ⟨[10, 0, 0, 1], 7⟩ 512 8 true) {}
    [proxyWord ++ [85, 78, 75], [78, 79, 87, 78, 13, 10, 72, 73]] rfl rfl
  rwa [show (Conn.accept ⟨[10, 0, 0, 1], 7⟩ 512 8 true).rbuf = [] from rfl, hstrip] at hrds

end Conn

/-! ## Verdicts -/

inductive ProxyVerdict where
  | incomplete
  | invalid
  | source (source : ProxySource) (rest : Octets)
  deriving DecidableEq, Repr

def ProxyStage.verdict : ProxyStage → ProxyVerdict
  | .waiting => .incomplete
  | .refused => .invalid
  | .passed source data => .source source data.flatten

section Settle

variable {parseIp : Str → Option Octets} {stream : Octets} {final : ProxyVerdict}

/-- The verdict once a part of the stream has arrived; `none` as long as it is waited for. -/
def settles (parseIp : Str → Option Octets) (part more : Octets) : Option ProxyVerdict :=
  match parseProxy parseIp part with
  | (.need, _) => if proxyMax < part.length then some .invalid else none
  | (.invalid, _) => some .invalid
  | (.accepted source, used) => some (.source source (part.drop used ++ more))

def ProxyVersion.room : ProxyVersion → Nat
  | .v1 => 108
  | .v2 => 256

theorem used_eq_length {buf : Octets} {octet : UInt8} {source : ProxySource} {used : Nat}
    (hbuf : (parseProxy parseIp buf).1 = .need)
    (hacc : parseProxy parseIp (buf ++ [octet]) = (.accepted source, used)) :
    used = (buf ++ [octet]).length := by
  obtain ⟨version, header, rest, hspl, rfl, hhdr⟩ := header_of_accepted hacc
  rw [hspl, length_append]
  rcases eq_nil_or_concat rest with rfl | ⟨rest, last, rfl⟩
  · rfl
  · rw [concat_eq_append, ← append_assoc] at hspl
    obtain ⟨rfl, -⟩ := append_inj' hspl rfl
    rw [parseProxy_header hhdr] at hbuf
    cases hbuf

theorem need_of_settles (hnone : settles parseIp part more = none) :
    (parseProxy parseIp part).1 = .need ∧ part.length ≤ proxyMax := by
  unfold settles at hnone
  generalize parseProxy parseIp part = parsed at hnone ⊢
  obtain ⟨parsed, used⟩ := parsed
  cases parsed with
  | need =>
    simp only at hnone
    split at hnone
    · cases hnone
    · rename_i hsho
      exact ⟨rfl, Nat.le_of_not_lt hsho⟩
  | invalid | accepted source => cases hnone

section

variable
  (hset : ∀ part more, part ++ more = stream → settles parseIp part more = none ∨ settles parseIp part more = some final)
  (hwt : settles parseIp stream [] = none → final = .incomplete)

include hset hwt

theorem stripHeader_verdict {chunks : List Octets} (hstm : buf ++ chunks.flatten = stream)
    (hbuf : settles parseIp buf chunks.flatten = none) :
    (stripHeader parseIp buf chunks).verdict = final := by
  induction chunks generalizing buf with
  | nil =>
    rw [flatten_nil, append_nil] at hstm
    subst hstm
    exact (hwt hbuf).symm
  | cons chunk chunks ih =>
    rw [flatten_cons, ← append_assoc] at hstm
    have hpart := hset _ _ hstm
    have hnext := ih hstm
    rw [stripHeader]
    unfold settles at hpart hnext
    generalize parseProxy parseIp (buf ++ chunk) = parsed at hpart hnext ⊢
    obtain ⟨parsed, used⟩ := parsed
    cases parsed with
    | need =>
      simp only at hpart hnext ⊢
      split
      · rename_i hlong
        rw [if_pos hlong] at hpart
        simpa [ProxyStage.verdict] using hpart
      · rename_i hsho
        exact hnext (if_neg hsho)
    | invalid => simpa [ProxyStage.verdict] using hpart
    | accepted source => simpa [ProxyStage.verdict] using hpart

theorem readHeader_verdict
    (hlong : ∀ part more, part ++ more = stream → 256 < part.length →
      (parseProxy parseIp (part.take 256)).1 = .need → final = .invalid) {rest : Octets}
    (hstm : buf ++ rest = stream) (hbuf : settles parseIp buf rest = none) :
    (readHeader parseIp buf rest).verdict = final := by
  induction rest generalizing buf with
  | nil =>
    rw [append_nil] at hstm
    subst hstm
    exact (hwt hbuf).symm
  | cons octet rest ih =>
    obtain ⟨hneed, hsho⟩ := need_of_settles hbuf
    rw [← singleton_append, ← append_assoc] at hstm
    have hpart := hset _ _ hstm
    have hnext := ih hstm
    rw [readHeader]
    split
    · rename_i hpast
      rw [proxyMax] at hsho
      have hbuf256 : (buf ++ [octet]).take 256 = buf := by
        rw [length_append, length_singleton] at hpast
        rw [take_append_of_le_length (by omega), take_of_length_le (by omega)]
      have hneed256 : (parseProxy parseIp ((buf ++ [octet]).take 256)).1 = .need := by
        rw [hbuf256]
        exact hneed
      exact (hlong _ _ hstm hpast hneed256).symm
    · rename_i hfits
      have hused := fun source used => @used_eq_length parseIp buf octet source used hneed
      unfold settles at hpart hnext
      generalize parseProxy parseIp (buf ++ [octet]) = parsed at hpart hnext hused ⊢
      obtain ⟨parsed, used⟩ := parsed
      cases parsed with
      | need => exact hnext (if_neg hfits)
      | invalid => simpa [ProxyStage.verdict] using hpart
      | accepted source =>
        have hall := hused source used rfl
        simpa [ProxyStage.verdict, hall] using hpart

end

/-! ## Headers that fit -/

variable {version : ProxyVersion} {header rest : Octets} {source : ProxySource}

theorem part_cases (hspl : part ++ more = header ++ rest) :
    part <+: header ∧ part.length < header.length ∨
      ∃ tail, part = header ++ tail ∧ tail ++ more = rest := by
  by_cases hlen : part.length < header.length
  · left
    have hpart : part <+: header ++ rest := hspl ▸ prefix_append part more
    exact ⟨prefix_of_prefix_length_le hpart (prefix_append _ _) hlen.le, hlen⟩
  · right
    have hhdr : header <+: part ++ more := hspl ▸ prefix_append header rest
    obtain ⟨tail, rfl⟩ := prefix_of_prefix_length_le hhdr (prefix_append _ _)
      (Nat.le_of_not_lt hlen)
    rw [append_assoc, append_cancel_left_eq] at hspl
    exact ⟨tail, rfl, hspl⟩

section

variable (hhdr : IsHeader parseIp version header source) (hroom : header.length ≤ version.room)
  (hspl : part ++ more = header ++ rest)

include hhdr hroom hspl

theorem settles_header :
    settles parseIp part more = none ∨ settles parseIp part more = some (.source source rest) := by
  rcases part_cases hspl with ⟨hpart, hlen⟩ | ⟨tail, rfl, rfl⟩
  · left
    have hneed : ¬ (version = .v1 ∧ v1Max < part.length) := by
      rintro ⟨rfl, hlong⟩
      rw [ProxyVersion.room] at hroom
      rw [v1Max] at hlong
      omega
    have hsho : ¬ proxyMax < part.length := by
      cases version <;> rw [ProxyVersion.room] at hroom <;> rw [proxyMax] <;> omega
    rw [settles, parseProxy_of_prefix_header hhdr hpart hlen, if_neg hneed]
    exact if_neg hsho
  · right
    rw [settles, parseProxy_header hhdr]
    simp

theorem need_take_header
    (hlong : 256 < part.length) : (parseProxy parseIp (part.take 256)).1 ≠ .need := by
  have hsmall : header.length ≤ 256 := by
    cases version <;> rw [ProxyVersion.room] at hroom <;> omega
  rcases part_cases hspl with ⟨-, hlen⟩ | ⟨tail, rfl, -⟩
  · omega
  · rw [take_append, take_of_length_le hsmall, parseProxy_header hhdr]
    intro hneed
    cases hneed

end

/-! ## No header -/

theorem settles_of_no_header
    (hnone : ∀ version header rest source, stream = header ++ rest →
      ¬ IsHeader parseIp version header source) {part more : Octets}
    (hspl : part ++ more = stream) :
    settles parseIp part more = none ∨ settles parseIp part more = some .invalid := by
  unfold settles
  rcases hp : parseProxy parseIp part with ⟨parsed, used⟩
  cases parsed with
  | need =>
    simp only
    split
    · exact .inr rfl
    · exact .inl rfl
  | invalid => exact .inr rfl
  | accepted source =>
    obtain ⟨version, header, rest, rfl, -, hhdr⟩ := header_of_accepted hp
    rw [append_assoc] at hspl
    exact absurd hhdr (hnone version header _ source hspl.symm)

theorem settles_of_waiting (hstm : settles parseIp stream [] = none)
    (hspl : part ++ more = stream) : settles parseIp part more = none := by
  obtain ⟨hneed, hlen⟩ := need_of_settles hstm
  subst hspl
  have hpart := need_of_append hneed
  rw [length_append] at hlen
  unfold settles
  generalize parseProxy parseIp part = parsed at hpart
  obtain ⟨parsed, used⟩ := parsed
  cases hpart
  exact if_neg (by omega)

end Settle

/-! ## All the same -/

/-- One verdict for the reads of the reactor, in any pieces, and for a TLS listener; what it
leaves as data begins behind the header. -/
structure SameVerdict (parseIp : Str → Option Octets) (stream : Octets) (verdict : ProxyVerdict) :
    Prop where
  reads (chunks : List Octets) :
    chunks.flatten = stream → (stripHeader parseIp [] chunks).verdict = verdict
  header : (readHeader parseIp [] stream).verdict = verdict
  exact {source : ProxySource} {rest : Octets} : verdict = .source source rest →
    ∃ version header, stream = header ++ rest ∧ IsHeader parseIp version header source

section Same

variable {parseIp : Str → Option Octets} {stream : Octets} {version : ProxyVersion}
  {header rest : Octets} {source : ProxySource}

theorem sameVerdict_of_no_header
    (hnone : ∀ version header rest source, stream = header ++ rest →
      ¬ IsHeader parseIp version header source) :
    ∃ verdict, SameVerdict parseIp stream verdict := by
  by_cases hwait : settles parseIp stream [] = none
  · have hset : ∀ part more, part ++ more = stream → settles parseIp part more = none ∨
        settles parseIp part more = some .incomplete :=
      fun part more hspl => .inl (settles_of_waiting hwait hspl)
    refine ⟨.incomplete, ?_, ?_, ?_⟩
    · intro chunks hchk
      exact stripHeader_verdict hset (fun _ => rfl) (by rw [nil_append, hchk]) rfl
    · refine readHeader_verdict hset (fun _ => rfl) ?_ (nil_append _) rfl
      intro part more hspl hlong _
      have hlen := (need_of_settles hwait).2
      rw [← hspl, length_append, proxyMax] at hlen
      omega
    · intro source rest heq
      cases heq
  · have hset := fun part more => @settles_of_no_header parseIp stream hnone part more
    refine ⟨.invalid, ?_, ?_, ?_⟩
    · intro chunks hchk
      exact stripHeader_verdict hset (fun hnone => absurd hnone hwait)
        (by rw [nil_append, hchk]) rfl
    · exact readHeader_verdict hset (fun hnone => absurd hnone hwait)
        (fun _ _ _ _ _ => rfl) (nil_append _) rfl
    · intro source rest heq
      cases heq

section

variable (hhdr : IsHeader parseIp version header source)

include hhdr

theorem sameVerdict_of_header (hroom : header.length ≤ version.room) :
    SameVerdict parseIp (header ++ rest) (.source source rest) := by
  have hwh : settles parseIp (header ++ rest) [] ≠ none := by
    rw [settles, parseProxy_header hhdr]
    simp
  refine ⟨?_, ?_, ?_⟩
  · intro chunks hchk
    refine stripHeader_verdict (fun part more hspl => settles_header hhdr hroom hspl)
      (fun hnone => absurd hnone hwh) ?_ rfl
    rw [nil_append, hchk]
  · refine readHeader_verdict (fun part more hspl => settles_header hhdr hroom hspl)
      (fun hnone => absurd hnone hwh) ?_ (nil_append _) rfl
    intro part more hspl hlong hneed
    exact absurd hneed (need_take_header hhdr hroom hspl hlong)
  · rintro _ _ ⟨rfl, rfl⟩
    exact ⟨version, header, rfl, hhdr⟩

theorem readHeader_of_long (hroom : version.room < header.length)
    (hspl : buf ++ more = header ++ rest)
    (hbuf : buf.length ≤ if version = .v1 then v1Max else proxyMax) :
    readHeader parseIp buf more = .refused := by
  induction more generalizing buf with
  | nil =>
    have hlen := congrArg length hspl
    simp only [append_nil, length_append] at hlen
    cases version <;> simp [ProxyVersion.room, v1Max, proxyMax] at hroom hbuf <;> omega
  | cons octet more ih =>
    rw [← singleton_append, ← append_assoc] at hspl
    have hgrown : (buf ++ [octet]).length = buf.length + 1 := by simp
    rw [readHeader]
    split
    · rfl
    · rename_i hfits
      have hlen : (buf ++ [octet]).length < header.length := by
        cases version <;> simp [ProxyVersion.room, v1Max] at hroom hbuf hfits <;> omega
      have hpart : buf ++ [octet] <+: header := by
        rcases part_cases hspl with hpart | ⟨tail, htail, -⟩
        · exact hpart.1
        · rw [htail, length_append] at hlen
          omega
      rw [parseProxy_of_prefix_header hhdr hpart hlen]
      by_cases hsho : version = .v1 ∧ v1Max < (buf ++ [octet]).length
      · rw [if_pos hsho]
      · rw [if_neg hsho]
        apply ih hspl
        cases version <;> simp [v1Max, proxyMax] at hsho hfits ⊢ <;> omega

theorem stripHeader_at_once :
    (stripHeader parseIp [] [header ++ rest]).verdict = .source source rest := by
  rw [stripHeader, nil_append, parseProxy_header hhdr]
  simp [ProxyStage.verdict]

end

end Same

/-- The verdict does not depend on the pieces exactly if a header in front has room. -/
theorem sameVerdict_iff (parseIp : Str → Option Octets) (stream : Octets) :
    (∃ verdict, SameVerdict parseIp stream verdict) ↔
      ∀ version header rest source, stream = header ++ rest →
        IsHeader parseIp version header source → header.length ≤ version.room := by
  constructor
  · rintro ⟨verdict, hs⟩ version header rest source rfl hhdr
    by_contra hlong
    have hpass := hs.reads [header ++ rest] (by simp)
    have href := hs.header
    rw [stripHeader_at_once hhdr] at hpass
    rw [readHeader_of_long hhdr (Nat.lt_of_not_le hlong) (nil_append _)
      (Nat.zero_le _), ← hpass] at href
    cases href
  · intro hroom
    by_cases hnone : ∀ version header rest source, stream = header ++ rest →
        ¬ IsHeader parseIp version header source
    · exact sameVerdict_of_no_header hnone
    · push Not at hnone
      obtain ⟨version, header, rest, source, rfl, hhdr⟩ := hnone
      exact ⟨_, sameVerdict_of_header hhdr (hroom version header rest source rfl hhdr)⟩

def longHeader : Octets :=
  proxyWord ++ [85, 78, 75, 78, 79, 87, 78, 32] ++ replicate 100 120 ++ [13, 10]

theorem header_refused_in_pieces :
    (stripHeader (fun _ => none) [] [longHeader]).verdict = .source .peer [] ∧
      (stripHeader (fun _ => none) [] [longHeader.take 110, longHeader.drop 110]).verdict =
        .invalid := by
  decide +kernel

end EchoIrcd
