import EchoIrcd.Lib.Octets

/-!
# PROXY headers

The parser of `proxy.rs` for the header that a trusted proxy puts in front of a
connection: a line of text in version 1, a signature with a length and an
address block in version 2.  The standard library's address parser is a
parameter.
-/

namespace EchoIrcd

open Octets List

variable {newline : Nat} {part rest : Octets}

structure SocketAddr where
  ip : Octets
  port : Nat
  deriving DecidableEq, Repr

/-- What a header says: keep the address of the peer, or take this one. -/
inductive ProxySource where
  | peer
  | client (addr : SocketAddr) (secure : Bool) (certfp : Option Str)
  deriving DecidableEq, Repr

inductive Parsed where
  | accepted (source : ProxySource)
  | need
  | invalid
  deriving DecidableEq, Repr

def v2Sig : Octets := [0x0D, 0x0A, 0x0D, 0x0A, 0x00, 0x0D, 0x0A, 0x51, 0x55, 0x49, 0x54, 0x0A]

def v1Max : Nat := 107

def proxyWord : Octets := [80, 82, 79, 88, 89, 32]

/-! ## Version 1 -/

def findCrlf : Octets → Option Nat
  | first :: second :: rest =>
    if first = 13 ∧ second = 10 then some 0
    else (findCrlf (second :: rest)).map (· + 1)
  | _ => none

def v1Source (parseIp : Str → Option Octets) (line : Octets) : Option ProxySource := do
  let text ← fromUtf8 line
  match text.splitOn ' ' with
  | _ :: word :: rest =>
    if word = "TCP4" ∨ word = "TCP6" then
      match rest with
      | [source, _, port, _] =>
        let ip ← parseIp source
        let port ← Str.toNatBelow (2 ^ 16) port
        some (.client ⟨ip, port⟩ false none)
      | _ => none
    else if word = "UNKNOWN" then some .peer
    else none
  | _ => none

def parseV1 (parseIp : Str → Option Octets) (buf : Octets) : Parsed × Nat :=
  match findCrlf buf with
  | none => (if v1Max < buf.length then .invalid else .need, 0)
  | some newline => ((v1Source parseIp (buf.take newline)).elim .invalid .accepted, newline + 2)

/-! ## Version 2 -/

def isHexDigit (char : Char) : Bool :=
  char.isDigit || ('a' ≤ char && char ≤ 'f') || ('A' ≤ char && char ≤ 'F')

def certfpOf (value : Octets) : Option Str :=
  (fromUtf8 value).filter fun text =>
    text ≠ [] && Str.byteLength text ≤ 128 && text.all isHexDigit

def parseV2Tlvs : Nat → Octets → Bool × Option Str → Bool × Option Str
  | fuel + 1, kind :: high :: low :: rest, (secure, certfp) =>
    let length := Octets.toNat [high, low]
    if rest.length < length then (secure, certfp)
    else
      let value := rest.take length
      parseV2Tlvs fuel (rest.drop length)
        (if kind = 0x20 then (secure || value.head?.any (· &&& 1 ≠ 0), certfp)
        else if kind = 0xE0 then (secure, (certfpOf value).or certfp)
        else (secure, certfp))
  | _, _, found => found

def v2Block (family : UInt8) (block : Octets) : ProxySource :=
  if family = 1 ∧ 12 ≤ block.length then
    let found := parseV2Tlvs block.length (block.drop 12) (false, none)
    .client ⟨block.take 4, Octets.toNat ((block.drop 8).take 2)⟩ found.1 found.2
  else if family = 2 ∧ 36 ≤ block.length then
    let found := parseV2Tlvs block.length (block.drop 36) (false, none)
    .client ⟨block.take 16, Octets.toNat ((block.drop 32).take 2)⟩ found.1 found.2
  else .peer

def v2Source (verCmd family : UInt8) (block : Octets) : Option ProxySource :=
  if verCmd &&& 0x0f = 0 then some .peer
  else if verCmd &&& 0x0f ≠ 1 then none
  else some (v2Block (family >>> 4) block)

def parseV2 : Octets → Parsed × Nat
  | verCmd :: family :: high :: low :: rest =>
    let length := Octets.toNat [high, low]
    if verCmd >>> 4 ≠ 2 then (.invalid, 0)
    else if rest.length < length then (.need, 0)
    else ((v2Source verCmd family (rest.take length)).elim .invalid .accepted, 16 + length)
  | _ => (.need, 0)

def parseProxy (parseIp : Str → Option Octets) (buf : Octets) : Parsed × Nat :=
  if buf.take 12 = v2Sig.take buf.length then
    if buf.length < 12 then (.need, 0) else parseV2 (buf.drop 12)
  else if proxyWord.isPrefixOf buf then parseV1 parseIp buf
  else if buf.length < 6 ∧ proxyWord.take buf.length = buf then (.need, 0)
  else (.invalid, 0)

section Verdicts

variable {parseIp : Str → Option Octets} {buf more : Octets}

/-! ## The front of the buffer -/

theorem take_eq_v2Sig_iff :
    buf.take 12 = v2Sig.take buf.length ↔ buf <+: v2Sig ∨ v2Sig <+: buf := by
  constructor
  · intro htake
    rcases Nat.le_total buf.length 12 with hsho | hlong
    · left
      rw [take_of_length_le hsho] at htake
      exact htake ▸ take_prefix _ _
    · right
      have hall : v2Sig.take buf.length = v2Sig := take_of_length_le hlong
      rw [← hall, ← htake]
      exact take_prefix _ _
  · rintro (hsho | hlong)
    · have hall : buf.take 12 = buf := take_of_length_le hsho.length_le
      rw [hall]
      exact prefix_iff_eq_take.mp hsho
    · have hall : v2Sig.take buf.length = v2Sig := take_of_length_le hlong.length_le
      rw [hall]
      exact (prefix_iff_eq_take.mp hlong).symm

theorem parseProxy_of_prefix_sig (hsig : buf <+: v2Sig) (hlen : buf.length < 12) :
    parseProxy parseIp buf = (.need, 0) := by
  rw [parseProxy, if_pos (take_eq_v2Sig_iff.mpr (.inl hsig)), if_pos hlen]

@[simp] theorem parseProxy_sig (rest : Octets) :
    parseProxy parseIp (v2Sig ++ rest) = parseV2 rest := by
  have hsig : v2Sig <+: v2Sig ++ rest := prefix_append _ _
  rw [parseProxy, if_pos (take_eq_v2Sig_iff.mpr (.inr hsig)), if_neg (by simp [v2Sig])]
  rfl

theorem not_sig_of_word (hne : buf ≠ []) (hword : buf <+: proxyWord ∨ proxyWord <+: buf) :
    ¬ (buf.take 12 = v2Sig.take buf.length) := by
  cases buf with
  | nil => contradiction
  | cons first rest =>
    have hfst : first = 80 := by
      rcases hword with ⟨tail, htail⟩ | ⟨tail, htail⟩
      · exact (cons.inj htail).1
      · exact (cons.inj htail).1.symm
    intro htake
    simp [hfst, v2Sig] at htake

@[simp] theorem parseProxy_word (rest : Octets) :
    parseProxy parseIp (proxyWord ++ rest) = parseV1 parseIp (proxyWord ++ rest) := by
  have hword : proxyWord <+: proxyWord ++ rest := prefix_append _ _
  rw [parseProxy, if_neg (not_sig_of_word (by simp [proxyWord]) (.inr hword)),
    if_pos ( isPrefixOf_iff_prefix.mpr hword)]

theorem parseProxy_of_prefix_word (hword : buf <+: proxyWord) (hlen : buf.length < 6) :
    parseProxy parseIp buf = (.need, 0) := by
  by_cases hne : buf = []
  · rw [hne]
    rfl
  · have hsho : ¬ (proxyWord.isPrefixOf buf = true) := by
      rw [ isPrefixOf_iff_prefix]
      intro hlong
      have hle := hlong.length_le
      simp only [proxyWord, length_cons, length_nil] at hle
      omega
    rw [parseProxy, if_neg (not_sig_of_word hne (.inl hword)), if_neg hsho,
      if_pos ⟨hlen, (prefix_iff_eq_take.mp hword).symm⟩]

theorem parseProxy_of_other (hsig : ¬ (buf <+: v2Sig ∨ v2Sig <+: buf))
    (hword : ¬ (buf <+: proxyWord ∨ proxyWord <+: buf)) :
    parseProxy parseIp buf = (.invalid, 0) := by
  rw [not_or] at hword
  rw [parseProxy, if_neg (mt take_eq_v2Sig_iff.mp hsig),
    if_neg (mt isPrefixOf_iff_prefix.mp hword.2), if_neg]
  rintro ⟨-, htake⟩
  exact hword.1 (htake ▸ take_prefix _ _)

theorem front_cases (buf : Octets) :
    buf <+: v2Sig ∧ buf.length < 12 ∨ v2Sig <+: buf ∨ buf <+: proxyWord ∧ buf.length < 6 ∨
      proxyWord <+: buf ∨
      ¬ (buf <+: v2Sig ∨ v2Sig <+: buf) ∧ ¬ (buf <+: proxyWord ∨ proxyWord <+: buf) := by
  by_cases hsig : buf <+: v2Sig
  · by_cases hlen : buf.length < 12
    · exact .inl ⟨hsig, hlen⟩
    · have hall : buf = v2Sig := hsig.eq_of_length_le (Nat.le_of_not_lt hlen)
      exact .inr (.inl (hall ▸ prefix_rfl))
  · by_cases hlong : v2Sig <+: buf
    · exact .inr (.inl hlong)
    · by_cases hword : buf <+: proxyWord
      · by_cases hlen : buf.length < 6
        · exact .inr (.inr (.inl ⟨hword, hlen⟩))
        · have hall : buf = proxyWord := hword.eq_of_length_le (Nat.le_of_not_lt hlen)
          exact .inr (.inr (.inr (.inl (hall ▸ prefix_rfl))))
      · by_cases hwh : proxyWord <+: buf
        · exact .inr (.inr (.inr (.inl hwh)))
        · exact .inr (.inr (.inr (.inr ⟨by simp [hsig, hlong], by simp [hword, hwh]⟩)))

/-! ## The end of a line -/

section

variable (hf : findCrlf buf = some newline)

include hf

theorem findCrlf_append (more : Octets) : findCrlf (buf ++ more) = some newline := by
  fun_induction findCrlf buf generalizing newline with
  | case1 first second rest hcrlf =>
    cases hf
    simp [findCrlf, hcrlf]
  | case2 first second rest hcrlf ih =>
    obtain ⟨place, hplace, rfl⟩ := Option.map_eq_some_iff.mp hf
    have hlat := ih hplace
    rw [cons_append] at hlat
    rw [cons_append, cons_append, findCrlf, if_neg hcrlf, hlat]
    rfl
  | case3 => cases hf

theorem findCrlf_eq_some :
    ∃ rest, buf = buf.take newline ++ [13, 10] ++ rest ∧ newline + 2 ≤ buf.length := by
  fun_induction findCrlf buf generalizing newline with
  | case1 first second rest hcrlf =>
    cases hf
    obtain ⟨rfl, rfl⟩ := hcrlf
    exact ⟨rest, rfl, by simp⟩
  | case2 first second rest hcrlf ih =>
    obtain ⟨place, hplace, rfl⟩ := Option.map_eq_some_iff.mp hf
    obtain ⟨back, hback, hlen⟩ := ih hplace
    refine ⟨back, ?_, by simpa using hlen⟩
    rw [take_succ_cons, cons_append, cons_append, ← hback]
  | case3 => cases hf

theorem findCrlf_take {count : Nat}
    (hcnt : count < newline + 2) : findCrlf (buf.take count) = none := by
  cases htake : findCrlf (buf.take count) with
  | none => rfl
  | some place =>
    have hs := findCrlf_append htake (buf.drop count)
    rw [take_append_drop, hf] at hs
    cases hs
    obtain ⟨-, -, hlen⟩ := findCrlf_eq_some htake
    rw [length_take] at hlen
    omega

end

theorem findCrlf_line {line : Octets}
    (hf : findCrlf (line ++ [13, 10] ++ rest) = some line.length) :
    findCrlf (line ++ [13, 10]) = some line.length := by
  cases hline : findCrlf (line ++ [13, 10]) with
  | some newline =>
    rw [findCrlf_append hline rest] at hf
    exact hf
  | none =>
    exfalso
    clear hf
    induction line with
    | nil => simp [findCrlf] at hline
    | cons first line ih =>
      cases line with
      | nil =>
        simp [findCrlf] at hline
      | cons second line =>
        simp only [cons_append, findCrlf] at hline
        split at hline
        · cases hline
        · rw [Option.map_eq_none_iff] at hline
          exact ih hline

theorem findCrlf_of_append (hnone : findCrlf (buf ++ more) = none) : findCrlf buf = none := by
  cases hf : findCrlf buf with
  | none => rfl
  | some newline =>
    rw [findCrlf_append hf more] at hnone
    cases hnone

/-! ## Headers -/

end Verdicts

inductive ProxyVersion where
  | v1
  | v2
  deriving DecidableEq, Repr

inductive IsHeader (parseIp : Str → Option Octets) :
    ProxyVersion → Octets → ProxySource → Prop
  | v1 {line : Octets} {source : ProxySource} (hword : proxyWord <+: line)
      (hline : findCrlf (line ++ [13, 10]) = some line.length)
      (hsrc : v1Source parseIp line = some source) :
      IsHeader parseIp .v1 (line ++ [13, 10]) source
  | v2 {verCmd family high low : UInt8} {block : Octets} {source : ProxySource}
      (hver : verCmd >>> 4 = 2) (hblk : block.length = Octets.toNat [high, low])
      (hsrc : v2Source verCmd family block = some source) :
      IsHeader parseIp .v2 (v2Sig ++ verCmd :: family :: high :: low :: block) source

section Headers

variable {parseIp : Str → Option Octets} {buf more header : Octets} {version : ProxyVersion}
  {source : ProxySource} {used : Nat}

theorem parseProxy_header (hhdr : IsHeader parseIp version header source) (rest : Octets) :
    parseProxy parseIp (header ++ rest) = (.accepted source, header.length) := by
  cases hhdr with
  | v1 hword hline hsrc =>
    have hf := findCrlf_append hline rest
    obtain ⟨fields, rfl⟩ := hword
    simp only [append_assoc] at hf ⊢
    rw [parseProxy_word, parseV1, hf]
    simp only [← append_assoc proxyWord fields]
    rw [take_left, hsrc]
    simp [Nat.add_assoc]
  | v2 hver hblk hsrc =>
    rename_i verCmd family high low block
    have hlong : ¬ (block ++ rest).length < Octets.toNat [high, low] := by
      simp [← hblk]
    rw [append_assoc, parseProxy_sig]
    simp only [cons_append, parseV2]
    rw [if_neg (not_not.mpr hver), if_neg hlong, ← hblk, take_left, hsrc]
    simp [v2Sig]
    omega

theorem elim_eq_accepted {found : Option ProxySource} :
    found.elim Parsed.invalid .accepted = .accepted source ↔ found = some source := by
  cases found <;> simp

theorem header_of_parseV2 (hacc : parseV2 rest = (.accepted source, used)) :
    ∃ header back, v2Sig ++ rest = header ++ back ∧ header.length = used ∧
      IsHeader parseIp .v2 header source := by
  unfold parseV2 at hacc
  split at hacc
  · rename_i verCmd family high low rest
    simp only at hacc
    split at hacc
    · cases hacc
    · rename_i hver
      split at hacc
      · cases hacc
      · rw [Prod.mk.injEq, elim_eq_accepted] at hacc
        have hblk : (rest.take (Octets.toNat [high, low])).length = Octets.toNat [high, low] := by
          rw [length_take]
          omega
        refine ⟨_, rest.drop (Octets.toNat [high, low]), ?_, ?_,
          .v2 (not_not.mp hver) hblk hacc.1⟩
        · simp
        · simp only [v2Sig, length_append, length_cons, length_nil, hblk]
          omega
  · cases hacc

theorem six_le_findCrlf (hf : findCrlf (proxyWord ++ rest) = some newline) : 6 ≤ newline := by
  cases rest with
  | nil => simp [proxyWord, findCrlf] at hf
  | cons first rest =>
    simp only [proxyWord, cons_append, nil_append, findCrlf] at hf
    simp at hf
    omega

theorem header_of_parseV1
    (hacc : parseV1 parseIp (proxyWord ++ rest) = (.accepted source, used)) :
    ∃ header back, proxyWord ++ rest = header ++ back ∧ header.length = used ∧
      IsHeader parseIp .v1 header source := by
  unfold parseV1 at hacc
  cases hf : findCrlf (proxyWord ++ rest) with
  | none =>
    simp only [hf] at hacc
    split at hacc <;> cases hacc
  | some newline =>
    simp only [hf, Prod.mk.injEq, elim_eq_accepted] at hacc
    obtain ⟨back, hback, hlen⟩ := findCrlf_eq_some hf
    obtain ⟨hsrc, rfl⟩ := hacc
    have hline : ((proxyWord ++ rest).take newline).length = newline := by
      rw [length_take]
      omega
    have hf' : findCrlf ((proxyWord ++ rest).take newline ++ [13, 10] ++ back) =
        some ((proxyWord ++ rest).take newline).length := by
      rw [← hback, hline, hf]
    have hword : proxyWord <+: (proxyWord ++ rest).take newline := by
      rw [prefix_take_iff]
      exact ⟨prefix_append _ _, six_le_findCrlf hf⟩
    refine ⟨_, back, hback, ?_, .v1 hword (findCrlf_line hf') hsrc⟩
    rw [length_append, hline]
    rfl

theorem header_of_accepted (hacc : parseProxy parseIp buf = (.accepted source, used)) :
    ∃ version header rest, buf = header ++ rest ∧ header.length = used ∧
      IsHeader parseIp version header source := by
  rcases front_cases buf with ⟨hsig, hlen⟩ | ⟨rest, rfl⟩ | ⟨hword, hlen⟩ | ⟨rest, rfl⟩ |
    ⟨hsig, hword⟩
  · rw [parseProxy_of_prefix_sig hsig hlen] at hacc
    cases hacc
  · rw [parseProxy_sig] at hacc
    exact ⟨.v2, header_of_parseV2 hacc⟩
  · rw [parseProxy_of_prefix_word hword hlen] at hacc
    cases hacc
  · exact ⟨.v1, header_of_parseV1 hacc⟩
  · rw [parseProxy_of_other hsig hword] at hacc
    cases hacc

/-! ## A header that has not arrived as a whole -/

theorem eq_append_of_prefix {front whole : Octets} (hfront : front <+: whole)
    (hpart : part <+: whole) (hlen : front.length ≤ part.length) :
    ∃ rest, part = front ++ rest := by
  obtain ⟨rest, hrest⟩ := prefix_of_prefix_length_le hfront hpart hlen
  exact ⟨rest, hrest.symm⟩

theorem parseV2_of_prefix {verCmd family high low : UInt8} {block : Octets}
    (hver : verCmd >>> 4 = 2) (hblk : block.length = Octets.toNat [high, low])
    (hpart : part <+: verCmd :: family :: high :: low :: block)
    (hlen : part.length < block.length + 4) : parseV2 part = (.need, 0) := by
  match part with
  | [] | [_] | [_, _] | [_, _, _] => rfl
  | verCmd' :: family' :: high' :: low' :: rest =>
    simp only [cons_prefix_cons] at hpart
    obtain ⟨rfl, rfl, rfl, rfl, -⟩ := hpart
    simp only [length_cons] at hlen
    simp only [parseV2]
    rw [if_neg (not_not.mpr hver), if_pos (by omega)]

theorem parseProxy_of_prefix_header (hhdr : IsHeader parseIp version header source)
    (hpart : part <+: header) (hlen : part.length < header.length) :
    parseProxy parseIp part =
      (if version = .v1 ∧ v1Max < part.length then .invalid else .need, 0) := by
  cases hhdr with
  | v1 hword hline hsrc =>
    rename_i line
    have hword' : proxyWord <+: line ++ [13, 10] := hword.trans (prefix_append _ _)
    by_cases hsho : part.length < 6
    · have hini : part <+: proxyWord :=
        prefix_of_prefix_length_le hpart hword' (Nat.le_of_lt hsho)
      have hmax : ¬ v1Max < part.length := by
        rw [v1Max]
        omega
      rw [parseProxy_of_prefix_word hini hsho, if_neg (fun hlong => hmax hlong.2)]
    · obtain ⟨rest, rfl⟩ := eq_append_of_prefix hword' hpart (Nat.le_of_not_lt hsho)
      have hnone : findCrlf (proxyWord ++ rest) = none := by
        rw [prefix_iff_eq_take.mp hpart]
        apply findCrlf_take hline
        simpa using hlen
      rw [parseProxy_word, parseV1, hnone]
      simp
  | v2 hver hblk hsrc =>
    by_cases hsho : part.length < 12
    · apply parseProxy_of_prefix_sig _ hsho
      exact prefix_of_prefix_length_le hpart (prefix_append _ _) (Nat.le_of_lt hsho)
    · obtain ⟨rest, rfl⟩ :=
        eq_append_of_prefix (prefix_append v2Sig _) hpart (Nat.le_of_not_lt hsho)
      rw [parseProxy_sig]
      rw [prefix_append_right_inj] at hpart
      apply parseV2_of_prefix hver hblk hpart
      simp only [length_append, length_cons] at hlen
      omega

theorem not_front_append {front : Octets} (hbuf : ¬ (buf <+: front ∨ front <+: buf)) :
    ¬ (buf ++ more <+: front ∨ front <+: buf ++ more) := by
  rintro (hsho | hlong)
  · exact hbuf (.inl ((prefix_append _ _).trans hsho))
  · exact hbuf ( prefix_or_prefix_of_prefix (prefix_append _ _) hlong)

theorem parseV2_need_of_append (hneed : (parseV2 (buf ++ more)).1 = .need) :
    (parseV2 buf).1 = .need := by
  match buf with
  | [] | [_] | [_, _] | [_, _, _] => rfl
  | verCmd :: family :: high :: low :: rest =>
    simp only [cons_append, parseV2] at hneed ⊢
    split at hneed
    · cases hneed
    · rename_i hver
      split at hneed
      · rename_i hsho
        rw [length_append] at hsho
        rw [if_neg hver, if_pos (by omega)]
      · cases hsrc : v2Source verCmd family
            ((rest ++ more).take (Octets.toNat [high, low])) <;>
          simp [hsrc] at hneed

theorem parseV1_need_of_append (hneed : (parseV1 parseIp (buf ++ more)).1 = .need) :
    (parseV1 parseIp buf).1 = .need := by
  unfold parseV1 at hneed ⊢
  cases hf : findCrlf (buf ++ more) with
  | none =>
    simp only [hf, length_append] at hneed
    rw [findCrlf_of_append hf]
    split at hneed
    · cases hneed
    · rw [if_neg (by omega)]
  | some newline =>
    cases hsrc : v1Source parseIp ((buf ++ more).take newline) <;>
      simp [hf, hsrc] at hneed

theorem need_of_append (hneed : (parseProxy parseIp (buf ++ more)).1 = .need) :
    (parseProxy parseIp buf).1 = .need := by
  rcases front_cases buf with ⟨hsig, hlen⟩ | ⟨rest, rfl⟩ | ⟨hword, hlen⟩ | ⟨rest, rfl⟩ |
    ⟨hsig, hword⟩
  · rw [parseProxy_of_prefix_sig hsig hlen]
  · rw [append_assoc, parseProxy_sig] at hneed
    rw [parseProxy_sig]
    exact parseV2_need_of_append hneed
  · rw [parseProxy_of_prefix_word hword hlen]
  · exact parseV1_need_of_append hneed
  · rw [parseProxy_of_other (not_front_append hsig) (not_front_append hword)] at hneed
    cases hneed

end Headers

end EchoIrcd
