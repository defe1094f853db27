import EchoIrcd.Link
import EchoIrcd.Framing
import EchoIrcd.Lib.Utf8
import Mathlib.Algebra.Order.BigOperators.Group.List

/-!
# The length of burst lines

`burst_channels` puts all members of a channel on one `FJOIN` line, while the
reader of the peer drops a line that is longer than `max_line` octets, its end
included.
-/

namespace EchoIrcd

open Str Octets List

/-! ## Lines on the wire -/

def Out.wire (out : Out) : Octets := utf8 out.text ++ [13, 10]

theorem length_wire (out : Out) : out.wire.length = byteLength out.text + 2 := by
  simp [Out.wire, length_utf8]

theorem utf8Size_marks : Char.utf8Size ' ' = 1 ∧ Char.utf8Size ':' = 1 ∧
    Char.utf8Size '+' = 1 ∧ Char.utf8Size ',' = 1 := by
  decide

theorem byteLength_fjoin (source name modes members : Str) (ts : Timestamp) :
    byteLength (Out.fjoin source name ts modes members).text =
      byteLength source + byteLength name + byteLength (renderU64 ts) + byteLength modes +
        byteLength members + 12 := by
  have hword : byteLength ("FJOIN" : Str) = 5 := by decide
  simp only [Out.text, Out.line, Line.render, wireSource, flatMap_cons, flatMap_nil,
    byteLength_append, byteLength_cons, byteLength_nil, hword, utf8Size_marks]
  omega

theorem byteLength_fmode (source name modes param : Str) (ts : Timestamp) :
    byteLength (Out.fmode source name ts modes [param]).text =
      byteLength source + byteLength name + byteLength (renderU64 ts) + byteLength modes +
        byteLength param + 11 := by
  have hword : byteLength ("FMODE" : Str) = 5 := by decide
  simp only [Out.text, Out.line, Line.render, wireSource, cons_append, nil_append,
    flatMap_cons, flatMap_nil, byteLength_append, byteLength_cons, byteLength_nil, hword,
    utf8Size_marks]
  omega

theorem byteLength_intercalate {tokens : List Str} (htoks : tokens ≠ []) :
    byteLength (intercalate [' '] tokens) + 1 =
      (tokens.map fun token => byteLength token + 1).sum := by
  induction tokens with
  | nil => exact absurd rfl htoks
  | cons token tokens ih =>
    cases tokens with
    | nil => simp
    | cons next tokens =>
      have hrest := ih (by simp)
      rw [intercalate_cons_cons, map_cons, sum_cons, ← hrest]
      simp only [byteLength_append, byteLength_cons, byteLength_nil, utf8Size_marks]
      omega

/-! ## The room that a channel takes -/

def Channel.burstParams (channel : Channel) : List Str :=
  channel.modes.key.toList ++ channel.modes.limit.toList.map renderU32 ++
    [ListKind.ban, .except, .invex].flatMap fun kind => (channel.lists kind).map Ban.mask

/-- A channel whose lines fit: the members all together, and each parameter. -/
structure Channel.FitsBurst (server : Server) (maxLine : Nat) (channel : Channel) : Prop where
  members : byteLength server.conf.sid + byteLength channel.name +
    byteLength (renderU64 channel.created) + byteLength channel.modes.render +
    ((server.memberTokens channel).map fun token => byteLength token + 1).sum + 13 ≤ maxLine
  params : ∀ param ∈ channel.burstParams, byteLength server.conf.sid + byteLength channel.name +
    byteLength (renderU64 channel.created) + byteLength param + 15 ≤ maxLine

namespace Server

variable {server : Server} {channel : Channel} {maxLine : Nat}

theorem length_burst_fmode (letter : Char) (hlet : letter.utf8Size = 1) (param : Str) :
    (Out.fmode server.conf.sid channel.name channel.created ['+', letter] [param]).wire.length =
      byteLength server.conf.sid + byteLength channel.name +
        byteLength (renderU64 channel.created) + byteLength param + 15 := by
  rw [length_wire, byteLength_fmode]
  simp only [byteLength_cons, byteLength_nil, hlet, utf8Size_marks]
  omega

theorem forall_listBurst {holds : Out → Prop} (kind : ListKind) :
    (∀ out ∈ server.listBurst channel kind, holds out) ↔
      ∀ mask ∈ (channel.lists kind).map Ban.mask, holds (.fmode server.conf.sid channel.name
        channel.created ['+', kind.letter] [mask]) := by
  simp [listBurst]

theorem burstChannel_fits_iff (htoks : server.memberTokens channel ≠ []) :
    (∀ out ∈ server.burstChannel channel, out.wire.length ≤ maxLine) ↔
      channel.FitsBurst server maxLine := by
  have hmems := byteLength_intercalate htoks
  have hkey : ∀ param : Str, (Out.fmode server.conf.sid channel.name channel.created "+k"
      [param]).wire.length = _ := length_burst_fmode 'k' (by decide)
  have hlim : ∀ param : Str, (Out.fmode server.conf.sid channel.name channel.created "+l"
      [param]).wire.length = _ := length_burst_fmode 'l' (by decide)
  have hlist : ∀ kind : ListKind, (∀ out ∈ server.listBurst channel kind,
      out.wire.length ≤ maxLine) ↔ ∀ mask ∈ (channel.lists kind).map Ban.mask,
        byteLength server.conf.sid + byteLength channel.name +
          byteLength (renderU64 channel.created) + byteLength mask + 15 ≤ maxLine := by
    intro kind
    rw [forall_listBurst]
    have hlet : kind.letter.utf8Size = 1 := by cases kind <;> decide
    simp only [length_burst_fmode kind.letter hlet]
  have hfjoin : (Out.fjoin server.conf.sid channel.name channel.created channel.modes.render
      (intercalate [' '] (server.memberTokens channel))).wire.length =
        byteLength server.conf.sid + byteLength channel.name +
          byteLength (renderU64 channel.created) + byteLength channel.modes.render +
          ((server.memberTokens channel).map fun token => byteLength token + 1).sum + 13 := by
    rw [length_wire, byteLength_fjoin]
    omega
  rw [burstChannel, if_neg htoks]
  simp only [forall_mem_cons, forall_mem_append, forall_mem_map,
    flatMap_cons, flatMap_nil, append_nil, hkey, hlim, hlist, hfjoin]
  constructor
  · rintro ⟨hjoin, ⟨hkeys, hlimits⟩, hbans, hexcepts, hinvex⟩
    refine ⟨hjoin, ?_⟩
    simp only [Channel.burstParams, forall_mem_append, forall_mem_map,
      flatMap_cons, flatMap_nil, append_nil]
    exact ⟨⟨hkeys, hlimits⟩, hbans, hexcepts, hinvex⟩
  · rintro ⟨hjoin, hpar⟩
    simp only [Channel.burstParams, forall_mem_append, forall_mem_map,
      flatMap_cons, flatMap_nil, append_nil] at hpar
    exact ⟨hjoin, hpar⟩

theorem channelBurst_lines_fit_iff :
    (∀ out ∈ server.channelBurst, out.wire.length ≤ maxLine) ↔
      ∀ key channel, server.channels.lookup key = some channel →
        server.memberTokens channel ≠ [] → channel.FitsBurst server maxLine := by
  rw [Table.forall_lookup_iff]
  simp only [channelBurst, forall_mem_flatMap]
  refine forall₂_congr fun entry _ => ?_
  by_cases htoks : server.memberTokens entry.2 = []
  · simp [burstChannel, htoks]
  · simp [burstChannel_fits_iff htoks, htoks]

end Server

/-! ## Reading the lines -/

structure Out.Clean (out : Out) : Prop where
  text_ne : out.text ≠ []
  newline : '\n' ∉ out.text
  last : out.text.getLast? ≠ some '\r'

theorem wire_eq (out : Out) : out.wire = utf8 (out.text ++ ['\r', '\n']) := by
  rw [utf8_append]
  rfl

theorem Out.Clean.lineText {out : Out} (hcl : out.Clean) : lineText out.wire = out.text := by
  have hlast : ∀ char ∈ out.text.getLast?, (char = '\r' || char = '\n') = false := by
    intro char hchar
    have hcr : char ≠ '\r' := by
      rintro rfl
      exact hcl.last hchar
    have hlf : char ≠ '\n' := by
      rintro rfl
      exact hcl.newline (mem_of_getLast? hchar)
    simp [hcr, hlf]
  have hends : out.text ++ ['\r', '\n'] = out.text ++ ['\r'] ++ ['\n'] := by simp
  rw [EchoIrcd.lineText, wire_eq, fromUtf8Lossy_utf8, hends, rdropWhile_concat_pos _ _ _ (by simp),
    rdropWhile_concat_pos _ _ _ (by simp), rdropWhile_eq_self_iff]
  intro hne
  rw [hlast _ (getLast?_eq_some_getLast hne)]
  simp

theorem Out.Clean.newline_not_mem {out : Out} (hcl : out.Clean) : 10 ∉ utf8 out.text ++ [13] := by
  have htext := not_mem_utf8 (by decide) hcl.newline
  simp only [mem_append, mem_singleton, not_or]
  exact ⟨htext, by decide⟩

theorem readerLoop_line_iff {out : Out} (hcl : out.Clean) (maxLine fuel : Nat) (rest : Octets) :
    (readerLoop maxLine (fuel + 1) (out.wire ++ rest)).head? = some (.line out.text) ↔
      out.wire.length ≤ maxLine := by
  have hspl : out.wire = utf8 out.text ++ [13] ++ [10] := by simp [Out.wire]
  have hfind : (out.wire ++ rest).findIdx (· = 10) + 1 = out.wire.length := by
    have hcons : out.wire ++ rest = (utf8 out.text ++ [13]) ++ 10 :: rest := by simp [hspl]
    rw [hcons, findIdx_eq_getD_findIdx?, findIdx?_line hcl.newline_not_mem,
      Option.getD_some, hspl]
    simp
  have hraw : readLine maxLine (out.wire ++ rest) = out.wire.take (maxLine + 1) := by
    rw [readLine, hfind, take_left]
  rw [readerLoop, hraw]
  by_cases hfits : out.wire.length ≤ maxLine
  · have htake : out.wire.take (maxLine + 1) = out.wire := take_of_length_le (by omega)
    have hne : out.wire ≠ [] := by simp [Out.wire]
    have htext : lineText out.wire ≠ [] := by
      rw [hcl.lineText]
      exact hcl.text_ne
    have hval : fromUtf8 out.wire = some (out.text ++ ['\r', '\n']) := by
      rw [wire_eq, fromUtf8_utf8]
    simp only [htake, hval]
    rw [if_neg hne, if_neg (Nat.not_lt.mpr hfits), if_neg htext, hcl.lineText]
    simp [hfits]
  · have hlong : maxLine < (out.wire.take (maxLine + 1)).length := by
      rw [length_take]
      omega
    have hne : out.wire.take (maxLine + 1) ≠ [] := by
      intro hnil
      simp [hnil] at hlong
    simp only [hfits, iff_false]
    split
    · simp
    · rw [if_neg hne, if_pos hlong]
      simp

section Stream

variable {outs : List Out} {maxLine : Nat}

def sentLines (outs : List Out) : List Octets := outs.map fun out => utf8 out.text ++ [13]

theorem unlines_sentLines (outs : List Out) :
    Lines.unlines 10 (sentLines outs) = outs.flatMap Out.wire := by
  simp only [Lines.unlines, sentLines, flatMap_map, append_assoc]
  rfl

section

variable (hcl : ∀ out ∈ outs, out.Clean)

include hcl

theorem texts_sentLines : texts (sentLines outs) = outs.map Out.text := by
  induction outs with
  | nil => rfl
  | cons out outs ih =>
    rw [forall_mem_cons] at hcl
    have hspl : utf8 out.text ++ [13] ++ [10] = out.wire := by simp [Out.wire]
    have hrest : texts (sentLines outs) = outs.map Out.text := ih hcl.2
    rw [sentLines, map_cons, texts_cons, hspl, hcl.1.lineText, if_neg hcl.1.text_ne]
    rw [sentLines] at hrest
    rw [hrest]
    rfl

theorem delivered_readerLoop_wire (hfits : ∀ out ∈ outs, out.wire.length ≤ maxLine) :
    delivered (readerLoop maxLine outs.length (outs.flatMap Out.wire)) = outs.map Out.text := by
  have hls : ∀ line ∈ sentLines outs, 10 ∉ line ∧ line.length < maxLine ∧
      (fromUtf8 (line ++ [10])).isSome = true := by
    simp only [sentLines, forall_mem_map]
    intro out hout
    have hspl : utf8 out.text ++ [13] ++ [10] = utf8 (out.text ++ ['\r', '\n']) := by
      rw [← wire_eq]
      simp [Out.wire]
    have hlen := hfits out hout
    simp only [Out.wire, length_append, length_cons, length_nil] at hlen
    refine ⟨(hcl out hout).newline_not_mem, ?_, ?_⟩
    · simp only [length_append, length_cons, length_nil]
      omega
    · rw [hspl, fromUtf8_utf8]
      rfl
  have hread := @delivered_readerLoop maxLine (sentLines outs) hls outs.length
    (by simp [sentLines])
  rw [texts_sentLines hcl] at hread
  rw [← unlines_sentLines]
  exact hread

theorem delivered_tlsConn_wire (hfits : ∀ out ∈ outs, out.wire.length ≤ maxLine)
    {chunks : List Octets} (hchk : chunks.flatten = outs.flatMap Out.wire) :
    delivered (tlsConn maxLine [] chunks) = outs.map Out.text := by
  have hnewline : ∀ line ∈ sentLines outs, 10 ∉ line := by
    simp only [sentLines, forall_mem_map]
    exact fun out hout => (hcl out hout).newline_not_mem
  have hcut : (Lines.cut 10 chunks.flatten).1 = sentLines outs := by
    rw [hchk, ← unlines_sentLines, Lines.cut_unlines hnewline]
  have hls : LinesFit maxLine (sentLines outs) := by
    simp only [LinesFit, sentLines, forall_mem_map]
    intro out hout
    left
    have hlen := hfits out hout
    simp only [Out.wire, length_append, length_cons, length_nil] at hlen ⊢
    omega
  rw [delivered_tlsConn, framedReads_of_linesFit (by simp) (.inl rfl) chunks
    (by rw [nil_append, hcut]; exact hls), nil_append, hcut, texts_sentLines hcl]

end

end Stream

/-- The lines of a channel burst fit exactly if every channel does.  The reader of the peer
delivers a line exactly if it fits, and the whole burst if all do. -/
theorem channelBurst_fits_iff (server : Server) (maxLine : Nat) :
    ((∀ out ∈ server.channelBurst, out.wire.length ≤ maxLine) ↔
      ∀ key channel, server.channels.lookup key = some channel →
        server.memberTokens channel ≠ [] → channel.FitsBurst server maxLine) ∧
    ((∀ out ∈ server.channelBurst, out.Clean) →
      (∀ out ∈ server.channelBurst, ∀ fuel rest,
        (readerLoop maxLine (fuel + 1) (out.wire ++ rest)).head? = some (.line out.text) ↔
          out.wire.length ≤ maxLine) ∧
      ((∀ out ∈ server.channelBurst, out.wire.length ≤ maxLine) →
        delivered (readerLoop maxLine server.channelBurst.length
            (server.channelBurst.flatMap Out.wire)) = server.channelBurst.map Out.text ∧
          ∀ chunks : List Octets, chunks.flatten = server.channelBurst.flatMap Out.wire →
            delivered (tlsConn maxLine [] chunks) = server.channelBurst.map Out.text)) := by
  refine ⟨Server.channelBurst_lines_fit_iff, fun hcl => ⟨?_, fun hfits => ⟨?_, ?_⟩⟩⟩
  · exact fun out hout fuel rest => readerLoop_line_iff (hcl out hout) maxLine fuel rest
  · exact delivered_readerLoop_wire hcl hfits
  · exact fun chunks hchk => delivered_tlsConn_wire hcl hfits hchk

/-! ## A crowded channel -/

def crowdUuid (number : Nat) : Str := "1BB" ++ Str.ofNat (100000 + number)

theorem crowdUuid_injective : Function.Injective crowdUuid := by
  intro number other hs
  have hdig := append_cancel_left hs
  have hread := congrArg (toNatBelow (max (100000 + number) (100000 + other) + 1)) hdig
  rw [toNatBelow_ofNat (by omega), toNatBelow_ofNat (by omega), Option.some.injEq] at hread
  omega

def crowdChannel (size : Nat) : Channel where
  name := "#c"
  created := 3
  rmembers := ⟨(range size).map fun number => ⟨crowdUuid number, {}⟩, by
    rw [NodupKeys, keys, map_map]
    exact nodup_range.map crowdUuid_injective⟩

def crowdServer (size : Nat) : Server where
  conf := { name := "a.test", sid := "0AA" }
  clock := 7
  channels := Table.ofList [("#c", crowdChannel size)]

theorem memberTokens_crowd (size : Nat) :
    (crowdServer size).memberTokens (crowdChannel size) =
      (range size).map fun number => ',' :: crowdUuid number := by
  simp only [Server.memberTokens, crowdChannel, Table.toPairs, map_map]
  rfl

theorem length_le_byteLength (text : Str) : text.length ≤ byteLength text := by
  induction text with
  | nil => exact Nat.le_refl _
  | cons char text ih =>
    have hpos := Char.utf8Size_pos char
    rw [length_cons, byteLength_cons]
    omega

theorem le_byteLength_crowdUuid (number : Nat) : 9 ≤ byteLength (crowdUuid number) := by
  have hdig : ¬ (Str.ofNat (100000 + number)).length ≤ 5 := by
    rw [Str.ofNat, Nat.length_toDigits_le_iff (by decide) (by decide)]
    omega
  refine Nat.le_trans ?_ (length_le_byteLength _)
  rw [crowdUuid, length_append]
  change 9 ≤ 3 + _
  omega

theorem crowd_room (size : Nat) :
    size * 11 ≤ (((crowdServer size).memberTokens (crowdChannel size)).map
      fun token => byteLength token + 1).sum := by
  have heach : ∀ room ∈ (range size).map fun number => byteLength (',' :: crowdUuid number) + 1,
      11 ≤ room := by
    simp only [forall_mem_map, byteLength_cons, utf8Size_marks]
    intro number _
    have hlen := le_byteLength_crowdUuid number
    omega
  rw [memberTokens_crowd, map_map]
  have hsum := card_nsmul_le_sum _ 11 heach
  rw [length_map, length_range] at hsum
  exact hsum

def defaultMaxLine : Nat := 16 * 1024

theorem channelBurst_fits_iff_crowd :
    (∀ out ∈ (crowdServer 2).channelBurst, out.wire.length ≤ defaultMaxLine) ∧
      delivered (readerLoop defaultMaxLine (crowdServer 2).channelBurst.length
        ((crowdServer 2).channelBurst.flatMap Out.wire)) =
          (crowdServer 2).channelBurst.map Out.text := by
  have hburst : (crowdServer 2).channelBurst =
      [.fjoin "0AA" "#c" 3 "+" ",1BB100000 ,1BB100001"] := rfl
  have hfits : ∀ out ∈ (crowdServer 2).channelBurst, out.wire.length ≤ defaultMaxLine := by
    decide +kernel
  refine ⟨hfits, (((channelBurst_fits_iff (crowdServer 2) defaultMaxLine).2 ?_).2 hfits).1⟩
  rw [hburst, forall_mem_singleton]
  exact ⟨by decide, by decide, by decide⟩

theorem crowded_burst_too_long :
    ∃ out ∈ (crowdServer 1500).channelBurst, defaultMaxLine < out.wire.length := by
  by_contra hnone
  simp only [not_exists, not_and, Nat.not_lt] at hnone
  have hroom := crowd_room 1500
  have htoks : (crowdServer 1500).memberTokens (crowdChannel 1500) ≠ [] := by
    rw [memberTokens_crowd]
    simp
  have hfits := (Server.channelBurst_lines_fit_iff.mp hnone "#c" (crowdChannel 1500) rfl
    htoks).members
  unfold defaultMaxLine at hfits
  omega

end EchoIrcd
