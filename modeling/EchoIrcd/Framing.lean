import EchoIrcd.Reactor
import EchoIrcd.Lib.Lines

/-!
# Lines that arrive in pieces

The reactor looks at the length of a line only while its end is missing.  A line
over the limit is delivered if its end comes with the same read, and otherwise
loses what was there when the limit was passed: what arrives later is delivered
as a line of its own.  Reads leave no trace exactly if no line is over the limit,
or only such as have no text.
-/

namespace EchoIrcd

open Octets Lines List

variable {buf last line : Octets} (limit : Nat) (lines : List Str)

def texts (lines : List Octets) : List Str :=
  (lines.map fun line => lineText (line ++ [10])).filter (· ≠ [])

def fitting (limit : Nat) (stream : Octets) : List Octets :=
  (cut 10 stream).1.filter (·.length ≤ limit)

/-! ## One read -/

theorem lineText_eq_nil {raw : Octets} :
    lineText raw = [] ↔ ∀ octet ∈ raw, octet = 13 ∨ octet = 10 := by
  rw [lineText, rdropWhile_eq_nil_iff, ← fromUtf8Lossy_control]
  simp

theorem lineText_line_eq_nil (hline : 10 ∉ line) :
    lineText (line ++ [10]) = [] ↔ ∀ octet ∈ line, octet = 13 := by
  rw [lineText_eq_nil]
  constructor
  · intro hall octet hoctet
    rcases hall octet (mem_append_left _ hoctet) with hcr | hlf
    · exact hcr
    · exact absurd (hlf ▸ hoctet) hline
  · intro hall octet hoctet
    rcases mem_append.mp hoctet with hmem | hlast
    · exact .inl (hall octet hmem)
    · exact .inr (mem_singleton.mp hlast)

theorem texts_cons (line : Octets) (lines : List Octets) :
    texts (line :: lines) =
      (if lineText (line ++ [10]) = [] then [] else [lineText (line ++ [10])]) ++ texts lines := by
  by_cases hemp : lineText (line ++ [10]) = []
  · simp [hemp, texts]
  · simp [hemp, texts]

theorem texts_append (front back : List Octets) :
    texts (front ++ back) = texts front ++ texts back := by
  simp [texts]

theorem findIdx?_newline (hnone : 10 ∉ buf) : buf.findIdx? (· = 10) = none := by
  rw [findIdx?_eq_none_iff]
  intro octet hoctet
  simp only [decide_eq_false_iff_not]
  rintro rfl
  exact hnone hoctet

theorem findIdx?_line (hline : 10 ∉ line) (rest : Octets) :
    (line ++ 10 :: rest).findIdx? (· = 10) = some line.length := by
  rw [findIdx?_append, findIdx?_newline hline]
  simp [findIdx?_cons]

theorem takeLines_eq {fuel : Nat} (hfuel : buf.length ≤ fuel) :
    takeLines fuel buf lines = ((cut 10 buf).2, lines ++ texts (cut 10 buf).1) := by
  induction fuel generalizing buf lines with
  | zero =>
    rw [length_eq_zero_iff.mp (Nat.le_zero.mp hfuel)]
    simp [takeLines, cut, texts]
  | succ fuel ih =>
    rw [takeLines]
    rcases first_line 10 buf with hnone | ⟨line, rest, rfl, hline⟩
    · rw [findIdx?_newline hnone, cut_of_not_mem hnone]
      simp [texts]
    · have hspl : line ++ 10 :: rest = (line ++ [10]) ++ rest := by simp
      have htake : (line ++ 10 :: rest).take (line.length + 1) = line ++ [10] := by
        rw [hspl, take_left' (by simp)]
      have hdrop : (line ++ 10 :: rest).drop (line.length + 1) = rest := by
        rw [hspl, drop_left' (by simp)]
      have hshorter : rest.length ≤ fuel := by
        rw [length_append, length_cons] at hfuel
        omega
      simp only [findIdx?_line hline, htake, hdrop]
      rw [ih _ hshorter, cut_line hline, texts_cons]
      split <;> simp

theorem frameLines_eq (buf : Octets) (lines : List Str) :
    frameLines limit buf lines =
      ⟨if limit < (cut 10 buf).2.length then [] else (cut 10 buf).2,
        lines ++ texts (cut 10 buf).1, decide (limit < (cut 10 buf).2.length)⟩ := by
  rw [frameLines, takeLines_eq _ (Nat.le_refl _)]
  by_cases hlong : limit < (cut 10 buf).2.length
  · simp [hlong]
  · simp [hlong]

/-! ## Read after read -/

def framedReads (limit : Nat) : Octets → List Octets → Octets × List Str
  | buf, [] => (buf, [])
  | buf, chunk :: chunks =>
    let framed := frameLines limit (buf ++ chunk) []
    let rest := framedReads limit framed.buf chunks
    (rest.1, framed.lines ++ rest.2)

theorem framedReads_append (buf : Octets) (front back : List Octets) :
    framedReads limit buf (front ++ back) =
      ((framedReads limit (framedReads limit buf front).1 back).1,
        (framedReads limit buf front).2 ++
          (framedReads limit (framedReads limit buf front).1 back).2) := by
  induction front generalizing buf with
  | nil => rfl
  | cons chunk front ih =>
    rw [cons_append, framedReads, framedReads, ih]
    simp

/-- What is in the buffer: the unfinished line, or the end of one that is over the limit. -/
def Carries (limit : Nat) (buf last : Octets) : Prop :=
  buf = last ∨ buf <:+ last ∧ limit < last.length

def LinesFit (limit : Nat) (lines : List Octets) : Prop :=
  ∀ line ∈ lines, line.length ≤ limit ∨ ∀ octet ∈ line, octet = 13

theorem carries_kept (last : Octets) :
    Carries limit (if limit < last.length then [] else last) last := by
  by_cases hlong : limit < last.length
  · rw [if_pos hlong]
    exact .inr ⟨nil_suffix, hlong⟩
  · rw [if_neg hlong]
    exact .inl rfl

theorem Carries.append {limit : Nat} {buf last : Octets} (hcarr : Carries limit buf last)
    (chunk : Octets) :
    Carries limit (if limit < (buf ++ chunk).length then [] else buf ++ chunk) (last ++ chunk) := by
  rcases hcarr with rfl | ⟨⟨front, rfl⟩, hlong⟩
  · exact carries_kept limit _
  · have hlonger : limit < (front ++ buf ++ chunk).length := by
      rw [length_append]
      omega
    split
    · exact .inr ⟨nil_suffix, hlonger⟩
    · exact .inr ⟨⟨front, by simp⟩, hlonger⟩

theorem texts_eq_map (lines : List Octets) :
    texts lines = (lines.filter fun line => lineText (line ++ [10]) ≠ []).map
      fun line => lineText (line ++ [10]) := by
  rw [texts, filter_map]
  rfl

theorem texts_filter_iff {limit : Nat} {lines : List Octets} (hls : ∀ line ∈ lines, 10 ∉ line) :
    texts (lines.filter (·.length ≤ limit)) = texts lines ↔ LinesFit limit lines := by
  have hcommute : (lines.filter (·.length ≤ limit)).filter
        (fun line => lineText (line ++ [10]) ≠ []) =
      (lines.filter fun line => lineText (line ++ [10]) ≠ []).filter (·.length ≤ limit) := by
    rw [filter_filter, filter_filter]
    exact filter_congr fun line _ => Bool.and_comm _ _
  have hfit : LinesFit limit lines ↔
      ∀ line ∈ lines.filter (fun line => lineText (line ++ [10]) ≠ []), line.length ≤ limit := by
    constructor
    · intro hfit line hline
      obtain ⟨hmem, htext⟩ := mem_filter.mp hline
      rcases hfit line hmem with hsho | hemp
      · exact hsho
      · rw [← lineText_line_eq_nil (hls line hmem)] at hemp
        simp [hemp] at htext
    · intro hall line hmem
      by_cases htext : lineText (line ++ [10]) = []
      · exact .inr ((lineText_line_eq_nil (hls line hmem)).mp htext)
      · exact .inl (hall line (mem_filter.mpr ⟨hmem, by simpa using htext⟩))
  rw [texts_eq_map, texts_eq_map, hcommute, hfit]
  constructor
  · intro hs
    have hlen := congrArg length hs
    rw [length_map, length_map, length_filter_eq_length_iff] at hlen
    simpa using hlen
  · intro hall
    rw [filter_eq_self.mpr (by simpa using hall)]

theorem texts_cut_of_carries {limit : Nat} (hlast : 10 ∉ last) (hcarr : Carries limit buf last)
    {chunk : Octets} (hfit : LinesFit limit (cut 10 (last ++ chunk)).1) :
    texts (cut 10 (buf ++ chunk)).1 = texts (cut 10 (last ++ chunk)).1 ∧
      Carries limit
        (if limit < (cut 10 (buf ++ chunk)).2.length then [] else (cut 10 (buf ++ chunk)).2)
        (cut 10 (last ++ chunk)).2 := by
  have hbuf : 10 ∉ buf := by
    rcases hcarr with rfl | ⟨hsuf, -⟩
    · exact hlast
    · exact fun hmem => hlast (hsuf.mem hmem)
  rcases first_line 10 chunk with hnone | ⟨line, rest, rfl, hline⟩
  · rw [cut_of_not_mem (by simp [hbuf, hnone]), cut_of_not_mem (by simp [hlast, hnone])]
    exact ⟨rfl, hcarr.append chunk⟩
  · have hbufLine : 10 ∉ buf ++ line := by simp [hbuf, hline]
    have hlastLine : 10 ∉ last ++ line := by simp [hlast, hline]
    rw [← append_assoc, ← append_assoc, cut_line hbufLine, cut_line hlastLine]
    rw [← append_assoc, cut_line hlastLine] at hfit
    refine ⟨?_, carries_kept limit _⟩
    rw [texts_cons, texts_cons]
    rcases hcarr with rfl | ⟨⟨front, rfl⟩, hlong⟩
    · rfl
    · -- the line was over the limit, so it and its end have no text
      have hemp : ∀ octet ∈ front ++ buf ++ line, octet = 13 := by
        rcases hfit _ mem_cons_self with hsho | hemp
        · rw [length_append] at hsho
          omega
        · exact hemp
      have hend : ∀ octet ∈ buf ++ line, octet = 13 := by
        intro octet hoctet
        apply hemp
        rw [append_assoc]
        exact mem_append_right _ hoctet
      rw [(lineText_line_eq_nil hbufLine).mpr hend, (lineText_line_eq_nil hlastLine).mpr hemp]

theorem framedReads_of_linesFit {limit : Nat} (hlast : 10 ∉ last)
    (hcarr : Carries limit buf last) (chunks : List Octets)
    (hfit : LinesFit limit (cut 10 (last ++ chunks.flatten)).1) :
    (framedReads limit buf chunks).2 = texts (cut 10 (last ++ chunks.flatten)).1 := by
  induction chunks generalizing buf last with
  | nil =>
    rw [flatten_nil, append_nil, cut_of_not_mem hlast]
    rfl
  | cons chunk chunks ih =>
    rw [flatten_cons, ← append_assoc, cut_append] at hfit ⊢
    have hfst : LinesFit limit (cut 10 (last ++ chunk)).1 :=
      fun line hline => hfit line (mem_append_left _ hline)
    obtain ⟨htexts, hnext⟩ := texts_cut_of_carries hlast hcarr hfst
    have hrest := ih (not_mem_cut 10 _).2 hnext
      fun line hline => hfit line (mem_append_right _ hline)
    simp only [framedReads, frameLines_eq, nil_append]
    rw [texts_append, htexts, hrest]

theorem framedReads_at_once (stream : Octets) :
    (framedReads limit [] [stream]).2 = texts (cut 10 stream).1 := by
  simp [framedReads, frameLines_eq]

/-! ## The reactor and the TLS thread -/

def CoreEvent.text? : CoreEvent → Option Str
  | .line text => some text
  | _ => none

def delivered (events : List CoreEvent) : List Str := events.filterMap CoreEvent.text?

theorem delivered_append (front back : List CoreEvent) :
    delivered (front ++ back) = delivered front ++ delivered back :=
  filterMap_append

theorem delivered_line : delivered (lines.map .line) = lines := by
  rw [delivered, filterMap_map]
  exact filterMap_some

theorem delivered_tlsConn (maxLine : Nat) (acc : Octets) (chunks : List Octets) :
    delivered (tlsConn maxLine acc chunks) = (framedReads maxLine acc chunks).2 := by
  induction chunks generalizing acc with
  | nil => rfl
  | cons chunk chunks ih =>
    have hreport (tooLong : Bool) :
        delivered (if tooLong = true then [CoreEvent.lineTooLong] else []) = [] := by
      cases tooLong <;> rfl
    simp only [tlsConn, framedReads, delivered_append, delivered_line, hreport, ih, append_nil]

def Turn.Quiet (turn : Turn) : Prop := delivered turn.sent = [] ∧ turn.close = false

theorem frame_quiet {conn : Conn} {turn : Turn} (hq : turn.Quiet) :
    (conn.frame turn).2.Quiet := by
  refine ⟨?_, hq.2⟩
  simp only [Conn.frame]
  split
  · rw [delivered_append, hq.1]
    rfl
  · exact hq.1

theorem frameLines_lines (buf : Octets) (lines : List Str) :
    (frameLines limit buf lines).lines = lines ++ (frameLines limit buf []).lines ∧
      (frameLines limit buf lines).buf = (frameLines limit buf []).buf := by
  simp [frameLines_eq]

variable {parseIp : Str → Option Octets}

theorem reads_eq_framedReads {conn : Conn} (hpl : conn.proxyPending = false) {turn : Turn}
    (hq : turn.Quiet) (chunks : List Octets) :
    (conn.reads parseIp turn chunks).1 =
        { conn with rbuf := (framedReads conn.recvq conn.rbuf chunks).1 } ∧
      (conn.reads parseIp turn chunks).2.lines =
        turn.lines ++ (framedReads conn.recvq conn.rbuf chunks).2 ∧
      (conn.reads parseIp turn chunks).2.connect = turn.connect ∧
      (conn.reads parseIp turn chunks).2.Quiet := by
  induction chunks generalizing conn turn with
  | nil => simp [Conn.reads, framedReads, hq]
  | cons chunk chunks ih =>
    have hread : conn.read parseIp turn chunk =
        Conn.frame { conn with rbuf := conn.rbuf ++ chunk } turn := by
      simp [Conn.read, hpl]
    have hnext : ((Conn.frame { conn with rbuf := conn.rbuf ++ chunk } turn).2).Quiet :=
      frame_quiet hq
    have hpl' : ((Conn.frame { conn with rbuf := conn.rbuf ++ chunk } turn).1).proxyPending =
        false := hpl
    obtain ⟨hconn, hls, hconnect, hrest⟩ := ih hpl' hnext
    have hgoes : ¬ (Conn.frame { conn with rbuf := conn.rbuf ++ chunk } turn).2.close = true := by
      simp [hnext.2]
    obtain ⟨hfrd, hbuf⟩ := frameLines_lines conn.recvq (conn.rbuf ++ chunk) turn.lines
    simp only [Conn.reads, hread, if_neg hgoes]
    refine ⟨?_, ?_, hconnect, hrest⟩
    · rw [hconn]
      simp only [Conn.frame, framedReads, hbuf]
    · rw [hls]
      simp only [Conn.frame, framedReads, hfrd, hbuf, append_assoc]

theorem delivered_run {conn : Conn} (hpl : conn.proxyPending = false)
    (turns : List (List Octets)) :
    delivered (conn.run parseIp (turns.map (·, false))).2 =
      (framedReads conn.recvq conn.rbuf turns.flatten).2 := by
  induction turns generalizing conn with
  | nil => rfl
  | cons chunks turns ih =>
    have hsta : ({} : Turn).Quiet := ⟨rfl, rfl⟩
    obtain ⟨hconn, hls, hconnect, hq⟩ :=
      @reads_eq_framedReads parseIp conn hpl {} hsta chunks
    have hread : conn.readConn parseIp chunks false =
        (some { conn with rbuf := (framedReads conn.recvq conn.rbuf chunks).1 },
          (conn.reads parseIp {} chunks).2.sent ++
            ((framedReads conn.recvq conn.rbuf chunks).2).map .line) := by
      simp only [Conn.readConn, hconn, hls, hconnect, hq.2]
      simp
    rw [map_cons, Conn.run, hread]
    simp only [delivered_append, delivered_line, hq.1, nil_append, flatten_cons,
      framedReads_append]
    congr 1
    exact @ih { conn with rbuf := (framedReads conn.recvq conn.rbuf chunks).1 } hpl

theorem framing_of_linesFit {limit : Nat} {stream : Octets}
    (hfit : LinesFit limit (cut 10 stream).1) {chunks : List Octets}
    (hchk : chunks.flatten = stream) :
    (framedReads limit [] chunks).2 = texts (fitting limit stream) := by
  have hls := (texts_filter_iff (not_mem_cut 10 stream).1).mpr hfit
  rw [fitting, hls, ← hchk]
  exact framedReads_of_linesFit (by simp) (.inl rfl) chunks (by simpa [hchk] using hfit)

/-! ## Links -/

theorem readLine_line {maxLine : Nat} (hline : 10 ∉ line) (hfits : line.length < maxLine)
    (rest : Octets) : readLine maxLine (line ++ 10 :: rest) = line ++ [10] := by
  have hfind : (line ++ 10 :: rest).findIdx (· = 10) = line.length := by
    rw [findIdx_eq_getD_findIdx?, findIdx?_line hline, Option.getD_some]
  have hspl : line ++ 10 :: rest = (line ++ [10]) ++ rest := by simp
  rw [readLine, hfind, hspl, take_left' (by simp), take_of_length_le (by simp; omega)]

theorem delivered_readerLoop {maxLine : Nat} (lines : List Octets)
    (hls : ∀ line ∈ lines, 10 ∉ line ∧ line.length < maxLine ∧
      (fromUtf8 (line ++ [10])).isSome = true) {fuel : Nat} (hfuel : lines.length ≤ fuel) :
    delivered (readerLoop maxLine fuel (lines.flatMap (· ++ [10]))) = texts lines := by
  induction lines generalizing fuel with
  | nil =>
    cases fuel with
    | zero => rfl
    | succ fuel => simp [readerLoop, readLine, fromUtf8, decode, decodeFuel, delivered, texts,
        CoreEvent.text?]
  | cons line lines ih =>
    obtain ⟨fuel, rfl⟩ : ∃ smaller, fuel = smaller + 1 :=
      ⟨fuel - 1, by rw [length_cons] at hfuel; omega⟩
    obtain ⟨⟨hline, hfits, hval⟩, hrest⟩ := forall_mem_cons.mp hls
    have hread : readLine maxLine ((line :: lines).flatMap (· ++ [10])) = line ++ [10] := by
      rw [flatMap_cons, append_assoc, singleton_append]
      exact readLine_line hline hfits _
    have hdrop : ((line :: lines).flatMap (· ++ [10])).drop (line ++ [10]).length =
        lines.flatMap (· ++ [10]) := by
      rw [flatMap_cons, drop_left]
    have hnext := ih hrest (Nat.le_of_succ_le_succ hfuel)
    have hsho : ¬ maxLine < (line ++ [10]).length := by
      rw [length_append, length_singleton]
      omega
    obtain ⟨text, htext⟩ := Option.isSome_iff_exists.mp hval
    rw [readerLoop, hread]
    simp only [htext, hdrop]
    rw [if_neg (by simp), if_neg hsho, texts_cons]
    split
    · exact hnext
    · rw [singleton_append, ← hnext]
      rfl

/-! ## Every way of reading -/

/-- Reads leave no trace in the lines, for a client of the reactor and in the TLS thread, exactly
if lines over the limit have no text; a link gets the lines of a stream if they fit with their
newlines and are text. -/
theorem framing_iff (parseIp : Str → Option Octets) (addr : SocketAddr) (maxLine maxSendq : Nat)
    (stream : Octets) :
    ((∀ turns : List (List Octets), turns.flatten.flatten = stream →
        delivered ((Conn.accept addr maxLine maxSendq false).run parseIp
            (turns.map (·, false))).2 = texts (fitting maxLine stream) ∧
          delivered (tlsConn maxLine [] turns.flatten) = texts (fitting maxLine stream)) ↔
      ∀ line ∈ (cut 10 stream).1, line.length ≤ maxLine ∨ ∀ octet ∈ line, octet = 13) ∧
    ∀ lines, stream = unlines 10 lines →
      (∀ line ∈ lines, 10 ∉ line ∧ line.length < maxLine ∧
        (fromUtf8 (line ++ [10])).isSome = true) →
      ∀ fuel, lines.length ≤ fuel →
        delivered (readerLoop maxLine fuel stream) = texts (fitting maxLine stream) := by
  have hreactor := fun turns =>
    @delivered_run parseIp (Conn.accept addr maxLine maxSendq false) rfl turns
  refine ⟨⟨?_, ?_⟩, ?_⟩
  · intro hall
    have hread := (hall [[stream]] (by simp)).2
    rw [delivered_tlsConn, flatten_singleton, framedReads_at_once] at hread
    exact (texts_filter_iff (not_mem_cut 10 stream).1).mp hread.symm
  · intro hfit turns hturns
    have hfrd := framing_of_linesFit hfit hturns
    exact ⟨(hreactor turns).trans hfrd, (delivered_tlsConn _ _ _).trans hfrd⟩
  · rintro lines rfl hls fuel hfuel
    have hall : fitting maxLine (unlines 10 lines) = lines := by
      rw [fitting, cut_unlines fun line hline => (hls line hline).1, filter_eq_self]
      exact fun line hline => decide_eq_true (hls line hline).2.1.le
    rw [hall]
    exact delivered_readerLoop lines hls hfuel

theorem tail_delivered :
    fitting 3 [97, 98, 99, 100, 101, 10] = [] ∧
      delivered ((Conn.accept ⟨[], 0⟩ 3 100 false).run (fun _ => none)
        [([[97, 98, 99, 100, 101, 10]], false)]).2 = ["abcde".toList] ∧
      delivered ((Conn.accept ⟨[], 0⟩ 3 100 false).run (fun _ => none)
        [([[97, 98, 99, 100], [101, 10]], false)]).2 = ["e".toList] := by
  decide +kernel

example : delivered (readerLoop 3 9 [97, 98, 99, 100, 101, 10]) = ["e".toList] := by
  decide +kernel

end EchoIrcd
