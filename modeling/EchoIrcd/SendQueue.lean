import EchoIrcd.Reactor

/-!
# The send queue

What a socket was given, against what the core queued for it.  A line over
`hardsendq` throws away everything that is queued, a half-sent line included,
and marks the connection for closing; but the lines that follow it in the same
batch find an empty queue and are sent behind the half line.
-/

namespace EchoIrcd

open List

variable {conn : Conn} {sending : Sending}

def wireLines (lines : List Octets) : Octets := lines.flatMap (· ++ [13, 10])

structure Sending where
  conn : Option Conn
  queued : List Octets := []
  written : Octets := []
  /-- a line did not fit, and the queue was thrown away -/
  dropped : Bool := false
  deriving DecidableEq, Repr

def Conn.Overflows (conn : Conn) (line : Octets) : Prop :=
  conn.hardsendq < conn.pending + line.length + 2

instance (conn : Conn) (line : Octets) : Decidable (conn.Overflows line) :=
  inferInstanceAs (Decidable (_ < _))

namespace Sending

def queue (sending : Sending) (out : ReactorOut) : Sending :=
  match sending.conn with
  | none => sending
  | some conn =>
    match out with
    | .line line =>
      { sending with
        conn := some (conn.queue out)
        queued := sending.queued ++ [line]
        dropped := sending.dropped || conn.Overflows line }
    | _ => { sending with conn := some (conn.queue out) }

def flush (sending : Sending) (socket : SocketTurn) : Sending :=
  match sending.conn with
  | none => sending
  | some conn =>
    { sending with
      conn := conn.flush socket
      written := sending.written ++ conn.written socket }

end Sending

def ReactorOut.touches : ReactorOut → Bool
  | .limits _ _ _ => false
  | _ => true

/-- What happens to the writing half: the messages of one wakeup, a socket that can be written
to, or the end of the connection. -/
inductive SendStep where
  | batch (outs : List ReactorOut) (socket : SocketTurn)
  | writable (socket : SocketTurn)
  | gone
  deriving DecidableEq, Repr

namespace Sending

def step (sending : Sending) : SendStep → Sending
  | .batch outs socket =>
    let queued := outs.foldl queue sending
    if outs.any ReactorOut.touches then queued.flush socket else queued
  | .writable socket => sending.flush socket
  | .gone => { sending with conn := none }

def run (start : Sending) (steps : List SendStep) : Sending := steps.foldl step start

/-! ## No line behind a dropped one -/

/-- Once a line was dropped, only lines that do not fit either are queued. -/
def Orderly (sending : Sending) : List ReactorOut → Prop
  | [] => True
  | out :: outs =>
    (sending.dropped = true → ∀ conn line, sending.conn = some conn → out = .line line →
      conn.Overflows line) ∧ (sending.queue out).Orderly outs

def OrderlyStep (sending : Sending) : SendStep → Prop
  | .batch outs _ => sending.Orderly outs
  | _ => True

inductive OrderlyRun (start : Sending) : Sending → Prop
  | start : OrderlyRun start start
  | step {sending : Sending} (next : SendStep) :
      OrderlyRun start sending → sending.OrderlyStep next → OrderlyRun start (sending.step next)

/-- Until a line is dropped, what was written and what is left to write are the lines. -/
def Whole (sending : Sending) : Prop :=
  sending.dropped = false → ∀ conn, sending.conn = some conn →
    sending.written ++ conn.wbuf.drop conn.wpos = wireLines sending.queued

/-- Behind a dropped line there is nothing left to write. -/
structure Kept (sending : Sending) : Prop where
  whole : sending.Whole
  begun : sending.written <+: wireLines sending.queued
  nothing : sending.dropped = true → ∀ conn, sending.conn = some conn → conn.wbuf = []

/-! ## One step -/

theorem queue_line (hconn : sending.conn = some conn) (line : Octets) :
    sending.queue (.line line) =
      { sending with
        conn := some (conn.queue (.line line))
        queued := sending.queued ++ [line]
        dropped := sending.dropped || conn.Overflows line } := by
  simp [queue, hconn]

theorem queue_none (hconn : sending.conn = none) (out : ReactorOut) :
    sending.queue out = sending := by
  simp [queue, hconn]

theorem wireLines_append (lines : List Octets) (line : Octets) :
    wireLines (lines ++ [line]) = wireLines lines ++ (line ++ [13, 10]) := by
  simp [wireLines]

/-- A limit and a request to close leave the buffer alone. -/
theorem queue_other (hconn : sending.conn = some conn) {out : ReactorOut}
    (ho : ∀ line, out ≠ .line line) : ∃ next : Conn, next.wbuf = conn.wbuf ∧
      next.wpos = conn.wpos ∧ sending.queue out = { sending with conn := some next } := by
  refine ⟨conn.queue out, ?_⟩
  cases out with
  | line line => exact absurd rfl (ho line)
  | close | limits => exact ⟨rfl, rfl, by simp [queue, hconn]⟩

theorem Whole.queue (hwhole : sending.Whole) (out : ReactorOut) : (sending.queue out).Whole := by
  cases hconn : sending.conn with
  | none => rwa [queue_none hconn]
  | some conn =>
    by_cases hline : ∃ line, out = .line line
    · obtain ⟨line, rfl⟩ := hline
      rw [queue_line hconn]
      intro hfst other ho
      cases ho
      obtain ⟨hbef, hover⟩ : sending.dropped = false ∧ ¬ conn.Overflows line := by
        simpa using hfst
      have hfits : ¬ conn.hardsendq < conn.pending + line.length + 2 := hover
      have hlonger : (conn.queue (.line line)).wbuf.drop (conn.queue (.line line)).wpos =
          conn.wbuf.drop conn.wpos ++ (line ++ [13, 10]) := by
        rw [Conn.queue, if_neg hfits]
        rfl
      rw [hlonger, wireLines_append, ← hwhole hbef conn hconn, append_assoc]
    · obtain ⟨next, hwbuf, hwpos, hque⟩ := queue_other hconn (not_exists.mp hline)
      rw [hque]
      intro hfst other ho
      cases ho
      rw [hwbuf, hwpos]
      exact hwhole hfst conn hconn

theorem Kept.queue (hkept : sending.Kept) {out : ReactorOut}
    (hord : sending.dropped = true → ∀ conn line, sending.conn = some conn →
      out = .line line → conn.Overflows line) : (sending.queue out).Kept := by
  have hwhole := hkept.whole.queue out
  cases hconn : sending.conn with
  | none => rwa [queue_none hconn]
  | some conn =>
    by_cases hline : ∃ line, out = .line line
    · obtain ⟨line, rfl⟩ := hline
      rw [queue_line hconn] at hwhole ⊢
      refine ⟨hwhole, ?_, ?_⟩
      · rw [wireLines_append]
        exact hkept.begun.trans (prefix_append _ _)
      · intro hdrop other ho
        cases ho
        have hover : conn.Overflows line := by
          rcases (Bool.or_eq_true ..).mp hdrop with hbef | hover
          · exact hord hbef conn line hconn rfl
          · exact of_decide_eq_true hover
        have hclosed : conn.queue (.line line) =
            { conn with wbuf := [], wpos := 0, closing := true } := if_pos hover
        rw [hclosed]
    · obtain ⟨next, hwbuf, -, hque⟩ := queue_other hconn (not_exists.mp hline)
      rw [hque] at hwhole ⊢
      refine ⟨hwhole, hkept.begun, ?_⟩
      intro hdrop other ho
      cases ho
      rw [hwbuf]
      exact hkept.nothing hdrop conn hconn

theorem written_advance (conn : Conn) (socket : SocketTurn) :
    conn.written socket ++ (conn.advance (conn.written socket).length).wbuf.drop
        (conn.advance (conn.written socket).length).wpos = conn.wbuf.drop conn.wpos := by
  have hini : conn.written socket <+: conn.wbuf.drop conn.wpos := take_prefix _ _
  unfold Conn.advance
  split
  · have hall : conn.written socket = conn.wbuf.drop conn.wpos := by
      apply hini.eq_of_length
      rw [length_drop]
      omega
    simp [hall]
  · rw [← drop_drop]
    exact prefix_iff_eq_append.mp hini

theorem wbuf_advance_of_nil (hemp : conn.wbuf = []) (count : Nat) :
    (conn.advance count).wbuf = [] := by
  unfold Conn.advance
  split
  · rfl
  · exact hemp

theorem flush_eq_some {next : Conn} {socket : SocketTurn} (hnext : conn.flush socket = some next) :
    next.wbuf = (conn.advance (conn.written socket).length).wbuf ∧
      next.wpos = (conn.advance (conn.written socket).length).wpos := by
  simp only [Conn.flush] at hnext
  split at hnext
  · cases hnext
  · cases hnext
    exact ⟨rfl, rfl⟩

theorem Whole.flush (hwhole : sending.Whole) (socket : SocketTurn) :
    (sending.flush socket).Whole := by
  unfold Sending.flush
  split
  · exact hwhole
  · rename_i conn hconn
    intro hfst next hnext
    obtain ⟨hwbuf, hwpos⟩ := flush_eq_some hnext
    simp only [hwbuf, hwpos, append_assoc, written_advance]
    exact hwhole hfst conn hconn

theorem Kept.flush (hkept : sending.Kept) (socket : SocketTurn) : (sending.flush socket).Kept := by
  have hwhole := hkept.whole.flush socket
  unfold Sending.flush at hwhole ⊢
  split
  · exact hkept
  · rename_i conn hconn
    rw [hconn] at hwhole
    refine ⟨hwhole, ?_, ?_⟩
    · cases hdrop : sending.dropped with
      | false =>
        rw [← hkept.whole hdrop conn hconn]
        exact (prefix_append_right_inj _).mpr <| take_prefix _ _
      | true =>
        have hno : conn.written socket = [] := by
          simp [Conn.written, hkept.nothing hdrop conn hconn]
        simpa [hno] using hkept.begun
    · intro hdrop next hnext
      rw [(flush_eq_some hnext).1]
      exact wbuf_advance_of_nil (hkept.nothing hdrop conn hconn) _

theorem Whole.step {sending : Sending} (hwhole : sending.Whole) (next : SendStep) :
    (sending.step next).Whole := by
  cases next with
  | batch outs socket =>
    have hque : (outs.foldl Sending.queue sending).Whole :=
      foldlRecOn outs _ hwhole fun _ hbef out _ => hbef.queue out
    simp only [Sending.step]
    split
    · exact hque.flush socket
    · exact hque
  | writable socket => exact hwhole.flush socket
  | gone =>
    intro _ conn hconn
    cases hconn

theorem Kept.batch {sending : Sending} (hkept : sending.Kept) {outs : List ReactorOut}
    (hord : sending.Orderly outs) : (outs.foldl Sending.queue sending).Kept := by
  induction outs generalizing sending with
  | nil => exact hkept
  | cons out outs ih => exact ih (hkept.queue hord.1) hord.2

theorem Kept.step {sending : Sending} (hkept : sending.Kept) {next : SendStep}
    (hord : sending.OrderlyStep next) : (sending.step next).Kept := by
  cases next with
  | batch outs socket =>
    have hque := hkept.batch hord
    simp only [Sending.step]
    split
    · exact hque.flush socket
    · exact hque
  | writable socket => exact hkept.flush socket
  | gone =>
    refine ⟨hkept.whole.step .gone, hkept.begun, ?_⟩
    intro _ conn hconn
    cases hconn

end Sending

def Sending.accept (addr : SocketAddr) (maxLine maxSendq : Nat) (viaProxy : Bool) : Sending :=
  { conn := some (Conn.accept addr maxLine maxSendq viaProxy) }

theorem Sending.whole_accept (addr : SocketAddr) (maxLine maxSendq : Nat) (viaProxy : Bool) :
    (Sending.accept addr maxLine maxSendq viaProxy).Whole := by
  intro _ conn hconn
  cases hconn
  rfl

theorem Sending.kept_accept (addr : SocketAddr) (maxLine maxSendq : Nat) (viaProxy : Bool) :
    (Sending.accept addr maxLine maxSendq viaProxy).Kept := by
  refine ⟨whole_accept _ _ _ _, nil_prefix, ?_⟩
  intro hdrop
  cases hdrop

theorem Sending.OrderlyRun.kept {start : Sending} (hsta : start.Kept)
    (hrun : start.OrderlyRun sending) : sending.Kept := by
  induction hrun with
  | start => exact hsta
  | step next _ hord ih => exact ih.step hord

/-- As long as no line that fits is queued behind one that did not, the socket gets the lines
in order. -/
theorem written_prefix (addr : SocketAddr) (maxLine maxSendq : Nat) (viaProxy : Bool)
    (sending : Sending)
    (hrun : (Sending.accept addr maxLine maxSendq viaProxy).OrderlyRun sending) :
    sending.written <+: wireLines sending.queued :=
  (hrun.kept (Sending.kept_accept addr maxLine maxSendq viaProxy)).begun

def tightQueue : Sending := Sending.accept ⟨[], 0⟩ 512 8 false

def halfSent : Sending := tightQueue.step (.batch [.line [97, 98, 99, 100]] ⟨3, false, false⟩)

theorem written_prefix_halfSent :
    tightQueue.OrderlyRun halfSent ∧ halfSent.written <+: wireLines halfSent.queued := by
  have hrun : tightQueue.OrderlyRun halfSent :=
    .step _ .start ⟨fun hdrop => absurd hdrop (by decide), trivial⟩
  exact ⟨hrun, written_prefix ⟨[], 0⟩ 512 8 false halfSent hrun⟩

/-- Until a line is dropped, the bytes written and those that wait are the queued lines. -/
theorem written_exactly (addr : SocketAddr) (maxLine maxSendq : Nat) (viaProxy : Bool)
    (steps : List SendStep)
    (hrun : (Sending.accept addr maxLine maxSendq viaProxy).run steps = sending)
    (hfst : sending.dropped = false) (hconn : sending.conn = some conn) :
    sending.written ++ conn.wbuf.drop conn.wpos = wireLines sending.queued := by
  have hwhole : sending.Whole := by
    rw [← hrun]
    exact foldlRecOn steps _ (Sending.whole_accept _ _ _ _) fun _ hbef next _ => hbef.step next
  exact hwhole hfst conn hconn

theorem written_exactly_halfSent :
    halfSent.written ++ ([100, 13, 10] : Octets) = wireLines halfSent.queued :=
  written_exactly ⟨[], 0⟩ 512 8 false [.batch [.line [97, 98, 99, 100]] ⟨3, false, false⟩] rfl rfl
    rfl

/-- A line that does not fit drops the rest of `abcd`, and the next one is sent behind `abc`. -/
def behindDropped : Sending :=
  halfSent.step (.batch [.line [101, 102, 103, 104, 105, 106], .line [107]] ⟨100, false, false⟩)

theorem written_behind_dropped :
    behindDropped.written = [97, 98, 99, 107, 13, 10] ∧
      ¬ behindDropped.written <+: wireLines behindDropped.queued := by
  decide

end EchoIrcd
