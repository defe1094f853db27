import EchoIrcd.Lib.Intake
import EchoIrcd.Lib.Octets

/-!
# WebSocket frames

The frame parser and the read loop of `websocket.rs`.  The loop keeps the bytes
it has not parsed, takes frame after frame off their front, answers pings, puts
fragmented messages together and hands the lines of a complete one to the core.
-/

namespace EchoIrcd

open Intake List

variable {length used width : Nat} {input rest : Octets} {b0 : UInt8}

def maxFrame : Nat := 128 * 1024

def maxMsg : Nat := 256 * 1024

structure WsFrame where
  fin : Bool
  opcode : UInt8
  payload : Octets
  deriving DecidableEq, Repr

def applyMask (mask payload : Octets) : Octets :=
  payload.mapIdx fun index octet => octet ^^^ mask.getD (index % 4) 0

/-- The payload length of a frame and how many octets it takes behind the second. -/
def wsLength (len7 : Nat) (rest : Octets) : Option (Nat × Nat) :=
  if len7 = 126 then
    if rest.length < 2 then none else some (Octets.toNat (rest.take 2), 2)
  else if len7 = 127 then
    if rest.length < 8 then none else some (Octets.toNat (rest.take 8), 8)
  else some (len7, 0)

def parseFrameBody (b0 : UInt8) (rest : Octets) (payloadLen width : Nat) : Verdict WsFrame :=
  if maxFrame < payloadLen then .bad
  else if rest.length < width + 4 + payloadLen then .need
  else
    .item ⟨b0 &&& 0x80 ≠ 0, b0 &&& 0x0F,
      applyMask ((rest.drop width).take 4) ((rest.drop (width + 4)).take payloadLen)⟩
      (2 + width + 4 + payloadLen)

def parseFrame : Octets → Verdict WsFrame
  | b0 :: b1 :: rest =>
    if b1 &&& 0x80 = 0 then .bad
    else
      match wsLength (b1 &&& 0x7F).toNat rest with
      | none => .need
      | some (payloadLen, width) => parseFrameBody b0 rest payloadLen width
  | _ => .need

/-! ## The read loop -/

/-- What the loop keeps beside the unparsed bytes, and what it has done. -/
structure WsState where
  msg : Octets := []
  /-- lines handed to the core, and payloads of pongs -/
  lines : List Str := []
  pongs : List Octets := []
  deriving DecidableEq, Repr

def WsState.deliver (state : WsState) : WsState :=
  let pieces := ((Octets.fromUtf8Lossy state.msg).splitOn '\n').map (·.rdropWhile (· = '\r'))
  { state with
    msg := []
    lines := state.lines ++
      pieces.filter fun line => Str.byteLength line ≤ 16 * 1024 && line ≠ [] }

def WsState.frame (state : WsState) (frame : WsFrame) : Except WsState WsState :=
  if frame.opcode = 8 ∨ frame.opcode = 9 ∨ frame.opcode = 10 then
    if frame.fin = false ∨ 125 < frame.payload.length then .error state
    else if frame.opcode = 8 then .error state
    else if frame.opcode = 9 then .ok { state with pongs := state.pongs ++ [frame.payload] }
    else .ok state
  else if frame.opcode = 1 ∨ frame.opcode = 2 then
    let state := { state with msg := frame.payload }
    .ok (if frame.fin then state.deliver else state)
  else if frame.opcode = 0 then
    let state := { state with msg := state.msg ++ frame.payload }
    if maxMsg < state.msg.length then .error state
    else .ok (if frame.fin then state.deliver else state)
  else .error state

def wsIoLoop (chunks : List Octets) : Except WsState (Octets × WsState) :=
  reads parseFrame WsState.frame chunks ([], {})

def wsFrames (chunks : List Octets) : Except (List WsFrame) (Octets × List WsFrame) :=
  reads parseFrame (fun frames frame => .ok (frames ++ [frame])) chunks ([], [])

/-! ## Frames of a client -/

inductive LengthForm where
  | short
  | medium
  | long
  deriving DecidableEq, Repr

namespace LengthForm

def bound : LengthForm → Nat
  | .short => 126
  | .medium => 256 ^ 2
  | .long => 256 ^ 8

def len7 (length : Nat) : LengthForm → Nat
  | .short => length
  | .medium => 126
  | .long => 127

def octets (length : Nat) : LengthForm → Octets
  | .short => []
  | .medium => Octets.ofNat 2 length
  | .long => Octets.ofNat 8 length

end LengthForm

open LengthForm

/-- A masked frame, in one of the forms that its length allows. -/
structure ClientFrame where
  fin : Bool
  rsv : Fin 8
  opcode : Fin 16
  mask : Octets
  payload : Octets
  form : LengthForm
  mask_length : mask.length = 4
  fits : payload.length < form.bound
  capped : payload.length ≤ maxFrame

namespace ClientFrame

def first (fin : Bool) (rsv : Fin 8) (opcode : Fin 16) : UInt8 :=
  UInt8.ofNat ((if fin then 128 else 0) + rsv * 16 + opcode)

def header (frame : ClientFrame) : Octets :=
  [first frame.fin frame.rsv frame.opcode, UInt8.ofNat (128 + frame.form.len7 frame.payload.length)]

/-- Each octet is changed by the next one of the mask, which goes round. -/
def masked : Octets → Octets → Octets
  | key :: mask, octet :: payload => (octet ^^^ key) :: masked (mask ++ [key]) payload
  | _, _ => []

def wire (frame : ClientFrame) : Octets :=
  frame.header ++ (frame.form.octets frame.payload.length ++
    (frame.mask ++ masked frame.mask frame.payload))

def meaning (frame : ClientFrame) : WsFrame :=
  ⟨frame.fin, UInt8.ofNat frame.opcode, frame.payload⟩

end ClientFrame

open ClientFrame

/-! ## More bytes do not change a verdict -/

theorem wsLength_append {len7 : Nat} (hln : wsLength len7 rest = some (length, width))
    (more : Octets) :
    wsLength len7 (rest ++ more) = some (length, width) ∧ width ≤ rest.length := by
  unfold wsLength at hln ⊢
  split at hln
  · split at hln
    · cases hln
    · rename_i hlen hlong
      rw [if_pos hlen, if_neg (by simp; omega), take_append_of_le_length (by omega)]
      cases hln
      exact ⟨rfl, by omega⟩
  · split at hln
    · split at hln
      · cases hln
      · rename_i hlen hlen' hlong
        rw [if_neg hlen, if_pos hlen', if_neg (by simp; omega), take_append_of_le_length (by omega)]
        cases hln
        exact ⟨rfl, by omega⟩
    · rename_i hlen hlen'
      rw [if_neg hlen, if_neg hlen']
      cases hln
      exact ⟨rfl, by omega⟩

theorem parseFrameBody_item {frame : WsFrame}
    (hitem : parseFrameBody b0 rest length width = .item frame used) (more : Octets) :
    parseFrameBody b0 (rest ++ more) length width = .item frame used ∧ 0 < used ∧
      used ≤ rest.length + 2 := by
  unfold parseFrameBody at hitem ⊢
  split at hitem
  · cases hitem
  · split at hitem
    · cases hitem
    · rename_i hcap hlong
      rw [if_neg hcap, if_neg (by simp; omega), drop_append_of_le_length (by omega),
        drop_append_of_le_length (by omega), take_append_of_le_length (by simp; omega),
        take_append_of_le_length (by simp; omega)]
      cases hitem
      exact ⟨rfl, by omega, by omega⟩

theorem parseFrameBody_bad (hbad : parseFrameBody b0 rest length width = .bad)
    (more : Octets) : parseFrameBody b0 (rest ++ more) length width = .bad := by
  unfold parseFrameBody at hbad ⊢
  split at hbad
  · rename_i hcap
    rw [if_pos hcap]
  · split at hbad <;> cases hbad

theorem parseFrame_item {frame : WsFrame} (hitem : parseFrame input = .item frame used)
    (more : Octets) :
    parseFrame (input ++ more) = .item frame used ∧ 0 < used ∧ used ≤ input.length := by
  match input with
  | [] | [_] => cases hitem
  | b0 :: b1 :: rest =>
    simp only [parseFrame, cons_append] at hitem ⊢
    split at hitem
    · cases hitem
    · rename_i hmsk
      rw [if_neg hmsk]
      cases hln : wsLength (b1 &&& 0x7F).toNat rest with
      | none =>
        simp only [hln] at hitem
        cases hitem
      | some found =>
        simp only [hln] at hitem
        rw [(wsLength_append hln more).1]
        exact parseFrameBody_item hitem more

theorem parseFrame_bad (hbad : parseFrame input = .bad) (more : Octets) :
    parseFrame (input ++ more) = .bad := by
  match input with
  | [] | [_] => cases hbad
  | b0 :: b1 :: rest =>
    simp only [parseFrame, cons_append] at hbad ⊢
    split at hbad
    · rename_i hmsk
      rw [if_pos hmsk]
    · rename_i hmsk
      rw [if_neg hmsk]
      cases hln : wsLength (b1 &&& 0x7F).toNat rest with
      | none =>
        simp only [hln] at hbad
        cases hbad
      | some found =>
        simp only [hln] at hbad
        rw [(wsLength_append hln more).1]
        exact parseFrameBody_bad hbad more

theorem steady_parseFrame : Steady parseFrame where
  nil := rfl
  used_pos hitem := (parseFrame_item hitem []).2.1
  used_le hitem := (parseFrame_item hitem []).2.2
  item_append more hitem := (parseFrame_item hitem more).1
  bad_append more hbad := parseFrame_bad hbad more

/-! ## A frame that was sent -/

@[simp] theorem length_applyMask (mask payload : Octets) :
    (applyMask mask payload).length = payload.length := by
  simp [applyMask]

theorem applyMask_applyMask (mask payload : Octets) :
    applyMask mask (applyMask mask payload) = payload := by
  apply ext_getElem
  · simp
  · intro index _ _
    simp only [applyMask, getElem_mapIdx, UInt8.xor_assoc, UInt8.xor_self, UInt8.xor_zero]

namespace ClientFrame

theorem getD_rotate (key : UInt8) {mask : Octets} (hmask : mask.length = 3) (index : Nat) :
    (key :: mask).getD ((index + 1) % 4) 0 = (mask ++ [key]).getD (index % 4) 0 := by
  obtain ⟨first, second, third, rfl⟩ := length_eq_three.mp hmask
  have hplace : index % 4 = 0 ∨ index % 4 = 1 ∨ index % 4 = 2 ∨ index % 4 = 3 := by omega
  rcases hplace with hplace | hplace | hplace | hplace <;> simp [Nat.add_mod, hplace]

theorem masked_eq (mask payload : Octets) (hmask : mask.length = 4) :
    masked mask payload = applyMask mask payload := by
  induction payload generalizing mask with
  | nil => cases mask <;> rfl
  | cons octet payload ih =>
    cases mask with
    | nil => cases hmask
    | cons key mask =>
      have hlen : mask.length = 3 := Nat.succ.inj hmask
      rw [masked, ih _ (by simp [hlen]), applyMask, applyMask, mapIdx_cons]
      simp only [getD_rotate key hlen]
      rfl

theorem fin_first (fin : Bool) (rsv : Fin 8) (opcode : Fin 16) :
    decide (first fin rsv opcode &&& 0x80 ≠ 0) = fin := by
  decide +revert

theorem opcode_first (fin : Bool) (rsv : Fin 8) (opcode : Fin 16) :
    first fin rsv opcode &&& 0x0F = UInt8.ofNat opcode := by
  decide +revert

theorem masked_second (len7 : Fin 128) : UInt8.ofNat (128 + len7) &&& 0x80 ≠ 0 := by
  decide +revert

theorem len7_second (len7 : Fin 128) : (UInt8.ofNat (128 + len7) &&& 0x7F).toNat = len7 := by
  decide +revert

variable (frame : ClientFrame)

theorem len7_lt : frame.form.len7 frame.payload.length < 128 := by
  have hfits := frame.fits
  cases hform : frame.form <;> simp [len7, bound, hform] at hfits ⊢
  omega

theorem wsLength_form (rest : Octets) :
    wsLength (frame.form.len7 frame.payload.length)
        (frame.form.octets frame.payload.length ++ rest) =
      some (frame.payload.length, (frame.form.octets frame.payload.length).length) := by
  have hfits := frame.fits
  cases hform : frame.form with
  | short =>
    simp only [bound, hform] at hfits
    have hmedium : frame.payload.length ≠ 126 := by omega
    have hlong : frame.payload.length ≠ 127 := by omega
    simp [wsLength, len7, octets, hmedium, hlong]
  | medium | long =>
    simp only [bound, hform] at hfits
    simp only [wsLength, len7, octets, length_append,
      Octets.length_ofNat, take_left', Octets.toNat_ofNat hfits, Nat.reduceEqDiff, if_true,
      if_false]
    rw [if_neg (by omega)]

theorem parseFrameBody_wire (rest : Octets) :
    parseFrameBody (first frame.fin frame.rsv frame.opcode)
        (frame.form.octets frame.payload.length ++
          (frame.mask ++ masked frame.mask frame.payload) ++ rest)
        frame.payload.length (frame.form.octets frame.payload.length).length =
      .item frame.meaning frame.wire.length := by
  have hcapped := frame.capped
  have hmask := frame.mask_length
  have hused : frame.wire.length =
      2 + (frame.form.octets frame.payload.length).length + 4 + frame.payload.length := by
    simp [wire, header, hmask, masked_eq]
    omega
  rw [masked_eq _ _ hmask]
  generalize frame.form.octets frame.payload.length = octets at hused ⊢
  have hlong : ¬ (octets ++ (frame.mask ++ applyMask frame.mask frame.payload) ++ rest).length <
      octets.length + 4 + frame.payload.length := by
    simp [hmask]
    omega
  have htake : ((octets ++ (frame.mask ++ applyMask frame.mask frame.payload) ++ rest).drop
      octets.length).take 4 = frame.mask := by
    rw [append_assoc, drop_left, append_assoc, ← hmask, take_left]
  have hdrop : ((octets ++ (frame.mask ++ applyMask frame.mask frame.payload) ++ rest).drop
      (octets.length + 4)).take frame.payload.length = applyMask frame.mask frame.payload := by
    rw [← drop_drop, append_assoc, drop_left, append_assoc, ← hmask, drop_left]
    exact take_left' (length_applyMask _ _)
  rw [parseFrameBody, if_neg (by omega), if_neg hlong, htake, hdrop, applyMask_applyMask,
    fin_first, opcode_first, hused]
  rfl

theorem parseFrame_wire (rest : Octets) :
    parseFrame (frame.wire ++ rest) = .item frame.meaning frame.wire.length := by
  have hmsk := masked_second ⟨_, frame.len7_lt⟩
  have hlen7 := len7_second ⟨_, frame.len7_lt⟩
  rw [← frame.parseFrameBody_wire rest]
  simp only [wire, header, cons_append, nil_append, parseFrame]
  rw [if_neg hmsk, hlen7, append_assoc, frame.wsLength_form]

end ClientFrame

/-! ## Reads -/

theorem foldlM_collect (frames collected : List WsFrame) :
    frames.foldlM (fun collected frame => (.ok (collected ++ [frame]) :
      Except (List WsFrame) (List WsFrame))) collected = .ok (collected ++ frames) := by
  induction frames generalizing collected with
  | nil => simp [pure, Except.pure]
  | cons frame frames ih =>
    change foldlM _ (collected ++ [frame]) frames = _
    rw [ih, append_assoc, singleton_append]

theorem reads_wire {σ : Type} (handle : σ → WsFrame → Except σ σ) (state : σ)
    {frames : List ClientFrame} {chunks : List Octets}
    (hchk : chunks.flatten = frames.flatMap wire) :
    reads parseFrame handle chunks ([], state) =
      (fun final => ([], final)) <$> (frames.map meaning).foldlM handle state := by
  rw [reads_eq_drain steady_parseFrame chunks rfl, nil_append, hchk,
    drain_written steady_parseFrame parseFrame_wire]

/-- However the bytes of some frames are cut into reads, the frames come out and no byte stays;
the loop does what it does with the frames one by one. -/
theorem wsFrames_eq (frames : List ClientFrame) (chunks : List Octets)
    (hchk : chunks.flatten = frames.flatMap wire) :
    wsFrames chunks = .ok ([], frames.map meaning) ∧
      wsIoLoop chunks = (fun final => ([], final)) <$>
        (frames.map meaning).foldlM WsState.frame {} := by
  constructor
  · rw [wsFrames, reads_wire _ _ hchk, foldlM_collect]
    rfl
  · exact reads_wire _ _ hchk

def nickFrame : ClientFrame where
  fin := true
  rsv := 0
  opcode := 1
  mask := [1, 2, 3, 4]
  payload := [78, 73, 67, 75, 32, 98]
  form := .medium
  mask_length := rfl
  fits := by decide
  capped := by decide

theorem wsFrames_eq_nickFrame :
    [nickFrame.wire.take 3, nickFrame.wire.drop 3].flatten = [nickFrame].flatMap wire ∧
      (wsFrames [nickFrame.wire.take 3, nickFrame.wire.drop 3] = .ok ([], [nickFrame.meaning]) ∧
        wsIoLoop [nickFrame.wire.take 3, nickFrame.wire.drop 3] =
          (fun final => ([], final)) <$> [nickFrame.meaning].foldlM WsState.frame {}) :=
  ⟨by decide, wsFrames_eq [nickFrame] [nickFrame.wire.take 3, nickFrame.wire.drop 3] (by decide)⟩

example : [nickFrame.meaning].foldlM WsState.frame {} = .ok ⟨[], ["NICK b".toList], []⟩ := by
  decide +kernel

end EchoIrcd
