import EchoIrcd.Lib.Utf8

/-!
# Names in DNS messages

A name is a row of labels, each with its length in front, up to a zero octet or
a pointer to another place of the message (`resolver.rs`).  `skipName` passes
over one and `readName` decodes it.  Both return where the name ends, and
`readName` gives the end of the first label.
-/

namespace EchoIrcd.Dns

open Str List Octets

variable {msg : Octets} {jumps pos fin : Nat} {out name : Str} {after : Option Nat}

def encodeLabel (label : Str) : Octets :=
  let bytes := (utf8 label).take 63
  UInt8.ofNat bytes.length :: bytes

def encodeName (name : Str) : Octets :=
  ((name.splitOn '.').filter (· ≠ [])).flatMap encodeLabel ++ [0]

def skipName (msg : Octets) (pos : Nat) : Option Nat :=
  match msg[pos]? with
  | none => none
  | some len =>
    if len &&& 0xc0 = 0xc0 then some (pos + 2)
    else if len = 0 then some (pos + 1)
    else if msg.length < pos + (1 + len.toNat) then none
    else skipName msg (pos + (1 + len.toNat))
termination_by msg.length - pos

def dotted (out piece : Str) : Str := if out = [] then piece else out ++ '.' :: piece

/-- The loop of `read_name`; a pointer starts it again with one more jump. -/
def readLabels (msg : Octets) (jumps pos : Nat) (out : Str) (after : Option Nat) :
    Option (Str × Nat) :=
  match msg[pos]? with
  | none => none
  | some len =>
    if len &&& 0xc0 = 0xc0 then
      msg[pos + 1]?.bind fun low =>
        if 32 < jumps + 1 then none
        else (readLabels msg (jumps + 1) ((len.toNat &&& 0x3f) <<< 8 ||| low.toNat) [] none).map
          fun (rest, _) => (if rest = [] then out else dotted out rest, after.getD (pos + 2))
    else if len = 0 then some (out, after.getD (pos + 1))
    else
      let stop := pos + 1 + len.toNat
      if msg.length < stop then none
      else readLabels msg jumps stop
        (dotted out (fromUtf8Lossy ((msg.drop (pos + 1)).take len.toNat))) (some (after.getD stop))
termination_by (33 - jumps, msg.length - pos)

def readName (msg : Octets) (pos jumps : Nat) : Option (Str × Nat) :=
  if 32 < jumps then none else readLabels msg jumps pos [] none

/-! ## Reading an encoded name -/

structure Label (label : Str) : Prop where
  ne_nil : label ≠ []
  dotless : '.' ∉ label
  length_le : (utf8 label).length ≤ 63

variable {labels : List Str} {label : Str} (before behind : Octets)

theorem length_octet : ∀ length : Fin 64, 0 < length.val →
    UInt8.ofNat length &&& 0xc0 ≠ 0xc0 ∧ UInt8.ofNat length ≠ 0 := by
  decide

theorem encodeName_intercalate (hlbs : ∀ label ∈ labels, Label label) :
    encodeName (intercalate ['.'] labels) = labels.flatMap encodeLabel ++ [0] := by
  by_cases hnil : labels = []
  · subst hnil
    rfl
  · rw [encodeName, splitOn_intercalate '.' (fun label hmem => (hlbs label hmem).dotless) hnil,
      filter_eq_self.mpr fun label hmem => by simpa using (hlbs label hmem).ne_nil]

theorem readLabels_zero : readLabels (before ++ 0 :: behind) jumps before.length out after =
    some (out, after.getD (before.length + 1)) := by
  simp [readLabels]

theorem readLabels_label (hlabel : Label label) :
    readLabels (before ++ (encodeLabel label ++ behind)) jumps before.length out after =
    readLabels (before ++ encodeLabel label ++ behind) jumps (before ++ encodeLabel label).length
      (dotted out label) (some (after.getD (before ++ encodeLabel label).length)) := by
  have hln := hlabel.length_le
  have hpos : 0 < (utf8 label).length := by
    rw [length_pos_iff]
    intro hnil
    apply hlabel.ne_nil
    rw [← fromUtf8Lossy_utf8 label, hnil]
    rfl
  obtain ⟨hptr, hzero⟩ := length_octet ⟨(utf8 label).length, by omega⟩ hpos
  have hbytes : encodeLabel label = UInt8.ofNat (utf8 label).length :: utf8 label := by
    rw [encodeLabel, take_of_length_le hln]
  have htoNat : (UInt8.ofNat (utf8 label).length).toNat = (utf8 label).length := by
    rw [UInt8.toNat_ofNat']
    omega
  have hdrop : (before ++ (encodeLabel label ++ behind)).drop (before.length + 1) =
      utf8 label ++ behind := by
    simp [hbytes, drop_append]
  rw [readLabels, hdrop, hbytes]
  simp [hptr, hzero, htoNat, fromUtf8Lossy_utf8]
  rw [if_neg (by omega), Nat.add_right_comm, Nat.add_assoc]

theorem readLabels_rest (hlbs : ∀ label ∈ labels, Label label) (hout : out ≠ []) (mark : Nat) :
    readLabels (before ++ (labels.flatMap encodeLabel ++ 0 :: behind)) jumps before.length out
      (some mark) = some (intercalate ['.'] (out :: labels), mark) := by
  induction labels generalizing before out with
  | nil => simp [readLabels_zero]
  | cons label labels ih =>
    obtain ⟨hlabel, hlbs⟩ := forall_mem_cons.mp hlbs
    have hdotted : dotted out label = out ++ '.' :: label := if_neg hout
    rw [flatMap_cons, append_assoc, readLabels_label _ _ hlabel, append_assoc, ← append_assoc before,
      Option.getD_some, ih _ hlbs (by simp [hdotted]), hdotted]
    cases labels <;> simp [intercalate_cons_cons]

/-- Only the end of the root name is the end of its encoding. -/
theorem readName_encodeName_iff (hlbs : ∀ label ∈ labels, Label label) : ∃ fin,
    readName (before ++ encodeName (intercalate ['.'] labels) ++ behind) before.length 0 =
        some (intercalate ['.'] labels, fin) ∧
      (fin = before.length + (encodeName (intercalate ['.'] labels)).length ↔ labels = []) := by
  rw [encodeName_intercalate hlbs, append_assoc, append_assoc]
  cases labels with
  | nil => exact ⟨before.length + 1, readLabels_zero _ _, by simp⟩
  | cons label labels =>
    obtain ⟨hlabel, hlbs⟩ := forall_mem_cons.mp hlbs
    refine ⟨(before ++ encodeLabel label).length, ?_, iff_of_false ?_ (cons_ne_nil _ _)⟩
    · rw [readName, if_neg (by omega), flatMap_cons, append_assoc, readLabels_label _ _ hlabel,
        append_assoc, ← append_assoc before]
      exact readLabels_rest _ _ hlbs hlabel.ne_nil _
    · simp

theorem label_single : Label "a".toList := ⟨by decide, by decide, by decide⟩

theorem readName_encodeName_iff_single : ∃ fin,
    readName (encodeName "a".toList) 0 0 = some ("a".toList, fin) ∧ fin ≠ 3 := by
  obtain ⟨fin, hread, hfin⟩ :=
    readName_encodeName_iff [] [] (forall_mem_singleton.mpr label_single)
  exact ⟨fin, hread, fun hthree => absurd (hfin.mp hthree) (cons_ne_nil _ _)⟩

theorem readName_single : readName [1, 0x61, 0] 0 0 = some ("a".toList, 2) :=
  (readLabels_label [] [0] label_single).trans (readLabels_zero [1, 0x61] [])

theorem readName_encodeName_short :
    readName (encodeName "a".toList) 0 0 = some ("a".toList, 2) ∧
      (encodeName "a".toList).length = 3 :=
  ⟨readName_single, by decide⟩

/-! ## Where a name ends -/

/-- The name has no label of its own: it is the root or a pointer. -/
def Unlabelled (msg : Octets) (pos : Nat) : Prop :=
  ∃ len ∈ msg[pos]?, len &&& 0xc0 = 0xc0 ∨ len = 0

theorem end_of_readLabels (hread : readLabels msg jumps pos out after = some (name, fin)) :
    ∃ stop mark, skipName msg pos = some stop ∧ pos < stop ∧ fin = after.getD mark ∧
      (stop = mark ↔ Unlabelled msg pos) := by
  fun_induction readLabels msg jumps pos out after with
  | case1 => simp at hread
  | case2 jumps pos out after len hlen hptr =>
    have hskip : skipName msg pos = some (pos + 2) := by
      rw [skipName, hlen]
      exact if_pos hptr
    refine ⟨pos + 2, pos + 2, hskip, by omega, ?_, iff_of_true rfl ⟨len, hlen, .inl hptr⟩⟩
    obtain ⟨low, -, hrest⟩ := Option.bind_eq_some_iff.mp hread
    split at hrest
    · simp at hrest
    · obtain ⟨rest, -, hrest⟩ := Option.map_eq_some_iff.mp hrest
      exact (congrArg Prod.snd hrest).symm
  | case3 jumps pos out after hlen =>
    have hskip : skipName msg pos = some (pos + 1) := by
      rw [skipName, hlen]
      rfl
    refine ⟨pos + 1, pos + 1, hskip, by omega, ?_, iff_of_true rfl ⟨0, hlen, .inr rfl⟩⟩
    exact (congrArg Prod.snd (Option.some.inj hread)).symm
  | case4 => simp at hread
  | case5 jumps pos out after len hlen hptr hzero next hnext ih =>
    obtain ⟨stop, mark, hskip, hlt, hfin, -⟩ := ih hread
    have hskip' : skipName msg pos = some stop := by
      rw [skipName, hlen]
      simp [hptr, hzero, ← Nat.add_assoc]
      exact ⟨by omega, hskip⟩
    refine ⟨stop, next, hskip', by omega, hfin, iff_of_false (by omega) ?_⟩
    rintro ⟨_, hs, hbare⟩
    cases hlen.symm.trans hs
    exact hbare.elim hptr hzero

/-- Skipping a name that can be read succeeds, and both agree on its end if it has no label. -/
theorem skipName_iff (hread : readName msg pos jumps = some (name, fin)) :
    ∃ stop, skipName msg pos = some stop ∧ (stop = fin ↔ Unlabelled msg pos) := by
  unfold readName at hread
  split at hread
  · simp at hread
  · obtain ⟨stop, mark, hskip, -, rfl, hagree⟩ := end_of_readLabels hread
    exact ⟨stop, hskip, hagree⟩

/-- A pointer back to a labelled name. -/
theorem skipName_iff_pointer : readName [1, 0x61, 0, 0xc0, 0] 3 0 = some ("a".toList, 5) ∧
    skipName [1, 0x61, 0, 0xc0, 0] 3 = some 5 := by
  have hname : readLabels [1, 0x61, 0, 0xc0, 0] 1 0 [] none = some ("a".toList, 2) :=
    (readLabels_label [] [0, 0xc0, 0] label_single).trans (readLabels_zero [1, 0x61] [0xc0, 0])
  have hread : readName [1, 0x61, 0, 0xc0, 0] 3 0 = some ("a".toList, 5) := by
    rw [readName, if_neg (by decide), readLabels]
    exact congrArg (Option.map _) hname
  obtain ⟨stop, hskip, hstop⟩ := skipName_iff hread
  rw [hskip, hstop.mpr ⟨0xc0, rfl, .inl rfl⟩]
  exact ⟨hread, rfl⟩

theorem skipName_past_readName : readName [1, 0x61, 0] 0 0 = some ("a".toList, 2) ∧
    skipName [1, 0x61, 0] 0 = some 3 :=
  ⟨readName_single, by decide +kernel⟩

end EchoIrcd.Dns
