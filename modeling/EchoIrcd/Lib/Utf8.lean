import EchoIrcd.Lib.Octets

/-!
# Writing UTF-8

The octets of a text.  Decoding them gives the text again, and an octet below
128 stands for the character of that number.
-/

namespace Octets

open List

def ofChar (char : Char) : Octets :=
  let code := char.toNat
  if code < 0x80 then [UInt8.ofNat code]
  else if code < 0x800 then [UInt8.ofNat (0xC0 + code / 64), UInt8.ofNat (0x80 + code % 64)]
  else if code < 0x10000 then
    [UInt8.ofNat (0xE0 + code / 4096), UInt8.ofNat (0x80 + code / 64 % 64),
      UInt8.ofNat (0x80 + code % 64)]
  else
    [UInt8.ofNat (0xF0 + code / 262144), UInt8.ofNat (0x80 + code / 4096 % 64),
      UInt8.ofNat (0x80 + code / 64 % 64), UInt8.ofNat (0x80 + code % 64)]

def utf8 (text : Str) : Octets := text.flatMap ofChar

variable (char : Char) (text : Str) {first : UInt8}

@[simp] theorem utf8_cons : utf8 (char :: text) = ofChar char ++ utf8 text := rfl

@[simp] theorem utf8_append (front back : Str) : utf8 (front ++ back) = utf8 front ++ utf8 back :=
  flatMap_append

theorem length_ofChar : (ofChar char).length = char.utf8Size := by
  have hsize : char.utf8Size = if char.toNat ≤ 0x7F then 1 else if char.toNat ≤ 0x7FF then 2
      else if char.toNat ≤ 0xFFFF then 3 else 4 := rfl
  rw [hsize]
  unfold ofChar
  split
  · rw [if_pos (by omega)]
    rfl
  · split
    · rw [if_neg (by omega), if_pos (by omega)]
      rfl
    · split
      · rw [if_neg (by omega), if_neg (by omega), if_pos (by omega)]
        rfl
      · rw [if_neg (by omega), if_neg (by omega), if_neg (by omega)]
        rfl

theorem length_utf8 : (utf8 text).length = Str.byteLength text := by
  induction text with
  | nil => rfl
  | cons char text ih =>
    rw [utf8_cons, length_append, ih, length_ofChar]
    simp [Str.byteLength]

theorem code_bounds : char.toNat < 0xD800 ∨ 0xDFFF < char.toNat ∧ char.toNat < 0x110000 := by
  have hval := char.valid
  simpa [UInt32.isValidChar, Nat.isValidChar] using hval

theorem width_eq : width first = if first.toNat < 0x80 then 1 else if first.toNat < 0xC2 then 0
    else if first.toNat < 0xE0 then 2 else if first.toNat < 0xF0 then 3
    else if first.toNat < 0xF5 then 4 else 0 := by
  simp only [width, UInt8.lt_iff_toNat_lt, UInt8.reduceToNat]

theorem second_of_bounds {next : UInt8} (hlow : 0x80 ≤ next.toNat) (hhigh : next.toNat ≤ 0xBF)
    (hE0 : first.toNat = 0xE0 → 0xA0 ≤ next.toNat) (hED : first.toNat = 0xED → next.toNat ≤ 0x9F)
    (hF0 : first.toNat = 0xF0 → 0x90 ≤ next.toNat) (hF4 : first.toNat = 0xF4 → next.toNat ≤ 0x8F) :
    (second first).1 ≤ next ∧ next ≤ (second first).2 := by
  simp only [second, UInt8.le_iff_toNat_le, ← UInt8.toNat_inj, UInt8.reduceToNat]
  split
  · rename_i h
    exact ⟨hE0 h, hhigh⟩
  · split
    · rename_i h
      exact ⟨hlow, hED h⟩
    · split
      · rename_i h
        exact ⟨hF0 h, hhigh⟩
      · split
        · rename_i h
          exact ⟨hlow, hF4 h⟩
        · exact ⟨hlow, hhigh⟩

theorem toNat_tail (number : Nat) : (UInt8.ofNat (0x80 + number % 64)).toNat = 0x80 + number % 64 := by
  rw [UInt8.toNat_ofNat']
  omega

theorem decodeHead_eq {tail : Octets} (hwidth : width first = tail.length + 1) (rest : Octets)
    (hrun : continued (second first).1 (second first).2 tail.length (tail ++ rest) = tail.length) :
    decodeHead first (tail ++ rest) = (some (Char.ofNat (scalar first tail)), tail.length) := by
  simp [decodeHead, hwidth, hrun]

def Continues (octet : UInt8) : Prop := 0x80 ≤ octet.toNat ∧ octet.toNat ≤ 0xBF

theorem continued_eq {low high : UInt8} {next : UInt8} {tail : Octets} (hlow : low ≤ next)
    (hhigh : next ≤ high) (htail : ∀ octet ∈ tail, Continues octet) (rest : Octets) :
    continued low high (tail.length + 1) (next :: tail ++ rest) = tail.length + 1 := by
  induction tail generalizing low high next with
  | nil => simp [continued, hlow, hhigh]
  | cons octet tail ih =>
    rw [forall_mem_cons] at htail
    have hnext := @ih 0x80 0xBF octet (UInt8.le_iff_toNat_le.mpr htail.1.1)
      (UInt8.le_iff_toNat_le.mpr htail.1.2) htail.2
    simp only [cons_append, length_cons, continued, hlow, hhigh, and_self, if_true] at hnext ⊢
    rw [hnext]

theorem continues_tail (number : Nat) : Continues (UInt8.ofNat (0x80 + number % 64)) := by
  rw [Continues, toNat_tail]
  omega

/-- A first octet and those that carry six bits of `next` and of each number of `tail`. -/
theorem decodeHead_multi {lead next code : Nat} {tail : List Nat}
    (hlead : 0xC2 ≤ lead) (hbyte : lead < 0xF5)
    (hwidth : (UInt8.ofNat lead).toNat = lead → width (UInt8.ofNat lead) = tail.length + 2)
    (hE0 : lead = 0xE0 → 0x20 ≤ next % 64) (hED : lead = 0xED → next % 64 ≤ 0x1F)
    (hF0 : lead = 0xF0 → 0x10 ≤ next % 64) (hF4 : lead = 0xF4 → next % 64 ≤ 0x0F)
    (hcode : (next :: tail).foldl (fun code number => code * 64 + number % 64)
      (lead % 2 ^ (5 - tail.length)) = code) (rest : Octets) :
    decodeHead (UInt8.ofNat lead)
        ((next :: tail).map (fun number => UInt8.ofNat (0x80 + number % 64)) ++ rest) =
      (some (Char.ofNat code), tail.length + 1) := by
  have hfst : (UInt8.ofNat lead).toNat = lead := by
    rw [UInt8.toNat_ofNat']
    omega
  have hsec : (second (UInt8.ofNat lead)).1 ≤ UInt8.ofNat (0x80 + next % 64) ∧
      UInt8.ofNat (0x80 + next % 64) ≤ (second (UInt8.ofNat lead)).2 := by
    apply second_of_bounds <;> rw [toNat_tail] <;> omega
  have htail : ∀ octet ∈ tail.map (fun number => UInt8.ofNat (0x80 + number % 64)),
      Continues octet := by
    simpa using fun number _ => continues_tail number
  have hscalar : scalar (UInt8.ofNat lead)
      ((next :: tail).map fun number => UInt8.ofNat (0x80 + number % 64)) = code := by
    have hdig : ∀ number, (0x80 + number % 64) % 64 = number % 64 := by omega
    rw [scalar, if_neg (by rw [UInt8.lt_iff_toNat_lt, hfst]; simp; omega), hwidth hfst, hfst,
      foldl_map, ← hcode]
    simp only [toNat_tail, hdig, Nat.reduceSubDiff]
  rw [← hscalar]
  have hrun := continued_eq hsec.1 hsec.2 htail rest
  simpa using @decodeHead_eq _ (_ :: tail.map _) (by simpa using hwidth hfst) rest (by simpa using hrun)

theorem decodeHead_ofChar (rest : Octets) : ∃ first tail, ofChar char = first :: tail ∧
      decodeHead first (tail ++ rest) = (some char, tail.length) := by
  have hbounds := code_bounds char
  have hchar : Char.ofNat char.toNat = char := Char.ofNat_toNat char
  unfold ofChar
  generalize char.toNat = code at *
  rw [← hchar]
  simp only
  split
  · rename_i hone
    have hfst : (UInt8.ofNat code).toNat = code := by
      rw [UInt8.toNat_ofNat']
      omega
    refine ⟨_, _, rfl, ?_⟩
    rw [decodeHead_of_ascii (by rw [hfst]; exact hone), hfst]
    rfl
  · split
    · refine ⟨_, _, rfl, @decodeHead_multi _ code code [] (by omega) (by omega) (fun hlead => ?_)
        (by omega) (by omega) (by omega) (by omega) (by simp; omega) rest⟩
      rw [width_eq, if_neg (by omega), if_neg (by omega), if_pos (by omega)]
      rfl
    · split
      · refine ⟨_, _, rfl, @decodeHead_multi _ (code / 64) code [code] (by omega) (by omega)
          (fun hlead => ?_) (by omega) (by omega) (by omega) (by omega) (by simp; omega) rest⟩
        rw [width_eq, if_neg (by omega), if_neg (by omega), if_neg (by omega), if_pos (by omega)]
        rfl
      · refine ⟨_, _, rfl, @decodeHead_multi _ (code / 4096) code [code / 64, code] (by omega)
          (by omega) (fun hlead => ?_) (by omega) (by omega) (by omega) (by omega) (by simp; omega) rest⟩
        rw [width_eq, if_neg (by omega), if_neg (by omega), if_neg (by omega), if_neg (by omega),
          if_pos (by omega)]
        rfl

/-- A character is one octet below 128, or a first octet above it and others that continue. -/
theorem ofChar_cases : (char.toNat < 128 ∧ ofChar char = [UInt8.ofNat char.toNat]) ∨
      ∃ first tail, ofChar char = first :: tail ∧ 128 ≤ first.toNat ∧
        ∀ octet ∈ tail, Continues octet := by
  have hbounds := code_bounds char
  have hfst : ∀ {number : Nat}, 128 ≤ number → number < 256 →
      128 ≤ (UInt8.ofNat number).toNat := by
    intro number hlow hhigh
    rw [UInt8.toNat_ofNat']
    omega
  unfold ofChar
  simp only
  split
  · rename_i hascii
    exact .inl ⟨hascii, rfl⟩
  · right
    split
    · refine ⟨_, _, rfl, hfst (by omega) (by omega), ?_⟩
      exact forall_mem_singleton.mpr (continues_tail _)
    · split
      · refine ⟨_, _, rfl, hfst (by omega) (by omega), forall_mem_cons.mpr ⟨?_, ?_⟩⟩
        · exact continues_tail _
        · exact forall_mem_singleton.mpr (continues_tail _)
      · refine ⟨_, _, rfl, hfst (by omega) (by omega), forall_mem_cons.mpr ⟨?_, ?_⟩⟩
        · exact continues_tail _
        · exact forall_mem_cons.mpr ⟨continues_tail _, forall_mem_singleton.mpr (continues_tail _)⟩

theorem toNat_of_mem_ofChar {char : Char} {octet : UInt8} (hmem : octet ∈ ofChar char)
    (hascii : octet.toNat < 128) : char.toNat = octet.toNat := by
  rcases ofChar_cases char with ⟨hcode, hoctets⟩ | ⟨first, tail, hoctets, hfst, htail⟩
  · rw [hoctets, mem_singleton] at hmem
    rw [hmem, UInt8.toNat_ofNat']
    omega
  · rw [hoctets] at hmem
    rcases mem_cons.mp hmem with rfl | hmem
    · omega
    · have hlow := (htail octet hmem).1
      omega

theorem not_mem_utf8 {text : Str} {char : Char} (hascii : char.toNat < 128) (hchar : char ∉ text) :
    UInt8.ofNat char.toNat ∉ utf8 text := by
  intro hmem
  obtain ⟨found, hf, hoctet⟩ := mem_flatMap.mp hmem
  have hnum : (UInt8.ofNat char.toNat).toNat = char.toNat := by
    rw [UInt8.toNat_ofNat']
    omega
  have hs := toNat_of_mem_ofChar hoctet (by rw [hnum]; exact hascii)
  rw [hnum] at hs
  exact hchar (Char.toNat_inj.mp hs ▸ hf)

theorem decodeFuel_utf8 {fuel : Nat} (hfuel : (utf8 text).length ≤ fuel) :
    decodeFuel fuel (utf8 text) = text.map some := by
  induction text generalizing fuel with
  | nil => cases fuel <;> rfl
  | cons char text ih =>
    obtain ⟨first, tail, hoctets, hhead⟩ := decodeHead_ofChar char (utf8 text)
    rw [utf8_cons, hoctets, cons_append] at hfuel ⊢
    obtain ⟨fuel, rfl⟩ : ∃ smaller, fuel = smaller + 1 :=
      ⟨fuel - 1, by rw [length_cons] at hfuel; omega⟩
    rw [decodeFuel, hhead, drop_left, ih]
    · rfl
    · rw [length_cons, length_append] at hfuel
      omega

theorem decode_utf8 : decode (utf8 text) = text.map some :=
  decodeFuel_utf8 text (Nat.le_refl _)

theorem fromUtf8_utf8 : fromUtf8 (utf8 text) = some text := by
  rw [fromUtf8, decode_utf8]
  induction text with
  | nil => rfl
  | cons char text ih => simp [ih]

theorem fromUtf8Lossy_utf8 : fromUtf8Lossy (utf8 text) = text := by
  rw [fromUtf8Lossy, decode_utf8, map_map]
  exact map_id text

end Octets
