import Mathlib.Data.Finset.Card

/-!
# Scripts mixed within words

The score of `antimixedutf8.rs`, which goes up with every word of a message that mixes
scripts or is made of letters that look Latin.  Codepoints are numbers, and so are the
counters: no message is long enough for 32 bits to overflow.
-/

namespace EchoIrcd

open List

inductive Script where
  | other | latin | cyrillic | greek | armenian | hebrew | arabic | cjk
  deriving DecidableEq

def classifyScript (code : Nat) : Script :=
  if 0x41 ≤ code ∧ code ≤ 0x5A ∨ 0x61 ≤ code ∧ code ≤ 0x7A then .latin
  else if 0xC0 ≤ code ∧ code ≤ 0x24F then .latin
  else if 0x370 ≤ code ∧ code ≤ 0x3FF then .greek
  else if 0x400 ≤ code ∧ code ≤ 0x4FF then .cyrillic
  else if 0x530 ≤ code ∧ code ≤ 0x58F then .armenian
  else if 0x590 ≤ code ∧ code ≤ 0x5FF then .hebrew
  else if 0x600 ≤ code ∧ code ≤ 0x6FF then .arabic
  else if 0x4E00 ≤ code ∧ code ≤ 0x9FFF then .cjk
  else if 0x3040 ≤ code ∧ code ≤ 0x30FF then .cjk
  else .other

def latinConfusables : List Nat :=
  [0x430, 0x410, 0x435, 0x415, 0x43E, 0x41E, 0x440, 0x420, 0x441, 0x421, 0x443, 0x423,
    0x445, 0x425, 0x456, 0x406, 0x455, 0x405, 0x458, 0x408, 0x43A, 0x41A, 0x43C, 0x41C, 0x43D,
    0x41D, 0x432, 0x412, 0x442, 0x422, 0x3BF, 0x39F, 0x3B1, 0x391, 0x3B5, 0x395, 0x3C1, 0x3A1,
    0x3C5, 0x3A5, 0x3BD, 0x3BA, 0x39A, 0x3B9, 0x399, 0x3BC, 0x392, 0x39D, 0x3A4, 0x397, 0x3A7, 0x396]

def isLatinConfusable (code : Nat) : Bool := code ∈ latinConfusables

def isFancyLatin (code : Nat) : Bool :=
  0xFF21 ≤ code && code ≤ 0xFF5A || 0x1D400 ≤ code && code ≤ 0x1D7FF ||
    0x1F130 ≤ code && code ≤ 0x1F189 || 0x24B6 ≤ code && code ≤ 0x24E9 ||
    0x2460 ≤ code && code ≤ 0x24FF

def isInvisible (code : Nat) : Bool :=
  code ∈ [0xAD, 0x200B, 0x200C, 0x200D, 0x2060, 0xFEFF, 0x180E]

def boundaries : List Nat := [0x20, 0x09, 0x2C, 0x2E, 0x21, 0x3F, 0xFFFD]

def isBoundary (code : Nat) : Bool := code ∈ boundaries

structure Word where
  scripts : Finset Script := ∅
  ascii : Bool := false
  confusable : Bool := false
  fancy : Bool := false
  letters : Nat := 0
  confusables : Nat := 0

structure Scorer where
  mixedwords : Nat := 0
  homoglyphwords : Nat := 0
  purehomowords : Nat := 0
  fancywords : Nat := 0
  invisibles : Nat := 0
  totalletters : Nat := 0
  latinletters : Nat := 0
  word : Word := {}

def isLetter (code : Nat) : Bool := classifyScript code ≠ .other || isFancyLatin code

def Word.read (word : Word) (code : Nat) : Word :=
  if isLetter code then
    { scripts := if classifyScript code = .other then word.scripts
        else insert (classifyScript code) word.scripts
      ascii := word.ascii || classifyScript code = .latin
      confusable := word.confusable || isLatinConfusable code
      fancy := word.fancy || isFancyLatin code
      letters := word.letters + 1
      confusables := word.confusables + if isLatinConfusable code then 1 else 0 }
  else word

namespace Scorer

def endWord (scorer : Scorer) : Scorer :=
  let word := scorer.word
  let counted :=
    if word.confusable && word.ascii then
      { scorer with homoglyphwords := scorer.homoglyphwords + 1 }
    else if 2 ≤ word.scripts.card then { scorer with mixedwords := scorer.mixedwords + 1 }
    else if !word.ascii && word.scripts.card = 1 && 4 ≤ word.letters &&
        80 ≤ word.confusables * 100 / word.letters then
      { scorer with purehomowords := scorer.purehomowords + 1 }
    else scorer
  { counted with
    fancywords := counted.fancywords + if word.fancy then 1 else 0
    word := {} }

def read (scorer : Scorer) (code : Nat) : Scorer :=
  { scorer with
    totalletters := scorer.totalletters + if isLetter code then 1 else 0
    latinletters := scorer.latinletters + if classifyScript code = .latin then 1 else 0
    word := scorer.word.read code }

def step (scorer : Scorer) (code : Nat) : Scorer :=
  if isInvisible code then { scorer with invisibles := scorer.invisibles + 1 }
  else if isBoundary code then (scorer.read code).endWord
  else scorer.read code

def total (scorer : Scorer) : Nat :=
  let disguised := scorer.homoglyphwords + scorer.mixedwords + scorer.purehomowords +
    scorer.fancywords
  let nonlatin := scorer.totalletters - scorer.latinletters
  (disguised - 1) * 5 + scorer.fancywords + scorer.invisibles * 3 +
    if 8 ≤ scorer.totalletters ∧ 2 ≤ disguised ∧ 0 < nonlatin ∧ 0 < scorer.latinletters ∧
      40 ≤ nonlatin * 100 / scorer.totalletters then 3 else 0

end Scorer

def scoreMessage (text : List Nat) : Nat := (text.foldl Scorer.step {}).endWord.total

/-! ## One script -/

/-- A codepoint of a text in one script, neither styled nor invisible. -/
abbrev OfScript (script : Script) (code : Nat) : Prop :=
  (classifyScript code = .other ∨ classifyScript code = script) ∧ isFancyLatin code = false ∧
    isInvisible code = false

def looksLatin (word : List Nat) : Bool :=
  4 ≤ word.countP isLetter && 80 ≤ word.countP isLatinConfusable * 100 / word.countP isLetter

structure Notes (script : Script) (seen : List Nat) (scorer : Scorer) : Prop where
  clean : scorer.homoglyphwords = 0 ∧ scorer.mixedwords = 0 ∧ scorer.fancywords = 0 ∧
    scorer.invisibles = 0
  latin : scorer.latinletters = if script = .latin then scorer.totalletters else 0
  scripts : scorer.word.scripts = if 0 < scorer.word.letters then {script} else ∅
  ascii : scorer.word.ascii = true → script = .latin
  confusable : scorer.word.confusable = true ∨ 0 < scorer.word.confusables → script ≠ .latin
  fancy : scorer.word.fancy = false
  letters : scorer.word.letters = seen.countP isLetter
  confusables : scorer.word.confusables = seen.countP isLatinConfusable

variable {script : Script} {code : Nat} {codes seen : List Nat} {scorer : Scorer}

theorem classifyScript_confusable (hcode : isLatinConfusable code = true) :
    classifyScript code = .cyrillic ∨ classifyScript code = .greek :=
  (by decide : ∀ code ∈ latinConfusables,
    classifyScript code = .cyrillic ∨ classifyScript code = .greek) code (of_decide_eq_true hcode)

namespace Notes

variable (hnotes : Notes script seen scorer)

include hnotes

theorem endWord : Notes script [] scorer.endWord ∧
    scorer.endWord.purehomowords = scorer.purehomowords + if looksLatin seen then 1 else 0 := by
  obtain ⟨hcl, hlatin, hscripts, hascii, hconfusable, hfancy, hlets, hconfusables⟩ := hnotes
  have hhomo : (scorer.word.confusable && scorer.word.ascii) = false := by
    by_contra hboth
    simp only [Bool.not_eq_false, Bool.and_eq_true] at hboth
    exact hconfusable (.inl hboth.1) (hascii hboth.2)
  have hcard : scorer.word.scripts.card = if 0 < scorer.word.letters then 1 else 0 := by
    rw [hscripts]
    split <;> rfl
  have hpure : (!scorer.word.ascii && scorer.word.scripts.card = 1 && 4 ≤ scorer.word.letters &&
      80 ≤ scorer.word.confusables * 100 / scorer.word.letters) = looksLatin seen := by
    rw [looksLatin, ← hlets, ← hconfusables, hcard]
    cases hlatin : scorer.word.ascii with
    | false => grind
    | true =>
      have hnone : scorer.word.confusables = 0 := by
        by_contra hsome
        exact hconfusable (.inr (Nat.pos_of_ne_zero hsome)) (hascii hlatin)
      simp [hnone]
  have hone : ¬2 ≤ scorer.word.scripts.card := by
    rw [hcard]
    split <;> omega
  rw [Scorer.endWord, hhomo, hpure]
  simp only [hone, hfancy]
  cases looksLatin seen <;> exact ⟨by constructor <;> simp [hcl, hlatin], rfl⟩

theorem read (hfits : OfScript script code) : Notes script (seen ++ [code]) (scorer.read code) := by
  obtain ⟨hcl, hlatin, hscripts, hascii, hconfusable, hfancy, hlets, hconfusables⟩ := hnotes
  have hlook := @classifyScript_confusable code
  obtain ⟨hscript, hpl, -⟩ := hfits
  unfold Scorer.read Word.read
  by_cases ho : classifyScript code = .other
  · have hlet : isLetter code = false := by simp [isLetter, ho, hpl]
    constructor <;> simp_all
  · replace hscript := hscript.resolve_left ho
    have hlet : isLetter code = true := by simp [isLetter, ho]
    simp only [hlet, if_true, if_neg ho]
    simp only [hscript]
    refine ⟨hcl, ?_, ?_, ?_, ?_, ?_, ?_, ?_⟩
    · simp only [hlatin]
      split_ifs <;> rfl
    · rw [hscripts]
      by_cases hsome : 0 < scorer.word.letters <;> simp [hsome]
    · intro h
      rcases Bool.or_eq_true_iff.mp h with h | h
      · exact hascii h
      · exact of_decide_eq_true h
    · cases hcode : isLatinConfusable code with
      | false => simpa using hconfusable
      | true =>
        intro _ hlatin
        simpa [hscript, hlatin] using hlook hcode
    · simp [hfancy, hpl]
    · simp [hlets, hlet]
    · simp [hconfusables, countP_append, countP_singleton]

theorem total : scorer.total = (scorer.purehomowords - 1) * 5 := by
  obtain ⟨⟨hhomo, hmixed, hfancy, hinvisible⟩, hlatin, -⟩ := hnotes
  simp only [Scorer.total, hhomo, hmixed, hfancy, hinvisible, hlatin]
  split_ifs <;> omega

end Notes

theorem modifyHead_nil_append (words : List (List Nat)) : words.modifyHead ([] ++ ·) = words :=
  congrFun modifyHead_id words

theorem total_foldl_step (hcodes : ∀ code ∈ codes, OfScript script code)
    (hnotes : Notes script seen scorer) :
    (codes.foldl Scorer.step scorer).endWord.total = (scorer.purehomowords +
      ((codes.splitOnP isBoundary).modifyHead (seen ++ ·)).countP looksLatin - 1) * 5 := by
  induction codes generalizing scorer seen with
  | nil =>
    obtain ⟨hend, hwds⟩ := hnotes.endWord
    simp [hend.total, hwds]
  | cons code codes ih =>
    have hcode := hcodes code mem_cons_self
    have hrest := fun other ho => hcodes other (mem_cons_of_mem code ho)
    have hread := hnotes.read hcode
    simp only [foldl_cons, splitOnP_cons_eq_if_modifyHead, Scorer.step, hcode.2.2]
    cases hend : isBoundary code with
    | false =>
      refine (ih hrest hread).trans ?_
      simp [Function.comp_def, Scorer.read]
    | true =>
      have hbetween := (by decide : ∀ code ∈ boundaries, isLetter code = false ∧
        isLatinConfusable code = false) code (of_decide_eq_true hend)
      obtain ⟨hnext, hwds⟩ := hread.endWord
      refine (ih hrest hnext).trans ?_
      have hs : looksLatin (seen ++ [code]) = looksLatin seen := by
        simp [looksLatin, hbetween]
      simp only [hwds, hs, modifyHead_nil_append, if_true, modifyHead_cons,
        countP_cons, append_nil]
      change (scorer.purehomowords + _ + _ - 1) * 5 = _
      omega

/-- A message in one script scores nothing just if at most one of its words looks Latin. -/
theorem scoreMessage_eq_zero_iff (hcodes : ∀ code ∈ codes, OfScript script code) :
    scoreMessage codes = 0 ↔ (codes.splitOnP isBoundary).countP looksLatin ≤ 1 := by
  have hsta : Notes script [] {} := by constructor <;> simp
  rw [scoreMessage, total_foldl_step hcodes hsta, modifyHead_nil_append]
  simp only [Nat.zero_add]
  omega

theorem scoreMessage_eq_zero_of_word : scoreMessage [0x43D, 0x43E, 0x440, 0x430] = 0 :=
  (@scoreMessage_eq_zero_iff .cyrillic _ (by decide)).mpr (by decide)

/-- Two, as in "нора сено", are taken for Latin in disguise. -/
theorem genuine_words_score :
    let text := [0x43D, 0x43E, 0x440, 0x430, 0x20, 0x441, 0x435, 0x43D, 0x43E]
    (∀ code ∈ text, OfScript .cyrillic code) ∧ scoreMessage text = 5 := by
  decide

end EchoIrcd
