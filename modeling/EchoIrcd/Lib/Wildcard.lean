import Mathlib.Data.List.Forall2
import Mathlib.Data.List.Infix

/-!
# Wildcard patterns

A pattern is a list of tokens, one of which is the star.  `Splits` is what such
a pattern means: the text is cut into one piece for each token, any run for a
star and a single character for every other token.  `Narrow` is what a matcher
accepts that tries a token on a single character before it asks whether the
token is the star: a star in front of a character it covers by itself takes
that character and nothing else.
-/

namespace Wildcard

open List

variable {α β : Type} (star : α) (one : α → β → Prop)

/-- What a token may stand for. -/
inductive Piece : α → List β → Prop where
  | run (piece : List β) : Piece star piece
  | one {token : α} {char : β} : token ≠ star → one token char → Piece token [char]

/-- The text falls into one piece for each token. -/
def Splits (pattern : List α) (text : List β) : Prop :=
  ∃ pieces, Forall₂ (Piece star one) pattern pieces ∧ pieces.flatten = text

inductive Narrow : List α → List β → Prop where
  | nil : Narrow [] []
  | one {token : α} {char : β} {pattern : List α} {text : List β} :
      one token char → Narrow pattern text → Narrow (token :: pattern) (char :: text)
  | star {pattern : List α} {run rest : List β} :
      (∀ char ∈ (run ++ rest).head?, ¬one star char) → Narrow pattern rest →
        Narrow (star :: pattern) (run ++ rest)

/-- The pattern accepts some end of the text. -/
def Floats (pattern : List α) (text : List β) : Prop :=
  ∃ rest, rest <:+ text ∧ Narrow star one pattern rest

variable {star : α} {one : α → β → Prop} {token : α} {char : β} {pattern literal : List α}
  {text covered : List β}

/-! ## Single tokens -/

theorem splits_nil : Splits star one [] text ↔ text = [] := by
  constructor
  · rintro ⟨pieces, hpieces, rfl⟩
    cases hpieces
    rfl
  · rintro rfl
    exact ⟨[], .nil, rfl⟩

theorem Splits.cons_one (hne : token ≠ star) (hone : one token char)
    (hsplits : Splits star one pattern text) :
    Splits star one (token :: pattern) (char :: text) := by
  obtain ⟨pieces, hpieces, rfl⟩ := hsplits
  exact ⟨[char] :: pieces, .cons (.one hne hone) hpieces, rfl⟩

theorem Splits.cons_star (run : List β) (hsplits : Splits star one pattern text) :
    Splits star one (star :: pattern) (run ++ text) := by
  obtain ⟨pieces, hpieces, rfl⟩ := hsplits
  exact ⟨run :: pieces, .cons (.run run) hpieces, rfl⟩

theorem narrow_nil : Narrow star one [] text ↔ text = [] := by
  constructor
  · rintro ⟨⟩
    rfl
  · rintro rfl
    exact .nil

theorem narrow_empty : Narrow star one pattern [] ↔ ∀ token ∈ pattern, token = star := by
  induction pattern with
  | nil => simp [narrow_nil]
  | cons first pattern ih =>
    constructor
    · intro hnar
      generalize htext : ([] : List β) = text at hnar
      cases hnar with
      | one => cases htext
      | star hhead hrest =>
        rw [(append_eq_nil_iff.mp htext.symm).2, ih] at hrest
        simpa using hrest
    · intro hstars
      rw [hstars first (by simp)]
      have hrest : Narrow star one pattern [] :=
        ih.mpr fun token htok => hstars token (mem_cons_of_mem _ htok)
      show Narrow star one (star :: pattern) ([] ++ [])
      exact .star (by simp) hrest

theorem narrow_cons_of_one (hone : one token char) :
    Narrow star one (token :: pattern) (char :: text) ↔ Narrow star one pattern text := by
  constructor
  · intro hnar
    generalize hwh : char :: text = whole at hnar
    cases hnar with
    | one _ hrest =>
      obtain ⟨-, rfl⟩ := cons.inj hwh
      exact hrest
    | star hhead hrest =>
      rw [← hwh] at hhead
      exact absurd hone (hhead char rfl)
  · exact .one hone

theorem not_narrow_cons (hone : ¬one token char) (hne : token ≠ star) :
    ¬Narrow star one (token :: pattern) (char :: text) := by
  intro hnar
  generalize hwh : char :: text = whole at hnar
  cases hnar with
  | one hcvr _ =>
    obtain ⟨rfl, -⟩ := cons.inj hwh
    exact hone hcvr
  | star => exact hne rfl

theorem narrow_star (hhead : ∀ char ∈ text.head?, ¬one star char) :
    Narrow star one (star :: pattern) text ↔ Floats star one pattern text := by
  constructor
  · intro hnar
    cases hnar with
    | one hcvr _ => exact absurd hcvr (hhead _ rfl)
    | star _ hrest => exact ⟨_, suffix_append _ _, hrest⟩
  · rintro ⟨rest, ⟨run, rfl⟩, hrest⟩
    exact .star hhead hrest

/-! ## A literal beginning -/

theorem narrow_append (hlit : Forall₂ one literal covered) :
    Narrow star one (literal ++ pattern) (covered ++ text) ↔ Narrow star one pattern text := by
  induction hlit with
  | nil => rfl
  | cons hone _ ih => rw [cons_append, cons_append, narrow_cons_of_one hone, ih]

theorem Floats.mono {longer : List β} (hsuf : text <:+ longer)
    (hfloats : Floats star one pattern text) : Floats star one pattern longer := by
  obtain ⟨rest, hrest, hnar⟩ := hfloats
  exact ⟨rest, hrest.trans hsuf, hnar⟩

/--
Where a literal beginning fits, no other place for it leaves the rest of the
pattern more text: a star inside it that is passed over elsewhere stands here
before a character it covers by itself.
-/
theorem Floats.rest_of_append (hlit : Forall₂ one literal covered)
    (hfloats : Floats star one (literal ++ pattern) (covered ++ text)) :
    Floats star one pattern text := by
  induction hlit with
  | nil => exact hfloats
  | @cons token char literal covered hone _ ih =>
    apply ih
    obtain ⟨rest, hrest, hnar⟩ := hfloats
    rw [cons_append, suffix_cons_iff] at hrest
    cases hnar with
    | one _ hmore =>
      refine ⟨_, ?_, hmore⟩
      rcases hrest with heq | hsuf
      · rw [(cons.inj heq).2]
      · exact (suffix_cons _ _).trans hsuf
    | star hhead hmore =>
      refine ⟨_, ?_, hmore⟩
      rcases hrest with heq | hsuf
      · rw [heq] at hhead
        exact absurd hone (hhead char rfl)
      · exact (suffix_append _ _).trans hsuf

/-! ## Translated alphabets -/

theorem narrow_map {γ δ : Type} {star' : γ} {one' : γ → δ → Prop} {tokenMap : α → γ}
    {charMap : β → δ} (hstar : ∀ token, tokenMap token = star' ↔ token = star)
    (hone : ∀ token char, one' (tokenMap token) (charMap char) ↔ one token char) :
    Narrow star' one' (pattern.map tokenMap) (text.map charMap) ↔ Narrow star one pattern text := by
  have hhead : ∀ text : List β, (∀ char ∈ (text.map charMap).head?, ¬one' star' char) ↔
      ∀ char ∈ text.head?, ¬one star char := by
    intro text
    cases text with
    | nil => simp
    | cons first text => simp [← (hstar star).mpr rfl, hone]
  constructor
  · intro hnar
    generalize htoks : pattern.map tokenMap = tokens at hnar
    generalize hchars : text.map charMap = chars at hnar
    induction hnar generalizing pattern text with
    | nil =>
      rw [map_eq_nil_iff.mp htoks, map_eq_nil_iff.mp hchars]
      exact .nil
    | one hcvr _ ih =>
      obtain ⟨token, pattern, rfl, rfl, rfl⟩ := map_eq_cons_iff.mp htoks
      obtain ⟨char, text, rfl, rfl, rfl⟩ := map_eq_cons_iff.mp hchars
      exact .one ((hone token char).mp hcvr) (ih rfl rfl)
    | star hblocked _ ih =>
      obtain ⟨token, pattern, rfl, htok, rfl⟩ := map_eq_cons_iff.mp htoks
      obtain ⟨run, rest, rfl, rfl, rfl⟩ := map_eq_append_iff.mp hchars
      rw [(hstar token).mp htok]
      rw [← map_append, hhead] at hblocked
      exact .star hblocked (ih rfl rfl)
  · intro hnar
    induction hnar with
    | nil => exact .nil
    | one hcvr _ ih => exact .one ((hone _ _).mpr hcvr) ih
    | star hblocked _ ih =>
      rw [map_cons, map_append, (hstar star).mpr rfl]
      apply Narrow.star _ ih
      rw [← map_append, hhead]
      exact hblocked

/-! ## The two readings -/

theorem Narrow.splits (hnar : Narrow star one pattern text) : Splits star one pattern text := by
  induction hnar with
  | nil => exact splits_nil.mpr rfl
  | @one token char pattern text hone _ ih =>
    by_cases hstar : token = star
    · subst hstar
      exact ih.cons_star [char]
    · exact ih.cons_one hstar hone
  | star _ _ ih => exact ih.cons_star _

theorem Splits.narrow (hpl : ∀ char ∈ text, ¬one star char)
    (hsplits : Splits star one pattern text) : Narrow star one pattern text := by
  obtain ⟨pieces, hpieces, rfl⟩ := hsplits
  induction hpieces with
  | nil => exact .nil
  | @cons token piece pattern pieces hpiece _ ih =>
    have hrest : Narrow star one pattern pieces.flatten := by
      apply ih
      intro char hchar
      exact hpl char (by simp [hchar])
    cases hpiece with
    | run =>
      apply Narrow.star _ hrest
      intro char hchar
      exact hpl char (mem_of_mem_head? hchar)
    | one _ hone => exact .one hone hrest

end Wildcard
