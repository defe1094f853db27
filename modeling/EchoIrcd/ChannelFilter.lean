import EchoIrcd.GlobMatch
import EchoIrcd.TagRules

/-!
# The channel filter

The masks of `+g` are matched against the text as the client sent it.  The modes
`+S` and `+G` then change the text, and nothing looks at the masks again.
-/

namespace EchoIrcd

open Str MessageText List

namespace Server

def filtered (env : Env) (server : Server) (key text : Str) : Bool :=
  (server.channels.lookup key).any fun channel =>
    (channel.lists .filter).any fun entry => globMatch env entry.mask text

def strips (uid : Uid) (key : Str) (server : Server) : Bool :=
  server.hasFlag key .stripColor && !server.chanopExempt uid key "stripcolor"

def censors (uid : Uid) (key : Str) (server : Server) : Bool :=
  server.hasFlag key .censor && !server.chanopExempt uid key "censor" &&
    !server.hasFlag key .encrypted

/-- What `+S` and `+G` leave of a text; `+G` may stop it. -/
def rewritten (conf : ChatConf) (uid : Uid) (key text : Str) (server : Server) : Option Str :=
  let body := if server.strips uid key then stripFormatting text else text
  if server.censors uid key && conf.censor ≠ [] then applyCensor conf.censor body
  else some body

end Server

/-- `+S` finds no code in a text and `+G` no word. -/
def Unaltered (strips censors : Bool) (words : List Str) (text : Str) : Prop :=
  (strips = true → hasFormatting text = false) ∧
    (censors = true → ∀ word ∈ words, ciContains text word = false)

theorem Server.rewritten_of_unaltered {conf : ChatConf} {uid : Uid} {key text : Str}
    {server : Server}
    (hpl : Unaltered (server.strips uid key) (server.censors uid key)
      (conf.censor.map CensorRule.find) text) :
    server.rewritten conf uid key text = some text := by
  have hbody : (if server.strips uid key then stripFormatting text else text) = text := by
    split
    · rename_i hstrips
      exact stripFormatting_of_plain (hpl.1 hstrips)
    · rfl
  simp only [rewritten, hbody]
  split
  · rename_i hcensors
    have hwds := hpl.2 (Bool.and_eq_true_iff.mp hcensors).1
    exact applyCensor_of_plain (forall_mem_map.mp hwds)
  · rfl

/-! ## A mask for every change -/

/-- What is known of the lower case of the library: it does not shorten a text. -/
structure Env.Lowers (env : Env) : Prop where
  marks : ∀ count, env.toLowercase (replicate count '?') = replicate count '?'
  length_le : ∀ text, text.length ≤ (env.toLowercase text).length
  length_lt : ∀ short long, short.Sublist long → short ≠ long →
    (env.toLowercase short).length < (env.toLowercase long).length

namespace Env.Lowers

theorem narrow_marks (count : Nat) (text : Str) :
    Wildcard.Narrow '*' Glob.Same (replicate count '?') text ↔ text.length = count := by
  induction count generalizing text with
  | zero => simp [Wildcard.narrow_nil]
  | succ count ih =>
    cases text with
    | nil => simp [Wildcard.narrow_empty, replicate_succ]
    | cons char text =>
      rw [replicate_succ, Wildcard.narrow_cons_of_one (.inl rfl), ih, length_cons,
        Nat.add_right_cancel_iff]

def size (env : Env) (text : Str) : Nat := (Glob.foldCase env [] text text).length

variable {env : Env} (hlow : env.Lowers) {short long : Str}

include hlow

theorem length_le_size (text : Str) : text.length ≤ size env text := by
  unfold size Glob.foldCase
  split
  · simp [toAsciiLower]
  · exact hlow.length_le text

theorem size_lt (hsub : short.Sublist long) (hne : short ≠ long) :
    size env short < size env long := by
  have hlt : short.length < long.length :=
    Nat.lt_of_le_of_ne hsub.length_le fun heq => hne (hsub.eq_of_length heq)
  by_cases hsho : isAscii short = true
  · rw [size, Glob.foldCase, if_pos (by simpa using ⟨rfl, hsho⟩), toAsciiLower, length_map]
    exact Nat.lt_of_lt_of_le hlt (hlow.length_le_size long)
  · have hlong : isAscii long ≠ true := fun hall =>
      hsho (all_eq_true.mpr fun char hchar => all_eq_true.mp hall char (hsub.subset hchar))
    simpa [size, Glob.foldCase, hsho, hlong] using hlow.length_lt short long hsub hne

theorem globMatch_marks (count : Nat) (text : Str) :
    globMatch env (replicate count '?') text = true ↔ size env text = count := by
  have hmarks : Glob.foldCase env (replicate count '?') text (replicate count '?') =
      replicate count '?' := by
    unfold Glob.foldCase
    split
    · simp [toAsciiLower]
    · exact hlow.marks count
  have htext : Glob.foldCase env (replicate count '?') text text =
      Glob.foldCase env [] text text := by
    simp [Glob.foldCase, isAscii]
  rw [Glob.globMatch_eq_true, hmarks, htext, narrow_marks, size]

end Env.Lowers

theorem lowers_plain : Env.plain.Lowers where
  marks := fun count => by simp [Env.plain, toAsciiLower]
  length_le := fun text => by simp [Env.plain, toAsciiLower]
  length_lt := fun short long hsub hne => by
    simpa [Env.plain, toAsciiLower] using
      Nat.lt_of_le_of_ne hsub.length_le fun heq => hne (hsub.eq_of_length heq)

namespace Chat

variable {env : Env} {conf : ChatConf} {uid : Uid} {kind : MsgKind} {target text body : Str}

theorem contentCheck_eq_ok {server : Server}
    (hok : contentCheck env conf uid kind target text server = .ok body) :
    server.rewritten conf uid (toAsciiLower target) text = some body ∧
      (server.filtered env (toAsciiLower target) text = true →
        server.chanopExempt uid (toAsciiLower target) "filter" = true) := by
  unfold contentCheck at hok
  simp only at hok
  iterate 4
    split at hok
    · cases hok
  split at hok
  · cases hok
  · rename_i hpass
    split at hok
    · cases hok
    · rename_i rewritten hrw
      split at hok
      · cases hok
      · cases hok
        refine ⟨hrw, fun hfiltered => ?_⟩
        simpa [← Server.filtered.eq_1 env, hfiltered] using hpass

/-- What the members are shown matches no mask. -/
def Clear (env : Env) (conf : ChatConf) (uid : Uid) (mask : Str) (kind : MsgKind)
    (target text : Str) (chat : Chat) : Prop :=
  ∀ reader body, (reader, .message .channel mask kind target body) ∈
      (chat.quiet.deliverChannel env conf uid mask kind target text).shown →
    chat.server.filtered env (toAsciiLower target) body = false

theorem clear_of_unaltered {chat : Chat} {mask : Str}
    (hbd : chat.server.chanopExempt uid (toAsciiLower target) "filter" = false)
    (hpl : Unaltered (chat.server.strips uid (toAsciiLower target))
      (chat.server.censors uid (toAsciiLower target)) (conf.censor.map CensorRule.find) text) :
    chat.Clear env conf uid mask kind target text := by
  intro reader body hsh
  obtain hold | ⟨_, _, hok, ⟨hline, -⟩ | ⟨hline, -⟩⟩ := (mem_deliverChannel rfl).mp hsh
  · cases hold
  · cases hline
    obtain ⟨_, herror, -⟩ | ⟨_, _, hgates, -, hcheck⟩ :=
      channelGates_cases env conf uid kind target text chat.quiet
    · cases hok.symm.trans herror
    · cases hok.symm.trans hgates
      obtain ⟨hrw, hexm⟩ := contentCheck_eq_ok hcheck
      cases (Server.rewritten_of_unaltered hpl).symm.trans hrw
      by_contra hfiltered
      exact absurd (hbd.symm.trans (hexm (Bool.not_eq_false _ ▸ hfiltered))) (by decide)
  · cases hline

def alteringChat (strips censors : Bool) (mask : Str) : Chat :=
  { gatedChat .stripColor with
    server := (gatedChat .stripColor).server.changeChannel "#c" fun channel =>
      { channel.setList .filter fun _ => [⟨mask, "ann", 1, none⟩] with
        modes := (({} : ChanModes).setFlag .stripColor strips).setFlag .censor censors } }

section Altering

variable {strips censors : Bool} {mask : Str} {words : List Str}

section

variable (hrw : (alteringChat strips censors mask).server.rewritten conf 1 "#c" text = some body)
  (hpass : globMatch env mask text = false)

include hrw hpass

theorem contentCheck_alteringChat : contentCheck env conf 1 .privmsg "#c" text
    (alteringChat strips censors mask).quiet.server = .ok body := by
  unfold contentCheck
  simp only
  iterate 4
    split
    · rename_i hstop
      cases hstop
  split
  · rename_i hstop
    have hmask : ((globMatch env mask text || false) && true) = true := hstop
    rw [hpass] at hmask
    cases hmask
  · split
    · rename_i hnone
      cases hnone.symm.trans hrw
    · rename_i kept hkept
      cases hkept.symm.trans hrw
      split
      · rename_i hstop
        cases hstop
      · rfl

/-- In this channel only the masks and the censor can stop a message. -/
theorem channelGates_alteringChat :
    (alteringChat strips censors mask).quiet.channelGates env conf 1 .privmsg "#c" text =
      .ok ((alteringChat strips censors mask).quiet, body) := by
  have hspeak : (alteringChat strips censors mask).quiet.speakRefusal env 1 "#c" text = none := rfl
  have hpace : (alteringChat strips censors mask).quiet.slowmode 1 "#c" =
      ((alteringChat strips censors mask).quiet, false) := rfl
  have hflood : (alteringChat strips censors mask).quiet.floodGate 1 "#c" =
      ((alteringChat strips censors mask).quiet, none) := rfl
  rw [channelGates, hspeak, show toAsciiLower "#c" = "#c" from rfl]
  simp only [hpace, hflood, contentCheck_alteringChat hrw hpass]
  rfl

end

theorem not_clear_alteringChat (hlow : env.Lowers)
    (hrw : (alteringChat strips censors
      (replicate (Env.Lowers.size env body) '?')).server.rewritten conf 1 "#c" text = some body)
    (hsize : Env.Lowers.size env body ≠ Env.Lowers.size env text) :
    ¬(alteringChat strips censors (replicate (Env.Lowers.size env body) '?')).Clear env conf 1 mask
      .privmsg "#c" text := by
  have hpass : globMatch env (replicate (Env.Lowers.size env body) '?') text = false := by
    rw [Bool.eq_false_iff, ne_eq, hlow.globMatch_marks]
    exact hsize.symm
  intro hclear
  have hsh := hclear 2 body ((mem_deliverChannel rfl).mpr (.inr ⟨_, _,
    channelGates_alteringChat hrw hpass, .inl ⟨rfl, .head _, rfl⟩⟩))
  have hmatch : (globMatch env (replicate (Env.Lowers.size env body) '?') body || false) = false :=
    hsh
  rw [(hlow.globMatch_marks _ _).mpr rfl] at hmatch
  cases hmatch

theorem strips_alteringChat (strips censors : Bool) (mask : Str) :
    (alteringChat strips censors mask).server.strips 1 "#c" = strips :=
  Bool.and_true strips

theorem censors_alteringChat (strips censors : Bool) (mask : Str) :
    (alteringChat strips censors mask).server.censors 1 "#c" = censors := by
  cases censors <;> rfl

theorem exists_altered (hlow : env.Lowers) (hpl : ¬Unaltered strips censors words text) :
    ∃ (conf : ChatConf) (body : Str), conf.censor.map CensorRule.find = words ∧
      (∀ mask, (alteringChat strips censors mask).server.rewritten conf 1 "#c" text = some body) ∧
      Env.Lowers.size env body ≠ Env.Lowers.size env text := by
  have hcut : ∀ body, body.Sublist text → body ≠ text →
      Env.Lowers.size env body ≠ Env.Lowers.size env text :=
    fun body hsub hne => Nat.ne_of_lt (hlow.size_lt hsub hne)
  -- a text this long behind a word cannot be mistaken for the text that was sent
  obtain ⟨replace, hreplace⟩ : ∃ replace : Str, Env.Lowers.size env text < replace.length :=
    ⟨replicate (Env.Lowers.size env text + 1) 'x', by simp⟩
  obtain ⟨body, hbody⟩ : ∃ body, body = if strips then stripFormatting text else text := ⟨_, rfl⟩
  have hsub : body.Sublist text := by
    rw [hbody]
    split
    · exact stripFuel_sublist ..
    · exact Sublist.refl text
  have hkept : body = text → strips = true → hasFormatting text = false := by
    intro heq hstrips
    rw [hbody, if_pos hstrips] at heq
    exact (stripFormatting_spec text).2.mp heq
  have hfilled : replace ≠ [] := length_pos_iff.mp (Nat.zero_lt_of_lt hreplace)
  obtain ⟨out, hout, hcases⟩ := applyCensor_long hfilled words body
  have hrw : ∀ mask, (alteringChat strips censors mask).server.rewritten
      { censor := words.map (⟨·, replace⟩) } 1 "#c" text =
        if censors = true ∧ words ≠ [] then applyCensor (words.map (⟨·, replace⟩)) body
        else some body := by
    intro mask
    simp only [Server.rewritten, strips_alteringChat, censors_alteringChat, ← hbody,
      Bool.and_eq_true, decide_eq_true_eq, ne_eq, map_eq_nil_iff]
  refine ⟨{ censor := words.map (⟨·, replace⟩) }, ?_⟩
  by_cases hcensors : censors = true ∧ words ≠ []
  · refine ⟨out, by simp [Function.comp_def], ?_, ?_⟩
    · intro mask
      rw [hrw, if_pos hcensors, hout]
    · rcases hcases with ⟨rfl, hwds⟩ | hlong
      · exact hcut out hsub fun heq => hpl ⟨hkept heq, fun _ => heq ▸ hwds⟩
      · have hle := hlow.length_le_size out
        omega
  · refine ⟨body, by simp [Function.comp_def], ?_, ?_⟩
    · intro mask
      rw [hrw, if_neg hcensors]
    · refine hcut body hsub fun heq => hpl ⟨hkept heq, fun hc word hword => ?_⟩
      exact absurd ⟨hc, ne_nil_of_mem hword⟩ hcensors

end Altering

end Chat

end EchoIrcd
