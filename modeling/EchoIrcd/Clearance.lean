import EchoIrcd.ChannelFilter
import EchoIrcd.Dispatch

/-!
# What is delivered has passed the gates

The pre-message gates stand between a PRIVMSG or NOTICE and its delivery.  Two
ways lead around them: the lines of a batch are put aside before the gates and
delivered when the batch is closed, and the text of an alias is no PRIVMSG when
the gates look at it.  Two channel modes rewrite a text behind the gates.
-/

namespace EchoIrcd

open Str Chat List

/-! ## The texts that go out -/

namespace Chat

variable {env : Env} {conf : ChatConf} {chat before after : Chat} {uid tuid reader link : Uid}
  {kind : MsgKind} {mask target text body key : Str} {line : Shown} {out : Out}

def Renders (env : Env) (conf : ChatConf) (uid : Uid) (kind : MsgKind) (target text : Str)
    (server : Server) (body : Str) : Prop :=
  body = text ∨
    target.head? = some '#' ∧ contentCheck env conf uid kind target text server = .ok body

/-- The message lines to links are those from before, or carry `body`. -/
structure Sends (body : Str) (before after : Chat) : Prop where
  mem_sent : ∀ link out, (link, out) ∈ after.server.sent → out.spoken.isSome →
    (link, out) ∈ before.server.sent ∨ out.spoken = some body

theorem Sends.of_sent (hsent : after.server.sent = before.server.sent) :
    Sends body before after := by
  constructor
  intro link out hout _
  left
  rwa [hsent] at hout

theorem Sends.trans {first second third : Chat} (hleft : Sends body first second)
    (hrt : Sends body second third) : Sends body first third := by
  constructor
  intro link out hout hspk
  rcases hrt.mem_sent link out hout hspk with hout | hbody
  · exact hleft.mem_sent link out hout hspk
  · exact .inr hbody

theorem server_refuse (uid : Uid) (kind : MsgKind) (refusal : Refusal) (chat : Chat) :
    (chat.refuse uid kind refusal).server = chat.server := by
  cases kind <;> rfl

theorem server_echo (uid : Uid) (line : Shown) (chat : Chat) :
    (chat.echo uid line).server = chat.server := by
  unfold echo
  split <;> rfl

section

variable (chat : Chat)

theorem sends_floodKick (uid : Uid) (key : Str) (ban : Bool) :
    Sends body chat (chat.floodKick uid key ban) := by
  unfold floodKick
  split
  · exact .of_sent rfl
  · constructor
    intro link out hout hspk
    left
    simp only [Server.dropMember, Server.reapChannels, Server.propagateKick] at hout
    split at hout
    · split at hout
      · simp only [Server.propagate_sent, mem_append, mem_map, Prod.mk.injEq] at hout
        rcases hout with hout | ⟨other, -, -, rfl⟩
        · cases ban <;> exact hout
        · cases hspk
      · cases ban <;> exact hout
    · cases ban <;> exact hout

theorem HeldBack.sends (hheld : HeldBack uid kind key before after) : Sends body before after := by
  cases hheld with
  | silent hpaced => exact .of_sent (by rw [hpaced.server])
  | refused refusal hpaced => exact .of_sent (by rw [server_refuse, hpaced.server])
  | kicked ban hpaced =>
    exact (Sends.of_sent (by rw [hpaced.server])).trans (sends_floodKick ..)

theorem sends_sendChannelToLinks (uid : Uid) (key target : Str) (kind : MsgKind)
    (body : Str) : Sends body chat (chat.sendChannelToLinks uid key target kind body) := by
  unfold sendChannelToLinks
  split
  · constructor
    intro link out hout _
    simp only [Server.foldl_linkOut, mem_append, mem_map, Prod.mk.injEq] at hout
    rcases hout with hold | ⟨other, -, -, rfl⟩
    · exact .inl hold
    · exact .inr rfl
  · exact .of_sent rfl

theorem sends_sendToChannel :
    Sends body chat (chat.sendToChannel env conf uid mask kind target body) := by
  refine Sends.trans (.of_sent ?_) (sends_sendChannelToLinks ..)
  rw [server_echo, toChannelTagged_eq]
  obtain ⟨paces, hrev⟩ := repaced_revealMember chat uid (toAsciiLower target)
  rw [hrev]
  split <;> rfl

theorem sent_autoAccept (conf : ChatConf) (uid tuid : Uid) (chat : Chat) :
    (chat.autoAccept conf uid tuid).server.sent = chat.server.sent := by
  unfold autoAccept
  simp only
  split
  · split <;> rfl
  · rfl

theorem server_tellAway (uid tuid : Uid) (kind : MsgKind) (target : Str) (chat : Chat) :
    (chat.tellAway uid tuid kind target).server = chat.server := by
  unfold tellAway
  split
  · apply server_refuse
  · rfl

theorem sent_deliverUser :
    (chat.deliverUser env conf uid tuid mask kind target text).server.sent =
      chat.server.sent := by
  unfold deliverUser
  split
  · rw [server_refuse]
  · split
    · simp only [announceCaller, server_refuse]
      rfl
    · simp only [sendToUser, sent_autoAccept]
      split
      · rw [server_echo]
        rfl
      · rw [server_tellAway, server_echo]
        rfl

theorem sends_deliverRemote (user : User) (uuid : Str) (via : Uid) :
    Sends text chat (chat.deliverRemote uid user uuid via kind target text) := by
  have hlk : Sends text chat
      { chat with server := chat.server.linkOut via (.message user.uuid kind.word uuid text) } := by
    constructor
    intro link out hout _
    simp only [Server.linkOut_sent] at hout
    split at hout
    · rcases mem_append.mp hout with hold | hnew
      · exact .inl hold
      · simp only [mem_singleton, Prod.mk.injEq] at hnew
        obtain ⟨-, rfl⟩ := hnew
        exact .inr rfl
    · exact .inl hout
  unfold deliverRemote
  simp only
  split
  · exact hlk.trans (.of_sent rfl)
  · exact hlk

theorem isTalk_of_spoken (hspk : line.spoken.isSome) : line.isTalk = true := by
  cases line with
  | message copy mask kind target text => rfl
  | tagmsg copy mask target => rfl
  | numeric code text => cases hspk

structure Utters (body : Str) (before after : Chat) : Prop where
  mem_shown : ∀ reader line, (reader, line) ∈ after.shown → line.spoken.isSome →
    (reader, line) ∈ before.shown ∨ line.spoken = some body
  sends : Sends body before after

theorem Utters.of_sameTalk (hs : SameTalk before after) (hsends : Sends body before after) :
    Utters body before after where
  mem_shown reader line hsh hspk :=
    .inl ((hs.mem_iff reader line (isTalk_of_spoken hspk)).mp hsh)
  sends := hsends

theorem deliverChannel_utters (hchan : target.head? = some '#') :
    ∃ body, Renders env conf uid kind target text chat.server body ∧
      Utters body chat (chat.deliverChannel env conf uid mask kind target text) := by
  rcases channelGates_cases env conf uid kind target text chat with
    ⟨refused, heq, hheld⟩ | ⟨passed, body, heq, hpaced, hcnt⟩
  · refine ⟨text, .inl rfl, ?_⟩
    rw [deliverChannel, heq]
    exact .of_sameTalk hheld.sameTalk hheld.sends
  · refine ⟨body, .inr ⟨hchan, hcnt⟩, fun reader line hsh hspk => ?_, ?_⟩
    · rw [mem_deliverChannel (isTalk_of_spoken hspk)] at hsh
      rcases hsh with hold | ⟨other, body', hpass, hnew⟩
      · exact .inl hold
      · cases heq.symm.trans hpass
        rcases hnew with ⟨rfl, -⟩ | ⟨rfl, -⟩ <;> exact .inr rfl
    · rw [deliverChannel, heq]
      exact (Sends.of_sent (by rw [hpaced.server])).trans (sends_sendToChannel passed)

theorem deliverUser_utters :
    Utters text chat (chat.deliverUser env conf uid tuid mask kind target text) where
  mem_shown reader line hsh hspk := by
    rw [mem_deliverUser (isTalk_of_spoken hspk)] at hsh
    rcases hsh with hold | ⟨-, -, ⟨rfl, -⟩ | ⟨rfl, -⟩⟩
    · exact .inl hold
    · exact .inr rfl
    · exact .inr rfl
  sends := .of_sent (sent_deliverUser chat)

theorem deliverRemote_utters (user : User) (uuid : Str) (via : Uid) :
    Utters text chat (chat.deliverRemote uid user uuid via kind target text) where
  mem_shown reader line hsh _ := by
    rcases mem_deliverRemote hsh with hold | ⟨rfl, -⟩
    · exact .inl hold
    · exact .inr rfl
  sends := sends_deliverRemote chat user uuid via

theorem utters_refuse (refusal : Refusal) : Utters body chat (chat.refuse uid kind refusal) :=
  .of_sameTalk (sameTalk_refuse ..) (.of_sent (by rw [server_refuse]))

end

theorem Utters.of_touch (hutters : Utters body (chat.touch uid) after) : Utters body chat after :=
  ⟨hutters.mem_shown, ⟨hutters.sends.mem_sent⟩⟩

theorem deliver_utters (env : Env) (conf : ChatConf) (uid : Uid) (kind : MsgKind)
    (target text : Str) (rest : List Str) (chat : Chat) :
    ∃ body, Renders env conf uid kind target text chat.server body ∧
      Utters body chat (chat.deliver env conf uid kind (target :: text :: rest)) := by
  by_cases htext : text = []
  · subst htext
    exact ⟨[], .inl rfl, utters_refuse ..⟩
  · cases hu : chat.server.users.lookup uid with
    | none =>
      rw [deliver_absent chat htext hu]
      exact ⟨text, .inl rfl, .of_sameTalk (.of_shown rfl) (.of_sent rfl)⟩
    | some user =>
      rw [deliver_cons chat htext hu, forward]
      split
      · rename_i hchan
        obtain ⟨body, hrenders, hutters⟩ := deliverChannel_utters (chat.touch uid) hchan
        exact ⟨body, hrenders, hutters.of_touch⟩
      · refine ⟨text, .inl rfl, ?_⟩
        split
        · exact (deliverUser_utters (chat.touch uid)).of_touch
        · split
          · exact (deliverRemote_utters (chat.touch uid) ..).of_touch
          · exact (utters_refuse (chat.touch uid) _).of_touch

theorem spoken_of_utters (hutters : Utters body chat.quiet after) :
    after.spoken = [] ∨ after.spoken = [body] := by
  have hall : ∀ other ∈ (after.shown.filterMap fun entry => entry.2.spoken) ++
      after.server.sent.filterMap fun entry => entry.2.spoken, other = body := by
    intro other ho
    rcases mem_append.mp ho with ho | ho
    · obtain ⟨⟨reader, line⟩, hline, hspk⟩ := mem_filterMap.mp ho
      rcases hutters.mem_shown reader line hline (by rw [hspk]; rfl) with hold | hbody
      · cases hold
      · exact Option.some.inj (hspk.symm.trans hbody)
    · obtain ⟨⟨link, out⟩, hout, hspk⟩ := mem_filterMap.mp ho
      rcases hutters.sends.mem_sent link out hout (by rw [hspk]; rfl) with hold | hbody
      · cases hold
      · exact Option.some.inj (hspk.symm.trans hbody)
  rw [spoken, eq_replicate_of_mem hall]
  generalize length _ = count
  cases count with
  | zero => exact .inl rfl
  | succ count => exact .inr (replicate_dedup (Nat.succ_ne_zero count))

/-- The modes of the channel leave the text as it is, or stop it. -/
def keeps (conf : ChatConf) (uid : Uid) (target text : Str) (server : Server) : Bool :=
  (server.rewritten conf uid (toAsciiLower target) text).all (· = text)

theorem Renders.eq_of_keeps {server : Server}
    (hrenders : Renders env conf uid kind target text server body)
    (hkeeps : target.head? = some '#' → keeps conf uid target text server = true) : body = text := by
  rcases hrenders with hs | ⟨hchan, hcnt⟩
  · exact hs
  · have hkept := hkeeps hchan
    rw [keeps, (contentCheck_eq_ok hcnt).1] at hkept
    exact of_decide_eq_true hkept

def closesFilled (uid : Uid) (params : List Str) (chat : Chat) : Bool :=
  match params with
  | ('-' :: bref) :: _ =>
    (chat.batchUnder uid bref).any fun batch => !batch.overflowed && batch.parts ≠ []
  | _ => false

end Chat

/-! ## One line -/

namespace Daemon

variable {σ : Type} {daemon : Daemon σ} {core : Core σ} {uid : Uid} {cmd target text : Str}
  {params : List Str} {registered : Bool}

theorem say_events (kind : MsgKind) (rest : List Str)
    (hkeeps : target.head? = some '#' →
      keeps daemon.conf uid target text core.chat.server = true) :
    (daemon.say uid kind (target :: text :: rest) core).2 = [] ∨
      (daemon.say uid kind (target :: text :: rest) core).2 = [.released (uid, target, text)] := by
  obtain ⟨body, hrenders, hutters⟩ := deliver_utters daemon.env daemon.conf uid kind target text
    rest core.chat.quiet
  obtain rfl := hrenders.eq_of_keeps hkeeps
  rcases spoken_of_utters hutters with hspk | hspk
  · left
    simp [say, hspk]
  · right
    simp [say, hspk]

theorem say_events_short (kind : MsgKind) (hsho : params.length < 2) :
    (daemon.say uid kind params core).2 = [] := by
  have href : ∃ refusal, core.chat.quiet.deliver daemon.env daemon.conf uid kind params =
      core.chat.quiet.refuse uid kind refusal := by
    match params, hsho with
    | [], _ => exact ⟨_, rfl⟩
    | [_], _ => exact ⟨_, rfl⟩
  obtain ⟨refusal, href⟩ := href
  have hspk : (core.chat.quiet.refuse uid kind refusal).spoken = [] := by
    cases kind with
    | privmsg =>
      by_cases hu : uid ∈ core.chat.server.users <;>
        simp [spoken, refuse, numeric, emitTo, quiet, Shown.spoken, hu]
    | notice => rfl
  simp [say, href, hspk]

theorem find_name {command : Registered σ} (hfind : daemon.find cmd = some command) :
    command.name = cmd ∧ command ∈ daemon.commands :=
  ⟨by simpa using find?_some hfind, mem_of_find?_eq_some hfind⟩

/-- Only PRIVMSG and NOTICE deliver what they are given, only BATCH what was put aside. -/
theorem find_handler {command : Registered σ} (hfind : daemon.find cmd = some command) :
    (∃ kind, command.handler = .say kind ∧ isMessage cmd = true) ∨
    (command.handler = .batch ∧ cmd = "BATCH".toList) ∨
    ∃ handle, command.handler = .silent handle := by
  obtain ⟨rfl, hmem⟩ := find_name hfind
  simp only [commands, mem_append, mem_cons, not_mem_nil, or_false, mem_map] at hmem
  rcases hmem with (rfl | rfl | rfl) | ⟨silent, -, rfl⟩
  · exact .inl ⟨.privmsg, rfl, rfl⟩
  · exact .inl ⟨.notice, rfl, rfl⟩
  · exact .inr (.inl ⟨rfl, rfl⟩)
  · exact .inr (.inr ⟨_, rfl⟩)

theorem batch_events (hclose : core.chat.closesFilled uid params = false) :
    (daemon.batch uid params core).2 = [] := by
  unfold batch
  split
  · split <;> rfl
  · rename_i bref rest
    simp only [closesFilled] at hclose
    unfold closeBatch
    cases hbatch : core.chat.batchUnder uid bref with
    | none => rfl
    | some batch =>
      rw [hbatch] at hclose
      cases hoverflowed : batch.overflowed with
      | true => simp [hoverflowed]
      | false =>
        have hparts : batch.parts = [] := by simpa [hoverflowed] using hclose
        simp [hoverflowed, MlineBatch.lines, hparts, sayAll]
  · rfl

/-- The state the modules leave to the handler of a command. -/
def asked (daemon : Daemon σ) (uid : Uid) (cmd : Str) (params : List Str) (core : Core σ) :
    Core σ :=
  match isMessage cmd, params with
  | true, target :: text :: _ => (daemon.preMessage uid target text core).1
  | _, _ => core

/-- A line that no way around the gates is open to, and that no mode rewrites. -/
structure Straight (daemon : Daemon σ) (uid : Uid) (cmd : Str) (params : List Str)
    (registered : Bool) (chat : Chat) : Prop where
  keeps : isMessage cmd = true → ∀ target text rest, params = target :: text :: rest →
    target.head? = some '#' → keeps daemon.conf uid target text chat.server = true
  noBatch : cmd = "BATCH".toList → chat.closesFilled uid params = false
  noAlias : registered = true → daemon.find cmd = none → params ≠ [] →
    daemon.aliasTarget cmd = none

theorem unknown_events (hpar : params ≠ [] → daemon.aliasTarget cmd = none) :
    (daemon.unknown uid cmd params core).2 = [] := by
  unfold unknown
  split
  · rfl
  · split
    · rename_i target htgt
      rw [if_pos]
      by_contra hne
      rw [hpar hne] at htgt
      cases htgt
    · rfl

abbrev Vetted (daemon : Daemon σ) : List GateEvent → Prop :=
  Screen.Vetted ModResult.denies daemon.modules.length

theorem vetted_nil : daemon.Vetted [] := Screen.vetted_of_no_release (by simp)

theorem preMessage_passed (hpass : (daemon.preMessage uid target text core).2.2 = true) :
    (daemon.preMessage uid target text core).2.1.length = daemon.modules.length ∧
      ∀ verdict ∈ (daemon.preMessage uid target text core).2.1, verdict.denies = false := by
  obtain ⟨hlen, hverdicts⟩ := Screen.ask_passed hpass
  rw [length_map] at hlen
  exact ⟨hlen, hverdicts⟩

section

variable (hstr : daemon.Straight uid cmd params registered core.chat)

include hstr

theorem perform_events :
    (daemon.perform uid cmd params registered core).2 = [] ∨
      ∃ target text rest, isMessage cmd = true ∧ params = target :: text :: rest ∧
        (daemon.perform uid cmd params registered core).2 = [.released (uid, target, text)] := by
  unfold perform
  cases hfind : daemon.find cmd with
  | none =>
    left
    simp only
    split
    · rename_i hreg
      exact unknown_events (hstr.noAlias hreg hfind)
    · rfl
  | some command =>
    simp only
    split
    · exact .inl rfl
    · split
      · exact .inl rfl
      · rcases find_handler hfind with ⟨kind, hhan, hmsg⟩ | ⟨hhan, hbatch⟩ |
          ⟨handle, hhan⟩
        · rw [hhan]
          match params, hstr with
          | [], _ => exact .inl (say_events_short kind (by simp))
          | [_], _ => exact .inl (say_events_short kind (by simp))
          | target :: text :: rest, hstr =>
            refine (say_events kind rest
              (hstr.keeps hmsg target text rest rfl)).imp_right fun hsaid => ?_
            exact ⟨target, text, rest, hmsg, rfl, hsaid⟩
        · rw [hhan]
          exact .inl (batch_events (hstr.noBatch hbatch))
        · rw [hhan]
          exact .inl rfl

end

theorem offer_vetted
    (hstr : daemon.Straight uid cmd params registered
      (daemon.asked uid cmd params core).chat) :
    daemon.Vetted (daemon.offer uid cmd params registered core).2 := by
  unfold offer
  split
  · rename_i target text rest hmsg
    simp only [asked, hmsg] at hstr
    simp only
    split
    · rename_i hpass
      obtain ⟨hlen, hverdicts⟩ := preMessage_passed hpass
      rcases perform_events hstr with hnone | ⟨_, _, _, -, heq, hone⟩
      · rw [hnone, append_nil]
        exact Screen.vetted_of_no_release Screen.released_not_mem_offers
      · cases heq
        rw [hone]
        exact Screen.vetted_released hlen hverdicts
    · exact Screen.vetted_of_no_release Screen.released_not_mem_offers
  · rename_i hshape
    rw [asked.eq_2 _ _ _ _ _ hshape] at hstr
    rcases perform_events hstr with hnone | ⟨target, text, rest, hmsg, rfl, -⟩
    · rw [hnone]
      exact vetted_nil
    · exact (hshape target text rest hmsg rfl).elim

theorem dispatch_vetted {message : Message}
    (hstr : daemon.Straight uid (daemon.resolve registered message.command) message.params
      registered (daemon.asked uid (daemon.resolve registered message.command) message.params
        (daemon.preCommand uid (daemon.resolve registered message.command) message.params
          core).1).chat) :
    daemon.Vetted (daemon.dispatch uid message registered core).2 := by
  unfold dispatch
  simp only
  split
  · exact vetted_nil
  · split
    · exact vetted_nil
    · split
      · exact offer_vetted hstr
      · exact vetted_nil

/-! ## Runs -/

def StraightEvent (daemon : Daemon σ) (core : Core σ) : Event σ → Prop
  | .line uid line => ∀ message, parse line = some message →
      let registered := core.chat.server.isEnrolled uid
      let cmd := daemon.resolve registered message.command
      daemon.Straight uid cmd message.params registered
        (daemon.asked uid cmd message.params
          (daemon.preCommand uid cmd message.params core).1).chat
  | .meanwhile _ => True

def StraightRun (daemon : Daemon σ) : Core σ → List (Event σ) → Prop
  | _, [] => True
  | core, event :: events =>
    daemon.StraightEvent core event ∧ daemon.StraightRun (daemon.step core event).1 events

theorem step_vetted {event : Event σ} (hstr : daemon.StraightEvent core event) :
    daemon.Vetted (daemon.step core event).2 := by
  cases event with
  | meanwhile next => exact vetted_nil
  | line uid line =>
    simp only [step, onLine]
    cases hp : parse line with
    | none => exact vetted_nil
    | some message => exact dispatch_vetted (hstr message hp)

/--
In every run of client lines none of which closes a filled batch, uses an alias
or is rewritten by a channel mode, a text is delivered only right after every
module has been asked about it, with its target, and none has denied it.
-/
theorem trail_vetted (daemon : Daemon σ) (core : Core σ) (events : List (Event σ))
    (hstr : daemon.StraightRun core events) : daemon.Vetted (daemon.trail core events) := by
  induction events generalizing core with
  | nil => exact vetted_nil
  | cons event events ih =>
    exact (step_vetted hstr.1).append (ih _ hstr.2)

def wordFilter (word : Str) : Module Unit where
  onPreMessage _ _ text core := (core, if text = word then .deny else .passthru)

def filtering : Daemon Unit where
  env := .plain
  conf := {}
  modules := [wordFilter "bad"]

def talker (uuid nick : Str) : User where
  uuid := uuid
  nick := nick
  ident := "id"
  host := "h.test"
  signon := 1
  nickTs := 1
  ip := "10.0.0.1"
  registered := true

def talkers : Core Unit where
  chat :=
    { server :=
        { conf := { name := "a.test", sid := "1AA" }
          clock := 100
          users := AList.insert 1 (talker "1AAAAAAAA" "ann")
            (AList.insert 2 (talker "1AAAAAAAB" "bob") ∅)
          nickIndex := AList.insert "ann".toList 1 (AList.insert "bob".toList 2 ∅) } }
  ext := ()

theorem trail_vetted_privmsg :
    filtering.trail talkers [.line 1 "PRIVMSG bob :hi"] =
      [.offered 0 (1, "bob", "hi") .passthru, .released (1, "bob", "hi")] ∧
    filtering.Vetted (filtering.trail talkers [.line 1 "PRIVMSG bob :hi"]) := by
  refine ⟨by decide +kernel, trail_vetted _ _ _ ⟨?_, trivial⟩⟩
  intro message hp
  have hmsg : message = { source := none, command := "PRIVMSG", params := ["bob", "hi"] } :=
    Option.some.inj (hp.symm.trans (by decide +kernel))
  subst hmsg
  refine ⟨?_, by decide +kernel, by decide +kernel⟩
  rintro - target text rest heq hchan
  cases heq
  cases hchan

theorem batch_not_vetted :
    ¬ filtering.Vetted (filtering.trail talkers
      [.line 1 "BATCH +1 draft/multiline bob", .line 1 "@batch=1 PRIVMSG bob :bad",
        .line 1 "BATCH -1"]) := by
  have htrl : filtering.trail talkers
      [.line 1 "BATCH +1 draft/multiline bob", .line 1 "@batch=1 PRIVMSG bob :bad",
        .line 1 "BATCH -1"] = [.released (1, "bob", "bad")] := by
    decide +kernel
  intro hvet
  obtain ⟨verdicts, hlen, -, hoffers⟩ := hvet [] _ [] rfl
  obtain ⟨verdict, rfl⟩ := length_eq_one_iff.mp hlen
  cases suffix_nil.mp hoffers

end Daemon

end EchoIrcd
