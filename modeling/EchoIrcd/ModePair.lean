import EchoIrcd.Delivery
import EchoIrcd.ModeRelay

/-!
# A mode change on two servers

A client changes the modes of a channel on one server, and the other reads the
`FMODE` that this one writes to the link between them.
-/

namespace EchoIrcd

open Str List

namespace Server

variable {rules : ModeRules} {server : Server} {uid : Uid} {chan key : Str}

/-! ## What the command does -/

theorem userChanMode_keepsSeats {mode : ChanMode} {adding : Bool} {param echo : Option Str}
    {change : Channel → Channel}
    (happ : server.userChanMode rules uid chan key mode adding param = some (change, echo)) :
    KeepsSeats change := by
  cases mode with
  | status letter rank =>
    obtain ⟨nick, target, -, -, -, rfl⟩ := statusBy_cases happ
    exact keepsSeats_modifyMember _ _
  | list kind =>
    obtain ⟨mask, channel, -, -, -, ⟨-, -, setter, rfl⟩ | ⟨-, rfl⟩⟩ := listBy_cases happ
    · exact keepsSeats_setList _ _
    · exact keepsSeats_setList _ _
  | _ =>
    exact applyChanMode_keepsSeats (applyChanMode_of_userChanMode (by simp) (by simp) happ)

theorem KeepsSeats.comp {first second : Channel → Channel} (hfst : KeepsSeats first)
    (hsec : KeepsSeats second) : KeepsSeats (second ∘ first) where
  name channel := (hsec.name _).trans (hfst.name channel)
  created channel := (hsec.created _).trans (hfst.created channel)
  members channel uid := (hsec.members _ uid).trans (hfst.members channel uid)
  rmembers channel uuid := (hsec.rmembers _ uuid).trans (hfst.rmembers channel uuid)

theorem userModeLoop_keepsSeats (rules : ModeRules) (server : Server) (uid : Uid)
    (chan modes : Str) (args : List Str) :
    ∃ change, KeepsSeats change ∧
      (server.userModeLoop rules uid chan modes args).server.channels.lookup (toAsciiLower chan) =
        (server.channels.lookup (toAsciiLower chan)).map change := by
  have hmade := server.made_userModeLoop rules uid chan modes args
  generalize (server.userModeLoop rules uid chan modes args).server = after,
    (server.userModeLoop rules uid chan modes args).changes = changes at hmade ⊢
  induction hmade with
  | nil => exact ⟨id, ⟨fun _ => rfl, fun _ => rfl, fun _ _ => .rfl, fun _ _ => .rfl⟩, by simp⟩
  | cons _ happ _ ih =>
    obtain ⟨change, hchg, hlook⟩ := ih
    refine ⟨change ∘ _, (userChanMode_keepsSeats happ).comp hchg, ?_⟩
    simp [hlook]

theorem changes_of_pureListQuery {modes : Str} {args : List Str}
    (hpure : server.pureListQuery modes args = true) :
    (server.userModeLoop rules uid chan modes args).changes = [] := by
  obtain ⟨hargs, hlets⟩ : args = [] ∧ ∀ letter ∈ modes, (letter = '+' ∨ letter = '-') ∨
      (chanMode server.conf.prefixes letter).any ChanMode.isList = true := by
    simpa [pureListQuery] using hpure
  have hloop : server.userModeLoop rules uid chan modes args = { server := server, args := [] } := by
    refine foldlRecOn (motive := (· = _)) _ _ (by rw [hargs]) ?_
    rintro _ rfl entry hent
    obtain ⟨hmem, hplus, hminus⟩ := mem_signedLetters (mem_of_mem_take hent)
    have hlist := (hlets entry.2 hmem).resolve_left (by simp [hplus, hminus])
    cases hmode : chanMode server.conf.prefixes entry.2 with
    | none => simp [hmode] at hlist
    | some mode =>
      cases mode with
      | list kind => simp [userModeStep, hmode, ChanMode.wantsParam, userChanMode, listBy]
      | _ => simp [hmode, ChanMode.isList] at hlist
  rw [hloop]

theorem mem_of_rank {here : Channel}
    (hhere : server.channels.lookup (toAsciiLower chan) = some here)
    (hrank : ¬ server.rank uid (toAsciiLower chan) < rankHalfop) : uid ∈ here.members := by
  simp only [rank, hhere, Option.bind_some] at hrank
  split at hrank
  · rename_i member hmb
    exact Table.mem_of_lookup hmb
  · exact absurd (by decide) hrank

theorem applyMode_cases {here : Channel} {user : User} (hchan : chan.head? = some '#')
    (hhere : server.channels.lookup (toAsciiLower chan) = some here)
    (hkeep : here.keepAlive = true) (hu : server.users.lookup uid = some user)
    (rules : ModeRules) (modes : Str) (args : List Str) :
    server.applyMode rules uid (chan :: modes :: args) = server ∨
      uid ∈ here.members ∧ (server.userModeLoop rules uid chan modes args).changes ≠ [] ∧
      server.applyMode rules uid (chan :: modes :: args) =
        let loop := server.userModeLoop rules uid chan modes args
        loop.server.propagateChanMode user.uuid chan
          (emit none (loop.changes.map ModeChange.entry)) (ModeChange.echoes loop.changes) := by
  have hr := reached_userModeLoop rules server uid chan modes args
  have hmem : toAsciiLower chan ∈ server.channels := Table.mem_of_lookup hhere
  have hs : server.cull (toAsciiLower chan) = server := by
    simp [cull, hhere, hkeep]
  simp only [applyMode, hchan, hmem, true_and, if_true]
  split
  · exact .inl rfl
  · rename_i hgate
    by_cases hidle : (server.userModeLoop rules uid chan modes args).changes = []
    · left
      rw [relayChanges, if_pos hidle, hr.idle hidle, hs]
    · -- whoever changes a mode is a half-operator, and so a member
      have hse : uid ∈ here.members := by
        refine mem_of_rank hhere fun hlow => hgate ⟨?_, hlow⟩
        cases hpure : server.pureListQuery modes args with
        | false => rfl
        | true => exact absurd (changes_of_pureListQuery hpure) hidle
      refine .inr ⟨hse, hidle, ?_⟩
      obtain ⟨channels, hsrv⟩ := hr.server_eq
      obtain ⟨change, hseats, hlook⟩ := userModeLoop_keepsSeats rules server uid chan modes args
      have hstill : (server.userModeLoop rules uid chan modes args).server.users.lookup uid =
          some user := by
        rw [hsrv]
        exact hu
      have hlive : (change here).keepAlive = true :=
        Channel.keepAlive_iff.mpr (.inl ⟨uid, (hseats.members here uid).mpr hse⟩)
      rw [hhere, Option.map_some] at hlook
      simp only [relayChanges, if_neg hidle, hstill, cull, propagateChanMode, propagate_channels,
        hlook, hlive, if_true]

/-! ## Reading the change -/

def newLines (peer : Uid) (before after : Server) : List Out :=
  (after.linesTo peer).drop (before.linesTo peer).length

def hear (env : Env) (port : Uid) (outs : List Out) (server : Server) : Server :=
  outs.foldl (fun server out => server.onLine env port out) server

@[simp] theorem newLines_self (peer : Uid) (server : Server) : newLines peer server server = [] := by
  simp [newLines]

theorem newLines_propagate {peer : Uid} {before after : Server} (hsent : after.sent = before.sent)
    (hpeer : after.isRegistered peer = true) (out : Out) :
    newLines peer before (after.propagate out none) = [out] := by
  rw [newLines, linesTo_propagate, linesTo_congr hsent, drop_left]
  simp [hpeer]

def fmodeMessage (source chan : Str) (ts : Timestamp) (letters : Str) (params : List Str) :
    Message where
  source := some source
  command := "FMODE"
  params := chan :: renderU64 ts :: letters :: params

theorem onLine_fmode_read {port : Uid} {source letters : Str} {ts : Timestamp}
    {params : List Str} {there : Channel} {out : Out}
    (hread : out.receive = some (fmodeMessage source chan ts letters params))
    (hreg : server.isRegistered port = true)
    (hbeh : server.sourceBehind source port = true) (hchan : chan.head? = some '#')
    (hth : server.channels.lookup (toAsciiLower chan) = some there)
    (hts : ¬ there.created < ts) (env : Env) :
    ∃ relay, server.onLine env port out =
      ((signedLetters true letters).foldl (linkModeStep source chan (toAsciiLower chan))
        (server.touchLink port, params)).1.propagate relay (some port) := by
  have hfre : staleFmode (fmodeMessage source chan ts letters params) there = false := by
    simp [staleFmode, fmodeMessage, parseU64_renderU64, hts]
  have hf : (server.touchLink port).channels.lookup (toAsciiLower chan) = some there := hth
  have hkn : (server.touchLink port).sourceBehind source port = true := hbeh
  refine ⟨.forward (fmodeMessage source chan ts letters params), ?_⟩
  rw [onLine_handle hreg hread (Verb.ofWord_word .fmode) (by decide)]
  simp only [handle, linkModeRecv, fmodeMessage, hkn, hchan, hf]
  rw [fmodeMessage] at hfre
  simp only [hfre]
  rfl

section Receive

variable {source letters : Str} (hsrc : IsToken source) (hchan : IsChanName chan)
  (hlets : IsToken letters) (ts : Timestamp)

include hsrc hchan hlets

theorem receive_fmode {params : List Str} (hpar : ∀ param ∈ params, IsToken param) :
    (Out.fmode source chan ts letters params).receive =
      some (fmodeMessage source chan ts letters params) := by
  have htoks : ∀ param ∈ [chan, renderU64 ts, letters] ++ params, IsToken param := by
    simp only [cons_append, nil_append, forall_mem_cons]
    exact ⟨hchan.isToken, isToken_renderU64 ts, hlets, hpar⟩
  have hcmd : IsCommand ("FMODE" : Str) := by decide
  rw [@Out.receive_tokens (.fmode source chan ts letters params) source rfl rfl hsrc.2.1
    hcmd htoks]
  simp only [Out.line, Option.toList_none, append_nil]
  rfl

theorem receive_fmode_last (param : Str) :
    (Out.fmode source chan ts letters [param]).receive =
      some (fmodeMessage source chan ts letters (parseParams (trimStart param))) := by
  have htoks : ∀ param ∈ [chan, renderU64 ts, letters], IsToken param := by
    simp only [forall_mem_cons, not_mem_nil, false_implies, implies_true, and_true]
    exact ⟨hchan.isToken, isToken_renderU64 ts, hlets⟩
  have hcmd : IsCommand ("FMODE" : Str) := by decide
  have hok : SourceOk (some source) := by
    rintro _ ⟨⟩
    exact hsrc.2.1
  exact @parse_render_last (Out.fmode source chan ts letters [param]).line
    [chan, renderU64 ts, letters] param rfl rfl hok hcmd htoks

end Receive

end Server

/-! ## Linked servers -/

/-- Two servers with a link between them know a channel and whoever is on one of them. -/
structure Linked (peer port : Uid) (chan : Str) (near far : Server) (here there : Channel) :
    Prop where
  name : IsChanName chan
  here_eq : near.channels.lookup (toAsciiLower chan) = some here
  there_eq : far.channels.lookup (toAsciiLower chan) = some there
  alive : here.keepAlive = true
  created : here.created = there.created
  peer_up : near.isRegistered peer = true
  port_up : far.isRegistered port = true
  known : ∀ uid user, near.users.lookup uid = some user → user.registered = true →
    IsToken user.uuid ∧ far.sourceBehind user.uuid port = true

end EchoIrcd
