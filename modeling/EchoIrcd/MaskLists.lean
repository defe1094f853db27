import EchoIrcd.ModeArrival
import EchoIrcd.Pair

/-!
# The lists of masks on two servers

A mask of `b`, `e` or `I` is added or removed by a MODE command or by `TBAN` of a
client on either of two servers, and the other one reads the `FMODE`.  The
server of the client compares masks without regard to case; the reader compares
their texts.
-/

namespace EchoIrcd

open Str Server Channel List

variable {here there : Channel} {change change' : List Ban → List Ban} {user : User}
  {bans : List Ban} {command : MaskCommand} {far near : Server} {channels : Side → Channel}
  {srv : Side → Server} {setter text : Str} {now : Timestamp} {peer port : Uid}

def Channel.masks (kind : ListKind) (channel : Channel) : List Str :=
  (channel.lists kind).map Ban.mask

@[simp] theorem masks_setList_self (kind : ListKind) (change : List Ban → List Ban)
    (channel : Channel) :
    (channel.setList kind change).masks kind = (change (channel.lists kind)).map Ban.mask := by
  simp [masks, setList]

@[simp] theorem members_setList (kind : ListKind) (change : List Ban → List Ban)
    (channel : Channel) : (channel.setList kind change).members = channel.members := rfl

theorem masks_setList_ne {kind other : ListKind} (hne : other ≠ kind)
    (change : List Ban → List Ban) (channel : Channel) :
    (channel.setList kind change).masks other = channel.masks other := by
  simp [masks, setList, hne]

def SameMasks (here there : Channel) : Prop :=
  ∀ kind : ListKind, kind.normalizes = true → ∀ mask, mask ∈ here.masks kind ↔
    mask ∈ there.masks kind

/-! ## The commands -/

/-- A command of a client that adds or removes one mask. -/
inductive MaskCommand where
  | mode (uid : Uid) (adding : Bool) (kind : ListKind) (mask : Str)
  | tban (uid : Uid) (duration mask : Str)

def signed (adding : Bool) (letter : Char) : Str := [if adding then '+' else '-', letter]

namespace MaskCommand

def uid : MaskCommand → Uid
  | mode uid _ _ _ => uid
  | tban uid _ _ => uid

def kind : MaskCommand → ListKind
  | mode _ _ kind _ => kind
  | tban _ _ _ => .ban

def adding : MaskCommand → Bool
  | mode _ adding _ _ => adding
  | tban _ _ _ => true

def mask : MaskCommand → Str
  | mode _ _ kind mask => kind.normalize mask
  | tban _ _ mask => normalizeBanMask mask

def run (rules : ModeRules) (chan : Str) : MaskCommand → Server → Server
  | mode uid adding kind mask => fun server =>
    server.applyMode rules uid [chan, signed adding kind.letter, mask]
  | tban uid duration mask => fun server => server.tban uid [chan, duration, mask]

/-- What a command makes of a list. -/
structure Edits (command : MaskCommand) (change : List Ban → List Ban) (bans : List Ban) :
    Prop where
  add : command.adding = true → command.mask ∉ bans.map Ban.mask ∧
    (change bans).map Ban.mask = bans.map Ban.mask ++ [command.mask]
  remove : command.adding = false →
    change bans = bans.filter fun ban => !eqIgnoreAsciiCase ban.mask command.mask

end MaskCommand

open MaskCommand

theorem chanMode_listLetter (config : PrefixConfig) (kind : ListKind) :
    chanMode config kind.letter = some (.list kind) := by
  cases kind <;> rfl

namespace Server

variable {rules : ModeRules} {server : Server} {uid : Uid} {chan : Str} {here : Channel}

theorem userModeLoop_mask (rules : ModeRules) (server : Server) (uid : Uid) (chan : Str)
    (adding : Bool) (kind : ListKind) (mask : Str) :
    server.userModeLoop rules uid chan (signed adding kind.letter) [mask] =
      match server.listBy rules uid (toAsciiLower chan) kind adding (some mask) with
      | none => { server := server, args := [] }
      | some (change, echo) =>
        { server := server.changeChannel (toAsciiLower chan) change
          args := []
          changes := [⟨adding, kind.letter, echo⟩] } := by
  have hlets : signedLetters true (signed adding kind.letter) = [(adding, kind.letter)] := by
    cases adding <;> cases kind <;> rfl
  have htake : [(adding, kind.letter)].take (max rules.modes 1) = [(adding, kind.letter)] :=
    take_of_length_le (by simp)
  simp only [userModeLoop, hlets, htake, foldl_cons, foldl_nil, userModeStep,
    chanMode_listLetter, ChanMode.wantsParam, if_true, head?_cons, tail_cons, userChanMode]
  cases server.listBy rules uid (toAsciiLower chan) kind adding (some mask) with
  | none => rfl
  | some applied => rfl

end Server

namespace MaskCommand

variable {rules : ModeRules} {server : Server} {chan : Str} {here : Channel}

def Takes (rules : ModeRules) (chan : Str) (server : Server) (here : Channel)
    (command : MaskCommand) : Prop :=
  command.run rules chan server = server ∨
    ∃ uid user change, server.users.lookup uid = some user ∧ user.registered = true ∧
      command.Edits change (here.lists command.kind) ∧
      command.run rules chan server =
        (server.changeChannel (toAsciiLower chan)
          (setList command.kind change)).propagateChanMode user.uuid chan
            (signed command.adding command.kind.letter) [command.mask]

section

variable (hhere : server.channels.lookup (toAsciiLower chan) = some here)

include hhere

theorem takes_mode (uid : Uid) (adding : Bool) (kind : ListKind) (text : Str)
    (hchan : chan.head? = some '#') (hal : here.keepAlive = true)
    (hu : server.users.lookup uid = some user) (hreg : user.registered = true) :
    (mode uid adding kind text).Takes rules chan server here := by
  rcases applyMode_cases hchan hhere hal hu rules (signed adding kind.letter) [text]
    with hs | ⟨-, hchgs, happl⟩
  · exact .inl hs
  rw [userModeLoop_mask] at hchgs happl
  cases hlist : server.listBy rules uid (toAsciiLower chan) kind adding (some text) with
  | none =>
    rw [hlist] at hchgs
    exact absurd rfl hchgs
  | some applied =>
    obtain ⟨edit, echo⟩ := applied
    rw [hlist] at happl
    obtain ⟨mask, channel, hmask, hchn, rfl, hedit⟩ := listBy_cases hlist
    cases hmask
    cases hhere.symm.trans hchn
    refine .inr ⟨uid, user, ?_⟩
    have hsaid : (mode uid adding kind text).run rules chan server =
        (server.changeChannel (toAsciiLower chan) edit).propagateChanMode user.uuid chan
          (signed adding kind.letter) [kind.normalize text] := by
      refine happl.trans ?_
      rfl
    rcases hedit with ⟨rfl, hfree, setter, rfl⟩ | ⟨rfl, rfl⟩
    · refine ⟨_, hu, hreg, ⟨fun _ => ⟨?_, by simp [mask]⟩, by simp [adding]⟩, hsaid⟩
      intro hmem
      obtain ⟨ban, hban, hs⟩ := mem_map.mp hmem
      have ho := hfree ban hban
      rw [hs] at ho
      simp [mask, eqIgnoreAsciiCase] at ho
    · exact ⟨_, hu, hreg, ⟨by simp [adding], fun _ => rfl⟩, hsaid⟩

theorem takes_tban (uid : Uid) (duration text : Str)
    (hu : server.users.lookup uid = some user) (hreg : user.registered = true) :
    (tban uid duration text).Takes rules chan server here := by
  simp only [Takes, run, Server.tban, hhere, hu]
  split
  · exact .inl rfl
  · split
    · exact .inl rfl
    · split
      · exact .inl rfl
      · rename_i hnew
        refine .inr ⟨uid, user, _, hu, hreg,
          ⟨fun _ => ⟨?_, by simp [mask]⟩, by simp [adding]⟩, rfl⟩
        simpa [mask, kind] using hnew

theorem run_of_not_mem (command : MaskCommand) (hout : command.uid ∉ here.members) :
    command.run rules chan server = server := by
  have hrank : server.rank command.uid (toAsciiLower chan) < rankHalfop := by
    by_contra hrank
    exact hout (Server.mem_of_rank hhere hrank)
  cases command with
  | mode who adding kind text =>
    have hlow : server.rank who (toAsciiLower chan) < rankHalfop := hrank
    simp [run, Server.applyMode, Server.pureListQuery, hlow]
  | tban who duration text =>
    have hlow : server.rank who (toAsciiLower chan) < rankHalfop := hrank
    simp only [run, Server.tban, hhere, hlow, if_true]
    split <;> rfl

theorem takes (rules : ModeRules) (command : MaskCommand) (hchan : chan.head? = some '#')
    (hal : here.keepAlive = true)
    (hus : ∀ uid ∈ here.members, ∃ user, server.users.lookup uid = some user ∧
      user.registered = true) :
    command.Takes rules chan server here := by
  by_cases hin : command.uid ∈ here.members
  · obtain ⟨user, hu, hreg⟩ := hus command.uid hin
    cases command with
    | mode who adding kind text =>
      exact takes_mode hhere who adding kind text hchan hal hu hreg
    | tban who duration text => exact takes_tban hhere who duration text hu hreg
  · exact .inl (command.run_of_not_mem hhere hin)

end

end MaskCommand

/-! ## Both servers -/

def exchange (wiring : Wiring) (rules : Side → ModeRules) (chan : Str) (side : Side)
    (command : MaskCommand) (srv : Side → Server) : Side → Server :=
  let after := command.run (rules side) chan (srv side)
  Function.update (Function.update srv side after) side.other
    ((srv side.other).hear (wiring.env side.other) (wiring.port side.other)
      (newLines (wiring.port side) (srv side) after))

/-- A command whose mask is one word, and that removes only entries with exactly its text. -/
structure MaskCommand.Faithful (chan : Str) (server : Server) (command : MaskCommand) : Prop where
  kind : command.kind.normalizes = true
  token : IsToken command.mask
  exact : command.adding = false → ∀ channel, server.channels.lookup (toAsciiLower chan) =
    some channel → ∀ mask ∈ channel.masks command.kind,
      eqIgnoreAsciiCase mask command.mask = true → mask = command.mask

/-- Two servers that know a channel, and each other's users on it. -/
structure Joined (port : Side → Uid) (chan : Str) (srv : Side → Server)
    (channels : Side → Channel) : Prop where
  linked : ∀ side, Linked (port side) (port side.other) chan (srv side) (srv side.other)
    (channels side) (channels side.other)
  users : ∀ side, ∀ uid ∈ (channels side).members, ∃ user,
    (srv side).users.lookup uid = some user ∧ user.registered = true

structure Bystands (before after : Server) : Prop where
  users : after.users = before.users
  registered : ∀ uid, after.isRegistered uid = before.isRegistered uid
  behind : ∀ source uid, after.sourceBehind source uid = before.sourceBehind source uid

theorem Linked.setList {chan : Str} {near' far' : Server}
    (hlk : Linked peer port chan near far here there) (hnear : Bystands near near')
    (hfar : Bystands far far') {kind : ListKind}
    (hhere : near'.channels.lookup (toAsciiLower chan) = some (here.setList kind change))
    (hth : far'.channels.lookup (toAsciiLower chan) = some (there.setList kind change')) :
    Linked peer port chan near' far' (here.setList kind change) (there.setList kind change') where
  name := hlk.name
  here_eq := hhere
  there_eq := hth
  alive := hlk.alive
  created := hlk.created
  peer_up := (hnear.registered peer).trans hlk.peer_up
  port_up := (hfar.registered port).trans hlk.port_up
  known := by
    intro uid user hu hreg
    rw [hnear.users] at hu
    rw [hfar.behind]
    exact hlk.known uid user hu hreg

theorem Linked.hear_mask {uid : Uid} {chan : Str}
    (hlk : Linked peer port chan near far here there)
    (hu : near.users.lookup uid = some user) (hreg : user.registered = true)
    {kind : ListKind} (hkind : kind.normalizes = true) {mask : Str} (hmask : IsToken mask)
    (change : List Ban → List Ban) (adding : Bool) (env : Env) :
    ∃ setter relay, far.hear env port (newLines peer near
        ((near.changeChannel (toAsciiLower chan) (Channel.setList kind change)).propagateChanMode
          user.uuid chan (signed adding kind.letter) [mask])) =
      ((far.touchLink port).changeChannel (toAsciiLower chan) (Channel.setList kind
        (changeMask setter mask far.clock adding))).propagate relay (some port) := by
  obtain ⟨htok, hbeh⟩ := hlk.known uid user hu hreg
  have hmode := chanMode_listLetter far.conf.prefixes kind
  have hlets : signedLetters true (signed adding kind.letter) = [(adding, kind.letter)] := by
    cases adding <;> cases kind <;> rfl
  have hsign : IsToken (signed adding kind.letter) := by
    cases adding <;> cases kind <;> decide
  have hargs : ∀ server : Server, server.chanModeArgs [(adding, kind.letter)] [mask] = [mask] := by
    intro server
    cases kind <;> rfl
  have hnew : newLines peer near
      ((near.changeChannel (toAsciiLower chan) (Channel.setList kind change)).propagateChanMode
        user.uuid chan (signed adding kind.letter) [mask]) =
      [.fmode user.uuid chan here.created (signed adding kind.letter) [mask]] := by
    have hlook : (near.changeChannel (toAsciiLower chan)
        (Channel.setList kind change)).channels.lookup (toAsciiLower chan) =
          some (here.setList kind change) := by simp [hlk.here_eq]
    simp only [propagateChanMode, hlook, hlets, hargs]
    exact newLines_propagate rfl hlk.peer_up _
  have hts : ¬ there.created < here.created := by
    rw [hlk.created]
    exact UInt64.lt_irrefl _
  have hpar : ∀ param ∈ [mask], IsToken param := by simpa using hmask
  have hrecv := receive_fmode htok hlk.name hsign here.created hpar
  obtain ⟨relay, hread⟩ := onLine_fmode_read hrecv hlk.port_up hbeh
    hlk.name.1 hlk.there_eq hts env
  have hmaskKind : maskKind kind.letter = some kind := by
    rw [maskKind_of_chanMode hmode, if_pos hkind]
  obtain ⟨setter, hstep⟩ := @linkModeStep_mask user.uuid chan (toAsciiLower chan)
    (far.touchLink port) kind.letter adding kind hmaskKind mask []
  refine ⟨setter, relay, ?_⟩
  rw [hnew]
  simp only [hear, foldl_cons, foldl_nil]
  rw [hread, hlets, foldl_cons, foldl_nil, hstep]
  rfl

/-! ## A change keeps the masks alike -/

theorem SameMasks.symm (hs : SameMasks here there) : SameMasks there here :=
  fun kind hkind mask => (hs kind hkind mask).symm

theorem mem_changeMask_true {mask : Str} :
    text ∈ (changeMask setter mask now true bans).map Ban.mask ↔
      text ∈ bans.map Ban.mask ∨ text = mask := by
  unfold changeMask
  simp only [if_true]
  split
  · rename_i hpres
    obtain ⟨ban, hban, hmask⟩ := any_eq_true.mp hpres
    constructor
    · exact .inl
    · rintro (hmem | rfl)
      · exact hmem
      · exact mem_map.mpr ⟨ban, hban, of_decide_eq_true hmask⟩
  · simp

theorem mem_changeMask_false {mask : Str} :
    text ∈ (changeMask setter mask now false bans).map Ban.mask ↔
      text ∈ bans.map Ban.mask ∧ text ≠ mask := by
  simp only [changeMask, Bool.false_eq_true, if_false, mem_map, mem_filter, decide_eq_true_eq]
  constructor
  · rintro ⟨ban, ⟨hban, hne⟩, rfl⟩
    exact ⟨⟨ban, hban, rfl⟩, hne⟩
  · rintro ⟨⟨ban, hban, rfl⟩, hne⟩
    exact ⟨ban, ⟨hban, hne⟩, rfl⟩

/-- Adding on both sides, or removing entries of exactly that text, comes to the same. -/
theorem SameMasks.edit (hs : SameMasks here there) (hkind : command.kind.normalizes = true)
    (hedits : command.Edits change (here.lists command.kind))
    (hexa : command.adding = false → ∀ mask ∈ here.masks command.kind,
      eqIgnoreAsciiCase mask command.mask = true → mask = command.mask) (setter : Str)
    (now : Timestamp) :
    SameMasks (here.setList command.kind change)
      (there.setList command.kind (changeMask setter command.mask now command.adding)) := by
  intro kind hnormal mask
  by_cases ho : kind = command.kind
  · subst ho
    have hmasks := hs command.kind hkind
    rw [masks_setList_self, masks_setList_self]
    cases hadd : command.adding with
    | true =>
      obtain ⟨-, hadded⟩ := hedits.add hadd
      rw [hadded, mem_changeMask_true, mem_append, mem_singleton]
      exact or_congr (hmasks mask) .rfl
    | false =>
      rw [hedits.remove hadd, mem_changeMask_false]
      refine Iff.trans ?_ (and_congr (hmasks mask) .rfl)
      simp only [masks, mem_map, mem_filter, Bool.not_eq_true']
      constructor
      · rintro ⟨ban, ⟨hban, hne⟩, rfl⟩
        refine ⟨⟨ban, hban, rfl⟩, ?_⟩
        intro hs
        rw [hs] at hne
        simp [eqIgnoreAsciiCase] at hne
      · rintro ⟨⟨ban, hban, rfl⟩, hne⟩
        refine ⟨ban, ⟨hban, ?_⟩, rfl⟩
        rw [Bool.eq_false_iff]
        intro halike
        exact hne (hexa hadd ban.mask (mem_map.mpr ⟨ban, hban, rfl⟩) halike)
  · rw [masks_setList_ne ho, masks_setList_ne ho]
    exact hs kind hnormal mask

variable {wiring : Wiring} {rules : Side → ModeRules} {chan : Str}

def Alike (wiring : Wiring) (chan : Str) (srv : Side → Server) : Prop :=
  ∃ channels, Joined wiring.port chan srv channels ∧
    SameMasks (channels .left) (channels .right)

theorem Bystands.said (server : Server) (key source chan modes : Str) (params : List Str)
    (change : Channel → Channel) :
    Bystands server ((server.changeChannel key change).propagateChanMode source chan modes params) :=
  ⟨rfl, fun _ => rfl, fun _ _ => rfl⟩

theorem Bystands.heard (server : Server) (port : Uid) (key : Str) (change : Channel → Channel)
    (relay : Out) :
    Bystands server (((server.touchLink port).changeChannel key change).propagate relay
      (some port)) :=
  ⟨rfl, fun uid => isRegistered_touchLink server port uid, fun _ _ => rfl⟩

theorem sameMasks_iff (side : Side) :
    SameMasks (channels .left) (channels .right) ↔
      SameMasks (channels side) (channels side.other) := by
  cases side with
  | left => rfl
  | right => exact ⟨SameMasks.symm, SameMasks.symm⟩

theorem Alike.of_changed {srv' : Side → Server} (side : Side)
    (hjn : Joined wiring.port chan srv channels)
    (hstands : ∀ party, Bystands (srv party) (srv' party)) {kind : ListKind}
    (hhere : (srv' side).channels.lookup (toAsciiLower chan) =
      some ((channels side).setList kind change))
    (hth : (srv' side.other).channels.lookup (toAsciiLower chan) =
      some ((channels side.other).setList kind change'))
    (hmasks : SameMasks ((channels side).setList kind change)
      ((channels side.other).setList kind change')) : Alike wiring chan srv' := by
  have hswapped : Linked (wiring.port side.other) (wiring.port side) chan (srv side.other) (srv side)
      (channels side.other) (channels side) := by
    simpa using hjn.linked side.other
  refine ⟨Function.update (Function.update channels side ((channels side).setList kind change))
    side.other ((channels side.other).setList kind change'), ⟨?_, ?_⟩, ?_⟩
  · rw [Side.forall_iff side]
    constructor
    · simpa using (hjn.linked side).setList (hstands side) (hstands side.other) hhere hth
    · simpa using hswapped.setList (hstands side.other) (hstands side) hth hhere
  · intro party
    rw [(hstands party).users]
    rcases Side.eq_or_eq_other side party with rfl | rfl
    · simpa using hjn.users party
    · simpa using hjn.users side.other
  · rw [sameMasks_iff side]
    simpa using hmasks

theorem Alike.exchange (halike : Alike wiring chan srv) {side : Side}
    (hfaithful : command.Faithful chan (srv side)) :
    Alike wiring chan (exchange wiring rules chan side command srv) := by
  obtain ⟨channels, hjn, hs⟩ := halike
  have hlk := hjn.linked side
  rcases command.takes hlk.here_eq (rules side) hlk.name.1 hlk.alive
    (hjn.users side) with hrun | ⟨uid, user, change, hu, hreg, hedits, hrun⟩
  · have hidle : EchoIrcd.exchange wiring rules chan side command srv = srv := by
      simp [EchoIrcd.exchange, hrun, hear]
    rw [hidle]
    exact ⟨channels, hjn, hs⟩
  · obtain ⟨setter, relay, hhd⟩ := hlk.hear_mask hu hreg hfaithful.kind
      hfaithful.token change command.adding (wiring.env side.other)
    have hmasks := ((sameMasks_iff side).mp hs).edit hfaithful.kind hedits
      (fun hremove => hfaithful.exact hremove _ hlk.here_eq) setter (srv side.other).clock
    have hnear : EchoIrcd.exchange wiring rules chan side command srv side =
        ((srv side).changeChannel (toAsciiLower chan)
          (setList command.kind change)).propagateChanMode user.uuid chan
            (signed command.adding command.kind.letter) [command.mask] := by
      simp [EchoIrcd.exchange, hrun]
    have hfar : EchoIrcd.exchange wiring rules chan side command srv side.other =
        (((srv side.other).touchLink (wiring.port side.other)).changeChannel (toAsciiLower chan)
          (setList command.kind (changeMask setter command.mask
            (srv side.other).clock command.adding))).propagate relay
              (some (wiring.port side.other)) := by
      simp only [EchoIrcd.exchange, hrun, Function.update_self]
      exact hhd
    refine .of_changed side hjn ?_ ?_ ?_ hmasks
    · rw [Side.forall_iff side, hnear, hfar]
      exact ⟨.said .., .heard ..⟩
    · rw [hnear]
      simp [propagateChanMode, hlk.here_eq]
    · have hf : ((srv side.other).touchLink (wiring.port side.other)).channels.lookup
          (toAsciiLower chan) = some (channels side.other) := hlk.there_eq
      rw [hfar]
      simp [hf]

def Exchanges (wiring : Wiring) (rules : Side → ModeRules) (chan : Str)
    (before after : Side → Server) : Prop :=
  ∃ side command, command.Faithful chan (before side) ∧
    after = exchange wiring rules chan side command before

/-- Masks that are alike stay alike in every run of such changes, on whichever side they are
made. -/
theorem alike_of_exchanges (wiring : Wiring) (rules : Side → ModeRules) (chan : Str)
    {before after : Side → Server} (halike : Alike wiring chan before)
    (hrun : Relation.ReflTransGen (Exchanges wiring rules chan) before after) :
    Alike wiring chan after := by
  induction hrun with
  | refl => exact halike
  | tail _ hstep ih =>
    obtain ⟨side, command, hfaithful, rfl⟩ := hstep
    exact ih.exchange hfaithful

def guestWiring : Wiring where
  env := fun _ => .plain
  port := fun
    | .left => 9
    | .right => 5

def guestPair : Side → Server
  | .left => tlsServer
  | .right => guestServer

theorem alike_guestPair : Alike guestWiring "#c" guestPair := by
  refine ⟨fun | .left => tlsChannel | .right => guestChannel, ⟨?_, ?_⟩, fun _ _ _ => .rfl⟩
  · intro side
    cases side with
    | left => exact linked_guestServer
    | right =>
      exact ⟨⟨rfl, by decide⟩, rfl, rfl, rfl, rfl, rfl, rfl,
        Table.forall_lookup_iff.mpr (by decide +kernel)⟩
  · intro side uid hin
    cases side with
    | left =>
      obtain ⟨user, hu, hreg, -⟩ := seated_guestServer.user uid hin
      exact ⟨user, hu, hreg⟩
    | right =>
      have hcarol : uid = 1 := mem_singleton.mp (AList.mem_keys.mp hin)
      rw [hcarol]
      exact ⟨_, rfl, rfl⟩

theorem alike_of_exchanges_ban :
    Alike guestWiring "#c"
      (exchange guestWiring (fun _ => {}) "#c" .left (.mode 1 true .ban "*!*@Host") guestPair) :=
  alike_of_exchanges guestWiring (fun _ => {}) "#c" alike_guestPair
    (.single ⟨.left, _, ⟨rfl, by decide +kernel, by decide⟩, rfl⟩)

theorem lifted_ban_stays :
    Alike guestWiring "#c" guestPair ∧
      let banned :=
        exchange guestWiring (fun _ => {}) "#c" .left (.mode 1 true .ban "*!*@Host") guestPair
      let lifted :=
        exchange guestWiring (fun _ => {}) "#c" .left (.mode 1 false .ban "*!*@host") banned
      ((lifted .left).channels.lookup ("#c" : Str)).map (masks .ban) = some [] ∧
        ((lifted .right).channels.lookup ("#c" : Str)).map (masks .ban) =
          some [("*!*@Host" : Str)] := by
  refine ⟨alike_guestPair, ?_, ?_⟩
  · decide +kernel
  · decide +kernel

end EchoIrcd
