import EchoIrcd.Dial

/-!
# Crossing handshakes settle on one link

The two servers follow the abstract crossing of `Crossing`: each end of a
connection keeps a ledger that its phase determines, and every civil step of
the servers is a step of the crossing or changes nothing of it.
-/

namespace EchoIrcd

open Str Crossing Dial Server Phase Relation

variable {dialler side : Side} {now : Timestamp}

/-! ## The ledger of one end -/

inductive Progress where
  | waiting
  | asked
  | joined
  | left
  deriving DecidableEq

def Phase.progress (dials : Bool) : Phase → Progress
  | .idle => .waiting
  | .dialled => if dials then .asked else .waiting
  | .answered => if dials then .asked else .joined
  | .linked => .joined
  | .refused => if dials then .asked else .left
  | .closed => .left

/-- What one end has done: opened, lines read, lines sent, stage of the link. -/
inductive Ledger (hello : Out) (peer : Str) (dials : Bool) :
    Progress → Bool → Nat → List Out → Option (Bool × Bool × Option Str) → Prop where
  | unopened : Ledger hello peer dials .waiting false 0 [] none
  | waiting (hdials : dials = false) :
      Ledger hello peer dials .waiting true 0 [] (some (false, false, none))
  | asked : Ledger hello peer dials .asked true 0 [hello] (some (false, true, none))
  | joined : Ledger hello peer dials .joined true 1 [hello]
      (some (true, true, some peer))
  | left {out : Out} (hout : dials = false → ∃ text, out = .error text) :
      Ledger hello peer dials .left true 1 [out] none

namespace Ledger

variable {hello : Out} {peer : Str} {dials opened : Bool} {progress : Progress}
  {read : Nat} {sent : List Out} {stage : Option (Bool × Bool × Option Str)}

theorem of_waiting (hled : Ledger hello peer dials .waiting opened read sent stage) :
    read = 0 ∧ sent = [] ∧ (opened = true → dials = false ∧ stage = some (false, false, none)) := by
  cases hled <;> simp_all

theorem of_asked (hled : Ledger hello peer dials .asked opened read sent stage) :
    read = 0 ∧ sent = [hello] ∧ stage = some (false, true, none) := by
  cases hled
  simp

theorem of_joined (hled : Ledger hello peer dials .joined opened read sent stage) :
    read = 1 ∧ sent = [hello] ∧ stage = some (true, true, some peer) := by
  cases hled
  simp

theorem of_left (hled : Ledger hello peer dials .left opened read sent stage) :
    read = 1 ∧ stage = none ∧ ∃ out, sent = [out] ∧
      (dials = false → ∃ text, out = .error text) := by
  cases hled with
  | left hout => exact ⟨rfl, rfl, _, rfl, hout⟩

section

variable (hled : Ledger hello peer dials progress opened read sent stage)

include hled

theorem of_unopened (hopn : opened = false) : progress = .waiting ∧ read = 0 ∧ sent = [] := by
  cases hled <;> simp_all

theorem of_gone (hopn : opened = true) (hstg : stage = none) : progress = .left := by
  cases hled <;> simp_all

theorem any_registered : stage.any Prod.fst = decide (progress = .joined) := by
  cases hled <;> rfl

end

end Ledger

def Config.hello (conf : Config) (secret : Str) : Out :=
  .server conf.name secret conf.sid conf.serverDesc

/-! ## The servers follow a crossing -/

structure Tracks (setup : Dialling) (secret : Str) (config : Side → Config)
    (crossing : Crossing) (net : Dial) : Prop where
  conf : ∀ side, (net.srv side).conf = config side
  events : ∀ side, (net.srv side).events = []
  ledger : ∀ side dialler, Ledger ((config side).hello secret) (config side.other).sid
    (side = dialler) ((crossing dialler).progress (side = dialler))
    (net.opened side dialler) (net.read side dialler)
    (net.sent setup side dialler) ((net.srv side).stage (setup.port side dialler))
  via : ∀ side dialler, crossing.holds side dialler = true →
    ((net.srv side).servers.lookup (config side.other).sid).map RemoteServer.via =
      some (setup.port side dialler)
  free : ∀ side, (∀ dialler, crossing.holds side dialler = false) →
    (config side.other).sid ∉ (net.srv side).servers
  strangers : ∀ side uid, (∀ dialler, uid ≠ setup.port side dialler) →
    ∀ registered sent, (net.srv side).stage uid ≠
      some (registered, sent, some (config side.other).sid)

def Followed (setup : Dialling) (secret : Str) (config : Side → Config) (crossing : Crossing)
    (net : Dial) : Prop :=
  ∃ after, ReflGen Crossing.Step crossing after ∧ Tracks setup secret config after net

def Dial.heard (setup : Dialling) (net : Dial) (side dialler : Side) (now : Timestamp)
    (out : Out) : Server :=
  (net.srv side).handleEvent (setup.env side) now fun server =>
    server.onLine (setup.env side) (setup.port side dialler) out

namespace Tracks

variable {setup : Dialling} {secret : Str} {config : Side → Config}
  {crossing : Crossing} {net : Dial}

theorem of_fresh (hfre : net.Fresh setup) :
    Tracks setup secret (fun side => (net.srv side).conf) (fun _ => .idle) net where
  conf := fun _ => rfl
  events := hfre.events
  ledger := by
    intro side dialler
    rw [hfre.opened, hfre.read, hfre.sent, hfre.stage]
    exact .unopened
  via := by
    intro side dialler hholds
    simp [holds, heldByDialler, heldByAnswerer] at hholds
  free := fun side _ => hfre.servers side
  strangers := by
    intro side uid _ registered sent hstg
    obtain ⟨link, hlink, hstg⟩ := Option.map_eq_some_iff.mp hstg
    simp only [Link.stage, Prod.mk.injEq] at hstg
    exact hfre.strangers side uid link hlink hstg.2.2

theorem aside (htr : Tracks setup secret config crossing net) {after : Server}
    (haside : Aside (net.srv side) after) :
    Tracks setup secret config crossing { net with srv := Function.update net.srv side after } := by
  refine ⟨?_, ?_, ?_, ?_, ?_, ?_⟩ <;> refine (Side.forall_iff side).mpr ⟨?_, ?_⟩
  · simpa using haside.conf.trans (htr.conf side)
  · simpa using htr.conf side.other
  · simpa using haside.events
  · simpa using htr.events side.other
  · intro dialler
    simpa [Dial.sent, haside.stage, haside.handshakes] using htr.ledger side dialler
  · simpa [Dial.sent] using htr.ledger side.other
  · simpa [haside.servers] using htr.via side
  · simpa using htr.via side.other
  · simpa [haside.servers] using htr.free side
  · simpa using htr.free side.other
  · simpa [haside.stage] using htr.strangers side
  · simpa using htr.strangers side.other

theorem not_mem_servers (htr : Tracks setup secret config crossing net)
    (habs : (config side.other).sid ∉ (net.srv side).servers) :
    crossing.holds side dialler = false := by
  rw [Bool.eq_false_iff]
  intro hheld
  have hvia := htr.via side dialler hheld
  rw [AList.lookup_eq_none.mpr habs] at hvia
  cases hvia

section Move

variable (htr : Tracks setup secret config crossing net) {side dialler : Side}
  {more : List Out} {stage : Option (Bool × Bool × Option Str)} {after : Server}
  (hstep : EndStep (setup.port side dialler) more stage (net.srv side) after)
  {opened : Bool} {read : Nat} {phase : Phase}
  (hled : Ledger ((config side).hello secret) (config side.other).sid
    (side = dialler) (phase.progress (side = dialler)) opened read
    (net.sent setup side dialler ++ more) stage)
  (ho : phase.progress (side.other = dialler) =
    (crossing dialler).progress (side.other = dialler))

include htr hstep hled ho

section

variable
  (hholds : (crossing.moveTo dialler phase).holds side.other dialler = crossing.holds side.other dialler)

include hholds

theorem move
    (hvia : ∀ party, (crossing.moveTo dialler phase).holds side party = true →
      (after.servers.lookup (config side.other).sid).map RemoteServer.via =
        some (setup.port side party))
    (hfree : (∀ party, (crossing.moveTo dialler phase).holds side party = false) →
      (config side.other).sid ∉ after.servers) :
    Tracks setup secret config (crossing.moveTo dialler phase)
      (net.set side dialler after opened read) := by
  -- the other connection and the other side do not notice
  have hholds' := holds_moveTo_of_same hholds
  refine ⟨?_, ?_, ?_, ?_, ?_, ?_⟩ <;> refine (Side.forall_iff side).mpr ⟨?_, ?_⟩
  · simpa [Dial.set] using hstep.conf.trans (htr.conf side)
  · simpa [Dial.set] using htr.conf side.other
  · simpa [Dial.set] using hstep.events.trans (htr.events side)
  · simpa [Dial.set] using htr.events side.other
  · refine (Side.forall_iff dialler).mpr ⟨?_, ?_⟩
    · simpa [Dial.set, Dial.sent, Crossing.moveTo, hstep.stage, hstep.handshakes] using hled
    · have hs := htr.ledger side dialler.other
      simpa [Dial.set, Dial.sent, Crossing.moveTo, hstep.stage, hstep.handshakes,
        setup.port_ne side dialler] using hs
  · refine (Side.forall_iff dialler).mpr ⟨?_, ?_⟩
    · have hs := htr.ledger side.other dialler
      rw [← ho] at hs
      simpa [Dial.set, Dial.sent, Crossing.moveTo] using hs
    · simpa [Dial.set, Dial.sent, Crossing.moveTo] using htr.ledger side.other dialler.other
  · simpa [Dial.set] using hvia
  · intro line hheld
    rw [hholds'] at hheld
    simpa [Dial.set] using htr.via side.other line hheld
  · simpa [Dial.set] using hfree
  · intro hnone
    simp only [hholds'] at hnone
    simpa [Dial.set] using htr.free side.other hnone
  · intro uid huid registered sent
    have hs := htr.strangers side uid huid registered sent
    simpa [Dial.set, hstep.stage, huid dialler] using hs
  · simpa [Dial.set] using htr.strangers side.other

theorem move_held (hheld : (crossing.moveTo dialler phase).holds side dialler = true)
    (habs : (config side.other).sid ∉ (net.srv side).servers)
    (hvia : (after.servers.lookup (config side.other).sid).map RemoteServer.via =
      some (setup.port side dialler)) :
    Tracks setup secret config (crossing.moveTo dialler phase)
      (net.set side dialler after opened read) := by
  refine htr.move hstep hled ho hholds ?_ ?_
  · intro party hparty
    by_cases hline : party = dialler
    · rw [hline]
      exact hvia
    · rw [holds_moveTo_of_ne hline, htr.not_mem_servers habs] at hparty
      cases hparty
  · intro hnone
    rw [hnone dialler] at hheld
    cases hheld

end

theorem move_unheld
    (hholds : ∀ party, (crossing.moveTo dialler phase).holds party dialler =
      crossing.holds party dialler)
    (hsvs : after.servers.lookup (config side.other).sid =
      (net.srv side).servers.lookup (config side.other).sid) :
    Tracks setup secret config (crossing.moveTo dialler phase)
      (net.set side dialler after opened read) := by
  have hs := holds_moveTo_of_same (hholds side)
  refine htr.move hstep hled ho (hholds side.other) ?_ ?_
  · intro party hheld
    rw [hs] at hheld
    rw [hsvs]
    exact htr.via side party hheld
  · intro hnone
    simp only [hs] at hnone
    have habs := htr.free side hnone
    rw [← AList.lookup_eq_none] at habs ⊢
    rw [hsvs, habs]

end Move

section

variable (htr : Tracks setup secret config crossing net)

include htr

theorem filter_servers (hheld : crossing.holds side dialler = false) :
    (((net.srv side).servers.lookup (config side.other).sid).filter
        fun remote => remote.via ≠ setup.port side dialler) =
      (net.srv side).servers.lookup (config side.other).sid := by
  cases hf : (net.srv side).servers.lookup (config side.other).sid with
  | none => rfl
  | some remote =>
    have hhol : crossing.holds side dialler.other = true := by
      by_contra hnone
      refine htr.free side ((Side.forall_iff dialler).mpr ⟨hheld, by simpa using hnone⟩) ?_
      exact Table.mem_of_lookup hf
    have hvia := htr.via side dialler.other hhol
    rw [hf, Option.map_some, Option.some.injEq] at hvia
    simp [hvia, setup.port_ne]

/-! ## The events -/

theorem connect (hpeered : Peered setup secret config) {side dialler : Side}
    (hopn : net.opened side dialler = false) (now : Timestamp) :
    Followed setup secret config crossing (net.happen setup side dialler now .connect) := by
  obtain ⟨hprogress, hread, hsent⟩ := (htr.ledger side dialler).of_unopened hopn
  unfold happen
  by_cases hdials : side = dialler
  · subst hdials
    have hidle : crossing side = .idle := by
      cases hph : crossing side <;> simp [hph, progress] at hprogress ⊢
    refine ⟨_, .single (.dial hidle), ?_⟩
    obtain ⟨block, hblk, hpassword⟩ := hpeered.addressed side
    have hblk' : ((net.srv side).setClock now).conf.linkBlocks.find?
        (·.ip = setup.addr side) = some block := by
      rw [setClock_conf, htr.conf]
      exact hblk
    have hadd := addLink_outbound_endStep hblk' (setup.port side side)
    obtain ⟨hev, hstep⟩ := hadd.handleEvent (htr.events side) (setup.env side)
    have hline : ((net.srv side).setClock now).serverLine block.password = (config side).hello secret := by
      simp [serverLine, Config.hello, hpassword, htr.conf]
    rw [hline] at hstep
    simp only [decide_true]
    refine htr.move_unheld hstep ?_ ?_ ?_ ?_
    · rw [hread, hsent]
      simpa [progress] using Ledger.asked
    · simp [hidle, progress]
    · intro party
      simp [holds, moveTo, hidle, heldByDialler, heldByAnswerer]
    · rw [hev]
      simp [addLink, hblk', -setClock_conf]
  · have hadd := ((net.srv side).setClock now).addLink_inbound_endStep
      (setup.port side dialler) (setup.addr side)
    obtain ⟨hev, hstep⟩ := hadd.handleEvent (htr.events side) (setup.env side)
    have hst : crossing.moveTo dialler (crossing dialler) = crossing :=
      Function.update_eq_self _ _
    refine ⟨crossing, .refl, ?_⟩
    simp only [hdials, decide_false]
    rw [← hst]
    refine htr.move_unheld hstep ?_ rfl ?_ ?_
    · rw [hprogress, hread, hsent]
      simpa using Ledger.waiting (decide_eq_false hdials)
    · intro party
      rw [hst]
    · rw [hev]
      rfl

theorem deliver_cases (hopn : net.opened side dialler = true)
    (hfl : net.inFlight setup side dialler ≠ []) :
    (side ≠ dialler ∧ crossing dialler = .dialled ∧
        net.inFlight setup side dialler = [(config side.other).hello secret] ∧
        net.read side dialler = 0 ∧ net.sent setup side dialler = [] ∧
        (net.srv side).stage (setup.port side dialler) =
          some (false, false, none)) ∨
      (side = dialler ∧ (crossing dialler = .answered ∧
          net.inFlight setup side dialler = [(config side.other).hello secret] ∨
        crossing dialler = .refused ∧ ∃ text,
          net.inFlight setup side dialler = [.error text]) ∧
        net.read side dialler = 0 ∧
        net.sent setup side dialler = [(config side).hello secret] ∧
        (net.srv side).stage (setup.port side dialler) =
          some (false, true, none)) := by
  have hled := htr.ledger side dialler
  have ho := htr.ledger side.other dialler
  unfold inFlight at hfl ⊢
  by_cases hdials : side = dialler
  · subst hdials
    refine .inr ⟨rfl, ?_⟩
    simp only [Side.other_ne, decide_true, decide_false, Side.other_other]
      at hled ho
    cases hph : crossing side <;> rw [hph] at hled ho
    case idle => simp [ho.of_waiting.2.1] at hfl
    case dialled => simp [ho.of_waiting.2.1] at hfl
    case answered =>
      obtain ⟨hread, hsent, hstg⟩ := hled.of_asked
      simp [hread, hsent, hstg, ho.of_joined.2.1]
    case linked => simp [hled.of_joined.1, ho.of_joined.2.1] at hfl
    case refused =>
      obtain ⟨hread, hsent, hstg⟩ := hled.of_asked
      obtain ⟨_, _, out, hsent', hout⟩ := ho.of_left
      obtain ⟨text, rfl⟩ := hout rfl
      exact ⟨.inr ⟨rfl, text, by simp [hread, hsent']⟩, hread, hsent, hstg⟩
    case closed =>
      obtain ⟨_, _, out, hsent', _⟩ := ho.of_left
      simp [hled.of_left.1, hsent'] at hfl
  · refine .inl ⟨hdials, ?_⟩
    have hdialler : side.other = dialler := by
      rw [Side.eq_other_of_ne hdials, Side.other_other]
    simp only [hdials, hdialler, decide_true, decide_false] at hled ho
    cases hph : crossing dialler <;> rw [hph] at hled ho
    case idle => simp [hdialler, ho.of_waiting.2.1] at hfl
    case dialled =>
      obtain ⟨hread, hsent, hstg⟩ := hled.of_waiting
      have hline : net.sent setup side.other dialler = [(config side.other).hello secret] := by
        rw [hdialler]
        exact ho.of_asked.2.1
      exact ⟨rfl, by simp [hread, hline], hread, hsent, (hstg hopn).2⟩
    case answered =>
      simp [hdialler, hled.of_joined.1, ho.of_asked.2.1] at hfl
    case linked =>
      simp [hdialler, hled.of_joined.1, ho.of_joined.2.1] at hfl
    case refused =>
      simp [hdialler, hled.of_left.1, ho.of_asked.2.1] at hfl
    case closed =>
      obtain ⟨_, _, out, hsent, _⟩ := ho.of_left
      simp [hdialler, hled.of_left.1, hsent] at hfl

theorem isRegistered_eq (side dialler : Side) :
    (net.srv side).isRegistered (setup.port side dialler) = crossing.holds side dialler := by
  rw [Server.isRegistered_eq, (htr.ledger side dialler).any_registered]
  unfold Crossing.holds
  by_cases hdials : side = dialler
  · simp only [hdials, decide_true, if_true]
    cases crossing dialler <;> rfl
  · simp only [hdials, decide_false, if_false]
    cases crossing dialler <;> rfl

theorem deliver_refused (hph : crossing side = .refused)
    (hsent : net.sent setup side side = [(config side).hello secret])
    (hstg : (net.srv side).stage (setup.port side side) = some (false, true, none))
    (now : Timestamp) (text : Str) :
    Followed setup secret config crossing
      (net.set side side (net.heard setup side side now (.error text)) true 1) := by
  have hunheld : crossing.holds side side = false := by
    simp [holds, hph, heldByDialler]
  have hlink : setup.port side side ∈ ((net.srv side).setClock now).links :=
    mem_links_iff.mpr (by
      rw [show ((net.srv side).setClock now).stage (setup.port side side) = _ from hstg]
      simp)
  have hline := onLine_error hlink (setup.env side) text
  have hclose := (closeLink_endStep (((net.srv side).setClock now).touchLink
    (setup.port side side)) (setup.port side side)).of_touchLink
  rw [← hline] at hclose
  obtain ⟨hev, hstep⟩ := hclose.handleEvent (htr.events side) (setup.env side)
  refine ⟨_, .single (.close hph), ?_⟩
  refine htr.move_unheld hstep ?_ ?_ ?_ ?_
  · rw [hsent]
    exact .left (by simp)
  · simp [hph, progress]
  · intro party
    by_cases hparty : party = side <;>
      simp [holds, moveTo, hparty, hph, heldByDialler, heldByAnswerer]
  · rw [hev, hline, closeLink_servers]
    exact htr.filter_servers hunheld

section

variable (hpeered : Peered setup secret config)
  (hjupe : matchedJupe (setup.env side) ((net.srv side).setClock now)
    (config side.other).name = none)

include hpeered hjupe

theorem hear_server {sentServer : Bool}
    (hstg : (net.srv side).stage (setup.port side dialler) = some (false, sentServer, none)) :
    let after := net.heard setup side dialler now ((config side.other).hello secret)
    if (config side.other).sid ∈ (net.srv side).servers then
      (∃ text, EndStep (setup.port side dialler) [.error text] none
        (net.srv side) after) ∧
        after.servers.lookup (config side.other).sid =
          ((net.srv side).servers.lookup (config side.other).sid).filter
            fun remote => remote.via ≠ setup.port side dialler
    else
      EndStep (setup.port side dialler)
        (if sentServer then [] else [(config side).hello secret])
        (some (true, true, some (config side.other).sid)) (net.srv side) after ∧
      (after.servers.lookup (config side.other).sid).map RemoteServer.via =
        some (setup.port side dialler) := by
  intro after
  obtain ⟨block, hblk, rfl⟩ := hpeered.named side
  have hpeer : Welcome (setup.env side) ((net.srv side).setClock now) block
      (config side.other).name (config side.other).sid := by
    refine ⟨hjupe, ?_, hpeered.sid side.other, ?_⟩
    · rw [setClock_conf, htr.conf]
      exact hblk
    · rw [setClock_conf, htr.conf]
      exact hpeered.ne side
  have hstg' : ((net.srv side).setClock now).stage (setup.port side dialler) =
      some (false, sentServer, none) := hstg
  have htch : (((net.srv side).setClock now).touchLink
      (setup.port side dialler)).stage (setup.port side dialler) =
        some (false, sentServer, none) := by
    rw [stage_touchLink, hstg']
  have hlink : setup.port side dialler ∈ (((net.srv side).setClock now).touchLink
      (setup.port side dialler)).links :=
    mem_links_iff.mpr (by simp [htch])
  have hline := onLine_server hstg' hpeer (hpeered.name side.other)
    hpeered.secret (config side.other).serverDesc
  rw [setClock_servers] at hline
  split
  · rename_i hpres
    rw [if_pos hpres] at hline
    have hrej := (rejectLink_endStep hlink
      "Bad or already-present SID").of_touchLink
    rw [← hline] at hrej
    obtain ⟨hev, hstep⟩ := hrej.handleEvent (htr.events side)
      (setup.env side)
    refine ⟨⟨_, hstep⟩, ?_⟩
    have haft : after = _ := hev.trans hline
    rw [haft, rejectLink, closeLink_servers]
    rfl
  · rename_i habs
    rw [if_neg habs] at hline
    have hac := (acceptLink_endStep hlink block (config side.other).name
      (config side.other).sid (config side.other).serverDesc).of_touchLink
    rw [← hline, greeting_of_stage htch] at hac
    obtain ⟨hev, hstep⟩ := hac.handleEvent (htr.events side)
      (setup.env side)
    have hhello : (((net.srv side).setClock now).touchLink
        (setup.port side dialler)).serverLine block.password =
          (config side).hello block.password := by
      rw [← htr.conf side]
      rfl
    rw [hhello] at hstep
    refine ⟨hstep, ?_⟩
    have haft : after = _ := hev.trans hline
    rw [haft, acceptLink_servers, AList.lookup_insert]
    rfl

theorem deliver_dialled (hdials : side ≠ dialler) (hph : crossing dialler = .dialled)
    (hsent : net.sent setup side dialler = [])
    (hstg : (net.srv side).stage (setup.port side dialler) = some (false, false, none))
    (hcivil : (config side.other).sid ∉ (net.srv side).servers →
      crossing.holds dialler dialler.other = false) :
    Followed setup secret config crossing (net.set side dialler
      (net.heard setup side dialler now ((config side.other).hello secret)) true 1) := by
  have hside : side = dialler.other := Side.eq_other_of_ne hdials
  have hunheld : crossing.holds side dialler = false := by
    simp [holds, hdials, hph, heldByAnswerer]
  have hhd := htr.hear_server hpeered hjupe hstg
  by_cases hpres : (config side.other).sid ∈ (net.srv side).servers
  · rw [if_pos hpres] at hhd
    obtain ⟨⟨text, hstep⟩, hsvs⟩ := hhd
    have hhol : crossing.holds dialler.other dialler.other = true := by
      by_contra hnone
      refine htr.free side ((Side.forall_iff dialler).mpr ⟨hunheld, ?_⟩) hpres
      rw [hside]
      simpa using hnone
    refine ⟨_, .single (.refuse hph hhol), ?_⟩
    refine htr.move_unheld hstep ?_ ?_ ?_ ?_
    · rw [hsent]
      simpa [hdials, progress] using Ledger.left fun _ => ⟨text, rfl⟩
    · simp [hside, hph, progress]
    · intro party
      by_cases hparty : party = dialler <;>
        simp [holds, moveTo, hparty, hph, heldByDialler, heldByAnswerer]
    · exact hsvs.trans (htr.filter_servers hunheld)
  · rw [if_neg hpres] at hhd
    obtain ⟨hstep, hvia⟩ := hhd
    have hfree : crossing.holds dialler.other dialler.other = false := by
      rw [← hside]
      exact htr.not_mem_servers hpres
    refine ⟨_, .single (.answer hph hfree (hcivil hpres)), ?_⟩
    refine htr.move_held hstep ?_ ?_ ?_ ?_ hpres hvia
    · rw [hsent]
      simpa [hdials, progress] using Ledger.joined
    · simp [hside, hph, progress]
    · simp [holds, moveTo, hside, hph, heldByDialler]
    · simp [holds, moveTo, hdials, heldByAnswerer]

theorem deliver_answered (hsnd : crossing.Sound) (hph : crossing side = .answered)
    (hsent : net.sent setup side side = [(config side).hello secret])
    (hstg : (net.srv side).stage (setup.port side side) = some (false, true, none)) :
    Followed setup secret config crossing (net.set side side
      (net.heard setup side side now ((config side.other).hello secret)) true 1) := by
  have habs : (config side.other).sid ∉ (net.srv side).servers := by
    refine htr.free side ((Side.forall_iff side).mpr ⟨?_, ?_⟩)
    · simp [holds, hph, heldByDialler]
    · have hsingle := hsnd.single side (by rw [hph]; rfl)
      simp [holds, hsingle]
  have hhd := htr.hear_server hpeered hjupe hstg
  rw [if_neg habs] at hhd
  obtain ⟨hstep, hvia⟩ := hhd
  refine ⟨_, .single (.confirm hph), ?_⟩
  refine htr.move_held hstep ?_ ?_ ?_ ?_ habs hvia
  · rw [hsent]
    simpa [progress] using Ledger.joined
  · simp [hph, progress]
  · simp [holds, moveTo, hph, heldByAnswerer]
  · simp [holds, moveTo, heldByDialler]

omit hjupe in
theorem deliver (hsnd : crossing.Sound) (hen : net.Enabled setup side dialler .deliver)
    (hcivil : civil setup net side dialler now .deliver) :
    Followed setup secret config crossing (net.happen setup side dialler now .deliver) := by
  unfold happen
  rcases htr.deliver_cases hen.1 hen.2 with
    ⟨hdials, hph, hfl, hread, hsent, hstg⟩ |
    ⟨rfl, ⟨hph, hfl⟩ | ⟨hph, text, hfl⟩, hread, hsent, hstg⟩
  · obtain ⟨hjupe, hearly⟩ := hcivil _ _ _ _ (by rw [hfl]; rfl)
    rw [hfl, hread]
    refine htr.deliver_dialled hpeered hjupe hdials hph hsent hstg ?_
    intro habs
    have hreg := hearly habs
    rw [htr.isRegistered_eq, Side.eq_other_of_ne hdials, Side.other_other]
      at hreg
    exact hreg
  · obtain ⟨hjupe, _⟩ := hcivil _ _ _ _ (by rw [hfl]; rfl)
    rw [hfl, hread]
    exact htr.deliver_answered hpeered hjupe hsnd hph hsent hstg
  · rw [hfl, hread]
    exact htr.deliver_refused hph hsent hstg now text

end

theorem not_hangup : ¬net.Enabled setup side dialler .hangup := by
  rintro ⟨hopn, hopn', hfl, hgone, hst⟩
  have hled := htr.ledger side dialler
  have ho := htr.ledger side.other dialler
  rw [mem_links_iff, ne_eq, not_not] at hgone
  rw [mem_links_iff] at hst
  have hleft := ho.of_gone hopn' hgone
  rw [hleft] at ho
  obtain ⟨_, _, out, hsent, _⟩ := ho.of_left
  rw [inFlight, hsent] at hfl
  by_cases hdials : side = dialler
  · subst hdials
    simp only [Side.other_ne, decide_true, decide_false] at hled hleft
    cases hph : crossing side <;> rw [hph] at hled hleft <;>
      simp [progress] at hleft
    case refused => simp [hled.of_asked.1] at hfl
    case closed => exact hst hled.of_left.2.1
  · have hdialler : side.other = dialler := by
      rw [Side.eq_other_of_ne hdials, Side.other_other]
    simp only [hdials, hdialler, decide_true, decide_false] at hled hleft
    cases hph : crossing dialler <;> rw [hph] at hled hleft <;>
      simp [progress] at hleft
    case closed => exact hst hled.of_left.2.1

theorem step (hpeered : Peered setup secret config) (hsnd : crossing.Sound) {next : Dial}
    (hstep : DialStep setup (civil setup) net next) :
    Followed setup secret config crossing next := by
  cases hstep with
  | happen side dialler happening now hen hg =>
    cases happening with
    | connect => exact htr.connect hpeered hen now
    | deliver => exact htr.deliver hpeered hsnd hen hg
    | hangup => exact absurd hen htr.not_hangup
  | aside haside => exact ⟨crossing, .refl, htr.aside haside⟩

end

theorem run {start : Dial} (hfre : start.Fresh setup)
    (hpeered : Peered setup secret fun side => (start.srv side).conf)
    (hrun : ReflTransGen (DialStep setup (civil setup)) start net) :
    ∃ crossing : Crossing, crossing.Sound ∧
      Tracks setup secret (fun side => (start.srv side).conf) crossing net := by
  induction hrun with
  | refl => exact ⟨_, sound_idle, of_fresh hfre⟩
  | tail _ hstep ih =>
    obtain ⟨crossing, hsnd, htr⟩ := ih
    obtain ⟨after, hmoves, haft⟩ := htr.step hpeered hsnd hstep
    refine ⟨after, ?_, haft⟩
    cases hmoves with
    | refl => exact hsnd
    | single hmove => exact sound_step hsnd hmove

theorem isFinal (htr : Tracks setup secret config crossing net)
    (hq : net.Quiescent setup) (dialler : Side) : (crossing dialler).isFinal = true := by
  have hled := htr.ledger dialler dialler
  have ho := htr.ledger dialler.other dialler
  obtain ⟨hopn, hfl, _⟩ := hq dialler dialler
  obtain ⟨hopn', hfl', _⟩ := hq dialler.other dialler
  unfold inFlight at hfl hfl'
  simp only [Side.other_ne, Side.other_other, decide_true, decide_false]
    at hled ho hfl'
  cases hph : crossing dialler <;> rw [hph] at hled ho
  case idle => cases (hled.of_waiting.2.2 hopn).1
  case dialled => simp [hled.of_asked.2.1, ho.of_waiting.1] at hfl'
  case answered => simp [hled.of_asked.1, ho.of_joined.2.1] at hfl
  case linked => rfl
  case refused =>
    obtain ⟨_, _, out, hsent, _⟩ := ho.of_left
    simp [hled.of_asked.1, hsent] at hfl
  case closed => rfl

end Tracks

/-! ## Two servers that answer each other at once -/

namespace Dial

def samplePorts : Dialling where
  env := fun _ => .plain
  port := fun _ dialler => if dialler = .left then 1 else 2
  addr := fun side => if side = .left then "127.0.0.2" else "127.0.0.1"
  port_ne := by
    intro _ dialler
    cases dialler <;> decide

def sampleStart : Dial where
  srv
    | .left =>
      { conf := { name := "a.test", sid := "1AA"
                  linkBlocks := [⟨"b.test", "127.0.0.2", "secret"⟩] }
        clock := 0 }
    | .right =>
      { conf := { name := "b.test", sid := "2BB"
                  linkBlocks := [⟨"a.test", "127.0.0.1", "secret"⟩] }
        clock := 0 }
  opened := fun _ _ => false
  read := fun _ _ => 0

theorem sampleStart_fresh : sampleStart.Fresh samplePorts where
  opened := fun _ _ => rfl
  read := fun _ _ => rfl
  events := by intro side; cases side <;> rfl
  stage := by intro side _; cases side <;> rfl
  sent := by intro side _; cases side <;> rfl
  servers := by intro side; cases side <;> decide
  strangers := by
    intro side uid link hlink
    cases side <;> cases hlink

theorem sampleStart_peered :
    Peered samplePorts "secret" fun side => (sampleStart.srv side).conf where
  named := by intro side; cases side <;> exact ⟨_, rfl, rfl⟩
  addressed := by intro side; cases side <;> exact ⟨_, rfl, rfl⟩
  name := by intro side; cases side <;> decide
  secret := by decide
  sid := by intro side; cases side <;> decide
  ne := by intro side; cases side <;> decide

def sampleRun (steps : List (Side × Side × Happening)) : Dial :=
  steps.foldl (fun net step => net.happen samplePorts step.1 step.2.1 100 step.2.2)
    sampleStart

/-- Each side reads the other's `SERVER` line before its own answer arrives. -/
def crossedSteps : List (Side × Side × Happening) :=
  [(.left, .left, .connect), (.right, .right, .connect), (.left, .right, .connect),
    (.right, .left, .connect), (.right, .left, .deliver), (.left, .right, .deliver),
    (.left, .left, .deliver), (.right, .right, .deliver), (.right, .left, .deliver),
    (.left, .right, .deliver)]

theorem dialStep_no_link :
    sampleStart.Fresh samplePorts ∧
      ReflTransGen (DialStep samplePorts fun _ _ _ _ _ => True) sampleStart
        (sampleRun crossedSteps) ∧ (sampleRun crossedSteps).Quiescent samplePorts ∧
      ∀ side, ((sampleRun crossedSteps).srv side).links.keys = [] := by
  refine ⟨sampleStart_fresh, ?_, ?_, ?_⟩
  · refine .head (.happen .left .left .connect 100 rfl trivial) ?_
    refine .head (.happen .right .right .connect 100 rfl trivial) ?_
    refine .head (.happen .left .right .connect 100 rfl trivial) ?_
    refine .head (.happen .right .left .connect 100 rfl trivial) ?_
    refine .head (.happen .right .left .deliver 100 ⟨by decide, by decide⟩ trivial) ?_
    refine .head (.happen .left .right .deliver 100 ⟨by decide, by decide⟩ trivial) ?_
    refine .head (.happen .left .left .deliver 100 ⟨by decide, by decide⟩ trivial) ?_
    refine .head (.happen .right .right .deliver 100 ⟨by decide, by decide⟩ trivial) ?_
    refine .head (.happen .right .left .deliver 100 ⟨by decide, by decide⟩ trivial) ?_
    exact .single (.happen .left .right .deliver 100 ⟨by decide, by decide⟩ trivial)
  · intro side dialler
    cases side <;> cases dialler <;> exact ⟨by decide, by decide, by decide⟩
  · intro side
    cases side <;> decide

end Dial

/-! ## One link -/

/--
If no side accepts a connection while the peer has already accepted the
opposite one, two servers that have dialled each other end up with one
registered link each.
-/
theorem civilDial_one_link {setup : Dialling} {secret : Str} {start net : Dial}
    (hfre : start.Fresh setup) (hpeered : Peered setup secret fun side => (start.srv side).conf)
    (hrun : ReflTransGen (DialStep setup (civil setup)) start net)
    (hq : net.Quiescent setup) (side : Side) :
    ∃! uid, (net.srv side).LinkedTo (net.srv side.other).conf.sid uid := by
  obtain ⟨crossing, hsnd, htr⟩ := Tracks.run hfre hpeered hrun
  have hfinal := htr.isFinal hq
  rw [htr.conf]
  obtain ⟨dialler, hlk⟩ : ∃ dialler, crossing dialler = .linked := by
    by_cases hself : crossing side = .linked
    · exact ⟨side, hself⟩
    · refine ⟨side.other, ?_⟩
      rw [hsnd.linked_iff hfinal, Side.other_other]
      have hcase := hfinal side
      cases hph : crossing side <;> simp_all [isFinal]
  have hclosed := (hsnd.linked_iff hfinal dialler).mp hlk
  have hjn := htr.ledger side dialler
  have hleft := htr.ledger side dialler.other
  rw [hlk] at hjn
  rw [hclosed] at hleft
  obtain ⟨link, hlink, hstg⟩ := Option.map_eq_some_iff.mp hjn.of_joined.2.2
  simp only [Link.stage, Prod.mk.injEq] at hstg
  refine ⟨setup.port side dialler, ⟨link, hlink, hstg.1, hstg.2.2⟩, ?_⟩
  rintro uid ⟨link, hlink, hreg, hsid⟩
  have huid : (net.srv side).stage uid =
      some (true, link.sentServer, some (start.srv side.other).conf.sid) := by
    simp [stage, hlink, Link.stage, hreg, hsid]
  by_contra ho
  by_cases hport : uid = setup.port side dialler.other
  · rw [hport, hleft.of_left.2.1] at huid
    cases huid
  · exact htr.strangers side uid ((Side.forall_iff dialler).mpr ⟨ho, hport⟩)
      _ _ huid

def Dial.orderlySteps : List (Side × Side × Happening) :=
  [(.left, .left, .connect), (.right, .left, .connect), (.right, .left, .deliver),
    (.left, .left, .deliver), (.right, .right, .connect), (.left, .right, .connect),
    (.left, .right, .deliver), (.right, .right, .deliver)]

theorem civilDial_one_link_orderly :
    (∃! uid, ((sampleRun orderlySteps).srv .left).LinkedTo "2BB" uid) ∧
      ∃! uid, ((sampleRun orderlySteps).srv .right).LinkedTo "1AA" uid := by
  have hrun : ReflTransGen
      (DialStep samplePorts (civil samplePorts)) sampleStart
      (sampleRun orderlySteps) := by
    refine .head (.happen .left .left .connect 100 rfl trivial) ?_
    refine .head (.happen .right .left .connect 100 rfl trivial) ?_
    refine .head (.happen .right .left .deliver 100 ⟨by decide, by decide⟩
      fun _ _ _ _ _ => ⟨rfl, fun _ => by decide⟩) ?_
    refine .head (.happen .left .left .deliver 100 ⟨by decide, by decide⟩
      fun _ _ _ _ _ => ⟨rfl, fun _ => by decide⟩) ?_
    refine .head (.happen .right .right .connect 100 rfl trivial) ?_
    refine .head (.happen .left .right .connect 100 rfl trivial) ?_
    refine .head (.happen .left .right .deliver 100 ⟨by decide, by decide⟩ ?_) ?_
    · intro name pass sid desc hline
      cases hline
      exact ⟨rfl, fun habs => absurd (by decide) habs⟩
    · exact .single (.happen .right .right .deliver 100 ⟨by decide, by decide⟩
        fun _ _ _ _ hline => by cases hline)
  have hq : (sampleRun orderlySteps).Quiescent samplePorts := by
    intro side dialler
    cases side <;> cases dialler <;> exact ⟨by decide, by decide, by decide⟩
  have hlink := civilDial_one_link sampleStart_fresh sampleStart_peered hrun
    hq
  exact ⟨hlink .left, hlink .right⟩

end EchoIrcd
