import EchoIrcd.Frame
import Mathlib.Logic.Relation

/-!
# What hooks and automatic modes do

Whatever the hooks of an event and the user modes set by the server do is a
sequence of three kinds of change: a line to the links, a user record that
keeps what others know it by, and the status of one local member.  A frame
condition is therefore proved once per kind, not once per hook.  Only the hook
of a new client replaces an ident, so the users it may do that to are marked.
-/

namespace EchoIrcd

open Str Relation List

variable {adding : Bool} {after before server : Server} {key modes : Str} {uid : Uid}
  {letter : Char} {flag : UserFlag}

def User.badge (user : User) : (Str × Str) × Bool × List Str × Str × Str × Str :=
  ((user.uuid, user.nick), user.registered, user.channels, user.ip, user.host, user.realname)

namespace Server

inductive Touch (marked : Uid → Prop) : Server → Server → Prop
  | say (server : Server) {out : Out} : out.isHandshake = false →
      out.isForward = false → Touch marked server (server.propagate out none)
  | user (server : Server) (uid : Uid) {change : User → User} :
      (∀ user, (change user).badge = user.badge) →
      (marked uid ∨ ∀ user, (change user).ident = user.ident) →
      Touch marked server (server.changeUser uid change)
  | regrade (server : Server) (key : Str) (uid : Uid) (change : Member → Member) :
      Touch marked server (server.changeChannel key fun channel =>
        { channel with members := Table.modify uid change channel.members })

def Touches (marked : Uid → Prop) : Server → Server → Prop :=
  ReflTransGen (Touch marked)

variable {marked : Uid → Prop} (env : Env)

namespace Touches

theorem refl (server : Server) : Touches marked server server := ReflTransGen.refl

theorem trans {first second third : Server} (hleft : Touches marked first second)
    (hrt : Touches marked second third) : Touches marked first third :=
  ReflTransGen.trans hleft hrt

theorem of_touch (htouch : Touch marked before after) : Touches marked before after :=
  ReflTransGen.single htouch

theorem mono {more : Uid → Prop} (htch : Touches marked before after)
    (hmore : ∀ uid, marked uid → more uid) : Touches more before after := by
  refine ReflTransGen.mono (fun first second htouch => ?_) before after htch
  cases htouch with
  | say hshake hforward => exact .say first hshake hforward
  | user uid hbadge hident => exact .user first uid hbadge (hident.imp_left (hmore uid))
  | regrade key uid change => exact .regrade first key uid change

theorem frame (rel : Server → Server → Prop) (hrefl : ∀ server, rel server server)
    (htrans : ∀ {first second third}, rel first second → rel second third → rel first third)
    (htouch : ∀ {before after}, Touch marked before after → rel before after)
    (htch : Touches marked before after) : rel before after := by
  induction htch with
  | refl => exact hrefl _
  | tail _ hlast ih => exact htrans ih (htouch hlast)

theorem same {α : Type} (view : Server → α)
    (htouch : ∀ {before after}, Touch marked before after → view after = view before)
    (htch : Touches marked before after) : view after = view before :=
  htch.frame (fun before after => view after = view before) (fun _ => rfl)
    (fun hleft hrt => hrt.trans hleft) htouch

end Touches

/-! ## Status -/

theorem touches_propagateChanMode (server : Server) (source chan modes : Str)
    (params : List Str) : Touches marked server (server.propagateChanMode source chan modes params) :=
  .of_touch (.say server rfl rfl)

theorem touches_setOperPrefix (uid : Uid) (on : Bool) (server : Server) (key : Str) :
    Touches marked server (setOperPrefix uid on server key) := by
  unfold setOperPrefix
  split
  · split
    · split
      · refine .trans ?_ (touches_propagateChanMode ..)
        exact .of_touch (.regrade server key uid _)
      · exact .refl server
    · exact .refl server
  · exact .refl server

theorem chanMode_status (config : PrefixConfig) (hlet : letter ∈ ("qaohv" : Str)) :
    ∃ rank, chanMode config letter = some (.status letter rank) := by
  have hlets : ("qaohv" : Str) = ['q', 'a', 'o', 'h', 'v'] := rfl
  simp only [hlets, mem_cons, not_mem_nil, or_false] at hlet
  rcases hlet with rfl | rfl | rfl | rfl | rfl
  · exact ⟨50, rfl⟩
  · exact ⟨40, rfl⟩
  · exact ⟨30, rfl⟩
  · exact ⟨20, rfl⟩
  · exact ⟨10, rfl⟩

theorem touches_svsChanModeStep {chan : Str} {loop : ModeLoop} {entry : Bool × Char}
    (hlet : entry.2 ∈ ("qaohv" : Str)) :
    Touches marked loop.server (svsChanModeStep chan key loop entry).server := by
  obtain ⟨rank, hmode⟩ := chanMode_status loop.server.conf.prefixes hlet
  simp only [svsChanModeStep, hmode]
  split
  · exact .refl _
  · rename_i happ
    cases applyChanMode_edit happ with
    | status _ _ target grant => exact .of_touch (.regrade _ key target grant)
    | modes hst => exact absurd rfl (hst entry.2 rank)

section Loop

variable {rel : Server → Server → Prop} (hrefl : ∀ server, rel server server) {chan : Str}

include hrefl

theorem svsChanModeStep_rel
    (hchg : ∀ {server mode adding param change echo},
      server.applyChanMode chan key mode adding param = some (change, echo) →
        rel server (server.changeChannel key change)) (loop : ModeLoop) (entry : Bool × Char) :
    rel loop.server (svsChanModeStep chan key loop entry).server := by
  unfold svsChanModeStep
  split
  · exact hrefl _
  · simp only
    split
    · exact hrefl _
    · rename_i happ
      exact hchg happ

theorem svsSetChanModes_rel
    (htrans : ∀ {first second third}, rel first second → rel second third → rel first third)
    (hstep : ∀ entry ∈ signedLetters true modes, ∀ loop : ModeLoop,
      rel loop.server (svsChanModeStep chan (toAsciiLower chan) loop entry).server)
    (hsay : ∀ {server after : Server}, rel server after → ∀ letters params,
      rel after (after.propagateChanMode server.conf.sid chan letters params)) (server : Server)
    (args : List Str) : rel server (server.svsSetChanModes chan modes args) := by
  have hloop : rel server ((signedLetters true modes).foldl
      (svsChanModeStep chan (toAsciiLower chan)) { server := server, args := args }).server :=
    foldlRecOn (motive := fun loop : ModeLoop => rel server loop.server) _ _
      (hrefl server) fun loop hr entry hent => htrans hr (hstep entry hent loop)
  unfold svsSetChanModes
  simp only
  split
  · split
    · exact hloop
    · exact htrans hloop (hsay hloop ..)
  · exact hrefl server

end Loop

theorem touches_svsSetChanModes (server : Server) (chan : Str)
    (hmds : ∀ entry ∈ signedLetters true modes, entry.2 ∈ ("qaohv" : Str))
    (args : List Str) : Touches marked server (server.svsSetChanModes chan modes args) :=
  svsSetChanModes_rel .refl .trans (fun entry hent _ => touches_svsChanModeStep (hmds entry hent))
    (fun _ _ _ => touches_propagateChanMode ..) server args

/-! ## Hooks -/

theorem signedLetters_grant {letters : Str}
    (hlets : ∀ letter ∈ letters, letter ∈ ("qaohv" : Str)) :
    ∀ entry ∈ signedLetters true letters, entry.2 ∈ ("qaohv" : Str) := by
  induction letters with
  | nil => exact fun _ hent => absurd hent not_mem_nil
  | cons letter letters ih =>
    have hfst := hlets letter mem_cons_self
    have hplus : letter ≠ '+' := by
      rintro rfl
      exact absurd hfst (by decide)
    have hminus : letter ≠ '-' := by
      rintro rfl
      exact absurd hfst (by decide)
    intro entry hent
    rw [signedLetters.eq_4 _ _ _ hplus hminus, mem_cons] at hent
    rcases hent with rfl | hrest
    · exact hfst
    · exact ih (fun other ho => hlets other (mem_cons_of_mem _ ho)) entry
        hrest

theorem autoOpLetters_status (channel : Channel) (mask : Str) :
    ∀ letter ∈ autoOpLetters env channel mask, letter ∈ ("qaohv" : Str) := by
  refine foldlRecOn (motive := fun letters : Str =>
    ∀ letter ∈ letters, letter ∈ ("qaohv" : Str)) _ _ ?_ ?_
  · exact fun _ hlet => absurd hlet not_mem_nil
  · intro letters hlets entry _
    split
    · split
      · rename_i hgrant
        intro letter hlet
        rcases mem_append.mp hlet with hold | hnew
        · exact hlets letter hold
        · rw [mem_singleton.mp hnew]
          exact hgrant.1
      · exact hlets
    · exact hlets

theorem touches_autoOpJoin (uid : Uid) (key : Str) (server : Server) :
    Touches marked server (server.autoOpJoin env uid key) := by
  unfold autoOpJoin
  split
  · simp only
    split
    · exact .refl server
    · exact touches_svsSetChanModes server key
        (signedLetters_grant fun letter => autoOpLetters_status env _ _ letter) _
  · exact .refl server

theorem touches_propagateAll (server : Server) {outs : List Out}
    (houts : ∀ out ∈ outs, out.isHandshake = false ∧ out.isForward = false) :
    Touches marked server (server.propagateAll outs none) :=
  foldlRecOn (motive := Touches marked server) outs _ (.refl server) fun middle hmid out hout =>
    hmid.trans (.of_touch (.say middle (houts out hout).1 (houts out hout).2))

theorem mem_userIntroLines {user : User} {out : Out} (hout : out ∈ server.userIntroLines user) :
    out = .uid server.conf.sid user ∨ ∃ key value,
      out = .metadata server.conf.sid user.uuid key value := by
  rcases mem_cons.mp hout with huid | hmore
  · exact .inl huid
  · refine .inr ?_
    rcases mem_append.mp hmore with hacc | hcfp
    · split at hacc
      · exact ⟨_, _, mem_singleton.mp hacc⟩
      · cases hacc
    · split at hcfp
      · exact ⟨_, _, mem_singleton.mp hcfp⟩
      · cases hcfp

theorem userIntroLines_routine {user : User} {out : Out} (hout : out ∈ server.userIntroLines user) :
    out.isHandshake = false ∧ out.isForward = false := by
  rcases mem_userIntroLines hout with rfl | ⟨key, value, rfl⟩ <;> exact ⟨rfl, rfl⟩

theorem touches_introduceToLinks (uid : Uid) (server : Server) :
    Touches marked server (server.introduceToLinks uid) := by
  unfold introduceToLinks
  split
  · exact touches_propagateAll server fun out hout => userIntroLines_routine hout
  · exact .refl server

theorem touches_onUserConnect (hmk : marked uid)
    (server : Server) : Touches marked server (server.onUserConnect env uid) := by
  have hchg : ∀ (server : Server) {change : User → User},
      (∀ user, (change user).badge = user.badge) →
      Touches marked server (server.changeUser uid change) :=
    fun server _ hbadge => .of_touch (.user server uid hbadge (.inl hmk))
  unfold onUserConnect
  cases env.computeCloak server uid with
  | none =>
    simp only
    split
    · exact hchg server fun _ => rfl
    · exact .refl server
  | some cloak =>
    have hcloaked := hchg server fun user =>
      (rfl : User.badge { user.setFlag .cloak true with cloak := cloak } = user.badge)
    simp only
    split
    · exact hcloaked.trans (hchg _ fun _ => rfl)
    · exact hcloaked

theorem touches_joinHook (server : Server) (uid : Uid) (key : Str) :
    Touches (fun _ => False) server (server.runHook env (.join uid key)) := by
  refine (touches_autoOpJoin env uid key server).trans ?_
  rw [runHook, operPrefixJoin]
  split
  · exact touches_setOperPrefix ..
  · exact .refl _

theorem touches_runHook (server : Server) {hook : Hook}
    (hmk : ∀ uid, hook = .connect uid → marked uid) :
    Touches marked server (server.runHook env hook) := by
  cases hook with
  | connect uid =>
    exact (touches_onUserConnect env (hmk uid rfl) server).trans
      (touches_introduceToLinks ..)
  | join uid key => exact (touches_joinHook env server uid key).mono fun _ hfalse => hfalse.elim

theorem touches_drainHooks (server : Server) :
    Touches (fun uid => .connect uid ∈ server.events) { server with events := [] }
      (server.drainHooks env) := by
  refine foldlRecOn (motive := Touches _ { server with events := [] }) server.events _
    (.refl _) ?_
  intro reached hr hook hhook
  refine hr.trans (touches_runHook env reached fun uid hconnect => ?_)
  exact hconnect ▸ hhook

/-! ## User modes -/

theorem badge_setUserFlag (flag : UserFlag) (adding : Bool) (user : User) :
    (setUserFlag flag adding user).badge = user.badge := by
  unfold setUserFlag
  split <;> rfl

theorem ident_setUserFlag (flag : UserFlag) (adding : Bool) (user : User) :
    (setUserFlag flag adding user).ident = user.ident := by
  unfold setUserFlag
  split <;> rfl

theorem applyUserMode_cases (happ : server.applyUserMode uid flag adding = some after) :
    after = (server.changeUser uid (User.setFlag .oper false)).clearAllOperPrefix uid ∨
      after = server.changeUser uid (User.setFlag .cloak adding) ∨
      after = server.changeUser uid (setUserFlag flag adding) := by
  unfold applyUserMode at happ
  split at happ
  · cases happ
  · split at happ
    · split at happ <;> cases happ
      exact .inl rfl
    · split at happ <;> cases happ
      exact .inr (.inl rfl)
    · cases happ
    · split at happ <;> cases happ
      exact .inr (.inr rfl)

theorem touches_applyUserMode (happ : server.applyUserMode uid flag adding = some after) :
    Touches marked server after := by
  rcases applyUserMode_cases happ with rfl | rfl | rfl
  · refine .trans ?_ (foldl_rel .refl .trans (touches_setOperPrefix uid false) _ _)
    exact .of_touch (.user server uid (fun _ => rfl) (.inr fun _ => rfl))
  · exact .of_touch (.user server uid (fun _ => rfl) (.inr fun _ => rfl))
  · exact .of_touch (.user server uid (fun _ => badge_setUserFlag ..)
      (.inr fun _ => ident_setUserFlag ..))

theorem svsSetUserModes_rel {rel : Server → Server → Prop} (hrefl : ∀ server, rel server server)
    (htrans : ∀ {first second third}, rel first second → rel second third → rel first third)
    (uid : Uid)
    (happ : ∀ {server after flag adding},
      applyUserMode uid flag adding server = some after → rel server after)
    (hsay : ∀ {server user} modes, server.users.lookup uid = some user → user.registered = true →
      rel server (server.propagate (.umode user.uuid modes) none))
    (modes : Str) (server : Server) : rel server (server.svsSetUserModes uid modes) := by
  have hloop : rel server
      ((signedLetters true modes).foldl (svsUserModeStep uid) (server, [])).1 := by
    refine foldlRecOn (motive := fun state : Server × List (Bool × Char) =>
      rel server state.1) _ _ (hrefl server) ?_
    intro state hr entry _
    refine htrans hr ?_
    unfold svsUserModeStep
    split
    · exact hrefl state.1
    · split
      · rename_i hsome
        exact happ hsome
      · exact hrefl state.1
  unfold svsSetUserModes
  simp only
  split
  · exact hloop
  · split
    · rename_i hu
      split
      · rename_i hreg
        exact htrans hloop (hsay _ hu hreg)
      · exact hloop
    · exact hloop

theorem touches_svsSetUserModes (uid : Uid) (modes : Str) (server : Server) :
    Touches (fun _ => False) server (server.svsSetUserModes uid modes) :=
  svsSetUserModes_rel .refl .trans uid touches_applyUserMode
    (fun _ _ _ => .of_touch (.say _ rfl rfl)) modes server

theorem touches_setConnUmodes (uid : Uid) (server : Server) :
    Touches (fun _ => False) server (server.setConnUmodes uid) := by
  unfold setConnUmodes
  split
  · exact touches_svsSetUserModes ..
  · exact .refl server

end Server

end EchoIrcd
