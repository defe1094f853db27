import EchoIrcd.Traffic
import EchoIrcd.Netsplit
import EchoIrcd.Lib.Index

/-!
# Nicks and their indexes

The server keeps two indexes from case-folded nicks, one to its own
connections and one to the users of other servers.  A nick that opens with a
digit is the uuid of its holder, which no other user may take: this is what
makes the forced renames of a collision safe.  The invariant here says so, and
that the indexes agree with the user tables; each operation that renames,
introduces or removes somebody keeps it.
-/

namespace EchoIrcd

open Str Index Table Option

variable {remote : RemoteUser} {after before first second server third : Server}
  {newnick nick sid uuid : Str} {uid : Uid} {user : User} {change : User → User} (env : Env)

/-! ## Who holds which nick -/

def User.name (user : User) : Str × Str := (user.uuid, user.nick)

namespace Server

def nameOf (server : Server) (uid : Uid) : Option (Str × Str) :=
  (server.users.lookup uid).map User.name

def nickOf (server : Server) (uid : Uid) : Option Str :=
  (server.nameOf uid).bind fun name =>
    if name.2 = [] then none else some (toAsciiLower name.2)

def remoteNameOf (server : Server) (uuid : Str) : Option Str :=
  (server.remoteUsers.lookup uuid).map RemoteUser.nick

def remoteNickOf (server : Server) (uuid : Str) : Option Str :=
  (server.remoteNameOf uuid).map toAsciiLower

def heldBy (server : Server) : Uid ⊕ Str → Option Str
  | .inl uid => server.nickOf uid
  | .inr uuid => server.remoteNickOf uuid

/-- Both indexes are exact, and no two users share a nick. -/
structure NicksIndexed (server : Server) : Prop where
  users : Exact (fun nick => server.nickIndex.lookup nick) server.nickOf
  remotes : Exact (fun nick => server.remoteNick.lookup nick) server.remoteNickOf
  unique : ∀ {nick first second}, server.heldBy first = some nick →
    server.heldBy second = some nick → first = second

end Server

/-! ## Uuids -/

def IsForeign (sid uuid : Str) : Prop :=
  ∃ other, validSid other = true ∧ other ≠ sid ∧ other <+: uuid

theorem opensWithDigit_of_validSid (hsid : validSid sid = true) (rest : Str) :
    opensWithDigit (sid ++ rest) = true := by
  simp only [validSid, decide_eq_true_eq] at hsid
  cases sid with
  | nil => cases hsid.1
  | cons first sid => simpa [opensWithDigit] using hsid.2.1

theorem IsUuid.opensWithDigit (hsid : validSid sid = true)
    (huuid : IsUuid sid uuid) : opensWithDigit uuid = true := by
  obtain ⟨suffix, rfl, -⟩ := huuid
  exact opensWithDigit_of_validSid hsid suffix

theorem IsForeign.opensWithDigit (huuid : IsForeign sid uuid) : opensWithDigit uuid = true := by
  obtain ⟨other, ho, -, rest, rfl⟩ := huuid
  exact opensWithDigit_of_validSid ho rest

theorem IsForeign.lower_ne {own : Str} (hsid : validSid sid = true) (huuid : IsForeign sid uuid)
    (hown : IsUuid sid own) : toAsciiLower uuid ≠ toAsciiLower own := by
  obtain ⟨other, ho, hne, rest, rfl⟩ := huuid
  obtain ⟨suffix, rfl, -⟩ := hown
  intro hlow
  simp only [validSid, decide_eq_true_eq] at hsid ho
  simp only [toAsciiLower, List.map_append] at hlow
  have hfront := List.append_inj_left hlow (by simp [hsid.1, ho.1])
  exact hne (toAsciiLower_inj_of_isCaps ho.2.2 hsid.2.2 hfront)

theorem opensWithDigit_of_validNick {maxlen : Nat}
    (hnick : validNick nick maxlen = true) : opensWithDigit nick = false := by
  cases nick with
  | nil => rfl
  | cons first rest =>
    simp only [validNick, Bool.and_eq_true] at hnick
    have hfst := hnick.1.1
    have hnone : List.all ("[]\\`_^\x7b\x7d|" : Str) (fun char => !char.isDigit) = true := by
      decide +kernel
    have hspecial : ∀ char ∈ ("[]\\`_^\x7b\x7d|" : Str), char.isDigit = false := by
      intro char hchar
      simpa using List.all_eq_true.mp hnone char hchar
    cases hdig : first.isDigit with
    | false => simpa [opensWithDigit] using hdig
    | true =>
      rw [isAlpha_of_isDigit hdig, Bool.false_or, decide_eq_true_eq] at hfst
      rw [hspecial first hfst] at hdig
      cases hdig

/-! ## The invariant -/

namespace Server

structure WellNamed (server : Server) : Prop where
  sid : validSid server.conf.sid = true
  servers : ∀ {sid}, sid ∈ server.servers → validSid sid = true ∧ sid ≠ server.conf.sid
  people : ∀ {uid uuid nick}, server.nameOf uid = some (uuid, nick) →
    server.uuidLocal.lookup uuid = some uid ∧ IsUuid server.conf.sid uuid ∧
      (opensWithDigit nick = true → nick = uuid)
  remotes : ∀ {uuid nick}, server.remoteNameOf uuid = some nick →
    IsForeign server.conf.sid uuid ∧ (opensWithDigit nick = true → nick = uuid)
  folded : ∀ {first second nick other}, server.remoteNameOf first = some nick →
    server.remoteNameOf second = some other →
    toAsciiLower first = toAsciiLower second → first = second
  index : Exact (fun nick => server.nickIndex.lookup nick) server.nickOf
  rindex : Exact (fun nick => server.remoteNick.lookup nick) server.remoteNickOf
  apart : ∀ {nick uid}, server.nickIndex.lookup nick = some uid →
    server.remoteNick.lookup nick = none

theorem WellNamed.nicksIndexed (hnm : server.WellNamed) : server.NicksIndexed where
  users := hnm.index
  remotes := hnm.rindex
  unique := by
    intro nick first second hfst hsec
    cases first with
    | inl uid =>
      have hloc := (hnm.index nick uid).mpr hfst
      cases second with
      | inl other => rw [hnm.index.unique hsec hfst]
      | inr uuid =>
        have hrem : server.remoteNick.lookup nick = some uuid :=
          (hnm.rindex nick uuid).mpr hsec
        rw [hnm.apart hloc] at hrem
        cases hrem
    | inr uuid =>
      have hrem : server.remoteNick.lookup nick = some uuid :=
        (hnm.rindex nick uuid).mpr hfst
      cases second with
      | inl uid =>
        rw [hnm.apart ((hnm.index nick uid).mpr hsec)] at hrem
        cases hrem
      | inr other => rw [hnm.rindex.unique hsec hfst]

/-! ## Taken nicks -/

theorem nickOf_eq_some :
    server.nickOf uid = some nick ↔
      ∃ uuid held, server.nameOf uid = some (uuid, held) ∧ held ≠ [] ∧
        toAsciiLower held = nick := by
  rw [nickOf, bind_eq_some_iff]
  constructor
  · rintro ⟨⟨uuid, held⟩, hname, hheld⟩
    split at hheld
    · cases hheld
    · exact ⟨uuid, held, hname, by assumption, some.inj hheld⟩
  · rintro ⟨uuid, held, hname, hne, hlow⟩
    exact ⟨(uuid, held), hname, by rw [if_neg hne, hlow]⟩

theorem remoteNickOf_eq_some :
    server.remoteNickOf uuid = some nick ↔
      ∃ held, server.remoteNameOf uuid = some held ∧ toAsciiLower held = nick :=
  map_eq_some_iff

section Taken

variable {server : Server} (hnm : server.WellNamed)

include hnm

theorem WellNamed.index_uuid {other : Uid} (hname : server.nameOf uid = some (uuid, nick))
    (hf : server.nickIndex.lookup (toAsciiLower uuid) = some other) : other = uid := by
  obtain ⟨hloc, huuid, -⟩ := hnm.people hname
  obtain ⟨holder, held, hhol, -, hlow⟩ := nickOf_eq_some.mp ((hnm.index _ _).mp hf)
  obtain ⟨ho, hisUuid, hdig⟩ := hnm.people hhol
  rw [hdig (opensWithDigit_of_lower hlow (huuid.opensWithDigit hnm.sid))] at hlow
  have hs := toAsciiLower_inj_of_isCaps (hisUuid.isCaps hnm.sid)
    (huuid.isCaps hnm.sid) hlow
  rw [hs, hloc] at ho
  exact (some.inj ho).symm

theorem WellNamed.rindex_uuid (hname : server.nameOf uid = some (uuid, nick)) :
    server.remoteNick.lookup (toAsciiLower uuid) = none := by
  obtain ⟨-, huuid, -⟩ := hnm.people hname
  by_contra hf
  obtain ⟨other, ho⟩ := ne_none_iff_exists'.mp hf
  obtain ⟨held, hrem, hlow⟩ := remoteNickOf_eq_some.mp ((hnm.rindex _ _).mp ho)
  obtain ⟨hfor, hdig⟩ := hnm.remotes hrem
  rw [hdig (opensWithDigit_of_lower hlow (huuid.opensWithDigit hnm.sid))] at hlow
  exact hfor.lower_ne hnm.sid huuid hlow

theorem WellNamed.index_foreign (hfor : IsForeign server.conf.sid uuid) :
    server.nickIndex.lookup (toAsciiLower uuid) = none := by
  by_contra hf
  obtain ⟨uid, huid⟩ := ne_none_iff_exists'.mp hf
  obtain ⟨own, held, hname, -, hlow⟩ := nickOf_eq_some.mp ((hnm.index _ _).mp huid)
  obtain ⟨-, huuid, hdig⟩ := hnm.people hname
  rw [hdig (opensWithDigit_of_lower hlow hfor.opensWithDigit)] at hlow
  exact hfor.lower_ne hnm.sid huuid hlow.symm

theorem WellNamed.rindex_foreign {other : Str} (hfor : IsForeign server.conf.sid uuid)
    (hf : server.remoteNick.lookup (toAsciiLower uuid) = some other) :
    (∃ nick, server.remoteNameOf other = some nick) ∧ toAsciiLower other = toAsciiLower uuid := by
  obtain ⟨held, hrem, hlow⟩ := remoteNickOf_eq_some.mp ((hnm.rindex _ _).mp hf)
  obtain ⟨-, hdig⟩ := hnm.remotes hrem
  rw [hdig (opensWithDigit_of_lower hlow hfor.opensWithDigit)] at hlow
  exact ⟨⟨held, hrem⟩, hlow⟩

end Taken

/-! ## Operations that rename nobody -/

structure SameNames (before after : Server) : Prop where
  conf : after.conf = before.conf
  servers : after.servers = before.servers
  names : after.nameOf = before.nameOf
  uuidLocal : after.uuidLocal = before.uuidLocal
  nickIndex : after.nickIndex = before.nickIndex
  remotes : after.remoteNameOf = before.remoteNameOf
  remoteNick : after.remoteNick = before.remoteNick

theorem SameNames.refl (server : Server) : SameNames server server :=
  ⟨rfl, rfl, rfl, rfl, rfl, rfl, rfl⟩

theorem SameNames.trans (hleft : SameNames first second)
    (hrt : SameNames second third) : SameNames first third where
  conf := hrt.conf.trans hleft.conf
  servers := hrt.servers.trans hleft.servers
  names := hrt.names.trans hleft.names
  uuidLocal := hrt.uuidLocal.trans hleft.uuidLocal
  nickIndex := hrt.nickIndex.trans hleft.nickIndex
  remotes := hrt.remotes.trans hleft.remotes
  remoteNick := hrt.remoteNick.trans hleft.remoteNick

theorem nickOf_congr (hnms : after.nameOf = before.nameOf) : after.nickOf = before.nickOf := by
  funext uid
  rw [nickOf, nickOf, hnms]

theorem remoteNickOf_congr (hremotes : after.remoteNameOf = before.remoteNameOf) :
    after.remoteNickOf = before.remoteNickOf := by
  funext uuid
  rw [remoteNickOf, remoteNickOf, hremotes]

theorem WellNamed.of_sameNames (hnm : before.WellNamed)
    (hs : SameNames before after) : after.WellNamed := by
  obtain ⟨hconf, hsvs, hnms, hloc, hidx, hus, hrindex⟩ := hs
  constructor
  · rw [hconf]
    exact hnm.sid
  · rw [hconf, hsvs]
    exact hnm.servers
  · rw [hconf, hnms, hloc]
    exact hnm.people
  · rw [hconf, hus]
    exact hnm.remotes
  · rw [hus]
    exact hnm.folded
  · rw [nickOf_congr hnms, hidx]
    exact hnm.index
  · rw [remoteNickOf_congr hus, hrindex]
    exact hnm.rindex
  · rw [hidx, hrindex]
    exact hnm.apart

section

variable (server : Server)

theorem sameNames_propagate (out : Out) (except : Option Uid) :
    SameNames server (server.propagate out except) :=
  ⟨rfl, rfl, rfl, rfl, rfl, rfl, rfl⟩

theorem sameNames_linkOut (uid : Uid) (out : Out) : SameNames server (server.linkOut uid out) :=
  ⟨rfl, rfl, rfl, rfl, rfl, rfl, rfl⟩

theorem sameNames_changeLink (uid : Uid) (change : Link → Link) :
    SameNames server (server.changeLink uid change) :=
  ⟨rfl, rfl, rfl, rfl, rfl, rfl, rfl⟩

theorem sameNames_setClock (now : Timestamp) : SameNames server (server.setClock now) :=
  ⟨rfl, rfl, rfl, rfl, rfl, rfl, rfl⟩

/-! ## Renaming a connection -/

theorem nameOf_mapValues {users : Table Uid User} {change : Uid → User → User}
    (hchg : ∀ uid user, (change uid user).name = user.name) (uid : Uid) :
    ((mapValues change users).lookup uid).map User.name = (users.lookup uid).map User.name := by
  rw [lookup_mapValues, map_map]
  exact congrArg (Option.map · _) (funext (hchg uid))

theorem sameNames_propagateNick (uid : Uid) (newnick : Str) :
    SameNames server (server.propagateNick uid newnick) := by
  unfold propagateNick
  split
  · split
    · exact sameNames_propagate ..
    · exact .refl server
  · exact .refl server

theorem sameNames_renameAccepted (old new : Str) :
    SameNames server (server.renameAccepted old new) := by
  refine ⟨rfl, rfl, ?_, rfl, rfl, rfl, rfl⟩
  funext uid
  refine nameOf_mapValues ?_ uid
  exact fun _ _ => rfl

end

/-- The nick of one connection changes, in the table and in the index. -/
structure Renamed (uid : Uid) (user : User) (newnick : Str) (before after : Server) :
    Prop where
  conf : after.conf = before.conf
  servers : after.servers = before.servers
  names : ∀ other, after.nameOf other =
    if other = uid then some (user.uuid, newnick) else before.nameOf other
  uuidLocal : after.uuidLocal = before.uuidLocal
  nickIndex : after.nickIndex =
    (if user.nick ≠ [] then before.nickIndex.erase (toAsciiLower user.nick)
      else before.nickIndex).insert (toAsciiLower newnick) uid
  remotes : after.remoteNameOf = before.remoteNameOf
  remoteNick : after.remoteNick = before.remoteNick

theorem Renamed.of_sameNames (hleft : Renamed uid user newnick first second)
    (hrt : SameNames second third) : Renamed uid user newnick first third where
  conf := hrt.conf.trans hleft.conf
  servers := hrt.servers.trans hleft.servers
  names := fun other => by rw [hrt.names, hleft.names]
  uuidLocal := hrt.uuidLocal.trans hleft.uuidLocal
  nickIndex := hrt.nickIndex.trans hleft.nickIndex
  remotes := hrt.remotes.trans hleft.remotes
  remoteNick := hrt.remoteNick.trans hleft.remoteNick

section

variable (hu : server.users.lookup uid = some user)

include hu

theorem setNick_renamed (newnick : Str) :
    Renamed uid user newnick server (server.setNick uid newnick) := by
  simp only [setNick, hu]
  refine .of_sameNames ?_ (sameNames_propagateNick ..)
  have hren : Renamed uid user newnick server { server with
      nickIndex := (if user.nick ≠ [] then
          server.nickIndex.erase (toAsciiLower user.nick)
        else server.nickIndex).insert (toAsciiLower newnick) uid
      users := modify uid (fun user =>
        { user with nick := newnick, nickTs := server.clock }) server.users } := by
    refine ⟨rfl, rfl, ?_, rfl, rfl, rfl, rfl⟩
    intro other
    simp only [nameOf, lookup_modify]
    by_cases ho : other = uid
    · simp [ho, hu, User.name]
    · simp [ho]
  split
  · exact hren.of_sameNames (sameNames_renameAccepted ..)
  · exact hren

theorem nickOf_of_user :
    server.nickOf uid = if user.nick = [] then none else some (toAsciiLower user.nick) := by
  rw [nickOf, nameOf, hu]
  rfl

theorem lookup_freed (nick : Str) :
    (if user.nick ≠ [] then server.nickIndex.erase (toAsciiLower user.nick)
      else server.nickIndex).lookup nick =
      if server.nickOf uid = some nick then none else server.nickIndex.lookup nick := by
  rw [nickOf_of_user hu]
  by_cases hnil : user.nick = []
  · simp [hnil]
  · rw [if_pos hnil, if_neg hnil, lookup_erase_eq]
    simp only [some.injEq, eq_comm]

end

theorem WellNamed.renamed (hnm : before.WellNamed) (hu : before.users.lookup uid = some user)
    (hren : Renamed uid user newnick before after) (hne : newnick ≠ [])
    (hdig : opensWithDigit newnick = true → newnick = user.uuid)
    (hfree : ∀ other, before.nickIndex.lookup (toAsciiLower newnick) = some other → other = uid)
    (hrem : before.remoteNick.lookup (toAsciiLower newnick) = none) : after.WellNamed := by
  have hname : before.nameOf uid = some (user.uuid, user.nick) := by
    rw [nameOf, hu]
    rfl
  constructor
  · rw [hren.conf]
    exact hnm.sid
  · rw [hren.conf, hren.servers]
    exact hnm.servers
  · intro other uuid nick ho
    rw [hren.conf, hren.uuidLocal]
    rw [hren.names] at ho
    split at ho
    next hself =>
      cases ho
      obtain ⟨hloc, huuid, -⟩ := hnm.people hname
      exact ⟨hself ▸ hloc, huuid, hdig⟩
    next => exact hnm.people ho
  · rw [hren.conf, hren.remotes]
    exact hnm.remotes
  · rw [hren.remotes]
    exact hnm.folded
  · refine hnm.index.rename hfree ?_ ?_
    · intro other
      rw [hren.nickIndex, lookup_insert_eq]
      rw [lookup_freed hu]
    · intro other
      simp only [nickOf, hren.names]
      split
      · simp [hne]
      · rfl
  · rw [remoteNickOf_congr hren.remotes, hren.remoteNick]
    exact hnm.rindex
  · intro nick other ho
    rw [hren.nickIndex, lookup_insert_eq, lookup_freed hu] at ho
    rw [hren.remoteNick]
    split at ho
    next hnew => rw [hnew, hrem]
    next =>
      split at ho
      next => cases ho
      next => exact hnm.apart ho

theorem WellNamed.setNick_uuid (hnm : server.WellNamed)
    (hu : server.users.lookup uid = some user) : (server.setNick uid user.uuid).WellNamed := by
  have hname : server.nameOf uid = some (user.uuid, user.nick) := by
    rw [nameOf, hu]
    rfl
  obtain ⟨-, huuid, -⟩ := hnm.people hname
  have hne : user.uuid ≠ [] := by
    intro hnil
    have hopens := huuid.opensWithDigit hnm.sid
    rw [hnil] at hopens
    cases hopens
  exact hnm.renamed hu (setNick_renamed hu _) hne (fun _ => rfl)
    (fun other ho => hnm.index_uuid hname ho) (hnm.rindex_uuid hname)

/-! ## Renaming and introducing a remote user -/

structure RemoteNamed (uuid nick : Str) (before after : Server) : Prop where
  conf : after.conf = before.conf
  servers : after.servers = before.servers
  names : after.nameOf = before.nameOf
  uuidLocal : after.uuidLocal = before.uuidLocal
  nickIndex : after.nickIndex = before.nickIndex
  remotes : ∀ other, after.remoteNameOf other =
    if other = uuid then some nick else before.remoteNameOf other
  remoteNick : ∀ key, after.remoteNick.lookup key =
    if key = toAsciiLower nick then some uuid
    else if before.remoteNickOf uuid = some key then none
    else before.remoteNick.lookup key

theorem WellNamed.remoteNamed (hnm : before.WellNamed)
    (hren : RemoteNamed uuid nick before after) (hfor : IsForeign before.conf.sid uuid)
    (hfd : ∀ other held, before.remoteNameOf other = some held →
      toAsciiLower other = toAsciiLower uuid → other = uuid)
    (hdig : opensWithDigit nick = true → nick = uuid)
    (hloc : before.nickIndex.lookup (toAsciiLower nick) = none)
    (hfree : ∀ other, before.remoteNick.lookup (toAsciiLower nick) = some other → other = uuid) :
    after.WellNamed := by
  constructor
  · rw [hren.conf]
    exact hnm.sid
  · rw [hren.conf, hren.servers]
    exact hnm.servers
  · rw [hren.conf, hren.names, hren.uuidLocal]
    exact hnm.people
  · intro other held ho
    rw [hren.conf]
    rw [hren.remotes] at ho
    split at ho
    next hself =>
      cases ho
      rw [hself]
      exact ⟨hfor, hdig⟩
    next => exact hnm.remotes ho
  · intro first second held other hfst hsec hlow
    rw [hren.remotes] at hfst hsec
    split at hfst
    next hself =>
      subst hself
      split at hsec
      next hs => exact hs.symm
      next => exact (hfd second other hsec hlow.symm).symm
    next =>
      split at hsec
      next hself =>
        subst hself
        exact hfd first held hfst hlow
      next => exact hnm.folded hfst hsec hlow
  · rw [nickOf_congr hren.names, hren.nickIndex]
    exact hnm.index
  · refine hnm.rindex.rename hfree hren.remoteNick ?_
    intro other
    rw [remoteNickOf, hren.remotes]
    split
    · rfl
    · rfl
  · intro key uid hkey
    rw [hren.nickIndex] at hkey
    rw [hren.remoteNick]
    split
    next hnew =>
      rw [hnew, hloc] at hkey
      cases hkey
    next =>
      split
      next => rfl
      next => exact hnm.apart hkey

theorem enterRemoteUser_remoteNamed (hfre : remote.uuid ∉ server.remoteUsers) :
    RemoteNamed remote.uuid remote.nick server (server.enterRemoteUser remote) := by
  have habs : server.remoteNickOf remote.uuid = none := by
    rw [remoteNickOf, remoteNameOf, AList.lookup_eq_none.mpr hfre]
    rfl
  refine ⟨rfl, rfl, rfl, rfl, rfl, ?_, ?_⟩
  · intro other
    simp only [remoteNameOf, enterRemoteUser_remoteUsers, lookup_insert_eq]
    split <;> rfl
  · intro key
    simp only [enterRemoteUser_remoteNick, lookup_insert_eq, habs]
    rfl

section

variable (hrem : server.remoteUsers.lookup uuid = some remote)

include hrem

theorem remoteNickOf_of_lookup :
    server.remoteNickOf uuid = some (toAsciiLower remote.nick) := by
  rw [remoteNickOf, remoteNameOf, hrem]
  rfl

theorem renameRemote_remoteNamed (newnick : Str) (ts : Timestamp) :
    RemoteNamed uuid newnick server (server.renameRemote uuid remote.nick newnick ts) := by
  refine ⟨rfl, rfl, rfl, rfl, rfl, ?_, ?_⟩
  · intro other
    simp only [remoteNameOf, renameRemote_remoteUsers, lookup_modify]
    by_cases ho : other = uuid
    · simp [ho, hrem]
    · simp [ho]
  · intro key
    simp only [renameRemote_remoteNick, lookup_insert_eq, lookup_erase_eq, remoteNickOf_of_lookup hrem,
      some.injEq, eq_comm]

theorem saveRemoteUser_remoteNamed
    (ho : toAsciiLower remote.nick ≠ toAsciiLower uuid) :
    RemoteNamed uuid uuid server (server.saveRemoteUser uuid) := by
  have hcase : eqIgnoreAsciiCase remote.nick uuid = false := by
    simpa [eqIgnoreAsciiCase] using ho
  simp only [saveRemoteUser, hrem, hcase, Bool.false_eq_true, if_false]
  refine ⟨rfl, rfl, rfl, rfl, rfl, ?_, ?_⟩
  · intro other
    simp only [remoteNameOf, propagate, lookup_insert_eq]
    split <;> rfl
  · intro key
    simp only [propagate, lookup_insert_eq, lookup_erase_eq, remoteNickOf_of_lookup hrem, some.injEq, eq_comm]

end

theorem WellNamed.saveRemoteUser (hnm : server.WellNamed)
    (uuid : Str) : (server.saveRemoteUser uuid).WellNamed := by
  cases hrem : server.remoteUsers.lookup uuid with
  | none =>
    simp only [Server.saveRemoteUser, hrem]
    exact hnm
  | some remote =>
    have hname : server.remoteNameOf uuid = some remote.nick := by
      rw [remoteNameOf, hrem]
      rfl
    obtain ⟨hfor, hdig⟩ := hnm.remotes hname
    by_cases hlow : toAsciiLower remote.nick = toAsciiLower uuid
    · -- the user is at its uuid already
      have hnick : remote.nick = uuid :=
        hdig (opensWithDigit_of_lower hlow hfor.opensWithDigit)
      have hcase : eqIgnoreAsciiCase remote.nick uuid = true := by
        simpa [eqIgnoreAsciiCase] using hlow
      simp only [Server.saveRemoteUser, hrem, hcase, if_true]
      refine hnm.of_sameNames ⟨rfl, rfl, rfl, rfl, rfl, ?_, rfl⟩
      funext other
      simp only [remoteNameOf, lookup_insert_eq]
      split
      next hself => rw [hself, hrem, map_some, map_some, hnick]
      next => rfl
    · have hfd : ∀ other held, server.remoteNameOf other = some held →
          toAsciiLower other = toAsciiLower uuid → other = uuid :=
        fun other held ho hs => hnm.folded ho hname hs
      refine hnm.remoteNamed (saveRemoteUser_remoteNamed hrem hlow) hfor
        hfd (fun _ => rfl) (hnm.index_foreign hfor) ?_
      intro other ho
      obtain ⟨⟨held, hheld⟩, hs⟩ := hnm.rindex_foreign hfor ho
      exact hfd other held hheld hs

/-! ## Departures -/

structure RemoteGone (uuid : Str) (before after : Server) : Prop where
  conf : after.conf = before.conf
  servers : after.servers = before.servers
  names : after.nameOf = before.nameOf
  uuidLocal : after.uuidLocal = before.uuidLocal
  nickIndex : after.nickIndex = before.nickIndex
  remotes : ∀ other, after.remoteNameOf other =
    if other = uuid then none else before.remoteNameOf other
  remoteNick : ∀ key, after.remoteNick.lookup key =
    if before.remoteNickOf uuid = some key then none else before.remoteNick.lookup key

theorem dropRemoteUser_remoteGone (hrem : server.remoteUsers.lookup uuid = some remote) :
    RemoteGone uuid server (server.dropRemoteUser uuid) := by
  simp only [dropRemoteUser, hrem]
  refine ⟨rfl, rfl, rfl, rfl, rfl, ?_, ?_⟩
  · intro other
    simp only [remoteNameOf, lookup_erase_eq]
    split <;> rfl
  · intro key
    simp only [lookup_erase_eq, remoteNickOf_of_lookup hrem, some.injEq, eq_comm]

theorem WellNamed.remoteGone (hnm : before.WellNamed) (hgone : RemoteGone uuid before after) :
    after.WellNamed := by
  have hkept : ∀ {other held}, after.remoteNameOf other = some held →
      before.remoteNameOf other = some held := by
    intro other held ho
    rw [hgone.remotes] at ho
    split at ho
    next => cases ho
    next => exact ho
  constructor
  · rw [hgone.conf]
    exact hnm.sid
  · rw [hgone.conf, hgone.servers]
    exact hnm.servers
  · rw [hgone.conf, hgone.names, hgone.uuidLocal]
    exact hnm.people
  · intro other held ho
    rw [hgone.conf]
    exact hnm.remotes (hkept ho)
  · intro first second held other hfst hsec
    exact hnm.folded (hkept hfst) (hkept hsec)
  · rw [nickOf_congr hgone.names, hgone.nickIndex]
    exact hnm.index
  · refine hnm.rindex.remove hgone.remoteNick ?_
    intro other
    rw [remoteNickOf, hgone.remotes]
    split
    · rfl
    · rfl
  · intro key uid hkey
    rw [hgone.nickIndex] at hkey
    rw [hgone.remoteNick]
    split
    · rfl
    · exact hnm.apart hkey

theorem WellNamed.dropRemoteUser (hnm : server.WellNamed)
    (uuid : Str) : (server.dropRemoteUser uuid).WellNamed := by
  cases hrem : server.remoteUsers.lookup uuid with
  | none =>
    simp only [Server.dropRemoteUser, hrem]
    exact hnm
  | some remote => exact hnm.remoteGone (dropRemoteUser_remoteGone hrem)

theorem WellNamed.closeLink (hnm : server.WellNamed) (link : Uid) :
    (server.closeLink link).WellNamed := by
  have hunlinked : (server.unlink link).WellNamed := by
    refine ⟨hnm.sid, ?_, hnm.people, hnm.remotes, hnm.folded, hnm.index,
      hnm.rindex, hnm.apart⟩
    intro sid hsid
    apply hnm.servers
    rw [mem_iff_lookup] at hsid ⊢
    obtain ⟨remote, hrem⟩ := hsid
    rw [unlink, lookup_retain, filter_eq_some_iff] at hrem
    exact ⟨remote, hrem.1⟩
  refine List.foldlRecOn (motive := fun reached : Server => reached.WellNamed)
    (server.behind link) _ hunlinked ?_
  intro reached hr uuid _
  exact hr.dropRemoteUser uuid

/-! ## Connections -/

theorem WellNamed.addConn (hnm : server.WellNamed) (hfre : uid ∉ server.users)
    (huuid : IsUuid server.conf.sid user.uuid) (hnew : user.uuid ∉ server.uuidLocal)
    (hnick : user.nick = []) : (server.addConn uid user).WellNamed := by
  have hnms : ∀ other, (server.addConn uid user).nameOf other =
      if other = uid then some (user.uuid, []) else server.nameOf other := by
    intro other
    simp only [nameOf, addConn_users, lookup_insert_eq]
    split
    · rw [← hnick]
      rfl
    · rfl
  have hnone : server.nickOf uid = none := by
    rw [nickOf, nameOf, AList.lookup_eq_none.mpr hfre]
    rfl
  have hnicks : (server.addConn uid user).nickOf = server.nickOf := by
    funext other
    rw [nickOf, hnms]
    split
    next hself => rw [hself, hnone]; rfl
    next => rfl
  refine ⟨hnm.sid, hnm.servers, ?_, hnm.remotes, hnm.folded, ?_, hnm.rindex,
    hnm.apart⟩
  · intro other uuid nick ho
    rw [hnms] at ho
    rw [addConn_uuidLocal, lookup_insert_eq]
    split at ho
    next hself =>
      cases ho
      rw [if_pos rfl, hself]
      exact ⟨rfl, huuid, fun hdig => by cases hdig⟩
    next =>
      obtain ⟨hloc, hrest⟩ := hnm.people ho
      have hne : uuid ≠ user.uuid := by
        rintro rfl
        exact hnew (mem_of_lookup hloc)
      rw [if_neg hne]
      exact ⟨hloc, hrest⟩
  · rw [hnicks]
    exact hnm.index

theorem removeUser_rest (server : Server) (uid : Uid) (reason : Str) :
    (server.removeUser uid reason).conf = server.conf ∧
      (server.removeUser uid reason).servers = server.servers ∧
      (server.removeUser uid reason).remoteUsers = server.remoteUsers ∧
      (server.removeUser uid reason).remoteNick = server.remoteNick := by
  unfold removeUser
  split
  · exact ⟨rfl, rfl, rfl, rfl⟩
  · split <;> split <;> exact ⟨rfl, rfl, rfl, rfl⟩

theorem WellNamed.removeUser (hnm : server.WellNamed) (uid : Uid)
    (reason : Str) : (server.removeUser uid reason).WellNamed := by
  cases hu : server.users.lookup uid with
  | none =>
    simp only [Server.removeUser, hu]
    exact hnm
  | some user =>
    obtain ⟨hconf, hsvs, hremotes, hremoteNick⟩ := removeUser_rest server uid reason
    have hnms : ∀ other, (server.removeUser uid reason).nameOf other =
        if other = uid then none else server.nameOf other :=
      map_removeUser fun _ _ => rfl
    have hidx : ∀ key, (server.removeUser uid reason).nickIndex.lookup key =
        if server.nickOf uid = some key then none
        else server.nickIndex.lookup key := by
      intro key
      rw [removeUser_nickIndex hu, lookup_freed hu]
    have hremoteNames : (server.removeUser uid reason).remoteNameOf = server.remoteNameOf := by
      funext uuid
      rw [remoteNameOf, remoteNameOf, hremotes]
    constructor
    · rw [hconf]
      exact hnm.sid
    · rw [hconf, hsvs]
      exact hnm.servers
    · intro other uuid nick ho
      rw [hnms] at ho
      split at ho
      next => cases ho
      next ho' =>
        obtain ⟨hloc, hrest⟩ := hnm.people ho
        have hself : server.nameOf uid = some (user.uuid, user.nick) := by
          rw [nameOf, hu]
          rfl
        have hne : uuid ≠ user.uuid := by
          rintro rfl
          rw [(hnm.people hself).1] at hloc
          exact ho' (some.inj hloc).symm
        rw [hconf, removeUser_uuidLocal hu, lookup_erase_eq, if_neg hne]
        exact ⟨hloc, hrest⟩
    · rw [hconf, hremoteNames]
      exact hnm.remotes
    · rw [hremoteNames]
      exact hnm.folded
    · refine hnm.index.remove hidx ?_
      intro other
      rw [nickOf, hnms]
      split
      · rfl
      · rfl
    · rw [remoteNickOf_congr hremoteNames, hremoteNick]
      exact hnm.rindex
    · intro key other hkey
      rw [hidx] at hkey
      rw [hremoteNick]
      split at hkey
      · cases hkey
      · exact hnm.apart hkey

/-! ## Registration and hooks -/

theorem nameOf_modify {users : Table Uid User} (hchg : ∀ user, (change user).name = user.name)
    (other : Uid) :
    ((modify uid change users).lookup other).map User.name =
      (users.lookup other).map User.name := by
  rw [lookup_modify]
  by_cases ho : other = uid
  · subst ho
    cases users.lookup other <;> simp [hchg]
  · simp [ho]

theorem sameNames_changeUser (server : Server) (uid : Uid)
    (hchg : ∀ user, (change user).name = user.name) :
    SameNames server (server.changeUser uid change) :=
  ⟨rfl, rfl, funext fun other => nameOf_modify hchg other, rfl, rfl, rfl, rfl⟩

theorem sameNames_changeChannel (server : Server) (key : Str)
    (change : Channel → Channel) : SameNames server (server.changeChannel key change) :=
  ⟨rfl, rfl, rfl, rfl, rfl, rfl, rfl⟩

theorem name_of_badge {before after : User} (hbadge : after.badge = before.badge) :
    after.name = before.name :=
  congrArg Prod.fst hbadge

theorem sameNames_touches {marked : Uid → Prop} (htch : Touches marked before after) :
    SameNames before after := by
  refine htch.frame SameNames .refl .trans ?_
  intro before after htouch
  cases htouch with
  | say _ _ => exact sameNames_propagate ..
  | user uid hchg _ =>
    exact sameNames_changeUser before uid fun user => name_of_badge (hchg user)
  | regrade key uid change => exact sameNames_changeChannel ..

theorem sameNames_propagateJoin (server : Server) (uid : Uid) (name : Str) (isNew : Bool) :
    SameNames server (server.propagateJoin uid name isNew) := by
  obtain ⟨sent, hsent⟩ := server.propagateJoin_eq uid name isNew
  rw [hsent]
  exact ⟨rfl, rfl, rfl, rfl, rfl, rfl, rfl⟩

theorem sameNames_join (uid : Uid) (server : Server) (name : Str) :
    SameNames server (server.join env uid name) := by
  unfold join
  split
  · split
    · rename_i name _ _
      have hevs : ∀ told : Server, SameNames told
          { told with events := told.events ++ [.join uid (toAsciiLower name)] } :=
        fun _ => ⟨rfl, rfl, rfl, rfl, rfl, rfl, rfl⟩
      refine .trans ?_ (hevs _)
      refine .trans ?_ (sameNames_propagateJoin ..)
      refine ⟨rfl, rfl, funext fun other => ?_, rfl, rfl, rfl, rfl⟩
      refine nameOf_modify ?_ other
      exact fun _ => rfl
    · exact .refl server
  · exact .refl server

theorem sameNames_drainHooks (server : Server) : SameNames server (server.drainHooks env) := by
  have hcleared : SameNames server { server with events := [] } :=
    ⟨rfl, rfl, rfl, rfl, rfl, rfl, rfl⟩
  exact hcleared.trans (sameNames_touches (touches_drainHooks env server))

theorem sameNames_welcome (uid : Uid) (server : Server) :
    SameNames server (server.welcome env uid) := by
  have hmk : SameNames server (server.markRegistered uid) :=
    sameNames_changeUser _ uid fun _ => rfl
  have humodes : SameNames server ((server.markRegistered uid).setConnUmodes uid) :=
    hmk.trans (sameNames_touches (touches_setConnUmodes ..))
  have hque : ∀ server : Server, SameNames server (server.queueHook (.connect uid)) :=
    fun _ => ⟨rfl, rfl, rfl, rfl, rfl, rfl, rfl⟩
  exact (humodes.trans (hque _)).trans (foldl_rel .refl .trans (sameNames_join env uid) _ _)

end Server

end EchoIrcd
