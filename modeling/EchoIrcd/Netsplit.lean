import EchoIrcd.LinkChannels

/-!
# Netsplits

`close_link` drops the servers behind a link, then its remote users one after
the other: each leaves its channels, the channels nobody keeps alive are
reaped, and its two registry entries go.  With consistent registries the loop
comes to one cut: everything behind the link is gone, everything else is as it
was.
-/

namespace EchoIrcd

open Str Table Channel Option List

variable {after server : Server} {key uuid : Str} {link : Uid} {gone : List Str}

/-! ## Consistent registries -/

/-- The remote users and the index of their nicks say the same. -/
structure Server.RemoteIndexed (server : Server) : Prop where
  indexed : ∀ {uuid remote}, server.remoteUsers.lookup uuid = some remote →
    server.remoteNick.lookup (toAsciiLower remote.nick) = some uuid
  holder : ∀ {nick uuid}, server.remoteNick.lookup nick = some uuid →
    ∃ remote, server.remoteUsers.lookup uuid = some remote ∧
      toAsciiLower remote.nick = nick

def Server.isBehind (server : Server) (link : Uid) (uuid : Str) : Bool :=
  (server.remoteUsers.lookup uuid).any (·.via = link)

/-! ## Channels without some remote members -/

namespace Channel

def dropRemotes (gone : List Str) (channel : Channel) : Channel :=
  { channel with rmembers := gone.foldl (fun table uuid => table.erase uuid) channel.rmembers }

theorem dropRemotes_nil (channel : Channel) : channel.dropRemotes [] = channel := rfl

theorem dropRemotes_append (gone : List Str) (uuid : Str) (channel : Channel) :
    channel.dropRemotes (gone ++ [uuid]) =
      { channel.dropRemotes gone with
        rmembers := (channel.dropRemotes gone).rmembers.erase uuid } := by
  simp [dropRemotes]

theorem lookup_dropRemotes (gone : List Str) (uuid : Str) (channel : Channel) :
    (channel.dropRemotes gone).rmembers.lookup uuid =
      if uuid ∈ gone then none else channel.rmembers.lookup uuid := by
  induction gone using reverseRecOn with
  | nil => simp [dropRemotes]
  | append_singleton gone last ih =>
    rw [dropRemotes_append]
    simp only [lookup_erase_eq, ih, mem_append, mem_singleton]
    by_cases hlast : uuid = last
    · simp [hlast]
    · simp [hlast]

theorem mem_dropRemotes {channel : Channel} :
    uuid ∈ (channel.dropRemotes gone).rmembers ↔ uuid ∈ channel.rmembers ∧ uuid ∉ gone := by
  rw [← AList.lookup_isSome, lookup_dropRemotes, ← AList.lookup_isSome]
  split <;> simp_all

theorem of_not_keepAlive {channel : Channel} (hdead : ¬ channel.keepAlive = true) :
    (∀ uid, uid ∉ channel.members) ∧ (∀ uuid, uuid ∉ channel.rmembers) ∧
      channel.modes.flags .permanent = false ∧ channel.modes.flags .registered = false := by
  simpa only [keepAlive_iff, not_or, not_exists, Bool.not_eq_true] using hdead

theorem keepAlive_of_erase {channel : Channel}
    (hal : keepAlive { channel with rmembers := channel.rmembers.erase uuid } = true) :
    channel.keepAlive = true := by
  rw [keepAlive_iff] at hal ⊢
  refine hal.imp_right (.imp_left ?_)
  rintro ⟨other, ho⟩
  exact ⟨other, (AList.mem_erase.mp ho).2⟩

end Channel

/-! ## The loop -/

namespace Server

/-- What is left after the remote users in `gone` have been dropped. -/
structure Severed (gone : List Str) (before after : Server) : Prop where
  frame : after = { before with
    channels := after.channels
    remoteUsers := after.remoteUsers
    remoteNick := after.remoteNick }
  remoteUsers : ∀ uuid, after.remoteUsers.lookup uuid =
    if uuid ∈ gone then none else before.remoteUsers.lookup uuid
  remoteNick : ∀ nick, after.remoteNick.lookup nick =
    (before.remoteNick.lookup nick).filter (· ∉ gone)
  channels : ∀ key, after.channels.lookup key =
    ((before.channels.lookup key).map (dropRemotes gone)).filter
      fun channel => gone = [] ∨ channel.keepAlive

theorem Severed.refl (server : Server) : Severed [] server server where
  frame := rfl
  remoteUsers := fun uuid => by simp
  remoteNick := fun nick => by
    cases server.remoteNick.lookup nick <;> simp [Option.filter]
  channels := fun key => by
    cases server.channels.lookup key <;> simp [dropRemotes_nil, Option.filter]

theorem Severed.step {gone : List Str} {before after : Server} {uuid : Str}
    (hidxd : before.RemoteIndexed) (hsev : Severed gone before after)
    (hfre : uuid ∉ gone) (hkn : uuid ∈ before.remoteUsers) :
    Severed (gone ++ [uuid]) before (after.dropRemoteUser uuid) := by
  obtain ⟨remote, hrem⟩ := mem_iff_lookup.mp hkn
  have hf : after.remoteUsers.lookup uuid = some remote := by
    rw [hsev.remoteUsers, if_neg hfre, hrem]
  simp only [dropRemoteUser, hf]
  constructor
  · rw [hsev.frame]
    rfl
  · intro other
    simp only [lookup_erase_eq, hsev.remoteUsers, List.mem_append, List.mem_singleton]
    by_cases ho : other = uuid
    · simp [ho]
    · simp [ho]
  · intro nick
    simp only [lookup_erase_eq, hsev.remoteNick, List.mem_append, List.mem_singleton]
    by_cases hnick : nick = toAsciiLower remote.nick
    · rw [if_pos hnick, hnick, hidxd.indexed hrem]
      simp [Option.filter]
    · rw [if_neg hnick]
      cases hhol : before.remoteNick.lookup nick with
      | none => rfl
      | some other =>
        have ho : other ≠ uuid := by
          rintro rfl
          obtain ⟨holder, hhol, hs⟩ := hidxd.holder hhol
          rw [hrem] at hhol
          cases hhol
          exact hnick hs.symm
        simp [Option.filter, ho]
  · intro key
    simp only [reapChannels, lookup_retain, lookup_mapValues, hsev.channels]
    cases before.channels.lookup key with
    | none => rfl
    | some channel =>
      -- a channel that is reaped now would be reaped later as well
      have hlat : (channel.dropRemotes (gone ++ [uuid])).keepAlive = true →
          (channel.dropRemotes gone).keepAlive = true := by
        rw [dropRemotes_append]
        exact keepAlive_of_erase
      simp only [Option.map_some, Option.filter_some]
      split
      · rw [Option.map_some, Option.filter_some, ← dropRemotes_append]
        simp
      · rw [if_neg]
        · rfl
        · simp_all

theorem Severed.run {before : Server} (hidxd : before.RemoteIndexed) (rest : List Str)
    (hkn : ∀ uuid ∈ rest, uuid ∈ before.remoteUsers) (hsev : Severed gone before after)
    (hnd : (gone ++ rest).Nodup) :
    Severed (gone ++ rest) before
      (rest.foldl (fun server uuid => server.dropRemoteUser uuid) after) := by
  induction rest generalizing gone after with
  | nil => simpa using hsev
  | cons uuid rest ih =>
    rw [append_cons] at hnd ⊢
    have hfre : uuid ∉ gone := by
      have hfront := (nodup_append.mp hnd).1
      exact fun hmem => (nodup_append.mp hfront).2.2 uuid hmem uuid
        (mem_singleton_self _) rfl
    refine ih (fun other ho => hkn other (mem_cons_of_mem _ ho)) ?_ hnd
    exact hsev.step hidxd hfre (hkn uuid mem_cons_self)

/-! ## The whole cut -/

/-- Everything behind the link is gone; everything else is as it was. -/
structure Cut (link : Uid) (before after : Server) : Prop where
  servers : ∀ sid, after.servers.lookup sid =
    (before.servers.lookup sid).filter (·.via ≠ link)
  remoteUsers : ∀ uuid, after.remoteUsers.lookup uuid =
    (before.remoteUsers.lookup uuid).filter (·.via ≠ link)
  remoteNick : ∀ nick, after.remoteNick.lookup nick =
    (before.remoteNick.lookup nick).filter (!before.isBehind link ·)
  member : ∀ uid key, after.isMember uid key = before.isMember uid key
  rmember : ∀ key uuid, after.isRemoteMember key uuid =
    (before.isRemoteMember key uuid && !before.isBehind link uuid)
  /-- a channel that stays loses the remote members that are gone -/
  kept : ∀ key channel, after.channels.lookup key = some channel →
    ∃ earlier, before.channels.lookup key = some earlier ∧
      channel = { earlier with rmembers := channel.rmembers } ∧
      ∀ uuid, channel.rmembers.lookup uuid =
        if before.isBehind link uuid then none else earlier.rmembers.lookup uuid
  /-- a channel that goes had nobody else and was to be reaped -/
  reaped : ∀ key channel, before.channels.lookup key = some channel →
    after.channels.lookup key = none →
    (∀ uid, uid ∉ channel.members) ∧
      (∀ uuid ∈ channel.rmembers, before.isBehind link uuid = true) ∧
      channel.modes.flags .permanent = false ∧ channel.modes.flags .registered = false
  frame : after = { before with
    links := before.links.erase link
    servers := after.servers
    remoteUsers := after.remoteUsers
    remoteNick := after.remoteNick
    channels := after.channels }

def behind (server : Server) (link : Uid) : List Str :=
  ((toPairs server.remoteUsers).filter (·.2.via = link)).map Prod.fst

theorem mem_behind : uuid ∈ server.behind link ↔ server.isBehind link uuid = true := by
  simp only [behind, isBehind, List.mem_map, List.mem_filter, Prod.exists,
    mem_toPairs, decide_eq_true_eq, Option.any_eq_true]
  constructor
  · rintro ⟨_, remote, ⟨hrem, hvia⟩, rfl⟩
    exact ⟨remote, hrem, hvia⟩
  · rintro ⟨remote, hrem, hvia⟩
    exact ⟨uuid, remote, ⟨hrem, hvia⟩, rfl⟩

theorem nodup_behind (server : Server) (link : Uid) : (server.behind link).Nodup := by
  have hkeys : ((toPairs server.remoteUsers).map Prod.fst).Nodup := by
    rw [toPairs, List.map_map]
    exact server.remoteUsers.keys_nodup
  exact hkeys.sublist (filter_sublist.map _)

def unlink (link : Uid) (server : Server) : Server :=
  { server with
    links := server.links.erase link
    servers := retain (fun _ remote => remote.via ≠ link) server.servers }

theorem closeLink_severed (hidxd : server.RemoteIndexed) (link : Uid) :
    Severed (server.behind link) (server.unlink link) (server.closeLink link) := by
  have hunlinked : (server.unlink link).RemoteIndexed := ⟨hidxd.indexed, hidxd.holder⟩
  have hkn : ∀ uuid ∈ server.behind link, uuid ∈ (server.unlink link).remoteUsers := by
    intro uuid huuid
    rw [mem_behind, isBehind, Option.any_eq_true] at huuid
    obtain ⟨remote, hrem, -⟩ := huuid
    exact mem_of_lookup hrem
  exact Severed.run hunlinked _ hkn (.refl _) (server.nodup_behind link)

theorem Severed.channel (hsev : Severed (server.behind link) (server.unlink link) after)
    {channel : Channel} (hchan : server.channels.lookup key = some channel) :
    after.channels.lookup key = some (channel.dropRemotes (server.behind link)) ∨
      after.channels.lookup key = none ∧
        ¬ (channel.dropRemotes (server.behind link)).keepAlive = true := by
  have haft := hsev.channels key
  rw [unlink, hchan, map_some, filter_some] at haft
  split at haft
  · exact .inl haft
  · exact .inr ⟨haft, by simp_all⟩

theorem Severed.noChannel (hsev : Severed (server.behind link) (server.unlink link) after)
    (hchan : server.channels.lookup key = none) : after.channels.lookup key = none := by
  rw [hsev.channels, unlink, hchan]
  rfl

end Server

/-- Closing a link removes exactly what is behind it. -/
theorem Server.closeLink_cut {server : Server} (hidxd : server.RemoteIndexed)
    (link : Uid) : Server.Cut link server (server.closeLink link) := by
  have hsev := closeLink_severed hidxd link
  constructor
  case servers =>
    intro sid
    rw [hsev.frame]
    exact lookup_retain ..
  case remoteUsers =>
    intro uuid
    rw [hsev.remoteUsers]
    simp only [mem_behind, isBehind, unlink]
    cases server.remoteUsers.lookup uuid with
    | none => simp
    | some remote => by_cases hvia : remote.via = link <;> simp [Option.filter, hvia]
  case remoteNick =>
    intro nick
    rw [hsev.remoteNick]
    simp only [mem_behind, decide_not, Bool.decide_eq_true, unlink]
  case member =>
    intro uid key
    unfold isMember
    cases hchan : server.channels.lookup key with
    | none => rw [hsev.noChannel hchan]
    | some channel =>
      rcases hsev.channel hchan with hkept | ⟨hreaped, hdead⟩
      · rw [hkept]
        rfl
      · rw [hreaped]
        have hnone := (of_not_keepAlive hdead).1 uid
        exact (decide_eq_false hnone).symm
  case rmember =>
    intro key uuid
    unfold isRemoteMember
    cases hchan : server.channels.lookup key with
    | none => rw [hsev.noChannel hchan]; rfl
    | some channel =>
      rcases hsev.channel hchan with hkept | ⟨hreaped, hdead⟩
      · rw [hkept]
        simp [mem_dropRemotes, mem_behind]
      · rw [hreaped]
        have hnone := (of_not_keepAlive hdead).2.1 uuid
        rw [mem_dropRemotes, mem_behind] at hnone
        simpa using hnone
  case kept =>
    intro key channel hchan
    rw [hsev.channels, Option.filter_eq_some_iff, Option.map_eq_some_iff] at hchan
    obtain ⟨⟨earlier, hprev, rfl⟩, -⟩ := hchan
    refine ⟨earlier, hprev, rfl, ?_⟩
    intro uuid
    simp only [lookup_dropRemotes, mem_behind]
  case reaped =>
    intro key channel hbef haft
    rcases hsev.channel hbef with hkept | ⟨-, hdead⟩
    · rw [hkept] at haft
      cases haft
    · obtain ⟨hmems, hrm, hflags⟩ := of_not_keepAlive hdead
      refine ⟨hmems, ?_, hflags⟩
      intro uuid hmb
      have hgone := hrm uuid
      rw [mem_dropRemotes, mem_behind, not_and, not_not] at hgone
      exact hgone hmb
  case frame =>
    rw [hsev.frame]
    rfl

def Server.forked : Server where
  conf := { name := "a.test", sid := "1AA" }
  clock := 100
  channels := ofList
    [("#c", { name := "#c", created := 50
              rmembers := ofList [("2BBAAAAAA", {}), ("3CCAAAAAA", {})] }),
      ("#d", { name := "#d", created := 60
               rmembers := ofList [("2BBAAAAAA", {})] })]
  remoteUsers := ofList
    [("2BBAAAAAA", { uuid := "2BBAAAAAA", nick := "Bob", ident := "bob", host := "h.test"
                     realname := [], ip := "10.0.0.2", modes := "+", sid := "2BB"
                     via := 5, nickTs := 10 }),
      ("3CCAAAAAA", { uuid := "3CCAAAAAA", nick := "Cyd", ident := "cyd", host := "h.test"
                      realname := [], ip := "10.0.0.3", modes := "+", sid := "3CC"
                      via := 6, nickTs := 10 })]
  remoteNick := ofList [("bob", "2BBAAAAAA"), ("cyd", "3CCAAAAAA")]

theorem Server.closeLink_cut_forked : Server.Cut 5 Server.forked (Server.forked.closeLink 5) := by
  refine Server.closeLink_cut ⟨?_, ?_⟩ 5
  · intro uuid remote hrem
    simp only [forked, ofList, foldr, lookup_insert_eq] at hrem
    split at hrem
    next hbob =>
      cases hrem
      rw [hbob]
      decide
    next =>
      split at hrem
      next hcyd =>
        cases hrem
        rw [hcyd]
        decide
      next => cases hrem
  · intro nick uuid hhol
    simp only [forked, ofList, foldr, lookup_insert_eq] at hhol
    split at hhol
    next hbob =>
      cases hhol
      exact ⟨_, rfl, hbob.symm⟩
    next =>
      split at hhol
      next hcyd =>
        cases hhol
        exact ⟨_, rfl, hcyd.symm⟩
      next => cases hhol

end EchoIrcd
