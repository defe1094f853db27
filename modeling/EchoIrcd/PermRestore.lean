import EchoIrcd.PermModes

/-!
# Permanent channels after a restart

What a server that starts without channels holds once it has loaded the file
that another has saved.  Each channel comes back from its own lines, so the
question is what these lines can carry: fields between blanks, no line break,
no entry that lapses, and modes on top of the `+nt` of every fresh channel.
-/

namespace EchoIrcd

open Str Server ChanModes List Channel

variable {char : Char} {channels : List Channel} {ban : Ban} {list : List Ban} {other word : Str}
  (kind : ListKind)

/-! ## Lines -/

section Chomp

variable {front back line : Str}

theorem chomp_append (hback : back ≠ []) : chomp (front ++ back) = front ++ chomp back := by
  unfold chomp
  rw [getLast?_append_of_ne_nil _ hback, dropLast_append_of_ne_nil hback]
  split <;> rfl

theorem chomp_eq_self_iff : chomp line = line ↔ line.getLast? ≠ some '\r' := by
  unfold chomp
  split
  · rename_i hlast
    simp only [hlast, ne_eq, not_true_eq_false, iff_false]
    intro hs
    have hne : line ≠ [] := by
      rintro rfl
      cases hlast
    have hlen := congrArg length hs
    rw [length_dropLast] at hlen
    have hpos := length_pos_iff.mpr hne
    omega
  · rename_i hlast
    simp [hlast]

theorem textLines_unlines {lines : List Str} (hls : ∀ line ∈ lines, '\n' ∉ line) :
    textLines (Lines.unlines '\n' lines) = lines.map chomp := by
  simp [textLines, Lines.cut_unlines hls]

end Chomp

theorem solid_ofNat (number : Nat) : Solid (Str.ofNat number) := by
  intro digit hdig
  have hcaps : isCaps (Str.ofNat number) = true :=
    all_eq_true.mpr fun digit hdig => by simp [ofNat_isDigit hdig]
  exact isWhitespace_of_isCaps hcaps hdig

theorem Solid.not_mem (hword : Solid word) (hchar : isWhitespace char = true) : char ∉ word := by
  intro hmem
  rw [hword char hmem] at hchar
  cases hchar

theorem Solid.append {left right : Str} (hleft : Solid left) (hrt : Solid right) :
    Solid (left ++ right) := by
  intro char hchar
  rcases mem_append.mp hchar with hchar | hchar
  · exact hleft char hchar
  · exact hrt char hchar

theorem Solid.cons {char : Char} {word : Str} (hchar : isWhitespace char = false)
    (hword : Solid word) : Solid (char :: word) :=
  forall_mem_cons.mpr ⟨hchar, hword⟩

/-! ## Fields -/

theorem stampedFields_render (ts : Timestamp) {setter : Str} (hset : ' ' ∉ setter) (text : Str) :
    stampedFields (renderU64 ts ++ ' ' :: (setter ++ ' ' :: text)) = some (ts, setter, text) := by
  have hts : ' ' ∉ renderU64 ts := (solid_ofNat _).not_mem (by decide)
  simp [stampedFields, splitOnce_append hts, splitOnce_append hset, parseU64_renderU64]

theorem ofTag_letter : ListKind.ofTag [kind.letter] = some kind := by
  cases kind <;> rfl

namespace Record

variable {record : Record} {setter text : Str} {ts : Timestamp}

theorem accumulate_topic (hset : ' ' ∉ setter) :
    record.accumulate ['T'] (renderU64 ts ++ ' ' :: (setter ++ ' ' :: ':' :: text)) =
      { record with topic := some ⟨text, setter, ts⟩ } := by
  simp [accumulate, stampedFields_render ts hset, stripColon]

theorem accumulate_list (hset : ' ' ∉ setter) :
    record.accumulate [kind.letter] (renderU64 ts ++ ' ' :: (setter ++ ' ' :: text)) =
      { record with lists := record.lists ++ [(kind, ⟨text, setter, ts, none⟩)] } := by
  have htag : [kind.letter] ≠ ['M'] ∧ [kind.letter] ≠ ['T'] := by cases kind <;> decide
  simp only [accumulate, if_neg htag.1, if_neg htag.2, ofTag_letter, stampedFields_render ts hset]

end Record

namespace Server

theorem loadLine_tag {tag : Char} (hbl : tag ≠ ' ') (hhash : tag ≠ '#')
    (state : Server × Option Record) (rest : Str) :
    loadLine state (tag :: ' ' :: rest) =
      if tag = 'C' then (buildLast state, some ((buildLast state).newRecord rest))
      else (state.1, state.2.map fun record => record.accumulate [tag] rest) := by
  simp [loadLine, splitOnce, hbl, hhash]

end Server

/-! ## The record of a channel -/

def Ban.reread (ban : Ban) : Ban := ⟨chomp ban.mask, ban.setter, ban.ts, none⟩

namespace Channel

/-- No field holds what would end it: setters no blank, and nothing a line break. -/
structure Written (channel : Channel) : Prop where
  name : '\n' ∉ channel.name
  modes : '\n' ∉ channel.modes.renderParams
  topic : ∀ topic ∈ channel.topic, ' ' ∉ topic.setter ∧ '\n' ∉ topic.setter ∧ '\n' ∉ topic.text
  lists : ∀ kind, ∀ ban ∈ channel.lists kind,
    ' ' ∉ ban.setter ∧ '\n' ∉ ban.setter ∧ '\n' ∉ ban.mask

def rereadTopic (channel : Channel) : Option Topic :=
  channel.topic.bind fun topic =>
    if topic.text = [] then none else some { topic with text := chomp topic.text }

def entries (channel : Channel) : List (ListKind × Ban) :=
  ListKind.stored.flatMap fun kind =>
    ((channel.lists kind).filter fun ban => ban.expires.isNone).map fun ban => (kind, ban)

def record (server : Server) (channel : Channel) : Record :=
  { server.newRecord (channel.name ++ ' ' :: renderU64 channel.created) with
    modes := chomp channel.modes.renderParams
    topic := channel.rereadTopic
    lists := channel.entries.map fun entry => (entry.1, entry.2.reread) }

variable {channel : Channel} {server : Server} {record : Record}

theorem loadLine_header (state : Server × Option Record) :
    loadLine state (chomp channel.headerLine) =
      (buildLast state, some ((buildLast state).newRecord
        (channel.name ++ ' ' :: renderU64 channel.created))) := by
  have hne : renderU64 channel.created ≠ [] := ofNat_ne_nil _
  have hs : chomp (renderU64 channel.created) = renderU64 channel.created :=
    chomp_eq_self_iff.mpr (solid_ofNat _).not_mem_cr
  have hline : chomp channel.headerLine =
      'C' :: ' ' :: (channel.name ++ ' ' :: renderU64 channel.created) := by
    have hcut := @chomp_append ('C' :: ' ' :: (channel.name ++ [' '])) _ hne
    simpa [headerLine, hs] using hcut
  rw [hline, loadLine_tag (by decide) (by decide), if_pos rfl]

theorem loadLine_modes :
    loadLine (server, some record) (chomp channel.modesLine) =
      (server, some { record with modes := chomp channel.modes.renderParams }) := by
  have hne : channel.modes.renderParams ≠ [] := by
    simp [renderParams, render]
  have hline : chomp channel.modesLine = 'M' :: ' ' :: chomp channel.modes.renderParams :=
    @chomp_append ['M', ' '] _ hne
  rw [hline, loadLine_tag (by decide) (by decide), if_neg (by decide)]
  rfl

theorem foldl_topicLines (hwr : channel.Written) (htopic : record.topic = none) :
    (channel.topicLines.map chomp).foldl loadLine (server, some record) =
      (server, some { record with topic := channel.rereadTopic }) := by
  obtain ⟨⟩ := record
  subst htopic
  cases htopic : channel.topic with
  | none => simp [topicLines, rereadTopic, htopic]
  | some topic =>
    obtain ⟨hset, -, -⟩ := hwr.topic topic htopic
    by_cases htext : topic.text = []
    · simp [topicLines, rereadTopic, htopic, htext]
    · have hline : chomp ('T' :: ' ' :: renderU64 topic.ts ++ ' ' :: topic.setter ++
          ' ' :: ':' :: topic.text) =
          'T' :: ' ' :: (renderU64 topic.ts ++
            ' ' :: (topic.setter ++ ' ' :: ':' :: chomp topic.text)) := by
        have hcut := @chomp_append ('T' :: ' ' :: (renderU64 topic.ts ++
          ' ' :: (topic.setter ++ [' ', ':']))) _ htext
        simpa using hcut
      simp only [topicLines, rereadTopic, htopic, htext, if_false, map_cons, map_nil,
        foldl_cons, foldl_nil, hline, Option.bind_some]
      rw [loadLine_tag (by decide) (by decide), if_neg (by decide)]
      simp [Record.accumulate_topic hset]

theorem chomp_listLine (ban : Ban) :
    chomp (listLine kind ban) = kind.letter :: ' ' ::
      (renderU64 ban.ts ++ ' ' :: (ban.setter ++ ' ' :: chomp ban.mask)) := by
  by_cases hmask : ban.mask = []
  · have hcut := @chomp_append (kind.letter :: ' ' :: (renderU64 ban.ts ++ ' ' :: ban.setter)) [' ']
      (by simp)
    simpa [listLine, hmask, chomp] using hcut
  · have hcut := @chomp_append (kind.letter :: ' ' :: (renderU64 ban.ts ++
      ' ' :: (ban.setter ++ [' ']))) _ hmask
    simpa [listLine] using hcut

theorem foldl_entries {entries : List (ListKind × Ban)}
    (hsetters : ∀ entry ∈ entries, ' ' ∉ entry.2.setter) :
    ((entries.map fun entry => listLine entry.1 entry.2).map chomp).foldl loadLine
        (server, some record) =
      (server, some { record with
        lists := record.lists ++ entries.map fun entry => (entry.1, entry.2.reread) }) := by
  induction entries generalizing record with
  | nil => simp
  | cons entry entries ih =>
    rw [forall_mem_cons] at hsetters
    obtain ⟨kind, ban⟩ := entry
    have htag : kind.letter ≠ ' ' ∧ kind.letter ≠ '#' ∧ kind.letter ≠ 'C' := by
      cases kind <;> decide
    simp only [map_cons, foldl_cons, chomp_listLine]
    rw [loadLine_tag htag.1 htag.2.1, if_neg htag.2.2]
    simp only [Option.map_some, Record.accumulate_list kind hsetters.1]
    rw [ih hsetters.2]
    simp [Ban.reread]

theorem listLines_eq (channel : Channel) :
    channel.listLines = channel.entries.map fun entry => listLine entry.1 entry.2 := by
  simp [listLines, entries, map_flatMap, Function.comp_def]

theorem mem_entries {kind : ListKind} :
    (kind, ban) ∈ channel.entries ↔ ban ∈ channel.lists kind ∧ ban.expires = none := by
  have hkind : kind ∈ ListKind.stored := by cases kind <;> decide
  simp [entries, hkind]

theorem foldl_lines (hwr : channel.Written) (state : Server × Option Record) :
    ((channel.headerLine :: channel.detailLines).map chomp).foldl loadLine state =
      (buildLast state, some (channel.record (buildLast state))) := by
  have hsetters : ∀ entry ∈ channel.entries, ' ' ∉ entry.2.setter := fun entry hent =>
    (hwr.lists entry.1 entry.2 (mem_entries.mp hent).1).1
  rw [map_cons, foldl_cons, loadLine_header, detailLines, map_cons, foldl_cons,
    loadLine_modes, map_append, foldl_append, foldl_topicLines hwr rfl, listLines_eq,
    foldl_entries hsetters]
  rfl

end Channel

namespace Server

def reload (server : Server) (channel : Channel) : Server := server.build (channel.record server)

theorem foldl_channels (hwr : ∀ channel ∈ channels, channel.Written)
    (state : Server × Option Record) :
    buildLast (((channels.flatMap fun channel =>
        channel.headerLine :: channel.detailLines).map chomp).foldl loadLine state) =
      channels.foldl reload (buildLast state) := by
  induction channels generalizing state with
  | nil => rfl
  | cons channel channels ih =>
    rw [forall_mem_cons] at hwr
    rw [flatMap_cons, map_append, foldl_append, foldl_lines hwr.1, ih hwr.2, foldl_cons]
    rfl

end Server

namespace Channel

variable {channel : Channel}

theorem not_mem_lines (hwr : channel.Written) :
    ∀ line ∈ channel.headerLine :: channel.detailLines, '\n' ∉ line := by
  have hnum : ∀ number : Timestamp, '\n' ∉ renderU64 number := fun number =>
    (solid_ofNat _).not_mem (by decide)
  have hlis : ∀ line ∈ channel.listLines, '\n' ∉ line := by
    rw [listLines_eq, forall_mem_map]
    rintro ⟨kind, ban⟩ hent
    obtain ⟨-, hset, hmask⟩ := hwr.lists kind ban (mem_entries.mp hent).1
    have hlet : '\n' ≠ kind.letter := by cases kind <;> decide
    simp [listLine, hlet, hnum, hset, hmask]
  have htopic : ∀ line ∈ channel.topicLines, '\n' ∉ line := by
    unfold topicLines
    split
    · simp
    · rename_i topic htopic
      obtain ⟨-, hset, htext⟩ := hwr.topic topic htopic
      split
      · simp
      · simp [hnum, hset, htext]
  intro line hline
  simp only [detailLines, mem_cons, mem_append] at hline
  rcases hline with rfl | rfl | hline | hline
  · simp [headerLine, hwr.name, hnum]
  · simp [modesLine, hwr.modes]
  · exact htopic line hline
  · exact hlis line hline

end Channel

namespace Server

theorem loadText_serialize {server : Server} (fresh : Server)
    (hwr : ∀ channel ∈ server.permanents, channel.Written) :
    fresh.loadText server.serialize = server.permanents.foldl reload fresh := by
  unfold serialize
  split
  · rename_i hnone
    rw [hnone]
    rfl
  · have hls : ∀ line ∈ storeHeader :: server.permanents.flatMap fun channel =>
        channel.headerLine :: channel.detailLines, '\n' ∉ line := by
      rw [forall_mem_cons]
      refine ⟨by decide, ?_⟩
      intro line hline
      obtain ⟨channel, hchan, hline⟩ := mem_flatMap.mp hline
      exact not_mem_lines (hwr channel hchan) line hline
    rw [loadText, textLines_unlines hls, map_cons, foldl_cons, foldl_channels hwr]
    rfl

end Server

/-! ## Topics and lists -/

theorem rereadTopic_eq_iff {channel : Channel} :
    channel.rereadTopic = channel.topic ↔
      ∀ topic ∈ channel.topic, topic.text ≠ [] ∧ topic.text.getLast? ≠ some '\r' := by
  unfold rereadTopic
  cases channel.topic with
  | none => simp
  | some topic =>
    obtain ⟨text, setter, ts⟩ := topic
    by_cases htext : text = []
    · simp [htext]
    · simp [htext, chomp_eq_self_iff]

theorem dedupMasks_sublist (seen : List Str) (list : List Ban) :
    (dedupMasks seen list).Sublist list := by
  induction list generalizing seen with
  | nil => exact .slnil
  | cons ban list ih =>
    rw [dedupMasks]
    split
    · exact (ih seen).cons ban
    · exact (ih _).cons_cons ban

theorem dedupMasks_of_nodup {seen : List Str} (hnd : (list.map Ban.mask).Nodup)
    (hseen : ∀ ban ∈ list, ban.mask ∉ seen) : dedupMasks seen list = list := by
  induction list generalizing seen with
  | nil => rfl
  | cons ban list ih =>
    rw [forall_mem_cons] at hseen
    obtain ⟨hban, hnd⟩ := nodup_cons.mp hnd
    rw [dedupMasks, if_neg hseen.1, ih hnd]
    intro other ho hmem
    rcases mem_cons.mp hmem with hs | hmem
    · exact hban (hs ▸ mem_map_of_mem ho)
    · exact hseen.2 other ho hmem

theorem reread_eq_iff : ban.reread = ban ↔ ban.expires = none ∧ ban.mask.getLast? ≠ some '\r' := by
  obtain ⟨mask, setter, ts, expires⟩ := ban
  simp only [Ban.reread, Ban.mk.injEq, true_and, chomp_eq_self_iff]
  exact ⟨fun hs => ⟨hs.2.symm, hs.1⟩, fun hpl => ⟨hpl.2, hpl.1.symm⟩⟩

theorem reread_list_eq_iff (hnd : (list.map Ban.mask).Nodup) :
    dedupMasks [] ((list.filter fun ban => ban.expires.isNone).map Ban.reread) = list ↔
      ∀ ban ∈ list, ban.expires = none ∧ ban.mask.getLast? ≠ some '\r' := by
  constructor
  · intro hs
    have hdedup := dedupMasks_sublist [] ((list.filter fun ban => ban.expires.isNone).map Ban.reread)
    have hfil : (list.filter fun ban => ban.expires.isNone).Sublist list := filter_sublist
    have hlen := hdedup.length_le
    rw [hs, length_map] at hlen
    have hall := hfil.eq_of_length_le hlen
    have hmap : list = list.map Ban.reread := by
      rw [hs, hall] at hdedup
      exact hdedup.eq_of_length (by simp)
    intro ban hban
    refine reread_eq_iff.mp ?_
    exact map_eq_map_iff.mp (hmap.symm.trans (map_id list).symm) ban hban
  · intro hpl
    have hall : (list.filter fun ban => ban.expires.isNone) = list :=
      filter_eq_self.mpr fun ban hban => by simp [(hpl ban hban).1]
    have hmap : list.map Ban.reread = list.map id :=
      map_congr_left fun ban hban => reread_eq_iff.mpr (hpl ban hban)
    rw [hall, hmap, map_id, dedupMasks_of_nodup hnd (by simp)]

theorem entries_of_kind (channel : Channel) (kind : ListKind) :
    ((channel.entries.map fun entry => (entry.1, entry.2.reread)).filter
        fun entry => entry.1 = kind).map Prod.snd =
      ((channel.lists kind).filter fun ban => ban.expires.isNone).map Ban.reread := by
  cases kind <;> simp [entries, ListKind.stored, Function.comp_def, filter_map]

/-! ## One channel -/

theorem isAlpha_of_isWhitespace (hchar : isWhitespace char = true) : char.isAlpha = false := by
  simp only [isWhitespace, decide_eq_true_eq] at hchar
  rw [← Bool.not_eq_true, isAlpha_iff]
  omega

theorem solid_toAsciiLower : Solid (toAsciiLower word) ↔ Solid word := by
  simp only [Solid, toAsciiLower, forall_mem_map]
  refine forall₂_congr fun char _ => ?_
  rw [← Bool.not_eq_true, ← Bool.not_eq_true, not_iff_not]
  constructor
  · intro hlow
    rwa [(toLower_eq_iff (isAlpha_of_isWhitespace hlow)).mp rfl]
  · intro hchar
    rwa [(toLower_eq_iff (isAlpha_of_isWhitespace hchar)).mpr rfl]

namespace Channel

variable {channel : Channel} {server : Server}

theorem solid_record_name (server : Server) (channel : Channel) :
    Solid (channel.record server).name := by
  change Solid ((words (channel.name ++ ' ' :: renderU64 channel.created)).head?.getD [])
  cases hwds : words (channel.name ++ ' ' :: renderU64 channel.created) with
  | nil => exact fun _ hchar => nomatch hchar
  | cons first rest =>
    exact solid_of_mem_words (hwds ▸ mem_cons_self)

theorem record_header (hsol : Solid channel.name) (hne : channel.name ≠ []) (server : Server) :
    (channel.record server).name = channel.name ∧
      (channel.record server).created = channel.created := by
  have hwds : words (channel.name ++ ' ' :: renderU64 channel.created) =
      [channel.name, renderU64 channel.created] := by
    rw [words_cons hne hsol, renderU64, words_of_solid (ofNat_ne_nil _) (solid_ofNat _)]
  simp [record, newRecord, hwds, parseU64_renderU64]

end Channel

theorem head?_words_chomp (source : ChanModes) :
    (words (chomp source.renderParams)).head? = some source.render := by
  have hne : source.render ≠ [] := by simp [render]
  have hsol := solid_render source
  rw [renderParams]
  cases source.values with
  | nil =>
    rw [flatMap_nil, append_nil, chomp_eq_self_iff.mpr hsol.not_mem_cr,
      words_of_solid hne hsol, head?_cons]
  | cons value values =>
    rw [flatMap_cons, cons_append]
    generalize value ++ values.flatMap (' ' :: ·) = rest
    by_cases hrest : rest = []
    · have hcut := @chomp_append source.render [' '] (by simp)
      rw [hrest, hcut, show chomp [' '] = [' '] by decide, words_cons hne hsol, head?_cons]
    · have hcut := @chomp_append (source.render ++ [' ']) rest hrest
      rw [append_assoc, append_assoc, singleton_append, singleton_append] at hcut
      rw [hcut, words_cons hne hsol, head?_cons]

namespace Server

variable {server : Server} {channel : Channel}

theorem holding_insert (key : Str) (channel : Channel) (server : Server) :
    Holding key channel server { server with channels := server.channels.insert key channel } := by
  constructor
  · simp
  · intro other hne
    exact AList.lookup_insert_ne hne

theorem reload_holding (hname : (channel.record server).name ≠ [])
    (habs : toAsciiLower (channel.record server).name ∉ server.channels) :
    ∃ modes, Tame (channel.record server).name modes ∧
      Holding (toAsciiLower (channel.record server).name)
        { bareChannel (channel.record server) with modes := modes } server
        (server.reload channel) := by
  have hsta := holding_insert (toAsciiLower (channel.record server).name)
    (bareChannel (channel.record server)) server
  obtain ⟨modes, htame, hheld⟩ := @Holding.tame _ _ (bareChannel (channel.record server)) server _
    channel.modes freshModes hsta rfl (tame_freshModes (channel.record server).name)
    (channel.record server).modes (head?_words_chomp channel.modes)
  rw [reload, build, if_neg (not_or.mpr ⟨hname, habs⟩)]
  exact ⟨_, htame.setFlag .permanent, hheld.changeChannel (withModes (setFlag .permanent true))⟩

theorem reload_lookup_ne (hne : other ≠ toAsciiLower (channel.record server).name) :
    (server.reload channel).channels.lookup other = server.channels.lookup other := by
  by_cases hst : (channel.record server).name = [] ∨
      toAsciiLower (channel.record server).name ∈ server.channels
  · rw [reload, build, if_pos hst]
  · rw [not_or] at hst
    obtain ⟨modes, -, hhold⟩ := reload_holding hst.1 hst.2
    exact hhold.others hne

theorem foldl_reload_ne (hsol : ∀ channel ∈ channels, Solid channel.name ∧ channel.name ≠ [])
    (hne : ∀ channel ∈ channels, other ≠ toAsciiLower channel.name) (server : Server) :
    (channels.foldl reload server).channels.lookup other = server.channels.lookup other := by
  induction channels generalizing server with
  | nil => rfl
  | cons channel channels ih =>
    rw [forall_mem_cons] at hsol hne
    rw [foldl_cons, ih hsol.2 hne.2, reload_lookup_ne]
    rw [(record_header hsol.1.1 hsol.1.2 server).1]
    exact hne.1

theorem foldl_reload_mem (hsol : ∀ channel ∈ channels, Solid channel.name ∧ channel.name ≠ [])
    (hnd : (channels.map fun channel => toAsciiLower channel.name).Nodup) {server : Server}
    (habs : ∀ channel ∈ channels, toAsciiLower channel.name ∉ server.channels)
    {channel : Channel} (hchan : channel ∈ channels) :
    ∃ before : Server, toAsciiLower channel.name ∉ before.channels ∧
      (channels.foldl reload server).channels.lookup (toAsciiLower channel.name) =
        (before.reload channel).channels.lookup (toAsciiLower channel.name) := by
  induction channels generalizing server with
  | nil => cases hchan
  | cons first channels ih =>
    rw [forall_mem_cons] at hsol habs
    obtain ⟨hfst, hnd⟩ := nodup_cons.mp hnd
    have ho : ∀ other ∈ channels, toAsciiLower other.name ≠ toAsciiLower first.name :=
      fun other hmem hs => hfst (mem_map.mpr ⟨other, hmem, hs⟩)
    rcases mem_cons.mp hchan with rfl | hchan
    · refine ⟨server, habs.1, ?_⟩
      rw [foldl_cons, foldl_reload_ne hsol.2 fun other hmem => (ho other hmem).symm]
    · refine ih hsol.2 hnd ?_ hchan
      intro other hmem
      rw [← AList.lookup_isSome, reload_lookup_ne, AList.lookup_isSome]
      · exact habs.2 other hmem
      · rw [(record_header hsol.1.1 hsol.1.2 server).1]
        exact ho other hmem

theorem solid_foldl_reload (channels : List Channel) {server : Server}
    (hkeys : ∀ key ∈ server.channels, Solid key) :
    ∀ key ∈ (channels.foldl reload server).channels, Solid key := by
  induction channels generalizing server with
  | nil => exact hkeys
  | cons channel channels ih =>
    refine ih fun key hkey => ?_
    by_cases hs : key = toAsciiLower (channel.record server).name
    · rw [hs, solid_toAsciiLower]
      exact solid_record_name server channel
    · rw [← AList.lookup_isSome, reload_lookup_ne hs, AList.lookup_isSome] at hkey
      exact hkeys key hkey

end Server

/-! ## Restored channels -/

/-- The server holds the channel with the name, time, modes, topic and lists it had. -/
def Restored (server : Server) (channel : Channel) : Prop :=
  ∃ copy, server.channels.lookup (toAsciiLower channel.name) = some copy ∧
    copy.name = channel.name ∧ copy.created = channel.created ∧ copy.modes = channel.modes ∧
    copy.topic = channel.topic ∧ copy.lists = channel.lists

/--
A channel whose state its lines can carry: `+n` and `+t` are set, the name, key
and redirect hold no blank of any kind, the redirect leads elsewhere, the topic
has a text, no entry lapses, and neither the topic nor a mask ends in a carriage
return.
-/
structure Plain (channel : Channel) : Prop where
  name : Solid channel.name
  noExternal : channel.modes.flags .noExternal = true
  topicOps : channel.modes.flags .topicOps = true
  key : ∀ word ∈ channel.modes.key, Solid word
  redirect : ∀ target ∈ channel.modes.redirect,
    Solid target ∧ eqIgnoreAsciiCase target channel.name = false
  topic : ∀ topic ∈ channel.topic, topic.text ≠ [] ∧ topic.text.getLast? ≠ some '\r'
  lists : ∀ kind, ∀ ban ∈ channel.lists kind,
    ban.expires = none ∧ ban.mask.getLast? ≠ some '\r'

/-- What local commands leave behind. -/
structure Channel.Sound (channel : Channel) : Prop where
  written : channel.Written
  name : channel.name ≠ []
  modes : channel.modes.Sound
  masks : ∀ kind, ((channel.lists kind).map Ban.mask).Nodup

section Values

variable {source : ChanModes}

theorem solid_renderRate (rate : Rate) : Solid (renderRate rate) :=
  (solid_ofNat _).append (.cons (by decide) (solid_ofNat _))

theorem value_cases {mode : ParamMode} {value : Str} (hval : mode.value source = some value) :
    (value ≠ [] ∧ Solid value) ∨ source.key = some value ∨ source.redirect = some value := by
  have hnum : ∀ number, Str.ofNat number ≠ [] ∧ Solid (Str.ofNat number) := fun number =>
    ⟨ofNat_ne_nil number, solid_ofNat number⟩
  have hrate : ∀ rate, renderRate rate ≠ [] ∧ Solid (renderRate rate) := fun rate =>
    ⟨by simp [renderRate], solid_renderRate rate⟩
  cases mode with
  | key => exact .inr (.inl hval)
  | redirect => exact .inr (.inr hval)
  | flood =>
    obtain ⟨⟨lines, secs, ban⟩, -, rfl⟩ := Option.map_eq_some_iff.mp hval
    refine .inl ⟨by simp [renderFlood, renderRate], ?_⟩
    cases ban
    · exact solid_renderRate _
    · exact .cons (by decide) (solid_renderRate _)
  | history =>
    obtain ⟨⟨lines, secs⟩, -, rfl⟩ := Option.map_eq_some_iff.mp hval
    exact .inl (hrate ⟨lines, secs⟩)
  | joinflood | nickflood | slowmode =>
    obtain ⟨rate, -, rfl⟩ := Option.map_eq_some_iff.mp hval
    exact .inl (hrate rate)
  | limit | anticaps | kicknorejoin | delaymsg | repeatLines =>
    obtain ⟨number, -, rfl⟩ := Option.map_eq_some_iff.mp hval
    exact .inl (hnum number.toNat)

theorem values_solid (hsnd : source.Sound) (hkey : ∀ word ∈ source.key, Solid word)
    (hredir : ∀ target ∈ source.redirect, Solid target) :
    ∀ value ∈ source.values, value ≠ [] ∧ Solid value := by
  intro value hmem
  obtain ⟨mode, -, hval⟩ := mem_filterMap.mp hmem
  rcases value_cases hval with hpl | hword | htgt
  · exact hpl
  · exact ⟨(hsnd.key value hword).1, hkey value hword⟩
  · refine ⟨?_, hredir value htgt⟩
    rintro rfl
    cases hsnd.redirect [] htgt

theorem not_mem_renderParams (hbl : char ≠ ' ') (hchar : isWhitespace char = true)
    (hkey : ∀ word ∈ source.key, char ∉ word)
    (hredir : ∀ target ∈ source.redirect, char ∉ target) : char ∉ source.renderParams := by
  intro hmem
  rcases mem_append.mp hmem with hrender | hvls
  · exact (solid_render source).not_mem hchar hrender
  · obtain ⟨value, hval, hmem⟩ := mem_flatMap.mp hvls
    obtain ⟨mode, -, hval⟩ := mem_filterMap.mp hval
    rcases mem_cons.mp hmem with hs | hmem
    · exact hbl hs
    · rcases value_cases hval with hpl | hword | htgt
      · exact hpl.2.not_mem hchar hmem
      · exact hkey value hword hmem
      · exact hredir value htgt hmem

end Values

section Channel

variable {channel : Channel} {before : Server}

theorem bareChannel_lists_eq_iff (hsnd : channel.Sound) (server : Server) :
    (bareChannel (channel.record server)).lists = channel.lists ↔
      ∀ kind, ∀ ban ∈ channel.lists kind,
        ban.expires = none ∧ ban.mask.getLast? ≠ some '\r' := by
  rw [funext_iff]
  refine forall_congr' fun kind => ?_
  rw [← reread_list_eq_iff (hsnd.masks kind), ← entries_of_kind]
  exact Iff.rfl

theorem plain_of_restored (hsnd : channel.Sound) (hsol : Solid channel.name)
    (habs : toAsciiLower channel.name ∉ before.channels)
    (hrestored : Restored (before.reload channel) channel) : Plain channel := by
  obtain ⟨copy, hcopy, -, -, hmds, htopic, hlis⟩ := hrestored
  have hname := (record_header hsol hsnd.name before).1
  rw [← hname] at habs
  obtain ⟨modes, htame, hhold⟩ := reload_holding (hname ▸ hsnd.name) habs
  rw [hname] at htame hhold
  cases hcopy.symm.trans hhold.self
  subst hmds
  exact ⟨hsol, htame.noExternal, htame.topicOps, htame.key, htame.redirect,
    rereadTopic_eq_iff.mp htopic, (bareChannel_lists_eq_iff hsnd before).mp hlis⟩

theorem setFlag_permanent_onto (hpl : Plain channel)
    (hperm : channel.modes.flags .permanent = true) :
    (channel.modes.onto freshModes).setFlag .permanent true = channel.modes := by
  rw [onto_freshModes]
  have hflags : Function.update (fun flag => flag = .noExternal || flag = .topicOps ||
      channel.modes.flags flag) .permanent true = channel.modes.flags := by
    funext flag
    cases flag <;>
      simp [hpl.noExternal, hpl.topicOps, hperm]
  simp only [setFlag, hflags]

theorem restored_of_plain (hsnd : channel.Sound) (hpl : Plain channel)
    (hperm : channel.modes.flags .permanent = true)
    (habs : toAsciiLower channel.name ∉ before.channels) :
    Restored (before.reload channel) channel := by
  obtain ⟨hname, hcreated⟩ := record_header hpl.name hsnd.name before
  have hsta := holding_insert (toAsciiLower channel.name)
    (bareChannel (channel.record before)) before
  have hvls := values_solid hsnd.modes hpl.key fun target htgt =>
    (hpl.redirect target htgt).1
  have hchomp : chomp channel.modes.renderParams = channel.modes.renderParams := by
    refine chomp_eq_self_iff.mpr fun hlast => ?_
    refine not_mem_renderParams (by decide) (by decide) ?_ ?_ (mem_of_getLast? hlast)
    · exact fun word hword => (hpl.key word hword).not_mem (by decide)
    · exact fun target htgt => (hpl.redirect target htgt).1.not_mem (by decide)
  have hheld := @Holding.applyModes channel.name _ (bareChannel (channel.record before)) before
    _ channel.modes freshModes hsnd.modes
    (fun target htgt => (hpl.redirect target htgt).2) hsta rfl hvls
  have hlast := hheld.changeChannel (withModes (setFlag .permanent true))
  refine ⟨withModes (setFlag .permanent true)
      { bareChannel (channel.record before) with modes := channel.modes.onto freshModes },
    ?_, hname, hcreated, setFlag_permanent_onto hpl hperm, rereadTopic_eq_iff.mpr hpl.topic, (bareChannel_lists_eq_iff hsnd before).mpr hpl.lists⟩
  rw [reload, build, hname, if_neg (not_or.mpr ⟨hsnd.name, habs⟩)]
  change (changeChannel _ _ (applyModes channel.name _
    (chomp channel.modes.renderParams) _)).channels.lookup _ = _
  rw [hchomp]
  exact hlast.self

end Channel

end EchoIrcd
