import Fab.Grouping
/-!
# Who is in which group

A group is written with its documents by one loop, so what a merge or a detection does to the
memberships is one lemma about that loop (`active_write`) and an induction over the groups written
(`activeKey_writeAll`). Nothing checks whether a document is in another group already, nor whether the
one taken out is the primary one. What holds in every run without these checks is `Sound`; the checks
that are missing are exactly what a run needs beside it.
-/

open Fab.Lib

namespace Fab.Grouping

namespace GroupLedger
variable {w : GroupLedger}

theorem mem_activeDocuments {gid d : ℕ} : d ∈ w.activeDocuments gid ↔
    ∃ i m, w.members.get i = some m ∧ m.groupId = gid ∧ m.documentId = d ∧ m.status = .active := by
  simp only [activeDocuments, activeMembers, List.mem_map, List.mem_filter, Prod.exists, Table.mem_entries,
    Bool.and_eq_true, decide_eq_true_eq]
  constructor
  · rintro ⟨i, m, ⟨hm, hg, hs⟩, hd⟩
    exact ⟨i, m, hm, hg, hd, hs⟩
  · rintro ⟨i, m, hm, hg, hd, hs⟩
    exact ⟨i, m, ⟨hm, hg, hs⟩, hd⟩

theorem length_activeDocuments (gid : ℕ) : (w.activeDocuments gid).length = (w.activeMembers gid).length :=
  List.length_map ..

theorem nodup_activeDocuments (h : Table.Distinct GroupMember.key w.members) (gid : ℕ) :
    (w.activeDocuments gid).Nodup := by
  refine List.Nodup.map_on ?_ (w.members.nodup_entries.filter _)
  rintro ⟨i, m⟩ hi ⟨j, m'⟩ hj heq
  obtain ⟨hi, hm⟩ := List.mem_filter.1 hi
  obtain ⟨hj, hm'⟩ := List.mem_filter.1 hj
  rw [Table.mem_entries] at hi hj
  simp only [Bool.and_eq_true, decide_eq_true_eq] at hm hm' heq
  obtain rfl := h i j m m' hi hj (by simp only [GroupMember.key, hm.1, hm'.1, heq])
  rw [hi] at hj
  cases hj
  rfl

/-- The document is active in an open group with the key. -/
def ActiveKey (w : GroupLedger) (d : ℕ) (key : String) : Prop :=
  ∃ gid g, w.groups.get gid = some g ∧ g.groupKey = key ∧ g.status ≠ .split ∧ d ∈ w.activeDocuments gid

end GroupLedger

open GroupLedger

/-! ## The claim, and what holds without it -/

/-- No document is active in two groups that are not split, and each of these has two active members
at least and an active primary document. -/
structure WellGrouped (w : GroupLedger) : Prop where
  once : ∀ d gid gid' g g', w.groups.get gid = some g → w.groups.get gid' = some g' → g.status ≠ .split →
    g'.status ≠ .split → d ∈ w.activeDocuments gid → d ∈ w.activeDocuments gid' → gid = gid'
  members : ∀ gid g, w.groups.get gid = some g → g.status ≠ .split → 2 ≤ (w.activeMembers gid).length
  primary : ∀ gid g, w.groups.get gid = some g → g.status ≠ .split → g.primaryDocumentId ∈ w.activeDocuments gid

/-- What every call keeps. -/
structure Sound (w : GroupLedger) : Prop where
  keys : Table.Distinct DocumentGroup.groupKey w.groups
  rows : Table.Distinct GroupMember.key w.members
  groups : ∀ i m, w.members.get i = some m → ∃ g, w.groups.get m.groupId = some g
  opened : ∀ gid g, w.groups.get gid = some g → g.status ≠ .split → 2 ≤ (w.activeDocuments gid).length
  closed : ∀ gid g, w.groups.get gid = some g → g.status = .split → (w.activeDocuments gid).length < 2

theorem sound_empty (clock : ℕ → ℕ) : Sound { clock := clock } where
  keys := Table.Distinct.empty _
  rows := Table.Distinct.empty _
  groups i m h := by simp at h
  opened gid g h := by simp at h
  closed gid g h := by simp at h

theorem wellGrouped_empty (clock : ℕ → ℕ) : WellGrouped { clock := clock } where
  once d gid gid' g g' h := by simp at h
  members gid g h := by simp at h
  primary gid g h := by simp at h

theorem Sound.once_iff {w : GroupLedger} (h : Sound w) :
    (∀ d gid gid' g g', w.groups.get gid = some g → w.groups.get gid' = some g' → g.status ≠ .split →
      g'.status ≠ .split → d ∈ w.activeDocuments gid → d ∈ w.activeDocuments gid' → gid = gid') ↔
    ∀ d k k', w.ActiveKey d k → w.ActiveKey d k' → k = k' := by
  constructor
  · rintro hone d k k' ⟨gid, g, hg, rfl, hopen, hd⟩ ⟨gid', g', hg', rfl, hopen', hd'⟩
    obtain rfl := hone d gid gid' g g' hg hg' hopen hopen' hd hd'
    rw [hg] at hg'
    cases hg'
    rfl
  · intro hone d gid gid' g g' hg hg' hopen hopen' hd hd'
    exact h.keys gid gid' g g' hg hg' (hone d _ _ ⟨gid, g, hg, rfl, hopen, hd⟩ ⟨gid', g', hg', rfl, hopen', hd'⟩)

/-! ## Writing a group -/

section Write
variable {w : GroupLedger} {gid : ℕ}

theorem active_add (gid d : ℕ) (role : MemberRole) (sortOrder : ℕ) (w : GroupLedger) (gid' d' : ℕ) :
    d' ∈ (addDocumentToGroup gid d role sortOrder w).activeDocuments gid' ↔
      (gid' = gid ∧ d' = d) ∨ d' ∈ w.activeDocuments gid' := by
  simp only [mem_activeDocuments, addDocumentToGroup, Table.get_upsert]
  constructor
  · rintro ⟨i, m, hm, rfl, rfl, hs⟩
    split at hm
    · cases hm
      exact .inl ⟨rfl, rfl⟩
    · exact .inr ⟨i, m, hm, rfl, rfl, hs⟩
  · rintro (⟨rfl, rfl⟩ | ⟨i, m, hm, rfl, rfl, hs⟩)
    · exact ⟨_, _, if_pos rfl, rfl, rfl, rfl⟩
    · by_cases hi : i = (w.members.upsert GroupMember.key ⟨gid, d, role, sortOrder, .active⟩).1
      · -- the row overwritten is one of the same document in the same group
        have hkey := Table.upsert_old GroupMember.key w.members ⟨gid, d, role, sortOrder, .active⟩ (hi ▸ hm)
        simp only [GroupMember.key, Prod.mk.injEq] at hkey
        exact ⟨i, _, if_pos hi, hkey.1.symm, hkey.2.symm, rfl⟩
      · exact ⟨i, m, (if_neg hi).trans hm, rfl, rfl, hs⟩

/-- What the loop leaves as it is, and the memberships that it adds. -/
structure Added (gid : ℕ) (ids : List ℕ) (w w' : GroupLedger) : Prop where
  groups : w'.groups = w.groups
  distinct : Table.Distinct GroupMember.key w.members → Table.Distinct GroupMember.key w'.members
  rows : ∀ i m, w'.members.get i = some m → m.groupId = gid ∨ w.members.get i = some m
  active : ∀ i d, d ∈ w'.activeDocuments i ↔ (i = gid ∧ d ∈ ids) ∨ d ∈ w.activeDocuments i

theorem added_addDocuments (gid : ℕ) (ids : List ℕ) :
    ∀ (index : ℕ) (w : GroupLedger), Added gid ids w (addDocuments gid index ids w) := by
  induction ids with
  | nil => exact fun index w => ⟨rfl, id, fun i m h => .inr h, fun i d => by simp [addDocuments]⟩
  | cons d ids ih =>
    intro index w
    rw [addDocuments]
    generalize hrole : (if index = 0 then MemberRole.primary else .page) = role
    have hrest := ih (index + 1) (addDocumentToGroup gid d role index w)
    refine ⟨hrest.groups, fun h => hrest.distinct (h.upsert _), fun i m hm => ?_, fun i d' => ?_⟩
    · rcases hrest.rows i m hm with h | h
      · exact .inl h
      · simp only [addDocumentToGroup, Table.get_upsert] at h
        split at h
        · cases h
          exact .inl rfl
        · exact .inr h
    · rw [hrest.active, active_add, List.mem_cons]
      tauto

/-- The group written, and the memberships that it gets. -/
structure Written (key : String) (ids : List ℕ) (w : GroupLedger) (gid : ℕ) (row : DocumentGroup) (w' : GroupLedger) :
    Prop where
  key_eq : row.groupKey = strip key
  opened : row.status ≠ .split
  primary : row.primaryDocumentId = ids.headD 0
  groups : ∀ i, w'.groups.get i = if i = gid then some row else w.groups.get i
  /-- a group with the key is the one written -/
  same : Sound w → ∀ i g, w.groups.get i = some g → (i = gid ↔ g.groupKey = strip key)
  distinct : Sound w → Table.Distinct DocumentGroup.groupKey w'.groups
  members : Added gid ids w { w' with groups := w.groups }

theorem written_writeGroup (key : String) (type : GroupType) {status : GroupStatus} (hstatus : status ≠ .split)
    (ids : List ℕ) (w : GroupLedger) : ∃ gid row, Written key ids w gid row (writeGroup key type status ids w) := by
  unfold writeGroup upsertDocumentGroup
  dsimp only
  generalize hrow : DocumentGroup.mk (strip key) type status (ids.headD 0) (w.clock 0) = row
  have hkey : row.groupKey = strip key := by rw [← hrow]
  have hopen : row.status ≠ .split := by rw [← hrow]; exact hstatus
  have hprimary : row.primaryDocumentId = ids.headD 0 := by rw [← hrow]
  clear hrow
  have hadded := added_addDocuments (w.groups.upsert DocumentGroup.groupKey row).1 ids 0
    { w.tick with groups := (w.groups.upsert DocumentGroup.groupKey row).2 }
  refine ⟨_, row, hkey, hopen, hprimary, fun i => ?_, fun h i g hg => ?_, fun h => ?_,
    rfl, hadded.distinct, hadded.rows, hadded.active⟩
  · rw [hadded.groups]
    exact Table.get_upsert ..
  · rw [← hkey]
    refine ⟨fun hi => ?_, fun hk => h.keys.upsert_id hg hk⟩
    exact Table.upsert_old DocumentGroup.groupKey w.groups row (hi ▸ hg)
  · rw [hadded.groups]
    exact h.keys.upsert row

end Write

theorem length_eq_of_mem {w w' : GroupLedger} (h : Table.Distinct GroupMember.key w.members)
    (h' : Table.Distinct GroupMember.key w'.members) {gid : ℕ}
    (hmem : ∀ d, d ∈ w'.activeDocuments gid ↔ d ∈ w.activeDocuments gid) :
    (w'.activeDocuments gid).length = (w.activeDocuments gid).length :=
  ((List.perm_ext_iff_of_nodup (nodup_activeDocuments h' gid) (nodup_activeDocuments h gid)).2 hmem).length_eq

section Written
variable {key : String} {ids : List ℕ} {w w' : GroupLedger} {gid : ℕ} {row : DocumentGroup}

theorem Written.active (h : Written key ids w gid row w') (i d : ℕ) :
    d ∈ w'.activeDocuments i ↔ (i = gid ∧ d ∈ ids) ∨ d ∈ w.activeDocuments i := h.members.active i d

theorem Written.sound (h : Written key ids w gid row w') (hw : Sound w) (hnodup : ids.Nodup) (htwo : 2 ≤ ids.length) :
    Sound w' := by
  have hrows : Table.Distinct GroupMember.key w'.members := h.members.distinct hw.rows
  have hother {i : ℕ} (hi : i ≠ gid) : (w'.activeDocuments i).length = (w.activeDocuments i).length :=
    length_eq_of_mem hw.rows hrows fun d => by rw [h.active]; tauto
  refine ⟨h.distinct hw, hrows, fun i m hm => ?_, fun i g hg hopen => ?_, fun i g hg hsplit => ?_⟩
  · rw [h.groups]
    split
    · exact ⟨row, rfl⟩
    · next hi => exact hw.groups i m ((h.members.rows i m hm).resolve_left hi)
  · rw [h.groups] at hg
    split at hg
    · next hi =>
      have hsub : ids ⊆ w'.activeDocuments i := fun d hd => (h.active i d).2 (.inl ⟨hi, hd⟩)
      exact htwo.trans (List.subperm_of_subset hnodup hsub).length_le
    · next hi =>
      rw [hother hi]
      exact hw.opened i g hg hopen
  · rw [h.groups] at hg
    split at hg
    · cases hg
      exact absurd hsplit h.opened
    · next hi =>
      rw [hother hi]
      exact hw.closed i g hg hsplit

/-- The active documents of the group with a key once it is written: the given ones and the ones that
are still active in it. -/
def Joins (w : GroupLedger) (o : String × List ℕ) (d : ℕ) : Prop :=
  d ∈ o.2 ∨ ∃ gid g, w.groups.get gid = some g ∧ g.groupKey = strip o.1 ∧ d ∈ w.activeDocuments gid

theorem Written.mem_iff_joins (h : Written key ids w gid row w') (hw : Sound w) (d : ℕ) :
    d ∈ w'.activeDocuments gid ↔ Joins w (key, ids) d := by
  rw [h.active]
  constructor
  · rintro (⟨-, hd⟩ | hd)
    · exact .inl hd
    · obtain ⟨i, m, hm, rfl, -, -⟩ := mem_activeDocuments.1 hd
      obtain ⟨g, hg⟩ := hw.groups i m hm
      exact .inr ⟨m.groupId, g, hg, (h.same hw _ g hg).1 rfl, hd⟩
  · rintro (hd | ⟨i, g, hg, hkey, hd⟩)
    · exact .inl ⟨rfl, hd⟩
    · rw [(h.same hw i g hg).2 hkey] at hd
      exact .inr hd

theorem Written.activeKey (h : Written key ids w gid row w') (hw : Sound w) (d : ℕ) (k : String) :
    w'.ActiveKey d k ↔ w.ActiveKey d k ∨ (strip key = k ∧ Joins w (key, ids) d) := by
  constructor
  · rintro ⟨i, g, hg, rfl, hopen, hd⟩
    rw [h.groups] at hg
    split at hg
    · next hi =>
      cases hg
      subst hi
      exact .inr ⟨h.key_eq.symm, (h.mem_iff_joins hw d).1 hd⟩
    · next hi =>
      rw [h.active] at hd
      exact .inl ⟨i, g, hg, rfl, hopen, hd.resolve_left fun hc => hi hc.1⟩
  · rintro (⟨i, g, hg, rfl, hopen, hd⟩ | ⟨rfl, hjoins⟩)
    · by_cases hi : i = gid
      · refine ⟨i, row, by rw [h.groups, if_pos hi], ?_, h.opened, (h.active i d).2 (.inr hd)⟩
        rw [h.key_eq, (h.same hw i g hg).1 hi]
      · exact ⟨i, g, by rw [h.groups, if_neg hi, hg], rfl, hopen, (h.active i d).2 (.inr hd)⟩
    · exact ⟨gid, row, by rw [h.groups, if_pos rfl], h.key_eq, h.opened, (h.mem_iff_joins hw d).2 hjoins⟩

theorem Written.joins (h : Written key ids w gid row w') (hw : Sound w) (o : String × List ℕ) (d : ℕ) :
    Joins w' o d ↔ Joins w o d ∨ (strip key = strip o.1 ∧ Joins w (key, ids) d) := by
  constructor
  · rintro (hd | ⟨i, g, hg, hkey, hd⟩)
    · exact .inl (.inl hd)
    · rw [h.groups] at hg
      split at hg
      · next hi =>
        cases hg
        subst hi
        exact .inr ⟨h.key_eq.symm.trans hkey, (h.mem_iff_joins hw d).1 hd⟩
      · next hi =>
        rw [h.active] at hd
        exact .inl (.inr ⟨i, g, hg, hkey, hd.resolve_left fun hc => hi hc.1⟩)
  · rintro ((hd | ⟨i, g, hg, hkey, hd⟩) | ⟨hkey, hjoins⟩)
    · exact .inl hd
    · by_cases hi : i = gid
      · refine .inr ⟨i, row, by rw [h.groups, if_pos hi], ?_, (h.active i d).2 (.inr hd)⟩
        rw [h.key_eq, ← (h.same hw i g hg).1 hi, hkey]
      · exact .inr ⟨i, g, by rw [h.groups, if_neg hi, hg], hkey, (h.active i d).2 (.inr hd)⟩
    · exact .inr ⟨gid, row, by rw [h.groups, if_pos rfl], h.key_eq.trans hkey, (h.mem_iff_joins hw d).2 hjoins⟩

theorem Written.primary_active (h : Written key ids w gid row w') (hids : ids ≠ [])
    (hw : ∀ i g, w.groups.get i = some g → g.status ≠ .split → g.primaryDocumentId ∈ w.activeDocuments i) :
    ∀ i g, w'.groups.get i = some g → g.status ≠ .split → g.primaryDocumentId ∈ w'.activeDocuments i := by
  intro i g hg hopen
  rw [h.groups] at hg
  rw [h.active]
  split at hg
  · next hi =>
    cases hg
    refine .inl ⟨hi, ?_⟩
    rw [h.primary]
    cases ids with
    | nil => exact absurd rfl hids
    | cons d ids => exact List.mem_cons_self
  · exact .inr (hw i g hg hopen)

end Written

/-! ## Writing several groups -/

/-- Each group is written with at least two documents, and with none of them twice. -/
def Writable (o : String × List ℕ) : Prop := o.2.Nodup ∧ 2 ≤ o.2.length

def writeAll (type : GroupType) (status : GroupStatus) (os : List (String × List ℕ)) (w : GroupLedger) : GroupLedger :=
  os.foldl (fun w o => writeGroup o.1 type status o.2 w) w

theorem activeKey_writeAll (type : GroupType) {status : GroupStatus} (hstatus : status ≠ .split) :
    ∀ (os : List (String × List ℕ)) (w : GroupLedger), Sound w → (∀ o ∈ os, Writable o) →
      Sound (writeAll type status os w) ∧
      (∀ d k, (writeAll type status os w).ActiveKey d k ↔
        w.ActiveKey d k ∨ ∃ o ∈ os, strip o.1 = k ∧ Joins w o d) := by
  intro os
  induction os with
  | nil => exact fun w hw _ => ⟨hw, fun d k => by simp [writeAll]⟩
  | cons o os ih =>
    intro w hw hos
    obtain ⟨key, ids⟩ := o
    obtain ⟨hnodup, htwo⟩ := hos _ List.mem_cons_self
    obtain ⟨gid, row, hwritten⟩ := written_writeGroup key type hstatus ids w
    have hw' := hwritten.sound hw hnodup htwo
    obtain ⟨hsound, hactive⟩ := ih (writeGroup key type status ids w) hw' fun o ho => hos o (List.mem_cons_of_mem _ ho)
    refine ⟨hsound, fun d k => (hactive d k).trans ?_⟩
    rw [hwritten.activeKey hw]
    simp only [hwritten.joins hw, List.mem_cons]
    constructor
    · rintro ((h | h) | ⟨o, ho, hk, h | ⟨hkey, h⟩⟩)
      · exact .inl h
      · exact .inr ⟨_, .inl rfl, h⟩
      · exact .inr ⟨o, .inr ho, hk, h⟩
      · exact .inr ⟨_, .inl rfl, hkey.trans hk, h⟩
    · rintro (h | ⟨o, rfl | ho, hk, h⟩)
      · exact .inl (.inl h)
      · exact .inl (.inr ⟨hk, h⟩)
      · exact .inr ⟨o, ho, hk, .inl h⟩

theorem primary_writeAll (type : GroupType) {status : GroupStatus} (hstatus : status ≠ .split) :
    ∀ (os : List (String × List ℕ)) (w : GroupLedger), (∀ o ∈ os, Writable o) →
      (∀ i g, w.groups.get i = some g → g.status ≠ .split → g.primaryDocumentId ∈ w.activeDocuments i) →
      ∀ i g, (writeAll type status os w).groups.get i = some g → g.status ≠ .split →
        g.primaryDocumentId ∈ (writeAll type status os w).activeDocuments i := by
  intro os
  induction os with
  | nil => exact fun w _ h => h
  | cons o os ih =>
    intro w hos h
    have htwo := (hos _ List.mem_cons_self).2
    obtain ⟨gid, row, hwritten⟩ := written_writeGroup o.1 type hstatus o.2 w
    refine ih (writeGroup o.1 type status o.2 w) (fun o ho => hos o (List.mem_cons_of_mem _ ho)) ?_
    exact hwritten.primary_active (fun hnil => by rw [hnil] at htwo; cases htwo) h

/-- No document that will be active in one of the groups written is, or will be, active in another one. -/
def Unclaimed (w : GroupLedger) (os : List (String × List ℕ)) : Prop :=
  (∀ o ∈ os, ∀ d, Joins w o d → ∀ k, w.ActiveKey d k → k = strip o.1) ∧
  ∀ o ∈ os, ∀ o' ∈ os, ∀ d, Joins w o d → Joins w o' d → strip o.1 = strip o'.1

theorem wellGrouped_writeAll (type : GroupType) {status : GroupStatus} (hstatus : status ≠ .split)
    {os : List (String × List ℕ)} {w : GroupLedger} (hos : ∀ o ∈ os, Writable o) (hw : Sound w) (h : WellGrouped w) :
    WellGrouped (writeAll type status os w) ↔ Unclaimed w os := by
  obtain ⟨hsound, hactive⟩ := activeKey_writeAll type hstatus os w hw hos
  have honce := hw.once_iff.1 h.once
  constructor
  · intro h'
    have honce' := hsound.once_iff.1 h'.once
    refine ⟨fun o ho d hj k hk => ?_, fun o ho o' ho' d hj hj' => ?_⟩
    · exact honce' d _ _ ((hactive d k).2 (.inl hk)) ((hactive d _).2 (.inr ⟨o, ho, rfl, hj⟩))
    · exact honce' d _ _ ((hactive d _).2 (.inr ⟨o, ho, rfl, hj⟩)) ((hactive d _).2 (.inr ⟨o', ho', rfl, hj'⟩))
  · rintro ⟨hold, hnew⟩
    refine ⟨hsound.once_iff.2 fun d k k' hk hk' => ?_, fun i g hg hopen => ?_,
      primary_writeAll type hstatus os w hos h.primary⟩
    · rcases (hactive d k).1 hk with hk | ⟨o, ho, rfl, hj⟩ <;> rcases (hactive d k').1 hk' with hk' | ⟨o', ho', rfl, hj'⟩
      · exact honce d k k' hk hk'
      · exact hold o' ho' d hj' k hk
      · exact (hold o ho d hj k' hk').symm
      · exact hnew o ho o' ho' d hj hj'
    · rw [← length_activeDocuments]
      exact hsound.opened i g hg hopen

/-! ## The groups that a detection finds -/

theorem mem_addToBucket {key : String} {document : ListedDocument} {b : String × List ListedDocument} :
    ∀ {buckets : List (String × List ListedDocument)}, b ∈ addToBucket key document buckets →
      b ∈ buckets ∨ b.2 = [document] ∨ ∃ b' ∈ buckets, b.2 = b'.2 ++ [document] := by
  intro buckets
  induction buckets with
  | nil =>
    intro h
    rw [addToBucket, List.mem_singleton] at h
    exact .inr (.inl (by rw [h]))
  | cons bucket buckets ih =>
    intro h
    rw [addToBucket] at h
    split at h
    · rcases List.mem_cons.1 h with rfl | h
      · exact .inr (.inr ⟨bucket, List.mem_cons_self, rfl⟩)
      · exact .inl (List.mem_cons_of_mem _ h)
    · rcases List.mem_cons.1 h with rfl | h
      · exact .inl List.mem_cons_self
      · rcases ih h with h | h | ⟨b', hb', h⟩
        · exact .inl (List.mem_cons_of_mem _ h)
        · exact .inr (.inl h)
        · exact .inr (.inr ⟨b', List.mem_cons_of_mem _ hb', h⟩)

theorem sublist_scannerBucket {existing : List String} {buckets : List (String × List ListedDocument)}
    {done : List ListedDocument} (document : ListedDocument) (h : ∀ b ∈ buckets, b.2.Sublist done) :
    ∀ b ∈ scannerBucket existing buckets document, b.2.Sublist (done ++ [document]) := by
  have hkeep : ∀ b ∈ buckets, b.2.Sublist (done ++ [document]) :=
    fun b hb => (h b hb).trans (List.sublist_append_left ..)
  unfold scannerBucket
  generalize scannerGroupKey document.row = key
  cases key with
  | none => exact hkeep
  | some key =>
    dsimp only
    split
    · exact hkeep
    · intro b hb
      rcases mem_addToBucket hb with hb | hb | ⟨b', hb', hb⟩
      · exact hkeep b hb
      · rw [hb]
        exact List.sublist_append_right ..
      · rw [hb]
        exact (h b' hb').append_right _

theorem sublist_scannerBuckets (limit : ℕ) (w : GroupLedger) :
    ∀ b ∈ scannerBuckets limit w, b.2.Sublist (listDocuments limit w) := by
  have fold (existing : List String) (rest : List ListedDocument) :
      ∀ (done : List ListedDocument) (buckets : List (String × List ListedDocument)),
        (∀ b ∈ buckets, b.2.Sublist done) →
        ∀ b ∈ rest.foldl (scannerBucket existing) buckets, b.2.Sublist (done ++ rest) := by
    induction rest with
    | nil =>
      intro done buckets h
      rw [List.append_nil]
      exact h
    | cons document rest ih =>
      intro done buckets h
      rw [List.foldl_cons, List.append_cons]
      exact ih _ _ (sublist_scannerBucket document h)
  exact fold _ (listDocuments limit w) [] [] nofun

theorem nodup_listDocuments (limit : ℕ) (w : GroupLedger) : ((listDocuments limit w).map (·.id)).Nodup := by
  unfold listDocuments
  rw [List.map_map]
  have hids : ((w.documents.latest (·.updatedAt)).map (·.1)).Nodup := by
    have hperm : (w.documents.latest (·.updatedAt)).Perm w.documents.entries :=
      (List.perm_insertionSort _ _).trans (List.reverse_perm _)
    exact (hperm.map (·.1)).nodup_iff.2 w.documents.nodup_ids
  have htake := hids.sublist (List.take_sublist (boundedLimit limit) _)
  rw [← List.map_take] at htake
  exact htake

theorem writable_detected (limit : ℕ) (w : GroupLedger) : ∀ o ∈ detectedGroups limit w, Writable o := by
  intro o ho
  obtain ⟨b, hb, rfl⟩ := List.mem_map.1 ho
  obtain ⟨hb, htwo⟩ := List.mem_filter.1 hb
  have hperm : (b.2.insertionSort sortsBefore).Perm b.2 := List.perm_insertionSort ..
  refine ⟨?_, ?_⟩
  · refine (hperm.map (·.id)).nodup_iff.2 ?_
    exact ((sublist_scannerBuckets limit w b hb).map _).nodup (nodup_listDocuments limit w)
  · rw [List.length_map, hperm.length_eq]
    exact of_decide_eq_true htwo

/-! ## The documents of a merge -/

theorem uniqueInts_nodup (values : List Value) : (uniqueInts values).Nodup := by
  refine List.foldlRecOn values _ List.nodup_nil fun result h v _ => ?_
  generalize v.toInt = parsed
  cases parsed with
  | none => exact h
  | some parsed =>
    dsimp only
    split
    · exact h
    · next hnew => exact List.nodup_append.2 ⟨h, List.nodup_singleton _, fun x hx y hy => by
        rw [List.mem_singleton.1 hy]
        rintro rfl
        exact hnew hx⟩

theorem writable_merged {values : List Value} {w : GroupLedger} {ids : List ℕ} (h : mergedDocuments values w = .ok ids) :
    Writable (manualKey ids, ids) := by
  unfold mergedDocuments at h
  dsimp only at h
  have hnodup := uniqueInts_nodup values
  generalize uniqueInts values = parsedIds at h hnodup
  split at h
  · cases h
  split at h
  · cases h
  next htwo hfound =>
  cases h
  refine ⟨hnodup.map_on fun x hx y hy hxy => ?_, by rw [List.length_map]; omega⟩
  -- an id with a row is positive
  have hpos : ∀ id ∈ parsedIds, 0 < rowId id := by
    intro id hid
    rcases Nat.eq_zero_or_pos (rowId id) with h | h
    · exact absurd (List.any_eq_true.2 ⟨id, hid, by rw [h]; rfl⟩) hfound
    · exact h
  have hx := hpos x hx
  have hy := hpos y hy
  unfold rowId at hx hy hxy
  omega

/-! ## Taking a document out -/

/-- The document is not the primary one, or the group is closed without it. -/
def Spare (w : GroupLedger) (groupId documentId : ℕ) : Prop :=
  ∀ g, w.groups.get groupId = some g → g.primaryDocumentId = documentId →
    ((w.activeDocuments groupId).filter (· ≠ documentId)).length < 2

section Split
variable {w w' : GroupLedger} {gid d : ℕ}

/-- What a removal writes: the document's row in the group, and the group's status by what is left. -/
structure Removed (gid d : ℕ) (w w' : GroupLedger) : Prop where
  distinct : Table.Distinct GroupMember.key w.members → Table.Distinct GroupMember.key w'.members
  rows : ∀ i m, w'.members.get i = some m → ∃ m', w.members.get i = some m' ∧ m'.groupId = m.groupId
  active : Table.Distinct GroupMember.key w.members →
    ∀ i d', d' ∈ w'.activeDocuments i ↔ d' ∈ w.activeDocuments i ∧ ¬(i = gid ∧ d' = d)
  groups : ∀ i, w'.groups.get i = if i = gid then (w.groups.get i).map fun g =>
      { g with
        status := if (w'.activeDocuments gid).length < 2 then .split else .needsReview
        updatedAt := w.clock 0 }
    else w.groups.get i

theorem active_remove {id : ℕ} {row : GroupMember} (h : w.members.lookup GroupMember.key (gid, d) = some (id, row))
    (hrows : Table.Distinct GroupMember.key w.members) (i d' : ℕ) :
    d' ∈ ({ w with members := w.members.modify id fun m => { m with status := .removed } } : GroupLedger).activeDocuments i ↔
      d' ∈ w.activeDocuments i ∧ ¬(i = gid ∧ d' = d) := by
  obtain ⟨hget, hkey⟩ := Table.lookup_some h
  simp only [GroupMember.key, Prod.mk.injEq] at hkey
  simp only [mem_activeDocuments, Table.get_modify]
  constructor
  · rintro ⟨j, m, hm, rfl, rfl, hs⟩
    split at hm
    · obtain ⟨m', -, rfl⟩ := Option.map_eq_some_iff.1 hm
      cases hs
    · next hj =>
      refine ⟨⟨j, m, hm, rfl, rfl, hs⟩, fun hsame => hj ?_⟩
      refine hrows j id m row hm hget ?_
      simp only [GroupMember.key, hkey, hsame]
  · rintro ⟨⟨j, m, hm, rfl, rfl, hs⟩, hother⟩
    refine ⟨j, m, (if_neg ?_).trans hm, rfl, rfl, hs⟩
    rintro rfl
    rw [hm] at hget
    cases hget
    exact hother hkey

theorem split_cases (groupId documentId : ℤ) (w : GroupLedger) :
    ((splitDocumentFromGroup groupId documentId w).2 = w ∧
        ∀ g, w.groups.get (rowId groupId) = some g → rowId documentId ∉ w.activeDocuments (rowId groupId)) ∨
      Removed (rowId groupId) (rowId documentId) w (splitDocumentFromGroup groupId documentId w).2 := by
  unfold splitDocumentFromGroup removeDocumentFromGroup
  generalize rowId groupId = gid
  generalize rowId documentId = d
  split
  · next hnone => exact .inl ⟨rfl, fun g hg => by rw [hnone] at hg; cases hg⟩
  cases hlookup : w.members.lookup GroupMember.key (gid, d) with
  | none =>
    refine .inl ⟨rfl, fun _ _ hd => ?_⟩
    obtain ⟨i, m, hm, hgroup, hdocument, -⟩ := mem_activeDocuments.1 hd
    exact Table.lookup_none hlookup hm (by rw [GroupMember.key, hgroup, hdocument])
  | some r =>
    obtain ⟨id, row⟩ := r
    dsimp only
    rw [if_neg (by decide)]
    refine .inr ?_
    have written (status : GroupStatus) (hstatus : status = if (({ w with members := w.members.modify id fun m =>
        { m with status := .removed } } : GroupLedger).activeDocuments gid).length < 2 then .split else .needsReview) :
        Removed gid d w (updateDocumentGroupStatus gid status
          { w with members := w.members.modify id fun m => { m with status := .removed } }) := by
      refine ⟨fun h => h.modify fun _ => rfl, fun i m hm => ?_, fun h => active_remove hlookup h, fun i => ?_⟩
      · change (w.members.modify id _).get i = some m at hm
        rw [Table.get_modify] at hm
        split at hm
        · obtain ⟨m', hm', rfl⟩ := Option.map_eq_some_iff.1 hm
          exact ⟨m', hm', rfl⟩
        · exact ⟨m, hm, rfl⟩
      · subst hstatus
        exact Table.get_modify ..
    rw [← length_activeDocuments]
    split
    · next hfew => exact written _ (if_pos hfew).symm
    · next hmany => exact written _ (if_neg hmany).symm

theorem Removed.sound (h : Removed gid d w w') (hw : Sound w) : Sound w' := by
  have hrows := h.distinct hw.rows
  have hother {i : ℕ} (hi : i ≠ gid) : (w'.activeDocuments i).length = (w.activeDocuments i).length :=
    length_eq_of_mem hw.rows hrows fun d' => by rw [h.active hw.rows]; tauto
  refine ⟨fun i j a b ha hb hab => ?_, hrows, fun i m hm => ?_, fun i g hg hopen => ?_, fun i g hg hsplit => ?_⟩
  · have back {i : ℕ} {a : DocumentGroup} (ha : w'.groups.get i = some a) :
        ∃ a', w.groups.get i = some a' ∧ a.groupKey = a'.groupKey := by
      rw [h.groups] at ha
      split at ha
      · obtain ⟨a', ha', rfl⟩ := Option.map_eq_some_iff.1 ha
        exact ⟨a', ha', rfl⟩
      · exact ⟨a, ha, rfl⟩
    obtain ⟨a', ha', hka⟩ := back ha
    obtain ⟨b', hb', hkb⟩ := back hb
    exact hw.keys i j a' b' ha' hb' (hka.symm.trans (hab.trans hkb))
  · obtain ⟨m', hm', heq⟩ := h.rows i m hm
    obtain ⟨g, hg⟩ := hw.groups i m' hm'
    rw [heq] at hg
    rw [h.groups]
    split
    · exact ⟨_, by rw [hg]; rfl⟩
    · exact ⟨g, hg⟩
  · rw [h.groups] at hg
    split at hg
    · next hi =>
      obtain ⟨g', -, rfl⟩ := Option.map_eq_some_iff.1 hg
      subst hi
      by_contra hfew
      exact hopen (if_pos (Nat.lt_of_not_le hfew))
    · next hi =>
      rw [hother hi]
      exact hw.opened i g hg hopen
  · rw [h.groups] at hg
    split at hg
    · next hi =>
      obtain ⟨g', -, rfl⟩ := Option.map_eq_some_iff.1 hg
      subst hi
      by_contra hmany
      simp only [if_neg hmany] at hsplit
      cases hsplit
    · next hi =>
      rw [hother hi]
      exact hw.closed i g hg hsplit

theorem Removed.was_open (h : Removed gid d w w') (hw : Sound w) {i : ℕ} {g : DocumentGroup}
    (hg : w'.groups.get i = some g) (hopen : g.status ≠ .split) : ∃ g', w.groups.get i = some g' ∧
      g'.status ≠ .split ∧ g'.groupKey = g.groupKey ∧ g'.primaryDocumentId = g.primaryDocumentId := by
  have htwo := (h.sound hw).opened i g hg hopen
  rw [h.groups] at hg
  split at hg
  · obtain ⟨g', hg', rfl⟩ := Option.map_eq_some_iff.1 hg
    refine ⟨g', hg', fun hsplit => ?_, rfl, rfl⟩
    have hsub : w'.activeDocuments i ⊆ w.activeDocuments i := fun d' hd' => ((h.active hw.rows i d').1 hd').1
    have hle := (List.subperm_of_subset (nodup_activeDocuments (h.distinct hw.rows) i) hsub).length_le
    have := hw.closed i g' hg' hsplit
    omega
  · exact ⟨g, hg, hopen, rfl, rfl⟩

theorem Removed.length_active (h : Removed gid d w w') (hw : Sound w) :
    (w'.activeDocuments gid).length = ((w.activeDocuments gid).filter (· ≠ d)).length := by
  refine ((List.perm_ext_iff_of_nodup (nodup_activeDocuments (h.distinct hw.rows) gid)
    ((nodup_activeDocuments hw.rows gid).filter _)).2 fun d' => ?_).length_eq
  rw [h.active hw.rows, List.mem_filter, decide_eq_true_eq]
  tauto

theorem Removed.wellGrouped (h : Removed gid d w w') (hw : Sound w) (hgrouped : WellGrouped w) :
    WellGrouped w' ↔ Spare w gid d := by
  constructor
  · intro h' g hg hprimary
    rw [← h.length_active hw]
    by_contra hmany
    have hg' := h.groups gid
    rw [if_pos rfl, hg, Option.map_some, if_neg hmany] at hg'
    have hactive := h'.primary gid _ hg' (by simp)
    exact ((h.active hw.rows _ _).1 hactive).2 ⟨rfl, hprimary⟩
  · intro hspare
    refine ⟨fun d' i j a b ha hb hopen hopen' hd hd' => ?_, fun i g hg hopen => ?_, fun i g hg hopen => ?_⟩
    · obtain ⟨a', ha', hopena, -⟩ := h.was_open hw ha hopen
      obtain ⟨b', hb', hopenb, -⟩ := h.was_open hw hb hopen'
      exact hgrouped.once d' i j a' b' ha' hb' hopena hopenb ((h.active hw.rows _ _).1 hd).1
        ((h.active hw.rows _ _).1 hd').1
    · rw [← length_activeDocuments]
      exact (h.sound hw).opened i g hg hopen
    · obtain ⟨g', hg', hopen', -, hprimary⟩ := h.was_open hw hg hopen
      rw [h.active hw.rows, ← hprimary]
      refine ⟨hgrouped.primary i g' hg' hopen', ?_⟩
      rintro ⟨rfl, hd⟩
      have hfew := hspare g' hg' hd
      have htwo := (h.sound hw).opened i g hg hopen
      rw [h.length_active hw] at htwo
      omega

end Split

/-! ## Runs -/

/-- What a call must meet: each group is written for documents that no other open group has, and the
document taken out of a group can be spared. -/
def Sparing : GroupCall → GroupLedger → Prop
  | .register _, _ => True
  | .detect limit, w => Unclaimed w (detectedGroups limit w)
  | .merge documentIds, w => ∀ ids, mergedDocuments documentIds w = .ok ids → Unclaimed w [(manualKey ids, ids)]
  | .split groupId documentId, w => Spare w (rowId groupId) (rowId documentId)

section Same
variable {w w' : GroupLedger} (hgroups : w'.groups = w.groups) (hmembers : w'.members = w.members)
include hgroups hmembers

theorem Sound.of_same (h : Sound w) : Sound w' := by
  have hactive : w'.activeDocuments = w.activeDocuments := by
    funext gid
    simp only [activeDocuments, activeMembers, hmembers]
  refine ⟨?_, ?_, ?_, ?_, ?_⟩ <;> simp only [hgroups, hmembers, hactive]
  · exact h.keys
  · exact h.rows
  · exact h.groups
  · exact h.opened
  · exact h.closed

theorem WellGrouped.of_same (h : WellGrouped w) : WellGrouped w' := by
  have hactive : w'.activeMembers = w.activeMembers := by
    funext gid
    simp only [activeMembers, hmembers]
  refine ⟨?_, ?_, ?_⟩ <;> simp only [hgroups, activeDocuments, hactive]
  · exact h.once
  · exact h.members
  · exact h.primary

end Same

theorem register_same (payload : GroupedDocument) (w : GroupLedger) :
    (registerDocument payload w).2.groups = w.groups ∧ (registerDocument payload w).2.members = w.members := by
  unfold registerDocument
  dsimp only
  repeat' split
  all_goals exact ⟨rfl, rfl⟩

theorem merge_cases (values : List Value) (w : GroupLedger) :
    ((mergeDocuments values w).2 = w ∧ ∀ ids, mergedDocuments values w ≠ .ok ids) ∨
      ∃ ids, mergedDocuments values w = .ok ids ∧
        (mergeDocuments values w).2 = writeAll .manualMerge .needsReview [(manualKey ids, ids)] w := by
  unfold mergeDocuments
  cases mergedDocuments values w with
  | error reply => exact .inl ⟨rfl, nofun⟩
  | ok ids => exact .inr ⟨ids, rfl, rfl⟩

theorem sound_step (call : GroupCall) (w : GroupLedger) (hw : Sound w) : Sound (groupStep call w) := by
  cases call with
  | register payload => exact hw.of_same (register_same payload w).1 (register_same payload w).2
  | detect limit =>
    exact (activeKey_writeAll .scannerBatch (by decide : GroupStatus.candidate ≠ .split) _ w hw (writable_detected limit w)).1
  | merge documentIds =>
    simp only [groupStep]
    rcases merge_cases documentIds w with ⟨heq, -⟩ | ⟨ids, hids, heq⟩
    · rw [heq]
      exact hw
    · rw [heq]
      exact (activeKey_writeAll .manualMerge (by decide : GroupStatus.needsReview ≠ .split) _ w hw
        (by simpa using writable_merged hids)).1
  | split groupId documentId =>
    simp only [groupStep]
    rcases split_cases groupId documentId w with ⟨heq, -⟩ | hremoved
    · rw [heq]
      exact hw
    · exact hremoved.sound hw

theorem wellGrouped_step (call : GroupCall) (w : GroupLedger) (hw : Sound w) (h : WellGrouped w) :
    WellGrouped (groupStep call w) ↔ Sparing call w := by
  cases call with
  | register payload => exact iff_of_true (h.of_same (register_same payload w).1 (register_same payload w).2) trivial
  | detect limit =>
    exact wellGrouped_writeAll .scannerBatch (by decide : GroupStatus.candidate ≠ .split) (writable_detected limit w) hw h
  | merge documentIds =>
    simp only [groupStep, Sparing]
    rcases merge_cases documentIds w with ⟨heq, hnone⟩ | ⟨ids, hids, heq⟩
    · rw [heq]
      exact iff_of_true h fun ids hids => absurd hids (hnone ids)
    · have hos : ∀ o ∈ [(manualKey ids, ids)], Writable o := by simpa using writable_merged hids
      rw [heq, wellGrouped_writeAll .manualMerge (by decide : GroupStatus.needsReview ≠ .split) hos hw h]
      refine ⟨fun hclaim ids' hids' => ?_, fun hclaim => hclaim ids hids⟩
      rw [hids] at hids'
      cases hids'
      exact hclaim
  | split groupId documentId =>
    simp only [groupStep, Sparing]
    rcases split_cases groupId documentId w with ⟨heq, hmember⟩ | hremoved
    · rw [heq]
      refine iff_of_true h fun g hg hprimary => ?_
      by_cases hsplit : g.status = .split
      · exact Nat.lt_of_le_of_lt (List.length_filter_le ..) (hw.closed _ g hg hsplit)
      · exact absurd (hprimary ▸ h.primary _ g hg hsplit) (hmember g hg)
    · exact hremoved.wellGrouped hw h

/-- From the empty ledger on, the memberships are right in every state of a run exactly when each group
written takes documents of no other open group and each document taken out can be spared. -/
theorem memberships_sparing (clock : ℕ → ℕ) (calls : List GroupCall) :
    (∀ w ∈ states groupStep calls { clock := clock }, WellGrouped w) ↔ Along groupStep Sparing calls { clock := clock } :=
  states_iff_along sound_step wellGrouped_step calls _ (sound_empty clock) (wellGrouped_empty clock)

/-- Three documents, the first merged with the second and then with the third. -/
def mergedTwice : List GroupCall :=
  [.register { sourceDocumentId := some "a" }, .register { sourceDocumentId := some "b" },
    .register { sourceDocumentId := some "c" }, .merge [.int 1, .int 2], .merge [.int 1, .int 3]]

/-- The first document is active in two groups. -/
theorem memberships_mergedTwice : ¬∀ w ∈ states groupStep mergedTwice { clock := id }, WellGrouped w := by
  intro h
  have hw := h _ (finish_mem_states groupStep mergedTwice { clock := id })
  have htwo : ∃ g g', (finish groupStep mergedTwice { clock := id }).groups.get 1 = some g ∧
      (finish groupStep mergedTwice { clock := id }).groups.get 2 = some g' ∧ g.status = .needsReview ∧
      g'.status = .needsReview := ⟨_, _, rfl, rfl, rfl, rfl⟩
  obtain ⟨g, g', hg, hg', hs, hs'⟩ := htwo
  have := hw.once 1 1 2 g g' hg hg' (by rw [hs]; decide) (by rw [hs']; decide) (by decide +kernel) (by decide +kernel)
  cases this

end Fab.Grouping
