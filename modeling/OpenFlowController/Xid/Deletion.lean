import OpenFlowController.Xid.Answers

/-! # Deleting an entry

The hash table and the list should hold the same entries. A delete takes its entry
out of the hash table, but the search in the list stops at the first entry that is
another one, and this is the one that is removed and freed.
-/
namespace OpenFlowController.Xid
open Memory Table Queue

/-- The entry is gone from hash and list and freed, and no other entry is. -/
structure Deleted (place : XidPointer → ℕ) (table table' : XidTable) (entry : ℕ) : Prop where
  hashed : ∀ a, lookupHashEntry (atomOps place) table'.xidHash (.entry a) =
    if a = entry then some none else lookupHashEntry (atomOps place) table.xidHash (.entry a)
  listed : table'.xidEntryList = table.xidEntryList.erase entry
  freed : table'.entries.load entry = none
  others : ∀ a, a ≠ entry → table'.entries.load a = table.entries.load a

def DeletesExactly (place : XidPointer → ℕ) (table : XidTable) (entry : ℕ) : Prop :=
  ∃ table', ccDeleteXidEntry place table entry = some (.ccENone,table') ∧ Deleted place table table' entry

/-- Hash and list hold the same entries. -/
def HoldSame (place : XidPointer → ℕ) (table : XidTable) : Prop :=
  ∀ a, a ∈ table.xidEntryList ↔ lookupHashEntry (atomOps place) table.xidHash (.entry a) = some (some a)

/-- What a delete does besides the hash: nothing, or another entry is removed and
freed in place of its own. -/
inductive DeletesOther (table table' : XidTable) (entry : ℕ) : Prop
  | nothing (listed : table'.xidEntryList = table.xidEntryList) (entries : table'.entries = table.entries)
  | other {f : ℕ} (mem : f ∈ table.xidEntryList) (ne : f ≠ entry)
    (listed : table'.xidEntryList = table.xidEntryList.erase f) (entries : table.entries.free f = some table'.entries)

section Step
variable {place : XidPointer → ℕ} {table table' : XidTable} {entry : ℕ} {entries : Heap XidEntry}

theorem compareXidEntry_ne {e : ℕ} {code : ErrorCode} (h : compareXidEntry entries e entry = some code)
    (hcode : code.value ≠ 0) : e ≠ entry := by
  rintro rfl
  simp only [compareXidEntry,Option.bind_eq_bind,Option.bind_eq_some_iff] at h
  obtain ⟨_,he,_,hf,h⟩ := h
  cases he.symm.trans hf
  simp only [ne_eq,not_true_eq_false,if_false] at h
  cases h
  exact hcode rfl

theorem compareXidEntry_live {e : ℕ} {code : ErrorCode} (h : compareXidEntry entries e entry = some code) :
    ∃ c, entries.load entry = some c := by
  simp only [compareXidEntry,Option.bind_eq_bind,Option.bind_eq_some_iff] at h
  obtain ⟨_,-,c,hc,-⟩ := h
  exact ⟨c,hc⟩

/-- The search stops at another entry, or at the end. -/
theorem findListCustom_found {list : List ℕ} {found : Option ℕ}
    (h : findListCustom (fun e => compareXidEntry entries e entry) list = some found) :
    ∀ f, found = some f → f ∈ list ∧ f ≠ entry := by
  induction list with
  | nil =>
    cases h
    exact nofun
  | cons e list ih =>
    simp only [findListCustom,Option.bind_eq_bind,Option.bind_eq_some_iff] at h
    obtain ⟨code,hcompare,h⟩ := h
    split at h
    · rename_i hcode
      cases h
      rintro f hf
      cases hf
      exact ⟨List.mem_cons_self,compareXidEntry_ne hcompare hcode⟩
    · intro f hf
      obtain ⟨hmem,hne⟩ := ih h f hf
      exact ⟨List.mem_cons_of_mem _ hmem,hne⟩

theorem findListCustom_live {list : List ℕ} {found : Option ℕ} (hne : list ≠ [])
    (h : findListCustom (fun e => compareXidEntry entries e entry) list = some found) :
    ∃ c, entries.load entry = some c := by
  obtain ⟨e,list,rfl⟩ := List.exists_cons_of_ne_nil hne
  simp only [findListCustom,Option.bind_eq_bind,Option.bind_eq_some_iff] at h
  obtain ⟨code,hcompare,-⟩ := h
  exact compareXidEntry_live hcompare

theorem deleteElement_null {list : List ℕ} (hne : list ≠ []) : deleteElement list none = some list := by
  obtain ⟨e,list,rfl⟩ := List.exists_cons_of_ne_nil hne
  rfl

theorem deleteElement_some {list : List ℕ} (hne : list ≠ []) (data : ℕ) :
    deleteElement list (some data) = some (list.erase data) := by
  obtain ⟨e,list,rfl⟩ := List.exists_cons_of_ne_nil hne
  rfl

/-- A delete that reports success reads its entry and lets it live. -/
theorem ccDeleteXidEntry_cases (h : ccDeleteXidEntry place table entry = some (.ccENone,table')) :
    (∃ c, table.entries.load entry = some c) ∧ DeletesOther table table' entry := by
  simp only [ccDeleteXidEntry,Option.bind_eq_bind,Option.bind_eq_some_iff] at h
  obtain ⟨⟨deleted,xidHash⟩,-,h⟩ := h
  cases deleted with
  | none =>
    simp only [Option.bind_eq_some_iff] at h
    obtain ⟨_,-,h⟩ := h
    cases h
  | some deleted =>
    simp only [Option.bind_eq_some_iff] at h
    obtain ⟨found,hfound,xidEntryList,hlist,entries,hfree,h⟩ := h
    cases h
    have hne : table.xidEntryList ≠ [] := by
      intro hnil
      rw [hnil] at hlist
      cases hlist
    refine ⟨findListCustom_live hne hfound,?_⟩
    cases found with
    | none =>
      obtain rfl := Option.some.inj ((deleteElement_null hne).symm.trans hlist)
      cases hfree
      exact .nothing rfl rfl
    | some f =>
      obtain rfl := Option.some.inj ((deleteElement_some hne f).symm.trans hlist)
      obtain ⟨hmem,hother⟩ := findListCustom_found hfound f rfl
      exact .other hmem hother rfl hfree

/-- No delete frees its entry. -/
theorem not_deletesExactly (place : XidPointer → ℕ) (table : XidTable) (entry : ℕ) :
    ¬ DeletesExactly place table entry := by
  rintro ⟨table',hrun,hdeleted⟩
  obtain ⟨⟨c,hc⟩,hother⟩ := ccDeleteXidEntry_cases hrun
  have hgone := hdeleted.freed
  cases hother with
  | nothing _ hentries =>
    rw [hentries,hc] at hgone
    cases hgone
  | other _ hne _ hfree =>
    obtain ⟨-,hentries⟩ := Heap.free_cases hfree
    rw [hentries,Heap.load_put_of_ne (Ne.symm hne),hc] at hgone
    cases hgone

theorem ccInsertXidEntry_cases {xidLatest xid xidLatest' : UInt32}
    (h : ccInsertXidEntry place table xidLatest = some (xid,table',xidLatest')) :
    table'.xidEntryList = table.xidEntryList++[table.entries.next] ∧ table'.entries = table.entries.alloc ⟨xid⟩ := by
  simp only [ccInsertXidEntry,Option.bind_eq_bind,Option.bind_eq_some_iff] at h
  obtain ⟨_,-,⟨_,xidHash⟩,-,h⟩ := h
  cases h
  refine ⟨?_,rfl⟩
  simp only [appendToTail]
  split
  · rename_i hnil
    rw [hnil,List.nil_append]
  · rfl

end Step

/-- An entry that is live for the hash is neither listed nor in memory, or the list is
longer than it should be. -/
def Torn (s : XidState) : Prop :=
  (∃ f ∈ s.entries, f ∉ s.table.xidEntryList ∧ s.table.entries.load f = none) ∨
    s.entries.length < s.table.xidEntryList.length

/-- Before the first delete the list is that of the live entries, and ever after it
is torn. -/
structure ListInvariant (s : XidState) (deleted : Bool) : Prop where
  entries : s.entries.Nodup
  listed : s.table.xidEntryList.Nodup
  allocated : ∀ a ∈ s.table.xidEntryList, a < s.table.entries.next
  whole : deleted = false → s.table.xidEntryList.Perm s.entries
  torn : deleted = true → Torn s

def XidCall.isDelete : XidCall → Bool
  | .delete _ => true
  | _ => false

section Runs
variable {place : XidPointer → ℕ} {s s' : XidState} {deleted : Bool} {entry : ℕ}

theorem initialState_listInvariant (xidLatest : UInt32) : ListInvariant (initialState xidLatest) false where
  entries := List.nodup_nil
  listed := List.nodup_nil
  allocated := nofun
  whole _ := List.Perm.nil
  torn := nofun

theorem ListInvariant.insert (hl : ListInvariant s deleted) (hi : XidInvariant place s)
    (hs : XidCall.run place s .insert = some s') : ListInvariant s' deleted := by
  simp only [XidCall.run,Option.bind_eq_bind,Option.bind_eq_some_iff] at hs
  obtain ⟨⟨xid,table,xidLatest⟩,hinsert,hs⟩ := hs
  cases hs
  obtain ⟨hlist,hentries⟩ := ccInsertXidEntry_cases hinsert
  have hnewEntry : s.table.entries.next ∉ s.entries := fun hmem => Nat.lt_irrefl _ (hi.allocated _ hmem)
  have hnewList : s.table.entries.next ∉ s.table.xidEntryList := fun hmem => Nat.lt_irrefl _ (hl.allocated _ hmem)
  constructor
  · exact List.nodup_cons.mpr ⟨hnewEntry,hl.entries⟩
  · rw [hlist]
    exact (List.perm_append_singleton _ _).nodup_iff.mpr (List.nodup_cons.mpr ⟨hnewList,hl.listed⟩)
  · intro a ha
    rw [hlist] at ha
    rw [hentries]
    rcases List.mem_append.mp ha with ha | ha
    · exact Nat.lt_succ_of_lt (hl.allocated a ha)
    · rw [List.mem_singleton.mp ha]
      exact Nat.lt_succ_self _
  · intro hd
    rw [hlist]
    exact (List.perm_append_singleton _ _).trans ((hl.whole hd).cons _)
  · intro hd
    rcases hl.torn hd with ⟨f,hmem,hunlisted,hfreed⟩ | hlonger
    · have hne : f ≠ s.table.entries.next := Nat.ne_of_lt (hi.allocated f hmem)
      refine Or.inl ⟨f,List.mem_cons_of_mem _ hmem,?_,?_⟩
      · rw [hlist]
        simpa [hne] using hunlisted
      · rw [hentries,Heap.load_alloc_of_ne _ _ hne]
        exact hfreed
    · right
      rw [hlist]
      simpa [XidState.entries] using hlonger

/-- A live entry is found in the hash, so its delete reports success. -/
theorem XidInvariant.delete_cases (hi : XidInvariant place s) (hs : XidCall.run place s (.delete entry) = some s') :
    entry ∈ s.entries ∧ (∃ c, s.table.entries.load entry = some c) ∧ DeletesOther s.table s'.table entry ∧
      s'.entries = s.entries.filter (fun a => a ≠ entry) := by
  have hlive := (hi.delete hs).2
  simp only [XidCall.run] at hs
  split at hs
  · rename_i hmem
    simp only [Option.bind_eq_bind,Option.bind_eq_some_iff] at hs
    obtain ⟨⟨code,table⟩,hdelete,hs⟩ := hs
    obtain ⟨bs,ht,hentry,-⟩ := hi.hashed
    obtain ⟨xidHash,-,hhash,-⟩ := ht.deleteHashEntry_spec (.entry entry)
    rw [hentry,if_pos hmem] at hhash
    have hcode : code = .ccENone := by
      simp only [ccDeleteXidEntry,hhash,Option.join_some,Option.bind_eq_bind,Option.bind_some,
        Option.bind_eq_some_iff] at hdelete
      obtain ⟨_,-,_,-,_,-,hdelete⟩ := hdelete
      cases hdelete
      rfl
    subst hcode
    cases hs
    obtain ⟨hload,hother⟩ := ccDeleteXidEntry_cases hdelete
    refine ⟨hmem,hload,hother,?_⟩
    rw [XidState.entries,hlive,XidState.entries,List.filter_map]
    rfl
  · cases hs

theorem length_filter_ne {l : List ℕ} (hd : l.Nodup) {a : ℕ} (ha : a ∈ l) :
    (l.filter (fun b => b ≠ a)).length+1 = l.length := by
  have herase : l.filter (fun b => b ≠ a) = l.erase a := by
    rw [hd.erase_eq_filter]
    exact List.filter_congr (fun b _ => by by_cases hb : b = a <;> simp [hb])
  rw [herase]
  exact List.length_erase_add_one ha

theorem DeletesOther.subset {table table' : XidTable} (h : DeletesOther table table' entry) {a : ℕ}
    (ha : a ∈ table'.xidEntryList) : a ∈ table.xidEntryList := by
  cases h with
  | nothing hlist _ => exact hlist ▸ ha
  | other _ _ hlist _ => exact List.mem_of_mem_erase (hlist ▸ ha)

theorem DeletesOther.next {table table' : XidTable} (h : DeletesOther table table' entry) :
    table'.entries.next = table.entries.next := by
  cases h with
  | nothing _ hentries => rw [hentries]
  | other _ _ _ hfree => exact Heap.next_of_free hfree

theorem DeletesOther.nodup {table table' : XidTable} (h : DeletesOther table table' entry)
    (hd : table.xidEntryList.Nodup) : table'.xidEntryList.Nodup := by
  cases h with
  | nothing hlist _ => exact hlist ▸ hd
  | other _ _ hlist _ => exact hlist ▸ hd.erase _

/-- What was freed stays so. -/
theorem DeletesOther.load_none {table table' : XidTable} (h : DeletesOther table table' entry) {a : ℕ}
    (ha : table.entries.load a = none) : table'.entries.load a = none := by
  cases h with
  | nothing _ hentries => rw [hentries,ha]
  | other _ _ _ hfree =>
    obtain ⟨⟨b,hb⟩,hput⟩ := Heap.free_cases hfree
    rw [hput,Heap.load_put hb]
    split
    · rfl
    · exact ha

/-- The first delete: either the list keeps one entry too many, or it has lost one that
is live. -/
theorem DeletesOther.tears (h : DeletesOther s.table s'.table entry) (hl : ListInvariant s false) (hmem : entry ∈ s.entries)
    (hentries : s'.entries = s.entries.filter (fun a => a ≠ entry)) : Torn s' := by
  have hperm := hl.whole rfl
  have hlength := length_filter_ne hl.entries hmem
  unfold Torn
  rw [hentries]
  cases h with
  | nothing hlist _ =>
    right
    rw [hlist,hperm.length_eq]
    omega
  | @other f hf hne hlist hfree =>
    left
    obtain ⟨⟨b,hb⟩,hput⟩ := Heap.free_cases hfree
    refine ⟨f,List.mem_filter.mpr ⟨hperm.mem_iff.mp hf,by simpa using hne⟩,?_,?_⟩
    · rw [hlist]
      exact hl.listed.not_mem_erase
    · rw [hput,Heap.load_put_self hb]

/-- A later delete takes at most one entry off the list, and one off the hash. -/
theorem Torn.delete (ht : Torn s) (h : DeletesOther s.table s'.table entry) (hl : ListInvariant s deleted)
    (hmem : entry ∈ s.entries) (hload : ∃ c, s.table.entries.load entry = some c)
    (hentries : s'.entries = s.entries.filter (fun a => a ≠ entry)) : Torn s' := by
  have hlength := length_filter_ne hl.entries hmem
  unfold Torn
  rw [hentries]
  rcases ht with ⟨f,hf,hunlisted,hfreed⟩ | hlonger
  · -- the entry that is read cannot be one that was freed
    have hne : f ≠ entry := by
      rintro rfl
      obtain ⟨c,hc⟩ := hload
      cases hc.symm.trans hfreed
    exact Or.inl ⟨f,List.mem_filter.mpr ⟨hf,by simpa using hne⟩,fun ha => hunlisted (h.subset ha),h.load_none hfreed⟩
  · right
    cases h with
    | nothing hlist _ =>
      rw [hlist]
      omega
    | @other g hg _ hlist _ =>
      have hshort := List.length_erase_add_one hg
      rw [hlist]
      omega

/-- Step lemma: the first delete tears the list from the hash, and no later one mends it. -/
theorem ListInvariant.delete (hl : ListInvariant s deleted) (hi : XidInvariant place s)
    (hs : XidCall.run place s (.delete entry) = some s') : ListInvariant s' true := by
  obtain ⟨hmem,hload,hother,hentries⟩ := hi.delete_cases hs
  constructor
  · rw [hentries]
    exact hl.entries.filter _
  · exact hother.nodup hl.listed
  · intro a ha
    rw [hother.next]
    exact hl.allocated a (hother.subset ha)
  · exact nofun
  · intro _
    cases deleted with
    | false => exact hother.tears hl hmem hentries
    | true => exact (hl.torn rfl).delete hother hl hmem hload hentries

/-- Run lemma: the list is torn as soon as a delete was called. -/
theorem ListInvariant.after (hl : ListInvariant s deleted) (hi : XidInvariant place s) {calls : List XidCall}
    (hs : s.after place calls = some s') : ListInvariant s' (deleted || calls.any XidCall.isDelete) := by
  induction calls generalizing s deleted with
  | nil =>
    cases hs
    simpa using hl
  | cons call calls ih =>
    simp only [XidState.after,Option.bind_eq_bind,Option.bind_eq_some_iff] at hs
    obtain ⟨s₁,hcall,hs⟩ := hs
    have hone : s.after place [call] = some s₁ := by
      rw [XidState.after,hcall]
      rfl
    have hi₁ : XidInvariant place s₁ := hi.after hone
    cases call with
    | insert => simpa [XidCall.isDelete] using ih (hl.insert hi hcall) hi₁ hs
    | delete entry => simpa [XidCall.isDelete] using ih (hl.delete hi hcall) hi₁ hs
    | assign value =>
      cases hcall
      exact ih (s := { s with xidLatest := value }) ⟨hl.entries,hl.listed,hl.allocated,hl.whole,hl.torn⟩ hi₁ hs

theorem XidInvariant.holdSame_iff (hi : XidInvariant place s) :
    HoldSame place s.table ↔ ∀ a, a ∈ s.table.xidEntryList ↔ a ∈ s.entries := by
  obtain ⟨bs,ht,hentry,-⟩ := hi.hashed
  refine forall_congr' (fun a => iff_congr Iff.rfl ?_)
  rw [ht.lookupHashEntry_eq,hentry]
  split <;> simp_all

theorem Torn.not_same (ht : Torn s) (hl : ListInvariant s deleted) :
    ¬ ∀ a, a ∈ s.table.xidEntryList ↔ a ∈ s.entries := by
  intro hsame
  rcases ht with ⟨f,hf,hunlisted,-⟩ | hlonger
  · exact hunlisted ((hsame f).mpr hf)
  · have hle := (List.subperm_of_subset hl.listed (fun a ha => (hsame a).mp ha)).length_le
    omega

end Runs

/-- No delete of a live entry does what it should, and after a run hash and list hold the
same entries exactly if nothing was deleted. -/
theorem initialState_deletes_iff (place : XidPointer → ℕ) (xidLatest : UInt32) (calls : List XidCall) {s : XidState}
    (hs : (initialState xidLatest).after place calls = some s) :
    (∀ entry ∈ s.entries, ¬ DeletesExactly place s.table entry) ∧
      (HoldSame place s.table ↔ calls.any XidCall.isDelete = false) := by
  refine ⟨fun entry _ => not_deletesExactly place s.table entry,?_⟩
  have hi : XidInvariant place s := (initialState_invariant xidLatest).after hs
  have hl := (initialState_listInvariant xidLatest).after (initialState_invariant xidLatest) hs
  rw [Bool.false_or] at hl
  rw [hi.holdSame_iff]
  cases hdeleted : calls.any XidCall.isDelete with
  | false => exact iff_of_true (fun a => (hl.whole hdeleted).mem_iff) rfl
  | true => exact iff_of_false ((hl.torn hdeleted).not_same hl) (by simp)

theorem initialState_deletes_iff_insert : ∃ s, (initialState 0).after alignedPlace [.insert] = some s ∧
    (∀ entry ∈ s.entries, ¬ DeletesExactly alignedPlace s.table entry) ∧
      (HoldSame alignedPlace s.table ↔ [XidCall.insert].any XidCall.isDelete = false) := by
  obtain ⟨s,hs,-,-⟩ := exists_after_insert alignedPlace
  exact ⟨s,hs,initialState_deletes_iff alignedPlace 0 [.insert] hs⟩

/-- The delete of the only entry reports success, and the list still has it. -/
theorem onlyEntry_not_deleted : ∃ s table', (initialState 0).after alignedPlace [.insert] = some s ∧ 0 ∈ s.entries ∧
    ccDeleteXidEntry alignedPlace s.table 0 = some (.ccENone,table') ∧ table'.xidEntryList = [0] ∧
    ¬ DeletesExactly alignedPlace s.table 0 := by
  obtain ⟨s,hs,hlive,hi⟩ := exists_after_insert alignedPlace
  have hmem : 0 ∈ s.entries := by simp [XidState.entries,hlive]
  have hinsert : XidCall.run alignedPlace (initialState 0) .insert = some s := by
    rw [← hs,XidState.after]
    cases XidCall.run alignedPlace (initialState 0) .insert <;> rfl
  simp only [XidCall.run,Option.bind_eq_bind,Option.bind_eq_some_iff] at hinsert
  obtain ⟨⟨xid,table,xidLatest⟩,hinsert,hstate⟩ := hinsert
  cases hstate
  obtain ⟨hlist,hentries⟩ := ccInsertXidEntry_cases hinsert
  have hlist : table.xidEntryList = [0] := hlist
  have hload : table.entries.load 0 = some ⟨xid⟩ := by
    rw [hentries]
    exact Heap.load_alloc_next _ _
  obtain ⟨bs,ht,hentry,-⟩ := hi.hashed
  obtain ⟨xidHash,-,hhash,-⟩ := ht.deleteHashEntry_spec (.entry 0)
  rw [hentry,if_pos hmem] at hhash
  refine ⟨_,⟨xidHash,[0],table.entries⟩,hs,hmem,?_,rfl,not_deletesExactly _ _ _⟩
  simp only [ccDeleteXidEntry,hhash,Option.join_some,Option.bind_eq_bind,Option.bind_some,hlist,findListCustom,
    compareXidEntry,hload,ne_eq,not_true_eq_false,if_false]
  rfl

end OpenFlowController.Xid
