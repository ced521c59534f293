import OpenFlowController.Lists.Sequences
import OpenFlowController.Table.TableDeletion
import OpenFlowController.Xid.Deletion

/-! # The memory of the xid table

The list of entries as it lies in memory, under the three operations that change a table
and the one that ends it. An insert allocates an element before it looks at the list,
and uses it for an empty list only. A delete confuses which entry is freed, but frees
what it takes off the list; so the list still tells what is left to free.
-/
namespace OpenFlowController.Xid
open Memory Memory.Heap Table Queue

/-- A data pointer of the list is never NULL; what a new element holds is. -/
structure XidMemory where
  xidHash : HashTable XidPointer ℕ defaultHashSize
  xidEntryList : Lists.SingleList (Option ℕ)
  entries : Heap XidEntry

/-- The same table with a list of addresses. -/
def XidMemory.table (memory : XidMemory) (listed : List ℕ) : XidTable := ⟨memory.xidHash,listed,memory.entries⟩

def appendEntry (list : Lists.SingleList (Option ℕ)) (newEntry : ℕ) : Option (Lists.SingleList (Option ℕ)) :=
  match list.head with
  | none => some ⟨some list.elements.next,list.elements.alloc ⟨none,some newEntry⟩⟩
  | some _ => do
    let (_,list) ← Lists.appendToTail { list with elements := list.elements.alloc ⟨none,none⟩ } (some newEntry)
    return list

/-- The search of a delete: `compare_xid_entry` follows both pointers. -/
def findOther (entries : Heap XidEntry) (list : Lists.SingleList (Option ℕ)) (deleteEntry : ℕ) : Option (Option ℕ) := do
  let found ← Lists.findListCustom list (fun data => do
    let code ← compareXidEntry entries (← data) deleteEntry
    return UInt32.ofInt code.value)
  return found.join

structure MemoryState where
  memory : XidMemory
  xidLatest : UInt32
  live : List (ℕ × UInt32)

variable (place : XidPointer → ℕ)

/-- The new entry is at an address that was never used before. -/
def insertIntoMemory (memory : XidMemory) (xidLatest : UInt32) : Option (UInt32 × XidMemory × UInt32) := do
  let xid ← ccGenerateXid place (memory.table []) xidLatest
  let newEntry := memory.entries.next
  let entries := memory.entries.alloc ⟨xid⟩
  let xidEntryList ← appendEntry memory.xidEntryList newEntry
  let (_,xidHash) ← insertHashEntry (atomOps place) memory.xidHash (.entry newEntry) (some newEntry)
  return (xid,⟨xidHash,xidEntryList,entries⟩,xid)

def deleteFromMemory (memory : XidMemory) (deleteEntry : ℕ) : Option (ErrorCode × XidMemory) := do
  let (deleted,xidHash) ← deleteHashEntry (atomOps place) memory.xidHash (.entry deleteEntry)
  match deleted with
  | none => do
    let entries ← ccFreeXidEntry memory.entries (some deleteEntry)
    return (.ccEErr,{ memory with xidHash, entries })
  | some _ => do
    let found ← findOther memory.entries memory.xidEntryList deleteEntry
    let (_,xidEntryList) ← Lists.deleteElement memory.xidEntryList found
    let entries ← ccFreeXidEntry memory.entries found
    return (.ccENone,⟨xidHash,xidEntryList,entries⟩)

/-- What is left allocated. -/
structure Remains where
  entries : Heap XidEntry
  hashElements : Heap (DlistElement (TableData defaultHashSize))
  hashEntries : Heap (HashEntry XidPointer ℕ)
  listElements : Heap (Lists.ListElement (Option ℕ))

/-- `cc_free_xid_entry_` frees what `data` points to. -/
def ccFinalizeXidTable (memory : XidMemory) : Option Remains := do
  let entries ← Lists.iterateList memory.xidEntryList (fun data entries => ccFreeXidEntry entries data) memory.entries
  let (hashElements,hashEntries) ← deleteHash memory.xidHash
  let listElements ← Lists.deleteList memory.xidEntryList
  return ⟨entries,hashElements,hashEntries,listElements⟩

def initialMemory (xidLatest : UInt32) : MemoryState :=
  ⟨⟨createHashWithSize XidPointer ℕ defaultHashSize,⟨none,Heap.empty⟩,Heap.empty⟩,xidLatest,[]⟩

def runInMemory (state : MemoryState) : XidCall → Option MemoryState
  | .insert => do
    let (xid,memory,xidLatest) ← insertIntoMemory place state.memory state.xidLatest
    return ⟨memory,xidLatest,(state.memory.entries.next,xid) :: state.live⟩
  | .delete entry => do
    if entry ∈ state.live.map Prod.fst then
      let (_,memory) ← deleteFromMemory place state.memory entry
      return { state with memory, live := state.live.filter (fun e => e.1 ≠ entry) }
    else none
  | .assign value => some { state with xidLatest := value }

/-- The element that an insert into a list with entries leaves behind. -/
def lostBy (list : Lists.SingleList (Option ℕ)) : XidCall → ℕ
  | .insert => if list.head = none then 0 else 1
  | _ => 0

/-- The state after a run, and how many list elements nothing leads to any more. -/
def runAllInMemory (state : MemoryState) (lost : ℕ) : List XidCall → Option (MemoryState × ℕ)
  | [] => some (state,lost)
  | call :: calls => do
    let next ← runInMemory place state call
    runAllInMemory next (lost+lostBy state.memory.xidEntryList call) calls

/-! ## The list of addresses -/

def MemoryState.state (m : MemoryState) (listed : List ℕ) : XidState := ⟨m.memory.table listed,m.xidLatest,m.live⟩

section List
variable {list : Lists.SingleList (Option ℕ)} {listed : List ℕ} {lost : ℕ} {entries : Heap XidEntry}

theorem appendEntry_spec (h : Lists.Represents list ⟨listed.map some,lost⟩) (newEntry : ℕ) :
    ∃ list', appendEntry list newEntry = some list' ∧ Lists.Represents list'
      ⟨(listed++[newEntry]).map some,lost+lostBy list .insert⟩ := by
  rw [List.map_append,appendEntry,lostBy]
  cases hhead : list.head with
  | none =>
    have hempty : listed.map some = [] := h.contents_nil hhead
    have hfront := h.call (.insertInFront (some newEntry))
    obtain ⟨list',hrun,h'⟩ := hfront
    rw [Lists.runSequenceCall,Option.some.injEq] at hrun
    cases hrun
    refine ⟨_,rfl,?_⟩
    simp only [hhead,hempty] at h'
    rw [hempty]
    exact h'
  | some head =>
    obtain ⟨list',hrun,h'⟩ := (h.allocated ⟨none,none⟩).call (.appendToTail (some newEntry))
    rw [hhead] at hrun
    refine ⟨list',?_,h'⟩
    rw [Lists.runSequenceCall] at hrun
    simp only [hrun,Option.bind_eq_bind,Option.bind_some]
    rfl

/-- The answer of `compare_xid_entry` is not 0 for `CC_E_ERR` alone. -/
theorem searchFirst_map_some (deleteEntry : ℕ) : Lists.searchFirst (fun data => do
      let code ← compareXidEntry entries (← data) deleteEntry
      return UInt32.ofInt code.value) (listed.map some) =
    (findListCustom (fun e => compareXidEntry entries e deleteEntry) listed).map (Option.map some) := by
  induction listed with
  | nil => rfl
  | cons e listed ih =>
    rw [List.map_cons,Lists.searchFirst,ih,findListCustom]
    simp only [Option.bind_eq_bind,Option.bind_some]
    cases compareXidEntry entries e deleteEntry with
    | none => rfl
    | some code => cases code <;> rfl

theorem findOther_eq (h : Lists.Represents list ⟨listed.map some,lost⟩) (deleteEntry : ℕ) :
    findOther entries list deleteEntry = findListCustom (fun e => compareXidEntry entries e deleteEntry) listed := by
  rw [findOther,h.shows.find,searchFirst_map_some]
  cases findListCustom (fun e => compareXidEntry entries e deleteEntry) listed with
  | none => rfl
  | some found => cases found <;> rfl

theorem deleteElement_listed (h : Lists.Represents list ⟨listed.map some,lost⟩) {found : Option ℕ} {ret : ErrorCode}
    {list' : Lists.SingleList (Option ℕ)} (hrun : Lists.deleteElement list found = some (ret,list')) :
    ∃ listed', deleteElement listed found = some listed' ∧ Lists.Represents list' ⟨listed'.map some,lost⟩ := by
  have hcall := h.call (.deleteElement found)
  rw [Lists.sequenceStep,Lists.runSequenceCall,hrun] at hcall
  by_cases hempty : listed = []
  · rw [if_pos (by rw [hempty,List.map_nil])] at hcall
    cases hcall
  · rw [if_neg (by simpa using hempty)] at hcall
    cases found with
    | none =>
      rw [if_neg (by simp)] at hcall
      obtain ⟨_,hsame,h'⟩ := hcall
      cases hsame
      exact ⟨listed,deleteElement_null hempty,h'⟩
    | some data =>
      refine ⟨_,deleteElement_some hempty data,?_⟩
      by_cases hmem : data ∈ listed
      · rw [if_pos (List.mem_map_of_mem hmem)] at hcall
        obtain ⟨_,hsame,h'⟩ := hcall
        cases hsame
        rw [List.map_erase (Option.some_injective ℕ)]
        convert h'
      · rw [if_neg (by simpa using hmem)] at hcall
        obtain ⟨_,hsame,h'⟩ := hcall
        cases hsame
        rwa [List.erase_of_not_mem hmem]

end List

section Runs
variable {place : XidPointer → ℕ} {m m' : MemoryState} {s s' : XidState} {listed : List ℕ} {lost lost' : ℕ}

/-- Step lemma: a call that comes back does to the table in memory what it does to the one
with a list of addresses. -/
theorem runInMemory_mirrors (h : Lists.Represents m.memory.xidEntryList ⟨listed.map some,lost⟩) {call : XidCall}
    (hrun : runInMemory place m call = some m') :
    ∃ listed', XidCall.run place (m.state listed) call = some (m'.state listed') ∧
      Lists.Represents m'.memory.xidEntryList ⟨listed'.map some,lost+lostBy m.memory.xidEntryList call⟩ := by
  cases call with
  | insert =>
    obtain ⟨list',happend,h'⟩ := appendEntry_spec h m.memory.entries.next
    simp only [runInMemory,insertIntoMemory,happend,Option.bind_eq_bind,Option.bind_some,Option.bind_eq_some_iff] at hrun
    obtain ⟨_,⟨xid,hxid,⟨_,xidHash⟩,hhash,hinsert⟩,hrun⟩ := hrun
    cases hinsert
    cases hrun
    refine ⟨listed++[m.memory.entries.next],?_,h'⟩
    have hxid' : ccGenerateXid place (m.memory.table listed) m.xidLatest = some xid := hxid
    simp only [XidCall.run,MemoryState.state,ccInsertXidEntry,hxid',Option.bind_eq_bind,Option.bind_some]
    have hhash' : insertHashEntry (atomOps place) (m.memory.table listed).xidHash
        (.entry (m.memory.table listed).entries.next) (some (m.memory.table listed).entries.next) = some (_,xidHash) := hhash
    rw [hhash']
    cases listed with
    | nil => rfl
    | cons a listed => rfl
  | delete entry =>
    rw [runInMemory] at hrun
    split at hrun
    · rename_i hlive
      simp only [deleteFromMemory,Option.bind_eq_bind,Option.bind_eq_some_iff] at hrun
      obtain ⟨⟨code,memory⟩,⟨⟨deleted,xidHash⟩,hhash,hdelete⟩,hrun⟩ := hrun
      cases hrun
      have hhash' : deleteHashEntry (atomOps place) (m.memory.table listed).xidHash (.entry entry) =
        some (deleted,xidHash) := hhash
      have hlive' : entry ∈ (m.state listed).entries := hlive
      rw [XidCall.run,if_pos hlive']
      simp only [MemoryState.state,ccDeleteXidEntry,hhash',Option.bind_eq_bind,Option.bind_some]
      cases deleted with
      | none =>
        simp only [Option.bind_eq_some_iff] at hdelete
        obtain ⟨entries,hfree,hdelete⟩ := hdelete
        cases hdelete
        refine ⟨listed,?_,h⟩
        have hfree' : ccFreeXidEntry (m.memory.table listed).entries (some entry) = some entries := hfree
        rw [hfree']
        rfl
      | some deleted =>
        simp only [Option.bind_eq_some_iff,findOther_eq h] at hdelete
        obtain ⟨found,hfound,⟨_,list'⟩,hlist,entries,hfree,hdelete⟩ := hdelete
        cases hdelete
        obtain ⟨listed',hlisted,h'⟩ := deleteElement_listed h hlist
        refine ⟨listed',?_,h'⟩
        have hfound' : findListCustom (fun e => compareXidEntry (m.memory.table listed).entries e entry)
          (m.memory.table listed).xidEntryList = some found := hfound
        have hlisted' : deleteElement (m.memory.table listed).xidEntryList found = some listed' := hlisted
        have hfree' : ccFreeXidEntry (m.memory.table listed).entries found = some entries := hfree
        simp only [hfound',hlisted',hfree',Option.bind_some]
        rfl
    · cases hrun
  | assign value =>
    cases hrun
    exact ⟨listed,rfl,h⟩

/-- Run lemma. -/
theorem runAllInMemory_mirrors (h : Lists.Represents m.memory.xidEntryList ⟨listed.map some,lost⟩) {calls : List XidCall}
    (hrun : runAllInMemory place m lost calls = some (m',lost')) :
    ∃ listed', (m.state listed).after place calls = some (m'.state listed') ∧
      Lists.Represents m'.memory.xidEntryList ⟨listed'.map some,lost'⟩ := by
  induction calls generalizing m listed lost with
  | nil =>
    cases hrun
    exact ⟨listed,rfl,h⟩
  | cons call calls ih =>
    rw [runAllInMemory,Option.bind_eq_bind,Option.bind_eq_some_iff] at hrun
    obtain ⟨next,hcall,hrun⟩ := hrun
    obtain ⟨listed₁,hstep,h₁⟩ := runInMemory_mirrors h hcall
    obtain ⟨listed',hafter,h'⟩ := ih h₁ hrun
    refine ⟨listed',?_,h'⟩
    rw [XidState.after,hstep]
    exact hafter

/-! ## Finalizing -/

/-- The hash table has allocated what its history asks for, and the listed entries are
those in memory. -/
structure Accounted (place : XidPointer → ℕ) (s : XidState) : Prop where
  hashed : ∃ past, Follows (atomOps place) s.table.xidHash past ∧ Accounts (atomOps place) s.table.xidHash past
  nodup : s.table.xidEntryList.Nodup
  listed : ∀ a, a ∈ s.table.xidEntryList ↔ a ∈ s.table.entries.live

theorem Accounted.hashed_after (ha : Accounted place s) {call : TableCall XidPointer ℕ} {result : Option ℕ}
    {xidHash : HashTable XidPointer ℕ defaultHashSize}
    (hcall : call.run (atomOps place) s.table.xidHash = some (result,xidHash)) :
    ∃ past, Follows (atomOps place) xidHash past ∧ Accounts (atomOps place) xidHash past := by
  obtain ⟨past,hf,hacc⟩ := ha.hashed
  obtain ⟨table,hstep,hf'⟩ := hf.step call
  obtain ⟨-,rfl⟩ := Prod.mk.inj (Option.some.inj (hcall.symm.trans hstep))
  exact ⟨_,hf',hf.call_accounts hacc call hcall⟩

theorem Accounted.insert (ha : Accounted place s) (hs : XidCall.run place s .insert = some s') : Accounted place s' := by
  simp only [XidCall.run,Option.bind_eq_bind,Option.bind_eq_some_iff] at hs
  obtain ⟨⟨xid,table,xidLatest⟩,hinsert,hs⟩ := hs
  cases hs
  obtain ⟨hlist,hentries⟩ := ccInsertXidEntry_cases hinsert
  have hnew : s.table.entries.next ∉ s.table.xidEntryList := fun hmem =>
    next_notMem_live _ ((ha.listed _).mp hmem)
  refine ⟨?_,?_,fun a => ?_⟩
  · simp only [ccInsertXidEntry,Option.bind_eq_bind,Option.bind_eq_some_iff] at hinsert
    obtain ⟨_,-,⟨_,xidHash⟩,hhash,hinsert⟩ := hinsert
    cases hinsert
    exact @Accounted.hashed_after place s ha (.insert _ _) _ _ hhash
  · rw [hlist]
    exact (List.perm_append_singleton _ _).nodup_iff.mpr (List.nodup_cons.mpr ⟨hnew,ha.nodup⟩)
  · rw [hlist,hentries,live_alloc,Finset.mem_insert,← ha.listed,List.mem_append,List.mem_singleton,or_comm]

/-- A delete frees what it takes off the list, whichever entry that is. -/
theorem Accounted.delete (ha : Accounted place s) (hi : XidInvariant place s) {entry : ℕ}
    (hs : XidCall.run place s (.delete entry) = some s') : Accounted place s' := by
  obtain ⟨hlive,-,hother,-⟩ := hi.delete_cases hs
  refine ⟨?_,hother.nodup ha.nodup,fun a => ?_⟩
  · rw [XidCall.run,if_pos hlive,Option.bind_eq_bind,Option.bind_eq_some_iff] at hs
    obtain ⟨⟨code,table⟩,hdelete,hs⟩ := hs
    cases hs
    simp only [ccDeleteXidEntry,Option.bind_eq_bind,Option.bind_eq_some_iff] at hdelete
    obtain ⟨⟨deleted,xidHash⟩,hhash,hdelete⟩ := hdelete
    have hafter := @Accounted.hashed_after place s ha (.delete _) _ _ hhash
    cases deleted with
    | none =>
      obtain ⟨_,-,hdelete⟩ := Option.bind_eq_some_iff.mp hdelete
      cases hdelete
      exact hafter
    | some deleted =>
      simp only [Option.bind_eq_some_iff] at hdelete
      obtain ⟨_,-,_,-,_,-,hdelete⟩ := hdelete
      cases hdelete
      exact hafter
  · cases hother with
    | nothing hlist hentries => rw [hlist,hentries,ha.listed]
    | other _ _ hlist hfree =>
      rw [hlist,live_of_free hfree,Finset.mem_erase,← ha.listed,ha.nodup.mem_erase_iff]

/-- Step lemma. -/
theorem Accounted.call (ha : Accounted place s) (hi : XidInvariant place s) {call : XidCall}
    (hs : call.run place s = some s') : Accounted place s' ∧ XidInvariant place s' := by
  cases call with
  | insert =>
    obtain ⟨table,hrun,hi'⟩ := hi.insert
    cases hrun.symm.trans hs
    exact ⟨ha.insert hs,hi'⟩
  | delete entry => exact ⟨ha.delete hi hs,(hi.delete hs).1⟩
  | assign value =>
    cases hs
    exact ⟨⟨ha.hashed,ha.nodup,ha.listed⟩,hi.assign value⟩

/-- Run lemma. -/
theorem Accounted.after (ha : Accounted place s) (hi : XidInvariant place s) {calls : List XidCall}
    (hs : s.after place calls = some s') : Accounted place s' := by
  induction calls generalizing s with
  | nil =>
    cases hs
    exact ha
  | cons call calls ih =>
    rw [XidState.after,Option.bind_eq_bind,Option.bind_eq_some_iff] at hs
    obtain ⟨s₁,hcall,hs⟩ := hs
    obtain ⟨ha₁,hi₁⟩ := ha.call hi hcall
    exact ih ha₁ hi₁ hs

theorem initialState_accounted (place : XidPointer → ℕ) (xidLatest : UInt32) : Accounted place (initialState xidLatest) where
  hashed := ⟨[],createHashWithSize_follows _ _,createHashWithSize_accounts _ _⟩
  nodup := List.nodup_nil
  listed a := by simp [initialState,ccInitXidTable]

/-- Each listed entry is there to be freed when its turn comes, and then none is left. -/
theorem freeListed {entries : Heap XidEntry} (hd : listed.Nodup) (hl : ∀ a, a ∈ listed ↔ a ∈ entries.live) :
    ∃ entries', (listed.map some).foldlM ccFreeXidEntry entries = some entries' ∧ entries'.live = ∅ := by
  induction listed generalizing entries with
  | nil =>
    refine ⟨entries,rfl,Finset.eq_empty_of_forall_notMem fun a ha => ?_⟩
    exact List.not_mem_nil ((hl a).mpr ha)
  | cons p rest ih =>
    obtain ⟨hp,hd⟩ := List.nodup_cons.mp hd
    obtain ⟨c,hc⟩ := mem_live.mp ((hl p).mp List.mem_cons_self)
    have hfree := free_eq hc
    obtain ⟨entries',hrun,hempty⟩ := @ih (entries.put p none) hd (fun a => by
      rw [live_of_free hfree,Finset.mem_erase,← hl,List.mem_cons]
      constructor
      · exact fun ha => ⟨fun h => hp (h ▸ ha),.inr ha⟩
      · exact fun ha => ha.2.resolve_left ha.1)
    refine ⟨entries',?_,hempty⟩
    rw [List.map_cons,List.foldlM_cons,ccFreeXidEntry,hfree]
    exact hrun

theorem Accounted.finalizes (ha : Accounted place (m.state listed))
    (h : Lists.Represents m.memory.xidEntryList ⟨listed.map some,lost⟩) :
    ∃ remains, ccFinalizeXidTable m.memory = some remains ∧ remains.entries.live = ∅ ∧ remains.hashElements.live = ∅ ∧
      remains.hashEntries.live = ∅ ∧ remains.listElements.live.card = lost := by
  obtain ⟨past,hf,hacc⟩ := ha.hashed
  obtain ⟨entries,hfreed,hentries⟩ := @freeListed listed m.memory.entries ha.nodup ha.listed
  obtain ⟨hashElements,hashEntries,hhash,helements,hempty⟩ := hf.deleteHash_spec (hf.memoryInUse hacc)
  obtain ⟨listElements,hlist,hlost⟩ := h.shows.delete
  refine ⟨⟨entries,hashElements,hashEntries,listElements⟩,?_,hentries,helements,hempty,hlost⟩
  have hhash' : deleteHash m.memory.xidHash = some (hashElements,hashEntries) := hhash
  rw [ccFinalizeXidTable,h.shows.iterate]
  simp only [hfreed,hhash',hlist,Option.bind_eq_bind,Option.bind_some]
  rfl

end Runs

/-- Though deletes free entries that are not theirs, a table can be finalized after any run
that comes back: nothing is freed twice, and of entries, hash table and list only the elements
stay behind that inserts allocated for a list with entries. -/
theorem initialMemory_finalizes (place : XidPointer → ℕ) (xidLatest : UInt32) (calls : List XidCall) {m : MemoryState}
    {lost : ℕ} (hrun : runAllInMemory place (initialMemory xidLatest) 0 calls = some (m,lost)) :
    ∃ remains, ccFinalizeXidTable m.memory = some remains ∧ remains.entries.live = ∅ ∧ remains.hashElements.live = ∅ ∧
      remains.hashEntries.live = ∅ ∧ remains.listElements.live.card = lost := by
  have hempty : Lists.Represents (initialMemory xidLatest).memory.xidEntryList ⟨([] : List ℕ).map some,0⟩ :=
    ⟨⟨[],⟨[],rfl,rfl⟩,rfl⟩,rfl⟩
  obtain ⟨listed,hafter,h⟩ := runAllInMemory_mirrors hempty hrun
  exact ((initialState_accounted place xidLatest).after (initialState_invariant xidLatest) hafter).finalizes h

theorem initialMemory_finalizes_twoInserts :
    ∃ m, runAllInMemory alignedPlace (initialMemory 0) 0 [.insert,.insert] = some (m,1) ∧
      ∃ remains, ccFinalizeXidTable m.memory = some remains ∧ remains.entries.live = ∅ ∧
        remains.hashElements.live = ∅ ∧ remains.hashEntries.live = ∅ ∧ remains.listElements.live.card = 1 :=
  ⟨_,rfl,initialMemory_finalizes alignedPlace 0 [.insert,.insert] rfl⟩

end OpenFlowController.Xid
