import OpenFlowController.Table.Accounting

/-! # Deleting a hash table

`delete_hash` walks the index while it takes the buckets out of it. Of a bucket it
first frees the entries, then the bucket with all its elements still linked. The
table behind the two heaps, its mutex and its array of buckets are freed whole.
-/
namespace OpenFlowController.Table
open Memory Memory.Heap

variable {K V : Type} {n : ℕ+} {ops : KeyOps K} {table : HashTable K V n} {b : Bucket K V n}
  {bs xs ys : List (Bucket K V n)}

/-- `free( delete_me->data )` for the elements from the given one on. -/
def freeEntries (elements : Heap (DlistElement (TableData n))) :
    ℕ → Heap (HashEntry K V) → Option ℕ → Option (Heap (HashEntry K V))
  | _, entries, none => some entries
  | 0, _, some _ => none
  | fuel+1, entries, some deleteMe => do
    let e ← elements.load deleteMe
    match e.data with
    | some (.hashEntry a) => do
      let entries ← entries.free a
      freeEntries elements fuel entries e.next
    | _ => none

/-- The next pointer of a node is read before its bucket is deleted, and the node with it. -/
def deleteBuckets : ℕ → HashTable K V n → Option ℕ → Option (HashTable K V n)
  | _, table, none => some table
  | 0, _, some _ => none
  | fuel+1, table, some nonempty => do
    let node ← table.elements.load nonempty
    match node.data with
    | some (.bucketIndex i) =>
      match table.buckets i with
      | none => deleteBuckets fuel table node.next
      | some bucket => do
        let sentinel ← table.elements.load bucket
        let entries ← freeEntries table.elements table.elements.next table.entries sentinel.next
        let table ← deleteBucket { table with entries } i
        deleteBuckets fuel table node.next
    | _ => none

def deleteHash (table : HashTable K V n) :
    Option (Heap (DlistElement (TableData n)) × Heap (HashEntry K V)) := do
  let index ← table.elements.load table.nonemptyBucketIndex
  let table ← deleteBuckets table.elements.next table index.next
  let elements ← deleteDlist table.elements table.nonemptyBucketIndex
  return (elements,table.entries)

theorem freeEntries_spec {elements : Heap (DlistElement (TableData n))} {entries : Heap (HashEntry K V)}
    {slots : List (Slot K V)} {before : Option ℕ} {fuel : ℕ}
    (hl : Linked elements before (slots.map (Slot.cell n)) none)
    (hs : ∀ s ∈ slots, entries.load s.address = some s.entry) (hd : (slots.map Slot.address).Nodup)
    (hf : slots.length ≤ fuel) :
    ∃ entries', freeEntries elements fuel entries (addresses (slots.map (Slot.cell n))).head? = some entries' ∧
      ∀ p, entries'.load p = if p ∈ slots.map Slot.address then none else entries.load p := by
  induction slots generalizing before fuel entries with
  | nil => exact ⟨entries,by cases fuel <;> rfl,by simp⟩
  | cons s slots ih =>
    obtain ⟨hc,hr⟩ := hl
    obtain ⟨hnew,hd⟩ := List.nodup_cons.mp hd
    have hload := hs s List.mem_cons_self
    rw [Option.or_none] at hc
    cases fuel with
    | zero => simp at hf
    | succ fuel =>
      have hs' : ∀ t ∈ slots, (entries.put s.address none).load t.address = some t.entry := by
        intro t ht
        have hne : t.address ≠ s.address := by
          intro h
          exact hnew (h ▸ List.mem_map_of_mem ht)
        rw [load_put_of_ne hne]
        exact hs t (List.mem_cons_of_mem _ ht)
      obtain ⟨entries',heq,hloads⟩ := ih hr hs' hd (Nat.le_of_succ_le_succ hf)
      refine ⟨entries',?_,fun p => ?_⟩
      · simpa [freeEntries,Slot.cell,hc,free_eq hload] using heq
      · rw [hloads,load_put hload]
        by_cases hp : p ∈ slots.map Slot.address
        · simp [hp]
        · by_cases hps : p = s.address
          · simp [hps]
          · simp [hp,hps]

/-- A bucket is deleted with everything linked behind its sentinel, whatever has become of
the entries; beside the bucket only the index is written. -/
theorem Represents.deleteBucket_whole {length : UInt32} (hr : Represents ops { table with length } (xs++b :: ys))
    (entries : Heap (HashEntry K V)) :
    ∃ elements, Table.deleteBucket { table with entries } b.index =
        some { table with buckets := Function.update table.buckets b.index none, elements, entries } ∧
      Dlist elements (indexCells table.nonemptyBucketIndex (xs++ys)) ∧
      Keeps table.elements elements
        (addresses b.cells++addresses (indexCells table.nonemptyBucketIndex (xs++b :: ys))) ∧
      elements.live.card+(2+b.slots.length) = table.elements.live.card := by
  have hb := hr.middle
  have hhead : table.buckets b.index = some b.head := hr.installed b (List.mem_append_right _ List.mem_cons_self)
  have hindex : Dlist table.elements (indexCells table.nonemptyBucketIndex (xs++b :: ys)) := hr.listed
  have hsplit : indexCells table.nonemptyBucketIndex (xs++b :: ys) =
      ((table.nonemptyBucketIndex,none) :: xs.map Bucket.indexCell)++b.indexCell :: ys.map Bucket.indexCell := by
    simp [indexCells]
  rw [hsplit] at hindex
  obtain ⟨h₁,heq₁,hindex₁,hnext₁,-,hkeep₁⟩ := hindex.deleteDlistElement_spec
  change Keeps _ _ (addresses (_++b.indexCell :: _)) at hkeep₁
  rw [← hsplit] at hkeep₁
  have hload : table.elements.load b.head = some ⟨some (.indexNode b.node),none,_⟩ := hb.listed.linked.1
  have hlist₁ := hb.listed.frame hkeep₁ (index_apart hr.listed hb)
  change Dlist h₁ ([]++(b.head,some (.indexNode b.node)) :: b.slots.map (Slot.cell n)) at hlist₁
  obtain ⟨h₂,heq₂,hlist₂,hnext₂,hkeep₂⟩ := hlist₁.setData none
  obtain ⟨h₃,heq₃,hnext₃,hload₃⟩ := hlist₂.deleteDlist_spec
  have hcells : addresses ([]++(b.head,none) :: b.slots.map (Slot.cell n)) = addresses b.cells := by
    simp [Bucket.cells,addresses]
  rw [hcells] at hload₃
  -- beyond the index only the elements of the bucket are touched
  have hbucket : Keeps h₁ h₃ (addresses b.cells) := by
    intro p hp hlt
    have hne : p ∉ [b.head] := by
      intro hh
      exact hp (List.mem_singleton.mp hh ▸ List.mem_cons_self)
    rw [hload₃,if_neg hp,hkeep₂ p hne hlt]
  refine ⟨h₃,?_,?_,?_,?_⟩
  · simp [Table.deleteBucket,hhead,hload,heq₁,heq₂,heq₃]
  · have hframe := hindex₁.frame hbucket (by
      intro p hp hpb
      apply index_apart hr.listed hb p hpb
      rw [hsplit,Dlist.mem_at]
      rw [addresses,List.map_append,List.mem_append] at hp
      tauto)
    simpa [indexCells] using hframe
  · intro p hp hlt
    rw [List.mem_append,not_or] at hp
    rw [hbucket p hp.1 (by omega),hkeep₁ p hp.2 hlt]
  · have hnode := card_live_deleteDlistElement heq₁
    have hdata := live_of_modify heq₂
    have hlive : ∀ p ∈ addresses b.cells, p ∈ h₂.live := by
      intro p hp
      rw [hdata,mem_live]
      exact hlist₁.live hp
    have hfreed := card_live_of_freed hb.listed.distinct hlive hload₃
    rw [hdata] at hfreed
    simp only [Bucket.cells,List.length_map,List.length_cons] at hfreed
    omega

/-- Step lemma: the first bucket of the index is deleted with its entries, and the others
stay what they are. -/
theorem Represents.deleteFirst {length : UInt32} (hr : Represents ops { table with length } (b :: bs)) :
    ∃ elements entries,
      freeEntries table.elements table.elements.next table.entries (addresses (b.slots.map (Slot.cell n))).head? =
        some entries ∧
      Table.deleteBucket { table with entries } b.index =
        some { table with buckets := Function.update table.buckets b.index none, elements, entries } ∧
      Represents ops { table with
        buckets := Function.update table.buckets b.index none, elements, entries,
        length := UInt32.ofNat (bindings bs).length } bs ∧
      elements.live.card+(2+b.slots.length) = table.elements.live.card ∧
      entries.live.card+b.slots.length = table.entries.live.card := by
  change Represents ops { table with length } ([]++b :: bs) at hr
  have hb := hr.middle
  have hothers : ∀ c ∈ bs, c.index ≠ b.index ∧ c.node ≠ b.node := hr.others
  have hlen := hb.listed.length_le_next
  simp only [Bucket.cells,List.length_cons,List.length_map] at hlen
  obtain ⟨entries,hfree,hloads⟩ := freeEntries_spec hb.listed.linked.2 hb.stored hb.nodup_addresses
    (Nat.le_of_succ_le hlen)
  obtain ⟨elements,heq,hindex,hkeep,hcard⟩ := hr.deleteBucket_whole entries
  refine ⟨elements,entries,hfree,heq,⟨hindex,?_,?_,?_,?_,rfl⟩,hcard,?_⟩
  · exact (List.nodup_cons.mp hr.distinct).2
  · intro c hc
    exact (Function.update_of_ne (hothers c hc).1 _ _).trans (hr.installed c (List.mem_cons_of_mem _ hc))
  · intro j hj
    by_cases hjb : j = b.index
    · rw [hjb]
      exact Function.update_self _ _ _
    · have hnot : j ∉ (b :: bs).map Bucket.index := by
        rw [List.map_cons,List.mem_cons,not_or]
        exact ⟨hjb,hj⟩
      exact (Function.update_of_ne hjb _ _).trans (hr.absent j hnot)
  · intro c hc
    obtain ⟨hne,hnode⟩ := hothers c hc
    have hc' := hr.holds c (List.mem_cons_of_mem _ hc)
    apply hc'.frame hkeep
    · intro p hp hpb
      rcases List.mem_append.mp hpb with hpb | hpi
      · exact buckets_apart hb hc' (Ne.symm hne) (Ne.symm hnode) p hp hpb
      · exact index_apart hr.listed hc' p hp hpi
    · intro s hs
      rw [hloads,if_neg]
      intro hmem
      obtain ⟨t,ht,hst⟩ := List.mem_map.mp hmem
      exact entries_apart hb hc' (Ne.symm hne) ht hs hst
  · have hlive : ∀ p ∈ b.slots.map Slot.address, p ∈ table.entries.live := by
      intro p hp
      obtain ⟨s,hs,rfl⟩ := List.mem_map.mp hp
      exact mem_live.mpr ⟨s.entry,hb.stored s hs⟩
    have hfreed := card_live_of_freed hb.nodup_addresses hlive hloads
    rwa [List.length_map] at hfreed

/-- What is left of a table when all its buckets are deleted: the sentinel of the index. -/
theorem Represents.deleteBuckets_spec {length : UInt32} {fuel : ℕ}
    (hr : Represents ops { table with length } bs) (hf : bs.length ≤ fuel) :
    ∃ table', deleteBuckets fuel table (addresses (bs.map Bucket.indexCell)).head? = some table' ∧
      Dlist table'.elements [(table'.nonemptyBucketIndex,none)] ∧
      table'.elements.live.card+(2*bs.length+(bindings bs).length) = table.elements.live.card ∧
      table'.entries.live.card+(bindings bs).length = table.entries.live.card := by
  induction bs generalizing table length fuel with
  | nil => exact ⟨table,by cases fuel <;> rfl,hr.listed,rfl,rfl⟩
  | cons b bs ih =>
    have hnode : table.elements.load b.node =
        some ⟨some (.bucketIndex b.index),some table.nonemptyBucketIndex,_⟩ := hr.listed.linked.2.1
    have hhead : table.buckets b.index = some b.head := hr.installed b List.mem_cons_self
    have hsentinel : table.elements.load b.head = some ⟨some (.indexNode b.node),none,_⟩ :=
      (hr.holds b List.mem_cons_self).listed.linked.1
    obtain ⟨elements,entries,hfree,hdelete,hr',helements,hentries⟩ := hr.deleteFirst
    rw [Option.or_none] at hnode hsentinel
    cases fuel with
    | zero => simp at hf
    | succ fuel =>
      obtain ⟨table',heq,hlist,helements',hentries'⟩ :=
        @ih { table with buckets := Function.update table.buckets b.index none, elements, entries } _ fuel hr'
          (Nat.le_of_succ_le_succ hf)
      refine ⟨table',?_,hlist,?_,?_⟩
      · have hfirst : (addresses ((b :: bs).map Bucket.indexCell)).head? = some b.node := rfl
        simp only [hfirst,deleteBuckets,hnode,hhead,hsentinel,hfree,hdelete,Option.bind_eq_bind,Option.bind_some]
        exact heq
      · simp only [bindings_cons,List.length_append,List.length_map,List.length_cons] at helements' ⊢
        omega
      · simp only [bindings_cons,List.length_append,List.length_map] at hentries' ⊢
        omega

/-- A table that has allocated what its bindings need is deleted without a trace. -/
theorem Follows.deleteHash_spec {past : List (TableCall K V)} (hf : Follows ops table past)
    (hm : MemoryInUse ops table past) :
    ∃ elements entries, deleteHash table = some (elements,entries) ∧ elements.live = ∅ ∧ entries.live = ∅ := by
  obtain ⟨bs,ht,hbind⟩ := hf
  have hkeys := ncard_boundKeys ht.toRepresents.apart hbind
  have hindex := ht.listed.linked.1
  have hlen := ht.listed.length_le_next
  rw [indexCells,List.length_cons,List.length_map] at hlen
  rw [Option.or_none] at hindex
  obtain ⟨table',hbuckets,hlist,helements,hentries⟩ :=
    ht.toRepresents.deleteBuckets_spec (Nat.le_of_succ_le hlen)
  change Dlist _ ([]++(table'.nonemptyBucketIndex,none) :: []) at hlist
  obtain ⟨elements,hdelete,-,hload⟩ := hlist.deleteDlist_spec
  have hlive : ∀ p ∈ [table'.nonemptyBucketIndex], p ∈ table'.elements.live :=
    fun p hp => mem_live.mpr (hlist.live hp)
  have hfreed := card_live_of_freed hlist.distinct hlive hload
  have hinUse := ht.toRepresents.card_bucketsInUse
  have helementsUsed := hm.elements
  have hentriesUsed := hm.entries
  refine ⟨elements,table'.entries,?_,Finset.card_eq_zero.mp ?_,Finset.card_eq_zero.mp ?_⟩
  · simp only [deleteHash,hindex,hbuckets,hdelete,Option.bind_eq_bind,Option.bind_some,Option.pure_def]
  · simp only [List.nil_append,addresses,List.map_cons,List.map_nil,List.length_singleton] at hfreed
    omega
  · omega

/-- Whatever was inserted and deleted, `delete_hash` accesses no freed memory, and afterwards
no element and no entry of the table is left allocated. -/
theorem runCalls_deleteHash (ops : KeyOps K) (size : ℕ+) (calls : List (TableCall K V)) :
    ∃ table elements entries, runCalls ops (createHashWithSize K V size) calls = some table ∧
      deleteHash table = some (elements,entries) ∧ elements.live = ∅ ∧ entries.live = ∅ := by
  obtain ⟨table,hruns,hf⟩ := runCalls_follows ops size calls
  have hacc := (createHashWithSize_follows ops size).runCalls_accounts (createHashWithSize_accounts ops size) calls hruns
  rw [List.append_nil] at hacc
  obtain ⟨elements,entries,heq,helements,hentries⟩ := hf.deleteHash_spec (hf.memoryInUse hacc)
  exact ⟨table,elements,entries,hruns,heq,helements,hentries⟩

end OpenFlowController.Table
