import OpenFlowController.Table.TableInvariant

/-! # What the table operations do to the invariant

An insert or delete is one slot more or less in a bucket, which may create or
delete the bucket. Each of the four steps is proved apart; between them a bucket
may be without slots.
-/
namespace OpenFlowController.Table
open Memory

variable {K V : Type} {n : ℕ+} {ops : KeyOps K} {table : HashTable K V n} {b : Bucket K V n}
  {bs xs ys : List (Bucket K V n)}

/-- Slots with different keys have different entries. -/
theorem Bucket.Holds.address_ne {elements : Heap (DlistElement (TableData n))} {entries : Heap (HashEntry K V)}
    {l r : List (Slot K V)} {s : Slot K V} (hb : b.Holds ops elements entries) (hs : b.slots = l++s :: r) :
    ∀ t ∈ l++r, t.address ≠ s.address := by
  intro t ht hts
  have hapart := hb.apart
  rw [hs,(List.perm_middle).pairwise_iff (fun h => (ops.compare_comm _ _).trans h)] at hapart
  have hfalse := (List.pairwise_cons.mp hapart).1 t ht
  have hstored := hb.stored
  rw [hs] at hstored
  have hentry := hstored t ((List.perm_middle).mem_iff.mpr (List.mem_cons_of_mem _ ht))
  rw [hts,hstored s (List.mem_append_right _ List.mem_cons_self)] at hentry
  rw [Option.some.inj hentry,ops.compare_refl] at hfalse
  cases hfalse

/-- Another list of slots for one bucket, made without touching the others. -/
theorem Represents.replaceSlots (hr : Represents ops table (xs++b :: ys)) {slots : List (Slot K V)}
    {elements : Heap (DlistElement (TableData n))} {entries : Heap (HashEntry K V)} {length : UInt32}
    (hkeep : Keeps table.elements elements (addresses b.cells))
    (hold : ∀ c ∈ xs++ys, ∀ s ∈ c.slots, entries.load s.address = table.entries.load s.address)
    (hb' : { b with slots }.Holds ops elements entries)
    (hlength : length = UInt32.ofNat (bindings (xs++{ b with slots } :: ys)).length) :
    Represents ops { table with elements, entries, length } (xs++{ b with slots } :: ys) := by
  have hb := hr.middle
  refine ⟨?_,?_,?_,?_,?_,hlength⟩
  · have hframe := hr.listed.frame hkeep (fun p hp hpb => index_apart hr.listed hb p hpb hp)
    simpa [indexCells,Bucket.indexCell] using hframe
  · simpa using hr.distinct
  · rw [forall_middle]
    exact forall_middle.mp hr.installed
  · intro j hj
    apply hr.absent j
    simpa using hj
  · rw [forall_middle]
    refine ⟨hb',?_⟩
    intro c hc
    obtain ⟨hne,hnode⟩ := hr.others c hc
    have hc' := hr.holds c (mem_others hc)
    exact hc'.frame hkeep (buckets_apart hb hc' (Ne.symm hne) (Ne.symm hnode)) (hold c hc)

theorem Represents.removeSlot {i : Fin n} {node head : ℕ} {l r : List (Slot K V)} {s : Slot K V}
    (hr : Represents ops table (xs++⟨i,node,head,l++s :: r⟩ :: ys)) :
    ∃ elements entries, deleteDlistElement table.elements s.element = some elements ∧
      table.entries.free s.address = some entries ∧
      Represents ops { table with elements, entries, length := table.length-1 }
        (xs++⟨i,node,head,l++r⟩ :: ys) := by
  have hb := hr.middle
  have hs : s ∈ l++s :: r := List.mem_append_right _ List.mem_cons_self
  have hrest : ∀ t ∈ l++r, t ∈ l++s :: r :=
    fun t ht => (List.perm_middle).mem_iff.mpr (List.mem_cons_of_mem _ ht)
  have hcells : (⟨i,node,head,l++s :: r⟩ : Bucket K V n).cells =
      ((head,some (.indexNode node)) :: l.map (Slot.cell n))++Slot.cell n s :: r.map (Slot.cell n) := by
    simp [Bucket.cells]
  have hlist := hb.listed
  rw [hcells] at hlist
  obtain ⟨elements,heq,hlist',-,-,hkeep⟩ := hlist.deleteDlistElement_spec
  change Keeps _ _ (addresses (_++Slot.cell n s :: _)) at hkeep
  rw [← hcells] at hkeep
  refine ⟨elements,_,heq,Heap.free_eq (hb.stored s hs),hr.replaceSlots hkeep ?_ ⟨?_,?_,?_,?_⟩ ?_⟩
  · intro c hc t ht
    have hc' := hr.holds c (mem_others hc)
    exact Heap.load_put_of_ne (entries_apart hc' hb (hr.others c hc).1 ht hs) _
  · simpa [Bucket.cells] using hlist'
  · intro t ht
    exact (Heap.load_put_of_ne (hb.address_ne rfl t ht) _).trans (hb.stored t (hrest t ht))
  · intro t ht
    exact hb.hashed t (hrest t ht)
  · exact hb.apart.sublist ((List.sublist_cons_self s r).append_left l)
  · have hlen : (bindings (xs++⟨i,node,head,l++s :: r⟩ :: ys)).length =
        (bindings (xs++⟨i,node,head,l++r⟩ :: ys)).length+1 := by
      simp
      omega
    rw [hr.counted,hlen,UInt32.ofNat_add]
    exact UInt32.add_sub_cancel _ _

theorem Represents.insertSlot (hr : Represents ops table (xs++b :: ys)) {key : K} (value : Option V)
    (hi : getBucketIndex ops n key = b.index)
    (hk : ∀ s ∈ b.slots, ops.compare key s.entry.key = false) :
    ∃ elements, insertAfterDlist table.elements b.head (some (.hashEntry table.entries.next)) =
        some (table.elements.next,elements) ∧
      Represents ops { table with elements, entries := table.entries.alloc ⟨key,value⟩, length := table.length+1 }
        (xs++{ b with slots := ⟨table.elements.next,table.entries.next,⟨key,value⟩⟩ :: b.slots } :: ys) := by
  have hb := hr.middle
  have hlist : Dlist table.elements ([]++(b.head,some (.indexNode b.node)) :: b.slots.map (Slot.cell n)) :=
    hb.listed
  obtain ⟨elements,heq,hlist',-,hkeep⟩ := hlist.insertAfterDlist_spec (some (.hashEntry table.entries.next))
  change Keeps _ _ (addresses b.cells) at hkeep
  have hold : ∀ c ∈ xs++b :: ys, ∀ s ∈ c.slots,
      (table.entries.alloc ⟨key,value⟩).load s.address = table.entries.load s.address := by
    intro c hc s hs
    exact Heap.load_alloc_of_ne _ _ (Heap.ne_next ((hr.holds c hc).stored s hs))
  refine ⟨elements,heq,hr.replaceSlots hkeep (fun c hc => hold c (mem_others hc))
    ⟨hlist',?_,?_,List.pairwise_cons.mpr ⟨hk,hb.apart⟩⟩ ?_⟩
  · intro s hs
    rcases List.mem_cons.mp hs with rfl | hs
    · exact Heap.load_alloc_next _ _
    · exact (hold b (List.mem_append_right _ List.mem_cons_self) s hs).trans (hb.stored s hs)
  · intro s hs
    rcases List.mem_cons.mp hs with rfl | hs
    · exact hi
    · exact hb.hashed s hs
  · have hlen : (bindings (xs++{ b with slots := ⟨table.elements.next,table.entries.next,⟨key,value⟩⟩ :: b.slots } ::
        ys)).length = (bindings (xs++b :: ys)).length+1 := by
      simp
      omega
    rw [hlen,UInt32.ofNat_add,← hr.counted]
    rfl

/-- The new bucket is an empty list, linked in behind the sentinel of the index list. -/
theorem Represents.newBucket_elements (hr : Represents ops table bs) (i : Fin n) :
    ∃ elements node head, newBucket table i =
        some { table with buckets := Function.update table.buckets i (some head), elements } ∧
      Dlist elements (indexCells table.nonemptyBucketIndex (⟨i,node,head,[]⟩ :: bs)) ∧
      Dlist elements [(head,some (.indexNode node))] ∧
      Keeps table.elements elements (addresses (indexCells table.nonemptyBucketIndex bs)) := by
  obtain ⟨hcreated,hkeep₁⟩ := Dlist.createDlist_spec table.elements
  have hold : ∀ p ∈ addresses (indexCells table.nonemptyBucketIndex bs), p < table.elements.next :=
    fun p hp => hr.listed.lt_next hp
  have hindex₁ := hr.listed.frame hkeep₁ (by simp)
  change Dlist _ ([]++(table.nonemptyBucketIndex,none) :: bs.map Bucket.indexCell) at hindex₁
  obtain ⟨h₂,heq₂,hindex₂,hnext₂,hkeep₂⟩ := hindex₁.insertAfterDlist_spec (some (.bucketIndex i))
  have hsentinel : Dlist h₂ ([]++(table.elements.next,none) :: []) := by
    apply hcreated.frame hkeep₂
    intro p hp hpi
    rw [List.mem_singleton.mp hp] at hpi
    exact Nat.lt_irrefl _ (hold _ hpi)
  obtain ⟨h₃,heq₃,hbucket,-,hkeep₃⟩ := hsentinel.setData (some (.indexNode (table.elements.next+1)))
  rw [next_createDlist] at heq₂ hindex₂
  refine ⟨h₃,table.elements.next+1,table.elements.next,?_,?_,hbucket,?_⟩
  · simp [Table.newBucket,heq₂,heq₃]
  · apply hindex₂.frame hkeep₃
    intro p hp hpn
    rw [List.mem_singleton.mp hpn] at hp
    simp only [addresses,List.nil_append,List.map_cons,List.mem_cons] at hp
    rcases hp with h | h | h
    · exact Nat.lt_irrefl _ (hold _ (h ▸ List.mem_cons_self))
    · omega
    · exact Nat.lt_irrefl _ (hold _ (List.mem_cons_of_mem _ h))
  · intro p hp hlt
    have hne : p ∉ [table.elements.next] := by
      simp only [List.mem_singleton]
      omega
    rw [next_createDlist] at hnext₂
    rw [hkeep₃ p hne (by omega),hkeep₂ p hp (by rw [next_createDlist]; omega),hkeep₁ p (by simp) hlt]

theorem Represents.newBucket (hr : Represents ops table bs) {i : Fin n} (hi : i ∉ bs.map Bucket.index) :
    ∃ elements node head, newBucket table i =
        some { table with buckets := Function.update table.buckets i (some head), elements } ∧
      Represents ops { table with buckets := Function.update table.buckets i (some head), elements }
        (⟨i,node,head,[]⟩ :: bs) := by
  obtain ⟨elements,node,head,heq,hindex,hbucket,hkeep⟩ := hr.newBucket_elements i
  refine ⟨elements,node,head,heq,⟨hindex,List.nodup_cons.mpr ⟨hi,hr.distinct⟩,?_,?_,?_,hr.counted⟩⟩
  · intro c hc
    rcases List.mem_cons.mp hc with rfl | hc
    · exact Function.update_self _ _ _
    · have hne : c.index ≠ i := by
        intro h
        exact hi (h ▸ List.mem_map_of_mem hc)
      exact (Function.update_of_ne hne _ _).trans (hr.installed c hc)
  · intro j hj
    simp only [List.map_cons,List.mem_cons,not_or] at hj
    exact (Function.update_of_ne hj.1 _ _).trans (hr.absent j hj.2)
  · intro c hc
    rcases List.mem_cons.mp hc with rfl | hc
    · exact ⟨hbucket,by simp,by simp,List.Pairwise.nil⟩
    · have hc' := hr.holds c hc
      exact hc'.frame hkeep (index_apart hr.listed hc') (fun _ _ => rfl)

/-- An empty bucket is found through the pointer of its sentinel, and nothing but
the index list and this sentinel is written. -/
theorem Represents.deleteBucket_elements (hr : Represents ops table (xs++b :: ys)) (hs : b.slots = []) :
    ∃ elements, deleteBucket table b.index =
        some { table with buckets := Function.update table.buckets b.index none, elements } ∧
      Dlist elements (indexCells table.nonemptyBucketIndex (xs++ys)) ∧
      Keeps table.elements elements (b.head :: addresses (indexCells table.nonemptyBucketIndex (xs++b :: ys))) := by
  have hb := hr.middle
  have hhead := hr.installed b (List.mem_append_right _ List.mem_cons_self)
  have hcells : b.cells = []++(b.head,some (.indexNode b.node)) :: [] := by
    simp [Bucket.cells,hs]
  have hindex := hr.listed
  have hsplit : indexCells table.nonemptyBucketIndex (xs++b :: ys) =
      ((table.nonemptyBucketIndex,none) :: xs.map Bucket.indexCell)++b.indexCell :: ys.map Bucket.indexCell := by
    simp [indexCells]
  rw [hsplit] at hindex
  obtain ⟨h₁,heq₁,hindex₁,hnext₁,-,hkeep₁⟩ := hindex.deleteDlistElement_spec
  change Keeps _ _ (addresses (_++b.indexCell :: _)) at hkeep₁
  rw [← hsplit] at hkeep₁
  have hlist := hb.listed
  rw [hcells] at hlist
  have hload := hlist.load_at
  have hlist₁ := hlist.frame hkeep₁ (by rw [← hcells]; exact index_apart hr.listed hb)
  obtain ⟨h₂,heq₂,hlist₂,hnext₂,hkeep₂⟩ := hlist₁.setData none
  obtain ⟨h₃,heq₃,hnext₃,hload₃⟩ := hlist₂.deleteDlist_spec
  -- beyond the index list only the sentinel is touched
  have hsentinel : Keeps h₁ h₃ [b.head] := by
    intro p hp hlt
    have hnot : p ∉ addresses ([]++(b.head,none) :: ([] : List (ℕ × Option (TableData n)))) := by
      simpa using hp
    rw [hload₃,if_neg hnot,hkeep₂ p hp hlt]
  have hheadIndex : b.head ∉ addresses (indexCells table.nonemptyBucketIndex (xs++b :: ys)) :=
    index_apart hr.listed hb _ List.mem_cons_self
  refine ⟨h₃,?_,?_,?_⟩
  · simp [Table.deleteBucket,hhead,hload,heq₁,heq₂,heq₃]
  · have hframe := hindex₁.frame hsentinel (by
      intro p hp hpb
      rw [List.mem_singleton.mp hpb] at hp
      apply hheadIndex
      rw [hsplit,Dlist.mem_at]
      rw [addresses,List.map_append,List.mem_append] at hp
      tauto)
    simpa [indexCells] using hframe
  · intro p hp hlt
    rw [List.mem_cons,not_or] at hp
    rw [hsentinel p (by simpa using hp.1) (by omega),hkeep₁ p hp.2 hlt]

theorem Represents.deleteBucket (hr : Represents ops table (xs++b :: ys)) (hs : b.slots = []) :
    ∃ elements, deleteBucket table b.index =
        some { table with buckets := Function.update table.buckets b.index none, elements } ∧
      Represents ops { table with buckets := Function.update table.buckets b.index none, elements }
        (xs++ys) := by
  have hothers := hr.others
  obtain ⟨elements,heq,hindex,hkeep⟩ := hr.deleteBucket_elements hs
  refine ⟨elements,heq,⟨hindex,?_,?_,?_,?_,?_⟩⟩
  · have hperm := hr.distinct
    rw [List.map_append,List.map_cons,(List.perm_middle).nodup_iff] at hperm
    rw [List.map_append]
    exact (List.nodup_cons.mp hperm).2
  · intro c hc
    exact (Function.update_of_ne (hothers c hc).1 _ _).trans (hr.installed c (mem_others hc))
  · intro j hj
    by_cases hjb : j = b.index
    · rw [hjb]
      exact Function.update_self _ _ _
    · exact (Function.update_of_ne hjb _ _).trans (hr.absent j (by rw [mem_indexes_middle]; tauto))
  · intro c hc
    obtain ⟨hne,hnode⟩ := hothers c hc
    have hc' := hr.holds c (mem_others hc)
    have hheadCells := buckets_apart hc' hr.middle hne hnode b.head List.mem_cons_self
    apply hc'.frame hkeep _ (fun _ _ => rfl)
    intro p hp hpb
    rcases List.mem_cons.mp hpb with rfl | hpi
    · exact hheadCells hp
    · exact index_apart hr.listed hc' p hp hpi
  · have hcounted := hr.counted
    simpa [hs] using hcounted

theorem compare_eq_false {j k : K} (h : getBucketIndex ops n j ≠ getBucketIndex ops n k) :
    ops.compare j k = false := by
  rw [Bool.eq_false_iff]
  intro hjk
  apply h
  simp only [getBucketIndex,ops.hash_eq hjk]

theorem mem_bindings {x : K × Option V} (hx : x ∈ bindings bs) :
    ∃ b ∈ bs, ∃ s ∈ b.slots, s.binding = x := by
  obtain ⟨b,hb,hx⟩ := List.mem_flatMap.mp hx
  obtain ⟨s,hs,rfl⟩ := List.mem_map.mp hx
  exact ⟨b,hb,s,hs,rfl⟩

theorem Represents.apart (hr : Represents ops table bs) : Apart ops (bindings bs) := by
  apply List.pairwise_flatMap.mpr
  constructor
  · intro b hb
    exact List.pairwise_map.mpr ((hr.holds b hb).apart)
  · have hdistinct := List.pairwise_map.mp hr.distinct
    apply hdistinct.imp_of_mem
    intro b c hb hc hne x hx y hy
    obtain ⟨s,hs,rfl⟩ := List.mem_map.mp hx
    obtain ⟨t,ht,rfl⟩ := List.mem_map.mp hy
    apply @compare_eq_false _ n
    have hs' := (hr.holds b hb).hashed s hs
    have ht' := (hr.holds c hc).hashed t ht
    simpa only [Slot.binding,hs',ht'] using hne

theorem bindingOf_elsewhere {cs : List (Bucket K V n)} {key : K}
    (hc : ∀ c ∈ cs, c.Holds ops table.elements table.entries ∧ c.index ≠ getBucketIndex ops n key) :
    bindingOf ops (bindings cs) key = none := by
  apply bindingOf_eq_none_iff.mpr
  intro x hx
  obtain ⟨c,hmem,s,hs,rfl⟩ := mem_bindings hx
  obtain ⟨hholds,hne⟩ := hc c hmem
  apply @compare_eq_false _ n
  rw [Slot.binding,hholds.hashed s hs]
  exact Ne.symm hne

theorem Represents.bindingOf_bucket (hr : Represents ops table (xs++b :: ys)) {key : K}
    (hi : getBucketIndex ops n key = b.index) :
    bindingOf ops (bindings (xs++b :: ys)) key = bindingOf ops (b.slots.map Slot.binding) key := by
  have helse : ∀ cs : List (Bucket K V n), (∀ c ∈ cs, c ∈ xs++ys) → bindingOf ops (bindings cs) key = none := by
    intro cs hcs
    apply @bindingOf_elsewhere _ _ _ _ table
    intro c hc
    rw [hi]
    exact ⟨hr.holds c (mem_others (hcs c hc)),(hr.others c (hcs c hc)).1⟩
  rw [bindings_append,bindings_cons,bindingOf_append,bindingOf_append,
    helse xs (fun c hc => List.mem_append_left _ hc),helse ys (fun c hc => List.mem_append_right _ hc)]
  simp

theorem Represents.searchBucket_spec (hr : Represents ops table bs) (key : K) :
    ∃ found, searchBucket ops table key = some found ∧
      found.map (fun x => x.2.2.value) = bindingOf ops (bindings bs) key := by
  by_cases hi : getBucketIndex ops n key ∈ bs.map Bucket.index
  · obtain ⟨b,hb,hbi⟩ := List.mem_map.mp hi
    obtain ⟨xs,ys,rfl⟩ := List.append_of_mem hb
    refine ⟨_,searchBucket_present hr hbi.symm,?_⟩
    rw [hr.bindingOf_bucket hbi.symm,bindingOf,List.find?_map]
    simp [Function.comp_def,Slot.binding]
  · refine ⟨none,searchBucket_absent hr hi,?_⟩
    symm
    apply @bindingOf_elsewhere _ _ _ _ table
    intro c hc
    refine ⟨hr.holds c hc,?_⟩
    intro h
    exact hi (h ▸ List.mem_map_of_mem hc)

end OpenFlowController.Table
