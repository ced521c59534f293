import OpenFlowController.Memory.LiveCells
import OpenFlowController.Table.TableRuns

/-! # The memory of a hash table

What a table has allocated is determined by the keys bound in it: one entry and one
element for each of them, two elements for each bucket in use, and the sentinel of the
index. The upper bound follows from what each operation allocates and frees, the lower
bound from the invariant, as everything it lists is live and listed once.
-/
namespace OpenFlowController.Table
open Memory Memory.Heap

section Elements
variable {D : Type} {h h' : Heap (DlistElement D)} {a p : ℕ}

theorem card_live_insertAfterDlist {data : Option D} (hi : insertAfterDlist h a data = some (p,h')) :
    h'.live.card = h.live.card+1 := by
  simp only [insertAfterDlist,Option.bind_eq_bind,Option.pure_def,Option.bind_eq_some_iff] at hi
  obtain ⟨e,-,hi⟩ := hi
  cases hnext : e.next with
  | none =>
    simp only [hnext,Option.bind_some,Option.bind_eq_some_iff,Option.some.injEq,Prod.mk.injEq] at hi
    obtain ⟨h₁,hfront,h₂,hnew,-,rfl⟩ := hi
    rw [live_of_modify hnew,live_of_modify hfront,card_live_alloc]
  | some oldNext =>
    simp only [hnext,Option.bind_eq_some_iff,Option.some.injEq,Prod.mk.injEq] at hi
    obtain ⟨h₁,hforth,h₂,hback,h₃,hfront,h₄,hnew,-,rfl⟩ := hi
    rw [live_of_modify hnew,live_of_modify hfront,live_of_modify hback,live_of_modify hforth,card_live_alloc]

theorem card_live_deleteDlistElement (hd : deleteDlistElement h a = some h') :
    h'.live.card+1 = h.live.card := by
  simp only [deleteDlistElement,Option.bind_eq_bind,Option.bind_eq_some_iff] at hd
  obtain ⟨e,-,h₁,hprev,h₂,hnext,hfree⟩ := hd
  rw [card_live_of_free hfree,live_of_modifyIf hnext,live_of_modifyIf hprev]

theorem card_live_freeFrom {fuel : ℕ} {first : Option ℕ} (hf : freeFrom fuel h first = some h') :
    h'.live.card ≤ h.live.card := by
  induction fuel generalizing h first with
  | zero =>
    cases first with
    | none => rw [Option.some.inj hf]
    | some _ => cases hf
  | succ fuel ih =>
    cases first with
    | none => rw [Option.some.inj hf]
    | some deleteMe =>
      simp only [freeFrom,Option.bind_eq_bind,Option.bind_eq_some_iff] at hf
      obtain ⟨e,-,h₁,hfree,hrest⟩ := hf
      have hone := card_live_of_free hfree
      have htail := ih hrest
      omega

/-- At least the first element is freed. -/
theorem card_live_deleteDlist (hd : deleteDlist h a = some h') : h'.live.card+1 ≤ h.live.card := by
  simp only [deleteDlist,Option.bind_eq_bind,Option.bind_eq_some_iff] at hd
  obtain ⟨first,-,hf⟩ := hd
  cases hnext : h.next with
  | zero =>
    rw [hnext] at hf
    cases hf
  | succ fuel =>
    simp only [hnext,freeFrom,Option.bind_eq_bind,Option.bind_eq_some_iff] at hf
    obtain ⟨e,-,h₁,hfree,hrest⟩ := hf
    have hone := card_live_of_free hfree
    have htail := card_live_freeFrom hrest
    omega

end Elements

section Buckets
variable {K V : Type} {n : ℕ+} {ops : KeyOps K} {table table' : HashTable K V n} {b : Bucket K V n}
  {bs xs ys : List (Bucket K V n)} {i : Fin n}

def HashTable.bucketsInUse (table : HashTable K V n) : Finset (Fin n) :=
  Finset.univ.filter (fun i => (table.buckets i).isSome)

theorem mem_bucketsInUse : i ∈ table.bucketsInUse ↔ ∃ bucket, table.buckets i = some bucket := by
  rw [HashTable.bucketsInUse,Finset.mem_filter,Option.isSome_iff_exists]
  simp only [Finset.mem_univ,true_and]

theorem bucketsInUse_update_some {bucket : ℕ} (hb : table'.buckets = Function.update table.buckets i (some bucket)) :
    table'.bucketsInUse = insert i table.bucketsInUse := by
  ext j
  rw [mem_bucketsInUse,Finset.mem_insert,mem_bucketsInUse,hb,Function.update_apply]
  by_cases hj : j = i <;> simp [hj]

theorem bucketsInUse_update_none (hb : table'.buckets = Function.update table.buckets i none) :
    table'.bucketsInUse = table.bucketsInUse.erase i := by
  ext j
  rw [mem_bucketsInUse,Finset.mem_erase,mem_bucketsInUse,hb,Function.update_apply]
  by_cases hj : j = i <;> simp [hj]

theorem Represents.bucketsInUse_eq (hr : Represents ops table bs) :
    table.bucketsInUse = (bs.map Bucket.index).toFinset := by
  ext i
  rw [mem_bucketsInUse,List.mem_toFinset]
  constructor
  · intro hi
    obtain ⟨bucket,hbucket⟩ := hi
    by_contra hmem
    rw [hr.absent i hmem] at hbucket
    cases hbucket
  · intro hi
    obtain ⟨b,hb,rfl⟩ := List.mem_map.mp hi
    exact ⟨b.head,hr.installed b hb⟩

theorem Represents.card_bucketsInUse (hr : Represents ops table bs) : table.bucketsInUse.card = bs.length := by
  rw [hr.bucketsInUse_eq,List.toFinset_card_of_nodup hr.distinct,List.length_map]

theorem newBucket_effect (hn : newBucket table i = some table') :
    table'.elements.live.card = table.elements.live.card+2 ∧ table'.entries = table.entries ∧
      table'.bucketsInUse = insert i table.bucketsInUse := by
  simp only [newBucket,Option.bind_eq_bind,Option.pure_def,Option.bind_eq_some_iff] at hn
  obtain ⟨⟨node,h₁⟩,hinsert,h₂,hdata,heq⟩ := hn
  obtain rfl := Option.some.inj heq
  refine ⟨?_,rfl,bucketsInUse_update_some rfl⟩
  have hcreate : (createDlist table.elements).2.live.card = table.elements.live.card+1 := card_live_alloc _ _
  rw [live_of_modify hdata,card_live_insertAfterDlist hinsert,hcreate]

/-- The node of the index and the sentinel are freed, whatever is still linked behind it. -/
theorem Represents.deleteBucket_effect (hr : Represents ops table (xs++b :: ys))
    (hd : Table.deleteBucket table b.index = some table') :
    table'.elements.live.card+2 ≤ table.elements.live.card ∧ table'.entries = table.entries ∧
      table'.bucketsInUse = table.bucketsInUse.erase b.index := by
  have hhead := hr.installed b (List.mem_append_right _ List.mem_cons_self)
  have hload := hr.middle.listed.linked.1
  simp only [Table.deleteBucket,hhead,hload,Option.bind_eq_bind,Option.bind_some,Option.pure_def,
    Option.bind_eq_some_iff] at hd
  obtain ⟨h₀,hnode,h₁,hdata,h₂,hlist,heq⟩ := hd
  obtain rfl := Option.some.inj heq
  have hone := card_live_deleteDlistElement hnode
  have hrest := card_live_deleteDlist hlist
  rw [live_of_modify hdata] at hrest
  refine ⟨?_,rfl,bucketsInUse_update_none rfl⟩
  change h₂.live.card+2 ≤ _
  omega

end Buckets

section Listed
variable {K V : Type} {n : ℕ+} {ops : KeyOps K} {table : HashTable K V n} {b : Bucket K V n}
  {bs : List (Bucket K V n)}

/-- Every element of a table: the index, then bucket by bucket. -/
def listedElements (sentinel : ℕ) (bs : List (Bucket K V n)) : List ℕ :=
  addresses (indexCells sentinel bs)++bs.flatMap (fun b => addresses b.cells)

def listedEntries (bs : List (Bucket K V n)) : List ℕ := bs.flatMap (fun b => b.slots.map Slot.address)

theorem length_listedEntries (bs : List (Bucket K V n)) : (listedEntries bs).length = (bindings bs).length := by
  simp [listedEntries,bindings,List.length_flatMap]

theorem length_listedElements (sentinel : ℕ) (bs : List (Bucket K V n)) :
    (listedElements sentinel bs).length = 1+2*bs.length+(bindings bs).length := by
  induction bs with
  | nil => rfl
  | cons b bs ih =>
    simp only [listedElements,indexCells,addresses,List.length_append,List.length_map,List.length_cons,
      List.flatMap_cons,bindings_cons,Bucket.cells] at ih ⊢
    omega

theorem Represents.live_listedElements (hr : Represents ops table bs) :
    ∀ p ∈ listedElements table.nonemptyBucketIndex bs, p ∈ table.elements.live := by
  intro p hp
  rw [mem_live]
  rcases List.mem_append.mp hp with hp | hp
  · exact hr.listed.live hp
  · obtain ⟨b,hb,hp⟩ := List.mem_flatMap.mp hp
    exact (hr.holds b hb).listed.live hp

theorem Represents.live_listedEntries (hr : Represents ops table bs) :
    ∀ p ∈ listedEntries bs, p ∈ table.entries.live := by
  intro p hp
  obtain ⟨b,hb,hp⟩ := List.mem_flatMap.mp hp
  obtain ⟨s,hs,rfl⟩ := List.mem_map.mp hp
  exact mem_live.mpr ⟨s.entry,(hr.holds b hb).stored s hs⟩

/-- Two buckets differ in their index and in their node. -/
theorem Represents.pairwise_buckets (hr : Represents ops table bs) :
    bs.Pairwise (fun b c => b.index ≠ c.index ∧ b.node ≠ c.node) := by
  have hnodes := hr.listed.distinct
  simp only [indexCells,addresses,List.map_cons,List.map_map,List.nodup_cons] at hnodes
  exact (List.pairwise_map.mp hr.distinct).and (List.pairwise_map.mp hnodes.2)

theorem Represents.nodup_listedElements (hr : Represents ops table bs) :
    (listedElements table.nonemptyBucketIndex bs).Nodup := by
  apply List.nodup_append.mpr
  refine ⟨hr.listed.distinct,?_,?_⟩
  · apply List.nodup_flatMap.mpr
    refine ⟨fun b hb => (hr.holds b hb).listed.distinct,?_⟩
    apply hr.pairwise_buckets.imp_of_mem
    intro b c hb hc hne p hpb hpc
    exact buckets_apart (hr.holds b hb) (hr.holds c hc) hne.1 hne.2 p hpc hpb
  · intro p hp q hq hpq
    obtain ⟨b,hb,hq⟩ := List.mem_flatMap.mp hq
    exact index_apart hr.listed (hr.holds b hb) q hq (hpq ▸ hp)

theorem Bucket.Holds.nodup_addresses {elements : Heap (DlistElement (TableData n))}
    {entries : Heap (HashEntry K V)} (hb : b.Holds ops elements entries) : (b.slots.map Slot.address).Nodup := by
  apply List.pairwise_map.mpr
  apply hb.apart.imp_of_mem
  intro s t hs ht hapart hst
  have hload := hb.stored s hs
  rw [hst,hb.stored t ht,Option.some.injEq] at hload
  rw [← hload,ops.compare_refl] at hapart
  cases hapart

theorem Represents.nodup_listedEntries (hr : Represents ops table bs) : (listedEntries bs).Nodup := by
  apply List.nodup_flatMap.mpr
  refine ⟨fun b hb => (hr.holds b hb).nodup_addresses,?_⟩
  apply hr.pairwise_buckets.imp_of_mem
  intro b c hb hc hne p hpb hpc
  obtain ⟨s,hs,rfl⟩ := List.mem_map.mp hpb
  obtain ⟨t,ht,hst⟩ := List.mem_map.mp hpc
  exact entries_apart (hr.holds b hb) (hr.holds c hc) hne.1 hs ht hst.symm

end Listed

section History
variable {K V : Type} {ops : KeyOps K} {past : List (TableCall K V)} {key : K} {xs : List (K × Option V)}

theorem ncard_boundKeys_insert (ha : Apart ops xs) (hb : ∀ k, bindingOf ops xs k = latest ops past k)
    (hn : latest ops past key = none) (value : Option V) :
    (boundKeys ops (.insert key value :: past)).ncard = (boundKeys ops past).ncard+1 := by
  have hnew : ∀ b ∈ xs, ops.compare key b.1 = false := by
    apply bindingOf_eq_none_iff.mp
    rw [hb,hn]
  have ha' : Apart ops ([]++(key,value) :: xs) := List.pairwise_cons.mpr ⟨hnew,ha⟩
  have hb' : ∀ k, bindingOf ops ([]++(key,value) :: xs) k = latest ops (.insert key value :: past) k := by
    intro k
    rw [bindingOf_middle ha',List.nil_append,hb,latest]
  rw [ncard_boundKeys ha' hb',ncard_boundKeys ha hb,List.nil_append,List.length_cons]

theorem ncard_boundKeys_delete (ha : Apart ops xs) (hb : ∀ k, bindingOf ops xs k = latest ops past k)
    {value : Option V} (hs : latest ops past key = some value) :
    (boundKeys ops (.delete key :: past)).ncard+1 = (boundKeys ops past).ncard := by
  rw [← hb] at hs
  obtain ⟨b,hfind,-⟩ := Option.map_eq_some_iff.mp hs
  obtain ⟨hkey,l,r,rfl,-⟩ := List.find?_eq_some_iff_append.mp hfind
  have ha' : Apart ops (l++r) := ha.sublist ((List.sublist_cons_self b r).append_left l)
  have hb' : ∀ k, bindingOf ops (l++r) k = latest ops (.delete key :: past) k := by
    intro k
    rw [bindingOf_erase ha,hb,latest,ops.compare_comm k b.1,← ops.compare_congr hkey,ops.compare_comm key]
  rw [ncard_boundKeys ha' hb',ncard_boundKeys ha hb,List.length_append,List.length_append,List.length_cons,
    Nat.add_assoc]

theorem boundKeys_congr {past past' : List (TableCall K V)} (hl : ∀ k, latest ops past k = latest ops past' k) :
    boundKeys ops past = boundKeys ops past' := by
  simp only [boundKeys,hl]

/-- Inserting makes up for a delete of the same key before. -/
theorem latest_insert_delete (value : Option V) (k : K) :
    latest ops (.insert key value :: .delete key :: past) k = latest ops (.insert key value :: past) k := by
  simp only [latest]
  split <;> rfl

end History

section Runs
variable {K V : Type} {n : ℕ+} {ops : KeyOps K} {table table' : HashTable K V n} {past : List (TableCall K V)}
  {bs : List (Bucket K V n)} {key : K} {value : Option V}

/-- Nothing is allocated beyond what the bound keys and the buckets in use need. -/
structure Accounts (ops : KeyOps K) (table : HashTable K V n) (past : List (TableCall K V)) : Prop where
  entries : table.entries.live.card ≤ (boundKeys ops past).ncard
  elements : table.elements.live.card ≤ 1+2*table.bucketsInUse.card+table.entries.live.card

theorem addEntry_effect (ha : addEntry ops table key value = some table') :
    table'.entries.live.card = table.entries.live.card+1 ∧
      table'.elements.live.card+2*table.bucketsInUse.card =
        table.elements.live.card+2*table'.bucketsInUse.card+1 := by
  simp only [addEntry,Option.bind_eq_bind,Option.pure_def] at ha
  cases hbucket : table.buckets (getBucketIndex ops n key) with
  | none =>
    simp only [hbucket,Option.bind_eq_some_iff] at ha
    obtain ⟨created,hcreate,bucket,-,⟨p,elements⟩,hinsert,heq⟩ := ha
    obtain rfl := Option.some.inj heq
    obtain ⟨helements,hentries,hbuckets⟩ := newBucket_effect hcreate
    have hfresh : getBucketIndex ops n key ∉ table.bucketsInUse := by
      rw [mem_bucketsInUse,hbucket]
      simp
    have hone := card_live_insertAfterDlist hinsert
    have hcard := Finset.card_insert_of_notMem hfresh
    rw [← hbuckets] at hcard
    change (created.entries.alloc _).live.card = _ ∧ elements.live.card+_ = _+2*created.bucketsInUse.card+1
    rw [hentries]
    refine ⟨card_live_alloc _ _,?_⟩
    omega
  | some bucket =>
    simp only [hbucket,Option.bind_some,Option.bind_eq_some_iff] at ha
    obtain ⟨⟨p,elements⟩,hinsert,heq⟩ := ha
    obtain rfl := Option.some.inj heq
    have hone := card_live_insertAfterDlist hinsert
    refine ⟨card_live_alloc _ _,?_⟩
    change elements.live.card+_ = _+2*table.bucketsInUse.card+1
    omega

theorem Tidy.deleteHashEntry_effect {xs ys : List (Bucket K V n)} {i : Fin n} {node head : ℕ}
    {l r : List (Slot K V)} {s : Slot K V}
    (ht : Tidy ops table (xs++⟨i,node,head,l++s :: r⟩ :: ys)) (hi : getBucketIndex ops n key = i)
    (hf : searchBucket ops table key = some (some (s.element,s.address,s.entry)))
    (hd : deleteHashEntry ops table key = some (value,table')) :
    table'.entries.live.card+1 = table.entries.live.card ∧
      table'.elements.live.card+1+2*table.bucketsInUse.card ≤
        table.elements.live.card+2*table'.bucketsInUse.card := by
  have hhead := ht.installed _ (List.mem_append_right xs List.mem_cons_self)
  obtain ⟨elements,entries,hdelete,hfree,hr⟩ := ht.toRepresents.removeSlot
  have hload := hr.middle.listed.linked.1
  have helement := card_live_deleteDlistElement hdelete
  have hentry := card_live_of_free hfree
  rw [Option.or_none] at hload
  cases hlr : l++r with
  | nil =>
    obtain ⟨deleted,hbucket⟩ : ∃ deleted,
        deleteBucket { table with elements, entries, length := table.length-1 } i = some deleted := by
      obtain ⟨elements',hbucket,-⟩ := hr.deleteBucket hlr
      exact ⟨_,hbucket⟩
    obtain ⟨hsmaller,hentries,hbuckets⟩ := hr.deleteBucket_effect hbucket
    change _+2 ≤ elements.live.card at hsmaller
    change _ = table.bucketsInUse.erase i at hbuckets
    simp only [hlr,List.map_nil,addresses,List.head?_nil] at hload
    simp only [deleteHashEntry,hi,hhead,hf,hdelete,hfree,hload,hbucket,Option.bind_eq_bind,Option.bind_some,
      Option.pure_def,Option.some.injEq,Prod.mk.injEq] at hd
    obtain ⟨-,rfl⟩ := hd
    have hmem : i ∈ table.bucketsInUse := mem_bucketsInUse.mpr ⟨head,hhead⟩
    have hcard := Finset.card_erase_add_one hmem
    rw [← hbuckets] at hcard
    rw [hentries]
    refine ⟨hentry,?_⟩
    omega
  | cons t rest =>
    simp only [hlr,List.map_cons,addresses,List.head?_cons] at hload
    simp only [deleteHashEntry,hi,hhead,hf,hdelete,hfree,hload,Option.bind_eq_bind,Option.bind_some,
      Option.pure_def,Option.some.injEq,Prod.mk.injEq] at hd
    obtain ⟨-,rfl⟩ := hd
    refine ⟨hentry,?_⟩
    change elements.live.card+1+2*table.bucketsInUse.card ≤ _+2*table.bucketsInUse.card
    omega

/-- The entry a search ends at is in a slot of the bucket of its key. -/
theorem Represents.slot_of_search (hr : Represents ops table bs) {x : ℕ × ℕ × HashEntry K V}
    (hf : searchBucket ops table key = some (some x)) :
    ∃ xs ys node head l r s, bs = xs++⟨getBucketIndex ops n key,node,head,l++s :: r⟩ :: ys ∧
      x = (s.element,s.address,s.entry) := by
  have hi : getBucketIndex ops n key ∈ bs.map Bucket.index := by
    by_contra hi
    rw [searchBucket_absent hr hi] at hf
    cases hf
  obtain ⟨⟨i,node,head,slots⟩,hb,rfl⟩ := List.mem_map.mp hi
  obtain ⟨xs,ys,rfl⟩ := List.append_of_mem hb
  have hpresent := searchBucket_present hr rfl
  rw [hf,Option.some.injEq] at hpresent
  obtain ⟨s,hfind,hx⟩ := Option.map_eq_some_iff.mp hpresent.symm
  obtain ⟨-,l,r,hslots,-⟩ := List.find?_eq_some_iff_append.mp hfind
  obtain rfl : slots = l++s :: r := hslots
  exact ⟨xs,ys,node,head,l,r,s,rfl,hx.symm⟩

theorem Follows.addEntry_accounts (hf : Follows ops table past) (hacc : Accounts ops table past)
    (hn : latest ops past key = none) (ha : addEntry ops table key value = some table') :
    Accounts ops table' (.insert key value :: past) := by
  obtain ⟨bs,ht,hbind⟩ := hf
  obtain ⟨hentries,helements⟩ := addEntry_effect ha
  have hkeys := ncard_boundKeys_insert ht.toRepresents.apart hbind hn value
  have hle := hacc.entries
  have hle' := hacc.elements
  constructor <;> omega

theorem Follows.deleteHashEntry_accounts (hf : Follows ops table past) (hacc : Accounts ops table past)
    (hd : deleteHashEntry ops table key = some (value,table')) : Accounts ops table' (.delete key :: past) := by
  obtain ⟨bs,ht,hbind⟩ := hf
  obtain ⟨found,hsearch,hvalue⟩ := ht.searchBucket_spec key
  rw [hbind] at hvalue
  cases found with
  | none =>
    rw [ht.deleteHashEntry_missing hsearch] at hd
    obtain ⟨-,rfl⟩ := Prod.mk.inj (Option.some.inj hd)
    have hsame : boundKeys ops (.delete key :: past) = boundKeys ops past := by
      apply boundKeys_congr
      intro k
      rw [latest,← hbind,← bindingOf_unbound ((hbind key).trans hvalue.symm)]
    exact ⟨hsame ▸ hacc.entries,hacc.elements⟩
  | some x =>
    obtain ⟨xs,ys,node,head,l,r,s,rfl,rfl⟩ := ht.toRepresents.slot_of_search hsearch
    obtain ⟨hentries,helements⟩ := ht.deleteHashEntry_effect rfl hsearch hd
    have hkeys := ncard_boundKeys_delete ht.toRepresents.apart hbind hvalue.symm
    have hle := hacc.entries
    have hle' := hacc.elements
    constructor <;> omega

theorem Follows.insertHashEntry_accounts (hf : Follows ops table past) (hacc : Accounts ops table past)
    {old : Option V} (hi : insertHashEntry ops table key value = some (old,table')) :
    Accounts ops table' (.insert key value :: past) := by
  obtain ⟨found,hsearch,hvalue⟩ := hf.showsHistory.entries key
  simp only [insertHashEntry,hsearch,Option.bind_eq_bind,Option.bind_some,Option.pure_def] at hi
  cases found with
  | none =>
    simp only [Option.bind_eq_some_iff,Option.some.injEq,Prod.mk.injEq] at hi
    obtain ⟨_,hadd,-,rfl⟩ := hi
    exact hf.addEntry_accounts hacc hvalue.symm hadd
  | some x =>
    simp only [Option.bind_eq_some_iff,Option.some.injEq,Prod.mk.injEq] at hi
    obtain ⟨⟨deleted,table₁⟩,hdelete,_,hadd,-,rfl⟩ := hi
    have hacc₁ := hf.deleteHashEntry_accounts hacc hdelete
    obtain ⟨table₂,hdelete',hf₁⟩ := hf.step (.delete key)
    obtain ⟨-,rfl⟩ := Prod.mk.inj (Option.some.inj (hdelete.symm.trans hdelete'))
    have hgone : latest ops (.delete key :: past) key = none := if_pos (ops.compare_refl key)
    have hacc₂ := hf₁.addEntry_accounts hacc₁ hgone hadd
    have hsame := boundKeys_congr (@latest_insert_delete _ _ ops past key value)
    exact ⟨hsame ▸ hacc₂.entries,hacc₂.elements⟩

/-- Step lemma: no call leaves an allocation behind. -/
theorem Follows.call_accounts (hf : Follows ops table past) (hacc : Accounts ops table past)
    (call : TableCall K V) {result : Option V} (hc : call.run ops table = some (result,table')) :
    Accounts ops table' (call :: past) := by
  cases call with
  | insert key value => exact hf.insertHashEntry_accounts hacc hc
  | delete key => exact hf.deleteHashEntry_accounts hacc hc
  | lookup key =>
    obtain ⟨value,-,heq⟩ := Option.map_eq_some_iff.mp hc
    obtain ⟨-,rfl⟩ := Prod.mk.inj heq
    exact ⟨hacc.entries,hacc.elements⟩

theorem createHashWithSize_accounts (ops : KeyOps K) (size : ℕ+) :
    Accounts ops (createHashWithSize K V size) [] := by
  have hone : (createHashWithSize K V size).elements.live.card = 1 := card_live_alloc _ _
  constructor
  · exact Nat.zero_le _
  · omega

theorem Follows.runCalls_accounts (hf : Follows ops table past) (hacc : Accounts ops table past)
    (calls : List (TableCall K V)) (hc : Table.runCalls ops table calls = some table') :
    Accounts ops table' (calls.reverse++past) := by
  induction calls generalizing table past with
  | nil =>
    obtain rfl := Option.some.inj hc
    exact hacc
  | cons call calls ih =>
    obtain ⟨⟨result,table₁⟩,hfirst,hrest⟩ := Option.bind_eq_some_iff.mp hc
    obtain ⟨table₂,hstep,hf₁⟩ := hf.step call
    obtain ⟨-,rfl⟩ := Prod.mk.inj (Option.some.inj (hfirst.symm.trans hstep))
    have htail := ih hf₁ (hf.call_accounts hacc call hfirst) hrest
    simpa using htail

/-- What a table has allocated after the given calls. -/
structure MemoryInUse (ops : KeyOps K) (table : HashTable K V n) (past : List (TableCall K V)) : Prop where
  entries : table.entries.live.card = (boundKeys ops past).ncard
  elements : table.elements.live.card = 1+2*table.bucketsInUse.card+(boundKeys ops past).ncard
  buckets : ∀ i, i ∈ table.bucketsInUse ↔ ∃ k, (latest ops past k).isSome ∧ getBucketIndex ops n k = i

/-- A bucket is in use as long as a key of it is bound. -/
theorem Tidy.mem_bucketsInUse_iff (ht : Tidy ops table bs)
    (hbind : ∀ k, bindingOf ops (bindings bs) k = latest ops past k) (i : Fin n) :
    i ∈ table.bucketsInUse ↔ ∃ k, (latest ops past k).isSome ∧ getBucketIndex ops n k = i := by
  rw [ht.toRepresents.bucketsInUse_eq,List.mem_toFinset]
  constructor
  · intro hi
    obtain ⟨b,hb,rfl⟩ := List.mem_map.mp hi
    obtain ⟨s,hs⟩ := List.exists_mem_of_ne_nil _ (ht.occupied b hb)
    refine ⟨s.entry.key,?_,(ht.holds b hb).hashed s hs⟩
    rw [← hbind,Option.isSome_iff_ne_none]
    intro hnone
    have hmem : s.binding ∈ bindings bs := List.mem_flatMap.mpr ⟨b,hb,List.mem_map_of_mem hs⟩
    have hself := bindingOf_eq_none_iff.mp hnone _ hmem
    rw [Slot.binding,ops.compare_refl] at hself
    cases hself
  · intro hk
    obtain ⟨k,hbound,rfl⟩ := hk
    by_contra hi
    have hnone : bindingOf ops (bindings bs) k = none := by
      apply @bindingOf_elsewhere _ _ _ _ table
      intro c hc
      refine ⟨ht.holds c hc,?_⟩
      intro h
      exact hi (h ▸ List.mem_map_of_mem hc)
    rw [← hbind,hnone] at hbound
    cases hbound

/-- Everything listed is live and everything live is listed, so nothing is lost and nothing is freed twice. -/
theorem Follows.memoryInUse (hf : Follows ops table past) (hacc : Accounts ops table past) :
    MemoryInUse ops table past := by
  obtain ⟨bs,ht,hbind⟩ := hf
  have hr := ht.toRepresents
  have hkeys := ncard_boundKeys hr.apart hbind
  have hentries := length_le_card_live hr.nodup_listedEntries hr.live_listedEntries
  have helements := length_le_card_live hr.nodup_listedElements hr.live_listedElements
  have hbuckets := hr.card_bucketsInUse
  have hle := hacc.entries
  have hle' := hacc.elements
  rw [length_listedEntries] at hentries
  rw [length_listedElements] at helements
  refine ⟨?_,?_,ht.mem_bucketsInUse_iff hbind⟩
  · omega
  · omega

/-- After every run a table has allocated what the keys bound in it need, and nothing else. -/
theorem runCalls_memoryInUse (ops : KeyOps K) (size : ℕ+) (calls : List (TableCall K V)) :
    ∃ table, runCalls ops (createHashWithSize K V size) calls = some table ∧
      MemoryInUse ops table calls.reverse := by
  obtain ⟨table,hruns,hf⟩ := runCalls_follows ops size calls
  have hacc := (createHashWithSize_follows ops size).runCalls_accounts (createHashWithSize_accounts ops size) calls hruns
  rw [List.append_nil] at hacc
  exact ⟨table,hruns,hf.memoryInUse hacc⟩

end Runs
end OpenFlowController.Table
