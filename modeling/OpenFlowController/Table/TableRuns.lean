import OpenFlowController.Table.TableSteps

/-! # Whole runs of a hash table

A run is judged against the calls made so far, the latest one first. The counter
of a table is a 32-bit number, so it only counts modulo its width.
-/
namespace OpenFlowController.Table
open Memory

variable {K V : Type} {n : ℕ+} {ops : KeyOps K} {table : HashTable K V n} {bs : List (Bucket K V n)}

structure Tidy (ops : KeyOps K) (table : HashTable K V n) (bs : List (Bucket K V n)) : Prop
    extends Represents ops table bs where
  occupied : ∀ b ∈ bs, b.slots ≠ []

theorem createHashWithSize_tidy : Tidy ops (createHashWithSize K V n) [] where
  listed := (Dlist.createDlist_spec _).1
  distinct := List.nodup_nil
  installed := by simp
  absent _ _ := rfl
  holds := by simp
  counted := rfl
  occupied := by simp

theorem Tidy.lookupHashEntry_eq (ht : Tidy ops table bs) (key : K) :
    lookupHashEntry ops table key = some (bindingOf ops (bindings bs) key).join := by
  obtain ⟨found,heq,hvalue⟩ := ht.searchBucket_spec key
  rw [← hvalue]
  cases found with
  | none => simp [lookupHashEntry,heq]
  | some x => simp [lookupHashEntry,heq]

/-- A bucket is kept as long as it has slots. -/
def Bucket.remaining (b : Bucket K V n) : List (Bucket K V n) := if b.slots.isEmpty then [] else [b]

@[simp] theorem bindings_remaining (b : Bucket K V n) : bindings b.remaining = b.slots.map Slot.binding := by
  unfold Bucket.remaining
  split
  · rename_i h
    rw [List.isEmpty_iff.mp h]
    rfl
  · simp [bindings]

theorem Tidy.deleteHashEntry_slot {xs ys : List (Bucket K V n)} {i : Fin n} {node head : ℕ}
    {l r : List (Slot K V)} {s : Slot K V} {key : K}
    (ht : Tidy ops table (xs++⟨i,node,head,l++s :: r⟩ :: ys)) (hi : getBucketIndex ops n key = i)
    (hf : searchBucket ops table key = some (some (s.element,s.address,s.entry))) :
    ∃ table', deleteHashEntry ops table key = some (s.entry.value,table') ∧
      Tidy ops table' (xs++Bucket.remaining ⟨i,node,head,l++r⟩++ys) := by
  have hhead := ht.installed _ (List.mem_append_right xs List.mem_cons_self)
  obtain ⟨elements,entries,hdelete,hfree,hr⟩ := ht.toRepresents.removeSlot
  have hload := hr.middle.listed.linked.1
  have hothers : ∀ c ∈ xs++ys, c.slots ≠ [] := (forall_middle.mp ht.occupied).2
  rw [Option.or_none] at hload
  cases hlr : l++r with
  | nil =>
    obtain ⟨elements',hbucket,hr'⟩ := hr.deleteBucket hlr
    refine ⟨_,?_,by simpa [Bucket.remaining] using ⟨hr',hothers⟩⟩
    simp only [hlr,List.map_nil,addresses,List.head?_nil] at hload
    simp [deleteHashEntry,hi,hhead,hf,hdelete,hfree,hload,hbucket]
  | cons t rest =>
    rw [hlr] at hr
    refine ⟨_,?_,by simpa [Bucket.remaining] using ⟨hr,forall_middle.mpr ⟨List.cons_ne_nil t rest,hothers⟩⟩⟩
    simp only [hlr,List.map_cons,addresses,List.head?_cons] at hload
    simp [deleteHashEntry,hi,hhead,hf,hdelete,hfree,hload]

theorem Tidy.deleteHashEntry_found {xs ys : List (Bucket K V n)} {i : Fin n} {node head : ℕ}
    {l r : List (Slot K V)} {s : Slot K V} {key : K}
    (ht : Tidy ops table (xs++⟨i,node,head,l++s :: r⟩ :: ys)) (hi : getBucketIndex ops n key = i)
    (hf : searchBucket ops table key = some (some (s.element,s.address,s.entry))) :
    ∃ table' bs', deleteHashEntry ops table key = some (s.entry.value,table') ∧ Tidy ops table' bs' ∧
      bindings bs' = bindings (xs++⟨i,node,head,l++r⟩ :: ys) := by
  obtain ⟨table',heq,ht'⟩ := ht.deleteHashEntry_slot hi hf
  exact ⟨table',_,heq,ht',by simp⟩

theorem Tidy.deleteHashEntry_missing (ht : Tidy ops table bs) {key : K}
    (hf : searchBucket ops table key = some none) : deleteHashEntry ops table key = some (none,table) := by
  by_cases hi : getBucketIndex ops n key ∈ bs.map Bucket.index
  · obtain ⟨b,hb,hbi⟩ := List.mem_map.mp hi
    have hhead := ht.installed b hb
    have hload := (ht.holds b hb).listed.linked.1
    rw [Option.or_none] at hload
    cases hslots : b.slots with
    | nil => exact absurd hslots (ht.occupied b hb)
    | cons t rest =>
      simp only [hslots,List.map_cons,addresses,List.head?_cons] at hload
      simp [deleteHashEntry,← hbi,hhead,hf,hload]
  · simp [deleteHashEntry,ht.absent _ hi]

theorem bindingOf_unbound {xs : List (K × Option V)} {key : K} (hn : bindingOf ops xs key = none) (k : K) :
    bindingOf ops xs k = if ops.compare k key then none else bindingOf ops xs k := by
  by_cases hk : ops.compare k key = true
  · rw [if_pos hk,bindingOf_congr hk,hn]
  · rw [if_neg hk]

theorem Tidy.deleteHashEntry_spec (ht : Tidy ops table bs) (key : K) :
    ∃ table' bs', deleteHashEntry ops table key = some ((bindingOf ops (bindings bs) key).join,table') ∧
      Tidy ops table' bs' ∧
      ∀ k, bindingOf ops (bindings bs') k = if ops.compare k key then none else bindingOf ops (bindings bs) k := by
  obtain ⟨found,hf,hvalue⟩ := ht.searchBucket_spec key
  cases found with
  | none =>
    have hnone : bindingOf ops (bindings bs) key = none := hvalue.symm
    refine ⟨table,bs,?_,ht,bindingOf_unbound hnone⟩
    rw [ht.deleteHashEntry_missing hf,hnone]
    rfl
  | some x =>
    have hi : getBucketIndex ops n key ∈ bs.map Bucket.index := by
      by_contra hi
      rw [searchBucket_absent ht.toRepresents hi] at hf
      cases hf
    obtain ⟨⟨i,node,head,slots⟩,hb,hbi⟩ := List.mem_map.mp hi
    obtain ⟨xs,ys,rfl⟩ := List.append_of_mem hb
    have hpresent := searchBucket_present ht.toRepresents hbi.symm
    rw [hf,Option.some.injEq] at hpresent
    obtain ⟨s,hfind,hx⟩ := Option.map_eq_some_iff.mp hpresent.symm
    obtain ⟨hs,l,r,hslots,-⟩ := List.find?_eq_some_iff_append.mp hfind
    simp only at hslots
    subst hslots hx
    obtain ⟨table',bs',heq,ht',hbs'⟩ := ht.deleteHashEntry_found hbi.symm hf
    have hsplit : bindings (xs++⟨i,node,head,l++s :: r⟩ :: ys) =
        (bindings xs++l.map Slot.binding)++s.binding :: (r.map Slot.binding++bindings ys) := by
      simp
    have happart := ht.toRepresents.apart
    refine ⟨table',bs',?_,ht',fun k => ?_⟩
    · rw [heq,← hvalue]
      rfl
    · have hserased : bindings (xs++⟨i,node,head,l++r⟩ :: ys) =
          (bindings xs++l.map Slot.binding)++(r.map Slot.binding++bindings ys) := by
        simp
      rw [hsplit] at happart
      rw [hbs',hserased,bindingOf_erase happart,← hsplit,ops.compare_comm k key,
        ops.compare_congr hs k,ops.compare_comm k]
      rfl

theorem Represents.entryAdded {xs ys : List (Bucket K V n)} {b : Bucket K V n} {key : K} (value : Option V)
    (hr : Represents ops table (xs++b :: ys)) (hi : getBucketIndex ops n key = b.index)
    (hn : bindingOf ops (bindings (xs++b :: ys)) key = none) (ho : ∀ c ∈ xs++ys, c.slots ≠ []) :
    ∃ elements bs', insertAfterDlist table.elements b.head (some (.hashEntry table.entries.next)) =
        some (table.elements.next,elements) ∧
      Tidy ops { table with elements, entries := table.entries.alloc ⟨key,value⟩, length := table.length+1 } bs' ∧
      ∀ k, bindingOf ops (bindings bs') k =
        if ops.compare k key then some value else bindingOf ops (bindings (xs++b :: ys)) k := by
  have hnew : ∀ s ∈ b.slots, ops.compare key s.entry.key = false := by
    intro s hs
    apply bindingOf_eq_none_iff.mp hn s.binding
    rw [bindings_append,bindings_cons]
    exact List.mem_append_right _ (List.mem_append_left _ (List.mem_map_of_mem hs))
  obtain ⟨elements,heq,hr'⟩ := hr.insertSlot value hi hnew
  refine ⟨elements,_,heq,⟨hr',?_⟩,fun k => ?_⟩
  · rw [forall_middle]
    exact ⟨List.cons_ne_nil _ _,ho⟩
  · have happart := hr'.apart
    have hsplit : bindings (xs++{ b with slots := ⟨table.elements.next,table.entries.next,⟨key,value⟩⟩ :: b.slots } ::
        ys) = bindings xs++(key,value) :: (b.slots.map Slot.binding++bindings ys) := by
      simp [Slot.binding]
    rw [hsplit] at happart
    rw [hsplit,bindingOf_middle happart,bindings_append,bindings_cons]

theorem Tidy.addEntry_spec (ht : Tidy ops table bs) {key : K} (value : Option V)
    (hn : bindingOf ops (bindings bs) key = none) :
    ∃ table' bs', addEntry ops table key value = some table' ∧ Tidy ops table' bs' ∧
      ∀ k, bindingOf ops (bindings bs') k =
        if ops.compare k key then some value else bindingOf ops (bindings bs) k := by
  by_cases hi : getBucketIndex ops n key ∈ bs.map Bucket.index
  · obtain ⟨b,hb,hbi⟩ := List.mem_map.mp hi
    obtain ⟨xs,ys,rfl⟩ := List.append_of_mem hb
    have hhead := ht.installed b hb
    obtain ⟨elements,bs',heq,ht',hbind⟩ :=
      ht.toRepresents.entryAdded value hbi.symm hn (forall_middle.mp ht.occupied).2
    exact ⟨_,bs',by simp [addEntry,← hbi,hhead,heq],ht',hbind⟩
  · obtain ⟨created,node,head,hcreate,hr⟩ := ht.toRepresents.newBucket hi
    have hempty : bindings ([]++⟨getBucketIndex ops n key,node,head,[]⟩ :: bs) = bindings bs := by simp
    rw [← hempty] at hn
    change Represents ops _ ([]++⟨getBucketIndex ops n key,node,head,[]⟩ :: bs) at hr
    obtain ⟨elements,bs',heq,ht',hbind⟩ := hr.entryAdded value rfl hn ht.occupied
    rw [hempty] at hbind
    refine ⟨_,bs',?_,ht',hbind⟩
    simp only at heq
    simp [addEntry,ht.absent _ hi,hcreate,heq]

/-- Step lemma: an insert binds its key and nothing else, and answers with what
the key was bound to. -/
theorem Tidy.insertHashEntry_spec (ht : Tidy ops table bs) (key : K) (value : Option V) :
    ∃ table' bs', insertHashEntry ops table key value =
        some ((bindingOf ops (bindings bs) key).join,table') ∧ Tidy ops table' bs' ∧
      ∀ k, bindingOf ops (bindings bs') k =
        if ops.compare k key then some value else bindingOf ops (bindings bs) k := by
  obtain ⟨found,hf,hvalue⟩ := ht.searchBucket_spec key
  cases found with
  | none =>
    have hnone : bindingOf ops (bindings bs) key = none := hvalue.symm
    obtain ⟨table',bs',heq,ht',hbind⟩ := ht.addEntry_spec value hnone
    refine ⟨table',bs',?_,ht',hbind⟩
    simp [insertHashEntry,hf,heq,hnone]
  | some x =>
    obtain ⟨table₁,bs₁,hdelete,ht₁,hbind₁⟩ := ht.deleteHashEntry_spec key
    have hnone : bindingOf ops (bindings bs₁) key = none := by
      rw [hbind₁,if_pos (ops.compare_refl key)]
    obtain ⟨table',bs',heq,ht',hbind⟩ := ht₁.addEntry_spec value hnone
    refine ⟨table',bs',?_,ht',fun k => ?_⟩
    · simp [insertHashEntry,hf,hdelete,heq,← hvalue]
    · rw [hbind,hbind₁]
      by_cases hk : ops.compare k key = true
      · rw [if_pos hk,if_pos hk]
      · rw [if_neg hk,if_neg hk,if_neg hk]

def TableCall.run (ops : KeyOps K) (table : HashTable K V n) :
    TableCall K V → Option (Option V × HashTable K V n)
  | .insert key value => insertHashEntry ops table key value
  | .delete key => deleteHashEntry ops table key
  | .lookup key => (lookupHashEntry ops table key).map (fun value => (value,table))

/-- What a table shows after the calls made so far: `lookup_hash_entry` answers
with the latest value, also for a key bound to NULL the table has an entry, and
`length` counts the bound keys as far as its width goes. -/
structure ShowsHistory (ops : KeyOps K) (table : HashTable K V n) (past : List (TableCall K V)) : Prop where
  lookups : ∀ k, lookupHashEntry ops table k = some (latest ops past k).join
  entries : ∀ k, ∃ found, searchBucket ops table k = some found ∧
    found.map (fun x => x.2.2.value) = latest ops past k
  length : table.length.toNat = (boundKeys ops past).ncard % UInt32.size

/-- Every call has a result, the result is what its key was bound to before, and
after every call the table shows the calls made so far. -/
def BehavesAsMap (ops : KeyOps K) : HashTable K V n → List (TableCall K V) → List (TableCall K V) → Prop
  | table, past, [] => ShowsHistory ops table past
  | table, past, call :: calls => ShowsHistory ops table past ∧ ∃ table',
    call.run ops table = some ((latest ops past call.key).join,table') ∧
    BehavesAsMap ops table' (call :: past) calls

def Follows (ops : KeyOps K) (table : HashTable K V n) (past : List (TableCall K V)) : Prop :=
  ∃ bs, Tidy ops table bs ∧ ∀ k, bindingOf ops (bindings bs) k = latest ops past k

theorem Follows.showsHistory {past : List (TableCall K V)} (hf : Follows ops table past) :
    ShowsHistory ops table past := by
  obtain ⟨bs,ht,hbind⟩ := hf
  refine ⟨fun k => ?_,fun k => ?_,?_⟩
  · rw [← hbind]
    exact ht.lookupHashEntry_eq k
  · rw [← hbind]
    exact ht.searchBucket_spec k
  · rw [ncard_boundKeys ht.toRepresents.apart hbind,ht.counted]
    rfl

theorem Follows.step {past : List (TableCall K V)} (hf : Follows ops table past) (call : TableCall K V) :
    ∃ table', call.run ops table = some ((latest ops past call.key).join,table') ∧
      Follows ops table' (call :: past) := by
  obtain ⟨bs,ht,hbind⟩ := hf
  rw [← hbind]
  cases call with
  | insert key value =>
    obtain ⟨table',bs',heq,ht',hbind'⟩ := ht.insertHashEntry_spec key value
    refine ⟨table',heq,bs',ht',fun k => ?_⟩
    rw [hbind',hbind]
    rfl
  | delete key =>
    obtain ⟨table',bs',heq,ht',hbind'⟩ := ht.deleteHashEntry_spec key
    refine ⟨table',heq,bs',ht',fun k => ?_⟩
    rw [hbind',hbind]
    rfl
  | lookup key =>
    refine ⟨table,?_,bs,ht,hbind⟩
    simp [TableCall.run,ht.lookupHashEntry_eq,TableCall.key]

theorem Follows.behavesAsMap {past : List (TableCall K V)} (hf : Follows ops table past)
    (calls : List (TableCall K V)) : BehavesAsMap ops table past calls := by
  induction calls generalizing table past with
  | nil => exact hf.showsHistory
  | cons call calls ih =>
    obtain ⟨table',heq,hf'⟩ := hf.step call
    exact ⟨hf.showsHistory,table',heq,ih hf'⟩

def runCalls (ops : KeyOps K) : HashTable K V n → List (TableCall K V) → Option (HashTable K V n)
  | table, [] => some table
  | table, call :: calls => do
    let (_,table) ← call.run ops table
    runCalls ops table calls

theorem Follows.runCalls {past : List (TableCall K V)} (hf : Follows ops table past)
    (calls : List (TableCall K V)) :
    ∃ table', Table.runCalls ops table calls = some table' ∧ Follows ops table' (calls.reverse++past) := by
  induction calls generalizing table past with
  | nil => exact ⟨table,rfl,hf⟩
  | cons call calls ih =>
    obtain ⟨table₁,heq,hf₁⟩ := hf.step call
    obtain ⟨table',hruns,hf'⟩ := ih hf₁
    refine ⟨table',?_,by simpa using hf'⟩
    simpa [Table.runCalls,heq] using hruns

theorem createHashWithSize_follows (ops : KeyOps K) (size : ℕ+) : Follows ops (createHashWithSize K V size) [] :=
  ⟨[],createHashWithSize_tidy,fun _ => rfl⟩

/-- Every run from an empty table comes back. -/
theorem runCalls_follows (ops : KeyOps K) (size : ℕ+) (calls : List (TableCall K V)) :
    ∃ table, runCalls ops (createHashWithSize K V size) calls = some table ∧ Follows ops table calls.reverse := by
  obtain ⟨table,hruns,hf⟩ := (createHashWithSize_follows ops size).runCalls calls
  rw [List.append_nil] at hf
  exact ⟨table,hruns,hf⟩

/-- A hash table is a finite map whose length is counted in 32 bits. -/
theorem createHashWithSize_behavesAsMap (ops : KeyOps K) (size : ℕ+) (calls : List (TableCall K V)) :
    BehavesAsMap ops (createHashWithSize K V size) [] calls :=
  (createHashWithSize_follows ops size).behavesAsMap calls

def pointerOps : KeyOps ℕ := atomOps (fun k => 16*(k+1))

@[simp] theorem pointerOps_compare (j k : ℕ) : pointerOps.compare j k = decide (j = k) := rfl

def insertedPointers : ℕ → List (TableCall ℕ Unit)
  | 0 => []
  | m+1 => .insert m none :: insertedPointers m

theorem latest_insertedPointers (m k : ℕ) :
    (latest pointerOps (insertedPointers m) k).isSome ↔ k < m := by
  induction m with
  | zero => simp [insertedPointers,latest]
  | succ m ih =>
    by_cases hk : k = m
    · simp [insertedPointers,latest,hk]
    · simp only [insertedPointers,latest,pointerOps_compare,decide_eq_true_eq,if_neg hk,ih]
      omega

theorem ncard_insertedPointers (m : ℕ) : (boundKeys pointerOps (insertedPointers m)).ncard = m := by
  have hinj : Function.Injective (Quotient.mk pointerOps.setoid) := by
    intro j k h
    have hjk : pointerOps.compare j k = true := Quotient.exact h
    simpa using hjk
  have hset : {k | (latest pointerOps (insertedPointers m) k).isSome} = (Finset.range m : Set ℕ) := by
    ext k
    simp [latest_insertedPointers]
  rw [boundKeys,Set.ncard_image_of_injective _ hinj,hset,Set.ncard_coe_finset,Finset.card_range]

/-- With as many pointers inserted as the counter has values, the length reads 0. -/
theorem length_wraps : ∃ table, runCalls pointerOps (createHashWithSize ℕ Unit 1)
      (insertedPointers UInt32.size).reverse = some table ∧
    table.length.toNat ≠ (boundKeys pointerOps (insertedPointers UInt32.size)).ncard := by
  obtain ⟨table,hruns,hf⟩ := runCalls_follows pointerOps 1 (insertedPointers UInt32.size).reverse
  refine ⟨table,hruns,?_⟩
  have hlength := hf.showsHistory.length
  rw [List.reverse_reverse,ncard_insertedPointers,Nat.mod_self] at hlength
  rw [hlength,ncard_insertedPointers]
  decide

end OpenFlowController.Table
