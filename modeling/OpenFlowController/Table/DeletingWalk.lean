import OpenFlowController.Table.Iteration

/-! # Deleting in the course of a walk

The callback of a walk may delete the entry it is called for. Both loops have their
next pointer by then: that of the entries the next element of the bucket, which is
there as long as the bucket is, and that of the buckets the node of another bucket.
-/
namespace OpenFlowController.Table
open Memory

section Operations
variable {K V : Type} {numberOfBuckets : ℕ+} (ops : KeyOps K) (deletes : K → Option V → Bool)

/-- The table after the loop, and the pairs the callback was called with. -/
def foreachEntryDeleting : ℕ → Option ℕ → HashTable K V numberOfBuckets → List (K × Option V) →
    Option (HashTable K V numberOfBuckets × List (K × Option V))
  | _, none, table, called => some (table,called)
  | 0, some _, _, _ => none
  | fuel+1, some e, table, called => do
    let element ← table.elements.load e
    match element.data with
    | some (.hashEntry a) => do
      let h ← table.entries.load a
      -- `e = e->next` comes before the callback
      let table ← if deletes h.key h.value then (deleteHashEntry ops table h.key).map Prod.snd else some table
      foreachEntryDeleting fuel element.next table (called++[(h.key,h.value)])
    | _ => none

def foreachBucketDeleting : ℕ → Option ℕ → HashTable K V numberOfBuckets → List (K × Option V) →
    Option (HashTable K V numberOfBuckets × List (K × Option V))
  | _, none, table, called => some (table,called)
  | 0, some _, _, _ => none
  | fuel+1, some nonempty, table, called => do
    let node ← table.elements.load nonempty
    match ← indexedBucket table node.data with
    | none => foreachBucketDeleting fuel node.next table called
    | some bucket => do
      let sentinel ← table.elements.load bucket
      let (table,called) ← foreachEntryDeleting ops deletes table.elements.next sentinel.next table called
      foreachBucketDeleting fuel node.next table called

def foreachHashDeleting (table : HashTable K V numberOfBuckets) :
    Option (HashTable K V numberOfBuckets × List (K × Option V)) := do
  let sentinel ← table.elements.load table.nonemptyBucketIndex
  foreachBucketDeleting ops deletes table.elements.next sentinel.next table []

end Operations

variable {K V : Type} {n : ℕ+} {ops : KeyOps K} {table : HashTable K V n} {b : Bucket K V n}
  {bs xs ys done rest : List (Bucket K V n)} {deletes : K → Option V → Bool}

def staysBound (deletes : K → Option V → Bool) (x : K × Option V) : Bool := !deletes x.1 x.2

/-- The pairs are the ones bound in the table, which counts them. -/
structure ShowsPairs (ops : KeyOps K) (table : HashTable K V n) (pairs : List (K × Option V)) : Prop where
  lookups : ∀ k, lookupHashEntry ops table k = some (bindingOf ops pairs k).join
  entries : ∀ k, ∃ found, searchBucket ops table k = some found ∧
    found.map (fun x => x.2.2.value) = bindingOf ops pairs k
  length : table.length = UInt32.ofNat pairs.length

/-- Whichever entries the callback deletes, it is called once for each pair bound
before, the walk comes back, and the other pairs are bound after it. -/
def ToleratesDeletion (ops : KeyOps K) (table : HashTable K V n) (past : List (TableCall K V)) : Prop :=
  ∃ pairs, ListsBindings ops past pairs ∧ ∀ deletes, ∃ table',
    foreachHashDeleting ops deletes table = some (table',pairs) ∧ ShowsPairs ops table' (pairs.filter (staysBound deletes))

theorem Tidy.showsPairs (ht : Tidy ops table bs) : ShowsPairs ops table (bindings bs) :=
  ⟨ht.lookupHashEntry_eq,ht.searchBucket_spec,ht.counted⟩

theorem Represents.searchBucket_slot {i : Fin n} {node head : ℕ} {l r : List (Slot K V)} {s : Slot K V}
    (hr : Represents ops table (xs++⟨i,node,head,l++s :: r⟩ :: ys)) :
    searchBucket ops table s.entry.key = some (some (s.element,s.address,s.entry)) := by
  have hb := hr.middle
  have hs : s ∈ l++s :: r := List.mem_append_right _ List.mem_cons_self
  have hbefore : l.find? (fun t => ops.compare s.entry.key t.entry.key) = none := by
    refine List.find?_eq_none.mpr (fun t ht => ?_)
    have hts := (List.pairwise_append.mp hb.apart).2.2 t ht s List.mem_cons_self
    rw [ops.compare_comm,hts]
    exact Bool.false_ne_true
  rw [searchBucket_present hr (hb.hashed s hs),List.find?_append,hbefore,Option.none_or]
  simp [ops.compare_refl]

theorem Represents.load_slot {i : Fin n} {node head : ℕ} {l r : List (Slot K V)} {s : Slot K V}
    (hr : Represents ops table (xs++⟨i,node,head,l++s :: r⟩ :: ys)) :
    ∃ prev, table.elements.load s.element =
      some ⟨some (.hashEntry s.address),prev,(addresses (r.map (Slot.cell n))).head?⟩ := by
  have hl := hr.middle.listed
  have hcells : (⟨i,node,head,l++s :: r⟩ : Bucket K V n).cells =
      ((head,some (.indexNode node)) :: l.map (Slot.cell n))++Slot.cell n s :: r.map (Slot.cell n) := by
    simp [Bucket.cells]
  rw [hcells] at hl
  exact ⟨_,hl.load_at⟩

/-- What is left of a bucket and what is to come of it are one list at every call. -/
theorem Tidy.foreachEntryDeleting_spec {i : Fin n} {node head fuel : ℕ} {kept slots : List (Slot K V)}
    (ht : Tidy ops table (xs++⟨i,node,head,kept++slots⟩ :: ys)) (hf : slots.length ≤ fuel)
    (called : List (K × Option V)) :
    ∃ table', foreachEntryDeleting ops deletes fuel (addresses (slots.map (Slot.cell n))).head? table called =
        some (table',called++slots.map Slot.binding) ∧
      Tidy ops table' (xs++Bucket.remaining ⟨i,node,head,kept++slots.filter (fun s => staysBound deletes s.binding)⟩++ys) := by
  induction slots generalizing kept table fuel called with
  | nil =>
    have hne : kept++[] ≠ [] := ht.occupied _ (List.mem_append_right xs List.mem_cons_self)
    refine ⟨table,by cases fuel <;> simp [foreachEntryDeleting],?_⟩
    rw [List.append_nil] at hne
    simpa [Bucket.remaining,hne] using ht
  | cons s slots ih =>
    obtain ⟨fuel,rfl⟩ := Nat.exists_eq_succ_of_ne_zero (Nat.ne_zero_of_lt hf)
    have hs : s ∈ kept++s :: slots := List.mem_append_right _ List.mem_cons_self
    have hload := ht.middle.stored s hs
    have hindex := ht.middle.hashed s hs
    obtain ⟨prev,helement⟩ := ht.toRepresents.load_slot
    have hf' : slots.length ≤ fuel := Nat.le_of_succ_le_succ hf
    cases hdelete : deletes s.entry.key s.entry.value with
    | false =>
      have hnext : Tidy ops table (xs++⟨i,node,head,(kept++[s])++slots⟩ :: ys) := by simpa using ht
      obtain ⟨table',hrun,ht'⟩ := ih hnext hf' (called++[s.binding])
      refine ⟨table',?_,?_⟩
      · simpa [foreachEntryDeleting,Slot.cell,helement,hload,hdelete,Slot.binding] using hrun
      · simpa [staysBound,Slot.binding,hdelete] using ht'
    | true =>
      obtain ⟨table₁,heq,ht₁⟩ := ht.deleteHashEntry_slot hindex ht.toRepresents.searchBucket_slot
      have hstep : foreachEntryDeleting ops deletes (fuel+1) (addresses ((s :: slots).map (Slot.cell n))).head? table called =
          foreachEntryDeleting ops deletes fuel (addresses (slots.map (Slot.cell n))).head? table₁ (called++[s.binding]) := by
        simp [foreachEntryDeleting,Slot.cell,helement,hload,hdelete,heq,Slot.binding]
      have hfilter : (s :: slots).filter (fun s => staysBound deletes s.binding) =
          slots.filter (fun s => staysBound deletes s.binding) := by
        simp [staysBound,Slot.binding,hdelete]
      rw [hstep,hfilter]
      cases hleft : kept++slots with
      | nil =>
        -- it was the last one: the bucket is gone, and so is the loop over it
        obtain ⟨rfl,rfl⟩ := List.append_eq_nil_iff.mp hleft
        exact ⟨table₁,by cases fuel <;> rfl,ht₁⟩
      | cons t left =>
        have hnext : Tidy ops table₁ (xs++⟨i,node,head,kept++slots⟩ :: ys) := by
          simpa [Bucket.remaining,hleft] using ht₁
        obtain ⟨table',hrun,ht'⟩ := ih hnext hf' (called++[s.binding])
        exact ⟨table',by simpa using hrun,ht'⟩

theorem Represents.load_node (hr : Represents ops table (xs++b :: ys)) :
    ∃ prev, table.elements.load b.node =
      some ⟨some (.bucketIndex b.index),prev,(addresses (ys.map Bucket.indexCell)).head?⟩ := by
  have hl := hr.listed
  have hcells : indexCells table.nonemptyBucketIndex (xs++b :: ys) =
      ((table.nonemptyBucketIndex,none) :: xs.map Bucket.indexCell)++b.indexCell :: ys.map Bucket.indexCell := by
    simp [indexCells]
  rw [hcells] at hl
  exact ⟨_,hl.load_at⟩

/-- One bucket. The node behind it belongs to another one and stays. -/
theorem Tidy.foreachBucketDeleting_cons (ht : Tidy ops table (done++b :: rest)) (hi : IndexFits b.index) (fuel : ℕ)
    (called : List (K × Option V)) :
    ∃ table', foreachBucketDeleting ops deletes (fuel+1) (addresses ((b :: rest).map Bucket.indexCell)).head? table called =
        foreachBucketDeleting ops deletes fuel (addresses (rest.map Bucket.indexCell)).head? table'
          (called++b.slots.map Slot.binding) ∧
      Tidy ops table' ((done++Bucket.remaining
        ⟨b.index,b.node,b.head,b.slots.filter (fun s => staysBound deletes s.binding)⟩)++rest) := by
  obtain ⟨i,node,head,slots⟩ := b
  have hmem : (⟨i,node,head,slots⟩ : Bucket K V n) ∈ done++⟨i,node,head,slots⟩ :: rest :=
    List.mem_append_right _ List.mem_cons_self
  obtain ⟨prev,hnode⟩ := ht.toRepresents.load_node
  have hbucket := indexedBucket_fits table hi
  rw [ht.installed _ hmem] at hbucket
  have hstart : Tidy ops table (done++⟨i,node,head,[]++slots⟩ :: rest) := ht
  obtain ⟨table',hrun,ht'⟩ :=
    hstart.foreachEntryDeleting_spec (ht.toRepresents.slots_length_le hmem) called
  refine ⟨table',?_,ht'⟩
  change foreachBucketDeleting ops deletes (fuel+1) (some node) table called = _
  simp only [foreachBucketDeleting,hnode,hbucket,ht.toRepresents.load_sentinel hmem,hrun,Option.bind_eq_bind,
    Option.bind_some]

theorem Tidy.foreachBucketDeleting_spec {fuel : ℕ} (ht : Tidy ops table (done++rest)) (hi : ∀ b ∈ rest, IndexFits b.index)
    (hf : rest.length ≤ fuel) (called : List (K × Option V)) :
    ∃ table' left, foreachBucketDeleting ops deletes fuel (addresses (rest.map Bucket.indexCell)).head? table called =
        some (table',called++bindings rest) ∧
      Tidy ops table' (done++left) ∧ bindings left = (bindings rest).filter (staysBound deletes) := by
  induction rest generalizing done table fuel called with
  | nil => exact ⟨table,[],by cases fuel <;> simp [foreachBucketDeleting,bindings],ht,rfl⟩
  | cons b rest ih =>
    obtain ⟨fuel,rfl⟩ := Nat.exists_eq_succ_of_ne_zero (Nat.ne_zero_of_lt hf)
    obtain ⟨table₁,hstep,ht₁⟩ := ht.foreachBucketDeleting_cons (hi b List.mem_cons_self) fuel called
    obtain ⟨table',left,hrun,ht',hleft⟩ := ih ht₁ (fun c hc => hi c (List.mem_cons_of_mem _ hc))
      (Nat.le_of_succ_le_succ hf) (called++b.slots.map Slot.binding)
    refine ⟨table',_,?_,by rwa [List.append_assoc] at ht',?_⟩
    · rw [hstep,hrun,bindings_cons,List.append_assoc]
    · rw [bindings_append,bindings_remaining,hleft,bindings_cons,List.filter_append,List.filter_map]
      rfl

/-- Whatever is deleted on the way, an index that comes out negative is the end. -/
theorem Tidy.foreachBucketDeleting_negative {fuel : ℕ} (ht : Tidy ops table (done++rest))
    (hn : ¬ ∀ b ∈ rest, IndexFits b.index) (called : List (K × Option V)) :
    foreachBucketDeleting ops deletes fuel (addresses (rest.map Bucket.indexCell)).head? table called = none := by
  induction rest generalizing done table fuel called with
  | nil => exact absurd (by simp) hn
  | cons b rest ih =>
    cases fuel with
    | zero => rfl
    | succ fuel =>
      by_cases hi : IndexFits b.index
      · obtain ⟨table₁,hstep,ht₁⟩ := ht.foreachBucketDeleting_cons hi fuel called
        rw [hstep]
        refine ih ht₁ (fun h => ?_) _
        exact hn (List.forall_mem_cons.mpr ⟨hi,h⟩)
      · obtain ⟨prev,hnode⟩ := ht.toRepresents.load_node
        have hbucket := indexedBucket_negative table hi (ht.index_lt (List.mem_append_right _ List.mem_cons_self))
        change foreachBucketDeleting ops deletes (fuel+1) (some b.node) table called = none
        simp only [foreachBucketDeleting,hnode,hbucket,Option.bind_eq_bind,Option.bind_some,Option.bind_none]

theorem Tidy.foreachHashDeleting_eq (ht : Tidy ops table bs) : foreachHashDeleting ops deletes table =
    foreachBucketDeleting ops deletes table.elements.next (addresses (bs.map Bucket.indexCell)).head? table [] := by
  have hc := ht.listed.linked.1
  rw [Option.or_none] at hc
  simp only [foreachHashDeleting,hc,Option.bind_eq_bind,Option.bind_some]

theorem Tidy.toleratesDeletion_iff {past : List (TableCall K V)} (ht : Tidy ops table bs)
    (hbind : ∀ k, bindingOf ops (bindings bs) k = latest ops past k) :
    ToleratesDeletion ops table past ↔ ∀ b ∈ bs, IndexFits b.index := by
  have hstart : Tidy ops table ([]++bs) := ht
  constructor
  · rintro ⟨pairs,-,hwalk⟩
    by_contra hn
    obtain ⟨table',hrun,-⟩ := hwalk (fun _ _ => false)
    rw [ht.foreachHashDeleting_eq,hstart.foreachBucketDeleting_negative hn] at hrun
    cases hrun
  · intro hi
    refine ⟨bindings bs,⟨ht.toRepresents.apart,hbind⟩,fun deletes => ?_⟩
    obtain ⟨table',left,hrun,ht',hleft⟩ :=
      hstart.foreachBucketDeleting_spec hi (Nat.le_of_lt ht.toRepresents.buckets_length_lt) []
    refine ⟨table',ht.foreachHashDeleting_eq.trans hrun,?_⟩
    rw [← hleft]
    exact Tidy.showsPairs ht'

theorem Follows.toleratesDeletion_iff {past : List (TableCall K V)} (hf : Follows ops table past) :
    ToleratesDeletion ops table past ↔ IndexesFit ops n past := by
  obtain ⟨bs,ht,hbind⟩ := hf
  rw [ht.toleratesDeletion_iff hbind,ht.indexesFit_iff hbind]

/-- After any run a walk may delete what it is called for, as long as the indices in use
fit an `int`. -/
theorem runCalls_toleratesDeletion_iff (ops : KeyOps K) (size : ℕ+) (calls : List (TableCall K V)) :
    ∃ table, runCalls ops (createHashWithSize K V size) calls = some table ∧
      (ToleratesDeletion ops table calls.reverse ↔ IndexesFit ops size calls.reverse) := by
  obtain ⟨table,hruns,hf⟩ := runCalls_follows ops size calls
  exact ⟨table,hruns,hf.toleratesDeletion_iff⟩

/-- One pointer, 2^33, in a table of 2^31+1 buckets: the walk leaves the array before
the callback is called. -/
theorem deletingWalk_negative_index : ∃ table,
    runCalls (atomOps (fun p : ℕ => p)) (createHashWithSize ℕ Unit 2147483649) [.insert 8589934592 none] = some table ∧
      ¬ ToleratesDeletion (atomOps (fun p : ℕ => p)) table [.insert 8589934592 none] := by
  obtain ⟨table,hruns,hf⟩ := runCalls_follows (atomOps (fun p : ℕ => p)) 2147483649 [.insert 8589934592 none]
  refine ⟨table,hruns,fun hw => ?_⟩
  exact not_indexesFit_insert (hf.toleratesDeletion_iff.mp hw)

end OpenFlowController.Table
