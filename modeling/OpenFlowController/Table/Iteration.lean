import OpenFlowController.Table.TableRuns

/-! # Walking a table

Both walks follow the list of non-empty buckets and read each index as an `int`, so
that an index from 2^31 on comes out negative and names no bucket. The iterator is
as good as the table it was made for, which does not change under it.
-/
namespace OpenFlowController.Table
open Memory

structure HashIterator where
  bucketIndex : Option ℕ
  nextBucketIndex : Option ℕ
  element : Option ℕ

section Operations
variable {K V U : Type} {numberOfBuckets : ℕ+}

/-- `( int ) ( unsigned long ) data` -/
def intIndex (i : Fin numberOfBuckets) : ℤ :=
  if i.val < 2147483648 then (i.val : ℤ) else (i.val : ℤ)-4294967296

/-- `buckets[ i ]`, read inside the array only. -/
def bucketAt (table : HashTable K V numberOfBuckets) (i : ℤ) : Option (Option ℕ) :=
  if h : 0 ≤ i ∧ i.toNat < numberOfBuckets then some (table.buckets ⟨i.toNat,h.2⟩) else none

def indexedBucket (table : HashTable K V numberOfBuckets) (data : Option (TableData numberOfBuckets)) :
    Option (Option ℕ) :=
  match data with
  | some (.bucketIndex i) => bucketAt table (intIndex i)
  | _ => none

def foreachEntry (table : HashTable K V numberOfBuckets) (function : K → Option V → U → U) :
    ℕ → Option ℕ → U → Option U
  | _, none, userData => some userData
  | 0, some _, _ => none
  | fuel+1, some e, userData => do
    let element ← table.elements.load e
    match element.data with
    | some (.hashEntry a) => do
      let h ← table.entries.load a
      foreachEntry table function fuel element.next (function h.key h.value userData)
    | _ => none

/-- The callback works on `userData` and leaves the table alone. -/
def foreachBucket (table : HashTable K V numberOfBuckets) (function : K → Option V → U → U) :
    ℕ → Option ℕ → U → Option U
  | _, none, userData => some userData
  | 0, some _, _ => none
  | fuel+1, some nonempty, userData => do
    let node ← table.elements.load nonempty
    match ← indexedBucket table node.data with
    | none => foreachBucket table function fuel node.next userData
    | some bucket => do
      let sentinel ← table.elements.load bucket
      let userData ← foreachEntry table function table.elements.next sentinel.next userData
      foreachBucket table function fuel node.next userData

def foreachHash (table : HashTable K V numberOfBuckets) (function : K → Option V → U → U) (userData : U) :
    Option U := do
  let sentinel ← table.elements.load table.nonemptyBucketIndex
  foreachBucket table function table.elements.next sentinel.next userData

/-- The iterator at the first entry of a bucket; the bucket is asserted not to be NULL. -/
def enterBucket (table : HashTable K V numberOfBuckets) (bucketIndex : ℕ) : Option HashIterator := do
  let node ← table.elements.load bucketIndex
  let bucket ← (← indexedBucket table node.data)
  let sentinel ← table.elements.load bucket
  return ⟨some bucketIndex,node.next,sentinel.next⟩

/-- An empty table leaves `next_bucket_index` as it was. -/
def initHashIterator (table : HashTable K V numberOfBuckets) (iterator : HashIterator) : Option HashIterator := do
  let sentinel ← table.elements.load table.nonemptyBucketIndex
  match sentinel.next with
  | some bucketIndex => enterBucket table bucketIndex
  | none => return { iterator with bucketIndex := none, element := none }

/-- The address of the entry, and the iterator afterwards. -/
def iterateHashNext (table : HashTable K V numberOfBuckets) : ℕ → HashIterator → Option (Option ℕ × HashIterator)
  | 0, _ => none
  | fuel+1, iterator =>
    match iterator.bucketIndex, iterator.element, iterator.nextBucketIndex with
    | none, _, _ => some (none,iterator)
    | some _, none, none => some (none,iterator)
    | some _, none, some next => do
      let iterator ← enterBucket table next
      iterateHashNext table fuel iterator
    | some _, some e, _ => do
      let element ← table.elements.load e
      match element.data with
      | some (.hashEntry a) => return (some a,{ iterator with element := element.next })
      | _ => none

/-- What the entries returned by so many calls hold. -/
def iterateTimes (table : HashTable K V numberOfBuckets) :
    ℕ → HashIterator → Option (List (Option (K × Option V)))
  | 0, _ => some []
  | m+1, iterator => do
    let (found,iterator) ← iterateHashNext table table.elements.next iterator
    let held ← match found with
      | none => pure none
      | some a => do
        let h ← table.entries.load a
        pure (some (h.key,h.value))
    let rest ← iterateTimes table m iterator
    return held :: rest

end Operations

variable {K V : Type} {n : ℕ+} {ops : KeyOps K} {table : HashTable K V n} {b : Bucket K V n}
  {bs : List (Bucket K V n)}

def IndexFits (i : Fin n) : Prop := i.val < 2147483648

/-- One pair for each bound key. -/
def ListsBindings (ops : KeyOps K) (past : List (TableCall K V)) (pairs : List (K × Option V)) : Prop :=
  Apart ops pairs ∧ ∀ k, bindingOf ops pairs k = latest ops past k

/-- Both walks go through the same pairs in one order, and the iterator then answers
with NULL for ever. -/
def WalksOnce (ops : KeyOps K) (table : HashTable K V n) (past : List (TableCall K V)) : Prop :=
  ∃ pairs, ListsBindings ops past pairs ∧
    (∀ (U : Type) (function : K → Option V → U → U) (userData : U), foreachHash table function userData =
      some (pairs.foldl (fun userData x => function x.1 x.2 userData) userData)) ∧
    ∀ uninitialized m, ∃ iterator, initHashIterator table uninitialized = some iterator ∧
      iterateTimes table m iterator = some ((List.range m).map (fun i => pairs[i]?))

theorem getBucketIndex_lt (ops : KeyOps K) (n : ℕ+) (key : K) : (getBucketIndex ops n key).val < 4294967296 :=
  Nat.lt_of_le_of_lt (Nat.mod_le _ _) (ops.hash key).toNat_lt

theorem Tidy.index_lt (ht : Tidy ops table bs) (hb : b ∈ bs) : b.index.val < 4294967296 := by
  obtain ⟨s,hs⟩ := List.exists_mem_of_ne_nil _ (ht.occupied b hb)
  rw [← (ht.holds b hb).hashed s hs]
  exact getBucketIndex_lt ops n _

theorem bucketAt_natCast (table : HashTable K V n) (i : Fin n) : bucketAt table (i.val : ℤ) = some (table.buckets i) := by
  simp [bucketAt]

theorem indexedBucket_fits (table : HashTable K V n) {i : Fin n} (hi : IndexFits i) :
    indexedBucket table (some (.bucketIndex i)) = some (table.buckets i) := by
  have hlt : i.val < 2147483648 := hi
  rw [indexedBucket,intIndex,if_pos hlt,bucketAt_natCast]

theorem indexedBucket_negative (table : HashTable K V n) {i : Fin n} (hi : ¬ IndexFits i)
    (hlt : i.val < 4294967296) : indexedBucket table (some (.bucketIndex i)) = none := by
  have hge : ¬ i.val < 2147483648 := hi
  have hneg : ¬ (0 ≤ (i.val : ℤ)-4294967296 ∧ ((i.val : ℤ)-4294967296).toNat < n) := by omega
  rw [indexedBucket,intIndex,if_neg hge,bucketAt,dif_neg hneg]

/-- The callback gets the entries of a bucket in order. -/
theorem foreachEntry_spec {U : Type} (function : K → Option V → U → U) {slots : List (Slot K V)}
    {before : Option ℕ} {fuel : ℕ} (hl : Linked table.elements before (slots.map (Slot.cell n)) none)
    (hs : ∀ s ∈ slots, table.entries.load s.address = some s.entry) (hf : slots.length ≤ fuel) (userData : U) :
    foreachEntry table function fuel (addresses (slots.map (Slot.cell n))).head? userData =
      some ((slots.map Slot.binding).foldl (fun userData x => function x.1 x.2 userData) userData) := by
  induction slots generalizing before fuel userData with
  | nil => cases fuel <;> rfl
  | cons s slots ih =>
    obtain ⟨hc,hr⟩ := hl
    cases fuel with
    | zero => simp at hf
    | succ fuel =>
      have hload := hs s List.mem_cons_self
      have htail := ih hr (fun t ht => hs t (List.mem_cons_of_mem _ ht)) (Nat.le_of_succ_le_succ hf)
      rw [Option.or_none] at hc
      simpa [foreachEntry,Slot.cell,hc,hload,Slot.binding] using htail _

section Buckets
variable (hr : Represents ops table bs)
include hr

theorem Represents.load_sentinel (hb : b ∈ bs) : table.elements.load b.head =
    some ⟨some (.indexNode b.node),none,(addresses (b.slots.map (Slot.cell n))).head?⟩ := by
  have hc := (hr.holds b hb).listed.linked.1
  rwa [Option.or_none] at hc

theorem Represents.slots_length_le (hb : b ∈ bs) : b.slots.length ≤ table.elements.next := by
  have hlen := (hr.holds b hb).listed.length_le_next
  simp only [Bucket.cells,List.length_cons,List.length_map] at hlen
  omega

theorem Represents.foreachBucket_cons {U : Type} (function : K → Option V → U → U) {rest : List (Bucket K V n)}
    {before : Option ℕ} (fuel : ℕ) (hb : b ∈ bs)
    (hl : Linked table.elements before ((b :: rest).map Bucket.indexCell) none) (hi : IndexFits b.index)
    (userData : U) : foreachBucket table function (fuel+1) (addresses ((b :: rest).map Bucket.indexCell)).head? userData =
      foreachBucket table function fuel (addresses (rest.map Bucket.indexCell)).head?
        ((b.slots.map Slot.binding).foldl (fun userData x => function x.1 x.2 userData) userData) := by
  have hentries := foreachEntry_spec function (hr.holds b hb).listed.linked.2 (hr.holds b hb).stored
    (hr.slots_length_le hb) userData
  have hc := hl.1
  have hbucket := indexedBucket_fits table hi
  rw [Option.or_none] at hc
  rw [hr.installed b hb] at hbucket
  change foreachBucket table function (fuel+1) (some b.node) userData = _
  simp only [foreachBucket,hc,hbucket,hr.load_sentinel hb,hentries,Option.bind_eq_bind,Option.bind_some]

theorem Represents.foreachBucket_spec {U : Type} (function : K → Option V → U → U) {rest : List (Bucket K V n)}
    {before : Option ℕ} {fuel : ℕ} (hrest : rest ⊆ bs)
    (hl : Linked table.elements before (rest.map Bucket.indexCell) none) (hi : ∀ b ∈ rest, IndexFits b.index)
    (hf : rest.length ≤ fuel) (userData : U) :
    foreachBucket table function fuel (addresses (rest.map Bucket.indexCell)).head? userData =
      some ((bindings rest).foldl (fun userData x => function x.1 x.2 userData) userData) := by
  induction rest generalizing before fuel userData with
  | nil => cases fuel <;> rfl
  | cons b rest ih =>
    cases fuel with
    | zero => simp at hf
    | succ fuel =>
      rw [hr.foreachBucket_cons function fuel (hrest List.mem_cons_self) hl (hi b List.mem_cons_self),
        bindings_cons,List.foldl_append]
      exact ih (fun c hc => hrest (List.mem_cons_of_mem _ hc)) hl.2
        (fun c hc => hi c (List.mem_cons_of_mem _ hc)) (Nat.le_of_succ_le_succ hf) _

/-- An index that comes out negative is the end of the walk. -/
theorem Represents.foreachBucket_negative {U : Type} (function : K → Option V → U → U) {rest : List (Bucket K V n)}
    {before : Option ℕ} {fuel : ℕ} (hrest : rest ⊆ bs)
    (hl : Linked table.elements before (rest.map Bucket.indexCell) none)
    (hlt : ∀ b ∈ bs, b.index.val < 4294967296) (hn : ¬ ∀ b ∈ rest, IndexFits b.index) (userData : U) :
    foreachBucket table function fuel (addresses (rest.map Bucket.indexCell)).head? userData = none := by
  induction rest generalizing before fuel userData with
  | nil => exact absurd (by simp) hn
  | cons b rest ih =>
    have hb : b ∈ bs := hrest List.mem_cons_self
    cases fuel with
    | zero => rfl
    | succ fuel =>
      by_cases hi : IndexFits b.index
      · have hn' : ¬ ∀ c ∈ rest, IndexFits c.index := by
          intro h
          exact hn (List.forall_mem_cons.mpr ⟨hi,h⟩)
        rw [hr.foreachBucket_cons function fuel hb hl hi]
        exact ih (fun c hc => hrest (List.mem_cons_of_mem _ hc)) hl.2 hn' _
      · have hc := hl.1
        have hbucket := indexedBucket_negative table hi (hlt b hb)
        rw [Option.or_none] at hc
        change foreachBucket table function (fuel+1) (some b.node) userData = none
        simp only [foreachBucket,hc,hbucket,Option.bind_eq_bind,Option.bind_some,Option.bind_none]

end Buckets

/-- What is still to come: the rest of a bucket and the buckets behind it. -/
inductive Ahead (table : HashTable K V n) : HashIterator → List (Slot K V) → List (Bucket K V n) → Prop
  | done (iterator : HashIterator) (h : iterator.bucketIndex = none) : Ahead table iterator [] []
  | inside {iterator : HashIterator} {before beforeNode : Option ℕ} {slots : List (Slot K V)}
      {rest : List (Bucket K V n)} (current : iterator.bucketIndex.isSome)
      (element : iterator.element = (addresses (slots.map (Slot.cell n))).head?)
      (linked : Linked table.elements before (slots.map (Slot.cell n)) none)
      (stored : ∀ s ∈ slots, table.entries.load s.address = some s.entry)
      (next : iterator.nextBucketIndex = (addresses (rest.map Bucket.indexCell)).head?)
      (nodes : Linked table.elements beforeNode (rest.map Bucket.indexCell) none) : Ahead table iterator slots rest

theorem Represents.enterBucket_spec (hr : Represents ops table bs) {rest : List (Bucket K V n)} {before : Option ℕ}
    (hb : b ∈ bs) (hi : IndexFits b.index)
    (hl : Linked table.elements before ((b :: rest).map Bucket.indexCell) none) :
    ∃ iterator, enterBucket table b.node = some iterator ∧ Ahead table iterator b.slots rest := by
  have hc := hl.1
  have hbucket := indexedBucket_fits table hi
  rw [Option.or_none] at hc
  rw [hr.installed b hb] at hbucket
  refine ⟨⟨some b.node,(addresses (rest.map Bucket.indexCell)).head?,(addresses (b.slots.map (Slot.cell n))).head?⟩,
    ?_,.inside rfl rfl (hr.holds b hb).listed.linked.2 (hr.holds b hb).stored rfl hl.2⟩
  simp only [enterBucket,hc,hbucket,hr.load_sentinel hb,Option.bind_eq_bind,Option.bind_some]
  rfl

theorem Ahead.entry {iterator : HashIterator} {s : Slot K V} {slots : List (Slot K V)} {rest : List (Bucket K V n)}
    (ha : Ahead table iterator (s :: slots) rest) (fuel : ℕ) :
    ∃ iterator', iterateHashNext table (fuel+1) iterator = some (some s.address,iterator') ∧
      Ahead table iterator' slots rest ∧ table.entries.load s.address = some s.entry := by
  cases ha with
  | inside current element linked stored next nodes =>
    obtain ⟨bucketIndex?,nextBucketIndex,element?⟩ := iterator
    obtain ⟨bucketIndex,rfl⟩ := Option.isSome_iff_exists.mp current
    obtain rfl : element? = some s.element := element
    obtain ⟨hc,hr⟩ := linked
    rw [Option.or_none] at hc
    refine ⟨⟨some bucketIndex,nextBucketIndex,(addresses (slots.map (Slot.cell n))).head?⟩,?_,
      .inside rfl rfl hr (fun t ht => stored t (List.mem_cons_of_mem _ ht)) next nodes,
      stored s List.mem_cons_self⟩
    simp [iterateHashNext,hc]

/-- A call takes the first of the entries to come, if there is one. -/
theorem Represents.iterateHashNext_spec (hr : Represents ops table bs) {iterator : HashIterator}
    {slots : List (Slot K V)} {rest : List (Bucket K V n)} {fuel : ℕ} (ha : Ahead table iterator slots rest)
    (hrest : rest ⊆ bs) (hi : ∀ b ∈ rest, IndexFits b.index) (hf : rest.length < fuel) :
    ∃ iterator' slots' rest',
      iterateHashNext table fuel iterator =
        some ((slots++rest.flatMap Bucket.slots).head?.map Slot.address,iterator') ∧
      Ahead table iterator' slots' rest' ∧ rest' <:+ rest ∧
      slots'++rest'.flatMap Bucket.slots = (slots++rest.flatMap Bucket.slots).tail ∧
      ∀ s ∈ (slots++rest.flatMap Bucket.slots).head?, table.entries.load s.address = some s.entry := by
  induction rest generalizing iterator slots fuel with
  | nil =>
    obtain ⟨fuel,rfl⟩ := Nat.exists_eq_succ_of_ne_zero (Nat.ne_zero_of_lt hf)
    cases slots with
    | nil =>
      refine ⟨iterator,[],[],?_,ha,List.suffix_refl _,rfl,by simp⟩
      cases ha with
      | done h => simp [iterateHashNext,h]
      | inside current element linked stored next nodes =>
        obtain ⟨bucketIndex,hb⟩ := Option.isSome_iff_exists.mp current
        simp only [List.map_nil,addresses,List.head?_nil] at element next
        simp [iterateHashNext,hb,element,next]
    | cons s slots =>
      obtain ⟨iterator',heq,ha',hload⟩ := ha.entry fuel
      exact ⟨iterator',slots,[],heq,ha',List.suffix_refl _,rfl,by simpa using hload⟩
  | cons b rest ih =>
    obtain ⟨fuel,rfl⟩ := Nat.exists_eq_succ_of_ne_zero (Nat.ne_zero_of_lt hf)
    cases slots with
    | nil =>
      cases ha with
      | inside current element linked stored next nodes =>
        obtain ⟨bucketIndex,hb⟩ := Option.isSome_iff_exists.mp current
        obtain ⟨iterator₁,henter,ha₁⟩ := hr.enterBucket_spec (hrest List.mem_cons_self) (hi b List.mem_cons_self) nodes
        obtain ⟨iterator',slots',rest',heq,ha',hsuffix,htail,hload⟩ := ih ha₁
          (fun c hc => hrest (List.mem_cons_of_mem _ hc)) (fun c hc => hi c (List.mem_cons_of_mem _ hc))
          (Nat.lt_of_succ_lt_succ hf)
        refine ⟨iterator',slots',rest',?_,ha',hsuffix.trans (List.suffix_cons b rest),?_,?_⟩
        · have hnext : iterator.nextBucketIndex = some b.node := next
          simp only [List.map_nil,addresses,List.head?_nil] at element
          simpa [iterateHashNext,hb,element,hnext,henter] using heq
        · simpa using htail
        · simpa using hload
    | cons s slots =>
      obtain ⟨iterator',heq,ha',hload⟩ := ha.entry fuel
      exact ⟨iterator',slots,b :: rest,heq,ha',List.suffix_refl _,rfl,by simpa using hload⟩

/-- Call after call the entries to come are returned in order, then NULL. -/
theorem Represents.iterateTimes_spec (hr : Represents ops table bs) {iterator : HashIterator}
    {slots : List (Slot K V)} {rest : List (Bucket K V n)} (ha : Ahead table iterator slots rest)
    (hrest : rest ⊆ bs) (hi : ∀ b ∈ rest, IndexFits b.index) (hf : rest.length < table.elements.next) (m : ℕ) :
    iterateTimes table m iterator =
      some ((List.range m).map (fun i => ((slots++rest.flatMap Bucket.slots).map Slot.binding)[i]?)) := by
  induction m generalizing iterator slots rest with
  | zero => rfl
  | succ m ih =>
    obtain ⟨iterator',slots',rest',heq,ha',hsuffix,htail,hload⟩ := hr.iterateHashNext_spec ha hrest hi hf
    have hlater := ih ha' (fun c hc => hrest (hsuffix.subset hc)) (fun c hc => hi c (hsuffix.subset hc))
      (Nat.lt_of_le_of_lt hsuffix.length_le hf)
    rw [htail] at hlater
    rw [List.range_succ_eq_map,List.map_cons,List.map_map]
    cases hslots : slots++rest.flatMap Bucket.slots with
    | nil =>
      rw [hslots] at heq hlater
      simp [iterateTimes,heq,hlater,Function.comp_def]
    | cons s later =>
      rw [hslots] at heq hlater hload
      simp only [List.head?_cons,Option.mem_some_iff,forall_eq'] at hload
      simp [iterateTimes,heq,hlater,hload,Function.comp_def,Slot.binding]

theorem bindings_eq_map (bs : List (Bucket K V n)) : bindings bs = (bs.flatMap Bucket.slots).map Slot.binding := by
  simp [bindings,List.map_flatMap]

theorem Represents.initHashIterator_spec (hr : Represents ops table bs) (hi : ∀ b ∈ bs, IndexFits b.index)
    (uninitialized : HashIterator) :
    ∃ iterator slots rest, initHashIterator table uninitialized = some iterator ∧ Ahead table iterator slots rest ∧
      rest <:+ bs ∧ slots++rest.flatMap Bucket.slots = bs.flatMap Bucket.slots := by
  obtain ⟨hc,hl⟩ := hr.listed.linked
  rw [Option.or_none] at hc
  cases bs with
  | nil =>
    refine ⟨{ uninitialized with bucketIndex := none, element := none },[],[],?_,.done _ rfl,List.suffix_refl _,rfl⟩
    simp [initHashIterator,hc]
  | cons b rest =>
    obtain ⟨iterator,henter,ha⟩ := hr.enterBucket_spec List.mem_cons_self (hi b List.mem_cons_self) hl
    refine ⟨iterator,b.slots,rest,?_,ha,List.suffix_cons b rest,rfl⟩
    simpa [initHashIterator,hc,Bucket.indexCell] using henter

theorem Represents.buckets_length_lt (hr : Represents ops table bs) : bs.length < table.elements.next := by
  have hlen := hr.listed.length_le_next
  simp only [indexCells,List.length_cons,List.length_map] at hlen
  omega

theorem Tidy.foreachHash_eq (ht : Tidy ops table bs) (hi : ∀ b ∈ bs, IndexFits b.index) {U : Type}
    (function : K → Option V → U → U) (userData : U) : foreachHash table function userData =
      some ((bindings bs).foldl (fun userData x => function x.1 x.2 userData) userData) := by
  obtain ⟨hc,hl⟩ := ht.listed.linked
  rw [Option.or_none] at hc
  simp only [foreachHash,hc,Option.bind_eq_bind,Option.bind_some]
  exact ht.toRepresents.foreachBucket_spec function (fun _ hb => hb) hl hi
    (Nat.le_of_lt ht.toRepresents.buckets_length_lt) userData

theorem Tidy.foreachHash_negative (ht : Tidy ops table bs) (hn : ¬ ∀ b ∈ bs, IndexFits b.index) {U : Type}
    (function : K → Option V → U → U) (userData : U) : foreachHash table function userData = none := by
  obtain ⟨hc,hl⟩ := ht.listed.linked
  rw [Option.or_none] at hc
  simp only [foreachHash,hc,Option.bind_eq_bind,Option.bind_some]
  exact ht.toRepresents.foreachBucket_negative function (fun _ hb => hb) hl (fun _ hb => ht.index_lt hb) hn userData

theorem Tidy.walksOnce_iff {past : List (TableCall K V)} (ht : Tidy ops table bs)
    (hbind : ∀ k, bindingOf ops (bindings bs) k = latest ops past k) :
    WalksOnce ops table past ↔ ∀ b ∈ bs, IndexFits b.index := by
  constructor
  · rintro ⟨pairs,-,hforeach,-⟩
    by_contra hn
    have hsome := hforeach Unit (fun _ _ u => u) ()
    rw [ht.foreachHash_negative hn] at hsome
    cases hsome
  · intro hi
    refine ⟨bindings bs,⟨ht.toRepresents.apart,hbind⟩,fun _ => ht.foreachHash_eq hi,fun uninitialized m => ?_⟩
    obtain ⟨iterator,slots,rest,hinit,ha,hsuffix,hall⟩ := ht.toRepresents.initHashIterator_spec hi uninitialized
    refine ⟨iterator,hinit,?_⟩
    have htimes := ht.toRepresents.iterateTimes_spec ha hsuffix.subset (fun c hc => hi c (hsuffix.subset hc))
      (Nat.lt_of_le_of_lt hsuffix.length_le ht.toRepresents.buckets_length_lt) m
    rw [hall,← bindings_eq_map] at htimes
    exact htimes

/-- No bound key is kept in a bucket whose index does not fit an `int`. -/
def IndexesFit (ops : KeyOps K) (n : ℕ+) (past : List (TableCall K V)) : Prop :=
  ∀ k, (latest ops past k).isSome → IndexFits (getBucketIndex ops n k)

theorem Tidy.indexesFit_iff {past : List (TableCall K V)} (ht : Tidy ops table bs)
    (hbind : ∀ k, bindingOf ops (bindings bs) k = latest ops past k) :
    (∀ b ∈ bs, IndexFits b.index) ↔ IndexesFit ops n past := by
  constructor
  · intro hi k hk
    rw [← hbind,bindingOf,Option.isSome_map,List.find?_isSome] at hk
    obtain ⟨x,hx,hkx⟩ := hk
    obtain ⟨b,hb,s,hs,rfl⟩ := mem_bindings hx
    have hindex : getBucketIndex ops n k = b.index := by
      rw [← (ht.holds b hb).hashed s hs]
      exact Fin.ext (congrArg (fun h : UInt32 => h.toNat%(n : ℕ)) (ops.hash_eq hkx))
    rw [hindex]
    exact hi b hb
  · intro hfit b hb
    obtain ⟨s,hs⟩ := List.exists_mem_of_ne_nil _ (ht.occupied b hb)
    rw [← (ht.holds b hb).hashed s hs]
    refine hfit s.entry.key ?_
    rw [← hbind,bindingOf,Option.isSome_map,List.find?_isSome]
    exact ⟨s.binding,List.mem_flatMap.mpr ⟨b,hb,List.mem_map_of_mem hs⟩,ops.compare_refl _⟩

theorem Follows.walksOnce_iff {past : List (TableCall K V)} (hf : Follows ops table past) :
    WalksOnce ops table past ↔ IndexesFit ops n past := by
  obtain ⟨bs,ht,hbind⟩ := hf
  rw [ht.walksOnce_iff hbind,ht.indexesFit_iff hbind]

/-- After any run both walks see each bound key once, as long as the indices in use
fit an `int`. -/
theorem runCalls_walksOnce_iff (ops : KeyOps K) (size : ℕ+) (calls : List (TableCall K V)) :
    ∃ table, runCalls ops (createHashWithSize K V size) calls = some table ∧
      (WalksOnce ops table calls.reverse ↔ IndexesFit ops size calls.reverse) := by
  obtain ⟨table,hruns,hf⟩ := runCalls_follows ops size calls
  exact ⟨table,hruns,hf.walksOnce_iff⟩

/-- The pointer 2^33 belongs in the last of 2^31+1 buckets. -/
theorem not_indexesFit_insert :
    ¬ IndexesFit (atomOps (fun p : ℕ => p)) 2147483649 [.insert 8589934592 (none : Option Unit)] := by
  intro hfits
  have hfit := hfits 8589934592 (by simp [latest])
  have hindex : (getBucketIndex (atomOps (fun p : ℕ => p)) 2147483649 8589934592).val = 2147483648 := by decide
  unfold IndexFits at hfit
  omega

/-- One pointer, 2^33, in a table of 2^31+1 buckets. -/
theorem walksOnce_negative_index : ∃ table,
    runCalls (atomOps (fun p : ℕ => p)) (createHashWithSize ℕ Unit 2147483649) [.insert 8589934592 none] = some table ∧
      ¬ WalksOnce (atomOps (fun p : ℕ => p)) table [.insert 8589934592 none] := by
  obtain ⟨table,hruns,hf⟩ := runCalls_follows (atomOps (fun p : ℕ => p)) 2147483649 [.insert 8589934592 none]
  refine ⟨table,hruns,fun hw => ?_⟩
  exact not_indexesFit_insert (hf.walksOnce_iff.mp hw)

end OpenFlowController.Table
