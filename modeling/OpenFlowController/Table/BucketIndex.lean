import OpenFlowController.Table.TableRuns

/-! # The index of the buckets in use

What the pointers of a table lead to, read off its heaps: the nodes of the index, and
the entries behind the sentinel of a bucket.
-/
namespace OpenFlowController.Table
open Memory

variable {K V D : Type} {n : ℕ+}

/-- The elements from `p` on along the next pointers, if there is an end. -/
def elementsFrom (h : Heap (DlistElement D)) : ℕ → Option ℕ → Option (List (ℕ × Option D))
  | _, none => some []
  | 0, some _ => none
  | fuel+1, some p => do
    let e ← h.load p
    let rest ← elementsFrom h fuel e.next
    return (p,e.data) :: rest

def elementsBehind (h : Heap (DlistElement D)) (sentinel : ℕ) : Option (List (ℕ × Option D)) := do
  let e ← h.load sentinel
  elementsFrom h h.next e.next

/-- An entry of the table, by the element that points to it. -/
def HashTable.Has (table : HashTable K V n) (element : ℕ) (entry : HashEntry K V) : Prop :=
  ∃ i bucket cells a, table.buckets i = some bucket ∧ elementsBehind table.elements bucket = some cells ∧
    (element,some (.hashEntry a)) ∈ cells ∧ table.entries.load a = some entry

/-- The bucket of one index node: its sentinel points back, and it holds at least one
entry and only entries that belong here. -/
structure IndexedBucket (ops : KeyOps K) (table : HashTable K V n) (node : ℕ) (i : Fin n) (bucket : ℕ) : Prop where
  installed : table.buckets i = some bucket
  pointsBack : ∃ sentinel, table.elements.load bucket = some sentinel ∧ sentinel.data = some (.indexNode node)
  filled : ∃ cells, elementsBehind table.elements bucket = some cells ∧ cells ≠ [] ∧
    ∀ cell ∈ cells, ∃ a entry, cell.2 = some (.hashEntry a) ∧ table.entries.load a = some entry ∧
      getBucketIndex ops n entry.key = i

/-- The representation invariant, for the nodes of the index and the bucket each stands for. -/
structure KeepsIndex (ops : KeyOps K) (table : HashTable K V n) (nodes : List (ℕ × Fin n)) : Prop where
  index : elementsBehind table.elements table.nonemptyBucketIndex =
    some (nodes.map fun x => (x.1,some (.bucketIndex x.2)))
  once : (nodes.map Prod.snd).Nodup
  occurs : ∀ i, table.buckets i ≠ none ↔ i ∈ nodes.map Prod.snd
  buckets : ∀ x ∈ nodes, ∃ bucket, IndexedBucket ops table x.1 x.2 bucket
  apart : ∀ p q e f, table.Has p e → table.Has q f → ops.compare e.key f.key = true → p = q

theorem elementsFrom_linked {h : Heap (DlistElement D)} {before : Option ℕ} {cells : List (ℕ × Option D)}
    (hl : Linked h before cells none) {fuel : ℕ} (hf : cells.length ≤ fuel) :
    elementsFrom h fuel (addresses cells).head? = some cells := by
  induction cells generalizing before fuel with
  | nil => cases fuel <;> rfl
  | cons x cells ih =>
    obtain ⟨p,d⟩ := x
    obtain ⟨hp,hrest⟩ := hl
    obtain ⟨fuel,rfl⟩ : ∃ k, fuel = k+1 := ⟨fuel-1,by rw [List.length_cons] at hf; omega⟩
    rw [Option.or_none] at hp
    have htail := ih hrest (Nat.le_of_succ_le_succ hf)
    rw [addresses,List.map_cons,List.head?_cons,elementsFrom,hp]
    simp only [Option.bind_eq_bind,Option.bind_some,htail]
    rfl

theorem Dlist.elementsBehind_eq {h : Heap (DlistElement D)} {p : ℕ} {d : Option D} {cells : List (ℕ × Option D)}
    (hd : Dlist h ((p,d) :: cells)) : elementsBehind h p = some cells := by
  have hlen := hd.length_le_next
  obtain ⟨hp,hrest⟩ := hd.linked
  rw [Option.or_none] at hp
  rw [List.length_cons] at hlen
  rw [elementsBehind,hp]
  exact elementsFrom_linked hrest (by omega)

section Tidy
variable {ops : KeyOps K} {table : HashTable K V n} {bs : List (Bucket K V n)}

theorem Represents.elementsBehind_head (hr : Represents ops table bs) {b : Bucket K V n} (hb : b ∈ bs) :
    elementsBehind table.elements b.head = some (b.slots.map (Slot.cell n)) :=
  (hr.holds b hb).listed.elementsBehind_eq

theorem Tidy.indexedBucket (ht : Tidy ops table bs) {b : Bucket K V n} (hb : b ∈ bs) :
    IndexedBucket ops table b.node b.index b.head where
  installed := ht.installed b hb
  pointsBack := ⟨_,(ht.holds b hb).listed.linked.1,rfl⟩
  filled := by
    refine ⟨_,ht.toRepresents.elementsBehind_head hb,?_,?_⟩
    · exact fun hnil => ht.occupied b hb (List.map_eq_nil_iff.mp hnil)
    · intro cell hcell
      obtain ⟨s,hs,rfl⟩ := List.mem_map.mp hcell
      exact ⟨s.address,s.entry,rfl,(ht.holds b hb).stored s hs,(ht.holds b hb).hashed s hs⟩

/-- An entry of the table is in a slot of a bucket. -/
theorem Represents.slot_of_has (hr : Represents ops table bs) {p : ℕ} {e : HashEntry K V} (h : table.Has p e) :
    ∃ b ∈ bs, ∃ s ∈ b.slots, s.element = p ∧ s.entry = e := by
  obtain ⟨i,bucket,cells,a,hbucket,hcells,hmem,hload⟩ := h
  have hi : i ∈ bs.map Bucket.index := by
    by_contra hi
    rw [hr.absent i hi] at hbucket
    cases hbucket
  obtain ⟨b,hb,rfl⟩ := List.mem_map.mp hi
  rw [hr.installed b hb] at hbucket
  obtain rfl := Option.some.inj hbucket
  rw [hr.elementsBehind_head hb] at hcells
  obtain rfl := Option.some.inj hcells
  obtain ⟨s,hs,hcell⟩ := List.mem_map.mp hmem
  obtain ⟨rfl,hdata⟩ := Prod.mk.inj hcell
  cases hdata
  refine ⟨b,hb,s,hs,rfl,?_⟩
  rw [(hr.holds b hb).stored s hs] at hload
  exact Option.some.inj hload

/-- Equal keys are in one bucket, as their hashes are equal, and there in one slot. -/
theorem Represents.element_unique (hr : Represents ops table bs) {p q : ℕ} {e f : HashEntry K V}
    (hp : table.Has p e) (hq : table.Has q f) (hef : ops.compare e.key f.key = true) : p = q := by
  obtain ⟨b,hb,s,hs,rfl,rfl⟩ := hr.slot_of_has hp
  obtain ⟨c,hc,t,ht,rfl,rfl⟩ := hr.slot_of_has hq
  have hindex : b.index = c.index := by
    rw [← (hr.holds b hb).hashed s hs,← (hr.holds c hc).hashed t ht,getBucketIndex]
    simp only [ops.hash_eq hef,getBucketIndex]
  obtain rfl : b = c := List.inj_on_of_nodup_map hr.distinct hb hc hindex
  by_contra hne
  have hsymm : Std.Symm fun s t : Slot K V => ops.compare s.entry.key t.entry.key = false :=
    ⟨fun s t h => (ops.compare_comm _ _).trans h⟩
  have hfalse := (hr.holds b hb).apart.forall hs ht (fun hst => hne (hst ▸ rfl))
  rw [hef] at hfalse
  cases hfalse

theorem Tidy.keepsIndex (ht : Tidy ops table bs) :
    KeepsIndex ops table (bs.map fun b => (b.node,b.index)) where
  index := by
    rw [ht.listed.elementsBehind_eq,List.map_map]
    rfl
  once := by
    rw [List.map_map]
    exact ht.distinct
  occurs i := by
    rw [List.map_map]
    constructor
    · intro hbucket
      by_contra hi
      exact hbucket (ht.absent i hi)
    · intro hi
      obtain ⟨b,hb,rfl⟩ := List.mem_map.mp hi
      rw [Function.comp_apply,ht.installed b hb]
      exact Option.some_ne_none _
  buckets x hx := by
    obtain ⟨b,hb,rfl⟩ := List.mem_map.mp hx
    exact ⟨b.head,ht.indexedBucket hb⟩
  apart _ _ _ _ hp hq hef := ht.toRepresents.element_unique hp hq hef

end Tidy

/-- After every run the index lists the buckets in use, each once. -/
theorem runCalls_keepsIndex (ops : KeyOps K) (size : ℕ+) (calls : List (TableCall K V)) :
    ∃ table nodes, runCalls ops (createHashWithSize K V size) calls = some table ∧ KeepsIndex ops table nodes := by
  obtain ⟨table,hruns,bs,ht,-⟩ := runCalls_follows ops size calls
  exact ⟨table,_,hruns,ht.keepsIndex⟩

end OpenFlowController.Table
