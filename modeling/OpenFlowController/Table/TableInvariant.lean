import OpenFlowController.Table.HashTable

/-! # What a hash table represents

The lists of a table stay apart because of what their elements point to, so the
invariant says nothing about addresses of different lists.
-/
namespace OpenFlowController.Table
open Memory

variable {K V : Type} {n : ℕ+}

structure Slot (K V : Type) where
  element : ℕ
  address : ℕ
  entry : HashEntry K V

structure Bucket (K V : Type) (n : ℕ+) where
  index : Fin n
  node : ℕ
  head : ℕ
  slots : List (Slot K V)

def Slot.cell (n : ℕ+) (s : Slot K V) : ℕ × Option (TableData n) := (s.element,some (.hashEntry s.address))

def Slot.binding (s : Slot K V) : K × Option V := (s.entry.key,s.entry.value)

def Bucket.cells (b : Bucket K V n) : List (ℕ × Option (TableData n)) :=
  (b.head,some (.indexNode b.node)) :: b.slots.map (Slot.cell n)

def Bucket.indexCell (b : Bucket K V n) : ℕ × Option (TableData n) := (b.node,some (.bucketIndex b.index))

def indexCells (sentinel : ℕ) (bs : List (Bucket K V n)) : List (ℕ × Option (TableData n)) :=
  (sentinel,none) :: bs.map Bucket.indexCell

def bindings (bs : List (Bucket K V n)) : List (K × Option V) :=
  bs.flatMap (fun b => b.slots.map Slot.binding)

/-- One bucket: its list, its entries, and that they belong here and are apart. -/
structure Bucket.Holds (ops : KeyOps K) (elements : Heap (DlistElement (TableData n)))
    (entries : Heap (HashEntry K V)) (b : Bucket K V n) : Prop where
  listed : Dlist elements b.cells
  stored : ∀ s ∈ b.slots, entries.load s.address = some s.entry
  hashed : ∀ s ∈ b.slots, getBucketIndex ops n s.entry.key = b.index
  apart : b.slots.Pairwise (fun s t => ops.compare s.entry.key t.entry.key = false)

structure Represents (ops : KeyOps K) (table : HashTable K V n) (bs : List (Bucket K V n)) : Prop where
  listed : Dlist table.elements (indexCells table.nonemptyBucketIndex bs)
  distinct : (bs.map Bucket.index).Nodup
  installed : ∀ b ∈ bs, table.buckets b.index = some b.head
  absent : ∀ i, i ∉ bs.map Bucket.index → table.buckets i = none
  holds : ∀ b ∈ bs, b.Holds ops table.elements table.entries
  counted : table.length = UInt32.ofNat (bindings bs).length

section Separation
variable {ops : KeyOps K} {elements elements' : Heap (DlistElement (TableData n))}
  {entries entries' : Heap (HashEntry K V)} {table : HashTable K V n} {b c : Bucket K V n}
  {bs : List (Bucket K V n)}

/-- Lists whose elements point to different things share no element. -/
theorem Dlist.apart {D : Type} {h : Heap (DlistElement D)} {xs ys : List (ℕ × Option D)}
    (hx : Dlist h xs) (hy : Dlist h ys) (hd : ∀ x ∈ xs, ∀ y ∈ ys, x.2 ≠ y.2) :
    ∀ p ∈ addresses ys, p ∉ addresses xs := by
  intro p hpy hpx
  obtain ⟨y,hy',rfl⟩ := List.mem_map.mp hpy
  obtain ⟨x,hx',hxy⟩ := List.mem_map.mp hpx
  obtain ⟨e,he,hex⟩ := hx.linked.load_of_mem hx'
  obtain ⟨f,hf,hfy⟩ := hy.linked.load_of_mem hy'
  rw [hxy,hf] at he
  cases he
  exact hd x hx' y hy' (hex.symm.trans hfy)

theorem Bucket.Holds.frame (hb : b.Holds ops elements entries) {ps : List ℕ}
    (hk : Keeps elements elements' ps) (hp : ∀ p ∈ addresses b.cells, p ∉ ps)
    (he : ∀ s ∈ b.slots, entries'.load s.address = entries.load s.address) :
    b.Holds ops elements' entries' where
  listed := hb.listed.frame hk hp
  stored s hs := (he s hs).trans (hb.stored s hs)
  hashed := hb.hashed
  apart := hb.apart

theorem mem_cells {x : ℕ × Option (TableData n)} (hx : x ∈ b.cells) :
    x.2 = some (.indexNode b.node) ∨ ∃ s ∈ b.slots, x.2 = some (.hashEntry s.address) := by
  rcases List.mem_cons.mp hx with rfl | hx
  · exact Or.inl rfl
  · obtain ⟨s,hs,rfl⟩ := List.mem_map.mp hx
    exact Or.inr ⟨s,hs,rfl⟩

theorem mem_indexCells {x : ℕ × Option (TableData n)} {sentinel : ℕ} (hx : x ∈ indexCells sentinel bs) :
    x.2 = none ∨ ∃ i, x.2 = some (.bucketIndex i) := by
  rcases List.mem_cons.mp hx with rfl | hx
  · exact Or.inl rfl
  · obtain ⟨b,-,rfl⟩ := List.mem_map.mp hx
    exact Or.inr ⟨b.index,rfl⟩

theorem index_apart {sentinel : ℕ} (hi : Dlist elements (indexCells sentinel bs))
    (hb : b.Holds ops elements entries) : ∀ p ∈ addresses b.cells, p ∉ addresses (indexCells sentinel bs) := by
  apply hi.apart hb.listed
  intro x hx y hy hxy
  rcases mem_indexCells hx with h | ⟨i,h⟩ <;> rcases mem_cells hy with h' | ⟨s,-,h'⟩ <;>
    simp [h,h'] at hxy

theorem entries_apart (hb : b.Holds ops elements entries) (hc : c.Holds ops elements entries)
    (hne : b.index ≠ c.index) {s t : Slot K V} (hs : s ∈ b.slots) (ht : t ∈ c.slots) :
    s.address ≠ t.address := by
  intro hst
  have hload := hb.stored s hs
  rw [hst,hc.stored t ht] at hload
  have hindex := hb.hashed s hs
  rw [← Option.some.inj hload,hc.hashed t ht] at hindex
  exact hne hindex.symm

theorem buckets_apart (hb : b.Holds ops elements entries) (hc : c.Holds ops elements entries)
    (hne : b.index ≠ c.index) (hnode : b.node ≠ c.node) :
    ∀ p ∈ addresses c.cells, p ∉ addresses b.cells := by
  apply hb.listed.apart hc.listed
  intro x hx y hy hxy
  rcases mem_cells hx with h | ⟨s,hs,h⟩ <;> rcases mem_cells hy with h' | ⟨t,ht,h'⟩ <;>
    simp [h,h'] at hxy
  · exact hnode hxy
  · exact entries_apart hb hc hne hs ht hxy

end Separation

section Search
variable {ops : KeyOps K} {table : HashTable K V n} {b : Bucket K V n} {bs xs ys : List (Bucket K V n)}

@[simp] theorem bindings_append : bindings (xs++ys) = bindings xs++bindings ys := by
  simp [bindings]

@[simp] theorem bindings_cons : bindings (b :: bs) = b.slots.map Slot.binding++bindings bs := by
  simp [bindings]

theorem mem_indexes_middle {i : Fin n} : i ∈ (xs++b :: ys).map Bucket.index ↔
    i = b.index ∨ i ∈ (xs++ys).map Bucket.index := by
  simp only [List.map_append,List.map_cons,List.mem_append,List.mem_cons]
  tauto

theorem Represents.others (hr : Represents ops table (xs++b :: ys)) :
    ∀ c ∈ xs++ys, c.index ≠ b.index ∧ c.node ≠ b.node := by
  have hi := hr.distinct
  have hn := hr.listed.distinct
  simp only [indexCells,addresses,List.map_cons,List.map_map,List.nodup_cons] at hn
  rw [List.map_append,List.map_cons,(List.perm_middle).nodup_iff,List.nodup_cons] at hi
  rw [List.map_append,List.map_cons,(List.perm_middle).nodup_iff,List.nodup_cons] at hn
  intro c hc
  constructor
  · intro h
    apply hi.1
    rw [← List.map_append,← h]
    exact List.mem_map_of_mem hc
  · intro h
    apply hn.2.1
    rw [← List.map_append]
    exact List.mem_map.mpr ⟨c,hc,h⟩

theorem mem_others {c : Bucket K V n} (hc : c ∈ xs++ys) : c ∈ xs++b :: ys := by
  rcases List.mem_append.mp hc with h | h
  · exact List.mem_append_left _ h
  · exact List.mem_append_right _ (List.mem_cons_of_mem _ h)

theorem forall_middle {p : Bucket K V n → Prop} :
    (∀ c ∈ xs++b :: ys, p c) ↔ p b ∧ ∀ c ∈ xs++ys, p c := by
  simp only [List.forall_mem_append,List.forall_mem_cons]
  tauto

theorem Represents.middle (hr : Represents ops table (xs++b :: ys)) :
    b.Holds ops table.elements table.entries :=
  hr.holds b (List.mem_append_right _ List.mem_cons_self)

theorem findEntry_spec {elements : Heap (DlistElement (TableData n))} {entries : Heap (HashEntry K V)}
    (key : K) {slots : List (Slot K V)} {before : Option ℕ} {fuel : ℕ}
    (hl : Linked elements before (slots.map (Slot.cell n)) none)
    (hs : ∀ s ∈ slots, entries.load s.address = some s.entry) (hf : slots.length ≤ fuel) :
    findEntry ops elements entries key fuel (addresses (slots.map (Slot.cell n))).head? =
      some ((slots.find? (fun s => ops.compare key s.entry.key)).map
        (fun s => (s.element,s.address,s.entry))) := by
  induction slots generalizing before fuel with
  | nil => cases fuel <;> rfl
  | cons s slots ih =>
    obtain ⟨hc,hr⟩ := hl
    cases fuel with
    | zero => simp at hf
    | succ fuel =>
      have hload := hs s List.mem_cons_self
      have htail := ih hr (fun t ht => hs t (List.mem_cons_of_mem _ ht)) (Nat.le_of_succ_le_succ hf)
      rw [Option.or_none] at hc
      by_cases hk : ops.compare key s.entry.key = true
      · simp [findEntry,Slot.cell,hc,hload,hk]
      · simp only [Bool.not_eq_true] at hk
        simpa [findEntry,Slot.cell,hc,hload,hk] using htail

theorem searchBucket_absent (hr : Represents ops table bs) {key : K}
    (hi : getBucketIndex ops n key ∉ bs.map Bucket.index) : searchBucket ops table key = some none := by
  simp [searchBucket,hr.absent _ hi]

theorem searchBucket_present (hr : Represents ops table (xs++b :: ys)) {key : K}
    (hi : getBucketIndex ops n key = b.index) : searchBucket ops table key =
      some ((b.slots.find? (fun s => ops.compare key s.entry.key)).map
        (fun s => (s.element,s.address,s.entry))) := by
  have hb := hr.middle
  have hhead := hr.installed b (List.mem_append_right _ List.mem_cons_self)
  have hlen := hb.listed.length_le_next
  obtain ⟨hc,hlinked⟩ := hb.listed.linked
  rw [Option.or_none] at hc
  simp only [searchBucket,hi,hhead,hc,Option.bind_eq_bind,Option.bind_some]
  apply findEntry_spec key hlinked hb.stored
  simp only [Bucket.cells,List.length_cons,List.length_map] at hlen
  omega

end Search
end OpenFlowController.Table
