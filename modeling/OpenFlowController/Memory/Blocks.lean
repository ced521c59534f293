import Mathlib.Algebra.BigOperators.Group.List.Basic
import Mathlib.Algebra.Ring.Nat
import OpenFlowController.Memory.Access

/-! # Blocks one after another

A pointer into memory is a window on it, and what is written through the pointer
is spliced back. A loop that writes items one behind the other leaves each in its
place; a walk from place to place finds them again.
-/
namespace OpenFlowController.Memory

/-- Memory as a pointer to offset `o` sees it. -/
def window (mem : Bytes) (o : ℕ) : Bytes := fun i => mem (o+i)

/-- Memory once the bytes from offset `o` on are those of `block`. -/
def splice (mem : Bytes) (o : ℕ) (block : Bytes) : Bytes := fun i => if o ≤ i then block (i-o) else mem i

/-- A number of `width` bytes stored in network order. -/
def storeNet (mem : Bytes) (o width value : ℕ) : Bytes := fun i =>
  if o ≤ i ∧ i < o+width then UInt8.ofNat (value/256^(o+width-1-i)) else mem i

def copyInto (mem : Bytes) (o : ℕ) (src : Bytes) (length : ℕ) : Bytes := fun i =>
  if o ≤ i ∧ i < o+length then src (i-o) else mem i

theorem splice_before {mem block : Bytes} {o i : ℕ} (h : i < o) : splice mem o block i = mem i :=
  if_neg (Nat.not_le.mpr h)

theorem splice_at (mem block : Bytes) (o i : ℕ) : splice mem o block (o+i) = block i := by
  simp [splice]

theorem storeNet_outside {mem : Bytes} {o width value i : ℕ} (h : i < o ∨ o+width ≤ i) :
    storeNet mem o width value i = mem i := if_neg (by omega)

theorem storeNet_at (mem : Bytes) (o value : ℕ) {width i : ℕ} (h : i < width) :
    storeNet mem o width value (o+i) = UInt8.ofNat (value/256^(width-1-i)) := by
  rw [storeNet,if_pos (by omega),show o+width-1-(o+i) = width-1-i by omega]

/-- The number of `width` bytes at `o`, in network order. -/
def netAt (mem : Bytes) : ℕ → ℕ → ℕ
  | _, 0 => 0
  | o, width+1 => (mem o).toNat*256^width+netAt mem (o+1) width

theorem netAt_two (mem : Bytes) (o : ℕ) : netAt mem o 2 = be16 mem o := by
  simp [netAt,be16]

theorem netAt_four (mem : Bytes) (o : ℕ) : netAt mem o 4 = be32 mem o := by
  simp only [netAt,be32,be16,Nat.add_assoc,Nat.reduceAdd]
  omega

theorem netAt_of_bytes {mem : Bytes} {o width value : ℕ}
    (h : ∀ i < width, mem (o+i) = UInt8.ofNat (value/256^(width-1-i))) : netAt mem o width = value%256^width := by
  induction width generalizing o with
  | zero => simp [netAt,Nat.mod_one]
  | succ width ih =>
    have hfirst : mem o = UInt8.ofNat (value/256^width) := by simpa using h 0 (Nat.succ_pos width)
    have hrest : ∀ i < width, mem (o+1+i) = UInt8.ofNat (value/256^(width-1-i)) := by
      intro i hi
      rw [Nat.add_assoc,Nat.add_comm 1 i,h (i+1) (Nat.succ_lt_succ hi)]
      rw [show width+1-1-(i+1) = width-1-i by omega]
    rw [netAt,ih hrest,hfirst,Nat.mod_pow_succ,UInt8.toNat_ofNat']
    rw [Nat.add_comm,Nat.mul_comm]

theorem netAt_congr {mem mem' : Bytes} {o width : ℕ} (h : ∀ i, o ≤ i → i < o+width → mem' i = mem i) :
    netAt mem' o width = netAt mem o width := by
  induction width generalizing o with
  | zero => rfl
  | succ width ih =>
    rw [netAt,netAt,h o (Nat.le_refl o) (by omega),ih (fun i hl hu => h i (by omega) (by omega))]

theorem netAt_storeNet (mem : Bytes) (o : ℕ) {width value : ℕ} (h : value < 256^width) :
    netAt (storeNet mem o width value) o width = value := by
  rw [netAt_of_bytes (fun i hi => storeNet_at mem o value hi),Nat.mod_eq_of_lt h]

theorem netAt_uint16 (mem : Bytes) (o : ℕ) (x : UInt16) : netAt (storeNet mem o 2 x.toNat) o 2 = x.toNat :=
  netAt_storeNet mem o x.toNat_lt

theorem netAt_uint32 (mem : Bytes) (o : ℕ) (x : UInt32) : netAt (storeNet mem o 4 x.toNat) o 4 = x.toNat :=
  netAt_storeNet mem o x.toNat_lt

theorem netAt_uint64 (mem : Bytes) (o : ℕ) (x : UInt64) : netAt (storeNet mem o 8 x.toNat) o 8 = x.toNat :=
  netAt_storeNet mem o x.toNat_lt

theorem netAt_storeNet_of_disjoint (mem : Bytes) (value : ℕ) {o o' width width' : ℕ}
    (h : o'+width' ≤ o ∨ o+width ≤ o') : netAt (storeNet mem o width value) o' width' = netAt mem o' width' :=
  netAt_congr (fun i hl hu => storeNet_outside (by omega))

theorem be16_storeNet (mem : Bytes) (o : ℕ) {value : ℕ} (h : value < 65536) :
    be16 (storeNet mem o 2 value) o = value := by
  rw [← netAt_two,netAt_storeNet mem o h]

theorem be16_storeNet_of_disjoint (mem : Bytes) (value : ℕ) {o o' width : ℕ} (h : o'+2 ≤ o ∨ o+width ≤ o') :
    be16 (storeNet mem o width value) o' = be16 mem o' := by
  rw [← netAt_two,← netAt_two,netAt_storeNet_of_disjoint mem value h]

section Blocks
variable {α : Type}

/-- `write` is called with a pointer to the place of each item; the pointer then
moves by the size of the item. -/
def writeEach (write : α → Bytes → Option Bytes) (size : α → ℕ) : ℕ → List α → Bytes → Option Bytes
  | _, [], mem => some mem
  | o, a :: items, mem => do
    let block ← write a (window mem o)
    writeEach write size (o+size a) items (splice mem o block)

def totalSize (size : α → ℕ) (items : List α) : ℕ := (items.map size).sum

@[simp] theorem totalSize_nil (size : α → ℕ) : totalSize size [] = 0 := rfl

@[simp] theorem totalSize_cons (size : α → ℕ) (a : α) (items : List α) :
    totalSize size (a :: items) = size a+totalSize size items := by simp [totalSize]

theorem totalSize_const (n : ℕ) (items : List α) : totalSize (fun _ => n) items = items.length*n := by
  induction items with
  | nil => simp
  | cons a items ih => rw [totalSize_cons,ih,List.length_cons,Nat.succ_mul,Nat.add_comm]

theorem length_mul_le_totalSize {size : α → ℕ} {n : ℕ} (h : ∀ a, n ≤ size a) (items : List α) :
    items.length*n ≤ totalSize size items := by
  induction items with
  | nil => simp
  | cons a items ih =>
    have ha := h a
    rw [List.length_cons,totalSize_cons,Nat.succ_mul]
    omega

/-- A sum kept in an unsigned variable of the builder. -/
theorem foldl_mod (size : α → ℕ) (m o : ℕ) (items : List α) :
    items.foldl (fun length a => (length+size a)%m) (o%m) = (o+totalSize size items)%m := by
  induction items generalizing o with
  | nil => rfl
  | cons a items ih => rw [List.foldl_cons,Nat.mod_add_mod,ih,totalSize_cons,Nat.add_assoc]

theorem foldl_mod_of_lt (size : α → ℕ) {m : ℕ} {items : List α} (h : totalSize size items < m) :
    items.foldl (fun length a => (length+size a)%m) 0 = totalSize size items := by
  have hfold := foldl_mod size m 0 items
  rwa [Nat.zero_mod,Nat.zero_add,Nat.mod_eq_of_lt h] at hfold

/-- Every item lies in the memory from its place on, one behind the other. -/
def Placed (lies : α → Bytes → Prop) (size : α → ℕ) (mem : Bytes) : ℕ → List α → Prop
  | _, [] => True
  | o, a :: items => lies a (window mem o) ∧ Placed lies size mem (o+size a) items

/-- Moving by `step` from `o` to `stop` one comes to the items in order. -/
def WalksTo (step : ℕ → ℕ) (found : ℕ → α → Prop) (stop : ℕ) : ℕ → List α → Prop
  | o, [] => o = stop
  | o, a :: items => found o a ∧ WalksTo step found stop (o+step o) items

/-- The items with the places they take from `o` on. -/
def located (size : α → ℕ) : ℕ → List α → List (ℕ × α)
  | _, [] => []
  | o, a :: items => (o,a) :: located size (o+size a) items

variable {write : α → Bytes → Option Bytes} {lies : α → Bytes → Prop} {size : α → ℕ} {items : List α}
variable {mem : Bytes} {o stop : ℕ} {step : ℕ → ℕ} {found found' : ℕ → α → Prop}

/-- Every item is put in its place, and nothing else is written. -/
theorem writeEach_placed
    (hwrite : ∀ a ∈ items, ∀ dst : Bytes, ∃ block, write a dst = some block ∧ lies a block ∧
      ∀ i, size a ≤ i → block i = dst i)
    (hcongr : ∀ a ∈ items, ∀ block block' : Bytes, lies a block → (∀ i < size a, block' i = block i) →
      lies a block') :
    ∃ mem', writeEach write size o items mem = some mem' ∧ Placed lies size mem' o items ∧
      ∀ i, i < o ∨ o+totalSize size items ≤ i → mem' i = mem i := by
  induction items generalizing o mem with
  | nil => exact ⟨mem,rfl,trivial,fun _ _ => rfl⟩
  | cons a items ih =>
    rw [totalSize_cons]
    obtain ⟨block,hblock,hlies,hout⟩ := hwrite a List.mem_cons_self (window mem o)
    obtain ⟨mem',hrun,hplaced,hframe⟩ := ih (fun b hb => hwrite b (List.mem_cons_of_mem a hb))
      (fun b hb => hcongr b (List.mem_cons_of_mem a hb))
    refine ⟨mem',?_,⟨hcongr a List.mem_cons_self block _ hlies (fun i hi => ?_),hplaced⟩,fun i hi => ?_⟩
    · rw [writeEach,hblock]
      exact hrun
    · rw [window,hframe (o+i) (by omega),splice_at]
    · rw [hframe i (by omega)]
      rcases hi with hi | hi
      · exact splice_before hi
      · obtain ⟨j,rfl⟩ := Nat.exists_eq_add_of_le (show o ≤ i by omega)
        rw [splice_at,hout j (by omega)]
        rfl

/-- Where the places of the items are is enough to know what is left alone. -/
theorem writeEach_frame
    (hwrite : ∀ a ∈ items, ∀ dst : Bytes, ∃ block, write a dst = some block ∧ ∀ i, size a ≤ i → block i = dst i) :
    ∃ mem', writeEach write size o items mem = some mem' ∧
      ∀ i, i < o ∨ o+totalSize size items ≤ i → mem' i = mem i := by
  obtain ⟨mem',hrun,-,hframe⟩ := writeEach_placed (fun a ha dst =>
    (hwrite a ha dst).imp (fun _ h => ⟨h.1,trivial,h.2⟩)) (fun _ _ _ _ h _ => h)
  exact ⟨mem',hrun,hframe⟩

theorem writeEach_before {mem' : Bytes} (h : writeEach write size o items mem = some mem') {i : ℕ} (hi : i < o) :
    mem' i = mem i := by
  induction items generalizing o mem with
  | nil => rw [← Option.some.inj h]
  | cons a items ih =>
    simp only [writeEach,Option.bind_eq_bind,Option.bind_eq_some_iff] at h
    obtain ⟨block,-,h⟩ := h
    rw [ih h (Nat.lt_add_right _ hi),splice_before hi]

theorem writeEach_map {β : Type} (f : β → α) (items : List β) :
    writeEach write size o (items.map f) mem = writeEach (fun b => write (f b)) (fun b => size (f b)) o items mem := by
  induction items generalizing o mem with
  | nil => rfl
  | cons b items ih => simp only [List.map_cons,writeEach,ih]

theorem WalksTo.mono (h : WalksTo step found stop o items) (hf : ∀ p, ∀ a ∈ items, found p a → found' p a) :
    WalksTo step found' stop o items := by
  induction items generalizing o with
  | nil => exact h
  | cons a items ih =>
    exact ⟨hf o a List.mem_cons_self h.1,ih h.2 (fun p b hb => hf p b (List.mem_cons_of_mem a hb))⟩

/-- A walk does not go back. -/
theorem WalksTo.forward (h : WalksTo step found stop o items) {first : ℕ} (ho : first ≤ o) :
    WalksTo step (fun p a => first ≤ p ∧ found p a) stop o items := by
  induction items generalizing o with
  | nil => exact h
  | cons a items ih => exact ⟨⟨ho,h.1⟩,ih h.2 (Nat.le_add_right_of_le ho)⟩

theorem Placed.congr {mem' : Bytes} (h : Placed lies size mem o items)
    (hcongr : ∀ a ∈ items, ∀ block block' : Bytes, lies a block → (∀ i < size a, block' i = block i) →
      lies a block')
    (he : ∀ i, o ≤ i → i < o+totalSize size items → mem' i = mem i) : Placed lies size mem' o items := by
  induction items generalizing o with
  | nil => trivial
  | cons a items ih =>
    rw [totalSize_cons] at he
    refine ⟨hcongr a List.mem_cons_self _ _ h.1 (fun i hi => he (o+i) (by omega) (by omega)),?_⟩
    exact ih h.2 (fun b hb => hcongr b (List.mem_cons_of_mem a hb)) (fun i hl hu => he i (by omega) (by omega))

/-- A walk whose step at an item is the size of the item. -/
theorem Placed.walksTo (h : Placed lies size mem o items) (hstop : o+totalSize size items = stop)
    (hfound : ∀ p, ∀ a ∈ items, p+size a ≤ stop → lies a (window mem p) → step p = size a ∧ found p a) :
    WalksTo step found stop o items := by
  induction items generalizing o with
  | nil => exact hstop
  | cons a items ih =>
    rw [totalSize_cons] at hstop
    obtain ⟨hs,hf⟩ := hfound o a List.mem_cons_self (by omega) h.1
    refine ⟨hf,?_⟩
    rw [hs]
    exact ih h.2 (by omega) (fun p b hb => hfound p b (List.mem_cons_of_mem a hb))

theorem located_bounds {x : ℕ × α} (h : x ∈ located size o items) :
    o ≤ x.1 ∧ x.1+size x.2 ≤ o+totalSize size items := by
  induction items generalizing o with
  | nil => cases h
  | cons a items ih =>
    rw [totalSize_cons]
    rcases List.mem_cons.mp h with rfl | h
    · simp only
      omega
    · have hb := ih h
      omega

/-- The walk over located items, in memory where offset 0 is at `base`. -/
theorem walksTo_located {found : ℕ → ℕ × α → Prop} (base : ℕ) (hstop : base+o+totalSize size items = stop)
    (hitem : ∀ x ∈ located size o items, step (base+x.1) = size x.2 ∧ found (base+x.1) x) :
    WalksTo step found stop (base+o) (located size o items) := by
  induction items generalizing o with
  | nil => exact hstop
  | cons a items ih =>
    rw [totalSize_cons] at hstop
    obtain ⟨hs,hf⟩ := hitem (o,a) List.mem_cons_self
    have hstop' : base+(o+size a)+totalSize size items = stop := by omega
    refine ⟨hf,?_⟩
    rw [hs,Nat.add_assoc]
    exact ih hstop' (fun x hx => hitem x (List.mem_cons_of_mem _ hx))

theorem WalksTo.getElem? {n : ℕ} (h : WalksTo (fun _ => n) found stop o items) {i : ℕ} {a : α}
    (ha : items[i]? = some a) : found (o+i*n) a := by
  induction items generalizing o i with
  | nil => simp at ha
  | cons b items ih =>
    cases i with
    | zero =>
      obtain rfl : b = a := by simpa using ha
      simpa using h.1
    | succ i =>
      have hf := ih h.2 (by simpa using ha)
      rwa [Nat.add_assoc,Nat.add_comm n,← Nat.succ_mul] at hf

/-- All records of an array are accepted exactly when all items are. -/
theorem WalksTo.forall_iff {n : ℕ} {accepted : ℕ → Prop} {passes : α → Prop}
    (h : WalksTo (fun _ => n) found stop o items)
    (hf : ∀ p, ∀ a ∈ items, found p a → (accepted p ↔ passes a)) :
    (∀ i < items.length, accepted (o+i*n)) ↔ ∀ a ∈ items, passes a := by
  constructor
  · intro hall a ha
    obtain ⟨i,hi⟩ := List.getElem?_of_mem ha
    exact (hf _ a ha (h.getElem? hi)).mp (hall i (List.getElem?_eq_some_iff.mp hi).1)
  · intro hall i hi
    have hi' := List.getElem?_eq_getElem hi
    have hmem := List.getElem_mem hi
    exact (hf _ _ hmem (h.getElem? hi')).mpr (hall _ hmem)

end Blocks
end OpenFlowController.Memory
