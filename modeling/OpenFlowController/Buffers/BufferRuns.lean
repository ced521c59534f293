import OpenFlowController.Buffers.Buffer

/-! # Runs over buffers

A run starts without any buffer and works on those it has obtained. Which calls
leave every buffer well placed depends on the gap in front of the content and on
whether a new block is granted.
-/
namespace OpenFlowController.Buffers
open Memory

/-- The buffers obtained so far, in the store. -/
structure State where
  store : Store
  obtained : List ℕ

/-- A call with whether `malloc` would grant a block. -/
inductive BufferCall
  | allocBuffer
  | allocBufferWithLength (length : UInt64) (granted : Bool)
  | appendFrontBuffer (buf : ℕ) (length : UInt64) (granted : Bool)
  | appendBackBuffer (buf : ℕ) (length : UInt64) (granted : Bool)
  | removeFrontBuffer (buf : ℕ) (length : UInt64)
  | duplicateBuffer (buf : ℕ) (granted : Bool)

def State.initial : State := ⟨⟨Heap.empty,Heap.empty⟩,[]⟩

namespace BufferCall

/-- What is called with a buffer that has been obtained, and takes no more away
than there is. -/
def Allowed (s : State) : BufferCall → Prop
  | allocBuffer | allocBufferWithLength _ _ => True
  | appendFrontBuffer buf _ _ | appendBackBuffer buf _ _ | duplicateBuffer buf _ => buf ∈ s.obtained
  | removeFrontBuffer buf length => buf ∈ s.obtained ∧ ∀ b, s.store.buffers.load buf = some b → length.toNat ≤ b.length

def run (s : State) : BufferCall → Option State
  | allocBuffer =>
    let (buf,store) := Buffers.allocBuffer s.store
    some ⟨store,buf :: s.obtained⟩
  | allocBufferWithLength length granted =>
    let (buf,store) := Buffers.allocBufferWithLength granted length.toNat s.store
    some ⟨store,buf :: s.obtained⟩
  | appendFrontBuffer buf length granted => do
    let (_,store) ← Buffers.appendFrontBuffer granted buf length.toNat s.store
    return { s with store }
  | appendBackBuffer buf length granted => do
    let (_,store) ← Buffers.appendBackBuffer granted buf length.toNat s.store
    return { s with store }
  | removeFrontBuffer buf length => do
    let (_,store) ← Buffers.removeFrontBuffer buf length.toNat s.store
    return { s with store }
  | duplicateBuffer buf granted => do
    let (newBuffer,store) ← Buffers.duplicateBuffer granted buf s.store
    return ⟨store,newBuffer.toList++s.obtained⟩

end BufferCall

/-- Either there is neither content nor data, or the content lies in the block that
`top` is the start of. -/
def WellPlaced (blocks : Heap ℕ) (b : Buffer) : Prop :=
  b.length = 0 ∧ b.data = none ∨ ∃ block offset size, b.top = some (block,0) ∧ b.data = some (block,offset) ∧
    blocks.load block = some size ∧ offset+b.length ≤ size

def State.Sound (s : State) : Prop :=
  ∀ buf ∈ s.obtained, ∃ b, s.store.buffers.load buf = some b ∧ WellPlaced s.store.blocks b

/-- The calls that come back and leave every buffer well placed. -/
def BufferCall.Fits (s : State) : BufferCall → Prop
  | allocBuffer => True
  | allocBufferWithLength length granted => length = 0 ∨ mallocGrants granted length.toNat = true
  | appendFrontBuffer buf length granted => ∀ block front content size, s.store.Holds buf block front content size →
      if (front+content+length.toNat)%2^64 ≤ content then length = 0
      else mallocGrants granted ((front+content+length.toNat)%2^64) = false
  | appendBackBuffer buf length granted => ∀ block front content size, s.store.Holds buf block front content size →
      content = 0 ∨ front+(content+length.toNat)%2^64 ≤ size ∧
        ((front+content+length.toNat)%2^64 ≤ content ∨ mallocGrants granted ((front+content+length.toNat)%2^64) = false)
  | removeFrontBuffer _ _ => True
  | duplicateBuffer buf granted => ∀ block front content size, s.store.Holds buf block front content size →
      content = 0 ∨ front = 0 ∧ mallocGrants granted content = true

/-- In every state of the run. -/
def AlwaysSound : State → List BufferCall → Prop
  | s, [] => s.Sound
  | s, call :: calls => s.Sound ∧ (call.Allowed s → ∃ s', call.run s = some s' ∧ AlwaysSound s' calls)

def AlwaysFits : State → List BufferCall → Prop
  | _, [] => True
  | s, call :: calls => call.Allowed s → call.Fits s ∧ ∀ s', call.run s = some s' → AlwaysFits s' calls

/-- The two shapes of a buffer in a run of such calls. -/
inductive Kept (blocks : Heap ℕ) : Buffer → Prop
  | empty : Kept blocks ⟨none,none,0⟩
  | placed {block front content size : ℕ} (hblock : blocks.load block = some size) (hsize : size < 2^63)
    (hfits : front+content ≤ size) : Kept blocks ⟨some (block,front),some (block,0),content⟩

def State.Kept (s : State) : Prop :=
  ∀ buf ∈ s.obtained, ∃ b, s.store.buffers.load buf = some b ∧ Buffers.Kept s.store.blocks b

section Rules
variable {s s' : State} {store store' : Store} {blocks blocks' : Heap ℕ} {b b' : Buffer} {buf : ℕ}

theorem Kept.wellPlaced (h : Kept blocks b) : WellPlaced blocks b := by
  cases h with
  | empty => exact Or.inl ⟨rfl,rfl⟩
  | placed hblock hsize hfits => exact Or.inr ⟨_,_,_,rfl,rfl,hblock,hfits⟩

theorem State.Kept.sound (h : s.Kept) : s.Sound := by
  intro buf hbuf
  obtain ⟨b,hb,hkept⟩ := h buf hbuf
  exact ⟨b,hb,hkept.wellPlaced⟩

theorem Kept.mono (h : Kept blocks b) (hb : ∀ p n, blocks.load p = some n → blocks'.load p = some n) :
    Kept blocks' b := by
  cases h with
  | empty => exact .empty
  | placed hblock hsize hfits => exact .placed (hb _ _ hblock) hsize hfits

/-- Nothing that was there is changed. -/
structure Grows (store store' : Store) : Prop where
  buffers : ∀ p b, store.buffers.load p = some b → store'.buffers.load p = some b
  blocks : ∀ p n, store.blocks.load p = some n → store'.blocks.load p = some n

theorem Grows.trans {store'' : Store} (h : Grows store store') (h' : Grows store' store'') : Grows store store'' :=
  ⟨fun p b hb => h'.buffers p b (h.buffers p b hb),fun p n hn => h'.blocks p n (h.blocks p n hn)⟩

theorem load_alloc_of_some {α : Type} {heap : Heap α} {p : ℕ} {a : α} (h : heap.load p = some a) (c : α) :
    (heap.alloc c).load p = some a := by
  rw [Heap.load_alloc_of_ne heap c (Heap.ne_next h),h]

theorem malloc_grows (granted : Bool) (size : ℕ) (store : Store) : Grows store (malloc granted size store).2 := by
  rw [malloc]
  split
  · exact ⟨fun _ _ h => h,fun _ _ h => load_alloc_of_some h _⟩
  · exact ⟨fun _ _ h => h,fun _ _ h => h⟩

theorem allocBuffer_grows (store : Store) : Grows store (allocBuffer store).2 :=
  ⟨fun _ _ h => load_alloc_of_some h _,fun _ _ h => h⟩

theorem allocBufferWithLength_grows (granted : Bool) (length : ℕ) (store : Store) :
    Grows store (allocBufferWithLength granted length store).2 := by
  have hgrows := malloc_grows granted length store
  exact ⟨fun p b h => load_alloc_of_some (hgrows.buffers p b h) _,hgrows.blocks⟩

theorem State.Kept.grow (h : s.Kept) (hgrows : Grows s.store store') : State.Kept ⟨store',s.obtained⟩ := by
  intro buf hbuf
  obtain ⟨b,hb,hkept⟩ := h buf hbuf
  exact ⟨b,hgrows.buffers buf b hb,hkept.mono hgrows.blocks⟩

theorem State.Kept.obtain {obtained : List ℕ} (h : State.Kept ⟨store,obtained⟩)
    (hb : store.buffers.load buf = some b) (hkept : Buffers.Kept store.blocks b) :
    State.Kept ⟨store,buf :: obtained⟩ := by
  intro buf' hbuf'
  rcases List.mem_cons.mp hbuf' with rfl | hbuf'
  · exact ⟨b,hb,hkept⟩
  · exact h buf' hbuf'

/-- One record is changed. -/
theorem State.Kept.replace (h : s.Kept) (hb : s.store.buffers.load buf = some b)
    (hkept : Buffers.Kept s.store.blocks b') :
    State.Kept ⟨{ s.store with buffers := s.store.buffers.put buf (some b') },s.obtained⟩ := by
  intro buf' hbuf'
  obtain ⟨c,hc,hckept⟩ := h buf' hbuf'
  by_cases heq : buf' = buf
  · exact ⟨b',by rw [heq]; exact Heap.load_put_self hb _,hkept⟩
  · exact ⟨c,(Heap.load_put_of_ne heq _).trans hc,hckept⟩

theorem State.Kept.cases (h : s.Kept) (hbuf : buf ∈ s.obtained) :
    s.store.buffers.load buf = some ⟨none,none,0⟩ ∨ ∃ block front content size,
      s.store.Holds buf block front content size ∧ front+content ≤ size ∧ size < 2^63 := by
  obtain ⟨b,hb,hkept⟩ := h buf hbuf
  cases hkept with
  | empty => exact Or.inl hb
  | placed hblock hsize hfits => exact Or.inr ⟨_,_,_,_,⟨hb,hblock⟩,hfits,hsize⟩

theorem State.Kept.bounds (h : s.Kept) (hbuf : buf ∈ s.obtained) {block front content size : ℕ}
    (hholds : s.store.Holds buf block front content size) : front+content ≤ size ∧ size < 2^63 := by
  rcases h.cases hbuf with hempty | ⟨block',front',content',size',hholds',hfits,hsize⟩
  · exact absurd (hempty.symm.trans hholds.record) (by simp)
  · have hrecord := Option.some.inj (hholds'.record.symm.trans hholds.record)
    simp only [Buffer.mk.injEq,Option.some.injEq,Prod.mk.injEq,and_true] at hrecord
    obtain ⟨⟨rfl,rfl⟩,-,rfl⟩ := hrecord
    obtain rfl := Option.some.inj (hholds'.block.symm.trans hholds.block)
    exact ⟨hfits,hsize⟩

theorem mallocGrants_lt {granted : Bool} {size : ℕ} (h : mallocGrants granted size = true) : size < 2^63 := by
  simpa using (Bool.and_eq_true_iff.mp h).2

theorem wellPlaced_iff {block front content size : ℕ} (hblock : blocks.load block = some size) :
    WellPlaced blocks ⟨some (block,front),some (block,0),content⟩ ↔ front+content ≤ size := by
  constructor
  · rintro (⟨-,hnull⟩ | ⟨block',offset,size',htop,hdata,hload,hfits⟩)
    · cases hnull
    · simp only [Option.some.injEq,Prod.mk.injEq,and_true] at htop hdata
      obtain ⟨rfl,rfl⟩ := hdata
      obtain rfl := Option.some.inj (hblock.symm.trans hload)
      exact hfits
  · intro hfits
    exact Or.inr ⟨block,front,size,rfl,rfl,hblock,hfits⟩

theorem allocBufferWithLength_refused {granted : Bool} {length : ℕ} (h : mallocGrants granted length = false)
    (store : Store) : allocBufferWithLength granted length store =
      (store.buffers.next,{ store with buffers := store.buffers.alloc ⟨none,none,length⟩ }) := by
  rw [allocBufferWithLength,malloc_refused h]

theorem allocBufferWithLength_granted {granted : Bool} {length : ℕ} (h : mallocGrants granted length = true)
    (store : Store) : allocBufferWithLength granted length store =
      (store.buffers.next,⟨store.buffers.alloc ⟨some (store.blocks.next,0),some (store.blocks.next,0),length⟩,
        store.blocks.alloc length⟩) := by
  rw [allocBufferWithLength,malloc_granted h]

theorem State.Kept.allocBufferWithLength (h : s.Kept) {length : UInt64} {granted : Bool}
    (hf : (BufferCall.allocBufferWithLength length granted).Fits s) :
    ∃ s', (BufferCall.allocBufferWithLength length granted).run s = some s' ∧ s'.Kept := by
  have hgrown := h.grow (allocBufferWithLength_grows granted length.toNat s.store)
  cases hm : mallocGrants granted length.toNat with
  | true =>
    have hrun := allocBufferWithLength_granted hm s.store
    rw [hrun] at hgrown
    exact ⟨_,by simp only [BufferCall.run,hrun],hgrown.obtain (Heap.load_alloc_next _ _)
      (.placed (Heap.load_alloc_next _ _) (mallocGrants_lt hm) (Nat.le_of_eq (Nat.zero_add _)))⟩
  | false =>
    have hzero : length = 0 := hf.resolve_right (by simp [hm])
    subst hzero
    have hrun := allocBufferWithLength_refused hm s.store
    rw [hrun] at hgrown
    exact ⟨_,by simp only [BufferCall.run,hrun],hgrown.obtain (Heap.load_alloc_next _ _) .empty⟩

theorem State.Kept.appendFrontBuffer (h : s.Kept) (hbuf : buf ∈ s.obtained) {length : UInt64} {granted : Bool}
    (hf : (BufferCall.appendFrontBuffer buf length granted).Fits s) :
    ∃ s', (BufferCall.appendFrontBuffer buf length granted).run s = some s' ∧ s'.Kept := by
  rcases h.cases hbuf with hempty | ⟨block,front,content,size,hholds,hfits,hsize⟩
  · obtain ⟨p,hrun⟩ := appendFrontBuffer_empty hempty rfl granted length.toNat
    exact ⟨_,by rw [BufferCall.run,hrun]; rfl,h.grow (allocBufferWithLength_grows _ _ _)⟩
  · have hf := hf block front content size hholds
    refine ⟨s,?_,h⟩
    split at hf
    · rename_i halready
      subst hf
      rw [BufferCall.run,appendFrontBuffer_already hholds hfits hsize halready]
      rfl
    · rename_i hmore
      rw [BufferCall.run,appendFrontBuffer_refused hholds (by omega) hmore hf]
      rfl

theorem State.Kept.appendBackBuffer (h : s.Kept) (hbuf : buf ∈ s.obtained) {length : UInt64} {granted : Bool}
    (hf : (BufferCall.appendBackBuffer buf length granted).Fits s) :
    ∃ s', (BufferCall.appendBackBuffer buf length granted).run s = some s' ∧ s'.Kept := by
  rcases h.cases hbuf with hempty | ⟨block,front,content,size,hholds,hfits,hsize⟩
  · obtain ⟨p,hrun⟩ := appendBackBuffer_empty hempty rfl granted length.toNat
    exact ⟨_,by rw [BufferCall.run,hrun]; rfl,h.grow (allocBufferWithLength_grows _ _ _)⟩
  · by_cases hzero : content = 0
    · obtain ⟨p,hrun⟩ := appendBackBuffer_empty hholds.record hzero granted length.toNat
      exact ⟨_,by rw [BufferCall.run,hrun]; rfl,h.grow (allocBufferWithLength_grows _ _ _)⟩
    · obtain ⟨hroom,hbranch⟩ := (hf block front content size hholds).resolve_left hzero
      refine ⟨⟨s.store.lengthen buf block front content length.toNat,s.obtained⟩,?_,
        h.replace hholds.record (.placed hholds.block hsize hroom)⟩
      by_cases halready : (front+content+length.toNat)%2^64 ≤ content
      · rw [BufferCall.run,appendBackBuffer_already hholds (by omega) hzero halready]
        rfl
      · rw [BufferCall.run,appendBackBuffer_refused hholds (by omega) hzero halready (hbranch.resolve_left halready)]
        rfl

theorem State.Kept.removeFrontBuffer (h : s.Kept) {length : UInt64}
    (ha : (BufferCall.removeFrontBuffer buf length).Allowed s) :
    ∃ s', (BufferCall.removeFrontBuffer buf length).run s = some s' ∧ s'.Kept := by
  obtain ⟨hbuf,hlength⟩ := ha
  rcases h.cases hbuf with hempty | ⟨block,front,content,size,hholds,hfits,hsize⟩
  · have hzero : length.toNat = 0 := Nat.le_zero.mp (hlength _ hempty)
    exact ⟨_,by rw [BufferCall.run,hzero,removeFrontBuffer_empty hempty]; rfl,h.replace hempty .empty⟩
  · have hless : length.toNat ≤ content := hlength _ hholds.record
    exact ⟨_,by rw [BufferCall.run,removeFrontBuffer_placed hholds (by omega) hless]; rfl,
      h.replace hholds.record (.placed hholds.block hsize (by omega))⟩

theorem State.Kept.duplicateBuffer (h : s.Kept) (hbuf : buf ∈ s.obtained) {granted : Bool}
    (hf : (BufferCall.duplicateBuffer buf granted).Fits s) :
    ∃ s', (BufferCall.duplicateBuffer buf granted).run s = some s' ∧ s'.Kept := by
  have hgrown := h.grow (allocBuffer_grows s.store)
  rcases h.cases hbuf with hempty | ⟨block,front,content,size,hholds,hfits,hsize⟩
  · exact ⟨_,by rw [BufferCall.run,duplicateBuffer_empty hempty rfl]; rfl,hgrown⟩
  · by_cases hzero : content = 0
    · exact ⟨_,by rw [BufferCall.run,duplicateBuffer_empty hholds.record hzero]; rfl,hgrown⟩
    · obtain ⟨rfl,hgranted⟩ := (hf block front content size hholds).resolve_left hzero
      obtain ⟨store',hrun,hbuffers,hblocks,hnew⟩ := duplicateBuffer_granted hholds hfits (by omega) hzero hgranted
      refine ⟨_,by rw [BufferCall.run,hrun]; rfl,?_⟩
      have hgrows : Grows s.store store' :=
        ⟨hbuffers,fun p n hn => by rw [hblocks]; exact load_alloc_of_some hn _⟩
      exact (h.grow hgrows).obtain hnew (.placed (by rw [hblocks]; exact Heap.load_alloc_next _ _)
        (mallocGrants_lt hgranted) (Nat.le_of_eq (Nat.zero_add _)))

/-- Step lemma: a fitting call comes back and keeps every buffer in one of the two shapes. -/
theorem BufferCall.run_kept {call : BufferCall} (h : s.Kept) (ha : call.Allowed s) (hf : call.Fits s) :
    ∃ s', call.run s = some s' ∧ s'.Kept := by
  cases call with
  | allocBuffer => exact ⟨_,rfl,(h.grow (allocBuffer_grows s.store)).obtain (Heap.load_alloc_next _ _) .empty⟩
  | allocBufferWithLength length granted => exact h.allocBufferWithLength hf
  | appendFrontBuffer buf length granted => exact h.appendFrontBuffer ha hf
  | appendBackBuffer buf length granted => exact h.appendBackBuffer ha hf
  | removeFrontBuffer buf length => exact h.removeFrontBuffer ha
  | duplicateBuffer buf granted => exact h.duplicateBuffer ha hf

theorem State.Sound.wellPlaced (h : s.Sound) (hbuf : buf ∈ s.obtained) (hb : s.store.buffers.load buf = some b) :
    WellPlaced s.store.blocks b := by
  obtain ⟨b',hb',hwell⟩ := h buf hbuf
  obtain rfl := Option.some.inj (hb'.symm.trans hb)
  exact hwell

/-- The longer content has room in the block it lies in. -/
theorem State.Sound.room {block front content size length : ℕ} (hbuf : buf ∈ s.obtained)
    (hholds : s.store.Holds buf block front content size)
    (h : State.Sound ⟨s.store.lengthen buf block front content length,s.obtained⟩) :
    front+(content+length)%2^64 ≤ size :=
  (wellPlaced_iff hholds.block).mp (h.wellPlaced hbuf (Heap.load_put_self hholds.record _))

theorem allocBufferWithLength_fits {length : UInt64} {granted : Bool}
    (hrun : (BufferCall.allocBufferWithLength length granted).run s = some s') (hs : s'.Sound) :
    (BufferCall.allocBufferWithLength length granted).Fits s := by
  cases hm : mallocGrants granted length.toNat with
  | true => exact Or.inr hm
  | false =>
    simp only [BufferCall.run,allocBufferWithLength_refused hm,Option.some.injEq] at hrun
    subst hrun
    rcases hs.wellPlaced List.mem_cons_self (Heap.load_alloc_next _ _) with ⟨hzero,-⟩ | ⟨block,offset,size,htop,-⟩
    · exact Or.inl (UInt64.toNat_inj.mp hzero)
    · cases htop

theorem State.Kept.appendFrontBuffer_fits (h : s.Kept) (hbuf : buf ∈ s.obtained) {length : UInt64} {granted : Bool}
    (hrun : (BufferCall.appendFrontBuffer buf length granted).run s = some s') :
    (BufferCall.appendFrontBuffer buf length granted).Fits s := by
  intro block front content size hholds
  obtain ⟨hfits,hsize⟩ := h.bounds hbuf hholds
  split
  · rename_i halready
    rw [BufferCall.run,appendFrontBuffer_already hholds hfits hsize halready] at hrun
    by_contra hne
    have hpos : ¬ length.toNat = 0 := fun hzero => hne (UInt64.toNat_inj.mp hzero)
    rw [if_neg hpos] at hrun
    cases hrun
  · rename_i hmore
    by_contra hgranted
    rw [BufferCall.run,appendFrontBuffer_granted hholds (by omega) hmore (by simpa using hgranted)] at hrun
    cases hrun

theorem State.Kept.appendBackBuffer_fits (h : s.Kept) (hbuf : buf ∈ s.obtained) {length : UInt64} {granted : Bool}
    (hrun : (BufferCall.appendBackBuffer buf length granted).run s = some s') (hs : s'.Sound) :
    (BufferCall.appendBackBuffer buf length granted).Fits s := by
  intro block front content size hholds
  obtain ⟨hfits,hsize⟩ := h.bounds hbuf hholds
  by_cases hzero : content = 0
  · exact Or.inl hzero
  right
  by_cases halready : (front+content+length.toNat)%2^64 ≤ content
  · rw [BufferCall.run,appendBackBuffer_already hholds (by omega) hzero halready] at hrun
    obtain rfl := Option.some.inj hrun
    exact ⟨State.Sound.room hbuf hholds hs,Or.inl halready⟩
  · cases hm : mallocGrants granted ((front+content+length.toNat)%2^64) with
    | false =>
      rw [BufferCall.run,appendBackBuffer_refused hholds (by omega) hzero halready hm] at hrun
      obtain rfl := Option.some.inj hrun
      exact ⟨State.Sound.room hbuf hholds hs,Or.inr rfl⟩
    | true =>
      simp only [BufferCall.run,Option.bind_eq_bind,Option.bind_eq_some_iff,Prod.exists,Option.pure_def,
        Option.some.injEq] at hrun
      obtain ⟨p,store',hback,rfl⟩ := hrun
      obtain ⟨block',hrecord,hblock',hhalf⟩ :=
        appendBackBuffer_granted hholds hfits hsize hzero length.toNat_lt halready hm hback
      have hroom := (wellPlaced_iff hblock').mp (hs.wellPlaced hbuf hrecord)
      omega

theorem State.Kept.duplicateBuffer_fits (h : s.Kept) (hbuf : buf ∈ s.obtained) {granted : Bool}
    (hrun : (BufferCall.duplicateBuffer buf granted).run s = some s') (hs : s'.Sound) :
    (BufferCall.duplicateBuffer buf granted).Fits s := by
  intro block front content size hholds
  obtain ⟨hfits,hsize⟩ := h.bounds hbuf hholds
  by_cases hzero : content = 0
  · exact Or.inl hzero
  right
  cases hm : mallocGrants granted content with
  | false =>
    rw [BufferCall.run,duplicateBuffer_refused hholds hzero hm] at hrun
    cases hrun
  | true =>
    obtain ⟨store',hduplicate,-,hblocks,hnew⟩ := duplicateBuffer_granted hholds hfits (by omega) hzero hm
    rw [BufferCall.run,hduplicate] at hrun
    obtain rfl := Option.some.inj hrun
    have hroom := (wellPlaced_iff (by rw [hblocks]; exact Heap.load_alloc_next _ _)).mp
      (hs.wellPlaced List.mem_cons_self hnew)
    exact ⟨by omega,rfl⟩

/-- Step lemma, the other way: only a fitting call leaves every buffer well placed. -/
theorem BufferCall.fits_of_sound {call : BufferCall} (h : s.Kept) (ha : call.Allowed s)
    (hrun : call.run s = some s') (hs : s'.Sound) : call.Fits s := by
  cases call with
  | allocBuffer => trivial
  | allocBufferWithLength length granted => exact allocBufferWithLength_fits hrun hs
  | appendFrontBuffer buf length granted => exact h.appendFrontBuffer_fits ha hrun
  | appendBackBuffer buf length granted => exact h.appendBackBuffer_fits ha hrun hs
  | removeFrontBuffer buf length => trivial
  | duplicateBuffer buf granted => exact h.duplicateBuffer_fits ha hrun hs

theorem AlwaysSound.sound {calls : List BufferCall} (h : AlwaysSound s calls) : s.Sound := by
  cases calls with
  | nil => exact h
  | cons call calls => exact h.1

theorem State.Kept.alwaysSound_iff (h : s.Kept) (calls : List BufferCall) : AlwaysSound s calls ↔ AlwaysFits s calls := by
  induction calls generalizing s with
  | nil => exact iff_of_true h.sound trivial
  | cons call calls ih =>
    refine (and_iff_right h.sound).trans (forall_congr' (fun ha => ?_))
    constructor
    · rintro ⟨s',hrun,hsound⟩
      have hfits := BufferCall.fits_of_sound h ha hrun hsound.sound
      obtain ⟨t,ht,hkept⟩ := BufferCall.run_kept h ha hfits
      obtain rfl := Option.some.inj (hrun.symm.trans ht)
      refine ⟨hfits,fun t ht => ?_⟩
      obtain rfl := Option.some.inj (hrun.symm.trans ht)
      exact (ih hkept).mp hsound
    · rintro ⟨hfits,hrest⟩
      obtain ⟨s',hrun,hkept⟩ := BufferCall.run_kept h ha hfits
      exact ⟨s',hrun,(ih hkept).mpr (hrest s' hrun)⟩

theorem State.initial_kept : State.initial.Kept := fun _ hbuf => absurd hbuf List.not_mem_nil

/-- The exact runs that come back and keep every buffer they obtain well placed. -/
theorem buffers_alwaysSound_iff (calls : List BufferCall) :
    AlwaysSound State.initial calls ↔ AlwaysFits State.initial calls := State.initial_kept.alwaysSound_iff calls

/-- Four bytes after four make a length of twelve in a block of eight. -/
theorem appendBack_not_alwaysSound :
    ¬ AlwaysSound State.initial [.allocBufferWithLength 4 true,.appendBackBuffer 0 4 true] := by
  rintro ⟨-,h⟩
  obtain ⟨s,hs,-,h⟩ := h trivial
  obtain rfl := Option.some.inj hs
  obtain ⟨s,hs,hsound⟩ := h List.mem_cons_self
  obtain rfl := Option.some.inj hs
  obtain ⟨b,hb,hwell⟩ := hsound 0 List.mem_cons_self
  obtain rfl := Option.some.inj hb
  rcases hwell with ⟨hzero,-⟩ | ⟨block,offset,size,htop,hdata,hload,hfits⟩
  · exact absurd hzero (by decide)
  · obtain ⟨rfl,-⟩ := Prod.mk.inj (Option.some.inj htop)
    obtain ⟨-,rfl⟩ := Prod.mk.inj (Option.some.inj hdata)
    obtain rfl := Option.some.inj hload
    exact absurd hfits (by decide)

end Rules
end OpenFlowController.Buffers
