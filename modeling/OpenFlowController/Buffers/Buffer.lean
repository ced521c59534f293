import Mathlib.Algebra.Ring.Nat
import OpenFlowController.Memory.Heap

/-! # Buffers

A buffer is a record of pointers into a block of memory. Blocks are known by their
size here: what they hold has no part in where the pointers lie. An access outside
a block, or to a record that has been freed, has no result.
-/
namespace OpenFlowController.Buffers
open Memory

/-- A block and an offset in it, or NULL. -/
abbrev Pointer := Option (ℕ × ℕ)

structure Buffer where
  data : Pointer
  top : Pointer
  length : ℕ

structure Store where
  buffers : Heap Buffer
  blocks : Heap ℕ

/-- Pointer arithmetic forwards. NULL stays NULL and goes nowhere. -/
def advance : Pointer → ℕ → Option Pointer
  | some (block,offset), n => some (some (block,offset+n))
  | none, 0 => some none
  | none, _+1 => none

namespace Store

def accessible (s : Store) : Pointer → ℕ → Bool
  | _, 0 => true
  | none, _+1 => false
  | some (block,offset), n+1 =>
    match s.blocks.load block with
    | some size => offset+(n+1) ≤ size
    | none => false

/-- Whether `memcpy` or `memmove` comes back. -/
def copy (s : Store) (dst src : Pointer) (n : ℕ) : Option Unit :=
  if s.accessible dst n && s.accessible src n then some () else none

def memset (s : Store) (dst : Pointer) (n : ℕ) : Option Unit := if s.accessible dst n then some () else none

def freeBlock (s : Store) : Pointer → Option Store
  | none => some s
  | some (block,0) => do
    let blocks ← s.blocks.free block
    return { s with blocks }
  | some (_,_+1) => none

end Store

/-- No object is larger than what a pointer difference can express. -/
def mallocGrants (granted : Bool) (size : ℕ) : Bool := granted && size < 2^63

def malloc (granted : Bool) (size : ℕ) (s : Store) : Pointer × Store :=
  if mallocGrants granted size then (some (s.blocks.next,0),{ s with blocks := s.blocks.alloc size }) else (none,s)

/-- The difference of two pointers into one block, as a `size_t`. -/
def frontLengthOf (buf : Buffer) : Option ℕ :=
  match buf.data, buf.top with
  | some (block,offset), some (block',offset') =>
    if block = block' then some ((offset+2^64-offset')%2^64) else none
  | none, none => some 0
  | _, _ => none

def alreadyAllocated (buf : Buffer) (length : ℕ) : Option Bool := do
  let frontLen ← frontLengthOf buf
  let requiredLen := (frontLen+buf.length+length)%2^64
  return buf.length ≥ requiredLen

/-- The record is freed in place of the block, and used after that. -/
def appendFront (granted : Bool) (buf length : ℕ) (s : Store) : Option (Option ℕ × Store) := do
  let b ← s.buffers.load buf
  let frontLength ← frontLengthOf b
  let newLength := (frontLength+b.length+length)%2^64
  let (newData,s) := malloc granted newLength s
  if newData = none then return (none,s)
  s.copy (← advance newData (frontLength+length)) b.data b.length
  let s := { s with buffers := ← s.buffers.free buf }
  let b ← s.buffers.load buf
  let data ← advance newData (← frontLengthOf b)
  let s := { s with buffers := ← s.buffers.store buf ⟨data,newData,newLength⟩ }
  return (some buf,s)

/-- The new length counts the gap in front of the content. -/
def appendBack (granted : Bool) (buf length : ℕ) (s : Store) : Option (Option ℕ × Store) := do
  let b ← s.buffers.load buf
  let len ← frontLengthOf b
  let newLength := (len+b.length+length)%2^64
  let (newData,s) := malloc granted newLength s
  if newData = none then return (none,s)
  s.copy (← advance newData len) b.data b.length
  let s ← s.freeBlock b.top
  let data ← advance newData (← frontLengthOf b)
  let s := { s with buffers := ← s.buffers.store buf ⟨data,newData,newLength⟩ }
  return (some buf,s)

/-- The record itself is always granted. -/
def allocEmptyData (s : Store) : ℕ × Store :=
  (s.buffers.next,{ s with buffers := s.buffers.alloc ⟨none,none,0⟩ })

def allocBuffer (s : Store) : ℕ × Store := allocEmptyData s

/-- Nothing is said to the caller where the block is not granted. -/
def allocBufferWithLength (granted : Bool) (length : ℕ) (s : Store) : ℕ × Store :=
  let (data,s) := malloc granted length s
  (s.buffers.next,{ s with buffers := s.buffers.alloc ⟨data,data,length⟩ })

/-- For a buffer without a block a new one is made and forgotten. -/
def appendFrontBuffer (granted : Bool) (buf length : ℕ) (s : Store) : Option (Pointer × Store) := do
  let b ← s.buffers.load buf
  if b.top = none then
    let (buf,s) := allocBufferWithLength granted length s
    return ((← s.buffers.load buf).data,s)
  if ← alreadyAllocated b length then
    s.copy (← advance b.data length) b.data b.length
    s.memset b.data length
    return (b.data,s)
  else
    let (_,s) ← appendFront granted buf length s
    return ((← s.buffers.load buf).data,s)

def removeFrontBuffer (buf length : ℕ) (s : Store) : Option (Pointer × Store) := do
  let b ← s.buffers.load buf
  let data ← advance b.data length
  let s := { s with buffers := ← s.buffers.store buf { b with data, length := (b.length+2^64-length)%2^64 } }
  return (data,s)

/-- Whatever becomes of the new block, the length grows at the end. -/
def appendBackBuffer (granted : Bool) (buf length : ℕ) (s : Store) : Option (Pointer × Store) := do
  let b ← s.buffers.load buf
  if b.length = 0 then
    let (buf,s) := allocBufferWithLength granted length s
    return ((← s.buffers.load buf).data,s)
  let s ← if ← alreadyAllocated b length then some s else (appendBack granted buf length s).map Prod.snd
  let b ← s.buffers.load buf
  let s := { s with buffers := ← s.buffers.store buf { b with length := (b.length+length)%2^64 } }
  return (b.data,s)

/-- The new block is as long as the content, and the gap is kept in front of it. -/
def duplicateBuffer (granted : Bool) (buf : ℕ) (s : Store) : Option (Option ℕ × Store) := do
  let (_,s) := allocBuffer s
  let oldBuffer ← s.buffers.load buf
  if oldBuffer.length = 0 then return (none,s)
  let (newBuffer,s) := allocBufferWithLength granted oldBuffer.length s
  let b ← s.buffers.load newBuffer
  s.copy b.top oldBuffer.top oldBuffer.length
  let data ← advance b.top (← frontLengthOf oldBuffer)
  let s := { s with buffers := ← s.buffers.store newBuffer { b with data, length := oldBuffer.length } }
  return (some newBuffer,s)

/-- The buffer has `content` bytes behind a gap of `front` in a block of `size`. -/
structure Store.Holds (s : Store) (buf block front content size : ℕ) : Prop where
  record : s.buffers.load buf = some ⟨some (block,front),some (block,0),content⟩
  block : s.blocks.load block = some size

section Rules
variable {s : Store} {buf block front content size length : ℕ} {granted : Bool} {b : Buffer}

theorem accessible_of_le {offset n : ℕ} (hblock : s.blocks.load block = some size) (h : offset+n ≤ size) :
    s.accessible (some (block,offset)) n = true := by
  cases n with
  | zero => rfl
  | succ n => simpa [Store.accessible,hblock] using h

theorem not_accessible {offset n : ℕ} (hblock : s.blocks.load block = some size) (hpos : n ≠ 0)
    (h : size < offset+n) : s.accessible (some (block,offset)) n = false := by
  obtain ⟨n,rfl⟩ := Nat.exists_eq_succ_of_ne_zero hpos
  simpa [Store.accessible,hblock] using h

theorem malloc_granted (h : mallocGrants granted size = true) (s : Store) :
    malloc granted size s = (some (s.blocks.next,0),{ s with blocks := s.blocks.alloc size }) := if_pos h

theorem malloc_refused (h : mallocGrants granted size = false) (s : Store) : malloc granted size s = (none,s) :=
  if_neg (by simp [h])

theorem frontLengthOf_placed (h : front < 2^64) :
    frontLengthOf ⟨some (block,front),some (block,0),content⟩ = some front := by
  simp only [frontLengthOf,if_true,Nat.sub_zero,Nat.add_mod_right,Nat.mod_eq_of_lt h]

theorem alreadyAllocated_placed (h : front < 2^64) (length : ℕ) :
    alreadyAllocated ⟨some (block,front),some (block,0),content⟩ length =
      some (decide ((front+content+length)%2^64 ≤ content)) := by
  rw [alreadyAllocated,frontLengthOf_placed h]
  rfl

/-- What the caller's buffer is without: everything stays as it is but for a block
that nobody knows. -/
theorem appendFrontBuffer_empty (hb : s.buffers.load buf = some b) (htop : b.top = none) (granted : Bool)
    (length : ℕ) : ∃ p, appendFrontBuffer granted buf length s = some (p,(allocBufferWithLength granted length s).2) := by
  refine ⟨(malloc granted length s).1,?_⟩
  simp only [appendFrontBuffer,hb,htop,allocBufferWithLength,Option.bind_eq_bind,Option.bind_some,if_true]
  rw [Heap.load_alloc,if_pos rfl]
  rfl

theorem appendBackBuffer_empty (hb : s.buffers.load buf = some b) (hlength : b.length = 0) (granted : Bool)
    (length : ℕ) : ∃ p, appendBackBuffer granted buf length s = some (p,(allocBufferWithLength granted length s).2) := by
  refine ⟨(malloc granted length s).1,?_⟩
  simp only [appendBackBuffer,hb,hlength,allocBufferWithLength,Option.bind_eq_bind,Option.bind_some,if_true]
  rw [Heap.load_alloc,if_pos rfl]
  rfl

theorem appendFront_refused (h : s.Holds buf block front content size) (hfront : front < 2^64)
    (hrefused : mallocGrants granted ((front+content+length)%2^64) = false) :
    appendFront granted buf length s = some (none,s) := by
  simp only [appendFront,h.record,frontLengthOf_placed hfront,malloc_refused hrefused,Option.bind_eq_bind,
    Option.bind_some,if_true]
  rfl

/-- With a new block the freed record is used. -/
theorem appendFront_granted (h : s.Holds buf block front content size) (hfront : front < 2^64)
    (hgranted : mallocGrants granted ((front+content+length)%2^64) = true) :
    appendFront granted buf length s = none := by
  have hfree : s.buffers.free buf = some (s.buffers.put buf none) := Heap.free_eq h.record
  have hgone : (s.buffers.put buf none).load buf = none := Heap.load_put_self h.record none
  simp only [appendFront,h.record,frontLengthOf_placed hfront,malloc_granted hgranted,hfree,hgone,Option.bind_eq_bind,
    Option.bind_some,Option.bind_none,Option.bind_fun_none,reduceCtorEq,if_false]

theorem appendBack_refused (h : s.Holds buf block front content size) (hfront : front < 2^64)
    (hrefused : mallocGrants granted ((front+content+length)%2^64) = false) :
    appendBack granted buf length s = some (none,s) := by
  simp only [appendBack,h.record,frontLengthOf_placed hfront,malloc_refused hrefused,Option.bind_eq_bind,
    Option.bind_some,if_true]
  rfl

/-- Content moves by nothing, or beyond its block. -/
theorem appendFrontBuffer_already (h : s.Holds buf block front content size) (hfits : front+content ≤ size)
    (hsize : size < 2^63) (halready : (front+content+length)%2^64 ≤ content) :
    appendFrontBuffer granted buf length s = if length = 0 then some (some (block,front),s) else none := by
  have hfront : front < 2^64 := by omega
  simp only [appendFrontBuffer,h.record,alreadyAllocated_placed hfront,Option.bind_eq_bind,Option.bind_some,halready,
    decide_true,if_true,reduceCtorEq,if_false,advance]
  by_cases hzero : length = 0
  · subst hzero
    have hcopy : s.copy (some (block,front+0)) (some (block,front)) content = some () := by
      simp [Store.copy,accessible_of_le h.block hfits]
    rw [if_pos rfl,hcopy]
    rfl
  · have hmemset : s.memset (some (block,front)) length = none := by
      simp [Store.memset,not_accessible h.block hzero (show size < front+length by omega)]
    rw [if_neg hzero,hmemset]
    simp only [Option.bind_none,Option.bind_fun_none]

theorem appendFrontBuffer_refused (h : s.Holds buf block front content size) (hfront : front < 2^64)
    (hmore : ¬ (front+content+length)%2^64 ≤ content)
    (hrefused : mallocGrants granted ((front+content+length)%2^64) = false) :
    appendFrontBuffer granted buf length s = some (some (block,front),s) := by
  simp only [appendFrontBuffer,h.record,alreadyAllocated_placed hfront,hmore,appendFront_refused h hfront hrefused,
    Option.bind_eq_bind,Option.bind_some,reduceCtorEq,if_false,decide_false,Bool.false_eq_true]
  rfl

theorem appendFrontBuffer_granted (h : s.Holds buf block front content size) (hfront : front < 2^64)
    (hmore : ¬ (front+content+length)%2^64 ≤ content)
    (hgranted : mallocGrants granted ((front+content+length)%2^64) = true) :
    appendFrontBuffer granted buf length s = none := by
  simp only [appendFrontBuffer,h.record,alreadyAllocated_placed hfront,hmore,appendFront_granted h hfront hgranted,
    Option.bind_eq_bind,Option.bind_some,reduceCtorEq,if_false,decide_false,Bool.false_eq_true]
  rfl

/-- The length grows where the buffer lies. -/
def Store.lengthen (s : Store) (buf block front content length : ℕ) : Store :=
  { s with buffers := s.buffers.put buf (some ⟨some (block,front),some (block,0),(content+length)%2^64⟩) }

theorem appendBackBuffer_already (h : s.Holds buf block front content size) (hfront : front < 2^64)
    (hpos : content ≠ 0) (halready : (front+content+length)%2^64 ≤ content) :
    appendBackBuffer granted buf length s = some (some (block,front),s.lengthen buf block front content length) := by
  simp only [appendBackBuffer,h.record,alreadyAllocated_placed hfront,hpos,halready,Heap.store_eq h.record,
    Option.bind_eq_bind,Option.bind_some,if_false,decide_true,if_true]
  rfl

theorem appendBackBuffer_refused (h : s.Holds buf block front content size) (hfront : front < 2^64)
    (hpos : content ≠ 0) (hmore : ¬ (front+content+length)%2^64 ≤ content)
    (hrefused : mallocGrants granted ((front+content+length)%2^64) = false) :
    appendBackBuffer granted buf length s = some (some (block,front),s.lengthen buf block front content length) := by
  simp only [appendBackBuffer,h.record,alreadyAllocated_placed hfront,hpos,hmore,Heap.store_eq h.record,
    appendBack_refused h hfront hrefused,Option.map_some,Option.bind_eq_bind,Option.bind_some,if_false,decide_false,
    Bool.false_eq_true]
  rfl

/-- The content does not fit behind the gap in a new block whose size has come round. -/
theorem appendBack_overrun (h : s.Holds buf block front content size) (hfront : front < 2^64) (hpos : content ≠ 0)
    (hgranted : mallocGrants granted ((front+content+length)%2^64) = true)
    (hover : (front+content+length)%2^64 < front+content) : appendBack granted buf length s = none := by
  have hcopy : Store.copy { s with blocks := s.blocks.alloc ((front+content+length)%2^64) }
      (some (s.blocks.next,0+front)) (some (block,front)) content = none := by
    rw [Store.copy,not_accessible (Heap.load_alloc_next s.blocks _) hpos (by omega)]
    rfl
  simp only [appendBack,h.record,frontLengthOf_placed hfront,malloc_granted hgranted,advance,hcopy,Option.bind_eq_bind,
    Option.bind_some,Option.bind_none,reduceCtorEq,if_false]

theorem appendBack_granted (h : s.Holds buf block front content size) (hfits : front+content ≤ size)
    (hfront : front < 2^64) (hgranted : mallocGrants granted ((front+content+length)%2^64) = true)
    (hroom : front+content ≤ (front+content+length)%2^64) :
    appendBack granted buf length s = some (some buf,
      { buffers := s.buffers.put buf
          (some ⟨some (s.blocks.next,0+front),some (s.blocks.next,0),(front+content+length)%2^64⟩),
        blocks := (s.blocks.alloc ((front+content+length)%2^64)).put block none }) := by
  have hold : (s.blocks.alloc ((front+content+length)%2^64)).load block = some size := by
    rw [Heap.load_alloc_of_ne _ _ (Heap.ne_next h.block),h.block]
  have hcopy : Store.copy { s with blocks := s.blocks.alloc ((front+content+length)%2^64) }
      (some (s.blocks.next,0+front)) (some (block,front)) content = some () := by
    rw [Store.copy,accessible_of_le (Heap.load_alloc_next s.blocks _) (by omega),accessible_of_le hold hfits]
    rfl
  have hfree : Store.freeBlock { s with blocks := s.blocks.alloc ((front+content+length)%2^64) } (some (block,0)) =
      some ⟨s.buffers,(s.blocks.alloc ((front+content+length)%2^64)).put block none⟩ := by
    rw [Store.freeBlock,Heap.free_eq hold]
    rfl
  simp only [appendBack,h.record,frontLengthOf_placed hfront,malloc_granted hgranted,advance,hcopy,hfree,
    Heap.store_eq h.record,Option.bind_eq_bind,Option.bind_some,reduceCtorEq,if_false]
  rfl

/-- With a new block the gap and the new bytes are both counted twice. -/
theorem appendBackBuffer_granted (h : s.Holds buf block front content size) (hfits : front+content ≤ size)
    (hsize : size < 2^63) (hpos : content ≠ 0) (hlength : length < 2^64)
    (hmore : ¬ (front+content+length)%2^64 ≤ content)
    (hgranted : mallocGrants granted ((front+content+length)%2^64) = true) {p : Pointer} {s' : Store}
    (hrun : appendBackBuffer granted buf length s = some (p,s')) :
    ∃ block', s'.buffers.load buf =
        some ⟨some (block',front),some (block',0),(front+content+length+length)%2^64⟩ ∧
      s'.blocks.load block' = some (front+content+length) ∧ front+content+length < 2^63 := by
  have hfront : front < 2^64 := by omega
  by_cases hroom : front+content ≤ (front+content+length)%2^64
  · have hwhole : (front+content+length)%2^64 = front+content+length := by omega
    have hhalf : front+content+length < 2^63 := by
      rw [hwhole] at hgranted
      simpa [mallocGrants] using (Bool.and_eq_true_iff.mp hgranted).2
    have hback := appendBack_granted h hfits hfront hgranted hroom
    rw [hwhole] at hback
    have hself : (s.buffers.put buf (some ⟨some (s.blocks.next,0+front),some (s.blocks.next,0),
        front+content+length⟩)).load buf = some ⟨some (s.blocks.next,0+front),some (s.blocks.next,0),
        front+content+length⟩ := Heap.load_put_self h.record _
    simp only [appendBackBuffer,h.record,alreadyAllocated_placed hfront,hpos,hmore,hback,Heap.store_eq hself,hself,
      Option.map_some,Option.bind_eq_bind,Option.bind_some,if_false,decide_false,Bool.false_eq_true,Option.pure_def,
      Option.some.injEq,Prod.mk.injEq] at hrun
    obtain ⟨-,rfl⟩ := hrun
    refine ⟨s.blocks.next,?_,?_,hhalf⟩
    · rw [Heap.load_put_self hself,Nat.zero_add]
    · exact (Heap.load_put_of_ne (Heap.ne_next h.block).symm none).trans (Heap.load_alloc_next s.blocks _)
  · have hback := appendBack_overrun h hfront hpos hgranted (Nat.not_le.mp hroom)
    simp only [appendBackBuffer,h.record,alreadyAllocated_placed hfront,hpos,hmore,hback,Option.map_none,
      Option.bind_eq_bind,Option.bind_some,Option.bind_none,if_false,decide_false,Bool.false_eq_true,
      reduceCtorEq] at hrun

theorem removeFrontBuffer_placed (h : s.Holds buf block front content size) (hsize : content < 2^64)
    (hlength : length ≤ content) : removeFrontBuffer buf length s = some (some (block,front+length),
      { s with buffers := s.buffers.put buf (some ⟨some (block,front+length),some (block,0),content-length⟩) }) := by
  have hless : (content+2^64-length)%2^64 = content-length := by omega
  simp only [removeFrontBuffer,h.record,advance,Heap.store_eq h.record,hless,Option.bind_eq_bind,Option.bind_some]
  rfl

theorem removeFrontBuffer_empty (hb : s.buffers.load buf = some ⟨none,none,0⟩) :
    removeFrontBuffer buf 0 s = some (none,{ s with buffers := s.buffers.put buf (some ⟨none,none,0⟩) }) := by
  simp only [removeFrontBuffer,hb,advance,Heap.store_eq hb,Option.bind_eq_bind,Option.bind_some]
  rfl

theorem duplicateBuffer_empty (hb : s.buffers.load buf = some b) (hlength : b.length = 0) (granted : Bool) :
    duplicateBuffer granted buf s = some (none,(allocBuffer s).2) := by
  have hload : (s.buffers.alloc ⟨none,none,0⟩).load buf = some b :=
    (Heap.load_alloc_of_ne _ _ (Heap.ne_next hb)).trans hb
  simp only [duplicateBuffer,allocBuffer,allocEmptyData,hload,hlength,Option.bind_eq_bind,Option.bind_some,if_true]
  rfl

theorem duplicateBuffer_refused (h : s.Holds buf block front content size) (hpos : content ≠ 0)
    (hrefused : mallocGrants granted content = false) : duplicateBuffer granted buf s = none := by
  have hload : (s.buffers.alloc ⟨none,none,0⟩).load buf = some ⟨some (block,front),some (block,0),content⟩ :=
    (Heap.load_alloc_of_ne _ _ (Heap.ne_next h.record)).trans h.record
  have hcopy : ∀ s' : Store, s'.copy none (some (block,0)) content = none := by
    intro s'
    obtain ⟨n,rfl⟩ := Nat.exists_eq_succ_of_ne_zero hpos
    rfl
  simp only [duplicateBuffer,allocBuffer,allocEmptyData,allocBufferWithLength,malloc_refused hrefused,hload,hpos,hcopy,
    Heap.load_alloc_next,Option.bind_eq_bind,Option.bind_some,Option.bind_none,if_false]

/-- The records of a duplicate and of the buffer that is made first and forgotten. -/
theorem duplicateBuffer_granted (h : s.Holds buf block front content size) (hfits : front+content ≤ size)
    (hfront : front < 2^64) (hpos : content ≠ 0) (hgranted : mallocGrants granted content = true) :
    ∃ s', duplicateBuffer granted buf s = some (some (s.buffers.next+1),s') ∧
      (∀ p b, s.buffers.load p = some b → s'.buffers.load p = some b) ∧ s'.blocks = s.blocks.alloc content ∧
      s'.buffers.load (s.buffers.next+1) = some ⟨some (s.blocks.next,front),some (s.blocks.next,0),content⟩ := by
  have hload : (s.buffers.alloc ⟨none,none,0⟩).load buf = some ⟨some (block,front),some (block,0),content⟩ :=
    (Heap.load_alloc_of_ne _ _ (Heap.ne_next h.record)).trans h.record
  let buffers := (s.buffers.alloc ⟨none,none,0⟩).alloc ⟨some (s.blocks.next,0),some (s.blocks.next,0),content⟩
  have hnew : buffers.load (s.buffers.next+1) = some ⟨some (s.blocks.next,0),some (s.blocks.next,0),content⟩ :=
    Heap.load_alloc_next _ _
  have hold : (s.blocks.alloc content).load block = some size :=
    (Heap.load_alloc_of_ne _ _ (Heap.ne_next h.block)).trans h.block
  have hcopy : Store.copy ⟨buffers,s.blocks.alloc content⟩ (some (s.blocks.next,0)) (some (block,0)) content =
      some () := by
    rw [Store.copy,accessible_of_le (Heap.load_alloc_next s.blocks _) (by omega),accessible_of_le hold (by omega)]
    rfl
  refine ⟨⟨buffers.put (s.buffers.next+1) (some ⟨some (s.blocks.next,0+front),some (s.blocks.next,0),content⟩),
    s.blocks.alloc content⟩,?_,fun p b hb => ?_,rfl,?_⟩
  · simp only [duplicateBuffer,allocBuffer,allocEmptyData,allocBufferWithLength,malloc_granted hgranted,hload,hpos,
      frontLengthOf_placed hfront,advance,Option.bind_eq_bind,Option.bind_some,if_false,Heap.next_alloc]
    simp only [buffers] at hnew hcopy
    simp only [hnew,hcopy,Heap.store_eq hnew,Option.bind_some]
    rfl
  · have hlt := Heap.lt_next hb
    have hload : buffers.load p = some b := by
      refine (Heap.load_alloc_of_ne _ _ ?_).trans ((Heap.load_alloc_of_ne _ _ (Heap.ne_next hb)).trans hb)
      rw [Heap.next_alloc]
      omega
    exact (Heap.load_put_of_ne (by omega) _).trans hload
  · rw [Nat.zero_add]
    exact Heap.load_put_self hnew _

end Rules
end OpenFlowController.Buffers
