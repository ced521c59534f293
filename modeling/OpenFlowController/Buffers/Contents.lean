import OpenFlowController.Buffers.Buffer

/-! # What buffers hold

Blocks with their bytes: those of a new block are whatever was there. Where only the
sizes of the blocks are kept the operations go as before.
-/
namespace OpenFlowController.Buffers
open Memory

structure ContentStore where
  buffers : Heap Buffer
  blocks : Heap (List UInt8)

/-- `bytes` in place of as many from `offset` on. -/
def overwrite (old : List UInt8) (offset : ℕ) (bytes : List UInt8) : List UInt8 :=
  old.take offset++bytes++old.drop (offset+bytes.length)

namespace ContentStore

/-- The store of sizes. -/
def extent (s : ContentStore) : Store := ⟨s.buffers,s.blocks.map List.length⟩

/-- A result and the sizes in the store it comes with. -/
def forget {α : Type} (r : α × ContentStore) : α × Store := (r.1,r.2.extent)

def read (s : ContentStore) : Pointer → ℕ → Option (List UInt8)
  | _, 0 => some []
  | none, _+1 => none
  | some (block,offset), n+1 => do
    let bytes ← s.blocks.load block
    if offset+(n+1) ≤ bytes.length then some ((bytes.drop offset).take (n+1)) else none

def write (s : ContentStore) (p : Pointer) (bytes : List UInt8) : Option ContentStore :=
  if bytes = [] then some s else match p with
  | none => none
  | some (block,offset) => do
    let old ← s.blocks.load block
    if offset+bytes.length ≤ old.length then
      some { s with blocks := s.blocks.put block (some (overwrite old offset bytes)) }
    else none

def memcpy (s : ContentStore) (dst src : Pointer) (n : ℕ) : Option ContentStore := do
  s.write dst (← s.read src n)

def memset (s : ContentStore) (dst : Pointer) (value : UInt8) (n : ℕ) : Option ContentStore :=
  s.write dst (List.replicate n value)

/-- The two ranges may overlap: all bytes are read before the first is written. -/
def memmove (s : ContentStore) (dst src : Pointer) (n : ℕ) : Option ContentStore := s.memcpy dst src n

def freeBlock (s : ContentStore) : Pointer → Option ContentStore
  | none => some s
  | some (block,0) => do
    let blocks ← s.blocks.free block
    return { s with blocks }
  | some (_,_+1) => none

def malloc (granted : Bool) (junk : ℕ → UInt8) (size : ℕ) (s : ContentStore) : Pointer × ContentStore :=
  if mallocGrants granted size then
    (some (s.blocks.next,0),{ s with blocks := s.blocks.alloc ((List.range size).map junk) })
  else (none,s)

def allocBuffer (s : ContentStore) : ℕ × ContentStore :=
  (s.buffers.next,{ s with buffers := s.buffers.alloc ⟨none,none,0⟩ })

def allocBufferWithLength (granted : Bool) (junk : ℕ → UInt8) (length : ℕ) (s : ContentStore) : ℕ × ContentStore :=
  let (data,s) := malloc granted junk length s
  (s.buffers.next,{ s with buffers := s.buffers.alloc ⟨data,data,length⟩ })

def appendBack (granted : Bool) (junk : ℕ → UInt8) (buf length : ℕ) (s : ContentStore) :
    Option (Option ℕ × ContentStore) := do
  let b ← s.buffers.load buf
  let len ← frontLengthOf b
  let newLength := (len+b.length+length)%2^64
  let (newData,s) := malloc granted junk newLength s
  if newData = none then return (none,s)
  let s ← s.memcpy (← advance newData len) b.data b.length
  let s ← s.freeBlock b.top
  let data ← advance newData (← frontLengthOf b)
  let s := { s with buffers := ← s.buffers.store buf ⟨data,newData,newLength⟩ }
  return (some buf,s)

def appendBackBuffer (granted : Bool) (junk : ℕ → UInt8) (buf length : ℕ) (s : ContentStore) :
    Option (Pointer × ContentStore) := do
  let b ← s.buffers.load buf
  if b.length = 0 then
    let (buf,s) := allocBufferWithLength granted junk length s
    return ((← s.buffers.load buf).data,s)
  let s ← if ← alreadyAllocated b length then some s else (appendBack granted junk buf length s).map Prod.snd
  let b ← s.buffers.load buf
  let s := { s with buffers := ← s.buffers.store buf { b with length := (b.length+length)%2^64 } }
  return (b.data,s)

def appendFront (granted : Bool) (junk : ℕ → UInt8) (buf length : ℕ) (s : ContentStore) :
    Option (Option ℕ × ContentStore) := do
  let b ← s.buffers.load buf
  let frontLength ← frontLengthOf b
  let newLength := (frontLength+b.length+length)%2^64
  let (newData,s) := malloc granted junk newLength s
  if newData = none then return (none,s)
  let s ← s.memcpy (← advance newData (frontLength+length)) b.data b.length
  let s := { s with buffers := ← s.buffers.free buf }
  let b ← s.buffers.load buf
  let data ← advance newData (← frontLengthOf b)
  let s := { s with buffers := ← s.buffers.store buf ⟨data,newData,newLength⟩ }
  return (some buf,s)

def appendFrontBuffer (granted : Bool) (junk : ℕ → UInt8) (buf length : ℕ) (s : ContentStore) :
    Option (Pointer × ContentStore) := do
  let b ← s.buffers.load buf
  if b.top = none then
    let (buf,s) := allocBufferWithLength granted junk length s
    return ((← s.buffers.load buf).data,s)
  if ← alreadyAllocated b length then
    let s ← s.memmove (← advance b.data length) b.data b.length
    let s ← s.memset b.data 0 length
    return (b.data,s)
  else
    let (_,s) ← appendFront granted junk buf length s
    return ((← s.buffers.load buf).data,s)

def removeFrontBuffer (buf length : ℕ) (s : ContentStore) : Option (Pointer × ContentStore) := do
  let b ← s.buffers.load buf
  let data ← advance b.data length
  let s := { s with buffers := ← s.buffers.store buf { b with data, length := (b.length+2^64-length)%2^64 } }
  return (data,s)

def duplicateBuffer (granted : Bool) (junk : ℕ → UInt8) (buf : ℕ) (s : ContentStore) :
    Option (Option ℕ × ContentStore) := do
  let (_,s) := allocBuffer s
  let oldBuffer ← s.buffers.load buf
  if oldBuffer.length = 0 then return (none,s)
  let (newBuffer,s) := allocBufferWithLength granted junk oldBuffer.length s
  let b ← s.buffers.load newBuffer
  let s ← s.memcpy b.top oldBuffer.top oldBuffer.length
  let data ← advance b.top (← frontLengthOf oldBuffer)
  let s := { s with buffers := ← s.buffers.store newBuffer { b with data, length := oldBuffer.length } }
  return (some newBuffer,s)

end ContentStore

section Rules
variable {s : ContentStore} {granted : Bool} {junk : ℕ → UInt8} {buf block offset : ℕ} {old bytes : List UInt8}

theorem length_overwrite (h : offset+bytes.length ≤ old.length) : (overwrite old offset bytes).length = old.length := by
  simp only [overwrite,List.length_append,List.length_take,List.length_drop]
  omega

namespace ContentStore

theorem write_eq (hload : s.blocks.load block = some old) (h : offset+bytes.length ≤ old.length) :
    s.write (some (block,offset)) bytes =
      some { s with blocks := s.blocks.put block (some (overwrite old offset bytes)) } := by
  by_cases hnil : bytes = []
  · subst hnil
    have hsame : overwrite old offset [] = old := by simp [overwrite]
    rw [hsame,Heap.put_of_load hload]
    exact if_pos rfl
  · simp only [write,hnil,if_false,hload,Option.bind_eq_bind,Option.bind_some,h,if_true]

/-- One store after another into the same block. -/
theorem write_put {first : List UInt8} (hload : s.blocks.load block = some first) (h : offset+bytes.length ≤ old.length) :
    ContentStore.write { s with blocks := s.blocks.put block (some old) } (some (block,offset)) bytes =
      some { s with blocks := s.blocks.put block (some (overwrite old offset bytes)) } := by
  rw [write_eq (Heap.load_put_self hload (some old)) h,Heap.put_put]

theorem length_of_read {p : Pointer} {n : ℕ} (h : s.read p n = some bytes) : bytes.length = n := by
  match p, n with
  | _, 0 =>
    cases h
    rfl
  | none, _+1 => cases h
  | some (block,offset), n+1 =>
    simp only [read,Option.bind_eq_bind,Option.bind_eq_some_iff,Option.ite_none_right_eq_some] at h
    obtain ⟨old,-,hle,h⟩ := h
    cases h
    rw [List.length_take,List.length_drop]
    omega

theorem isSome_read (s : ContentStore) (p : Pointer) (n : ℕ) : (s.read p n).isSome = s.extent.accessible p n := by
  match p, n with
  | _, 0 => rfl
  | none, _+1 => rfl
  | some (block,offset), n+1 =>
    simp only [read,Store.accessible,extent,Heap.load_map]
    cases s.blocks.load block with
    | none => rfl
    | some old =>
      simp only [Option.bind_eq_bind,Option.bind_some,Option.map_some]
      split <;> simp_all

/-- Writing comes back where the bytes are accessible, and changes no size. -/
theorem extent_write (s : ContentStore) (p : Pointer) (bytes : List UInt8) :
    (s.write p bytes).map extent = if s.extent.accessible p bytes.length then some s.extent else none := by
  by_cases hnil : bytes = []
  · subst hnil
    cases p <;> rfl
  obtain ⟨n,hn⟩ : ∃ n, bytes.length = n+1 := Nat.exists_eq_succ_of_ne_zero (by simpa using hnil)
  match p with
  | none =>
    rw [write,if_neg hnil,hn]
    rfl
  | some (block,offset) =>
    cases hload : s.blocks.load block with
    | none =>
      have hnone : (s.blocks.map List.length).load block = none := by rw [Heap.load_map,hload]; rfl
      simp only [write,hnil,if_false,hload,Option.bind_eq_bind,Option.bind_none,Option.map_none,hn,Store.accessible,
        extent,hnone,Bool.false_eq_true]
    | some old =>
      have hsize : (s.blocks.map List.length).load block = some old.length := by rw [Heap.load_map,hload]; rfl
      by_cases hle : offset+bytes.length ≤ old.length
      · have haccessible : s.extent.accessible (some (block,offset)) bytes.length = true := accessible_of_le hsize hle
        rw [write_eq hload hle,haccessible,if_pos rfl,Option.map_some,extent,Heap.map_put,Option.map_some,
          length_overwrite hle,Heap.put_of_load hsize]
        rfl
      · have haccessible : s.extent.accessible (some (block,offset)) bytes.length = false :=
          not_accessible hsize (by omega) (by omega)
        simp only [write,hnil,if_false,hload,Option.bind_eq_bind,Option.bind_some,hle,Option.map_none,haccessible,
          Bool.false_eq_true]

theorem extent_memcpy (s : ContentStore) (dst src : Pointer) (n : ℕ) :
    (s.memcpy dst src n).map extent = (s.extent.copy dst src n).map (fun _ => s.extent) := by
  have hsome := isSome_read s src n
  rw [memcpy,Store.copy,Option.bind_eq_bind]
  cases hread : s.read src n with
  | none =>
    rw [hread,Option.isSome_none] at hsome
    simp [← hsome]
  | some bytes =>
    rw [hread,Option.isSome_some] at hsome
    rw [Option.bind_some,extent_write,length_of_read hread,← hsome,Bool.and_true]
    split <;> rfl

theorem extent_freeBlock (s : ContentStore) (p : Pointer) : (s.freeBlock p).map extent = s.extent.freeBlock p := by
  match p with
  | none => rfl
  | some (_,_+1) => rfl
  | some (block,0) =>
    simp only [freeBlock,Store.freeBlock,extent,← Heap.map_free]
    cases s.blocks.free block <;> rfl

theorem malloc_extent (granted : Bool) (junk : ℕ → UInt8) (size : ℕ) (s : ContentStore) :
    Buffers.malloc granted size s.extent = ((malloc granted junk size s).1,(malloc granted junk size s).2.extent) := by
  unfold malloc Buffers.malloc
  split
  · simp only [extent,Heap.map_alloc,List.length_map,List.length_range]
    rfl
  · rfl

theorem forget_allocBufferWithLength (granted : Bool) (junk : ℕ → UInt8) (length : ℕ) (s : ContentStore) :
    forget (allocBufferWithLength granted junk length s) = Buffers.allocBufferWithLength granted length s.extent := by
  rw [allocBufferWithLength,Buffers.allocBufferWithLength,malloc_extent granted junk]
  rfl

/-- Computations that agree step by step agree in their results. -/
theorem map_bind_of {α β γ δ : Type} {x : Option α} {y : Option β} {g : α → β} {h : γ → δ} {f : α → Option γ}
    {f' : β → Option δ} (hx : x.map g = y) (hf : ∀ a, (f a).map h = f' (g a)) : (x.bind f).map h = y.bind f' := by
  subst hx
  cases x with
  | none => rfl
  | some a => exact hf a

/-- What follows a copy, or a fill, sees the sizes that were there before it. -/
theorem map_bind_memcpy {γ δ : Type} {g : γ → δ} {f : ContentStore → Option γ} {y : Option δ} (s : ContentStore)
    (dst src : Pointer) (n : ℕ) (hf : ∀ copied : ContentStore, copied.extent = s.extent → (f copied).map g = y) :
    ((s.memcpy dst src n).bind f).map g = (s.extent.copy dst src n).bind (fun _ => y) := by
  have hcopy := extent_memcpy s dst src n
  cases hc : s.extent.copy dst src n with
  | none =>
    rw [hc,Option.map_none,Option.map_eq_none_iff] at hcopy
    rw [hcopy]
    rfl
  | some _ =>
    rw [hc,Option.map_some] at hcopy
    obtain ⟨copied,hcopied,hextent⟩ := Option.map_eq_some_iff.mp hcopy
    rw [hcopied]
    exact hf copied hextent

theorem map_bind_memset {γ δ : Type} {g : γ → δ} {f : ContentStore → Option γ} {y : Option δ} (s : ContentStore)
    (dst : Pointer) (value : UInt8) (n : ℕ)
    (hf : ∀ filled : ContentStore, filled.extent = s.extent → (f filled).map g = y) :
    ((s.memset dst value n).bind f).map g = (s.extent.memset dst n).bind (fun _ => y) := by
  have hwrite := extent_write s dst (List.replicate n value)
  rw [List.length_replicate] at hwrite
  unfold Store.memset
  cases ha : s.extent.accessible dst n with
  | false =>
    rw [ha,if_neg Bool.false_ne_true,Option.map_eq_none_iff] at hwrite
    rw [memset,hwrite]
    rfl
  | true =>
    rw [ha,if_pos rfl] at hwrite
    obtain ⟨filled,hfilled,hextent⟩ := Option.map_eq_some_iff.mp hwrite
    rw [memset,hfilled]
    exact hf filled hextent

theorem forget_appendBack (granted : Bool) (junk : ℕ → UInt8) (buf length : ℕ) (s : ContentStore) :
    (appendBack granted junk buf length s).map forget = Buffers.appendBack granted buf length s.extent := by
  unfold appendBack Buffers.appendBack
  simp only [Option.bind_eq_bind]
  refine map_bind_of Option.map_id' (fun b => ?_)
  refine map_bind_of Option.map_id' (fun len => ?_)
  rw [malloc_extent granted junk]
  cases malloc granted junk ((len+b.length+length)%2^64) s with
  | mk newData s =>
    cases newData with
    | none => rfl
    | some newData =>
      simp only
      rw [if_neg (Option.some_ne_none newData),if_neg (Option.some_ne_none newData)]
      refine map_bind_of Option.map_id' (fun dst => ?_)
      refine map_bind_memcpy s dst b.data b.length (fun copied hextent => ?_)
      rw [← hextent]
      refine map_bind_of (extent_freeBlock copied b.top) (fun freed => ?_)
      refine map_bind_of Option.map_id' (fun front => ?_)
      refine map_bind_of Option.map_id' (fun data => ?_)
      exact map_bind_of Option.map_id' (fun buffers => rfl)

theorem forget_appendBackBuffer (granted : Bool) (junk : ℕ → UInt8) (buf length : ℕ) (s : ContentStore) :
    (appendBackBuffer granted junk buf length s).map forget = Buffers.appendBackBuffer granted buf length s.extent := by
  unfold appendBackBuffer Buffers.appendBackBuffer
  simp only [Option.bind_eq_bind]
  refine map_bind_of Option.map_id' (fun b => ?_)
  by_cases hzero : b.length = 0
  · have halloc := forget_allocBufferWithLength granted junk length s
    rw [if_pos hzero,if_pos hzero,← halloc]
    exact map_bind_of Option.map_id' (fun b => rfl)
  · rw [if_neg hzero,if_neg hzero]
    refine map_bind_of Option.map_id' (fun already => ?_)
    have hlengthen : ∀ grown : ContentStore, Option.map forget ((grown.buffers.load buf).bind fun b =>
        (grown.buffers.store buf { b with length := (b.length+length)%2^64 }).bind fun buffers =>
          some (b.data,{ grown with buffers })) = (grown.extent.buffers.load buf).bind fun b =>
        (grown.extent.buffers.store buf { b with length := (b.length+length)%2^64 }).bind fun buffers =>
          some (b.data,{ grown.extent with buffers }) := by
      intro grown
      refine map_bind_of Option.map_id' (fun b => ?_)
      exact map_bind_of Option.map_id' (fun buffers => rfl)
    cases already with
    | true => exact hlengthen s
    | false =>
      refine map_bind_of (g := extent) ?_ hlengthen
      rw [← forget_appendBack granted junk,Option.map_map,Option.map_map]
      rfl

theorem forget_appendFront (granted : Bool) (junk : ℕ → UInt8) (buf length : ℕ) (s : ContentStore) :
    (appendFront granted junk buf length s).map forget = Buffers.appendFront granted buf length s.extent := by
  unfold appendFront Buffers.appendFront
  simp only [Option.bind_eq_bind]
  refine map_bind_of Option.map_id' (fun b => ?_)
  refine map_bind_of Option.map_id' (fun frontLength => ?_)
  rw [malloc_extent granted junk]
  cases malloc granted junk ((frontLength+b.length+length)%2^64) s with
  | mk newData s =>
    cases newData with
    | none => rfl
    | some newData =>
      simp only
      rw [if_neg (Option.some_ne_none newData),if_neg (Option.some_ne_none newData)]
      refine map_bind_of Option.map_id' (fun dst => ?_)
      refine map_bind_memcpy s dst b.data b.length (fun copied hextent => ?_)
      rw [← hextent]
      refine map_bind_of Option.map_id' (fun buffers => ?_)
      refine map_bind_of Option.map_id' (fun b => ?_)
      refine map_bind_of Option.map_id' (fun front => ?_)
      refine map_bind_of Option.map_id' (fun data => ?_)
      exact map_bind_of Option.map_id' (fun buffers => rfl)

theorem forget_appendFrontBuffer (granted : Bool) (junk : ℕ → UInt8) (buf length : ℕ) (s : ContentStore) :
    (appendFrontBuffer granted junk buf length s).map forget = Buffers.appendFrontBuffer granted buf length s.extent := by
  unfold appendFrontBuffer Buffers.appendFrontBuffer
  simp only [Option.bind_eq_bind]
  refine map_bind_of Option.map_id' (fun b => ?_)
  by_cases htop : b.top = none
  · have halloc := forget_allocBufferWithLength granted junk length s
    rw [if_pos htop,if_pos htop,← halloc]
    exact map_bind_of Option.map_id' (fun b => rfl)
  · rw [if_neg htop,if_neg htop]
    refine map_bind_of Option.map_id' (fun already => ?_)
    cases already with
    | true =>
      refine map_bind_of Option.map_id' (fun dst => ?_)
      refine map_bind_memcpy s dst b.data b.length (fun moved hmoved => ?_)
      rw [← hmoved]
      refine map_bind_memset moved b.data 0 length (fun filled hfilled => ?_)
      rw [← hfilled]
      rfl
    | false =>
      refine map_bind_of (forget_appendFront granted junk buf length s) (fun r => ?_)
      exact map_bind_of Option.map_id' (fun b => rfl)

theorem forget_duplicateBuffer (granted : Bool) (junk : ℕ → UInt8) (buf : ℕ) (s : ContentStore) :
    (duplicateBuffer granted junk buf s).map forget = Buffers.duplicateBuffer granted buf s.extent := by
  unfold duplicateBuffer Buffers.duplicateBuffer
  simp only [Option.bind_eq_bind]
  refine map_bind_of Option.map_id' (fun oldBuffer => ?_)
  by_cases hzero : oldBuffer.length = 0
  · rw [if_pos hzero,if_pos hzero]
    rfl
  · have halloc := forget_allocBufferWithLength granted junk oldBuffer.length (allocBuffer s).2
    have hextent : (Buffers.allocBuffer s.extent).2 = (allocBuffer s).2.extent := rfl
    rw [if_neg hzero,if_neg hzero,hextent,← halloc]
    refine map_bind_of Option.map_id' (fun b => ?_)
    refine map_bind_memcpy _ b.top oldBuffer.top oldBuffer.length (fun copied hcopied => ?_)
    refine map_bind_of Option.map_id' (fun front => ?_)
    refine map_bind_of Option.map_id' (fun data => ?_)
    rw [forget,← hcopied]
    exact map_bind_of Option.map_id' (fun buffers => rfl)

theorem malloc_granted {size : ℕ} (h : mallocGrants granted size = true) (junk : ℕ → UInt8) (s : ContentStore) :
    malloc granted junk size s =
      (some (s.blocks.next,0),{ s with blocks := s.blocks.alloc ((List.range size).map junk) }) := if_pos h

theorem malloc_refused {size : ℕ} (h : mallocGrants granted size = false) (junk : ℕ → UInt8) (s : ContentStore) :
    malloc granted junk size s = (none,s) := if_neg (by simp [h])

/-- The caller of an empty buffer gets a pointer into another one. -/
theorem appendBackBuffer_empty {b : Buffer} (hb : s.buffers.load buf = some b) (hlength : b.length = 0)
    (granted : Bool) (junk : ℕ → UInt8) (length : ℕ) : s.appendBackBuffer granted junk buf length =
      some ((malloc granted junk length s).1,(allocBufferWithLength granted junk length s).2) := by
  simp only [appendBackBuffer,hb,hlength,allocBufferWithLength,Option.bind_eq_bind,Option.bind_some,if_true]
  rw [Heap.load_alloc,if_pos rfl]
  rfl

end ContentStore
end Rules
end OpenFlowController.Buffers
