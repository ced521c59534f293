import OpenFlowController.Buffers.Contents

/-! # Appending to a buffer that holds something

Behind its content a buffer should get as many bytes as are asked for. The new block
is made for gap, content and new bytes, and all of it is taken for content; then the
new bytes are counted once more.
-/
namespace OpenFlowController.Buffers
open Memory

/-- The buffer holds `content` behind a gap of `front` in a block of `size`. -/
structure ContentStore.HoldsBytes (s : ContentStore) (buf block front : ℕ) (content : List UInt8) (size : ℕ) : Prop where
  record : s.buffers.load buf = some ⟨some (block,front),some (block,0),content.length⟩
  block : ∃ bytes, s.blocks.load block = some bytes ∧ bytes.length = size ∧ content = (bytes.drop front).take content.length
  fits : front+content.length ≤ size

/-- The call comes back with the data pointer of the buffer, which then holds the old
content and `n` bytes behind it. -/
def AppendsBehind (s : ContentStore) (granted : Bool) (junk : ℕ → UInt8) (buf : ℕ) (content : List UInt8) (n : ℕ) : Prop :=
  ∃ p s' b tail, s.appendBackBuffer granted junk buf n = some (p,s') ∧ s'.buffers.load buf = some b ∧ b.data = p ∧
    b.length = content.length+n ∧ tail.length = n ∧ s'.read p (content.length+n) = some (content++tail)

section Append
variable {s : ContentStore} {granted : Bool} {junk : ℕ → UInt8} {buf block front size n : ℕ} {content : List UInt8}

theorem ContentStore.HoldsBytes.holds (h : s.HoldsBytes buf block front content size) :
    s.extent.Holds buf block front content.length size := by
  obtain ⟨bytes,hload,hsize,-⟩ := h.block
  refine ⟨h.record,?_⟩
  rw [ContentStore.extent,Heap.load_map,hload,Option.map_some,hsize]

/-- Without a new block only the length changes. -/
theorem appendBackBuffer_kept (h : s.HoldsBytes buf block front content size) (hsize : size < 2^63) (hne : content ≠ [])
    (hkept : (front+content.length+n)%2^64 ≤ content.length ∨
      mallocGrants granted ((front+content.length+n)%2^64) = false) :
    s.appendBackBuffer granted junk buf n = some (some (block,front),{ s with
      buffers := s.buffers.put buf (some ⟨some (block,front),some (block,0),(content.length+n)%2^64⟩) }) := by
  have hfront : front < 2^64 := by
    have hfits := h.fits
    omega
  have hpos : content.length ≠ 0 := fun h0 => hne (List.length_eq_zero_iff.mp h0)
  have hrefused (hmalloc : mallocGrants granted ((front+content.length+n)%2^64) = false) :
      ContentStore.appendBack granted junk buf n s = some (none,s) := by
    simp only [ContentStore.appendBack,h.record,frontLengthOf_placed hfront,ContentStore.malloc_refused hmalloc,
      Option.bind_eq_bind,Option.bind_some,if_true]
    rfl
  simp only [ContentStore.appendBackBuffer,h.record,alreadyAllocated_placed hfront,hpos,Option.bind_eq_bind,
    Option.bind_some,if_false]
  by_cases halready : (front+content.length+n)%2^64 ≤ content.length
  · simp only [halready,decide_true,if_true,Option.bind_some,Heap.store_eq h.record]
    rfl
  · simp only [halready,decide_false,Bool.false_eq_true,if_false,hrefused (hkept.resolve_left halready),
      Option.map_some,Option.bind_some,h.record,Heap.store_eq h.record]
    rfl

/-- Then the bytes are there if the block happens to have them. -/
theorem appendsBehind_kept (h : s.HoldsBytes buf block front content size) (hsize : size < 2^63) (hne : content ≠ [])
    (hkept : (front+content.length+n)%2^64 ≤ content.length ∨
      mallocGrants granted ((front+content.length+n)%2^64) = false) :
    AppendsBehind s granted junk buf content n ↔ front+content.length+n ≤ size := by
  obtain ⟨bytes,hload,hbytes,hcontent⟩ := h.block
  obtain ⟨m,hm⟩ : ∃ m, content.length+n = m+1 := by
    have hpos : content.length ≠ 0 := fun h0 => hne (List.length_eq_zero_iff.mp h0)
    exact ⟨content.length+n-1,by omega⟩
  simp only [AppendsBehind,appendBackBuffer_kept h hsize hne hkept,Option.some.injEq,Prod.mk.injEq]
  constructor
  · rintro ⟨_,_,b,tail,⟨rfl,rfl⟩,-,-,-,-,hread⟩
    simp only [hm,ContentStore.read,hload,Option.bind_eq_bind,Option.bind_some,Option.ite_none_right_eq_some] at hread
    omega
  · intro hroom
    refine ⟨_,_,_,((bytes.drop front).drop content.length).take n,⟨rfl,rfl⟩,Heap.load_put_self h.record _,rfl,?_,?_,?_⟩
    · exact Nat.mod_eq_of_lt (by omega)
    · rw [List.length_take,List.length_drop,List.length_drop]
      omega
    · simp only [hm,ContentStore.read,hload,Option.bind_eq_bind,Option.bind_some]
      rw [if_pos (by omega),← hm,List.take_add]
      exact congrArg some (congrArg (· ++ _) hcontent.symm)

/-- With a new block the buffer is longer than what is in it. -/
theorem not_appendsBehind_granted (h : s.HoldsBytes buf block front content size) (hsize : size < 2^63)
    (hne : content ≠ []) (hn : n < 2^64) (hmore : ¬ (front+content.length+n)%2^64 ≤ content.length)
    (hgranted : mallocGrants granted ((front+content.length+n)%2^64) = true) :
    ¬ AppendsBehind s granted junk buf content n := by
  rintro ⟨p,s',b,tail,hrun,hb,-,hlength,-,-⟩
  have hpos : content.length ≠ 0 := fun h0 => hne (List.length_eq_zero_iff.mp h0)
  have hforget := ContentStore.forget_appendBackBuffer granted junk buf n s
  rw [hrun,Option.map_some] at hforget
  obtain ⟨block',hrecord,-,hlt⟩ :=
    appendBackBuffer_granted h.holds h.fits hsize hpos hn hmore hgranted hforget.symm
  have hb' : b = ⟨some (block',front),some (block',0),(front+content.length+n+n)%2^64⟩ :=
    Option.some.inj (hb.symm.trans hrecord)
  rw [hb'] at hlength
  have hcount : (front+content.length+n+n)%2^64 = content.length+n := hlength
  have hzero : (front+content.length+n)%2^64 ≤ content.length := by omega
  exact hmore hzero

/-- Nothing is appended as it should be but nothing, without a gap; or the new block is
refused and the old one has room behind the content. -/
theorem appendBackBuffer_appends_iff (h : s.HoldsBytes buf block front content size) (hsize : size < 2^63)
    (hne : content ≠ []) (hn : n < 2^64) :
    AppendsBehind s granted junk buf content n ↔
      front = 0 ∧ n = 0 ∨ granted = false ∧ front+content.length+n ≤ size := by
  have hfits := h.fits
  by_cases hkept : (front+content.length+n)%2^64 ≤ content.length ∨
      mallocGrants granted ((front+content.length+n)%2^64) = false
  · rw [appendsBehind_kept h hsize hne hkept]
    constructor
    · intro hroom
      have hwhole : (front+content.length+n)%2^64 = front+content.length+n := by omega
      have hhalf : front+content.length+n < 2^63 := by omega
      rcases hkept with halready | hrefused
      · exact Or.inl (by omega)
      · rw [hwhole,mallocGrants,decide_eq_true hhalf,Bool.and_true] at hrefused
        exact Or.inr ⟨hrefused,hroom⟩
    · rintro (⟨rfl,rfl⟩ | ⟨-,hroom⟩)
      · omega
      · exact hroom
  · obtain ⟨hmore,hgranted⟩ := not_or.mp hkept
    have hgranted' : mallocGrants granted ((front+content.length+n)%2^64) = true := by simpa using hgranted
    refine iff_of_false (not_appendsBehind_granted h hsize hne hn hmore hgranted') ?_
    rintro (⟨rfl,rfl⟩ | ⟨rfl,-⟩)
    · exact hmore (by omega)
    · exact hgranted rfl

end Append

/-- Two bytes behind a gap of two, with room for two more behind them. -/
def roomyBlock : ContentStore := ⟨Heap.empty.alloc ⟨some (0,2),some (0,0),2⟩,Heap.empty.alloc [1,2,7,8,9,10]⟩

theorem roomyBlock_holds : roomyBlock.HoldsBytes 0 0 2 [7,8] 6 := ⟨rfl,⟨[1,2,7,8,9,10],rfl,rfl,rfl⟩,by decide⟩

/-- The new block is refused. -/
theorem appendBackBuffer_appends_iff_roomyBlock :
    roomyBlock.HoldsBytes 0 0 2 [7,8] 6 ∧ (6 < 2^63) ∧ ([7,8] : List UInt8) ≠ [] ∧ (2 < 2^64) ∧
    AppendsBehind roomyBlock false (fun _ => 0) 0 [7,8] 2 :=
  ⟨roomyBlock_holds,by decide,by decide,by decide,
    (appendBackBuffer_appends_iff roomyBlock_holds (by decide) (by decide) (by decide)).mpr (Or.inr ⟨rfl,by decide⟩)⟩

/-- One byte in a block of one. -/
def singleByte : ContentStore := ⟨Heap.empty.alloc ⟨some (0,0),some (0,0),1⟩,Heap.empty.alloc [7]⟩

theorem singleByte_holds : singleByte.HoldsBytes 0 0 0 [7] 1 := ⟨rfl,⟨[7],rfl,rfl,rfl⟩,Nat.le_refl 1⟩

/-- One byte appended to one byte makes a length of 3. -/
theorem appendedByte_counted_twice : singleByte.HoldsBytes 0 0 0 [7] 1 ∧
    ¬ AppendsBehind singleByte true (fun _ => 0) 0 [7] 1 := by
  refine ⟨singleByte_holds,?_⟩
  rintro ⟨p,s',b,tail,hrun,hb,-,hlength,-⟩
  cases hrun
  cases hb
  cases hlength

end OpenFlowController.Buffers
