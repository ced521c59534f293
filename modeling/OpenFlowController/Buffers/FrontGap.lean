import OpenFlowController.Buffers.AppendBack

/-! # The gap in front

Bytes in front of the content go to a new block, but it is the record that is freed for
it. A copy is made from the start of the block, as long as the content, with the gap
kept: what is behind the gap is cut off.
-/
namespace OpenFlowController.Buffers
open Memory

/-- No other block is freed, and no record. -/
structure FreesOnly (s s' : ContentStore) (block : ℕ) : Prop where
  blocks : ∀ p ≠ block, (s.blocks.load p).isSome → (s'.blocks.load p).isSome
  buffers : ∀ p, (s.buffers.load p).isSome → (s'.buffers.load p).isSome

/-- The record of `buf` and the bytes it counts as its content. -/
def ContentStore.Shows (s : ContentStore) (buf : ℕ) (content : List UInt8) : Prop :=
  ∃ b, s.buffers.load buf = some b ∧ b.length = content.length ∧ s.read b.data content.length = some content

/-- The call comes back with `n` bytes in front of the content, which are off again once
as many are removed. -/
def Prepends (s : ContentStore) (granted : Bool) (junk : ℕ → UInt8) (buf block : ℕ) (content : List UInt8) (n : ℕ) : Prop :=
  ∃ p s' new, s.appendFrontBuffer granted junk buf n = some (p,s') ∧ new.length = n ∧ s'.Shows buf (new++content) ∧
    FreesOnly s s' block ∧ ∃ q s'', s'.removeFrontBuffer buf n = some (q,s'') ∧ s''.Shows buf content

/-- Another buffer with the same content in a block of its own; the one that was there
keeps its record and its block. -/
def Duplicates (s : ContentStore) (granted : Bool) (junk : ℕ → UInt8) (buf block : ℕ) (content : List UInt8) : Prop :=
  ∃ new s' block' offset bytes, s.duplicateBuffer granted junk buf = some (some new,s') ∧
    s.buffers.load new = none ∧ s'.buffers.load new = some ⟨some (block',offset),some (block',0),content.length⟩ ∧
    s.blocks.load block' = none ∧ s'.blocks.load block' = some bytes ∧ offset+content.length ≤ bytes.length ∧
    s'.read (some (block',offset)) content.length = some content ∧
    s'.buffers.load buf = s.buffers.load buf ∧ s'.blocks.load block = s.blocks.load block

section Front
variable {s s' : ContentStore} {granted : Bool} {junk : ℕ → UInt8} {buf block front size n : ℕ} {content : List UInt8}

theorem overwrite_same {old : List UInt8} {offset n : ℕ} (h : offset+n ≤ old.length) :
    overwrite old offset ((old.drop offset).take n) = old := by
  have hlength : ((old.drop offset).take n).length = n := by
    rw [List.length_take,List.length_drop]
    omega
  rw [overwrite,hlength,← List.drop_drop,List.append_assoc,List.take_append_drop,List.take_append_drop]

namespace ContentStore.HoldsBytes

theorem length_pos (hne : content ≠ []) : ∃ m, content.length = m+1 :=
  Nat.exists_eq_succ_of_ne_zero (fun h0 => hne (List.length_eq_zero_iff.mp h0))

theorem read_content (h : s.HoldsBytes buf block front content size) (hne : content ≠ []) :
    s.read (some (block,front)) content.length = some content := by
  obtain ⟨bytes,hload,hsize,hcontent⟩ := h.block
  obtain ⟨m,hm⟩ := length_pos hne
  have hfits := h.fits
  rw [hm] at hcontent hfits ⊢
  simp only [ContentStore.read,hload,Option.bind_eq_bind,Option.bind_some]
  rw [if_pos (by omega),← hcontent]

theorem shows (h : s.HoldsBytes buf block front content size) (hne : content ≠ []) : s.Shows buf content :=
  ⟨_,h.record,rfl,h.read_content hne⟩

/-- Nothing is moved by nothing. -/
theorem appendFrontBuffer_nothing (h : s.HoldsBytes buf block front content size) (hsize : size < 2^63)
    (hne : content ≠ []) (halready : (front+content.length+0)%2^64 ≤ content.length) :
    s.appendFrontBuffer granted junk buf 0 = some (some (block,front),s) := by
  obtain ⟨bytes,hload,hbytes,hcontent⟩ := h.block
  have hfits := h.fits
  have hmove : s.memmove (some (block,front+0)) (some (block,front)) content.length = some s := by
    have hwrite := ContentStore.write_eq hload (show front+content.length ≤ bytes.length by omega)
    have hsame : overwrite bytes front content = bytes := by
      rw [hcontent]
      exact overwrite_same (by omega)
    rw [ContentStore.memmove,ContentStore.memcpy,h.read_content hne,Option.bind_eq_bind,Option.bind_some,Nat.add_zero,
      hwrite,hsame,Heap.put_of_load hload]
  have hfill : s.memset (some (block,front)) 0 0 = some s := rfl
  simp only [ContentStore.appendFrontBuffer,h.record,alreadyAllocated_placed (show front < 2^64 by omega),halready,
    advance,hmove,hfill,Option.bind_eq_bind,Option.bind_some,reduceCtorEq,if_false,decide_true,if_true]
  rfl

theorem appendFrontBuffer_refused (h : s.HoldsBytes buf block front content size) (hfront : front < 2^64)
    (hmore : ¬ (front+content.length+n)%2^64 ≤ content.length)
    (hrefused : mallocGrants granted ((front+content.length+n)%2^64) = false) :
    s.appendFrontBuffer granted junk buf n = some (some (block,front),s) := by
  have hfront' : ContentStore.appendFront granted junk buf n s = some (none,s) := by
    simp only [ContentStore.appendFront,h.record,frontLengthOf_placed hfront,ContentStore.malloc_refused hrefused,
      Option.bind_eq_bind,Option.bind_some,if_true]
    rfl
  simp only [ContentStore.appendFrontBuffer,h.record,alreadyAllocated_placed hfront,hmore,hfront',Option.bind_eq_bind,
    Option.bind_some,reduceCtorEq,if_false,decide_false,Bool.false_eq_true]
  rfl

theorem removeFrontBuffer_nothing (h : s.HoldsBytes buf block front content size) (hsize : size < 2^63) :
    s.removeFrontBuffer buf 0 = some (some (block,front),s) := by
  have hfits := h.fits
  have hless : (content.length+2^64-0)%2^64 = content.length := by omega
  simp only [ContentStore.removeFrontBuffer,h.record,advance,Heap.store_eq h.record,hless,Option.bind_eq_bind,
    Option.bind_some,Nat.add_zero,Heap.put_of_load h.record]
  rfl

theorem prepends_nothing (h : s.HoldsBytes buf block front content size) (hsize : size < 2^63) (hne : content ≠ [])
    (hrun : s.appendFrontBuffer granted junk buf 0 = some (some (block,front),s)) :
    Prepends s granted junk buf block content 0 :=
  ⟨_,s,[],hrun,rfl,h.shows hne,⟨fun _ _ hp => hp,fun _ hp => hp⟩,_,s,h.removeFrontBuffer_nothing hsize,h.shows hne⟩

end ContentStore.HoldsBytes

/-- With a new block the call does not come back; without one the length stays. -/
theorem appendFrontBuffer_prepends_iff (h : s.HoldsBytes buf block front content size) (hsize : size < 2^63)
    (hne : content ≠ []) (hn : n < 2^64) :
    Prepends s granted junk buf block content n ↔ n = 0 ∧ (front = 0 ∨ granted = false) := by
  have hfits := h.fits
  have hfront : front < 2^64 := by omega
  obtain ⟨m,hm⟩ := ContentStore.HoldsBytes.length_pos hne
  constructor
  · rintro ⟨p,s',new,hrun,hnew,⟨b,hb,hlength,-⟩,-⟩
    have hforget := ContentStore.forget_appendFrontBuffer granted junk buf n s
    rw [hrun,Option.map_some] at hforget
    by_cases halready : (front+content.length+n)%2^64 ≤ content.length
    · rw [appendFrontBuffer_already h.holds hfits hsize halready] at hforget
      split at hforget
      · rename_i hzero
        subst hzero
        exact ⟨rfl,Or.inl (by omega)⟩
      · cases hforget
    · cases hgrants : mallocGrants granted ((front+content.length+n)%2^64) with
      | true =>
        rw [appendFrontBuffer_granted h.holds hfront halready hgrants] at hforget
        cases hforget
      | false =>
        rw [h.appendFrontBuffer_refused hfront halready hgrants] at hrun
        cases hrun
        cases h.record.symm.trans hb
        have hzero : n = 0 := by
          rw [List.length_append,hnew] at hlength
          exact Nat.add_eq_right.mp hlength.symm
        subst hzero
        have hwhole : (front+content.length+0)%2^64 = front+content.length := by omega
        rw [hwhole,mallocGrants,decide_eq_true (show front+content.length < 2^63 by omega),Bool.and_true] at hgrants
        exact ⟨rfl,Or.inr hgrants⟩
  · rintro ⟨rfl,hcase⟩
    by_cases halready : (front+content.length+0)%2^64 ≤ content.length
    · exact h.prepends_nothing hsize hne (h.appendFrontBuffer_nothing hsize hne halready)
    · have hgap : front ≠ 0 := by
        rintro rfl
        omega
      have hrefused := hcase.resolve_left hgap
      subst hrefused
      exact h.prepends_nothing hsize hne (h.appendFrontBuffer_refused hfront halready rfl)

theorem overwrite_whole {old bytes : List UInt8} (h : bytes.length = old.length) : overwrite old 0 bytes = bytes := by
  simp [overwrite,h]

/-- A copy that fills a whole block. -/
theorem ContentStore.memcpy_whole {src : Pointer} {old : List UInt8}
    (hread : s.read src content.length = some content) (hload : s.blocks.load block = some old)
    (hlength : content.length = old.length) :
    s.memcpy (some (block,0)) src content.length = some { s with blocks := s.blocks.put block (some content) } := by
  rw [ContentStore.memcpy,hread,Option.bind_eq_bind,Option.bind_some,
    ContentStore.write_eq hload (by rw [Nat.zero_add,hlength]),overwrite_whole hlength]

theorem ContentStore.HoldsBytes.allocRecord (h : s.HoldsBytes buf block front content size) (b : Buffer) :
    ContentStore.HoldsBytes { s with buffers := s.buffers.alloc b } buf block front content size :=
  ⟨(Heap.load_alloc_of_ne _ _ (Heap.ne_next h.record)).trans h.record,h.block,h.fits⟩

theorem ContentStore.HoldsBytes.allocBlock (h : s.HoldsBytes buf block front content size) (new : List UInt8) :
    ContentStore.HoldsBytes { s with blocks := s.blocks.alloc new } buf block front content size := by
  obtain ⟨bytes,hload,hbytes,hcontent⟩ := h.block
  exact ⟨h.record,⟨bytes,(Heap.load_alloc_of_ne _ _ (Heap.ne_next hload)).trans hload,hbytes,hcontent⟩,h.fits⟩

/-- Without a gap the copy is the content. -/
theorem ContentStore.HoldsBytes.duplicates (h : s.HoldsBytes buf block 0 content size) (hne : content ≠ [])
    (hgranted : mallocGrants granted content.length = true) :
    Duplicates s granted junk buf block content := by
  obtain ⟨bytes,hload,-⟩ := h.block
  obtain ⟨m,hm⟩ := length_pos hne
  have hzero : content.length ≠ 0 := by omega
  let made : Buffer := ⟨some (s.blocks.next,0),some (s.blocks.next,0),content.length⟩
  let buffers := (s.buffers.alloc ⟨none,none,0⟩).alloc made
  let blocks := s.blocks.alloc ((List.range content.length).map junk)
  have hempty := h.allocRecord ⟨none,none,0⟩
  have hheld : ContentStore.HoldsBytes ⟨buffers,blocks⟩ buf block 0 content size := (hempty.allocRecord made).allocBlock _
  have hmade : buffers.load (s.buffers.next+1) = some made := Heap.load_alloc_next _ _
  have hjunk : blocks.load s.blocks.next = some ((List.range content.length).map junk) := Heap.load_alloc_next _ _
  have hcopy := ContentStore.memcpy_whole (hheld.read_content hne) hjunk (by simp)
  refine ⟨s.buffers.next+1,⟨buffers.put (s.buffers.next+1) (some made),blocks.put s.blocks.next (some content)⟩,
    s.blocks.next,0,content,?_,Heap.load_eq_none_of_le (Nat.le_succ _),Heap.load_put_self hmade _,
    Heap.load_eq_none_of_le (Nat.le_refl _),Heap.load_put_self hjunk _,Nat.le_of_eq (Nat.zero_add _),?_,?_,?_⟩
  · simp only [ContentStore.duplicateBuffer,ContentStore.allocBuffer,ContentStore.allocBufferWithLength,
      ContentStore.malloc_granted hgranted,hempty.record,hzero,frontLengthOf_placed (show 0 < 2^64 by decide),advance,
      Option.bind_eq_bind,Option.bind_some,if_false,Heap.next_alloc]
    simp only [buffers,blocks,made] at hmade hcopy
    simp only [hmade,hcopy,Heap.store_eq hmade,Option.bind_some]
    rfl
  · rw [hm]
    simp only [ContentStore.read,Heap.load_put_self hjunk,Option.bind_eq_bind,Option.bind_some,List.drop_zero]
    rw [if_pos (by omega),← hm,List.take_length]
  · have hlt := Heap.lt_next h.record
    exact (Heap.load_put_of_ne (by omega) _).trans (hheld.record.trans h.record.symm)
  · refine (Heap.load_put_of_ne (Heap.ne_next hload) _).trans ?_
    exact Heap.load_alloc_of_ne _ _ (Heap.ne_next hload)

/-- The copy is as long as the content, so that there is no room for a gap in it. -/
theorem duplicateBuffer_duplicates_iff (h : s.HoldsBytes buf block front content size) (hsize : size < 2^63)
    (hne : content ≠ []) : Duplicates s granted junk buf block content ↔ front = 0 ∧ granted = true := by
  have hfits := h.fits
  obtain ⟨m,hm⟩ := ContentStore.HoldsBytes.length_pos hne
  have hpos : content.length ≠ 0 := by omega
  have hgrants : mallocGrants granted content.length = granted := by
    rw [mallocGrants,decide_eq_true (show content.length < 2^63 by omega),Bool.and_true]
  constructor
  · rintro ⟨new,s',block',offset,bytes,hrun,-,hrecord,-,hload,hroom,-⟩
    have hforget := ContentStore.forget_duplicateBuffer granted junk buf s
    rw [hrun,Option.map_some] at hforget
    cases granted with
    | false =>
      rw [duplicateBuffer_refused h.holds hpos hgrants] at hforget
      cases hforget
    | true =>
      obtain ⟨t,ht,-,hblocks,hnew⟩ := duplicateBuffer_granted h.holds hfits (by omega) hpos hgrants
      obtain ⟨hbuf,hextent⟩ := Prod.mk.inj (Option.some.inj (hforget.trans ht))
      cases hbuf
      subst hextent
      have hrecord' := Option.some.inj (hrecord.symm.trans hnew)
      simp only [Buffer.mk.injEq,Option.some.injEq,Prod.mk.injEq,and_true] at hrecord'
      obtain ⟨⟨rfl,rfl⟩,-⟩ := hrecord'
      have hlength : (s'.blocks.load s.extent.blocks.next).map List.length = some content.length := by
        change s'.extent.blocks.load s.extent.blocks.next = _
        rw [hblocks]
        exact Heap.load_alloc_next _ _
      rw [hload,Option.map_some,Option.some.injEq] at hlength
      exact ⟨by omega,rfl⟩
  · rintro ⟨rfl,rfl⟩
    exact h.duplicates hne hgrants

end Front

theorem appendFrontBuffer_prepends_iff_singleByte :
    singleByte.HoldsBytes 0 0 0 [7] 1 ∧ (1 < 2^63) ∧ ([7] : List UInt8) ≠ [] ∧ (1 < 2^64) ∧
    (Prepends singleByte true (fun _ => 0) 0 0 [7] 1 ↔ 1 = 0 ∧ (0 = 0 ∨ true = false)) :=
  ⟨singleByte_holds,by decide,by decide,by decide,
    appendFrontBuffer_prepends_iff singleByte_holds (by decide) (by decide) (by decide)⟩

/-- One byte in front of one: the record is freed and used again. -/
theorem prependedByte_frees_record : singleByte.HoldsBytes 0 0 0 [7] 1 ∧
    singleByte.appendFrontBuffer true (fun _ => 0) 0 1 = none ∧
    ¬ Prepends singleByte true (fun _ => 0) 0 0 [7] 1 := by
  refine ⟨singleByte_holds,rfl,?_⟩
  rintro ⟨p,s',new,hrun,-⟩
  cases hrun

/-- Two bytes of which the first has been removed. -/
def removedByte : ContentStore := ⟨Heap.empty.alloc ⟨some (0,1),some (0,0),1⟩,Heap.empty.alloc [6,7]⟩

theorem removedByte_holds : removedByte.HoldsBytes 0 0 1 [7] 2 := ⟨rfl,⟨[6,7],rfl,rfl,rfl⟩,Nat.le_refl 2⟩

theorem duplicateBuffer_duplicates_iff_removedByte :
    removedByte.HoldsBytes 0 0 1 [7] 2 ∧ (2 < 2^63) ∧ ([7] : List UInt8) ≠ [] ∧
    (Duplicates removedByte true (fun _ => 0) 0 0 [7] ↔ 1 = 0 ∧ true = true) :=
  ⟨removedByte_holds,by decide,by decide,duplicateBuffer_duplicates_iff removedByte_holds (by decide) (by decide)⟩

/-- Its copy has one byte, the removed one, and counts the byte behind it. -/
theorem removedByte_not_duplicated : removedByte.HoldsBytes 0 0 1 [7] 2 ∧
    ¬ Duplicates removedByte true (fun _ => 0) 0 0 [7] := by
  refine ⟨removedByte_holds,?_⟩
  rintro ⟨new,s',block',offset,bytes,hrun,-,hrecord,-,hload,hroom,-⟩
  cases hrun
  cases hrecord
  cases hload
  exact absurd hroom (by decide)

end OpenFlowController.Buffers
