import OpenFlowController.Buffers.Contents
import OpenFlowController.Handler.TransInfo

/-! # The buffer of a new message

Every builder starts from `cc_create_header`, which allocates a buffer without a
block and lets `append_back_buffer` provide one. The pointer it gets back and the
buffer that it returns have nothing to do with each other.
-/
namespace OpenFlowController.Create
open Memory Buffers Protocol Handler

/-- `memset( header, 0, length )` and the assignments to the fields. -/
def storeHeader (header : Pointer) (xid : UInt32) (type : UInt8) (length : UInt16) (s : ContentStore) :
    Option ContentStore := do
  let s ← s.memset header 0 length.toNat
  let s ← s.write header [UInt8.ofNat ofpVersion]
  let s ← s.write (← advance header 1) [type]
  let s ← s.write (← advance header 2) [byte16 length.toNat 0,byte16 length.toNat 1]
  s.write (← advance header 4) [byte32 xid 0,byte32 xid 1,byte32 xid 2,byte32 xid 3]

/-- The block of the header is granted or not, and `junk` is in it before. -/
def ccCreateHeaderIn (granted : Bool) (junk : ℕ → UInt8) (xid : UInt32) (type : UInt8) (length : UInt16)
    (s : ContentStore) : Option (Option ℕ × ContentStore) := do
  let (buf,s) := s.allocBuffer
  let (header,s) ← s.appendBackBuffer granted junk buf length.toNat
  if header = none then return (none,s)
  return (some buf,← storeHeader header xid type length s)

/-- A header in network order and nothing behind it. -/
def headerBytes (xid : UInt32) (type : UInt8) (length : UInt16) : List UInt8 :=
  [UInt8.ofNat ofpVersion,type,byte16 length.toNat 0,byte16 length.toNat 1,
    byte32 xid 0,byte32 xid 1,byte32 xid 2,byte32 xid 3]++List.replicate (length.toNat-8) 0

/-- The buffer is as long as the message, and its data are the bytes of the message. -/
def HoldsHeader (s : ContentStore) (buf : ℕ) (xid : UInt32) (type : UInt8) (length : UInt16) : Prop :=
  ∃ b, s.buffers.load buf = some b ∧ b.length = length.toNat ∧
    s.read b.data length.toNat = some (headerBytes xid type length)

/-- The call comes back, and with a buffer only if it holds the header. -/
def CreatesHeader (granted : Bool) (junk : ℕ → UInt8) (xid : UInt32) (type : UInt8) (length : UInt16)
    (s : ContentStore) : Prop :=
  ∃ created s', ccCreateHeaderIn granted junk xid type length s = some (created,s') ∧
    ∀ buf, created = some buf → HoldsHeader s' buf xid type length

section Rules
variable {granted : Bool} {junk : ℕ → UInt8} {xid : UInt32} {type : UInt8} {length : UInt16} {s : ContentStore}

theorem mallocGrants_uint16 (granted : Bool) (length : UInt16) : mallocGrants granted length.toNat = granted := by
  have hlt : length.toNat < 65536 := length.toNat_lt
  simp only [mallocGrants,Bool.and_eq_left_iff_imp,decide_eq_true_eq]
  omega

/-- The stores into a cleared block. -/
theorem overwrite_header (h8 : 8 ≤ length.toNat) :
    overwrite (overwrite (overwrite (overwrite (List.replicate length.toNat 0) 0 [UInt8.ofNat ofpVersion]) 1 [type]) 2
      [byte16 length.toNat 0,byte16 length.toNat 1]) 4 [byte32 xid 0,byte32 xid 1,byte32 xid 2,byte32 xid 3] =
      headerBytes xid type length := by
  obtain ⟨n,hn⟩ := Nat.exists_eq_add_of_le h8
  have hzeros : List.replicate length.toNat (0 : UInt8) = 0 :: 0 :: 0 :: 0 :: 0 :: 0 :: 0 :: 0 :: List.replicate n 0 := by
    rw [hn,Nat.add_comm]
    rfl
  rw [hzeros,headerBytes,hn,Nat.add_sub_cancel_left]
  rfl

theorem storeHeader_eq {block : ℕ} {old : List UInt8} (hload : s.blocks.load block = some old)
    (hold : old.length = length.toNat) (h8 : 8 ≤ length.toNat) : storeHeader (some (block,0)) xid type length s =
      some { s with blocks := s.blocks.put block (some (headerBytes xid type length)) } := by
  have hcleared : overwrite old 0 (List.replicate length.toNat 0) = List.replicate length.toNat 0 := by
    simp [overwrite,hold]
  have hmemset : s.memset (some (block,0)) 0 length.toNat =
      some { s with blocks := s.blocks.put block (some (List.replicate length.toNat 0)) } := by
    rw [ContentStore.memset,ContentStore.write_eq hload (by simp [hold]),hcleared]
  have hsize (bytes : List UInt8) {o : ℕ} {old : List UInt8} (hold : old.length = length.toNat)
      (ho : o+bytes.length ≤ length.toNat) : (overwrite old o bytes).length = length.toNat := by
    rw [length_overwrite (hold ▸ ho),hold]
  have h₀ : (List.replicate length.toNat (0 : UInt8)).length = length.toNat := List.length_replicate
  have h₁ := hsize [UInt8.ofNat ofpVersion] h₀ (show 0+1 ≤ length.toNat by omega)
  have h₂ := hsize [type] h₁ (show 1+1 ≤ length.toNat by omega)
  have h₃ := hsize [byte16 length.toNat 0,byte16 length.toNat 1] h₂ (show 2+2 ≤ length.toNat by omega)
  simp only [storeHeader,hmemset,advance,Option.bind_eq_bind,Option.bind_some,Nat.zero_add]
  rw [ContentStore.write_put hload (by rw [h₀]; exact Nat.le_trans (show 0+1 ≤ 8 by decide) h8),Option.bind_some,
    ContentStore.write_put hload (by rw [h₁]; exact Nat.le_trans (show 1+1 ≤ 8 by decide) h8),Option.bind_some,
    ContentStore.write_put hload (by rw [h₂]; exact Nat.le_trans (show 2+2 ≤ 8 by decide) h8),Option.bind_some,
    ContentStore.write_put hload (by rw [h₃]; exact h8),overwrite_header h8]

/-- With a block the header is written into it, and the buffer that is returned has
none. -/
theorem ccCreateHeaderIn_granted (junk : ℕ → UInt8) (xid : UInt32) (type : UInt8) (s : ContentStore)
    (h8 : 8 ≤ length.toNat) : ∃ s', ccCreateHeaderIn true junk xid type length s = some (some s.buffers.next,s') ∧
      s'.buffers.load s.buffers.next = some ⟨none,none,0⟩ ∧
      s'.buffers.load (s.buffers.next+1) = some ⟨some (s.blocks.next,0),some (s.blocks.next,0),length.toNat⟩ ∧
      s'.blocks.load s.blocks.next = some (headerBytes xid type length) := by
  let empty : ContentStore := { s with buffers := s.buffers.alloc ⟨none,none,0⟩ }
  let made : ContentStore := ⟨empty.buffers.alloc ⟨some (s.blocks.next,0),some (s.blocks.next,0),length.toNat⟩,
    s.blocks.alloc ((List.range length.toNat).map junk)⟩
  have hempty : empty.buffers.load s.buffers.next = some ⟨none,none,0⟩ := Heap.load_alloc_next _ _
  have hgrants := mallocGrants_uint16 true length
  have happend : empty.appendBackBuffer true junk s.buffers.next length.toNat = some (some (s.blocks.next,0),made) := by
    rw [ContentStore.appendBackBuffer_empty hempty rfl,ContentStore.allocBufferWithLength,
      ContentStore.malloc_granted hgrants]
  have hblock : made.blocks.load s.blocks.next = some ((List.range length.toNat).map junk) := Heap.load_alloc_next _ _
  have hstored : storeHeader (some (s.blocks.next,0)) xid type length made =
      some { made with blocks := made.blocks.put s.blocks.next (some (headerBytes xid type length)) } :=
    storeHeader_eq hblock (by simp) h8
  refine ⟨{ made with blocks := made.blocks.put s.blocks.next (some (headerBytes xid type length)) },?_,?_,?_,?_⟩
  · simp only [ccCreateHeaderIn,ContentStore.allocBuffer,Option.bind_eq_bind]
    rw [happend,Option.bind_some,if_neg (Option.some_ne_none _),hstored]
    rfl
  · exact (Heap.load_alloc_of_ne _ _ (Heap.ne_next hempty)).trans hempty
  · exact Heap.load_alloc_next _ _
  · exact Heap.load_put_self hblock _

theorem ccCreateHeaderIn_refused (junk : ℕ → UInt8) (xid : UInt32) (type : UInt8) (length : UInt16) (s : ContentStore) :
    ∃ s', ccCreateHeaderIn false junk xid type length s = some (none,s') := by
  have hempty : (s.allocBuffer).2.buffers.load s.buffers.next = some ⟨none,none,0⟩ := Heap.load_alloc_next _ _
  refine ⟨((s.allocBuffer).2.allocBufferWithLength false junk length.toNat).2,?_⟩
  simp only [ccCreateHeaderIn,Option.bind_eq_bind]
  rw [show (s.allocBuffer).1 = s.buffers.next from rfl,ContentStore.appendBackBuffer_empty hempty rfl,Option.bind_some,
    ContentStore.malloc_refused (mallocGrants_uint16 false length),if_pos rfl]
  rfl

/-- The buffer that is returned is empty, whatever the message. -/
theorem not_holdsHeader_of_empty {buf : ℕ} (h8 : 8 ≤ length.toNat) (hload : s.buffers.load buf = some ⟨none,none,0⟩) :
    ¬ HoldsHeader s buf xid type length := by
  rintro ⟨b,hb,hlength,-⟩
  obtain rfl := Option.some.inj (hload.symm.trans hb)
  simp only at hlength
  omega

theorem not_createsHeader_granted (junk : ℕ → UInt8) (xid : UInt32) (type : UInt8) (s : ContentStore)
    (h8 : 8 ≤ length.toNat) : ¬ CreatesHeader true junk xid type length s := by
  rintro ⟨created,s',hrun,hholds⟩
  obtain ⟨s'',hrun',hempty,-⟩ := ccCreateHeaderIn_granted junk xid type s h8
  obtain ⟨rfl,rfl⟩ := Prod.mk.inj (Option.some.inj (hrun.symm.trans hrun'))
  exact not_holdsHeader_of_empty h8 hempty (hholds _ rfl)

/-- A buffer is returned exactly when there is a block, and then it holds nothing. -/
theorem createsHeader_iff (granted : Bool) (junk : ℕ → UInt8) (xid : UInt32) (type : UInt8) (length : UInt16)
    (s : ContentStore) (h8 : 8 ≤ length.toNat) : CreatesHeader granted junk xid type length s ↔ granted = false := by
  cases granted with
  | false =>
    obtain ⟨s',hrun⟩ := ccCreateHeaderIn_refused junk xid type length s
    exact iff_of_true ⟨none,s',hrun,fun _ hnone => by cases hnone⟩ rfl
  | true => exact iff_of_false (not_createsHeader_granted junk xid type s h8) (by simp)

/-- What is written is the message that the other builders count on. -/
theorem headerBytes_eq {type : OfpType} {buffer : Check.Message} (h8 : 8 ≤ length.toNat)
    (hbuffer : ccCreateHeader true xid type length.toNat = some buffer) :
    headerBytes xid (UInt8.ofNat type.value) length = (List.range buffer.length).map buffer.data := by
  obtain ⟨n,hn⟩ := Nat.exists_eq_add_of_le h8
  obtain rfl := Option.some.inj hbuffer
  rw [headerBytes,hn,Nat.add_sub_cancel_left,List.range_add,List.map_append,List.map_map]
  congr 1
  rw [eq_comm,List.eq_replicate_iff,List.length_map,List.length_range]
  refine ⟨rfl,fun b hb => ?_⟩
  obtain ⟨i,-,rfl⟩ := List.mem_map.mp hb
  simp only [Function.comp_apply]
  rw [if_neg (by omega),if_neg (by omega),if_neg (by omega),if_neg (by omega)]

/-- It is in a block that the returned buffer does not point to. -/
theorem ccCreateHeaderIn_message (junk : ℕ → UInt8) (xid : UInt32) (type : OfpType) (s : ContentStore)
    (h8 : 8 ≤ length.toNat) : ∃ buffer s', ccCreateHeader true xid type length.toNat = some buffer ∧
      ccCreateHeaderIn true junk xid (UInt8.ofNat type.value) length s = some (some s.buffers.next,s') ∧
      s'.buffers.load s.buffers.next = some ⟨none,none,0⟩ ∧
      s'.blocks.load s.blocks.next = some ((List.range buffer.length).map buffer.data) := by
  obtain ⟨s',hrun,hempty,-,hblock⟩ := ccCreateHeaderIn_granted junk xid (UInt8.ofNat type.value) s h8
  exact ⟨_,s',rfl,hrun,hempty,hblock.trans (congrArg some (headerBytes_eq h8 rfl))⟩

def noBuffers : ContentStore := ⟨Heap.empty,Heap.empty⟩

theorem createsHeader_iff_hello : 8 ≤ (8 : UInt16).toNat ∧
    (CreatesHeader false (fun _ => 0) 1 0 8 noBuffers ↔ false = false) :=
  ⟨by decide,createsHeader_iff false (fun _ => 0) 1 0 8 noBuffers (by decide)⟩

/-- The buffer of a hello message has no data and the length 0. -/
theorem hello_not_created : ∃ s', ccCreateHeaderIn true (fun _ => 0) 1 0 8 noBuffers = some (some 0,s') ∧
    s'.buffers.load 0 = some ⟨none,none,0⟩ ∧ ¬ CreatesHeader true (fun _ => 0) 1 0 8 noBuffers := by
  obtain ⟨-,s',-,hrun,hempty,-⟩ := ccCreateHeaderIn_message (fun _ => 0) 1 .ofptHello noBuffers
    (show 8 ≤ (8 : UInt16).toNat by decide)
  exact ⟨s',hrun,hempty,not_createsHeader_granted _ 1 0 noBuffers (by decide)⟩

end Rules
end OpenFlowController.Create
