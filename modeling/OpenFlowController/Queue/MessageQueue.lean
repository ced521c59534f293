import Mathlib.Data.Int.Notation
import OpenFlowController.Memory.Heap

/-! # The linked message queue

A sentinel cell precedes the queued cells. `length` is a 32-bit counter kept
beside the list. Locking is left out: every operation here is one critical
section. An operation without a result has accessed a reclaimed cell.
-/
namespace OpenFlowController.Queue
open Memory

/-- Return codes shared by all library functions. -/
inductive ErrorCode
  | ccEErr
  | ccENone
  deriving DecidableEq, Repr

def ErrorCode.value : ErrorCode → ℤ
  | .ccEErr => -1
  | .ccENone => 0

structure MessageQueueElement (B : Type*) where
  data : Option B
  next : Option ℕ

structure MessageQueue (B : Type*) where
  elements : Heap (MessageQueueElement B)
  head : ℕ
  tail : ℕ
  length : UInt32

variable {B : Type*}

def createMessageQueue : MessageQueue B where
  elements := Heap.empty.alloc ⟨none,none⟩
  head := 0
  tail := 0
  length := 0

def enqueueMessage (queue : MessageQueue B) (buf : Option B) : Option (ErrorCode × MessageQueue B) :=
  match buf with
  | none => some (.ccEErr,queue)
  | some buf => do
    let newTail := queue.elements.next
    let elements := queue.elements.alloc ⟨some buf,none⟩
    let last ← elements.load queue.tail
    let elements ← elements.store queue.tail { last with next := some newTail }
    return (.ccENone,{ queue with elements, tail := newTail, length := queue.length+1 })

/-- The cell is reclaimed, its buffer goes to the caller. `tail` is not touched. -/
def dequeueMessage (queue : MessageQueue B) : Option (Option B × MessageQueue B) := do
  let sentinel ← queue.elements.load queue.head
  match sentinel.next with
  | none => return (none,queue)
  | some tmpElement =>
    if queue.length = 0 then return (none,queue)
    let element ← queue.elements.load tmpElement
    let elements ← queue.elements.store queue.head { sentinel with next := element.next }
    let elements ← elements.store tmpElement { element with next := none }
    let elements ← elements.free tmpElement
    return (element.data,{ queue with elements, length := queue.length-1 })

/-- `queue_is_empty` answers `CC_E_NONE` for an empty queue. -/
def queueIsEmpty (queue : MessageQueue B) : ErrorCode :=
  if queue.length = 0 then .ccENone else .ccEErr

abbrev elementLink (e : MessageQueueElement B) : Option ℕ := e.next

/-- The cells are one list from the sentinel, whose data is NULL, to the end. -/
structure Represents (queue : MessageQueue B) (cells : List (ℕ × MessageQueueElement B))
    (pending : List B) : Prop where
  linked : queue.elements.Segment elementLink (some queue.head) cells none
  distinct : (cells.map Prod.fst).Nodup
  payload : cells.map (fun x => x.2.data) = none :: pending.map some

/-- `tail` is the last cell of the list, sentinel included. -/
def TailLive (queue : MessageQueue B) (cells : List (ℕ × MessageQueueElement B)) : Prop :=
  (cells.map Prod.fst).getLast? = some queue.tail

def TailDangling (queue : MessageQueue B) : Prop :=
  queue.tail < queue.elements.next ∧ queue.elements.load queue.tail = none

theorem createMessageQueue_represents :
    Represents (createMessageQueue : MessageQueue B) [(0,⟨none,none⟩)] [] := by
  constructor <;> simp [createMessageQueue,Heap.load_alloc]

theorem createMessageQueue_tailLive :
    TailLive (createMessageQueue : MessageQueue B) [(0,⟨none,none⟩)] := rfl

theorem Represents.unique {queue : MessageQueue B} {cells cells' : List (ℕ × MessageQueueElement B)}
    {pending pending' : List B} (h : Represents queue cells pending) (h' : Represents queue cells' pending') :
    pending = pending' := by
  have hcells := h.linked.unique h'.linked
  have hpayload := h.payload
  rw [hcells,h'.payload] at hpayload
  exact ((List.map_inj_right (fun _ _ => Option.some.inj)).mp (List.cons.inj hpayload).2).symm

/-- On a dangling tail the first store of `enqueue_message` hits a reclaimed cell. -/
theorem enqueueMessage_dangling {queue : MessageQueue B} (hd : TailDangling queue) (b : B) :
    enqueueMessage queue (some b) = none := by
  obtain ⟨hlt,hn⟩ := hd
  have hl : (queue.elements.alloc ⟨some b,none⟩).load queue.tail = none := by
    rw [Heap.load_alloc_of_ne _ _ (by omega)]
    exact hn
  simp [enqueueMessage,hl]

theorem tailLive_split {queue : MessageQueue B} {cells : List (ℕ × MessageQueueElement B)}
    (ht : TailLive queue cells) : ∃ init c, cells = init ++ [(queue.tail,c)] := by
  obtain ⟨addrs,ha⟩ := List.getLast?_eq_some_iff.mp ht
  obtain ⟨init,last,rfl,-,hl⟩ := List.map_eq_append_iff.mp ha
  obtain ⟨x,rfl,hx⟩ := List.map_eq_singleton_iff.mp hl
  exact ⟨init,x.2,by rw [← hx]⟩

theorem enqueueMessage_eq {queue : MessageQueue B} {c : MessageQueueElement B}
    (hc : queue.elements.load queue.tail = some c) (b : B) :
    enqueueMessage queue (some b) = some (.ccENone,
      ⟨(queue.elements.alloc ⟨some b,none⟩).put queue.tail (some ⟨c.data,some queue.elements.next⟩),
        queue.head,queue.elements.next,queue.length+1⟩) := by
  have hload : (queue.elements.alloc ⟨some b,none⟩).load queue.tail = some c := by
    rw [Heap.load_alloc_of_ne _ _ (Heap.ne_next hc)]
    exact hc
  simp [enqueueMessage,hload,Heap.store_eq hload]

theorem enqueueMessage_live {queue : MessageQueue B} {cells : List (ℕ × MessageQueueElement B)}
    {pending : List B} (hr : Represents queue cells pending) (ht : TailLive queue cells) (b : B) :
    ∃ queue' cells', enqueueMessage queue (some b) = some (.ccENone,queue') ∧
      Represents queue' cells' (pending++[b]) ∧ TailLive queue' cells' ∧
      queue'.length = queue.length+1 := by
  obtain ⟨init,c,rfl⟩ := tailLive_split ht
  obtain ⟨hlinked,hdistinct,hpayload⟩ := hr
  obtain ⟨r,hinit,hlast⟩ := Heap.Segment.append_iff.mp hlinked
  obtain ⟨rfl,hc,-⟩ := hlast
  have hn : queue.elements.next ∉ (init++[(queue.tail,c)]).map Prod.fst := by
    intro hmem
    obtain ⟨x,hx,hxn⟩ := List.mem_map.mp hmem
    exact Heap.ne_next (hlinked.load_of_mem hx) hxn
  simp only [List.map_append,List.map_cons,List.map_nil] at hdistinct hn hpayload
  have htail : queue.tail ∉ init.map Prod.fst := by
    intro hmem
    exact (List.nodup_append.mp hdistinct).2.2 _ hmem _ List.mem_cons_self rfl
  have hne : queue.elements.next ≠ queue.tail := (Heap.ne_next hc).symm
  have hload : (queue.elements.alloc ⟨some b,none⟩).load queue.tail = some c :=
    (Heap.load_alloc_of_ne _ _ hne.symm).trans hc
  refine ⟨_,init++[(queue.tail,⟨c.data,some queue.elements.next⟩),(queue.elements.next,⟨some b,none⟩)],
    enqueueMessage_eq hc b,⟨?_,?_,?_⟩,?_,rfl⟩
  · apply Heap.Segment.append_iff.mpr
    refine ⟨some queue.tail,(hinit.alloc _).put htail _,rfl,Heap.load_put_self hload _,rfl,?_,rfl⟩
    rw [Heap.load_put_of_ne hne]
    exact Heap.load_alloc_next _ _
  · have h := List.nodup_append.mpr ⟨hdistinct,List.nodup_singleton queue.elements.next,fun x hx y hy => by
      rintro rfl
      exact hn (List.mem_singleton.mp hy ▸ hx)⟩
    simpa using h
  · simpa using congrArg (· ++ [some b]) hpayload
  · simp [TailLive]

theorem dequeueMessage_nil {queue : MessageQueue B} {cells : List (ℕ × MessageQueueElement B)}
    (hr : Represents queue cells []) : dequeueMessage queue = some (none,queue) := by
  obtain ⟨hlinked,-,hpayload⟩ := hr
  obtain ⟨⟨a,sentinel⟩,rfl,-⟩ := List.map_eq_singleton_iff.mp hpayload
  obtain ⟨hx,hload,hend⟩ := hlinked
  cases hx
  have hnext : sentinel.next = none := hend
  simp [dequeueMessage,hload,hnext]

/-- Where the counter stands at 0 the list is left alone. -/
theorem dequeueMessage_uncounted {queue : MessageQueue B} {cells : List (ℕ × MessageQueueElement B)}
    {pending : List B} (hr : Represents queue cells pending) (hl : queue.length = 0) :
    dequeueMessage queue = some (none,queue) := by
  obtain ⟨hlinked,-,hpayload⟩ := hr
  obtain ⟨⟨a,sentinel⟩,rest,rfl,-,-⟩ := List.map_eq_cons_iff.mp hpayload
  obtain ⟨hx,hload,-⟩ := hlinked
  cases hx
  cases hnext : sentinel.next with
  | none => simp [dequeueMessage,hload,hnext]
  | some t => simp [dequeueMessage,hload,hnext,hl]

theorem dequeueMessage_eq {queue : MessageQueue B} {sentinel element : MessageQueueElement B} {t : ℕ}
    (hs : queue.elements.load queue.head = some sentinel) (hn : sentinel.next = some t)
    (he : queue.elements.load t = some element) (hne : t ≠ queue.head) (hl : queue.length ≠ 0) :
    dequeueMessage queue = some (element.data,
      ⟨((queue.elements.put queue.head (some ⟨sentinel.data,element.next⟩)).put t
          (some ⟨element.data,none⟩)).put t none,queue.head,queue.tail,queue.length-1⟩) := by
  have h₁ : (queue.elements.put queue.head (some ⟨sentinel.data,element.next⟩)).load t = some element :=
    (Heap.load_put_of_ne hne _).trans he
  have h₂ := Heap.load_put_self h₁ (some ⟨element.data,none⟩)
  simp [dequeueMessage,hs,hn,hl,he,Heap.store_eq hs,Heap.store_eq h₁,Heap.free_eq h₂]

theorem dequeueMessage_length {queue queue' : MessageQueue B} {b : B}
    (h : dequeueMessage queue = some (some b,queue')) : queue'.length.toNat < queue.length.toNat := by
  simp only [dequeueMessage,Option.bind_eq_bind,Option.bind_eq_some_iff] at h
  obtain ⟨sentinel,-,h⟩ := h
  cases hn : sentinel.next with
  | none =>
    rw [hn] at h
    cases h
  | some t =>
    rw [hn] at h
    by_cases hl : queue.length = 0
    · simp [hl] at h
    · simp only [hl,if_false,Option.bind_eq_some_iff] at h
      obtain ⟨element,-,elements₁,-,elements₂,-,elements₃,-,h⟩ := h
      obtain ⟨-,rfl⟩ := Prod.mk.inj (Option.some.inj h)
      have hpos : 1 ≤ queue.length.toNat := Nat.one_le_iff_ne_zero.mpr fun h0 => hl (UInt32.toNat_inj.mp h0)
      have hle : (1 : UInt32) ≤ queue.length := UInt32.le_iff_toNat_le.mpr hpos
      change (queue.length-1).toNat < queue.length.toNat
      rw [UInt32.toNat_sub_of_le _ _ hle]
      exact Nat.sub_lt hpos Nat.one_pos

/-- The oldest pending buffer is returned and its cell reclaimed. Unless it was
the last one the tail stays live; otherwise it now dangles. -/
theorem dequeueMessage_cons {queue : MessageQueue B} {cells : List (ℕ × MessageQueueElement B)}
    {b : B} {pending : List B} (hr : Represents queue cells (b :: pending)) (hl : queue.length ≠ 0) :
    ∃ queue' cells', dequeueMessage queue = some (some b,queue') ∧
      Represents queue' cells' pending ∧ queue'.length = queue.length-1 ∧
      (TailLive queue cells → if pending = [] then TailDangling queue' else TailLive queue' cells') := by
  obtain ⟨hlinked,hdistinct,hpayload⟩ := hr
  obtain ⟨⟨a,sentinel⟩,rest,rfl,hs,hrest⟩ := List.map_eq_cons_iff.mp hpayload
  obtain ⟨⟨t,element⟩,cells,rfl,he,hcells⟩ := List.map_eq_cons_iff.mp hrest
  obtain ⟨ha,hload,ht,htload,hsegment⟩ := hlinked
  cases ha
  have hdata : element.data = some b := he
  simp only [List.map_cons,List.nodup_cons,List.mem_cons,not_or] at hdistinct
  obtain ⟨⟨hht,hhead⟩,htail,hnodup⟩ := hdistinct
  have heq := dequeueMessage_eq hload ht htload (Ne.symm hht) hl
  rw [hdata] at heq
  have h₁ : (queue.elements.put queue.head (some ⟨sentinel.data,element.next⟩)).load t = some element :=
    (Heap.load_put_of_ne (Ne.symm hht) _).trans htload
  have h₂ := Heap.load_put_self h₁ (some ⟨some b,none⟩)
  refine ⟨_,(queue.head,⟨sentinel.data,element.next⟩) :: cells,heq,⟨⟨rfl,?_,?_⟩,?_,?_⟩,rfl,?_⟩
  · rw [Heap.load_put_of_ne hht,Heap.load_put_of_ne hht]
    exact Heap.load_put_self hload _
  · exact ((hsegment.put hhead _).put htail _).put htail _
  · exact List.nodup_cons.mpr ⟨hhead,hnodup⟩
  · simp only [List.map_cons,hcells]
    exact congrArg (· :: pending.map some) hs
  · intro hlive
    cases cells with
    | nil =>
      have hp : pending = [] := by simpa using hcells.symm
      have htq : queue.tail = t := by simpa [TailLive] using hlive.symm
      rw [if_pos hp]
      refine ⟨?_,?_⟩
      · simpa [htq] using Heap.lt_next htload
      · simpa [htq] using Heap.load_put_self h₂ none
    | cons x cells =>
      have hp : pending ≠ [] := by
        rintro rfl
        simp at hcells
      rw [if_neg hp]
      simpa [TailLive] using hlive

end OpenFlowController.Queue
