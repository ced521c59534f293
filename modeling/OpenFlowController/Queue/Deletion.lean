import OpenFlowController.Queue.MessageQueueRuns

/-! # Deleting a queue

The loop frees what is queued and its cells. The function ends with the first return
behind it, which belongs to neither branch of the test before it.
-/
namespace OpenFlowController.Queue
open Memory
variable {B : Type*}

/-- What a call leaves: the buffers given to `free_buffer`, the cells, and whether
the lock was released and the queue itself freed. -/
structure Deletion (B : Type*) where
  ret : ErrorCode
  freed : List B
  elements : Heap (MessageQueueElement B)
  unlocked : Bool
  queueFreed : Bool

/-- A cell without data is freed where it is. -/
def deleteLoop : ℕ → MessageQueue B → List B → Option (MessageQueue B × List B)
  | 0, _, _ => none
  | fuel+1, queue, freed => do
    let sentinel ← queue.elements.load queue.head
    match sentinel.next with
    | none => return (queue,freed)
    | some element => do
      let e ← queue.elements.load element
      match e.data with
      | some data => do
        let elements ← queue.elements.store queue.head { sentinel with next := e.next }
        let elements ← elements.free element
        deleteLoop fuel { queue with elements } (freed++[data])
      | none => do
        let elements ← queue.elements.free element
        deleteLoop fuel { queue with elements } freed

def deleteMessageQueue (fuel : ℕ) (queue : MessageQueue B) : Option (Deletion B) := do
  let (queue,freed) ← deleteLoop fuel queue []
  let elements ← queue.elements.free queue.head
  -- `else` takes the unlocking only; whatever stands behind this return is never reached
  return ⟨.ccEErr,freed,elements,false,false⟩

/-- Each pending buffer and each cell is freed, the lock released, the queue freed
and success reported. -/
def Deletes (queue : MessageQueue B) (pending : List B) : Prop :=
  ∃ fuel deletion, deleteMessageQueue fuel queue = some deletion ∧ deletion.freed = pending ∧
    (∀ cells, Represents queue cells pending → ∀ x ∈ cells, deletion.elements.load x.1 = none) ∧
    deletion.unlocked = true ∧ deletion.queueFreed = true ∧ deletion.ret = .ccENone

/-- What it comes to: buffers and cells are freed, and that is all. -/
def DeletesContents (queue : MessageQueue B) (pending : List B) : Prop :=
  ∃ cells elements, Represents queue cells pending ∧
    deleteMessageQueue (pending.length+1) queue = some ⟨.ccEErr,pending,elements,false,false⟩ ∧
    ∀ x ∈ cells, elements.load x.1 = none

/-- The queue after a run and what is pending on it. A run has no result once it has
stored through a reclaimed tail. -/
def queueAfter : MessageQueue B → List B → List (QueueCall B) → Option (MessageQueue B × List B)
  | queue, pending, [] => some (queue,pending)
  | queue, pending, .enqueue buf :: calls => do
    let (_,queue) ← enqueueMessage queue (some buf)
    queueAfter queue (pending++[buf]) calls
  | queue, pending, .dequeue :: calls => do
    let (out,queue) ← dequeueMessage queue
    queueAfter queue (if out.isSome then pending.tail else pending) calls

/-- The first cell is unlinked and freed; the others keep their contents. -/
def MessageQueue.withoutFirst (queue : MessageQueue B) (data : Option B) (p : ℕ) (next : Option ℕ) :
    MessageQueue B :=
  { queue with elements := (queue.elements.put queue.head (some ⟨data,next⟩)).put p none }

section Delete
variable {queue queue' : MessageQueue B} {pending pending' : List B}

theorem deleteLoop_step {sentinel e : MessageQueueElement B} {p : ℕ} {b : B}
    (hs : queue.elements.load queue.head = some sentinel) (hn : sentinel.next = some p)
    (he : queue.elements.load p = some e) (hb : e.data = some b) (hp : p ≠ queue.head) (fuel : ℕ) (freed : List B) :
    deleteLoop (fuel+1) queue freed = deleteLoop fuel (queue.withoutFirst sentinel.data p e.next) (freed++[b]) := by
  have hfree := Heap.free_eq ((Heap.load_put_of_ne hp (some ⟨sentinel.data,e.next⟩)).trans he)
  simp only [deleteLoop,hs,hn,he,hb,Heap.store_eq hs,hfree,Option.bind_eq_bind,Option.bind_some]
  rfl

/-- The cells behind the sentinel are freed one after another, each with its buffer;
what is no cell of the list stays. -/
theorem deleteLoop_run {sentinel : MessageQueueElement B} {rest : List (ℕ × MessageQueueElement B)}
    (hs : queue.elements.load queue.head = some sentinel)
    (hrest : queue.elements.Segment elementLink sentinel.next rest none)
    (hd : (queue.head :: rest.map Prod.fst).Nodup) (hp : rest.map (fun x => x.2.data) = pending.map some)
    (freed : List B) : ∃ elements, deleteLoop (pending.length+1) queue freed =
        some ({ queue with elements },freed++pending) ∧
      elements.load queue.head = some ⟨sentinel.data,none⟩ ∧
      ∀ q ≠ queue.head, elements.load q = if q ∈ rest.map Prod.fst then none else queue.elements.load q := by
  induction rest generalizing queue pending sentinel freed with
  | nil =>
    obtain rfl : pending = [] := List.map_eq_nil_iff.mp hp.symm
    have hn : sentinel.next = none := hrest
    have hsentinel : sentinel = ⟨sentinel.data,none⟩ := by rw [← hn]
    refine ⟨queue.elements,?_,hs.trans (congrArg some hsentinel),fun q _ => by simp⟩
    simp only [List.length_nil,deleteLoop,hs,hn,Option.bind_eq_bind,Option.bind_some,List.append_nil]
    rfl
  | cons x rest ih =>
    obtain ⟨p,e⟩ := x
    obtain ⟨b,pending,rfl,hb,hp⟩ := List.map_eq_cons_iff.mp hp.symm
    obtain ⟨hn,he,hsegment⟩ := hrest
    simp only [List.map_cons,List.nodup_cons,List.mem_cons,not_or] at hd
    obtain ⟨⟨hne,hhead⟩,hpr,hnodup⟩ := hd
    have hstep := deleteLoop_step hs hn he hb.symm (Ne.symm hne) (pending.length+1) freed
    have hload : (queue.withoutFirst sentinel.data p e.next).elements.load queue.head =
        some ⟨sentinel.data,e.next⟩ :=
      (Heap.load_put_of_ne hne _).trans (Heap.load_put_self hs _)
    obtain ⟨elements,hrun,hlast,hother⟩ := ih hload ((hsegment.put hhead _).put hpr _)
      (List.nodup_cons.mpr ⟨hhead,hnodup⟩) hp.symm (freed++[b])
    refine ⟨elements,?_,hlast,fun q hq => ?_⟩
    · rw [List.length_cons,hstep,hrun,List.append_assoc,List.singleton_append]
      rfl
    · have hput : (queue.elements.put queue.head (some ⟨sentinel.data,e.next⟩)).load p = some e :=
        (Heap.load_put_of_ne (Ne.symm hne) _).trans he
      rw [hother q hq,MessageQueue.withoutFirst]
      simp only [List.map_cons,List.mem_cons]
      by_cases hqp : q = p
      · subst hqp
        rw [if_neg hpr,if_pos (Or.inl rfl)]
        exact Heap.load_put_self hput none
      · simp only [hqp,false_or]
        rw [Heap.load_put_of_ne hqp,Heap.load_put_of_ne hq]

theorem Represents.deletesContents {cells : List (ℕ × MessageQueueElement B)} (hr : Represents queue cells pending) :
    DeletesContents queue pending := by
  obtain ⟨hlinked,hdistinct,hpayload⟩ := id hr
  obtain ⟨⟨a,sentinel⟩,rest,rfl,-,hrest⟩ := List.map_eq_cons_iff.mp hpayload
  obtain ⟨ha,hload,hsegment⟩ := hlinked
  cases ha
  obtain ⟨elements,hloop,hhead,hgone⟩ := deleteLoop_run hload hsegment hdistinct hrest []
  refine ⟨_,elements.put queue.head none,hr,?_,?_⟩
  · have hfree : elements.free queue.head = some (elements.put queue.head none) := Heap.free_eq hhead
    simp only [deleteMessageQueue,hloop,hfree,Option.bind_eq_bind,Option.bind_some,List.nil_append]
    rfl
  · intro x hx
    rw [Heap.load_put hhead]
    split
    · rfl
    · rename_i hne
      rcases List.mem_cons.mp hx with rfl | hx
      · exact absurd rfl hne
      · exact (hgone x.1 hne).trans (if_pos (List.mem_map_of_mem hx))

/-- A call that has a result leaves a whole list, with a tail that is live unless the
list is empty. -/
theorem Represents.queueAfter {cells : List (ℕ × MessageQueueElement B)} (hr : Represents queue cells pending)
    (ht : TailLive queue cells ∨ (pending = [] ∧ TailDangling queue)) {calls : List (QueueCall B)}
    (h : queueAfter queue pending calls = some (queue',pending')) : ∃ cells', Represents queue' cells' pending' := by
  induction calls generalizing queue pending cells with
  | nil =>
    cases h
    exact ⟨cells,hr⟩
  | cons call calls ih =>
    cases call with
    | enqueue buf =>
      rcases ht with hlive | ⟨-,hdangling⟩
      · obtain ⟨next,cells',heq,hr',ht',-⟩ := enqueueMessage_live hr hlive buf
        simp only [Queue.queueAfter,heq,Option.bind_eq_bind,Option.bind_some] at h
        exact ih hr' (Or.inl ht') h
      · rw [Queue.queueAfter,enqueueMessage_dangling hdangling buf] at h
        cases h
    | dequeue =>
      by_cases hl : queue.length = 0
      · simp only [Queue.queueAfter,dequeueMessage_uncounted hr hl,Option.bind_eq_bind,Option.bind_some] at h
        exact ih hr ht h
      cases pending with
      | nil =>
        simp only [Queue.queueAfter,dequeueMessage_nil hr,Option.bind_eq_bind,Option.bind_some] at h
        exact ih hr ht h
      | cons b pending =>
        obtain ⟨next,cells',heq,hr',-,htail⟩ := dequeueMessage_cons hr hl
        simp only [Queue.queueAfter,heq,Option.bind_eq_bind,Option.bind_some] at h
        refine ih hr' ?_ h
        rcases ht with hlive | ⟨hnil,-⟩
        · have ht' := htail hlive
          split at ht'
          · rename_i hnil
            exact Or.inr ⟨hnil,ht'⟩
          · exact Or.inl ht'
        · cases hnil

theorem deleteMessageQueue_ret {fuel : ℕ} {deletion : Deletion B}
    (h : deleteMessageQueue fuel queue = some deletion) : deletion.ret = .ccEErr := by
  simp only [deleteMessageQueue,Option.bind_eq_bind,Option.bind_eq_some_iff] at h
  obtain ⟨x,-,elements,-,h⟩ := h
  cases h
  rfl

/-- Success is never reported, whatever the queue. -/
theorem not_deletes (queue : MessageQueue B) (pending : List B) : ¬ Deletes queue pending := by
  rintro ⟨fuel,deletion,hdelete,-,-,-,-,hret⟩
  rw [deleteMessageQueue_ret hdelete] at hret
  cases hret

/-- In every state a run reaches the contents are freed, but success is never reported. -/
theorem createMessageQueue_deletesContents {calls : List (QueueCall B)}
    (h : queueAfter createMessageQueue [] calls = some (queue,pending)) :
    DeletesContents queue pending ∧ ¬ Deletes queue pending := by
  obtain ⟨cells,hr⟩ := createMessageQueue_represents.queueAfter (Or.inl createMessageQueue_tailLive) h
  exact ⟨hr.deletesContents,not_deletes queue pending⟩

theorem createMessageQueue_deletesContents_enqueue : ∃ queue, queueAfter createMessageQueue [] [.enqueue 1] =
    some (queue,[1]) ∧ DeletesContents queue [1] ∧ ¬ Deletes queue [1] :=
  ⟨_,rfl,@createMessageQueue_deletesContents _ _ _ [.enqueue 1] rfl⟩

/-- One buffer enqueued and the queue deleted: an error is reported, the lock is held. -/
theorem enqueued_not_deleted : ∃ queue deletion, queueAfter createMessageQueue [] [.enqueue 1] =
      some (queue,[1]) ∧ deleteMessageQueue 2 queue = some deletion ∧ deletion.freed = [1] ∧
    deletion.ret = .ccEErr ∧ deletion.unlocked = false ∧ deletion.queueFreed = false ∧ ¬ Deletes queue [1] :=
  ⟨_,_,rfl,rfl,rfl,rfl,rfl,rfl,not_deletes _ _⟩

end Delete
end OpenFlowController.Queue
