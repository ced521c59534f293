import OpenFlowController.Concurrency.Serialization
import OpenFlowController.Queue.MessageQueueRuns

/-! # The message queue between threads

The receiving thread, the handlers and the flush share queues. The calls of the queue
are taken apart into their statements here, with `queue_lock` taken before the first and
given up by the last. A call reads through `queue` before it tests it against NULL, so
the queue is never NULL. `malloc` leaves anything in the new cell.
-/
namespace OpenFlowController.Queue
open Memory Concurrency
variable {B : Type}

inductive SharedCall (B : Type)
  | enqueueMessage (buf : Option B)
  | dequeueMessage
  | queueIsEmpty

inductive Reply (B : Type)
  | code (ret : ErrorCode)
  | message (buf : Option B)

/-- Every location stands before the statement it is named after. -/
inductive QueueLoc (B : Type)
  | testBuf (buf : Option B)
  | mallocTail (buf : B)
  | setData (newTail : ℕ) (buf : B)
  | setNext (newTail : ℕ)
  | linkTail (newTail : ℕ)
  | moveTail (newTail : ℕ)
  | countUp
  | testNext
  | testLength
  | readElement
  | testElement (tmpElement : Option ℕ)
  | unlinkElement (tmpElement : ℕ)
  | clearNext (tmpElement : ℕ)
  | readData (tmpElement : ℕ)
  | countDown (tmpElement : ℕ) (buf : Option B)
  | freeElement (tmpElement : ℕ) (buf : Option B)
  | testEmpty
  | unlock (reply : Reply B)

abbrev QueueStatement (B : Type) := Statement (QueueLoc B) (Reply B) (MessageQueue B)

/-- On with what was read or assigned, or a fault where the cell is reclaimed. -/
def access {α : Type} (result : Option α) (rest : α → QueueStatement B) : QueueStatement B :=
  result.elim .fault rest

/-- `queue->head->next = queue->head->next->next` -/
def secondNext (queue : MessageQueue B) : Option (Heap (MessageQueueElement B)) := do
  let sentinel ← queue.elements.load queue.head
  let element ← queue.elements.load (← sentinel.next)
  queue.elements.store queue.head { sentinel with next := element.next }

/-- An access to a freed cell is a fault, and the call does not go on. -/
def queueStatement (garbage : MessageQueueElement B) (loc : QueueLoc B) (queue : MessageQueue B) : QueueStatement B :=
  match loc with
  | .testBuf none => .next (.unlock (.code .ccEErr)) queue
  | .testBuf (some buf) => .next (.mallocTail buf) queue
  | .mallocTail buf =>
    .next (.setData queue.elements.next buf) { queue with elements := queue.elements.alloc garbage }
  | .setData newTail buf =>
    access (queue.elements.modify newTail ({ · with data := some buf })) fun elements =>
      .next (.setNext newTail) { queue with elements }
  | .setNext newTail =>
    access (queue.elements.modify newTail ({ · with next := none })) fun elements =>
      .next (.linkTail newTail) { queue with elements }
  | .linkTail newTail =>
    access (queue.elements.modify queue.tail ({ · with next := some newTail })) fun elements =>
      .next (.moveTail newTail) { queue with elements }
  | .moveTail newTail => .next .countUp { queue with tail := newTail }
  | .countUp => .next (.unlock (.code .ccENone)) { queue with length := queue.length+1 }
  | .testNext =>
    access (queue.elements.load queue.head) fun sentinel =>
      .next (if sentinel.next = none then .unlock (.message none) else .testLength) queue
  | .testLength => .next (if queue.length = 0 then .unlock (.message none) else .readElement) queue
  | .readElement =>
    access (queue.elements.load queue.head) fun sentinel => .next (.testElement sentinel.next) queue
  -- the return that forgets the mutex
  | .testElement none => .leave (.message none)
  | .testElement (some tmpElement) => .next (.unlinkElement tmpElement) queue
  | .unlinkElement tmpElement =>
    access (secondNext queue) fun elements => .next (.clearNext tmpElement) { queue with elements }
  | .clearNext tmpElement =>
    access (queue.elements.modify tmpElement ({ · with next := none })) fun elements =>
      .next (.readData tmpElement) { queue with elements }
  | .readData tmpElement =>
    access (queue.elements.load tmpElement) fun element => .next (.countDown tmpElement element.data) queue
  | .countDown tmpElement buf => .next (.freeElement tmpElement buf) { queue with length := queue.length-1 }
  | .freeElement tmpElement buf =>
    access (queue.elements.free tmpElement) fun elements => .next (.unlock (.message buf)) { queue with elements }
  | .testEmpty => .next (.unlock (.code (queueIsEmpty queue))) queue
  | .unlock reply => .unlock reply

def queueRoutine (garbage : MessageQueueElement B) :
    Routine (SharedCall B) (QueueLoc B) (Reply B) (MessageQueue B) where
  entry
    | .enqueueMessage buf => .testBuf buf
    | .dequeueMessage => .testNext
    | .queueIsEmpty => .testEmpty
  statement := queueStatement garbage

/-- A call as one critical section. -/
def atomicCall (call : SharedCall B) (queue : MessageQueue B) : Option (Reply B × MessageQueue B) :=
  match call with
  | .enqueueMessage buf => (enqueueMessage queue buf).map fun out => (.code out.1,out.2)
  | .dequeueMessage => (dequeueMessage queue).map fun out => (.message out.1,out.2)
  | .queueIsEmpty => some (.code (queueIsEmpty queue),queue)

/-- What the queue is for: the pending messages, oldest first. -/
def fifo (call : SharedCall B) (pending : List B) : Reply B × List B :=
  match call,pending with
  | .enqueueMessage none,pending => (.code .ccEErr,pending)
  | .enqueueMessage (some buf),pending => (.code .ccENone,pending++[buf])
  | .dequeueMessage,[] => (.message none,[])
  | .dequeueMessage,buf :: pending => (.message (some buf),pending)
  | .queueIsEmpty,pending => (.code (if pending.isEmpty then .ccENone else .ccEErr),pending)

section Statements
variable {garbage : MessageQueueElement B} {queue : MessageQueue B}

theorem access_some {α : Type} {result : Option α} {value : α} (h : result = some value) (rest : α → QueueStatement B) :
    access result rest = rest value := by
  rw [h]
  rfl

theorem access_none {α : Type} {result : Option α} (h : result = none) (rest : α → QueueStatement B) :
    access result rest = .fault := by
  rw [h]
  rfl

theorem modify_eq {elements : Heap (MessageQueueElement B)} {p : ℕ} {element : MessageQueueElement B}
    (h : elements.load p = some element) (f : MessageQueueElement B → MessageQueueElement B) :
    elements.modify p f = some (elements.put p (some (f element))) := by
  simp [Heap.modify,h,Heap.store_eq h]

theorem heap_ext {elements elements' : Heap (MessageQueueElement B)} (hnext : elements.next = elements'.next)
    (hload : ∀ q, elements.load q = elements'.load q) : elements = elements' := by
  obtain ⟨cell,next,fresh⟩ := elements
  obtain ⟨cell',next',fresh'⟩ := elements'
  obtain rfl : next = next' := hnext
  obtain rfl : cell = cell' := funext hload
  rfl

/-- Filling in a new cell is allocating it filled in. -/
theorem put_alloc (elements : Heap (MessageQueueElement B)) (c c' : MessageQueueElement B) :
    (elements.alloc c).put elements.next (some c') = elements.alloc c' := by
  refine heap_ext rfl fun q => ?_
  rw [Heap.load_put (Heap.load_alloc_next _ _),Heap.load_alloc,Heap.load_alloc]
  split <;> rfl

theorem ends_enqueue (buf : B) : (queueRoutine garbage).Ends 10 (.testBuf (some buf)) queue
    (atomicCall (.enqueueMessage (some buf)) queue) := by
  refine .next rfl (.next rfl (.next (access_some (modify_eq (Heap.load_alloc_next _ _) _) _) ?_))
  rw [put_alloc]
  refine .next (access_some (modify_eq (Heap.load_alloc_next _ _) _) _) ?_
  rw [put_alloc]
  cases hlast : (queue.elements.alloc ⟨some buf,none⟩).load queue.tail with
  | none =>
    have hnone : atomicCall (.enqueueMessage (some buf)) queue = none := by
      simp [atomicCall,enqueueMessage,hlast]
    rw [hnone]
    exact .fault (access_none (by simp [Heap.modify,hlast]) _)
  | some last =>
    have hsome : atomicCall (.enqueueMessage (some buf)) queue = some (.code .ccENone,
        ⟨(queue.elements.alloc ⟨some buf,none⟩).put queue.tail (some { last with next := some queue.elements.next }),
          queue.head,queue.elements.next,queue.length+1⟩) := by
      simp [atomicCall,enqueueMessage,hlast,Heap.store_eq hlast]
    rw [hsome]
    exact .next (access_some (modify_eq hlast _) _) (.next rfl (.next rfl (.unlock rfl)))

/-- Also of a cell that is linked to itself. -/
theorem load_unlinked {sentinel element : MessageQueueElement B} {tmpElement : ℕ}
    (hsentinel : queue.elements.load queue.head = some sentinel) (helement : queue.elements.load tmpElement = some element) :
    ∃ element', (queue.elements.put queue.head (some ⟨sentinel.data,element.next⟩)).load tmpElement = some element' ∧
      element'.data = element.data := by
  by_cases hhead : tmpElement = queue.head
  · subst hhead
    cases hsentinel.symm.trans helement
    exact ⟨_,Heap.load_put_self hsentinel _,rfl⟩
  · exact ⟨element,(Heap.load_put_of_ne hhead _).trans helement,rfl⟩

/-- The message is read after the cell is unlinked; nothing has touched it. -/
theorem ends_dequeue : (queueRoutine garbage).Ends 10 .testNext queue (atomicCall .dequeueMessage queue) := by
  cases hsentinel : queue.elements.load queue.head with
  | none =>
    have hnone : atomicCall .dequeueMessage queue = none := by simp [atomicCall,dequeueMessage,hsentinel]
    rw [hnone]
    exact .fault (access_none hsentinel _)
  | some sentinel =>
    refine .next (access_some hsentinel _) ?_
    cases hnext : sentinel.next with
    | none =>
      have hempty : atomicCall .dequeueMessage queue = some (.message none,queue) := by
        simp [atomicCall,dequeueMessage,hsentinel,hnext]
      rw [hempty]
      exact .unlock rfl
    | some tmpElement =>
      rw [if_neg (by simp)]
      by_cases hlength : queue.length = 0
      · have hempty : atomicCall .dequeueMessage queue = some (.message none,queue) := by
          simp [atomicCall,dequeueMessage,hsentinel,hnext,hlength]
        rw [hempty]
        refine .next rfl ?_
        rw [if_pos hlength]
        exact .unlock rfl
      · refine .next rfl ?_
        rw [if_neg hlength]
        refine .next (access_some hsentinel _) ?_
        rw [hnext]
        refine .next rfl ?_
        cases helement : queue.elements.load tmpElement with
        | none =>
          have hnone : atomicCall .dequeueMessage queue = none := by
            simp [atomicCall,dequeueMessage,hsentinel,hnext,hlength,helement]
          rw [hnone]
          exact .fault (access_none (by simp [secondNext,hsentinel,hnext,helement]) _)
        | some element =>
          obtain ⟨element',hload,hdata⟩ := load_unlinked hsentinel helement
          have hclear := Heap.load_put_self hload (some (⟨element.data,none⟩ : MessageQueueElement B))
          have hsome : atomicCall .dequeueMessage queue = some (.message element.data,
              ⟨((queue.elements.put queue.head (some ⟨sentinel.data,element.next⟩)).put tmpElement
                (some ⟨element.data,none⟩)).put tmpElement none,queue.head,queue.tail,queue.length-1⟩) := by
            simp [atomicCall,dequeueMessage,hsentinel,hnext,hlength,helement,Heap.store_eq hsentinel,
              Heap.store_eq hload,Heap.free_eq hclear]
          rw [hsome]
          have hunlink : secondNext queue = some (queue.elements.put queue.head (some ⟨sentinel.data,element.next⟩)) := by
            simp [secondNext,hsentinel,hnext,helement,Heap.store_eq hsentinel]
          refine .next (access_some hunlink _) ?_
          refine .next (access_some (modify_eq hload _) _) ?_
          rw [hdata]
          exact .next (access_some hclear _) (.next rfl
            (.next (access_some (Heap.free_eq hclear) _) (.unlock rfl)))

theorem queueRoutine_implements (garbage : MessageQueueElement B) : (queueRoutine garbage).Implements 10 atomicCall := by
  intro call queue
  cases call with
  | enqueueMessage buf =>
    cases buf with
    | none => exact .next rfl (.unlock rfl)
    | some buf => exact ends_enqueue buf
  | dequeueMessage => exact ends_dequeue
  | queueIsEmpty => exact .next rfl (.unlock rfl)

end Statements

section Fifo
variable {queue after : MessageQueue B} {enqueued returned pending : List B} {emptied : Bool}

def SharedCall.added : SharedCall B → List B
  | .enqueueMessage (some buf) => [buf]
  | .enqueueMessage none | .dequeueMessage | .queueIsEmpty => []

theorem length_fifo_le (call : SharedCall B) (pending : List B) :
    (fifo call pending).2.length ≤ pending.length+call.added.length := by
  cases call with
  | enqueueMessage buf => cases buf <;> simp [fifo,SharedCall.added]
  | dequeueMessage => cases pending <;> simp [fifo,SharedCall.added]
  | queueIsEmpty => exact Nat.le_add_right _ _

theorem RunInvariant.queueIsEmpty (hi : RunInvariant queue enqueued returned pending emptied) :
    Queue.queueIsEmpty queue = if pending.isEmpty then .ccENone else .ccEErr := by
  have hcounted := hi.counted
  have hzero : queue.length = 0 ↔ pending = [] := by
    rw [← List.length_eq_zero_iff,← hcounted,← UInt32.toNat_inj]
    rfl
  simp [Queue.queueIsEmpty,hzero]

/-- Step lemma: a call that comes back answers as the queue of the pending messages. -/
theorem RunInvariant.answers (hi : RunInvariant queue enqueued returned pending emptied)
    (hemptied : emptied = true → enqueued ≠ []) {call : SharedCall B} {reply : Reply B}
    (h : atomicCall call queue = some (reply,after)) (hroom : pending.length+call.added.length < UInt32.size) :
    (fifo call pending).1 = reply ∧ ∃ returned' emptied',
      RunInvariant after (enqueued++call.added) returned' (fifo call pending).2 emptied' ∧
      (emptied' = true → enqueued++call.added ≠ []) := by
  cases call with
  | enqueueMessage buf =>
    cases buf with
    | none =>
      cases h
      exact ⟨rfl,returned,emptied,by simpa [fifo,SharedCall.added] using hi,by simpa [SharedCall.added] using hemptied⟩
    | some buf =>
      cases emptied with
      | true => simp [atomicCall,enqueueMessage_dangling (hi.dangling rfl).2] at h
      | false =>
        obtain ⟨queue',hqueue',-,hnext⟩ := hi.enqueue buf
        simp only [atomicCall,hqueue',Option.map_some,Option.some.injEq,Prod.mk.injEq] at h
        obtain ⟨rfl,rfl⟩ := h
        exact ⟨rfl,returned,false,hnext hroom,by simp⟩
  | dequeueMessage =>
    cases pending with
    | nil =>
      simp only [atomicCall,hi.dequeue_nil,Option.map_some,Option.some.injEq,Prod.mk.injEq] at h
      obtain ⟨rfl,rfl⟩ := h
      exact ⟨rfl,returned,emptied,by simpa [fifo,SharedCall.added] using hi,by simpa [SharedCall.added] using hemptied⟩
    | cons buf pending =>
      obtain ⟨queue',hqueue',hnext⟩ := hi.dequeue
      simp only [atomicCall,hqueue',Option.map_some,Option.some.injEq,Prod.mk.injEq] at h
      obtain ⟨rfl,rfl⟩ := h
      refine ⟨rfl,_,_,by simpa [fifo,SharedCall.added] using hnext,fun _ => ?_⟩
      rw [hi.history]
      simp
  | queueIsEmpty =>
    simp only [atomicCall,hi.queueIsEmpty,Option.some.injEq,Prod.mk.injEq] at h
    obtain ⟨rfl,rfl⟩ := h
    exact ⟨rfl,returned,emptied,by simpa [fifo,SharedCall.added] using hi,by simpa [SharedCall.added] using hemptied⟩

/-- Only a message put into an emptied queue finds no live cell. -/
theorem RunInvariant.refuses (hi : RunInvariant queue enqueued returned pending emptied) {call : SharedCall B}
    (h : atomicCall call queue = none) : ∃ buf, call = .enqueueMessage (some buf) ∧ emptied = true := by
  cases call with
  | enqueueMessage buf =>
    cases buf with
    | none => cases h
    | some buf =>
      refine ⟨buf,rfl,?_⟩
      cases emptied with
      | true => rfl
      | false =>
        obtain ⟨queue',hqueue',-⟩ := hi.enqueue buf
        simp [atomicCall,hqueue'] at h
  | dequeueMessage =>
    cases pending with
    | nil => simp [atomicCall,hi.dequeue_nil] at h
    | cons buf pending =>
      obtain ⟨queue',hqueue',-⟩ := hi.dequeue
      simp [atomicCall,hqueue'] at h
  | queueIsEmpty => cases h

variable {A : Type}

def added (order : List (A × SharedCall B × Reply B)) : List B := order.flatMap (·.2.1.added)

/-- Run lemma, for as many messages as the counter has values. -/
theorem RunInvariant.serial (hi : RunInvariant queue enqueued returned pending emptied)
    (hemptied : emptied = true → enqueued ≠ []) {order : List (A × SharedCall B × Reply B)}
    (h : Serial atomicCall queue order after) (hroom : pending.length+(added order).length < UInt32.size) :
    ∃ returned' pending' emptied', Serial (fun call pending => some (fifo call pending)) pending order pending' ∧
      RunInvariant after (enqueued++added order) returned' pending' emptied' ∧
      (emptied' = true → enqueued++added order ≠ []) := by
  induction order generalizing queue enqueued returned pending emptied with
  | nil =>
    cases h
    exact ⟨returned,pending,emptied,rfl,by simpa [added] using hi,by simpa [added] using hemptied⟩
  | cons entry order ih =>
    obtain ⟨agent,call,reply⟩ := entry
    obtain ⟨between,hcall,hrest⟩ := h
    have hroom : pending.length+(call.added.length+(added order).length) < UInt32.size := by simpa [added] using hroom
    obtain ⟨hreply,returned₁,emptied₁,hbetween,hemptied₁⟩ := hi.answers hemptied hcall (by omega)
    have hle := length_fifo_le call pending
    have hrest' := ih hbetween hemptied₁ hrest (by omega)
    obtain ⟨returned',pending',emptied',hserial,hafter,hemptied'⟩ := hrest'
    rw [List.append_assoc] at hafter hemptied'
    exact ⟨returned',pending',emptied',⟨_,by rw [← hreply],hserial⟩,hafter,hemptied'⟩

end Fifo

section Threads
variable {A : Type} [DecidableEq A]

/-- However the statements of any number of threads are interleaved, the calls that came
back were made one after the other on a first-in first-out queue, each thread's in the
order it made them, and after those that were back before them. The cells are that queue
whenever the mutex is free. -/
theorem interleave_fifo (garbage : MessageQueueElement B) (calls : A → List (SharedCall B)) {first rest : List A}
    {s t : Configuration A (Caller (SharedCall B) (QueueLoc B) (Reply B)) (MessageQueue B)}
    (hfirst : interleave (calling (queueRoutine garbage)) (beforeCalls calls createMessageQueue) first = some s)
    (hrest : interleave (calling (queueRoutine garbage)) s rest = some t) :
    ∃ before more : List (A × SharedCall B × Reply B),
      (∀ a, (s.loc a).done = (before.filter (·.1 = a)).map Prod.snd) ∧
      (∀ a, (t.loc a).done = ((before++more).filter (·.1 = a)).map Prod.snd ∧ (t.loc a).done.map Prod.fst <+: calls a) ∧
      ((added (before++more)).length < UInt32.size → ∃ pending,
        Serial (fun call pending => some (fifo call pending)) [] (before++more) pending ∧
        (t.lock = none → ∃ cells, Represents t.shared cells pending)) := by
  obtain ⟨before,between,hs⟩ := serialized_beforeCalls.interleave (queueRoutine_implements garbage) hfirst
  obtain ⟨more,shared,ht⟩ := hs.interleave (queueRoutine_implements garbage) hrest
  rw [List.nil_append] at hs ht
  refine ⟨before,more,hs.done,fun a => ⟨ht.done a,?_⟩,fun hroom => ?_⟩
  · rw [ht.program a,List.append_assoc]
    exact List.prefix_append _ _
  · obtain ⟨returned,pending,emptied,hserial,hinvariant,-⟩ :=
      createMessageQueue_invariant.serial (by simp) ht.serial (by simpa using hroom)
    refine ⟨pending,hserial,fun hfree => ?_⟩
    obtain ⟨cells,hcells,-⟩ := hinvariant.represented
    rw [ht.free hfree]
    exact ⟨cells,hcells⟩

/-- One thread puts a message in, the other one takes it. -/
def handOver : Bool → List (SharedCall ℕ)
  | true => [.enqueueMessage (some 7)]
  | false => [.dequeueMessage]

theorem interleave_fifo_handOver : ∃ s t,
    interleave (calling (queueRoutine ⟨none,none⟩)) (beforeCalls handOver createMessageQueue) (List.replicate 9 true) = some s ∧
    interleave (calling (queueRoutine ⟨none,none⟩)) s (List.replicate 11 false) = some t ∧
    ∃ before more : List (Bool × SharedCall ℕ × Reply ℕ),
      (∀ a, (s.loc a).done = (before.filter (·.1 = a)).map Prod.snd) ∧
      (∀ a, (t.loc a).done = ((before++more).filter (·.1 = a)).map Prod.snd ∧ (t.loc a).done.map Prod.fst <+: handOver a) ∧
      ((added (before++more)).length < UInt32.size → ∃ pending,
        Serial (fun call pending => some (fifo call pending)) [] (before++more) pending ∧
        (t.lock = none → ∃ cells, Represents t.shared cells pending)) := by
  have hboth : ((interleave (calling (queueRoutine ⟨none,none⟩)) (beforeCalls handOver createMessageQueue)
      (List.replicate 9 true)).bind fun s =>
        interleave (calling (queueRoutine ⟨none,none⟩)) s (List.replicate 11 false)).isSome = true := rfl
  obtain ⟨t,ht⟩ := Option.isSome_iff_exists.mp hboth
  obtain ⟨s,hs,hst⟩ := Option.bind_eq_some_iff.mp ht
  exact ⟨s,t,hs,hst,interleave_fifo ⟨none,none⟩ handOver hs hst⟩

/-- A run takes at most 11 moves for each call, so that it comes to rest. Then all calls
came back, unless a thread holds the mutex for good, storing through the tail that the
last call to empty the queue has freed. -/
theorem interleave_comesToRest (garbage : MessageQueueElement B) (calls : A → List (SharedCall B)) {schedule : List A}
    {t : Configuration A (Caller (SharedCall B) (QueueLoc B) (Reply B)) (MessageQueue B)}
    (h : interleave (calling (queueRoutine garbage)) (beforeCalls calls createMessageQueue) schedule = some t) :
    (∀ a, schedule.count a ≤ 11*(calls a).length) ∧ ∃ order : List (A × SharedCall B × Reply B),
      (∀ a, (t.loc a).done = (order.filter (·.1 = a)).map Prod.snd) ∧
      ((added order).length < UInt32.size → (∀ a, step (calling (queueRoutine garbage)) t a = none) →
        (∀ a, (t.loc a).done.map Prod.fst = calls a) ∨
        ∃ a buf loc, t.lock = some a ∧ (t.loc a).current = some (.enqueueMessage (some buf),loc) ∧
          queueStatement garbage loc t.shared = .fault ∧ added order ≠ [] ∧
          Serial (fun call pending => some (fifo call pending)) [] order []) := by
  obtain ⟨order,shared,hs⟩ := serialized_beforeCalls.interleave (queueRoutine_implements garbage) h
  refine ⟨fun a => by simpa using hs.moves_le a,order,hs.done,fun hroom hblocked => ?_⟩
  obtain ⟨returned,pending,emptied,hserial,hinvariant,hemptied⟩ :=
    createMessageQueue_invariant.serial (by simp) hs.serial (by simpa using hroom)
  refine (hs.blocked hblocked).imp_right ?_
  rintro ⟨a,call,loc,hlock,hcurrent,hfault,hatomic⟩
  obtain ⟨buf,rfl,rfl⟩ := hinvariant.refuses hatomic
  obtain ⟨rfl,-⟩ := hinvariant.dangling rfl
  exact ⟨a,buf,loc,hlock,hcurrent,hfault,by simpa using hemptied rfl,hserial⟩

def refill : Unit → List (SharedCall ℕ) := fun _ => [.enqueueMessage (some 7),.dequeueMessage,.enqueueMessage (some 8)]

def refillRun : Option (Configuration Unit (Caller (SharedCall ℕ) (QueueLoc ℕ) (Reply ℕ)) (MessageQueue ℕ)) :=
  interleave (calling (queueRoutine ⟨none,none⟩)) (beforeCalls refill createMessageQueue) (List.replicate 25 ())

theorem interleave_comesToRest_refill : ∃ t, refillRun = some t ∧ t.lock = some () ∧
    (∀ a, step (calling (queueRoutine ⟨none,none⟩)) t a = none) ∧
    ∃ order : List (Unit × SharedCall ℕ × Reply ℕ), (∀ a, (t.loc a).done = (order.filter (·.1 = a)).map Prod.snd) ∧
      ((added order).length < UInt32.size → ∃ a buf loc, t.lock = some a ∧
        (t.loc a).current = some (.enqueueMessage (some buf),loc) ∧ queueStatement ⟨none,none⟩ loc t.shared = .fault ∧
        added order ≠ [] ∧ Serial (fun call pending => some (fifo call pending)) [] order []) := by
  obtain ⟨t,ht⟩ := Option.isSome_iff_exists.mp (show refillRun.isSome = true from rfl)
  have hlock : refillRun.map (·.lock) = some (some ()) := rfl
  have hstuck : refillRun.map (fun t => (step (calling (queueRoutine ⟨none,none⟩)) t ()).isNone) = some true := rfl
  have hdone : refillRun.map (fun t => (t.loc ()).done.length) = some 2 := rfl
  rw [ht] at hlock hstuck hdone
  have hblocked : ∀ a, step (calling (queueRoutine ⟨none,none⟩)) t a = none := fun _ =>
    Option.isNone_iff_eq_none.mp (Option.some.inj hstuck)
  obtain ⟨-,order,horder,hrest⟩ := interleave_comesToRest ⟨none,none⟩ refill ht
  refine ⟨t,ht,Option.some.inj hlock,hblocked,order,horder,fun hroom => (hrest hroom hblocked).resolve_left fun hall => ?_⟩
  have hlength := congrArg List.length (hall ())
  have htwo : (t.loc ()).done.length = 2 := Option.some.inj hdone
  rw [List.length_map,htwo] at hlength
  exact absurd hlength (by decide)

end Threads
end OpenFlowController.Queue
