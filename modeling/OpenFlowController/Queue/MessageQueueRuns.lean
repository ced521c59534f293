import OpenFlowController.Queue.MessageQueue

/-! # Whole runs of the message queue

A run is judged against its own history: the buffers enqueued so far and the
buffers returned so far. Dequeuing the last cell reclaims the cell that `tail`
names, so the judgment depends on whether the queue is ever filled again.
-/
namespace OpenFlowController.Queue
variable {B : Type*}

inductive QueueCall (B : Type*)
  | enqueue (buf : B)
  | dequeue

/-- The returned buffers are, in order, the oldest enqueued ones, and the
counter is the number of buffers still queued. -/
def FifoState (queue : MessageQueue B) (enqueued returned : List B) : Prop :=
  returned <+: enqueued ∧ queue.length.toNat+returned.length = enqueued.length

/-- Every call has a result, every state on the way is a FIFO state, and NULL is
returned only when nothing is queued. -/
def BehavesAsFifo : MessageQueue B → List B → List B → List (QueueCall B) → Prop
  | queue, enqueued, returned, [] => FifoState queue enqueued returned
  | queue, enqueued, returned, .enqueue buf :: calls =>
    FifoState queue enqueued returned ∧ ∃ queue',
      enqueueMessage queue (some buf) = some (.ccENone,queue') ∧
      BehavesAsFifo queue' (enqueued++[buf]) returned calls
  | queue, enqueued, returned, .dequeue :: calls =>
    FifoState queue enqueued returned ∧ ∃ out queue',
      dequeueMessage queue = some (out,queue') ∧ (out = none → returned = enqueued) ∧
      BehavesAsFifo queue' enqueued (returned++out.toList) calls

/-- From `n` queued buffers: no enqueue once a dequeue has emptied the queue, and
never as many buffers queued as the counter has values. -/
def NeverRefilled : ℕ → Bool → List (QueueCall B) → Prop
  | _, _, [] => True
  | n, emptied, .enqueue _ :: calls => emptied = false ∧ n+1 < UInt32.size ∧ NeverRefilled (n+1) false calls
  | 0, emptied, .dequeue :: calls => NeverRefilled 0 emptied calls
  | n+1, emptied, .dequeue :: calls => NeverRefilled n (emptied || n == 0) calls

theorem BehavesAsFifo.state {queue : MessageQueue B} {enqueued returned : List B}
    {calls : List (QueueCall B)} (h : BehavesAsFifo queue enqueued returned calls) :
    FifoState queue enqueued returned := by
  cases calls with
  | nil => exact h
  | cons call calls => cases call <;> exact h.1

structure RunInvariant (queue : MessageQueue B) (enqueued returned pending : List B)
    (emptied : Bool) : Prop where
  history : enqueued = returned++pending
  counted : queue.length.toNat = pending.length
  represented : ∃ cells, Represents queue cells pending ∧ (emptied = false → TailLive queue cells)
  dangling : emptied = true → pending = [] ∧ TailDangling queue

theorem RunInvariant.fifoState {queue : MessageQueue B} {enqueued returned pending : List B}
    {emptied : Bool} (hi : RunInvariant queue enqueued returned pending emptied) :
    FifoState queue enqueued returned := by
  obtain ⟨rfl,hc,-,-⟩ := hi
  refine ⟨List.prefix_append _ _,?_⟩
  rw [hc,List.length_append]
  omega

theorem createMessageQueue_invariant :
    RunInvariant (createMessageQueue : MessageQueue B) [] [] [] false where
  history := rfl
  counted := rfl
  represented := ⟨_,createMessageQueue_represents,fun _ => createMessageQueue_tailLive⟩
  dangling := by simp

/-- Step lemma: an enqueue on a live tail that does not wrap the counter. -/
theorem RunInvariant.enqueue {queue : MessageQueue B} {enqueued returned pending : List B}
    (hi : RunInvariant queue enqueued returned pending false) (b : B) :
    ∃ queue', enqueueMessage queue (some b) = some (.ccENone,queue') ∧
      queue'.length = queue.length+1 ∧
      (pending.length+1 < UInt32.size → RunInvariant queue' (enqueued++[b]) returned (pending++[b]) false) := by
  obtain ⟨cells,hr,hlive⟩ := hi.represented
  obtain ⟨queue',cells',heq,hr',ht',hl'⟩ := enqueueMessage_live hr (hlive rfl) b
  refine ⟨queue',heq,hl',fun hlt => ⟨?_,?_,⟨cells',hr',fun _ => ht'⟩,by simp⟩⟩
  · rw [hi.history,List.append_assoc]
  · rw [hl',UInt32.toNat_add,hi.counted,List.length_append]
    exact Nat.mod_eq_of_lt hlt

theorem RunInvariant.dequeue {queue : MessageQueue B} {enqueued returned pending : List B} {b : B}
    {emptied : Bool} (hi : RunInvariant queue enqueued returned (b :: pending) emptied) :
    ∃ queue', dequeueMessage queue = some (some b,queue') ∧
      RunInvariant queue' enqueued (returned++[b]) pending (emptied || pending.length == 0) := by
  have he : emptied = false := by
    cases emptied with
    | false => rfl
    | true => exact absurd (hi.dangling rfl).1 (List.cons_ne_nil _ _)
  subst he
  have hl : queue.length ≠ 0 := by
    intro h0
    have h := hi.counted
    simp [h0] at h
  obtain ⟨cells,hr,hlive⟩ := hi.represented
  obtain ⟨queue',cells',heq,hr',hl',ht'⟩ := dequeueMessage_cons hr hl
  have htail := ht' (hlive rfl)
  refine ⟨queue',heq,?_,?_,⟨cells',hr',?_⟩,?_⟩
  · rw [hi.history,List.append_assoc,List.singleton_append]
  · have hc := hi.counted
    rw [List.length_cons] at hc
    rw [hl',UInt32.toNat_sub_of_le _ _ (UInt32.le_iff_toNat_le.mpr (by rw [hc]; exact Nat.le_add_left 1 _)),hc]
    rfl
  · intro hp
    have hne : pending ≠ [] := by
      rintro rfl
      simp at hp
    rwa [if_neg hne] at htail
  · intro hp
    have hnil : pending = [] := by simpa using hp
    rw [if_pos hnil] at htail
    exact ⟨hnil,htail⟩

theorem RunInvariant.dequeue_nil {queue : MessageQueue B} {enqueued returned : List B} {emptied : Bool}
    (hi : RunInvariant queue enqueued returned [] emptied) : dequeueMessage queue = some (none,queue) := by
  obtain ⟨cells,hr,-⟩ := hi.represented
  exact dequeueMessage_nil hr

theorem RunInvariant.mem_of_dequeue {queue queue' : MessageQueue B} {enqueued returned pending : List B}
    {b : B} {emptied : Bool} (hi : RunInvariant queue enqueued returned pending emptied)
    (h : dequeueMessage queue = some (some b,queue')) : b ∈ pending := by
  cases pending with
  | nil => cases h.symm.trans hi.dequeue_nil
  | cons first pending =>
    obtain ⟨next,hnext,-⟩ := hi.dequeue
    cases h.symm.trans hnext
    exact List.mem_cons_self

/-- Buffers enqueued one after another from the invariant on. -/
theorem RunInvariant.enqueues {queue : MessageQueue B} {enqueued returned pending : List B}
    (hi : RunInvariant queue enqueued returned pending false) (bufs : List B)
    (hlt : pending.length+bufs.length < UInt32.size) :
    ∃ queue', bufs.foldlM (fun queue buf => (enqueueMessage queue (some buf)).map Prod.snd) queue = some queue' ∧
      RunInvariant queue' (enqueued++bufs) returned (pending++bufs) false := by
  induction bufs generalizing queue enqueued pending with
  | nil => exact ⟨queue,rfl,by simpa using hi⟩
  | cons b bufs ih =>
    rw [List.length_cons] at hlt
    obtain ⟨next,heq,-,hnext⟩ := hi.enqueue b
    have hlt' : (pending++[b]).length+bufs.length < UInt32.size := by
      rw [List.length_append,List.length_singleton]
      omega
    obtain ⟨queue',hrun,hi'⟩ := ih (hnext (by omega)) hlt'
    refine ⟨queue',?_,by simpa using hi'⟩
    rw [List.foldlM_cons,heq]
    exact hrun

theorem RunInvariant.behavesAsFifo_iff {queue : MessageQueue B} {enqueued returned pending : List B}
    {emptied : Bool} (hi : RunInvariant queue enqueued returned pending emptied)
    (calls : List (QueueCall B)) :
    BehavesAsFifo queue enqueued returned calls ↔ NeverRefilled pending.length emptied calls := by
  induction calls generalizing queue enqueued returned pending emptied with
  | nil => simpa [BehavesAsFifo,NeverRefilled] using hi.fifoState
  | cons call calls ih =>
    cases call with
    | enqueue b =>
      cases emptied with
      | true =>
        have hn := enqueueMessage_dangling (hi.dangling rfl).2 b
        simp [BehavesAsFifo,NeverRefilled,hn]
      | false =>
        obtain ⟨queue',heq,hl,hinv⟩ := hi.enqueue b
        simp only [BehavesAsFifo,NeverRefilled,heq,Option.some.injEq,Prod.mk.injEq,true_and,
          exists_eq_left',hi.fifoState]
        constructor
        · intro h
          have hlt : pending.length+1 < UInt32.size := by
            have hs := h.state.2
            have hw := queue'.length.toNat_lt
            rw [hi.history] at hs
            simp only [List.length_append,List.length_singleton] at hs
            change _ < 2^32
            omega
          refine ⟨hlt,?_⟩
          have hb := (ih (hinv hlt)).mp h
          rwa [List.length_append] at hb
        · rintro ⟨hlt,h⟩
          apply (ih (hinv hlt)).mpr
          rwa [List.length_append]
    | dequeue =>
      cases pending with
      | nil =>
        have hh : returned = enqueued := by simpa using hi.history.symm
        simp only [BehavesAsFifo,NeverRefilled,hi.dequeue_nil,Option.some.injEq,Prod.mk.injEq,
          hi.fifoState,true_and,List.length_nil]
        constructor
        · rintro ⟨_,_,⟨rfl,rfl⟩,-,h⟩
          exact (ih hi).mp (by simpa using h)
        · intro h
          exact ⟨none,queue,⟨rfl,rfl⟩,fun _ => hh,by simpa using (ih hi).mpr h⟩
      | cons b pending =>
        obtain ⟨queue',heq,hinv⟩ := hi.dequeue
        simp only [BehavesAsFifo,NeverRefilled,heq,Option.some.injEq,Prod.mk.injEq,hi.fifoState,
          true_and,List.length_cons]
        constructor
        · rintro ⟨_,_,⟨rfl,rfl⟩,-,h⟩
          exact (ih hinv).mp h
        · intro h
          exact ⟨some b,queue',⟨rfl,rfl⟩,by simp,(ih hinv).mpr h⟩

/-- The exact runs on which the queue is a FIFO: those that never fill it again
after emptying it and never let the counter wrap. -/
theorem createMessageQueue_behavesAsFifo_iff (calls : List (QueueCall B)) :
    BehavesAsFifo createMessageQueue [] [] calls ↔ NeverRefilled 0 false calls :=
  createMessageQueue_invariant.behavesAsFifo_iff calls

/-- Enqueue, drain, enqueue: the second enqueue stores through the reclaimed tail. -/
theorem drain_then_refill_not_fifo :
    ¬ BehavesAsFifo (createMessageQueue : MessageQueue ℕ) [] [] [.enqueue 1,.dequeue,.enqueue 2] := by
  rintro ⟨-,q₁,h₁,-,o,q₂,h₂,-,-,q₃,h₃,-⟩
  cases h₁
  cases h₂
  cases h₃

end OpenFlowController.Queue
