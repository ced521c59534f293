import OpenFlowController.Queue.MessageQueueRuns

/-! # Draining the application queue

The drain looks at the counter of the queue, and takes messages off its list. It ends
where the two agree, and not where the list has been cut off from its tail.
-/
namespace OpenFlowController.Channel
open Memory Queue
variable {B : Type*}

/-- The loop of `cc_send_to_secure_channel_app`; `freed` is what `free_buffer` is
called with. -/
def drainLoop : ℕ → MessageQueue B → List (Option B) → Option (MessageQueue B × List (Option B))
  | 0, _, _ => none
  | fuel+1, queue, freed =>
    match queueIsEmpty queue with
    | .ccENone => some (queue,freed)
    | .ccEErr => do
      let (msg,queue) ← dequeueMessage queue
      drainLoop fuel queue (freed++[msg])

def ccSendToSecureChannelApp (fuel : ℕ) (appQueue : MessageQueue B) :
    Option (ErrorCode × MessageQueue B × List (Option B)) := do
  let (appQueue,freed) ← drainLoop fuel appQueue []
  return (.ccENone,appQueue,freed)

/-- The loop ends, each pending message is freed once and nothing else, and the queue
is empty. -/
def Drains (queue : MessageQueue B) (pending : List B) : Prop :=
  ∃ fuel queue', ccSendToSecureChannelApp fuel queue = some (.ccENone,queue',pending.map some) ∧
    queueIsEmpty queue' = .ccENone ∧ ∃ cells, Represents queue' cells []

/-- The store through a tail that was reclaimed is taken to change no live cell. -/
def enqueueAnyway (queue : MessageQueue B) (buf : B) : MessageQueue B :=
  match enqueueMessage queue (some buf) with
  | some (_,queue) => queue
  | none => ⟨queue.elements.alloc ⟨some buf,none⟩,queue.head,queue.elements.next,queue.length+1⟩

/-- In every state of a run the messages enqueued and not yet returned would be
drained. -/
def AlwaysDrains : MessageQueue B → List B → List (QueueCall B) → Prop
  | queue, pending, [] => Drains queue pending
  | queue, pending, .enqueue buf :: calls =>
    Drains queue pending ∧ AlwaysDrains (enqueueAnyway queue buf) (pending++[buf]) calls
  | queue, pending, .dequeue :: calls =>
    Drains queue pending ∧ ∃ out queue', dequeueMessage queue = some (out,queue') ∧
      AlwaysDrains queue' (if out = none then pending else pending.tail) calls

section Drain
variable {queue : MessageQueue B} {enqueued returned pending : List B} {emptied : Bool}

theorem AlwaysDrains.state {calls : List (QueueCall B)} (h : AlwaysDrains queue pending calls) :
    Drains queue pending := by
  cases calls with
  | nil => exact h
  | cons call calls => cases call <;> exact h.1

theorem queueIsEmpty_of_counted (hi : RunInvariant queue enqueued returned [] emptied) :
    queueIsEmpty queue = .ccENone := by
  have hzero : queue.length = 0 := UInt32.toNat_inj.mp hi.counted
  exact if_pos hzero

/-- One turn for each pending message, and one to see that there is none left. -/
theorem drainLoop_run (hi : RunInvariant queue enqueued returned pending emptied) (freed : List (Option B)) :
    ∃ queue' emptied', drainLoop (pending.length+1) queue freed = some (queue',freed++pending.map some) ∧
      RunInvariant queue' enqueued (returned++pending) [] emptied' := by
  induction pending generalizing queue returned emptied freed with
  | nil =>
    refine ⟨queue,emptied,?_,by simpa using hi⟩
    simp [drainLoop,queueIsEmpty_of_counted hi]
  | cons b pending ih =>
    have hmore : queueIsEmpty queue = .ccEErr := by
      refine if_neg (fun hzero => ?_)
      have hcounted := hi.counted
      simp [hzero] at hcounted
    obtain ⟨next,hd,hi'⟩ := hi.dequeue
    obtain ⟨queue',emptied',hrun,hdone⟩ := ih hi' (freed++[some b])
    refine ⟨queue',emptied',?_,by simpa using hdone⟩
    rw [List.length_cons,drainLoop,hmore]
    simp only [hd,Option.bind_eq_bind,Option.bind_some,hrun,List.map_cons,List.append_assoc,List.cons_append,
      List.nil_append]

theorem drains_of_runInvariant (hi : RunInvariant queue enqueued returned pending emptied) : Drains queue pending := by
  obtain ⟨queue',emptied',hrun,hdone⟩ := drainLoop_run hi []
  obtain ⟨cells,hr,-⟩ := hdone.represented
  refine ⟨pending.length+1,queue',?_,queueIsEmpty_of_counted hdone,cells,hr⟩
  rw [ccSendToSecureChannelApp,hrun]
  rfl

/-- A counter that is not 0 and a list that has ended: the loop frees NULL for ever. -/
theorem drainLoop_endless (hd : dequeueMessage queue = some (none,queue)) (hl : queue.length ≠ 0) (fuel : ℕ)
    (freed : List (Option B)) : drainLoop fuel queue freed = none := by
  induction fuel generalizing freed with
  | zero => rfl
  | succ fuel ih =>
    have hmore : queueIsEmpty queue = .ccEErr := if_neg hl
    rw [drainLoop,hmore]
    simp only [hd,Option.bind_eq_bind,Option.bind_some,ih]

/-- The new cell is not on the list, but it is counted. -/
theorem enqueueAnyway_dangling (hi : RunInvariant queue enqueued returned [] true) (b : B) (fuel : ℕ) :
    ccSendToSecureChannelApp fuel (enqueueAnyway queue b) = none := by
  obtain ⟨cells,⟨hlinked,hdistinct,hpayload⟩,-⟩ := hi.represented
  have hzero : queue.length = 0 := UInt32.toNat_inj.mp hi.counted
  have hstray : enqueueAnyway queue b =
      ⟨queue.elements.alloc ⟨some b,none⟩,queue.head,queue.elements.next,queue.length+1⟩ := by
    rw [enqueueAnyway,enqueueMessage_dangling (hi.dangling rfl).2 b]
  have hr : Represents (enqueueAnyway queue b) cells [] := by
    rw [hstray]
    exact ⟨hlinked.alloc _,hdistinct,hpayload⟩
  have hl : (enqueueAnyway queue b).length ≠ 0 := by
    rw [hstray]
    show queue.length+1 ≠ 0
    rw [hzero]
    decide
  rw [ccSendToSecureChannelApp,drainLoop_endless (dequeueMessage_nil hr) hl]
  rfl

/-- A counter that has come round to 0 hides the whole queue. -/
theorem not_drains_of_uncounted (hl : queue.length = 0) (hp : pending ≠ []) : ¬ Drains queue pending := by
  rintro ⟨fuel,queue',hrun,-⟩
  have hempty : queueIsEmpty queue = .ccENone := if_pos hl
  cases fuel with
  | zero => cases hrun
  | succ fuel =>
    simp only [ccSendToSecureChannelApp,drainLoop,hempty,Option.bind_eq_bind,Option.bind_some,Option.pure_def,
      Option.some.injEq,Prod.mk.injEq,true_and] at hrun
    exact hp (List.map_eq_nil_iff.mp hrun.2.symm)

/-- A queue that is drained after one more message has not come round. -/
theorem lt_of_drains (hi : RunInvariant queue enqueued returned pending emptied) {queue' : MessageQueue B}
    (hl : queue'.length = queue.length+1) {b : B} (hd : Drains queue' (pending++[b])) :
    pending.length+1 < UInt32.size := by
  by_contra hge
  have hsmall := queue.length.toNat_lt
  rw [hi.counted] at hsmall
  have hlast : pending.length = 4294967295 := by
    change ¬ pending.length+1 < 4294967296 at hge
    omega
  have hzero : queue'.length = 0 := by
    apply UInt32.toNat_inj.mp
    rw [hl,UInt32.toNat_add,hi.counted,hlast]
    rfl
  exact not_drains_of_uncounted hzero (by simp) hd

theorem RunInvariant.alwaysDrains_iff (hi : RunInvariant queue enqueued returned pending emptied)
    (calls : List (QueueCall B)) : AlwaysDrains queue pending calls ↔ NeverRefilled pending.length emptied calls := by
  induction calls generalizing queue enqueued returned pending emptied with
  | nil => simpa [AlwaysDrains,NeverRefilled] using drains_of_runInvariant hi
  | cons call calls ih =>
    have hdrains := drains_of_runInvariant hi
    cases call with
    | enqueue b =>
      cases emptied with
      | true =>
        obtain ⟨rfl,-⟩ := hi.dangling rfl
        refine iff_of_false ?_ (by simp [NeverRefilled])
        rintro ⟨-,h⟩
        obtain ⟨fuel,queue',hrun,-⟩ := h.state
        rw [enqueueAnyway_dangling hi b fuel] at hrun
        cases hrun
      | false =>
        obtain ⟨queue',heq,hl,hinv⟩ := hi.enqueue b
        have hanyway : enqueueAnyway queue b = queue' := by rw [enqueueAnyway,heq]
        simp only [AlwaysDrains,NeverRefilled,hanyway,hdrains,true_and]
        constructor
        · intro h
          have hlt := lt_of_drains hi hl h.state
          have hrest := (ih (hinv hlt)).mp h
          rw [List.length_append] at hrest
          exact ⟨hlt,hrest⟩
        · rintro ⟨hlt,h⟩
          refine (ih (hinv hlt)).mpr ?_
          rw [List.length_append]
          exact h
    | dequeue =>
      cases pending with
      | nil =>
        simp only [AlwaysDrains,NeverRefilled,hi.dequeue_nil,hdrains,true_and,List.length_nil]
        constructor
        · rintro ⟨out,queue',hout,h⟩
          cases hout
          exact (ih hi).mp (by simpa using h)
        · intro h
          exact ⟨none,queue,rfl,by simpa using (ih hi).mpr h⟩
      | cons b pending =>
        obtain ⟨queue',heq,hinv⟩ := hi.dequeue
        simp only [AlwaysDrains,NeverRefilled,heq,hdrains,true_and,List.length_cons]
        constructor
        · rintro ⟨out,queue'',hout,h⟩
          cases hout
          exact (ih hinv).mp (by simpa using h)
        · intro h
          exact ⟨some b,queue',rfl,by simpa using (ih hinv).mpr h⟩

end Drain

/-- The drain ends in all states of exactly those runs that never fill the queue again
once it was emptied and never let the counter wrap. -/
theorem createMessageQueue_alwaysDrains_iff (calls : List (QueueCall B)) :
    AlwaysDrains createMessageQueue [] calls ↔ NeverRefilled 0 false calls :=
  RunInvariant.alwaysDrains_iff createMessageQueue_invariant calls

/-- After enqueue, dequeue, enqueue the drain never ends. -/
theorem refilled_never_drained : ∃ queue : MessageQueue ℕ,
    dequeueMessage (enqueueAnyway createMessageQueue 1) = some (some 1,queue) ∧
      (∀ fuel, ccSendToSecureChannelApp fuel (enqueueAnyway queue 2) = none) ∧
      ¬ AlwaysDrains (createMessageQueue : MessageQueue ℕ) [] [.enqueue 1,.dequeue,.enqueue 2] := by
  obtain ⟨first,heq,-,hinv⟩ := (createMessageQueue_invariant : RunInvariant (createMessageQueue : MessageQueue ℕ) _ _ _ _).enqueue 1
  have hfirst : enqueueAnyway createMessageQueue 1 = first := by rw [enqueueAnyway,heq]
  obtain ⟨queue,hd,hi⟩ := (hinv (by decide)).dequeue
  have hendless := enqueueAnyway_dangling hi 2
  refine ⟨queue,hfirst ▸ hd,hendless,?_⟩
  rintro ⟨-,-,out,queue',hout,-,fuel,queue'',hrun,-⟩
  rw [hfirst,hd] at hout
  cases hout
  rw [hendless fuel] at hrun
  cases hrun

end OpenFlowController.Channel
