import OpenFlowController.Channel.Flush

/-! # A batch of the send queue

One flush writes at most 50 messages. The loop takes a message off the queue before
it looks at the count, so it takes one more than it writes.
-/
namespace OpenFlowController.Channel
open Memory Queue

/-- The queue is a list of the given messages, and its counter has counted them. -/
structure Contains (sendQueue : MessageQueue Buffer) (queued : List Buffer) : Prop where
  represented : ∃ cells, Represents sendQueue cells queued
  counted : sendQueue.length = UInt32.ofNat queued.length

def AcceptsWhole (write : ℕ → WriteResult) (start : ℕ) (queued : List Buffer) : Prop :=
  ∀ w ∈ performed write start queued, w.ret = w.msg.message.length

/-- The first 50 messages are written, and the others are still queued. -/
def FlushesBatch (write : ℕ → WriteResult) (sender : Sender) (queued : List Buffer) : Prop :=
  ∃ ret sender', ccFlushToSecureChannel write sender = some (ret,sender') ∧
    sender'.writes = sender.writes++performed write sender.writes.length (queued.take 50) ∧
    Contains sender'.sendQueue (queued.drop 50)

/-- From `count` on: as many messages are written as are counted and there is room
for, and one more is taken off the queue if it is there. -/
structure BatchRun (write : ℕ → WriteResult) (count : ℕ) (sender sender' : Sender) (queued : List Buffer) : Prop where
  writes : sender'.writes = sender.writes++performed write sender.writes.length
    (queued.take (min sender.sendQueue.length.toNat (50-count)))
  queue : Contains sender'.sendQueue (queued.drop (min sender.sendQueue.length.toNat (51-count)))

section Run
variable {write : ℕ → WriteResult} {count : ℕ} {sender : Sender} {queued : List Buffer}

theorem flushLoop_full {msg : Buffer} {sendQueue : MessageQueue Buffer}
    (h : dequeueMessage sender.sendQueue = some (some msg,sendQueue)) (hc : 50 ≤ count) :
    flushLoop write count sender = some (.ccENone,{ sender with sendQueue }) := by
  rw [flushLoop]
  split
  · next h' => cases h.symm.trans h'
  · next h' => cases h.symm.trans h'
  · next h' =>
    cases h.symm.trans h'
    rw [if_neg (Nat.not_lt.mpr hc)]

theorem Contains.toNat_length {sendQueue : MessageQueue Buffer} (h : Contains sendQueue queued) :
    sendQueue.length.toNat = queued.length%4294967296 := by
  rw [h.counted]
  rfl

theorem Contains.dequeue {sendQueue : MessageQueue Buffer} {msg : Buffer} (h : Contains sendQueue (msg :: queued))
    (hl : sendQueue.length ≠ 0) : ∃ sendQueue', dequeueMessage sendQueue = some (some msg,sendQueue') ∧
      Contains sendQueue' queued ∧ sendQueue'.length.toNat+1 = sendQueue.length.toNat := by
  obtain ⟨⟨cells,hr⟩,hcounted⟩ := h
  obtain ⟨sendQueue',cells',hd,hr',hlength,-⟩ := dequeueMessage_cons hr hl
  have hcount : sendQueue'.length = UInt32.ofNat queued.length := by
    rw [hlength,hcounted,List.length_cons,UInt32.ofNat_add]
    exact UInt32.add_sub_cancel _ _
  refine ⟨sendQueue',hd,⟨⟨cells',hr'⟩,hcount⟩,?_⟩
  have hpos : 1 ≤ sendQueue.length.toNat := Nat.one_le_iff_ne_zero.mpr fun h0 => hl (UInt32.toNat_inj.mp h0)
  have hle : (1 : UInt32) ≤ sendQueue.length := UInt32.le_iff_toNat_le.mpr hpos
  rw [hlength,UInt32.toNat_sub_of_le _ _ hle]
  exact Nat.sub_add_cancel hpos

/-- Every turn writes the message it has taken off, up to the one that is taken off
when the batch is full. -/
theorem flushLoop_batch (hq : Contains sender.sendQueue queued)
    (hw : AcceptsWhole write sender.writes.length queued) (hc : count ≤ 50) :
    ∃ sender', flushLoop write count sender = some (.ccENone,sender') ∧ BatchRun write count sender sender' queued := by
  induction queued generalizing count sender with
  | nil =>
    obtain ⟨cells,hr⟩ := hq.represented
    exact ⟨_,flushLoop_empty (dequeueMessage_nil hr),by simp,by simpa using hq⟩
  | cons msg queued ih =>
    by_cases hl : sender.sendQueue.length = 0
    · obtain ⟨cells,hr⟩ := hq.represented
      exact ⟨_,flushLoop_empty (dequeueMessage_uncounted hr hl),by simp [hl],by simpa [hl] using hq⟩
    obtain ⟨sendQueue,hd,hq',hless⟩ := hq.dequeue hl
    rcases Nat.lt_or_ge count 50 with hlt | hge
    · have hwhole : Write.ret ⟨msg,write sender.writes.length⟩ = msg.message.length :=
        hw _ (by rw [performed_cons]; exact List.mem_cons_self)
      rw [flushLoop_write hd hlt,if_neg (by rw [hwhole]; omega),if_neg (by rw [hwhole]; omega)]
      let next : Sender := ⟨sendQueue,sender.writes++[⟨msg,write sender.writes.length⟩],sender.freed++[msg]⟩
      have hwnext : AcceptsWhole write next.writes.length queued := by
        intro w hmem
        refine hw w ?_
        rw [performed_cons]
        exact List.mem_cons_of_mem _ (by simpa [next] using hmem)
      have hqnext : Contains next.sendQueue queued := hq'
      obtain ⟨sender',hrun,hwrites,hqueue⟩ := ih hqnext hwnext hlt
      have htake : min sender.sendQueue.length.toNat (50-count) = min sendQueue.length.toNat (50-(count+1))+1 := by omega
      have hdrop : min sender.sendQueue.length.toNat (51-count) = min sendQueue.length.toNat (51-(count+1))+1 := by omega
      refine ⟨sender',hrun,?_,?_⟩
      · rw [htake,List.take_succ_cons,performed_cons]
        simpa [next] using hwrites
      · rw [hdrop,List.drop_succ_cons]
        exact hqueue
    · obtain rfl : count = 50 := by omega
      refine ⟨_,flushLoop_full hd hge,by simp,?_⟩
      have hone : min sender.sendQueue.length.toNat (51-50) = 1 := by omega
      rw [hone]
      exact hq'

theorem ccFlushToSecureChannel_batch (hq : Contains sender.sendQueue queued)
    (hw : AcceptsWhole write sender.writes.length queued) :
    ∃ sender', ccFlushToSecureChannel write sender = some (.ccENone,sender') ∧ BatchRun write 0 sender sender' queued :=
  flushLoop_batch hq hw (by decide)

theorem Contains.unique {sendQueue : MessageQueue Buffer} {queued' : List Buffer} (h : Contains sendQueue queued)
    (h' : Contains sendQueue queued') : queued = queued' := by
  obtain ⟨cells,hr⟩ := h.represented
  obtain ⟨cells',hr'⟩ := h'.represented
  exact hr.unique hr'

/-- A batch of 50 out of more messages needs a counter that stops the loop. -/
theorem FlushesBatch.counted (hq : Contains sender.sendQueue queued)
    (hw : AcceptsWhole write sender.writes.length queued) (h : FlushesBatch write sender queued)
    (hmore : 50 < queued.length) : sender.sendQueue.length.toNat = 50 := by
  obtain ⟨ret,sender',hrun,hwrites,hrest⟩ := h
  obtain ⟨sent,hrun',hwrites',hrest'⟩ := ccFlushToSecureChannel_batch hq hw
  obtain ⟨-,rfl⟩ := Prod.mk.inj (Option.some.inj (hrun.symm.trans hrun'))
  have hwritten := congrArg List.length (List.append_cancel_left (hwrites.symm.trans hwrites'))
  have hleft := congrArg List.length (hrest.unique hrest')
  simp only [length_performed,List.length_take,List.length_drop] at hwritten hleft
  omega

/-- A flush writes one batch and keeps the rest when it comes to the end of the queue,
or when the wrapped counter says that it does. -/
theorem flushesBatch_iff (write : ℕ → WriteResult) (hq : Contains sender.sendQueue queued)
    (hw : AcceptsWhole write sender.writes.length queued) :
    FlushesBatch write sender queued ↔ queued.length ≤ 50 ∨ queued.length%4294967296 = 50 := by
  have hcount := hq.toNat_length
  constructor
  · intro h
    by_contra hn
    have hfifty := h.counted hq hw (by omega)
    omega
  · intro h
    obtain ⟨sender',hrun,hwrites,hrest⟩ := ccFlushToSecureChannel_batch hq hw
    have htake : queued.take (min sender.sendQueue.length.toNat (50-0)) = queued.take 50 := by
      rw [List.take_eq_take_iff]
      omega
    have hdrop : queued.drop (min sender.sendQueue.length.toNat (51-0)) = queued.drop 50 := by
      rcases h with hle | hfifty
      · rw [List.drop_eq_nil_of_le (by omega),List.drop_eq_nil_of_le hle]
      · rw [hcount,hfifty]
        rfl
    rw [htake] at hwrites
    rw [hdrop] at hrest
    exact ⟨_,sender',hrun,hwrites,hrest⟩

theorem contains_of_runInvariant {sendQueue : MessageQueue Buffer} {enqueued returned : List Buffer} {emptied : Bool}
    (hi : RunInvariant sendQueue enqueued returned queued emptied) : Contains sendQueue queued := by
  obtain ⟨cells,hr,-⟩ := hi.represented
  refine ⟨⟨cells,hr⟩,?_⟩
  rw [← hi.counted,UInt32.ofNat_toNat]

end Run

def hellos (n : ℕ) : List Buffer := List.replicate n (Buffer.read 0 (fun _ => 0) helloFrame)

theorem acceptsWhole_hellos (start n : ℕ) : AcceptsWhole (fun _ => .room 8) start (hellos n) := by
  intro w hmem
  obtain ⟨hmsg,i,hresult⟩ := msg_of_mem_performed _ _ hmem
  rw [List.eq_of_mem_replicate hmsg,Write.ret,hresult,List.eq_of_mem_replicate hmsg]
  rfl

theorem exists_contains_hellos {n : ℕ} (hn : n < UInt32.size) :
    ∃ sendQueue, Contains sendQueue (hellos n) := by
  obtain ⟨sendQueue,-,hi⟩ := createMessageQueue_invariant.enqueues (hellos n) (by simpa [hellos] using hn)
  exact ⟨sendQueue,contains_of_runInvariant hi⟩

theorem flushesBatch_iff_fiftyHellos : ∃ sendQueue, Contains sendQueue (hellos 50) ∧
    AcceptsWhole (fun _ => .room 8) 0 (hellos 50) ∧
    (FlushesBatch (fun _ => .room 8) (.fresh sendQueue) (hellos 50) ↔
      (hellos 50).length ≤ 50 ∨ (hellos 50).length%4294967296 = 50) := by
  obtain ⟨sendQueue,hq⟩ := exists_contains_hellos (n := 50) (by decide)
  have hw := acceptsWhole_hellos 0 50
  exact ⟨sendQueue,hq,hw,@flushesBatch_iff (.fresh sendQueue) _ (fun _ => .room 8) hq hw⟩

/-- The 51st message is taken off the queue and not written. -/
theorem fiftyOneHellos_not_flushed : ∃ sendQueue, Contains sendQueue (hellos 51) ∧
    AcceptsWhole (fun _ => .room 8) 0 (hellos 51) ∧
    ¬ FlushesBatch (fun _ => .room 8) (.fresh sendQueue) (hellos 51) := by
  obtain ⟨sendQueue,hq⟩ := exists_contains_hellos (n := 51) (by decide)
  have hw := acceptsWhole_hellos 0 51
  refine ⟨sendQueue,hq,hw,fun h => ?_⟩
  have hq' : Contains (Sender.fresh sendQueue).sendQueue (hellos 51) := hq
  have hfifty := h.counted hq' hw (by simp [hellos])
  rw [hq'.toNat_length] at hfifty
  exact absurd hfifty (by simp [hellos])

end OpenFlowController.Channel
