import OpenFlowController.Channel.Dispatch
import OpenFlowController.Queue.MessageQueueRuns

/-! # Flushing the send queue

The results of successive `write` calls are one sequence, counted over all flushes.
Accepted bytes are labelled by the buffer they come from and their place in it, so
that equal bytes of two messages are told apart.
-/
namespace OpenFlowController.Channel
open Memory Check Protocol Queue

inductive Errno
  | eintr
  | eagain
  | ewouldblock
  | other
  deriving DecidableEq, Repr

/-- `-1`, or room for a number of bytes; no more than the message is accepted. -/
inductive WriteResult
  | failed (errno : Errno)
  | room (bytes : ℕ)

structure Write where
  msg : Buffer
  result : WriteResult

def Write.ret (w : Write) : ℤ :=
  match w.result with
  | .failed _ => -1
  | .room bytes => min bytes w.msg.message.length

structure Label where
  number : ℕ
  offset : ℕ
  byte : UInt8
  deriving DecidableEq

def Buffer.labelled (buf : Buffer) : List Label :=
  (List.range buf.message.length).map (fun i => ⟨buf.number,i,buf.message.data i⟩)

def Write.accepted (w : Write) : List Label := w.msg.labelled.take w.ret.toNat

def Write.Retryable (w : Write) : Prop :=
  w.result = .failed .eintr ∨ w.result = .failed .eagain ∨ w.result = .failed .ewouldblock

structure Sender where
  sendQueue : MessageQueue Buffer
  writes : List Write
  freed : List Buffer

/-- The loop of `cc_flush_to_secure_channel`. Both kinds of failure release the
message; they differ in a line of the log only. A release is recorded and no more: what
`free_buffer` stores into the record after freeing it is left out. -/
def flushLoop (write : ℕ → WriteResult) (count : ℕ) (sender : Sender) : Option (ErrorCode × Sender) :=
  match _h : dequeueMessage sender.sendQueue with
  | none => none
  | some (none,sendQueue) => some (.ccENone,{ sender with sendQueue })
  | some (some msg,sendQueue) =>
    if count < 50 then
      let w : Write := ⟨msg,write sender.writes.length⟩
      if w.ret < 0 then some (.ccEErr,⟨sendQueue,sender.writes++[w],sender.freed++[msg]⟩)
      -- the rest of the message is dropped here, and the message never released
      else if 0 < w.ret ∧ w.ret < msg.message.length then
        flushLoop write count ⟨sendQueue,sender.writes++[w],sender.freed⟩
      else flushLoop write (count+1) ⟨sendQueue,sender.writes++[w],sender.freed++[msg]⟩
    else some (.ccENone,{ sender with sendQueue })
  termination_by sender.sendQueue.length.toNat
  decreasing_by
    · exact dequeueMessage_length _h
    · exact dequeueMessage_length _h

def ccFlushToSecureChannel (write : ℕ → WriteResult) (sender : Sender) : Option (ErrorCode × Sender) :=
  flushLoop write 0 sender

/-- Before anything is written. -/
def Sender.fresh (sendQueue : MessageQueue Buffer) : Sender := ⟨sendQueue,[],[]⟩

/-- Successive flushes with nothing enqueued in between. -/
def flushes (write : ℕ → WriteResult) : ℕ → Sender → Option Sender
  | 0, sender => some sender
  | calls+1, sender => do
    let (_,sender) ← ccFlushToSecureChannel write sender
    flushes write calls sender

def numbered (messages : List Message) : List Buffer :=
  messages.mapIdx (fun number message => ⟨number,message⟩)

/-- What `sender` has sent is a prefix of the queued messages, and a message whose
write failed last, with an error worth a retry, is still the first to be sent. -/
structure StreamKept (queued : List Buffer) (sender : Sender) : Prop where
  framed : sender.writes.flatMap Write.accepted <+: queued.flatMap Buffer.labelled
  retried : ∀ w, sender.writes.getLast? = some w → w.Retryable →
    ∃ msg sendQueue, dequeueMessage sender.sendQueue = some (some msg,sendQueue) ∧ msg.number = w.msg.number

def FlushesKeepStream (write : ℕ → WriteResult) (sendQueue : MessageQueue Buffer) (queued : List Buffer)
    (calls : ℕ) : Prop :=
  ∀ k ≤ calls, ∃ sender, flushes write k (.fresh sendQueue) = some sender ∧ StreamKept queued sender

/-- The writes of the given messages, one each, from the `start`-th result on. -/
def performed (write : ℕ → WriteResult) (start : ℕ) (queued : List Buffer) : List Write :=
  queued.mapIdx (fun i msg => ⟨msg,write (start+i)⟩)

def Write.Short (w : Write) : Prop := w.ret.toNat < w.msg.message.length

/-- No write fails, and nothing is accepted once a message was cut short. -/
structure Unbroken (writes : List Write) : Prop where
  succeed : ∀ w ∈ writes, 0 ≤ w.ret
  silent : writes.Pairwise (fun w w' => w.Short → w'.ret ≤ 0)

/-- One flush from `sender`: the messages `done` were written once each, and it
ended with the queue empty or with a write that failed. -/
structure FlushRun (write : ℕ → WriteResult) (enqueued : List Buffer) (sender sender' : Sender)
    (done rest : List Buffer) : Prop where
  queue : ∃ returned emptied, RunInvariant sender'.sendQueue enqueued returned rest emptied
  writes : sender'.writes = sender.writes++performed write sender.writes.length done
  outcome : (rest = [] ∧ ∀ w ∈ performed write sender.writes.length done, 0 ≤ w.ret) ∨
    ∃ w, sender'.writes.getLast? = some w ∧ w.ret < 0

@[simp] theorem Buffer.length_labelled (buf : Buffer) : buf.labelled.length = buf.message.length := by
  simp [Buffer.labelled]

theorem Buffer.number_of_mem_labelled {buf : Buffer} {l : Label} (h : l ∈ buf.labelled) :
    l.number = buf.number := by
  obtain ⟨i,-,rfl⟩ := List.mem_map.mp h
  rfl

theorem Write.ret_le (w : Write) : w.ret ≤ w.msg.message.length := by
  unfold Write.ret
  split <;> omega

theorem Write.accepted_eq_nil_iff (w : Write) : w.accepted = [] ↔ w.ret ≤ 0 := by
  have hle := w.ret_le
  rw [Write.accepted,List.take_eq_nil_iff,← List.length_eq_zero_iff,Buffer.length_labelled]
  omega

theorem Write.accepted_of_not_short {w : Write} (h : ¬ w.Short) : w.accepted = w.msg.labelled := by
  rw [Write.accepted,List.take_of_length_le]
  rw [Buffer.length_labelled]
  exact Nat.not_lt.mp h

theorem Write.number_of_mem_accepted {w : Write} {l : Label} (h : l ∈ w.accepted) :
    l.number = w.msg.number :=
  Buffer.number_of_mem_labelled (List.mem_of_mem_take h)

theorem Write.Retryable.ret_neg {w : Write} (h : w.Retryable) : w.ret < 0 := by
  rcases h with h | h | h <;> simp [Write.ret,h]

theorem Write.retryable_of_neg {w : Write} (h : w.ret < 0) (ho : w.result ≠ .failed .other) :
    w.Retryable := by
  unfold Write.Retryable
  cases hr : w.result with
  | failed errno => cases errno <;> simp_all
  | room bytes =>
    rw [Write.ret,hr] at h
    exact absurd h (by simp)

section Performed
variable (write : ℕ → WriteResult) (start : ℕ)

@[simp] theorem performed_nil : performed write start [] = [] := rfl

@[simp] theorem performed_cons (msg : Buffer) (queued : List Buffer) :
    performed write start (msg :: queued) = ⟨msg,write start⟩ :: performed write (start+1) queued := by
  simp [performed,List.mapIdx_cons,Nat.add_assoc,Nat.add_comm 1]

@[simp] theorem length_performed (queued : List Buffer) :
    (performed write start queued).length = queued.length := by simp [performed]

theorem performed_append (done rest : List Buffer) : performed write start (done++rest) =
    performed write start done++performed write (start+done.length) rest := by
  simp [performed,List.mapIdx_append,Nat.add_assoc,Nat.add_comm done.length]

theorem msg_of_mem_performed {queued : List Buffer} {w : Write} (h : w ∈ performed write start queued) :
    w.msg ∈ queued ∧ ∃ i, w.result = write i := by
  obtain ⟨i,hi,rfl⟩ := List.mem_mapIdx.mp h
  exact ⟨List.getElem_mem hi,_,rfl⟩

/-- The accepted bytes are in frame exactly when nothing follows a cut message. -/
theorem performed_framed_iff {queued : List Buffer} (hd : (queued.map Buffer.number).Nodup) :
    (performed write start queued).flatMap Write.accepted <+: queued.flatMap Buffer.labelled ↔
      (performed write start queued).Pairwise (fun w w' => w.Short → w'.ret ≤ 0) := by
  induction queued generalizing start with
  | nil => simp
  | cons msg queued ih =>
    obtain ⟨hmsg,hd⟩ := List.nodup_cons.mp hd
    rw [performed_cons,List.flatMap_cons,List.flatMap_cons,List.pairwise_cons]
    by_cases hs : Write.Short ⟨msg,write start⟩
    · have hsplit : msg.labelled = Write.accepted ⟨msg,write start⟩++
          msg.labelled.drop (Write.ret ⟨msg,write start⟩).toNat := (List.take_append_drop _ _).symm
      have hrest : msg.labelled.drop (Write.ret ⟨msg,write start⟩).toNat ≠ [] := by
        rw [Ne,List.drop_eq_nil_iff,Buffer.length_labelled]
        exact Nat.not_le.mpr hs
      obtain ⟨label,labels,hlabel⟩ := List.exists_cons_of_ne_nil hrest
      have hnumber : label.number = msg.number :=
        Buffer.number_of_mem_labelled (List.mem_of_mem_drop (hlabel ▸ List.mem_cons_self))
      rw [hsplit,List.append_assoc,List.prefix_append_right_inj,hlabel]
      constructor
      · intro hp
        -- an accepted byte would be the next one of the message cut short
        have hnil : (performed write (start+1) queued).flatMap Write.accepted = [] := by
          cases ha : (performed write (start+1) queued).flatMap Write.accepted with
          | nil => rfl
          | cons l ls =>
            rw [ha] at hp
            obtain ⟨rfl,-⟩ := List.cons_prefix_cons.mp hp
            obtain ⟨w,hw,hl⟩ := List.mem_flatMap.mp (ha ▸ List.mem_cons_self)
            rw [w.number_of_mem_accepted hl] at hnumber
            exact absurd (hnumber ▸ List.mem_map_of_mem (msg_of_mem_performed write _ hw).1) hmsg
        have hsilent : ∀ w ∈ performed write (start+1) queued, w.ret ≤ 0 := fun w hw =>
          w.accepted_eq_nil_iff.mp (List.flatMap_eq_nil_iff.mp hnil w hw)
        exact ⟨fun w hw _ => hsilent w hw,List.pairwise_of_forall_mem_list fun _ _ w hw _ => hsilent w hw⟩
      · rintro ⟨hsilent,-⟩
        have hnil : (performed write (start+1) queued).flatMap Write.accepted = [] :=
          List.flatMap_eq_nil_iff.mpr fun w hw => w.accepted_eq_nil_iff.mpr (hsilent w hw hs)
        rw [hnil]
        exact List.nil_prefix
    · rw [Write.accepted_of_not_short hs,List.prefix_append_right_inj,ih (start+1) hd]
      exact ⟨fun h => ⟨fun _ _ hshort => absurd hshort hs,h⟩,And.right⟩

end Performed

section Run
variable {write : ℕ → WriteResult} {count : ℕ} {sender : Sender} {enqueued returned pending : List Buffer}
variable {emptied : Bool}

theorem flushLoop_empty {sendQueue : MessageQueue Buffer}
    (h : dequeueMessage sender.sendQueue = some (none,sendQueue)) :
    flushLoop write count sender = some (.ccENone,{ sender with sendQueue }) := by
  rw [flushLoop]
  split
  · next h' => cases h.symm.trans h'
  · next h' =>
    cases h.symm.trans h'
    rfl
  · next h' => cases h.symm.trans h'

theorem flushLoop_write {msg : Buffer} {sendQueue : MessageQueue Buffer}
    (h : dequeueMessage sender.sendQueue = some (some msg,sendQueue)) (hc : count < 50) :
    let w : Write := ⟨msg,write sender.writes.length⟩
    flushLoop write count sender =
      if w.ret < 0 then some (.ccEErr,⟨sendQueue,sender.writes++[w],sender.freed++[msg]⟩)
      else if 0 < w.ret ∧ w.ret < msg.message.length then
        flushLoop write count ⟨sendQueue,sender.writes++[w],sender.freed⟩
      else flushLoop write (count+1) ⟨sendQueue,sender.writes++[w],sender.freed++[msg]⟩ := by
  intro w
  rw [flushLoop]
  split
  · next h' => cases h.symm.trans h'
  · next h' => cases h.symm.trans h'
  · next h' =>
    cases h.symm.trans h'
    rw [if_pos hc]

/-- With at most 50 messages the bound of the loop is never met. -/
theorem flushLoop_run (hi : RunInvariant sender.sendQueue enqueued returned pending emptied)
    (hc : count+pending.length ≤ 50) : ∃ ret sender' done rest, pending = done++rest ∧
      flushLoop write count sender = some (ret,sender') ∧
      FlushRun write enqueued sender sender' done rest := by
  induction pending generalizing count sender returned emptied with
  | nil =>
    exact ⟨_,_,[],[],rfl,flushLoop_empty hi.dequeue_nil,⟨⟨_,_,hi⟩,by simp,Or.inl ⟨rfl,by simp⟩⟩⟩
  | cons msg pending ih =>
    obtain ⟨sendQueue,hq,hi'⟩ := hi.dequeue
    rw [List.length_cons] at hc
    rw [flushLoop_write hq (by omega)]
    by_cases hneg : Write.ret ⟨msg,write sender.writes.length⟩ < 0
    · rw [if_pos hneg]
      exact ⟨_,_,[msg],pending,rfl,rfl,⟨⟨_,_,hi'⟩,by simp,Or.inr ⟨_,by simp,hneg⟩⟩⟩
    · rw [if_neg hneg]
      -- short or not, the loop goes on with the next message
      have hnext : ∀ count' freed, count'+pending.length ≤ 50 → ∃ ret sender' done rest,
          msg :: pending = done++rest ∧
          flushLoop write count' ⟨sendQueue,sender.writes++[⟨msg,write sender.writes.length⟩],freed⟩ =
            some (ret,sender') ∧ FlushRun write enqueued sender sender' done rest := by
        intro count' freed hc'
        let next : Sender := ⟨sendQueue,sender.writes++[⟨msg,write sender.writes.length⟩],freed⟩
        have hnext : RunInvariant next.sendQueue enqueued (returned++[msg]) pending _ := hi'
        obtain ⟨ret,sender',done,rest,rfl,hrun,hqueue,hwrites,hout⟩ := ih hnext hc'
        refine ⟨ret,sender',msg :: done,rest,rfl,hrun,hqueue,by simpa [next] using hwrites,?_⟩
        rcases hout with ⟨hrest,hall⟩ | hlast
        · refine Or.inl ⟨hrest,?_⟩
          rw [performed_cons]
          exact List.forall_mem_cons.mpr ⟨Int.not_lt.mp hneg,by simpa [next] using hall⟩
        · exact Or.inr hlast
      split
      · exact hnext count _ (by omega)
      · exact hnext (count+1) _ (by omega)

theorem ccFlushToSecureChannel_run (write : ℕ → WriteResult)
    (hi : RunInvariant sender.sendQueue enqueued returned pending emptied) (hc : pending.length ≤ 50) :
    ∃ ret sender' done rest, pending = done++rest ∧
      ccFlushToSecureChannel write sender = some (ret,sender') ∧
      FlushRun write enqueued sender sender' done rest :=
  flushLoop_run hi (by rwa [Nat.zero_add])

theorem flushes_run (write : ℕ → WriteResult)
    (hi : RunInvariant sender.sendQueue enqueued returned pending emptied) (hc : pending.length ≤ 50)
    (calls : ℕ) : ∃ sender' done rest, pending = done++rest ∧ flushes write calls sender = some sender' ∧
      (calls = 0 → done = []) ∧ sender'.writes = sender.writes++performed write sender.writes.length done := by
  induction calls generalizing sender returned pending emptied with
  | zero => exact ⟨sender,[],pending,rfl,rfl,fun _ => rfl,by simp⟩
  | succ calls ih =>
    obtain ⟨ret,next,done,rest,rfl,hrun,⟨_,_,hi'⟩,hwrites,-⟩ := ccFlushToSecureChannel_run write hi hc
    rw [List.length_append] at hc
    obtain ⟨sender',done',rest',rfl,hruns,-,hwrites'⟩ := ih hi' (by omega)
    refine ⟨sender',done++done',rest',by simp,?_,by simp,?_⟩
    · rw [flushes,hrun]
      exact hruns
    · rw [hwrites',hwrites,List.length_append,length_performed,performed_append,List.append_assoc]

/-- One flush already shows whether the stream is kept: after a failure the queue
starts with a message that was behind the one whose write failed. -/
theorem FlushRun.unbroken {write : ℕ → WriteResult} {sendQueue : MessageQueue Buffer} {sender' : Sender}
    {done rest : List Buffer} (hrun : FlushRun write enqueued (.fresh sendQueue) sender' done rest)
    (hd : ((done++rest).map Buffer.number).Nodup) (hretry : ∀ i, write i ≠ .failed .other)
    (hkept : StreamKept (done++rest) sender') : Unbroken (performed write 0 (done++rest)) := by
  obtain ⟨⟨_,_,hi⟩,hwrites,hout⟩ := hrun
  obtain ⟨hframed,hretried⟩ := hkept
  have hwrites : sender'.writes = performed write 0 done := hwrites
  rcases hout with ⟨rfl,hall⟩ | ⟨w,hw,hneg⟩
  · rw [List.append_nil] at hframed hd ⊢
    rw [hwrites] at hframed
    exact ⟨hall,(performed_framed_iff write 0 hd).mp hframed⟩
  · have hmem := List.mem_of_getLast? hw
    rw [hwrites] at hmem
    obtain ⟨hmsg,i,hres⟩ := msg_of_mem_performed write 0 hmem
    obtain ⟨msg,queue',hfirst,hnumber⟩ := hretried w hw (Write.retryable_of_neg hneg (hres ▸ hretry i))
    have hrest := hi.mem_of_dequeue hfirst
    rw [List.map_append] at hd
    exact absurd hnumber.symm
      ((List.nodup_append.mp hd).2.2 _ (List.mem_map_of_mem hmsg) _ (List.mem_map_of_mem hrest))

/-- Without a failure or a cut message every written message is sent whole. -/
theorem Unbroken.streamKept {write : ℕ → WriteResult} {sender' : Sender} {done rest : List Buffer}
    (hu : Unbroken (performed write 0 (done++rest))) (hd : ((done++rest).map Buffer.number).Nodup)
    (hwrites : sender'.writes = performed write 0 done) : StreamKept (done++rest) sender' := by
  constructor
  · have hall := (performed_framed_iff write 0 hd).mpr hu.silent
    rw [performed_append,List.flatMap_append] at hall
    rw [hwrites]
    exact (List.prefix_append _ _).trans hall
  · intro w hw hr
    have hmem := List.mem_of_getLast? hw
    rw [hwrites] at hmem
    have hle := hu.succeed w (by
      rw [performed_append]
      exact List.mem_append_left _ hmem)
    exact absurd hr.ret_neg (Int.not_lt.mpr hle)

end Run

theorem numbered_nodup (messages : List Message) : ((numbered messages).map Buffer.number).Nodup := by
  have h : (numbered messages).map Buffer.number = List.range messages.length :=
    List.ext_getElem (by simp [numbered]) (fun i h₁ h₂ => by simp [numbered])
  rw [h]
  exact List.nodup_range

theorem numbered_length (messages : List Message) : (numbered messages).length = messages.length := by
  simp [numbered]

section Stream
variable {write : ℕ → WriteResult} {sendQueue : MessageQueue Buffer} {enqueued returned : List Buffer}
variable {messages : List Message} {emptied : Bool} {calls : ℕ}

theorem FlushesKeepStream.unbroken
    (hi : RunInvariant sendQueue enqueued returned (numbered messages) emptied)
    (hlen : messages.length ≤ 50) (hretry : ∀ i, write i ≠ .failed .other)
    (hkept : FlushesKeepStream write sendQueue (numbered messages) calls) (hcalls : 0 < calls) :
    Unbroken (performed write 0 (numbered messages)) := by
  have hd := numbered_nodup messages
  obtain ⟨sender,hflush,hstream⟩ := hkept 1 hcalls
  have hi' : RunInvariant (Sender.fresh sendQueue).sendQueue enqueued returned (numbered messages) emptied := hi
  obtain ⟨ret,sender',done,rest,hsplit,hrun,hflushed⟩ :=
    ccFlushToSecureChannel_run write hi' (by rwa [numbered_length])
  rw [flushes,hrun] at hflush
  cases hflush
  rw [hsplit] at hd hstream ⊢
  exact hflushed.unbroken hd hretry hstream

theorem Unbroken.flushesKeepStream
    (hi : RunInvariant sendQueue enqueued returned (numbered messages) emptied)
    (hlen : messages.length ≤ 50)
    (hu : 0 < calls → Unbroken (performed write 0 (numbered messages))) :
    FlushesKeepStream write sendQueue (numbered messages) calls := by
  intro k hk
  have hd := numbered_nodup messages
  have hi' : RunInvariant (Sender.fresh sendQueue).sendQueue enqueued returned (numbered messages) emptied := hi
  obtain ⟨sender,done,rest,hsplit,hflush,hzero,hwrites⟩ := flushes_run write hi' (by rwa [numbered_length]) k
  refine ⟨sender,hflush,?_⟩
  rcases Nat.eq_zero_or_pos k with rfl | hpos
  · cases hflush
    exact ⟨List.nil_prefix,by rintro w ⟨⟩⟩
  · have hu := hu (hpos.trans_le hk)
    rw [hsplit] at hu hd ⊢
    exact hu.streamKept hd hwrites

/-- The bound is the loop's own: of 51 messages the last would be dropped unsent. -/
theorem flushesKeepStream_iff (hi : RunInvariant sendQueue enqueued returned (numbered messages) emptied)
    (hlen : messages.length ≤ 50) (hretry : ∀ i, write i ≠ .failed .other) :
    FlushesKeepStream write sendQueue (numbered messages) calls ↔
      (0 < calls → Unbroken (performed write 0 (numbered messages))) :=
  ⟨fun hkept => hkept.unbroken hi hlen hretry,Unbroken.flushesKeepStream hi hlen⟩

end Stream

def twoHellos : List Message := List.replicate 2 (Buffer.read 0 (fun _ => 0) helloFrame).message

/-- The first write accepts four bytes of eight. -/
def shortFirst : ℕ → WriteResult
  | 0 => .room 4
  | _ => .room 8

theorem flushesKeepStream_iff_twoHellos : ∃ sendQueue : MessageQueue Buffer,
    RunInvariant sendQueue (numbered twoHellos) [] (numbered twoHellos) false ∧
    (FlushesKeepStream shortFirst sendQueue (numbered twoHellos) 1 ↔
      (0 < 1 → Unbroken (performed shortFirst 0 (numbered twoHellos)))) := by
  obtain ⟨sendQueue,-,hi⟩ := createMessageQueue_invariant.enqueues (numbered twoHellos) (by decide)
  exact ⟨sendQueue,hi,flushesKeepStream_iff hi (by decide) (fun i => by cases i <;> nofun)⟩

/-- Four bytes of the first message are followed by the second one. -/
theorem shortFirst_not_kept : ∃ sendQueue : MessageQueue Buffer,
    RunInvariant sendQueue (numbered twoHellos) [] (numbered twoHellos) false ∧
    ¬ FlushesKeepStream shortFirst sendQueue (numbered twoHellos) 1 := by
  obtain ⟨sendQueue,-,hi⟩ := createMessageQueue_invariant.enqueues (numbered twoHellos) (by decide)
  refine ⟨sendQueue,hi,fun hkept => ?_⟩
  have hu := hkept.unbroken hi (by decide) (fun i => by cases i <;> nofun) Nat.one_pos
  have hshort : (4 : ℕ) < 8 := by decide
  have hsilent : (8 : ℤ) ≤ 0 := (List.pairwise_cons.mp hu.silent).1 _ List.mem_cons_self hshort
  exact absurd hsilent (by decide)

end OpenFlowController.Channel
