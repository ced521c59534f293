import OpenFlowController.Channel.Receive
import OpenFlowController.Handler.Handlers

/-! # From a read to a handler

A received buffer is queued, taken off the queue when its work item is made and
looked for on the queue once more when the item runs. Buffers carry a number here,
for two messages may have the same bytes.
-/
namespace OpenFlowController.Channel
open Memory Check Protocol Handler

structure Buffer where
  number : ℕ
  message : Message

/-- A member of `cc_recv_ops` and the `recv_buf` of the record it is given. -/
structure HandlerCall where
  op : RecvOp
  recvBuf : Option Buffer

structure Switch where
  recvQueue : List Buffer
  allocated : ℕ
  calls : List HandlerCall

/-- The receive queue as a plain FIFO. -/
def fifoQueue : QueueOps (List Message) where
  enqueueMessage queue message := queue++[message]
  dequeueMessage queue := (queue.head?,queue.tail)

def Frame.chunk (frame : Frame) : Chunk :=
  ⟨frame.bytes,fun h => absurd frame.least (by simp [h]),frame.most⟩

def Buffer.read (number : ℕ) (before : Bytes) (frame : Frame) : Buffer :=
  ⟨number,⟨frame.chunk.result.fill before,frame.bytes.length⟩⟩

/-- The handler a header type selects; some types have no case. -/
def selectOp (type : ℕ) : Option RecvOp := (OfpType.ofValue type).bind ccOfpmsgHandleCase

/-- `recv_buf` is the buffer of the work item. No result: the queue is empty and
the header of a NULL buffer is read. What the uninitialised `func_cb` and `ret`
decide afterwards is whether the buffer taken here is freed. -/
def ccOfpmsgHandle (recvBuf : Option Buffer) (switch : Switch) : Option Switch := do
  let taken ← switch.recvQueue.head?
  let recvQueue := switch.recvQueue.tail
  match selectOp (taken.message.data 1).toNat with
  | some op => return { switch with recvQueue, calls := switch.calls++[⟨op,recvBuf⟩] }
  | none => return { switch with recvQueue }

/-- One read of one message, and its work item run to the end. -/
def receiveAndHandle (switch : Switch) (before : Bytes) (frame : Frame) : Option Switch :=
  let queue := switch.recvQueue++[Buffer.read switch.allocated before frame]
  ccOfpmsgHandle queue.head? { switch with recvQueue := queue.tail, allocated := switch.allocated+1 }

def receiveAll (switch : Switch) : List (Bytes × Frame) → Option Switch
  | [] => some switch
  | (before,frame) :: reads => do receiveAll (← receiveAndHandle switch before frame) reads

/-- A switch with buffers left on its queue. -/
def backlogged (backlog : List Message) : Switch :=
  ⟨backlog.mapIdx (fun number message => ⟨number,message⟩),backlog.length,[]⟩

def HandlerCall.takes (call : HandlerCall) (number : ℕ) : Bool := call.recvBuf.any (fun buf => buf.number == number)

/-- Every buffer read is the `recv_buf` of one handler call, and that is a call of
the member its own type selects. -/
def EachHandledOnce (switch : Switch) (reads : List (Bytes × Frame)) : Prop :=
  ∃ final, receiveAll switch reads = some final ∧
    ∀ i read, reads[i]? = some read → ∃ call, selectOp (read.2.bytes.getD 1 0).toNat = some call.op ∧
      final.calls.filter (fun c => c.takes (switch.allocated+i)) = [call]

/-- Buffers on the queue and in handler calls have been allocated. -/
structure Numbered (switch : Switch) : Prop where
  queue : ∀ buf ∈ switch.recvQueue, buf.number < switch.allocated
  calls : ∀ call ∈ switch.calls, ∀ buf, call.recvBuf = some buf → buf.number < switch.allocated

/-- The model of one read is the one of the receive path, numbers forgotten. -/
theorem ccRecvFromSecureChannel_fifo (queue : List Buffer) (pool : List TransInfo) (number : ℕ)
    (before : Bytes) (frame : Frame) :
    ccRecvFromSecureChannel fifoQueue (some before) frame.chunk.result ⟨queue.map Buffer.message,pool⟩ =
      ⟨.ccENone,⟨((queue++[Buffer.read number before frame]).tail).map Buffer.message,
        pool++[⟨((queue++[Buffer.read number before frame]).head?).map Buffer.message⟩]⟩,
        some (Buffer.read number before frame).message⟩ := by
  have hl := frame.least
  have hsize : frame.chunk.result.asSize = frame.bytes.length := rfl
  have hpos : frame.bytes.length ≠ 0 := by omega
  have hversion : (frame.chunk.result.fill before 0).toNat = ofpVersion := by
    rw [frame.chunk.fill_eq before (by exact Nat.lt_of_lt_of_le (by decide) hl) 0]
    exact frame.version
  have hfield : be16 (frame.chunk.result.fill before) 2 = frame.bytes.length := by
    rw [be16,frame.chunk.fill_eq before (by exact Nat.lt_of_lt_of_le (by decide) hl) 0,
      frame.chunk.fill_eq before (by exact Nat.lt_of_lt_of_le (by decide) hl) 0]
    exact frame.length
  simp [ccRecvFromSecureChannel,hsize,hpos,hl,hversion,hfield,Nat.not_lt.mpr frame.most,scheduleWorker,
    fifoQueue,Buffer.read]
  cases queue <;> rfl

theorem HandlerCall.takes_iff (call : HandlerCall) (number : ℕ) :
    call.takes number ↔ ∃ buf, call.recvBuf = some buf ∧ buf.number = number := by
  unfold HandlerCall.takes
  cases call.recvBuf <;> simp

section Rules
variable {switch switch' : Switch} {before : Bytes} {frame : Frame}

theorem ccOfpmsgHandle_cases {recvBuf : Option Buffer} (h : ccOfpmsgHandle recvBuf switch = some switch') :
    switch.recvQueue ≠ [] ∧ switch'.recvQueue = switch.recvQueue.tail ∧
      switch'.allocated = switch.allocated ∧
      (switch'.calls = switch.calls ∨ ∃ op, switch'.calls = switch.calls++[⟨op,recvBuf⟩]) := by
  obtain ⟨queue,allocated,calls⟩ := switch
  cases queue with
  | nil => cases h
  | cons taken queue =>
    cases hop : selectOp (taken.message.data 1).toNat with
    | none =>
      simp only [ccOfpmsgHandle,List.head?_cons,Option.bind_eq_bind,Option.bind_some,hop] at h
      cases h
      exact ⟨by simp,rfl,rfl,Or.inl rfl⟩
    | some op =>
      simp only [ccOfpmsgHandle,List.head?_cons,Option.bind_eq_bind,Option.bind_some,hop] at h
      cases h
      exact ⟨by simp,rfl,rfl,Or.inr ⟨op,rfl⟩⟩

/-- Step lemma: a handler is only ever given a buffer read earlier. -/
theorem receiveAndHandle_earlier (hn : Numbered switch)
    (h : receiveAndHandle switch before frame = some switch') :
    Numbered switch' ∧ switch'.allocated = switch.allocated+1 ∧
      ∀ call ∈ switch'.calls, ∀ buf, call.recvBuf = some buf → buf.number < switch.allocated := by
  obtain ⟨hqueue,hq',ha',hc'⟩ := ccOfpmsgHandle_cases h
  -- the queue had a buffer behind the one given to the work item, so that one is older
  obtain ⟨first,rest,hsplit⟩ := List.exists_cons_of_ne_nil
    (show switch.recvQueue ≠ [] by rintro he; simp [he] at hqueue)
  have hfirst : first.number < switch.allocated := hn.queue first (by simp [hsplit])
  have hcalls : ∀ call ∈ switch'.calls, ∀ buf, call.recvBuf = some buf → buf.number < switch.allocated := by
    intro call hcall buf hbuf
    rcases hc' with hc' | ⟨op,hc'⟩
    · exact hn.calls call (hc' ▸ hcall) buf hbuf
    · rcases List.mem_append.mp (hc' ▸ hcall) with hcall | hcall
      · exact hn.calls call hcall buf hbuf
      · rw [List.mem_singleton.mp hcall] at hbuf
        simp only [hsplit,List.cons_append,List.head?_cons,Option.some.injEq] at hbuf
        exact hbuf ▸ hfirst
  refine ⟨⟨fun buf hbuf => ?_,fun call hcall buf hbuf => ?_⟩,ha',hcalls⟩
  · rw [hq'] at hbuf
    rw [ha']
    have hmem := List.mem_of_mem_tail (List.mem_of_mem_tail hbuf)
    rcases List.mem_append.mp hmem with hmem | hmem
    · exact Nat.lt_succ_of_lt (hn.queue buf hmem)
    · rw [List.mem_singleton.mp hmem]
      exact Nat.lt_succ_self _
  · rw [ha']
    exact Nat.lt_succ_of_lt (hcalls call hcall buf hbuf)

theorem receiveAll_append (switch : Switch) (reads : List (Bytes × Frame)) (read : Bytes × Frame) :
    receiveAll switch (reads++[read]) =
      (receiveAll switch reads).bind (fun s => receiveAndHandle s read.1 read.2) := by
  induction reads generalizing switch with
  | nil => simp [receiveAll]
  | cons r reads ih =>
    cases h : receiveAndHandle switch r.1 r.2 with
    | none => simp [receiveAll,h]
    | some s => simp [receiveAll,h,ih]

theorem receiveAll_numbered {reads : List (Bytes × Frame)} (hn : Numbered switch)
    (h : receiveAll switch reads = some switch') :
    Numbered switch' ∧ switch'.allocated = switch.allocated+reads.length := by
  induction reads generalizing switch with
  | nil =>
    cases h
    exact ⟨hn,rfl⟩
  | cons read reads ih =>
    obtain ⟨s,hs,hrest⟩ := Option.bind_eq_some_iff.mp h
    obtain ⟨hn',ha,-⟩ := receiveAndHandle_earlier hn hs
    obtain ⟨hfinal,hlen⟩ := ih hn' hrest
    exact ⟨hfinal,by rw [hlen,ha,List.length_cons]; omega⟩

end Rules

theorem backlogged_numbered (backlog : List Message) : Numbered (backlogged backlog) := by
  constructor
  · intro buf hbuf
    obtain ⟨i,hi,rfl⟩ := List.mem_mapIdx.mp hbuf
    exact hi
  · simp [backlogged]

/-- Whatever was left on the queue, the last message read is given to no handler:
either a buffer read before it is, or there is none and the work item crashes. -/
theorem EachHandledOnce.no_reads {backlog : List Message} {reads : List (Bytes × Frame)}
    (h : EachHandledOnce (backlogged backlog) reads) : reads = [] := by
  obtain ⟨final,hrun,hall⟩ := h
  rcases List.eq_nil_or_concat reads with rfl | ⟨init,last,rfl⟩
  · rfl
  · rw [List.concat_eq_append] at hrun hall
    rw [receiveAll_append] at hrun
    obtain ⟨s,hs,hlast⟩ := Option.bind_eq_some_iff.mp hrun
    obtain ⟨hn,ha⟩ := receiveAll_numbered (backlogged_numbered backlog) hs
    obtain ⟨-,-,hearlier⟩ := receiveAndHandle_earlier hn hlast
    obtain ⟨call,-,hcalls⟩ := hall init.length last (by simp)
    have hmem : call ∈ final.calls.filter (fun c => c.takes ((backlogged backlog).allocated+init.length)) := by
      rw [hcalls]
      exact List.mem_singleton_self call
    obtain ⟨hmem,htakes⟩ := List.mem_filter.mp hmem
    obtain ⟨buf,hbuf,hnumber⟩ := (call.takes_iff _).mp htakes
    have hlt := hearlier call hmem buf hbuf
    omega

theorem eachHandledOnce_iff (backlog : List Message) (reads : List (Bytes × Frame)) :
    EachHandledOnce (backlogged backlog) reads ↔ reads = [] := by
  constructor
  · exact EachHandledOnce.no_reads
  · rintro rfl
    exact ⟨_,rfl,by simp⟩

/-- One hello on a fresh switch: the work item finds the queue empty. -/
theorem hello_not_handled : selectOp (helloFrame.bytes.getD 1 0).toNat = some .recvHello ∧
    ¬ EachHandledOnce (backlogged []) [(fun _ => 0,helloFrame)] :=
  ⟨rfl,fun h => List.cons_ne_nil _ _ h.no_reads⟩

end OpenFlowController.Channel
