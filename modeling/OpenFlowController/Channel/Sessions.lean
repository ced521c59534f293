import OpenFlowController.Channel.FlushBatch

/-! # Sessions of the sending side

Messages are queued and flushed in any order. What becomes of each of them is kept
in books that know nothing of the list behind the queue; the library's queue and its
writes follow the books as long as the books go on.
-/
namespace OpenFlowController.Channel
open Check Queue

/-- A message taken off the queue: the result of its write, or none if it came when
the batch was full. -/
structure Handled where
  msg : Buffer
  result : Option WriteResult

def Handled.write (handled : Handled) : Option Write := handled.result.map (fun result => ⟨handled.msg,result⟩)

/-- The whole message was accepted, or as if: a write of no bytes counts as one. -/
def Write.Counted (w : Write) : Prop := 0 ≤ w.ret ∧ ¬ (0 < w.ret ∧ w.ret < w.msg.message.length)

instance (w : Write) : Decidable w.Counted := inferInstanceAs (Decidable (_ ∧ _))

/-- Neither failed nor dropped halfway. -/
def Handled.counted (handled : Handled) : Bool :=
  match handled.write with
  | some w => w.Counted
  | none => false

/-- The buffer is released after a failure, and after a write that is counted. -/
def Handled.released (handled : Handled) : Bool :=
  match handled.write with
  | some w => w.ret < 0 ∨ w.Counted
  | none => false

theorem Handled.released_iff (w : Write) :
    Handled.released ⟨w.msg,some w.result⟩ = true ↔ w.ret < 0 ∨ w.Counted := decide_eq_true_iff

inductive SessionCall
  | enqueue (message : Message)
  | flush

structure Session where
  issued : ℕ
  sender : Sender

def freshSession : Session := ⟨0,.fresh createMessageQueue⟩

def SessionCall.run (write : ℕ → WriteResult) (session : Session) : SessionCall → Option Session
  | .enqueue message => do
    let (_,sendQueue) ← enqueueMessage session.sender.sendQueue (some ⟨session.issued,message⟩)
    return ⟨session.issued+1,{ session.sender with sendQueue }⟩
  | .flush => do
    let (_,sender) ← ccFlushToSecureChannel write session.sender
    return { session with sender }

/-- Without a result once a freed cell of the queue is accessed. What `free_buffer` stores into
the record it has freed is left out. -/
def runSession (write : ℕ → WriteResult) (session : Session) (calls : List SessionCall) : Option Session :=
  calls.foldlM (SessionCall.run write) session

/-! ## The books -/

/-- A flush with `count` messages counted and `made` writes made so far. -/
def batch (write : ℕ → WriteResult) : ℕ → ℕ → List Buffer → List Handled
  | _, _, [] => []
  | count, made, msg :: queued =>
    if 50 ≤ count then [⟨msg,none⟩]
    else
      let w : Write := ⟨msg,write made⟩
      if w.ret < 0 then [⟨msg,some w.result⟩]
      else ⟨msg,some w.result⟩ :: batch write (if w.Counted then count+1 else count) (made+1) queued

/-- One batch for every flush, the messages still queued, and whether a flush took the
last one. -/
structure Books where
  batches : List (List Handled)
  queued : List Buffer
  emptied : Bool

def Books.handled (books : Books) : List Handled := books.batches.flatten

def Books.writes (books : Books) : List Write := books.handled.filterMap Handled.write

def Books.issued (books : Books) : ℕ := books.handled.length+books.queued.length

def SessionCall.book (write : ℕ → WriteResult) (books : Books) : SessionCall → Option Books
  | .enqueue message =>
    if books.emptied then none else some { books with queued := books.queued++[⟨books.issued,message⟩] }
  | .flush =>
    let handled := batch write 0 books.writes.length books.queued
    let queued := books.queued.drop handled.length
    some ⟨books.batches++[handled],queued,books.emptied || (!handled.isEmpty && queued.isEmpty)⟩

def keepBooks (write : ℕ → WriteResult) (books : Books) (calls : List SessionCall) : Option Books :=
  calls.foldlM (SessionCall.book write) books

def emptyBooks : Books := ⟨[],[],false⟩

/-- The queue holds what the books say is queued, the writes and the released buffers
are those of the books. -/
structure Follows (session : Session) (books : Books) : Prop where
  issued : session.issued = books.issued
  queue : RunInvariant session.sender.sendQueue (books.handled.map Handled.msg++books.queued)
    (books.handled.map Handled.msg) books.queued books.emptied
  writes : session.sender.writes = books.writes
  freed : session.sender.freed = (books.handled.filter Handled.released).map Handled.msg

section Flush
variable {write : ℕ → WriteResult} {count : ℕ} {sender : Sender} {enqueued returned pending : List Buffer}
variable {emptied : Bool}

/-- What a flush with these messages on the queue comes to. -/
structure Flushed (handled : List Handled) (enqueued returned pending : List Buffer) (emptied : Bool)
    (sender sender' : Sender) : Prop where
  queue : RunInvariant sender'.sendQueue enqueued (returned++handled.map Handled.msg) (pending.drop handled.length)
    (emptied || (!handled.isEmpty && (pending.drop handled.length).isEmpty))
  writes : sender'.writes = sender.writes++handled.filterMap Handled.write
  freed : sender'.freed = sender.freed++(handled.filter Handled.released).map Handled.msg

theorem Flushed.refl (hi : RunInvariant sender.sendQueue enqueued returned pending emptied) :
    Flushed [] enqueued returned pending emptied sender sender where
  queue := by simpa using hi
  writes := by simp
  freed := by simp

/-- The flag is set with the first message if it is also the last. -/
theorem emptied_cons (emptied : Bool) (pending : List Buffer) (handled : List Handled) :
    ((emptied || pending.length == 0) || (!handled.isEmpty && (pending.drop handled.length).isEmpty)) =
      (emptied || (pending.drop handled.length).isEmpty) := by
  cases pending with
  | nil => simp
  | cons msg pending => cases handled <;> simp

/-- One message is taken off, and the flush goes on from there. -/
theorem Flushed.cons {msg : Buffer} {result : Option WriteResult} {handled : List Handled} {next sender' : Sender}
    (h : Flushed handled enqueued (returned++[msg]) pending (emptied || pending.length == 0) next sender')
    (hwrites : next.writes = sender.writes++(Handled.write ⟨msg,result⟩).toList)
    (hfreed : next.freed = sender.freed++if Handled.released ⟨msg,result⟩ then [msg] else []) :
    Flushed (⟨msg,result⟩ :: handled) enqueued returned (msg :: pending) emptied sender sender' := by
  refine ⟨?_,?_,?_⟩
  · have hqueue := h.queue
    rw [emptied_cons,List.append_assoc] at hqueue
    exact hqueue
  · rw [h.writes,hwrites,List.append_assoc,List.filterMap_cons]
    cases Handled.write ⟨msg,result⟩ <;> rfl
  · rw [h.freed,hfreed,List.append_assoc,List.filter_cons]
    cases Handled.released ⟨msg,result⟩ <;> rfl

/-- The loop handles the messages as the books do, however many are queued. -/
theorem flushLoop_flushed (hi : RunInvariant sender.sendQueue enqueued returned pending emptied) :
    ∃ ret sender', flushLoop write count sender = some (ret,sender') ∧
      Flushed (batch write count sender.writes.length pending) enqueued returned pending emptied sender sender' := by
  induction pending generalizing count sender returned emptied with
  | nil => exact ⟨_,_,flushLoop_empty hi.dequeue_nil,.refl hi⟩
  | cons msg pending ih =>
    obtain ⟨sendQueue,hq,hi'⟩ := hi.dequeue
    rw [batch]
    by_cases hfull : 50 ≤ count
    · rw [flushLoop_full hq hfull,if_pos hfull]
      have hnext : RunInvariant ({ sender with sendQueue } : Sender).sendQueue enqueued _ pending _ := hi'
      exact ⟨_,_,rfl,(Flushed.refl hnext).cons (by simp [Handled.write]) (by simp [Handled.released,Handled.write])⟩
    · rw [flushLoop_write hq (Nat.lt_of_not_le hfull),if_neg hfull]
      let w : Write := ⟨msg,write sender.writes.length⟩
      have hmsg : ∀ freed, RunInvariant (Sender.mk sendQueue (sender.writes++[w]) freed).sendQueue enqueued _ pending _ :=
        fun _ => hi'
      have hlength : ∀ freed, (Sender.mk sendQueue (sender.writes++[w]) freed).writes.length = sender.writes.length+1 :=
        fun _ => List.length_append
      by_cases hfailed : w.ret < 0
      · rw [if_pos hfailed,if_pos hfailed]
        refine ⟨_,_,rfl,(Flushed.refl (hmsg (sender.freed++[msg]))).cons rfl ?_⟩
        exact congrArg (sender.freed++·) (if_pos ((Handled.released_iff w).mpr (Or.inl hfailed))).symm
      · rw [if_neg hfailed,if_neg hfailed]
        by_cases hshort : 0 < w.ret ∧ w.ret < msg.message.length
        · have hcounted : ¬ w.Counted := fun hc => hc.2 hshort
          rw [if_pos hshort,if_neg hcounted]
          obtain ⟨ret,sender',hrun,hflushed⟩ := @ih count _ _ _ (hmsg sender.freed)
          rw [hlength] at hflushed
          refine ⟨ret,sender',hrun,hflushed.cons rfl ?_⟩
          have hkept : ¬ Handled.released ⟨msg,some w.result⟩ := fun hr =>
            ((Handled.released_iff w).mp hr).elim hfailed hcounted
          exact (List.append_nil _).symm.trans (congrArg (sender.freed++·) (if_neg hkept).symm)
        · have hcounted : w.Counted := ⟨Int.not_lt.mp hfailed,hshort⟩
          rw [if_neg hshort,if_pos hcounted]
          obtain ⟨ret,sender',hrun,hflushed⟩ := @ih (count+1) _ _ _ (hmsg (sender.freed++[msg]))
          rw [hlength] at hflushed
          refine ⟨ret,sender',hrun,hflushed.cons rfl ?_⟩
          exact congrArg (sender.freed++·) (if_pos ((Handled.released_iff w).mpr (Or.inr hcounted))).symm

end Flush

section Sessions
variable {write : ℕ → WriteResult} {session : Session} {books : Books}

theorem freshSession_follows : Follows freshSession emptyBooks where
  issued := rfl
  queue := createMessageQueue_invariant
  writes := rfl
  freed := rfl

@[simp] theorem Books.handled_append (books : Books) (handled : List Handled) (queued : List Buffer) (emptied : Bool) :
    Books.handled ⟨books.batches++[handled],queued,emptied⟩ = books.handled++handled := by
  simp [Books.handled]

/-- One call keeps with the books, and comes back if they go on. -/
theorem Follows.call (h : Follows session books) (hlt : books.queued.length+1 < UInt32.size) (call : SessionCall)
    (write : ℕ → WriteResult) :
    match call.book write books with
    | some books' => ∃ session', call.run write session = some session' ∧ Follows session' books'
    | none => call.run write session = none := by
  cases call with
  | enqueue message =>
    have hqueue := h.queue
    rw [SessionCall.book]
    cases he : books.emptied with
    | true =>
      rw [he] at hqueue
      simp only [if_true,SessionCall.run,enqueueMessage_dangling (hqueue.dangling rfl).2,Option.bind_eq_bind,
        Option.bind_none]
    | false =>
      rw [he] at hqueue
      obtain ⟨sendQueue,hsent,-,hinv⟩ := hqueue.enqueue ⟨session.issued,message⟩
      refine ⟨⟨session.issued+1,{ session.sender with sendQueue }⟩,?_,?_,?_,h.writes,h.freed⟩
      · rw [SessionCall.run,hsent]
        rfl
      · rw [h.issued,Books.issued,Books.issued,List.length_append]
        rfl
      · have hinv := hinv hlt
        rw [List.append_assoc] at hinv
        rw [← h.issued]
        exact hinv
  | flush =>
    obtain ⟨ret,sender',hrun,hflushed⟩ := @flushLoop_flushed write 0 _ _ _ _ _ h.queue
    rw [h.writes] at hflushed
    have hqueue := hflushed.queue
    have hhistory := hqueue.history
    refine ⟨{ session with sender := sender' },?_,?_,?_,?_,?_⟩
    · rw [SessionCall.run,ccFlushToSecureChannel,hrun]
      rfl
    · have hlength := congrArg List.length hhistory
      simp only [List.length_append,List.length_map] at hlength
      rw [Books.issued,Books.handled_append,List.length_append,h.issued,Books.issued,hlength]
    · rw [Books.handled_append,List.map_append,← hhistory]
      exact hqueue
    · rw [hflushed.writes,h.writes,Books.writes,Books.writes,Books.handled_append,List.filterMap_append]
    · rw [hflushed.freed,h.freed,Books.handled_append,List.filter_append,List.map_append]

theorem SessionCall.queued_le {books books' : Books} {call : SessionCall} (h : call.book write books = some books') :
    books'.queued.length ≤ books.queued.length+1 := by
  cases call with
  | enqueue message =>
    rw [SessionCall.book] at h
    split at h
    · cases h
    · obtain rfl := Option.some.inj h
      exact List.length_append.le
  | flush =>
    obtain rfl := Option.some.inj h
    exact Nat.le_succ_of_le ((List.drop_sublist _ _).length_le)

/-- By induction on the calls: a session comes back exactly if its books go on. -/
theorem Follows.run (h : Follows session books) (calls : List SessionCall)
    (hlt : books.queued.length+calls.length < UInt32.size) :
    match keepBooks write books calls with
    | some books' => ∃ session', runSession write session calls = some session' ∧ Follows session' books'
    | none => runSession write session calls = none := by
  induction calls generalizing session books with
  | nil => exact ⟨session,rfl,h⟩
  | cons call calls ih =>
    rw [List.length_cons] at hlt
    have hcall := h.call (by omega) call write
    rw [keepBooks,List.foldlM_cons,runSession,List.foldlM_cons]
    cases hbook : call.book write books with
    | none =>
      rw [hbook] at hcall
      simp only [hcall,Option.bind_eq_bind,Option.bind_none]
    | some books' =>
      rw [hbook] at hcall
      obtain ⟨session',hrun,hfollows⟩ := hcall
      have hle := SessionCall.queued_le hbook
      rw [hrun]
      exact ih hfollows (by omega)

end Sessions

/-! ## What the books say -/

def messagesOf (calls : List SessionCall) : List Message :=
  calls.filterMap (fun call => match call with
    | .enqueue message => some message
    | .flush => none)

def flushesOf (calls : List SessionCall) : ℕ :=
  calls.countP (fun call => match call with
    | .enqueue _ => false
    | .flush => true)

/-- Not written, or not accepted at all. -/
def Handled.Lost (handled : Handled) : Prop :=
  match handled.write with
  | some w => w.ret < 0
  | none => True

/-- From `count` on at most 50 messages are counted, and only the last message of a batch
is lost; one that is not even written had a full batch in front of it. -/
structure IsBatch (count : ℕ) (handled : List Handled) : Prop where
  counted : count+(handled.filter Handled.counted).length ≤ 50
  kept : ∀ h ∈ handled.dropLast, ¬ h.Lost
  full : ∀ h ∈ handled, h.result = none → count+(handled.filter Handled.counted).length = 50

section Batch
variable {write : ℕ → WriteResult} {count made : ℕ} {queued : List Buffer}

theorem IsBatch.last {handled : Handled} (hcounted : handled.counted = false) (hcount : count ≤ 50)
    (hfull : handled.result = none → count = 50) : IsBatch count [handled] := by
  refine ⟨?_,?_,?_⟩
  · simpa [hcounted] using hcount
  · simp
  · simpa [hcounted] using hfull

theorem IsBatch.cons {w : Write} {handled : List Handled} (hret : ¬ w.ret < 0)
    (h : IsBatch (if w.Counted then count+1 else count) handled) : IsBatch count (⟨w.msg,some w.result⟩ :: handled) := by
  have hsum : count+((⟨w.msg,some w.result⟩ :: handled).filter Handled.counted).length =
      (if w.Counted then count+1 else count)+(handled.filter Handled.counted).length := by
    have hcounted : Handled.counted ⟨w.msg,some w.result⟩ = decide w.Counted := rfl
    rw [List.filter_cons,hcounted]
    by_cases hw : w.Counted
    · rw [if_pos (decide_eq_true hw),if_pos hw,List.length_cons]
      omega
    · rw [if_neg (by simpa using hw),if_neg hw]
  refine ⟨hsum.trans_le h.counted,?_,?_⟩
  · cases handled with
    | nil => simp
    | cons first rest =>
      rw [List.dropLast_cons_cons]
      exact List.forall_mem_cons.mpr ⟨hret,h.kept⟩
  · intro entry hentry hnone
    rcases List.mem_cons.mp hentry with rfl | hmem
    · cases hnone
    · exact hsum.trans (h.full entry hmem hnone)

theorem batch_isBatch (hc : count ≤ 50) : IsBatch count (batch write count made queued) := by
  induction queued generalizing count made with
  | nil => exact ⟨hc,by simp [batch],by simp [batch]⟩
  | cons msg queued ih =>
    rw [batch]
    by_cases hfull : 50 ≤ count
    · rw [if_pos hfull]
      exact .last rfl hc (fun _ => Nat.le_antisymm hc hfull)
    · rw [if_neg hfull]
      let w : Write := ⟨msg,write made⟩
      by_cases hfailed : w.ret < 0
      · rw [if_pos hfailed]
        exact .last (decide_eq_false (fun hw : w.Counted => absurd hw.1 (Int.not_le.mpr hfailed))) hc nofun
      · rw [if_neg hfailed]
        have hcount : (if w.Counted then count+1 else count) ≤ 50 := by
          split <;> omega
        exact IsBatch.cons hfailed (ih hcount)

/-- A flush that leaves messages on the queue has lost one. -/
theorem exists_lost_of_batch (h : (batch write count made queued).length < queued.length) :
    ∃ handled ∈ batch write count made queued, handled.Lost := by
  induction queued generalizing count made with
  | nil => exact absurd h (Nat.not_lt_zero _)
  | cons msg queued ih =>
    rw [batch] at h ⊢
    by_cases hfull : 50 ≤ count
    · rw [if_pos hfull]
      exact ⟨_,List.mem_singleton_self _,trivial⟩
    · rw [if_neg hfull] at h ⊢
      let w : Write := ⟨msg,write made⟩
      by_cases hfailed : w.ret < 0
      · rw [if_pos hfailed]
        exact ⟨_,List.mem_singleton_self _,hfailed⟩
      · rw [if_neg hfailed] at h ⊢
        obtain ⟨handled,hmem,hlost⟩ := ih (Nat.lt_of_succ_lt_succ h)
        exact ⟨handled,List.mem_cons_of_mem _ hmem,hlost⟩

theorem batch_split (write : ℕ → WriteResult) (count made : ℕ) (queued : List Buffer) :
    (batch write count made queued).map Handled.msg++queued.drop (batch write count made queued).length = queued := by
  induction queued generalizing count made with
  | nil => rfl
  | cons msg queued ih =>
    rw [batch]
    split
    · rfl
    · dsimp only
      split
      · rfl
      · exact congrArg (msg :: ·) (ih _ _)

end Batch

/-- The messages are handled in the order in which they were queued, in as many batches
as there were flushes. -/
structure Accounts (calls : List SessionCall) (books : Books) : Prop where
  messages : books.handled.map Handled.msg++books.queued = numbered (messagesOf calls)
  flushes : books.batches.length = flushesOf calls
  batches : ∀ handled ∈ books.batches, IsBatch 0 handled

section Accounts
variable {write : ℕ → WriteResult} {calls : List SessionCall} {books books' : Books}

theorem numbered_concat (messages : List Message) (message : Message) :
    numbered (messages++[message]) = numbered messages++[⟨messages.length,message⟩] := List.mapIdx_concat

theorem Accounts.issued (h : Accounts calls books) : books.issued = (messagesOf calls).length := by
  have hlength := congrArg List.length h.messages
  rwa [List.length_append,List.length_map,numbered_length] at hlength

theorem Accounts.call (h : Accounts calls books) {call : SessionCall} (hbook : call.book write books = some books') :
    Accounts (calls++[call]) books' := by
  cases call with
  | enqueue message =>
    rw [SessionCall.book] at hbook
    split at hbook
    · cases hbook
    obtain rfl := Option.some.inj hbook
    refine ⟨?_,?_,h.batches⟩
    · rw [messagesOf,List.filterMap_append,← messagesOf,h.issued]
      exact (List.append_assoc _ _ _).symm.trans ((congrArg (·++_) h.messages).trans (numbered_concat _ _).symm)
    · rw [h.flushes,flushesOf,flushesOf,List.countP_append]
      rfl
  | flush =>
    obtain rfl := Option.some.inj hbook
    refine ⟨?_,?_,?_⟩
    · rw [Books.handled_append,List.map_append,List.append_assoc,batch_split,h.messages,messagesOf,messagesOf,
        List.filterMap_append]
      exact congrArg numbered (List.append_nil _).symm
    · rw [List.length_append,h.flushes,flushesOf,flushesOf,List.countP_append]
      rfl
    · intro handled hmem
      rcases List.mem_append.mp hmem with hmem | hmem
      · exact h.batches handled hmem
      · rw [List.mem_singleton.mp hmem]
        exact batch_isBatch (Nat.zero_le 50)

theorem Accounts.run (h : Accounts calls books) (more : List SessionCall)
    (hbook : keepBooks write books more = some books') :
    Accounts (calls++more) books' := by
  induction more generalizing calls books with
  | nil =>
    obtain rfl := Option.some.inj hbook
    rwa [List.append_nil]
  | cons call more ih =>
    rw [keepBooks,List.foldlM_cons] at hbook
    obtain ⟨next,hnext,hbook⟩ := Option.bind_eq_some_iff.mp hbook
    have hmore := ih (h.call hnext) hbook
    rwa [List.append_assoc] at hmore

theorem emptyBooks_accounts : Accounts [] emptyBooks := ⟨rfl,rfl,nofun⟩

/-- Once the last message was taken off, nothing can be queued any more. -/
theorem keepBooks_emptied (he : books.emptied = true) (message : Message) (more : List SessionCall) :
    keepBooks write books (calls++.enqueue message :: more) = none := by
  induction calls generalizing books with
  | nil =>
    rw [keepBooks,List.nil_append,List.foldlM_cons,SessionCall.book,if_pos he]
    rfl
  | cons call calls ih =>
    rw [keepBooks,List.cons_append,List.foldlM_cons]
    cases call with
    | enqueue first =>
      rw [SessionCall.book,if_pos he]
      rfl
    | flush =>
      exact ih (by rw [he,Bool.true_or])

end Accounts

/-- No freed cell is accessed exactly if the books go on, that is unless a message is queued
after a flush took the last one. Each message is then handled once and in order, or is
still queued, and the books tell which ones were written and which ones released. -/
theorem runSession_accounts (write : ℕ → WriteResult) (calls : List SessionCall) (hlt : calls.length < UInt32.size) :
    match keepBooks write emptyBooks calls with
    | some books => Accounts calls books ∧
      ∃ session, runSession write freshSession calls = some session ∧ Follows session books
    | none => runSession write freshSession calls = none := by
  have hrun := @Follows.run write freshSession emptyBooks freshSession_follows calls ((Nat.zero_add _).trans_lt hlt)
  cases hbooks : keepBooks write emptyBooks calls with
  | none =>
    rw [hbooks] at hrun
    exact hrun
  | some books =>
    rw [hbooks] at hrun
    exact ⟨emptyBooks_accounts.run calls hbooks,hrun⟩

theorem runSession_accounts_oneHello :
    Accounts [.enqueue ⟨fun _ => 0,8⟩,.flush] ⟨[[⟨⟨0,⟨fun _ => 0,8⟩⟩,some (.room 8)⟩]],[],true⟩ ∧
      ∃ session, runSession (fun _ => .room 8) freshSession [.enqueue ⟨fun _ => 0,8⟩,.flush] = some session ∧
        Follows session ⟨[[⟨⟨0,⟨fun _ => 0,8⟩⟩,some (.room 8)⟩]],[],true⟩ :=
  runSession_accounts (fun _ => .room 8) [.enqueue ⟨fun _ => 0,8⟩,.flush] (by decide)

theorem runSession_isSome {write : ℕ → WriteResult} {calls : List SessionCall} {books : Books}
    (hlt : calls.length < UInt32.size) (h : keepBooks write emptyBooks calls = some books) :
    (runSession write freshSession calls).isSome := by
  have hrun := @Follows.run write freshSession emptyBooks freshSession_follows calls ((Nat.zero_add _).trans_lt hlt)
  rw [h] at hrun
  obtain ⟨session,hsession,-⟩ := hrun
  rw [hsession]
  rfl

/-- In a session without such an access, a flush that is followed by another message has had
nothing to send or has lost a message. -/
theorem flush_loses (write : ℕ → WriteResult) (before between after : List SessionCall) (message : Message)
    (hlt : (before++.flush :: (between++.enqueue message :: after)).length < UInt32.size)
    (h : (runSession write freshSession (before++.flush :: (between++.enqueue message :: after))).isSome) :
    ∃ books, keepBooks write emptyBooks before = some books ∧
      (books.queued = [] ∨ ∃ handled ∈ batch write 0 books.writes.length books.queued, handled.Lost) := by
  have hrun := @Follows.run write freshSession emptyBooks freshSession_follows _ ((Nat.zero_add _).trans_lt hlt)
  cases hbooks : keepBooks write emptyBooks (before++.flush :: (between++.enqueue message :: after)) with
  | none =>
    rw [hbooks] at hrun
    rw [hrun] at h
    cases h
  | some final =>
    rw [keepBooks,List.foldlM_append] at hbooks
    obtain ⟨books,hbefore,hbooks⟩ := Option.bind_eq_some_iff.mp hbooks
    refine ⟨books,hbefore,?_⟩
    rw [List.foldlM_cons] at hbooks
    obtain ⟨next,hflush,hbooks⟩ := Option.bind_eq_some_iff.mp hbooks
    have hopen : next.emptied ≠ true := fun he => by
      have hnone : keepBooks write next (between++.enqueue message :: after) = none := keepBooks_emptied he message after
      cases hnone.symm.trans hbooks
    obtain rfl := Option.some.inj hflush
    by_cases hqueued : books.queued = []
    · exact Or.inl hqueued
    · refine Or.inr (exists_lost_of_batch (Nat.lt_of_not_le (fun hle => hopen ?_)))
      have hpos : 0 < books.queued.length := List.length_pos_of_ne_nil hqueued
      have hne : (batch write 0 books.writes.length books.queued).isEmpty = false := by
        rw [List.isEmpty_eq_false_iff]
        exact List.ne_nil_of_length_pos (Nat.lt_of_lt_of_le hpos hle)
      simp only [List.drop_eq_nil_of_le hle,hne,List.isEmpty_nil,Bool.not_false,Bool.and_self,Bool.or_true]

theorem flush_loses_failedWrite :
    ∃ books, keepBooks (fun _ => .failed .eagain) emptyBooks
        [.enqueue ⟨fun _ => 0,8⟩,.enqueue ⟨fun _ => 0,8⟩] = some books ∧
      (books.queued = [] ∨
        ∃ handled ∈ batch (fun _ => .failed .eagain) 0 books.writes.length books.queued, handled.Lost) :=
  flush_loses (fun _ => .failed .eagain) [.enqueue ⟨fun _ => 0,8⟩,.enqueue ⟨fun _ => 0,8⟩] [] [] ⟨fun _ => 0,8⟩
    (by decide) (runSession_isSome (by decide) rfl)

end OpenFlowController.Channel
