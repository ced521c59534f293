import OpenFlowController.Channel.Sessions
import OpenFlowController.Create.FixedMessages

/-! # A connection

The senders number messages and queue them, and the flushes in between write what is
queued. The buffers are told apart by the order in which they were queued.
-/
namespace OpenFlowController.Channel
open Memory Check Queue
open Xid (XidPointer)

/-- The transaction id in the header. -/
def messageId (message : Message) : ℕ := be32 message.data 4

/-- A builder with all its arguments but the transaction id, which it puts into what it builds. -/
structure Creator where
  create : UInt32 → Option (Option Message)
  numbers : ∀ {xid : UInt32} {message : Message}, create xid = some (some message) → messageId message = xid.toNat

section Creators
variable {header : Handler.CreateHeader}

theorem messageId_fixed (hh : Create.HeaderContract header) {allocated : Bool} {m : Create.FixedMessage} {xid : UInt32}
    {message : Message} (h : m.create header allocated xid = some message) : messageId message = xid.toNat := by
  cases allocated with
  | false =>
    rw [Create.FixedMessage.create_eq,hh.refused] at h
    cases h
  | true =>
    obtain ⟨built,hbuilt,hfields⟩ := m.create_built hh xid
    obtain rfl := Option.some.inj (hbuilt.symm.trans h)
    exact hfields.xid

/-- On a header at its contract the builders are creators. -/
def Creator.fixed (hh : Create.HeaderContract header) (allocated : Bool) (m : Create.FixedMessage) : Creator where
  create xid := some (m.create header allocated xid)
  numbers h := messageId_fixed hh (Option.some.inj h)

def Creator.echoRequest (hh : Create.HeaderContract header) (allocated : Bool) (buf : Message) : Creator where
  create xid := some (Handler.ccCreateEchoRequest header allocated xid buf)
  numbers h := Send.ccCreateEchoRequest_xid hh (Option.some.inj h)

end Creators

structure Connection where
  ccSwInfo : Send.SwInfo Buffer
  issued : ℕ
  writes : List Write
  freed : List Buffer

def freshConnection : Connection := ⟨Send.ccInitSwInfo Buffer,0,[],[]⟩

def Connection.session (connection : Connection) : Session :=
  ⟨connection.issued,⟨connection.ccSwInfo.sendQueue,connection.writes,connection.freed⟩⟩

section Ops
variable {B : Type}

/-- The id is not used up. -/
def ccSendErrorMsg (create : Send.Builder B) (ccSwInfo : Send.SwInfo B) : Option (ErrorCode × Send.SwInfo B) := do
  let buf ← create ccSwInfo.xidLatest
  let (ret,sendQueue) ← enqueueMessage ccSwInfo.sendQueue buf
  return (ret,{ ccSwInfo with sendQueue })

/-- With whatever lies in the local variable `xid`. -/
def ccSendPortMod (xid : UInt32) (create : Send.Builder B) (ccSwInfo : Send.SwInfo B) :
    Option (ErrorCode × Send.SwInfo B) := do
  let sendBuf ← create xid
  if sendBuf.isNone then return (.ccEErr,ccSwInfo)
  let (ret,sendQueue) ← enqueueMessage ccSwInfo.sendQueue sendBuf
  if ret.value < 0 then return (.ccEErr,{ ccSwInfo with sendQueue })
  return (.ccENone,{ ccSwInfo with sendQueue })

inductive SendOp
  | of (sender : Send.Sender)
  | errorMsg
  | portMod (xid : UInt32)

def SendOp.run (place : XidPointer → ℕ) : SendOp → Send.Builder B → Send.SwInfo B → Option (ErrorCode × Send.SwInfo B)
  | .of sender => sender.run place
  | .errorMsg => ccSendErrorMsg
  | .portMod xid => ccSendPortMod xid

end Ops

inductive ConnectionCall
  | send (op : SendOp) (creator : Creator)
  | flush

def ConnectionCall.run (place : XidPointer → ℕ) (write : ℕ → WriteResult) (connection : Connection) :
    ConnectionCall → Option Connection
  | .send op creator => do
    let create xid := (creator.create xid).map fun built => built.map (Buffer.mk connection.issued)
    let (_,ccSwInfo) ← op.run place create connection.ccSwInfo
    let queued := ccSwInfo.sendQueue.length ≠ connection.ccSwInfo.sendQueue.length
    return { connection with ccSwInfo, issued := if queued then connection.issued+1 else connection.issued }
  | .flush => do
    let (_,sender) ← ccFlushToSecureChannel write connection.session.sender
    return { connection with
      ccSwInfo := { connection.ccSwInfo with sendQueue := sender.sendQueue }
      writes := sender.writes
      freed := sender.freed }

def runConnection (place : XidPointer → ℕ) (write : ℕ → WriteResult) (connection : Connection)
    (calls : List ConnectionCall) : Option Connection :=
  calls.foldlM (ConnectionCall.run place write) connection

section Send
variable {B : Type} {queue queue' : MessageQueue B} {ccSwInfo ccSwInfo' : Send.SwInfo B} {ret : ErrorCode}

/-- What a sender did with what was built under `xid`. -/
structure Sent (built : Option B) (before after : Send.SwInfo B) : Prop where
  table : after.xidTable = before.xidTable
  queue : (built = none ∧ after.sendQueue = before.sendQueue) ∨
    ∃ message, built = some message ∧ enqueueMessage before.sendQueue (some message) = some (.ccENone,after.sendQueue)

theorem enqueueMessage_cases {buf : Option B} (h : enqueueMessage queue buf = some (ret,queue')) :
    (buf = none ∧ queue' = queue) ∨
    ∃ message, buf = some message ∧ enqueueMessage queue (some message) = some (.ccENone,queue') := by
  cases buf with
  | none =>
    cases h
    exact .inl ⟨rfl,rfl⟩
  | some message =>
    have hret : ret = .ccENone := by
      simp only [enqueueMessage,Option.bind_eq_bind,Option.bind_eq_some_iff,Option.pure_def,Option.some.injEq,
        Prod.mk.injEq] at h
      obtain ⟨-,-,-,-,hret,-⟩ := h
      exact hret.symm
    exact .inr ⟨message,rfl,hret ▸ h⟩

theorem enqueueMessage_length {message : B} (h : enqueueMessage queue (some message) = some (ret,queue')) :
    queue'.length ≠ queue.length := by
  simp only [enqueueMessage,Option.bind_eq_bind,Option.bind_eq_some_iff,Option.pure_def,Option.some.injEq,
    Prod.mk.injEq] at h
  obtain ⟨-,-,-,-,-,rfl⟩ := h
  exact Send.add_one_ne _

theorem sendLatest_cases {nullChecked : Bool} {refused : ErrorCode → Bool} {answer : ErrorCode} {create : Send.Builder B}
    (h : Send.sendLatest nullChecked refused answer create ccSwInfo = some (ret,ccSwInfo')) :
    ∃ built, create ccSwInfo.xidLatest = some built ∧ Sent built ccSwInfo ccSwInfo' ∧
      (ccSwInfo'.xidLatest = ccSwInfo.xidLatest+1 ∨ built = none ∧ ccSwInfo'.xidLatest = ccSwInfo.xidLatest) := by
  simp only [Send.sendLatest,Option.bind_eq_bind,Option.bind_eq_some_iff] at h
  obtain ⟨built,hbuilt,h⟩ := h
  refine ⟨built,hbuilt,?_⟩
  split at h
  · rename_i hnull
    cases h
    have hnone : built = none := Option.isNone_iff_eq_none.mp (Bool.and_eq_true_iff.mp hnull).2
    exact ⟨⟨rfl,.inl ⟨hnone,rfl⟩⟩,.inr ⟨hnone,rfl⟩⟩
  · simp only [Option.bind_eq_some_iff] at h
    obtain ⟨⟨ret',queue⟩,hqueue,h⟩ := h
    split at h <;> cases h <;> exact ⟨⟨rfl,enqueueMessage_cases hqueue⟩,.inl rfl⟩

theorem generateXid_init {place : XidPointer → ℕ} (htable : ccSwInfo.xidTable = Xid.ccInitXidTable) :
    Xid.ccGenerateXid place ccSwInfo.xidTable ccSwInfo.xidLatest = some (Xid.nextXid ccSwInfo.xidLatest) := by
  rw [htable]
  exact Xid.generateXid_free ((Xid.initialState_invariant 0).ccLookupXidEntry_eq _)

/-- What has become of the counter, and which id was taken. -/
inductive Counted (built : Option B) (before : UInt32) : SendOp → UInt32 → UInt32 → Prop
  | advanced {op : SendOp} : Counted built before op before (before+1)
  | refused {op : SendOp} : built = none → Counted built before op before before
  | kept : Counted built before .errorMsg before before
  | generated : Counted built before (.of .setConfig) (Xid.nextXid before) (Xid.nextXid before)
  | unset {xid : UInt32} : Counted built before (.portMod xid) xid before

theorem sender_cases {place : XidPointer → ℕ} {sender : Send.Sender} {create : Send.Builder B}
    (htable : ccSwInfo.xidTable = Xid.ccInitXidTable) (h : sender.run place create ccSwInfo = some (ret,ccSwInfo')) :
    ∃ xid built, create xid = some built ∧ Sent built ccSwInfo ccSwInfo' ∧
      Counted built ccSwInfo.xidLatest (.of sender) xid ccSwInfo'.xidLatest := by
  cases sender with
  | setConfig =>
    simp only [Send.Sender.run,Send.ccSendSetConfig,generateXid_init htable,Option.bind_eq_bind,Option.bind_some,
      Option.bind_eq_some_iff] at h
    obtain ⟨built,hbuilt,⟨ret',queue⟩,hqueue,h⟩ := h
    refine ⟨_,built,hbuilt,?_⟩
    split at h <;> cases h <;> exact ⟨⟨rfl,enqueueMessage_cases hqueue⟩,.generated⟩
  | _ =>
    simp only [Send.Sender.run,Send.ccSendHello,Send.ccSendEchoRequest,Send.ccSendEchoReply,Send.ccSendFeaturesRequest,
      Send.ccSendGetConfigRequest,Send.ccSendPacketOut,Send.ccSendGetDescStats,Send.ccSendFlowStatsRequest,
      Send.ccSendAggregateStatsRequest,Send.ccSendPortStatsRequest,Send.ccSendQueueStatsRequest,
      Send.ccSendVendorStatsRequest] at h
    obtain ⟨built,hbuilt,hsent,hlatest | ⟨hnone,hlatest⟩⟩ := sendLatest_cases h
    · exact ⟨_,built,hbuilt,hsent,hlatest ▸ .advanced⟩
    · exact ⟨_,built,hbuilt,hsent,hlatest ▸ .refused hnone⟩

theorem SendOp.run_cases {place : XidPointer → ℕ} {op : SendOp} {create : Send.Builder B}
    (htable : ccSwInfo.xidTable = Xid.ccInitXidTable) (h : op.run place create ccSwInfo = some (ret,ccSwInfo')) :
    ∃ xid built, create xid = some built ∧ Sent built ccSwInfo ccSwInfo' ∧
      Counted built ccSwInfo.xidLatest op xid ccSwInfo'.xidLatest := by
  cases op with
  | of sender => exact sender_cases htable h
  | errorMsg =>
    simp only [SendOp.run,ccSendErrorMsg,Option.bind_eq_bind,Option.bind_eq_some_iff,Option.pure_def,Option.some.injEq,
      Prod.mk.injEq] at h
    obtain ⟨built,hbuilt,⟨ret',queue⟩,hqueue,-,rfl⟩ := h
    exact ⟨_,built,hbuilt,⟨rfl,enqueueMessage_cases hqueue⟩,.kept⟩
  | portMod xid =>
    simp only [SendOp.run,ccSendPortMod,Option.bind_eq_bind,Option.bind_eq_some_iff] at h
    obtain ⟨built,hbuilt,h⟩ := h
    refine ⟨xid,built,hbuilt,?_⟩
    split at h
    · rename_i hnull
      cases h
      exact ⟨⟨rfl,.inl ⟨Option.isNone_iff_eq_none.mp hnull,rfl⟩⟩,.unset⟩
    · simp only [Option.bind_eq_some_iff] at h
      obtain ⟨⟨ret',queue⟩,hqueue,h⟩ := h
      split at h <;> cases h <;> exact ⟨⟨rfl,enqueueMessage_cases hqueue⟩,.unset⟩

end Send
section Order
variable {ordered strictly : Prop} {ids : List ℕ} {x y : ℕ}

/-- If `ordered`, no id is smaller than an earlier one or larger than the latest; if `strictly`, none is equal either. -/
structure InOrder (ordered strictly : Prop) (ids : List ℕ) (latest : ℕ) : Prop where
  rising : ids.Pairwise fun a b => (ordered → a ≤ b) ∧ (strictly → a < b)
  below : ∀ id ∈ ids, (ordered → id ≤ latest) ∧ (strictly → id < latest)

theorem InOrder.nil (ordered strictly : Prop) (latest : ℕ) : InOrder ordered strictly [] latest := ⟨List.Pairwise.nil,nofun⟩

theorem InOrder.mono (h : InOrder ordered strictly ids x) (hle : x ≤ y) : InOrder ordered strictly ids y :=
  ⟨h.rising,fun id hid => ⟨fun ho => ((h.below id hid).1 ho).trans hle,fun hs => ((h.below id hid).2 hs).trans_le hle⟩⟩

/-- The next id is the latest, or follows it. -/
theorem InOrder.concat (h : InOrder ordered strictly ids x) (hle : x ≤ y) (id : ℕ) (hid : ordered → x ≤ id ∧ id ≤ y)
    (hstrict : strictly → x ≤ id ∧ id < y) : InOrder ordered strictly (ids++[id]) y := by
  constructor
  · rw [List.pairwise_append]
    refine ⟨h.rising,List.pairwise_singleton _ _,fun a ha b hb => ?_⟩
    rw [List.mem_singleton.mp hb]
    exact ⟨fun ho => ((h.below a ha).1 ho).trans (hid ho).1,fun hs => ((h.below a ha).2 hs).trans_le (hstrict hs).1⟩
  · intro a ha
    rw [List.mem_append,List.mem_singleton] at ha
    rcases ha with ha | rfl
    · exact (h.mono hle).below a ha
    · exact ⟨fun ho => (hid ho).2,fun hs => (hstrict hs).2⟩

end Order

/-- A port modification has an id that nobody set. -/
def ConnectionCall.Unset : ConnectionCall → Prop
  | .send (.portMod _) _ => True
  | _ => False

/-- An error leaves its id, and a configuration the one generated for it, to the next message. -/
def ConnectionCall.Shares : ConnectionCall → Prop
  | .send .errorMsg _ => True
  | .send (.of .setConfig) _ => True
  | _ => False

def Ordered (calls : List ConnectionCall) : Prop := ∀ call ∈ calls, ¬ call.Unset

def StrictlyOrdered (calls : List ConnectionCall) : Prop := ∀ call ∈ calls, ¬ call.Unset ∧ ¬ call.Shares

section Runs
variable {place : XidPointer → ℕ} {write : ℕ → WriteResult} {connection connection' : Connection}
variable {ordered strictly : Prop} {ids : List ℕ}

/-- A call is one of the session on the queue, or none, and what it queues has the next id. -/
theorem ConnectionCall.run_session {call : ConnectionCall} (hrun : call.run place write connection = some connection')
    (htable : connection.ccSwInfo.xidTable = Xid.ccInitXidTable) (hlt : connection.ccSwInfo.xidLatest.toNat+1 < UInt32.size)
    (hordered : ordered → ¬ call.Unset) (hstrict : strictly → ¬ call.Unset ∧ ¬ call.Shares)
    (h : InOrder ordered strictly ids connection.ccSwInfo.xidLatest.toNat) :
    connection'.ccSwInfo.xidTable = Xid.ccInitXidTable ∧
    connection'.ccSwInfo.xidLatest.toNat ≤ connection.ccSwInfo.xidLatest.toNat+1 ∧
    ∃ calls : List SessionCall, calls.length ≤ 1 ∧ runSession write connection.session calls = some connection'.session ∧
      InOrder ordered strictly (ids++(messagesOf calls).map messageId) connection'.ccSwInfo.xidLatest.toNat := by
  cases call with
  | flush =>
    simp only [ConnectionCall.run,Option.bind_eq_bind,Option.bind_eq_some_iff,Option.pure_def,Option.some.injEq] at hrun
    obtain ⟨⟨ret,sender⟩,hflush,rfl⟩ := hrun
    refine ⟨htable,Nat.le_succ _,[.flush],Nat.le_refl 1,?_,by simpa [messagesOf] using h⟩
    simp only [runSession,List.foldlM_cons,List.foldlM_nil,SessionCall.run,Option.bind_eq_bind,hflush]
    rfl
  | send sender creator =>
    simp only [ConnectionCall.run,Option.bind_eq_bind,Option.bind_eq_some_iff,Option.pure_def,Option.some.injEq] at hrun
    obtain ⟨⟨ret,ccSwInfo⟩,hsend,rfl⟩ := hrun
    obtain ⟨xid,built,hbuilt,⟨htable',hqueue⟩,hcounted⟩ := SendOp.run_cases htable hsend
    have hbounds : connection.ccSwInfo.xidLatest.toNat ≤ ccSwInfo.xidLatest.toNat ∧
        ccSwInfo.xidLatest.toNat ≤ connection.ccSwInfo.xidLatest.toNat+1 ∧
        (built ≠ none →
          (ordered → connection.ccSwInfo.xidLatest.toNat ≤ xid.toNat ∧ xid.toNat ≤ ccSwInfo.xidLatest.toNat) ∧
          (strictly → connection.ccSwInfo.xidLatest.toNat ≤ xid.toNat ∧ xid.toNat < ccSwInfo.xidLatest.toNat)) := by
      have hadd := Send.toNat_add_one hlt
      have hnext := Send.toNat_nextXid hlt
      generalize ccSwInfo.xidLatest = latest at hcounted ⊢
      cases hcounted with
      | advanced => omega
      | refused hnone => exact ⟨Nat.le_refl _,Nat.le_succ _,fun hsome => absurd hnone hsome⟩
      | kept =>
        exact ⟨Nat.le_refl _,Nat.le_succ _,fun _ => ⟨fun _ => ⟨Nat.le_refl _,Nat.le_refl _⟩,
          fun hs => absurd trivial (hstrict hs).2⟩⟩
      | generated =>
        exact ⟨by omega,by omega,fun _ => ⟨fun _ => ⟨by omega,Nat.le_refl _⟩,fun hs => absurd trivial (hstrict hs).2⟩⟩
      | unset =>
        exact ⟨Nat.le_refl _,Nat.le_succ _,fun _ => ⟨fun ho => absurd trivial (hordered ho),
          fun hs => absurd trivial (hstrict hs).1⟩⟩
    obtain ⟨hrises,hstep,hid⟩ := hbounds
    refine ⟨htable'.trans htable,hstep,?_⟩
    rcases hqueue with ⟨-,hsame⟩ | ⟨message,rfl,henqueue⟩
    · refine ⟨[],Nat.zero_le 1,?_,by simpa [messagesOf] using h.mono hrises⟩
      rw [if_neg (by rw [hsame]; exact not_not.mpr rfl)]
      exact congrArg some (by rw [Connection.session,Connection.session,hsame])
    · obtain ⟨created,hcreated,hmessage⟩ := Option.map_eq_some_iff.mp hbuilt
      obtain ⟨m,rfl,rfl⟩ := Option.map_eq_some_iff.mp hmessage
      obtain ⟨hfrom,hbelow⟩ := hid (Option.some_ne_none _)
      refine ⟨[.enqueue m],Nat.le_refl 1,?_,?_⟩
      · rw [if_pos (enqueueMessage_length henqueue)]
        simp only [runSession,List.foldlM_cons,List.foldlM_nil,SessionCall.run,Connection.session,henqueue,
          Option.bind_eq_bind,Option.bind_some,Option.pure_def]
      · rw [← creator.numbers hcreated] at hfrom hbelow
        exact h.concat hrises (messageId m) hfrom hbelow

theorem messagesOf_append (calls more : List SessionCall) : messagesOf (calls++more) = messagesOf calls++messagesOf more :=
  List.filterMap_append

theorem runConnection_session {calls : List ConnectionCall} (hrun : runConnection place write connection calls = some connection')
    (htable : connection.ccSwInfo.xidTable = Xid.ccInitXidTable)
    (hlt : connection.ccSwInfo.xidLatest.toNat+calls.length < UInt32.size)
    (hordered : ordered → Ordered calls) (hstrict : strictly → StrictlyOrdered calls)
    (h : InOrder ordered strictly ids connection.ccSwInfo.xidLatest.toNat) :
    ∃ sessionCalls : List SessionCall, sessionCalls.length ≤ calls.length ∧
      runSession write connection.session sessionCalls = some connection'.session ∧
      InOrder ordered strictly (ids++(messagesOf sessionCalls).map messageId) connection'.ccSwInfo.xidLatest.toNat := by
  induction calls generalizing connection ids with
  | nil =>
    obtain rfl := Option.some.inj hrun
    exact ⟨[],Nat.le_refl 0,rfl,by simpa [messagesOf] using h⟩
  | cons call calls ih =>
    rw [runConnection,List.foldlM_cons] at hrun
    obtain ⟨between,hcall,hrun⟩ := Option.bind_eq_some_iff.mp hrun
    rw [List.length_cons] at hlt
    obtain ⟨htable',hstep,first,hfirst,hrunFirst,horder⟩ := ConnectionCall.run_session hcall htable (by omega)
      (fun ho => hordered ho call List.mem_cons_self) (fun hs => hstrict hs call List.mem_cons_self) h
    obtain ⟨rest,hrest,hrunRest,horder'⟩ := ih hrun htable' (by omega)
      (fun ho later hlater => hordered ho later (List.mem_cons_of_mem _ hlater))
      (fun hs later hlater => hstrict hs later (List.mem_cons_of_mem _ hlater)) horder
    refine ⟨first++rest,?_,?_,?_⟩
    · rw [List.length_append,List.length_cons]
      omega
    · rw [runSession] at hrunFirst ⊢
      rw [List.foldlM_append,hrunFirst]
      exact hrunRest
    · rwa [messagesOf_append,List.map_append,← List.append_assoc]

end Runs

section Written

theorem writes_sublist (handled : List Handled) :
    ((handled.filterMap Handled.write).map Write.msg).Sublist (handled.map Handled.msg) := by
  induction handled with
  | nil => exact List.Sublist.refl _
  | cons first handled ih =>
    rcases first with ⟨msg,_ | result⟩
    · exact ih.cons msg
    · exact ih.cons_cons msg

theorem numbered_messages (messages : List Message) : (numbered messages).map Buffer.message = messages := by
  refine List.ext_getElem (by simp [numbered]) fun i hi hi' => ?_
  simp [numbered]

theorem books_of_session {write : ℕ → WriteResult} {calls : List SessionCall} {session : Session}
    (hlt : calls.length < UInt32.size) (hsession : runSession write freshSession calls = some session) :
    ∃ books, keepBooks write emptyBooks calls = some books ∧ Follows session books := by
  have hfollows := @Follows.run write freshSession emptyBooks freshSession_follows calls ((Nat.zero_add _).trans_lt hlt)
  cases hbooks : keepBooks write emptyBooks calls with
  | none =>
    rw [hbooks] at hfollows
    cases hfollows.symm.trans hsession
  | some books =>
    rw [hbooks] at hfollows
    obtain ⟨session',hrun,hfollows⟩ := hfollows
    obtain rfl := Option.some.inj (hrun.symm.trans hsession)
    exact ⟨books,rfl,hfollows⟩

end Written

/-- On the wire no transaction id is smaller than an earlier one as long as no port is modified, however
queueing and flushing alternate, and none occurs twice if neither errors nor configurations are sent. -/
theorem runConnection_inOrder (place : XidPointer → ℕ) (write : ℕ → WriteResult) (calls : List ConnectionCall)
    (hlt : calls.length < UInt32.size) {connection : Connection}
    (hrun : runConnection place write freshConnection calls = some connection) :
    InOrder (Ordered calls) (StrictlyOrdered calls) (connection.writes.map fun w => messageId w.msg.message)
      connection.ccSwInfo.xidLatest.toNat := by
  obtain ⟨sessionCalls,hlength,hsession,horder⟩ := runConnection_session hrun rfl
    (by rwa [show freshConnection.ccSwInfo.xidLatest.toNat = 0 from rfl,Nat.zero_add]) id id (InOrder.nil _ _ _)
  obtain ⟨books,hbooks,hfollows⟩ := books_of_session (by omega) hsession
  have hmessages := congrArg (List.map Buffer.message) (emptyBooks_accounts.run sessionCalls hbooks).messages
  rw [List.nil_append,numbered_messages,List.map_append] at hmessages
  have hwritten : (connection.writes.map fun w => messageId w.msg.message).Sublist
      ((messagesOf sessionCalls).map messageId) := by
    rw [← hmessages,show connection.writes = books.writes from hfollows.writes,Books.writes]
    have hsub := ((writes_sublist books.handled).map Buffer.message).trans
      (List.sublist_append_left _ (books.queued.map Buffer.message))
    simpa only [List.map_map,Function.comp_def] using hsub.map messageId
  exact ⟨horder.rising.sublist hwritten,fun id hid => horder.below id (hwritten.subset hid)⟩

/-- A flush always comes back, after whatever session. -/
theorem ccFlushToSecureChannel_returns {write : ℕ → WriteResult} {calls : List SessionCall} {session : Session}
    (hlt : calls.length+1 < UInt32.size) (hsession : runSession write freshSession calls = some session) :
    ∃ ret sender, ccFlushToSecureChannel write session.sender = some (ret,sender) := by
  obtain ⟨books,hbooks,-⟩ := books_of_session (Nat.lt_of_succ_lt hlt) hsession
  have hflush : keepBooks write emptyBooks (calls++[.flush]) = SessionCall.flush.book write books := by
    rw [keepBooks] at hbooks ⊢
    rw [List.foldlM_append,hbooks]
    exact bind_pure (SessionCall.flush.book write books)
  obtain ⟨session',hreturned⟩ := Option.isSome_iff_exists.mp
    (runSession_isSome (by rwa [List.length_append]) hflush)
  rw [runSession] at hsession hreturned
  rw [List.foldlM_append,hsession] at hreturned
  obtain ⟨_,hsame,hrest⟩ := Option.bind_eq_some_iff.mp hreturned
  obtain rfl := Option.some.inj hsame
  obtain ⟨_,hrun,-⟩ := Option.bind_eq_some_iff.mp hrest
  obtain ⟨⟨ret,sender⟩,hreturned,-⟩ := Option.bind_eq_some_iff.mp hrun
  exact ⟨ret,sender,hreturned⟩

def helloThenFlush : List ConnectionCall :=
  [.send (.of .hello) (.fixed Create.ccCreateHeader_contract true .hello),.flush]

theorem runConnection_inOrder_helloThenFlush :
    ∃ connection, runConnection (fun _ => 0) (fun _ => .room 8) freshConnection helloThenFlush = some connection ∧
      InOrder (Ordered helloThenFlush) (StrictlyOrdered helloThenFlush) (connection.writes.map fun w => messageId w.msg.message)
        connection.ccSwInfo.xidLatest.toNat := by
  obtain ⟨queued,hqueued⟩ : ∃ queued, (ConnectionCall.send (.of .hello)
      (.fixed Create.ccCreateHeader_contract true .hello)).run (fun _ => 0) (fun _ => .room 8) freshConnection = some queued := ⟨_,rfl⟩
  obtain ⟨-,-,calls,hlength,hsession,-⟩ := ConnectionCall.run_session hqueued rfl (by decide) nofun nofun
    (InOrder.nil False False 0)
  obtain ⟨ret,sender,hflush⟩ := ccFlushToSecureChannel_returns (Nat.lt_of_le_of_lt (Nat.succ_le_succ hlength) (by decide))
    hsession
  have hrun : runConnection (fun _ => 0) (fun _ => .room 8) freshConnection helloThenFlush = some
      { queued with
        ccSwInfo := { queued.ccSwInfo with sendQueue := sender.sendQueue }
        writes := sender.writes
        freed := sender.freed } := by
    rw [runConnection,helloThenFlush,List.foldlM_cons,hqueued]
    simp only [Option.bind_eq_bind,Option.bind_some,List.foldlM_cons,List.foldlM_nil,ConnectionCall.run,hflush]
    rfl
  exact ⟨_,hrun,runConnection_inOrder (fun _ => 0) (fun _ => .room 8) helloThenFlush (by decide) hrun⟩

end OpenFlowController.Channel
