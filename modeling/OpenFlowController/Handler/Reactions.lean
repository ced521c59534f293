import OpenFlowController.Handler.EchoMirror

/-! # What a switch can make the controller do

Received messages are handled one after the other on the same record, each by any of
the handlers: the dispatcher may take a handler for the header of another message.
What becomes of the record is a matter of the messages, not of what it held.
-/
namespace OpenFlowController.Handler
open Memory Access Check Protocol Queue Xid Create
variable {Q : Type}

/-- A message with its handler, and what the handler finds around it. -/
structure Delivery (Q : Type) where
  env : Environment Q
  op : RecvOp
  recvBuf : Message
  fuel : ℕ

def Delivery.run (d : Delivery Q) (tit : TransInfo Q) : Answer Q :=
  (ccRecvOps d.op).run d.env d.fuel { tit with recvBuf := d.recvBuf }

def deliver : List (Delivery Q) → TransInfo Q → Option (TransInfo Q)
  | [], tit => some tit
  | d :: deliveries, tit => do
    let (_,tit) ← d.run tit
    deliver deliveries tit

/-- What the handler of a hello goes by is a `ret` that is never assigned. -/
def Delivery.Accepted (d : Delivery Q) : Prop :=
  match d.op with
  | .recvHello => 0 ≤ d.env.strayRet
  | op => (ccRecvOps op : RecvHandler Q).Validates d.env d.recvBuf .success

/-- A message given to `enqueue_message`. -/
structure Offer (Q : Type) where
  env : Environment Q
  sendBuf : Message

/-- How many messages the queue refuses, and what becomes of it. -/
def takeOffers : List (Offer Q) → Option Q → ℕ × Option Q
  | [], sendQueue => (0,sendQueue)
  | offer :: offers, sendQueue =>
    let (ret,sendQueue) := ccInsertToSendQueue offer.env sendQueue offer.sendBuf
    let (refused,sendQueue) := takeOffers offers sendQueue
    (if ret.value < 0 then refused+1 else refused,sendQueue)

/-- The counter as it is set, the messages given to the queues, and the releases of
what was received. -/
structure Reaction (Q : Type) where
  counter : Option UInt32
  offers : List (Offer Q)
  toApp : List Message
  released : List Released

def Reaction.ofAll (reactions : List (Reaction Q)) : Reaction Q where
  counter := (reactions.filterMap Reaction.counter).getLast?
  offers := reactions.flatMap Reaction.offers
  toApp := reactions.flatMap Reaction.toApp
  released := reactions.flatMap Reaction.released

/-- The handler of a hello frees the data pointer instead of the buffer. -/
def RecvOp.refused : RecvOp → Reaction Q
  | .recvHello => ⟨none,[],[],[.recvBufData]⟩
  | _ => ⟨none,[],[],[.recvBuf]⟩

/-- No reply finds its request. -/
def RecvOp.accepted (env : Environment Q) (recvBuf : Message) (op : RecvOp) : Reaction Q :=
  let xid := UInt32.ofNat (be32 recvBuf.data 4)
  match op with
  | .recvHello =>
    ⟨some (xid+1),(ccCreateFeaturesRequest env.createHeader env.allocated (xid+1)).toList.map (Offer.mk env),[],[.recvBufData]⟩
  | .recvError => ⟨some (xid+1),[],[],[.recvBuf]⟩
  | .recvEchoRequest =>
    ⟨some (xid+1),(ccCreateEchoReply env.createHeader env.allocated (htonl xid) recvBuf).join.toList.map (Offer.mk env),
      [],[.recvBuf]⟩
  | .recvEchoReply | .recvGetConfigReply | .barrierReply => ⟨none,[],[],[.recvBuf]⟩
  | .recvVendor | .recvFlowRm | .recvPacketIn | .recvPortStatus | .recvFlowStatsReply =>
    ⟨some (xid+1),[],[recvBuf],[.recvBuf,.recvBuf]⟩

open Classical in
noncomputable def Delivery.reaction (d : Delivery Q) : Reaction Q :=
  if d.Accepted then d.op.accepted d.env d.recvBuf else d.op.refused

/-- Without the buffers of the handlers' own messages. -/
def ownReleases (released : List Released) : List Released := released.filter (fun buf => buf ≠ .sendBuf)

/-- The send queue has taken the offers one after the other, and those it refused are freed. -/
structure Reacted (tit tit' : TransInfo Q) (r : Reaction Q) : Prop where
  xidTable : tit'.xidTable = tit.xidTable
  xidLatest : tit'.xidLatest = r.counter.getD tit.xidLatest
  sendQueue : tit'.sendQueue = (takeOffers r.offers tit.sendQueue).2
  toApp : tit'.toApp = tit.toApp++r.toApp
  released : ownReleases tit'.released = ownReleases tit.released++r.released
  refused : tit'.released.count .sendBuf = tit.released.count .sendBuf+(takeOffers r.offers tit.sendQueue).1

/-- An accepted hello is answered with a features request if there is a buffer for it, an
accepted echo request with a message that encloses it, and nothing else is answered. -/
def Delivery.Answered (d : Delivery Q) : Prop :=
  match d.op with
  | .recvHello => if d.env.allocated then ∃ request, d.reaction.offers = [⟨d.env,request⟩] ∧
      Fresh request (UInt32.ofNat (be32 d.recvBuf.data 4)+1) .ofptFeaturesRequest 8
    else d.reaction.offers = []
  | .recvEchoRequest => ∃ reply, d.reaction.offers = [⟨d.env,reply⟩] ∧ Enclosed d.recvBuf reply
  | _ => d.reaction.offers = []

section Step
variable {env : Environment Q} {tit tit' : TransInfo Q} {ret : ErrorCode}

@[simp] theorem ownReleases_append (released released' : List Released) :
    ownReleases (released++released') = ownReleases released++ownReleases released' :=
  List.filter_append _ _

theorem reacted_freeBuffer (freed : Released) (hfreed : freed ≠ .sendBuf) (counter : Option UInt32) :
    Reacted tit ({ tit with xidLatest := counter.getD tit.xidLatest }.freeBuffer freed) ⟨counter,[],[],[freed]⟩ where
  xidTable := rfl
  xidLatest := rfl
  sendQueue := rfl
  toApp := (List.append_nil _).symm
  released := by simp [TransInfo.freeBuffer,ownReleases,hfreed]
  refused := by simp [TransInfo.freeBuffer,takeOffers,hfreed]

theorem reacted_sendToSwitch (freed : Released) (hfreed : freed ≠ .sendBuf) (xid : UInt32)
    (sendBuf : Option Message) :
    Reacted tit (sendToSwitch env freed { tit with xidLatest := xid } sendBuf).2
      ⟨some xid,sendBuf.toList.map (Offer.mk env),[],[freed]⟩ := by
  cases sendBuf with
  | none => exact reacted_freeBuffer freed hfreed (some xid)
  | some sendBuf =>
    simp only [sendToSwitch]
    split
    · rename_i hneg
      refine ⟨rfl,rfl,rfl,(List.append_nil _).symm,?_,?_⟩
      · simp [TransInfo.freeBuffer,ownReleases,hfreed]
      · simp [TransInfo.freeBuffer,takeOffers,hneg,hfreed]
    · rename_i hpos
      refine ⟨rfl,rfl,rfl,(List.append_nil _).symm,?_,?_⟩
      · simp [TransInfo.freeBuffer,ownReleases,hfreed]
      · simp [TransInfo.freeBuffer,takeOffers,hpos,hfreed]

theorem reacted_handOn (h : Returns (handOn env tit) tit.recvBuf.data (some (ret,tit'))) :
    Reacted tit tit' ⟨some (UInt32.ofNat (be32 tit.recvBuf.data 4)+1),[],[tit.recvBuf],[.recvBuf,.recvBuf]⟩ := by
  simp only [handOn,returns_bind,returns_hostXid,exists_eq_left',returns_pure,Option.some.injEq,passToApp_eq,
    Prod.mk.injEq] at h
  obtain ⟨-,rfl⟩ := h
  exact ⟨rfl,rfl,rfl,rfl,by simp [TransInfo.freeBuffer,ownReleases],by simp [TransInfo.freeBuffer,takeOffers]⟩

theorem reacted_answerReply {key : UInt32 → UInt32} {rest : Environment Q → TransInfo Q → ErrorCode × TransInfo Q}
    {mem : Bytes} (h : Returns (answerReply key rest env tit) mem (some (ret,tit'))) :
    Reacted tit tit' ⟨none,[],[],[.recvBuf]⟩ := by
  rw [(answerReply_eq h).2]
  exact reacted_freeBuffer .recvBuf (by decide) none

/-- One case for each handler. -/
theorem reacted_accepted {op : RecvOp}
    (h : Returns ((ccRecvOps op).accepted env tit) tit.recvBuf.data (some (ret,tit'))) :
    Reacted tit tit' (op.accepted env tit.recvBuf) := by
  cases op with
  | recvHello =>
    simp only [ccRecvOps,ccRecvHelloMsg,returns_bind,returns_hostXid,exists_eq_left',returns_pure,Option.some.injEq] at h
    have hsent := @reacted_sendToSwitch _ env tit .recvBufData (by decide) (UInt32.ofNat (be32 tit.recvBuf.data 4)+1)
      (ccCreateFeaturesRequest env.createHeader env.allocated (UInt32.ofNat (be32 tit.recvBuf.data 4)+1))
    rwa [h] at hsent
  | recvError =>
    simp only [ccRecvOps,ccRecvErrMsg,returns_bind,returns_hostXid,exists_eq_left',returns_pure,Option.some.injEq,
      Prod.mk.injEq] at h
    obtain ⟨-,rfl⟩ := h
    exact reacted_freeBuffer .recvBuf (by decide) (some _)
  | recvEchoRequest =>
    simp only [ccRecvOps,ccRecvEchoRequest,returns_bind,returns_hostXid,exists_eq_left'] at h
    split at h
    · simp at h
    · rename_i sendBuf hreply
      rw [returns_pure,Option.some.injEq] at h
      have hsent := @reacted_sendToSwitch _ env tit .recvBuf (by decide) (UInt32.ofNat (be32 tit.recvBuf.data 4)+1) sendBuf
      rw [h] at hsent
      simp only [RecvOp.accepted]
      rw [hreply]
      exact hsent
  | recvEchoReply | barrierReply => exact reacted_answerReply h
  | recvGetConfigReply =>
    simp only [ccRecvOps,ccRecvGetConfigReply] at h
    exact reacted_answerReply h
  | recvVendor | recvFlowRm | recvPacketIn | recvPortStatus | recvFlowStatsReply => exact @reacted_handOn _ env _ _ _ h

/-- The validator has to come back, whatever it says. -/
theorem hello_cases {fuel : ℕ} (h : ccRecvHelloMsg.run env fuel tit = some (ret,tit')) :
    env.strayRet < 0 ∧ tit' = tit.freeBuffer .recvBufData ∨
      0 ≤ env.strayRet ∧ Returns (ccRecvHelloMsg.accepted env tit) tit.recvBuf.data (some (ret,tit')) := by
  have hbefore : (ccRecvHelloMsg : RecvHandler Q).before env = true := rfl
  rw [RecvHandler.run,if_pos hbefore] at h
  let handler : RecvHandler Q := ccRecvHelloMsg
  have hret : ∀ code, handler.ret env code = env.strayRet := fun _ => rfl
  let recvData := handler.recvData env tit.recvBuf
  cases hcode : ((handler.validate recvData).run fuel recvData.data).1 with
  | none =>
    simp only [handler,recvData] at hcode
    simp only [hcode] at h
    cases h
  | some code =>
    simp only [handler,recvData] at hcode hret
    simp only [hcode,hret] at h
    by_cases hneg : env.strayRet < 0
    · rw [if_pos hneg] at h
      cases h
      exact Or.inl ⟨hneg,rfl⟩
    · rw [if_neg hneg] at h
      exact Or.inr ⟨Int.not_lt.mp hneg,fuel,Option.join_eq_some_iff.mp h⟩

theorem reacted_refused {op : RecvOp} (hop : op ≠ .recvHello) : Reacted tit (tit.freeBuffer .recvBuf) op.refused := by
  cases op with
  | recvHello => exact absurd rfl hop
  | _ => exact @reacted_freeBuffer _ tit .recvBuf (by decide) none

/-- A handler that comes back has done what its message calls for. -/
theorem run_reacted {op : RecvOp} {fuel : ℕ} (h : (ccRecvOps op).run env fuel tit = some (ret,tit')) :
    Reacted tit tit' (Delivery.reaction ⟨env,op,tit.recvBuf,fuel⟩) := by
  by_cases hop : op = .recvHello
  · subst hop
    have hiff : (Delivery.mk env .recvHello tit.recvBuf fuel).Accepted ↔ 0 ≤ env.strayRet := Iff.rfl
    rcases hello_cases h with ⟨hneg,rfl⟩ | ⟨hpos,haccepted⟩
    · rw [Delivery.reaction,if_neg (fun ha => Int.not_le.mpr hneg (hiff.mp ha))]
      exact @reacted_freeBuffer _ tit .recvBufData (by decide) none
    · rw [Delivery.reaction,if_pos (hiff.mpr hpos)]
      exact @reacted_accepted _ env tit tit' ret .recvHello haccepted
  · have hiff : (Delivery.mk env op tit.recvBuf fuel).Accepted ↔
        (ccRecvOps op : RecvHandler Q).Validates env tit.recvBuf .success := by
      cases op with
      | recvHello => exact absurd rfl hop
      | _ => exact Iff.rfl
    have hp : (ccRecvOps op : RecvHandler Q).Plain := RecvOp.plain hop
    rcases hp.run_cases h with ⟨code,hne,hv,rfl⟩ | ⟨hv,haccepted⟩
    · rw [Delivery.reaction,if_neg (fun ha => hne (hv.unique (hiff.mp ha)))]
      exact reacted_refused hop
    · rw [Delivery.reaction,if_pos (hiff.mpr hv)]
      exact reacted_accepted haccepted

/-- What is offered earlier is taken first. -/
theorem takeOffers_append (offers offers' : List (Offer Q)) (sendQueue : Option Q) :
    takeOffers (offers++offers') sendQueue =
      ((takeOffers offers sendQueue).1+(takeOffers offers' (takeOffers offers sendQueue).2).1,
        (takeOffers offers' (takeOffers offers sendQueue).2).2) := by
  induction offers generalizing sendQueue with
  | nil => simp [takeOffers]
  | cons offer offers ih =>
    simp only [List.cons_append,takeOffers,ih]
    split
    · rw [Nat.add_right_comm]
    · rfl

theorem Reacted.trans {tit'' : TransInfo Q} {r : Reaction Q} {reactions : List (Reaction Q)} (h : Reacted tit tit' r)
    (h' : Reacted tit' tit'' (.ofAll reactions)) : Reacted tit tit'' (.ofAll (r :: reactions)) where
  xidTable := h'.xidTable.trans h.xidTable
  xidLatest := by
    rw [h'.xidLatest,h.xidLatest,Reaction.ofAll,Reaction.ofAll,List.filterMap_cons]
    cases r.counter with
    | none => rfl
    | some counter => rw [List.getLast?_cons]; rfl
  sendQueue := by
    rw [h'.sendQueue,h.sendQueue]
    exact (congrArg Prod.snd (takeOffers_append r.offers _ _)).symm
  toApp := by rw [h'.toApp,h.toApp,List.append_assoc]; rfl
  released := by rw [h'.released,h.released,List.append_assoc]; rfl
  refused := by
    rw [h'.refused,h.refused,h.sendQueue,Nat.add_assoc]
    exact congrArg (_+·) (congrArg Prod.fst (takeOffers_append r.offers _ _)).symm

theorem Delivery.reaction_of_accepted {d : Delivery Q} (h : d.Accepted) :
    d.reaction = d.op.accepted d.env d.recvBuf :=
  if_pos h

theorem hello_answered (hh : HeaderContract env.createHeader) {recvBuf : Message}
    (hvalid : (Delivery.mk env .recvHello recvBuf fuel).Accepted) :
    (Delivery.mk env .recvHello recvBuf fuel).Answered := by
  rw [Delivery.Answered,Delivery.reaction_of_accepted hvalid]
  cases hallocated : env.allocated with
  | false =>
    simp only [RecvOp.accepted,ccCreateFeaturesRequest,hallocated,hh.refused]
    rfl
  | true =>
    obtain ⟨request,hrequest,hfresh⟩ := hh.granted (UInt32.ofNat (be32 recvBuf.data 4)+1) .ofptFeaturesRequest 8
      (by decide)
    rw [if_pos rfl]
    refine ⟨request,?_,hfresh⟩
    simp only [RecvOp.accepted,ccCreateFeaturesRequest,hallocated,hrequest]
    rfl

theorem echoRequest_answered (hh : HeaderContract env.createHeader)
    (h : (ccRecvOps .recvEchoRequest).run env fuel tit = some (ret,tit'))
    (hvalid : (Delivery.mk env .recvEchoRequest tit.recvBuf fuel).Accepted) :
    (Delivery.mk env .recvEchoRequest tit.recvBuf fuel).Answered := by
  obtain ⟨reply,hmade,henclosed,-⟩ := ccRecvEchoRequest_replies hh hvalid h
  refine ⟨reply,?_,henclosed⟩
  rw [Delivery.reaction_of_accepted hvalid]
  simp only [RecvOp.accepted,hmade]
  rfl

theorem run_answered {op : RecvOp} (hh : HeaderContract env.createHeader)
    (h : (ccRecvOps op).run env fuel tit = some (ret,tit'))
    (hvalid : (Delivery.mk env op tit.recvBuf fuel).Accepted) : (Delivery.mk env op tit.recvBuf fuel).Answered := by
  cases op with
  | recvHello => exact hello_answered hh hvalid
  | recvEchoRequest => exact echoRequest_answered hh h hvalid
  | _ => exact congrArg Reaction.offers (Delivery.reaction_of_accepted hvalid)

end Step

/-- In every run of handlers, whichever are taken for which messages: no reply is ever matched
with a request, the counter is one more than the last id that an accepted message other than a
reply came with, what the send queue holds is what it took of the answers and what it refused is
freed, and an accepted message for the applications is released twice and every other buffer
once, of a hello the data pointer. With a header at its contract an accepted echo request is
answered once, and nothing else but a hello is. -/
theorem deliver_reacts (deliveries : List (Delivery Q)) {tit tit' : TransInfo Q} (h : deliver deliveries tit = some tit') :
    Reacted tit tit' (.ofAll (deliveries.map Delivery.reaction)) ∧
      ∀ d ∈ deliveries, HeaderContract d.env.createHeader → d.Accepted → d.Answered := by
  induction deliveries generalizing tit with
  | nil =>
    obtain rfl := Option.some.inj h
    exact ⟨⟨rfl,rfl,rfl,(List.append_nil _).symm,(List.append_nil _).symm,rfl⟩,nofun⟩
  | cons d deliveries ih =>
    rw [deliver,Option.bind_eq_bind,Option.bind_eq_some_iff] at h
    obtain ⟨⟨ret,next⟩,hrun,h⟩ := h
    obtain ⟨hrest,hanswered⟩ := ih h
    have hfirst := run_reacted hrun
    have hsame : Reacted tit next d.reaction :=
      ⟨hfirst.xidTable,hfirst.xidLatest,hfirst.sendQueue,hfirst.toApp,hfirst.released,hfirst.refused⟩
    have hanswer : HeaderContract d.env.createHeader → d.Accepted → d.Answered := fun hh hvalid =>
      run_answered hh hrun hvalid
    exact ⟨hsame.trans hrest,List.forall_mem_cons.mpr ⟨hanswer,hanswered⟩⟩

/-- The queue has room for one message. -/
def narrowEnvironment : Environment (List Message) where
  place := quietEnvironment.place
  createHeader := ccCreateHeader
  allocated := true
  createMessageQueue := []
  enqueueMessage queue message := if queue.length < 1 then (.ccENone,queue++[message]) else (.ccEErr,queue)
  memoryAt _ _ := 0
  xidLatestAddress := 0
  strayAccesses := true
  strayRet := 0

/-- The second answer is refused. -/
def echoesAndPacketIn : List (Delivery (List Message)) :=
  [⟨narrowEnvironment,.recvEchoRequest,payloadEcho,0⟩,⟨narrowEnvironment,.recvPacketIn,packetIn,0⟩,
    ⟨narrowEnvironment,.recvEchoRequest,payloadEcho,0⟩]

theorem deliver_reacts_echoesAndPacketIn : ∃ tit',
    deliver echoesAndPacketIn (received packetIn ccInitXidTable) = some tit' ∧
    Reacted (received packetIn ccInitXidTable) tit' (.ofAll (echoesAndPacketIn.map Delivery.reaction)) ∧
    (Delivery.mk narrowEnvironment .recvEchoRequest payloadEcho 0).Answered := by
  obtain ⟨tit',hrun⟩ : ∃ tit', deliver echoesAndPacketIn (received packetIn ccInitXidTable) = some tit' := ⟨_,rfl⟩
  obtain ⟨hreacted,hanswered⟩ := deliver_reacts echoesAndPacketIn hrun
  exact ⟨tit',hrun,hreacted,hanswered _ List.mem_cons_self ccCreateHeader_contract ⟨0,by decide⟩⟩

end OpenFlowController.Handler
