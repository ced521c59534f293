import OpenFlowController.Handler.Release

/-! # Replies and outstanding requests

A reply should end the request it answers. Since the lookup of an xid finds
nothing, the handlers of replies treat every message as unexpected.
-/
namespace OpenFlowController.Handler
open Memory Access Check Protocol Queue Table Xid
variable {Q : Type}

inductive ReplyHandler
  | ccRecvEchoReply
  | ccRecvGetConfigReply
  | ccRecvBarrierReply
  | ccRecvStatsReply

def ReplyHandler.handler : ReplyHandler → RecvHandler Q
  | .ccRecvEchoReply => Handler.ccRecvEchoReply
  | .ccRecvGetConfigReply => Handler.ccRecvGetConfigReply
  | .ccRecvBarrierReply => Handler.ccRecvBarrierReply
  | .ccRecvStatsReply => Handler.ccRecvStatsReply

def TransInfo.replyXid (tit : TransInfo Q) : UInt32 := UInt32.ofNat (be32 tit.recvBuf.data 4)

def PassedOn (tit tit' : TransInfo Q) : ReplyHandler → Prop
  | .ccRecvEchoReply => ∃ request, tit'.toSend = tit.toSend++[request]
  | .ccRecvGetConfigReply => ∃ request, tit'.toSend = tit.toSend++[request]
  | .ccRecvBarrierReply => tit'.toApp = tit.toApp++[tit.recvBuf]
  | .ccRecvStatsReply => tit'.toApp = tit.toApp++[tit.recvBuf]

/-- The entry is in neither part of the table. -/
def Removed (place : XidPointer → ℕ) (table : XidTable) (entry : ℕ) : Prop :=
  searchBucket (atomOps place) table.xidHash (.entry entry) = some none ∧ entry ∉ table.xidEntryList

structure Unchanged (tit tit' : TransInfo Q) : Prop where
  xidTable : tit'.xidTable = tit.xidTable
  xidLatest : tit'.xidLatest = tit.xidLatest
  sendQueue : tit'.sendQueue = tit.sendQueue
  toSend : tit'.toSend = tit.toSend
  toApp : tit'.toApp = tit.toApp

/-- An answer to the xid of a live entry is treated as its reply, any other one
is refused without a trace. -/
def MatchesRequest (reply : ReplyHandler) (env : Environment Q) (s : XidState) (tit : TransInfo Q) : Prop :=
  ∃ fuel ret tit', reply.handler.run env fuel tit = some (ret,tit') ∧
    (tit.replyXid ∈ s.xids → (∃ entry, (entry,tit.replyXid) ∈ s.live ∧ Removed env.place tit'.xidTable entry) ∧
      tit'.xidLatest = tit.replyXid+1 ∧ PassedOn tit tit' reply) ∧
    (tit.replyXid ∉ s.xids → ret = .ccEErr ∧ Unchanged tit tit')

section Outcome
variable {env : Environment Q} {tit tit' : TransInfo Q} {ret : ErrorCode} {fuel : ℕ} {s : XidState}

theorem ReplyHandler.plain (reply : ReplyHandler) : (reply.handler : RecvHandler Q).Plain := by
  cases reply <;> exact ⟨rfl,rfl,rfl⟩

/-- What follows the validator is the same search for a request. -/
theorem ReplyHandler.accepted_eq (reply : ReplyHandler) :
    ∃ key rest, (reply.handler : RecvHandler Q).accepted = answerReply key rest := by
  cases reply with
  | ccRecvEchoReply => exact ⟨_,_,rfl⟩
  | ccRecvGetConfigReply => exact ⟨htonl,fun env tit => sendEchoRequest tit.xidLatest env tit,rfl⟩
  | ccRecvBarrierReply => exact ⟨_,_,rfl⟩
  | ccRecvStatsReply => exact ⟨_,_,rfl⟩

theorem ReplyHandler.run_refuses (reply : ReplyHandler)
    (hv : reply.handler.Validates env tit.recvBuf .success)
    (h : reply.handler.run env fuel tit = some (ret,tit')) : ret = .ccEErr ∧ tit' = tit.freeBuffer .recvBuf := by
  rcases reply.plain.run_cases h with ⟨code,hne,hv',-⟩ | ⟨-,haccepted⟩
  · exact (hne (hv'.unique hv)).elim
  · obtain ⟨key,rest,heq⟩ := @ReplyHandler.accepted_eq Q reply
    rw [heq] at haccepted
    exact answerReply_eq haccepted

theorem unchanged_freeBuffer : Unchanged tit (tit.freeBuffer .recvBuf) := ⟨rfl,rfl,rfl,rfl,rfl⟩

theorem not_passedOn_freeBuffer (reply : ReplyHandler) : ¬ PassedOn tit (tit.freeBuffer .recvBuf) reply := by
  have hlength {α : Type} (xs : List α) (x : α) : xs ≠ xs++[x] := by
    intro h
    have hl := congrArg List.length h
    simp at hl
  intro h
  cases reply with
  | ccRecvEchoReply =>
    obtain ⟨request,h⟩ := h
    exact hlength _ _ h
  | ccRecvGetConfigReply =>
    obtain ⟨request,h⟩ := h
    exact hlength _ _ h
  | ccRecvBarrierReply => exact hlength _ _ h
  | ccRecvStatsReply => exact hlength _ _ h

theorem ReplyHandler.run_exists (reply : ReplyHandler) (hv : reply.handler.Validates env tit.recvBuf .success)
    (hl : ∀ xid, ccLookupXidEntry env.place tit.xidTable xid = some none) :
    ∃ fuel, reply.handler.run env fuel tit = some (.ccEErr,tit.freeBuffer .recvBuf) := by
  obtain ⟨key,rest,heq⟩ := @ReplyHandler.accepted_eq Q reply
  have haccepted : Returns (reply.handler.accepted env tit) tit.recvBuf.data
      (some (.ccEErr,tit.freeBuffer .recvBuf)) := by
    rw [heq]
    simp only [answerReply,returns_bind,returns_pure]
    exact ⟨_,(returns_hostXid _).mpr rfl,by simp [matchReply,hl]⟩
  exact reply.plain.run_accepted (by cases reply <;> rfl) hv haccepted

theorem ReplyHandler.not_matchesRequest (reply : ReplyHandler)
    (hv : reply.handler.Validates env tit.recvBuf .success) (hlive : tit.replyXid ∈ s.xids) :
    ¬ MatchesRequest reply env s tit := by
  intro h
  obtain ⟨fuel,ret,tit',hrun,htaken,-⟩ := h
  obtain ⟨-,rfl⟩ := reply.run_refuses hv hrun
  exact not_passedOn_freeBuffer reply (htaken hlive).2.2

end Outcome

/-- The accepted replies that are treated as they should be: those to no request. -/
theorem matchesRequest_iff (reply : ReplyHandler) (env : Environment Q) {xidLatest : UInt32}
    {calls : List XidCall} {s : XidState} (hs : (initialState xidLatest).after env.place calls = some s)
    {tit : TransInfo Q} (ht : tit.xidTable = s.table)
    (hv : reply.handler.Validates env tit.recvBuf .success) :
    MatchesRequest reply env s tit ↔ tit.replyXid ∉ s.xids := by
  constructor
  · intro h hlive
    exact reply.not_matchesRequest hv hlive h
  · intro hnot
    have hi := (initialState_invariant xidLatest : XidInvariant env.place _).after hs
    have hl : ∀ xid, ccLookupXidEntry env.place tit.xidTable xid = some none := by
      rw [ht]
      exact hi.ccLookupXidEntry_eq
    obtain ⟨fuel,hrun⟩ := reply.run_exists hv hl
    exact ⟨fuel,_,_,hrun,fun h => (hnot h).elim,fun _ => ⟨rfl,unchanged_freeBuffer⟩⟩

def echoReply : Message := ⟨fun i => match i with | 0 => 1 | 1 => 3 | 3 => 8 | 7 => 1 | _ => 0,8⟩

/-- One insert makes the request with the next xid outstanding. -/
theorem exists_outstanding (xidLatest : UInt32) : ∃ s,
    (initialState xidLatest).after quietEnvironment.place [.insert] = some s ∧ s.xids = [nextXid xidLatest] := by
  obtain ⟨table,heq,-⟩ := (initialState_invariant xidLatest : XidInvariant alignedPlace _).insert
  refine ⟨⟨table,nextXid xidLatest,[(0,nextXid xidLatest)]⟩,?_,rfl⟩
  change (XidCall.run alignedPlace (initialState xidLatest) .insert).bind some = _
  rw [heq]
  rfl

/-- A reply with xid 1 where the request with xid 1 is outstanding, and where that with xid 8 is. -/
theorem matchesRequest_iff_outstanding : ∃ s s',
    ((initialState 0).after quietEnvironment.place [.insert] = some s ∧ s.xids = [1] ∧
      (initialState 7).after quietEnvironment.place [.insert] = some s' ∧ s'.xids = [8]) ∧
    (ReplyHandler.ccRecvEchoReply.handler).Validates quietEnvironment echoReply .success ∧
    (MatchesRequest .ccRecvEchoReply quietEnvironment s (received echoReply s.table) ↔
      (received echoReply s.table).replyXid ∉ s.xids) ∧
    (MatchesRequest .ccRecvEchoReply quietEnvironment s' (received echoReply s'.table) ↔
      (received echoReply s'.table).replyXid ∉ s'.xids) := by
  obtain ⟨s,hs,hxids⟩ := exists_outstanding 0
  obtain ⟨s',hs',hxids'⟩ := exists_outstanding 7
  have hv : ReplyHandler.ccRecvEchoReply.handler.Validates quietEnvironment echoReply .success := ⟨0,rfl⟩
  refine ⟨s,s',⟨hs,hxids.trans (by decide),hs',hxids'.trans (by decide)⟩,hv,?_,?_⟩
  · exact matchesRequest_iff .ccRecvEchoReply quietEnvironment hs rfl hv
  · exact matchesRequest_iff .ccRecvEchoReply quietEnvironment hs' rfl hv

/-- After one insert the request with xid 1 is outstanding, and its reply is refused. -/
theorem echoReply_refused : ∃ s, (initialState 0).after quietEnvironment.place [.insert] = some s ∧
    ¬ MatchesRequest .ccRecvEchoReply quietEnvironment s (received echoReply s.table) := by
  obtain ⟨s,hs,hxids⟩ := exists_outstanding 0
  have hxid : UInt32.ofNat (be32 echoReply.data 4) = nextXid 0 := by decide
  have hv : ReplyHandler.ccRecvEchoReply.handler.Validates quietEnvironment echoReply .success := ⟨0,rfl⟩
  refine ⟨s,hs,?_⟩
  exact ReplyHandler.ccRecvEchoReply.not_matchesRequest hv (hxids ▸ List.mem_singleton.mpr hxid)

end OpenFlowController.Handler
