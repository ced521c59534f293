import OpenFlowController.Create.ActionMessages
import OpenFlowController.Send.Senders
import OpenFlowController.Xid.XidRuns

/-! # The transaction ids of queued requests

Six senders on a fresh switch record. Most take the latest id and move the counter
on behind it; `cc_send_set_config` moves the counter first and leaves it on the id
it has taken. `cc_create_header` is a parameter with a contract.
-/
namespace OpenFlowController.Send
open Memory Check Protocol Handler Queue Create Xid

def ccCreateHello (header : CreateHeader) (allocated : Bool) (xid : UInt32) : Option Message :=
  header allocated xid .ofptHello 8

def ccCreateGetConfigRequest (header : CreateHeader) (allocated : Bool) (transactionId : UInt32) : Option Message :=
  header allocated transactionId .ofptGetConfigRequest 8

/-- The buffer of the header is not compared with NULL before it is used. -/
def ccCreateSetConfig (header : CreateHeader) (allocated : Bool) (transactionId : UInt32) (flags missSendLen : UInt16) :
    Option Message := do
  let setConfig ← header allocated transactionId .ofptSetConfig 12
  return { setConfig with data := storeNet (storeNet setConfig.data 8 2 flags.toNat) 10 2 missSendLen.toNat }

def ofpcFragNormal : UInt16 := 0

/-- The local variables of `cc_send_packet_out`, which nothing initialises. -/
structure PacketOutLocals where
  bufferId : UInt32
  inPort : UInt16
  actions : Option OpenflowActions
  data : Option Message

/-- A call with whether `cc_create_header` gets its buffer, and with what lies in
uninitialised variables; to `cc_create_echo_request` NULL is like an empty buffer. -/
inductive SendCall
  | hello (allocated : Bool)
  | echoRequest (allocated : Bool) (buf : Message)
  | featuresRequest (allocated : Bool)
  | getConfigRequest (allocated : Bool)
  | setConfig (allocated : Bool)
  | packetOut (allocated : Bool) (locals : PacketOutLocals)

/-- What the source leaves open: the constant `CC_ERROR`, which is returned for a
buffer, may be NULL or not. The builders are given the way to a header. -/
structure Undeclared where
  header : CreateHeader
  place : XidPointer → ℕ
  ethFcsLength : ℕ
  ethMinimumLength : ℕ
  getActionsLength : OpenflowActions → ℕ
  ccErrorNull : Bool

/-- A queued pointer that is not `CC_ERROR` leads to a message. -/
def Undeclared.pointer (env : Undeclared) : PacketOut → Option PacketOut
  | .ccError => if env.ccErrorNull then none else some .ccError
  | .buffer message => some (.buffer message)

def SendCall.run (env : Undeclared) : SendCall → SwInfo PacketOut → Option (ErrorCode × SwInfo PacketOut)
  | .hello allocated => ccSendHello (fun xid => some ((ccCreateHello env.header allocated xid).map .buffer))
  | .echoRequest allocated buf => ccSendEchoRequest (fun xid => some ((ccCreateEchoRequest env.header allocated xid buf).map .buffer))
  | .featuresRequest allocated =>
    ccSendFeaturesRequest (fun xid => some ((ccCreateFeaturesRequest env.header allocated xid).map .buffer))
  | .getConfigRequest allocated =>
    ccSendGetConfigRequest (fun xid => some ((ccCreateGetConfigRequest env.header allocated xid).map .buffer))
  | .setConfig allocated =>
    ccSendSetConfig env.place
      (fun xid => (ccCreateSetConfig env.header allocated xid ofpcFragNormal 65535).map
        (fun message => some (.buffer message)))
  | .packetOut allocated ⟨bufferId,inPort,actions,data⟩ =>
    ccSendPacketOut (fun xid => (ccCreatePacketOutWith env.header env.ethFcsLength env.ethMinimumLength
      env.getActionsLength allocated xid bufferId inPort actions data).map env.pointer)

def runSends (env : Undeclared) : List SendCall → SwInfo PacketOut → Option (SwInfo PacketOut)
  | [], ccSwInfo => some ccSwInfo
  | call :: calls, ccSwInfo => do
    let (_,ccSwInfo) ← call.run env ccSwInfo
    runSends env calls ccSwInfo

def headerXid : PacketOut → Option ℕ
  | .ccError => none
  | .buffer message => some (be32 message.data 4)

def xidsOf (pending : List PacketOut) : List ℕ := pending.filterMap headerXid

/-- What a call does to the counter and the queue. -/
inductive Effect
  /-- Nothing at all. -/
  | nothing
  /-- An id is given up. -/
  | skipped
  /-- A message gets the latest id. -/
  | numbered
  /-- A message gets a generated id. -/
  | generated

/-- From the arguments alone. Where a buffer is missing that is not compared with
NULL, the call does not come back. -/
def SendCall.effect (env : Undeclared) : SendCall → Effect
  | .hello allocated => if allocated then .numbered else .skipped
  | .echoRequest allocated _ => if allocated then .numbered else .nothing
  | .featuresRequest allocated => if allocated then .numbered else .nothing
  | .getConfigRequest allocated => if allocated then .numbered else .skipped
  | .setConfig _ => .generated
  | .packetOut _ locals =>
    if payloadRejected env.ethFcsLength env.ethMinimumLength locals.bufferId locals.data then
      if env.ccErrorNull then .nothing else .skipped
    else .numbered

/-- The next call that leaves a trace puts a message with the latest id. -/
def Reissues : List Effect → Prop
  | [] => False
  | .nothing :: effects => Reissues effects
  | .skipped :: _ => False
  | .numbered :: _ => True
  | .generated :: _ => False

/-- No generated id is the latest one for a later message. -/
def NoneReissued : List Effect → Prop
  | [] => True
  | .generated :: effects => ¬ Reissues effects ∧ NoneReissued effects
  | _ :: effects => NoneReissued effects

/-! ## Counting -/

def Effect.counter : Effect → UInt32 → UInt32
  | .nothing, x => x
  | .skipped, x => x+1
  | .numbered, x => x+1
  | .generated, x => nextXid x

def Effect.issued : Effect → UInt32 → List ℕ
  | .nothing, _ => []
  | .skipped, _ => []
  | .numbered, x => [x.toNat]
  | .generated, x => [(nextXid x).toNat]

def issuedIds : List Effect → UInt32 → List ℕ
  | [], _ => []
  | effect :: effects, x => effect.issued x++issuedIds effects (effect.counter x)

section Counting
variable {x : UInt32} {effect : Effect} {effects : List Effect}

theorem toNat_add_one (h : x.toNat+1 < 2^32) : (x+1).toNat = x.toNat+1 := by
  rw [UInt32.toNat_add,UInt32.toNat_one,Nat.mod_eq_of_lt h]

theorem toNat_nextXid (h : x.toNat+1 < 2^32) : (nextXid x).toNat = x.toNat+1 := by
  have hmax : x ≠ uint32Max := by
    rintro rfl
    exact absurd h (by decide)
  rw [nextXid,if_pos hmax,toNat_add_one h]

theorem Effect.counter_toNat (h : x.toNat+1 < 2^32) : (effect.counter x).toNat =
    match effect with
    | .nothing => x.toNat
    | _ => x.toNat+1 := by
  cases effect with
  | nothing => rfl
  | skipped | numbered => exact toNat_add_one h
  | generated => exact toNat_nextXid h

theorem Effect.counter_bounds (h : x.toNat+(effect :: effects).length < 2^32) :
    x.toNat ≤ (effect.counter x).toNat ∧ (effect.counter x).toNat+effects.length < 2^32 := by
  rw [List.length_cons] at h
  rw [Effect.counter_toNat (by omega)]
  cases effect <;> simp only <;> omega

/-- Nothing below the counter is given out again. -/
theorem le_of_mem_issuedIds (h : x.toNat+effects.length < 2^32) {y : ℕ} (hy : y ∈ issuedIds effects x) :
    x.toNat ≤ y := by
  induction effects generalizing x with
  | nil => cases hy
  | cons effect effects ih =>
    obtain ⟨hle,hlt⟩ := Effect.counter_bounds h
    rw [List.length_cons] at h
    rcases List.mem_append.mp hy with hy | hy
    · cases effect with
      | nothing | skipped => cases hy
      | numbered => exact (List.mem_singleton.mp hy).ge
      | generated =>
        rw [List.mem_singleton.mp hy,toNat_nextXid (by omega)]
        exact Nat.le_succ _
    · exact hle.trans (ih hlt hy)

theorem not_mem_issuedIds {y : ℕ} (h : (x+1).toNat+effects.length < 2^32) (hy : y < (x+1).toNat) :
    y ∉ issuedIds effects (x+1) := fun hmem => absurd (le_of_mem_issuedIds h hmem) (Nat.not_le.mpr hy)

theorem mem_issuedIds_iff (h : x.toNat+effects.length < 2^32) : x.toNat ∈ issuedIds effects x ↔ Reissues effects := by
  induction effects with
  | nil => exact iff_of_false List.not_mem_nil id
  | cons effect effects ih =>
    obtain ⟨-,hlt⟩ := Effect.counter_bounds h
    rw [List.length_cons] at h
    cases effect with
    | nothing => exact ih hlt
    | skipped => exact iff_of_false (not_mem_issuedIds hlt (by rw [toNat_add_one (by omega)]; omega)) id
    | numbered => exact iff_of_true List.mem_cons_self trivial
    | generated =>
      have hnext : (nextXid x).toNat = x.toNat+1 := toNat_nextXid (by omega)
      refine iff_of_false (fun hy => ?_) id
      rcases List.mem_cons.mp hy with hy | hy
      · omega
      · have hle := le_of_mem_issuedIds hlt hy
        simp only [Effect.counter] at hle
        omega

theorem issuedIds_nodup_iff (h : x.toNat+effects.length < 2^32) :
    (issuedIds effects x).Nodup ↔ NoneReissued effects := by
  induction effects generalizing x with
  | nil => exact iff_of_true List.nodup_nil trivial
  | cons effect effects ih =>
    obtain ⟨-,hlt⟩ := Effect.counter_bounds h
    rw [List.length_cons] at h
    cases effect with
    | nothing | skipped => exact ih hlt
    | numbered =>
      have hnew : x.toNat ∉ issuedIds effects (x+1) :=
        not_mem_issuedIds hlt (by rw [toNat_add_one (by omega)]; omega)
      exact List.nodup_cons.trans ((and_iff_right hnew).trans (ih hlt))
    | generated => exact List.nodup_cons.trans (and_congr (not_congr (mem_issuedIds_iff hlt)) (ih hlt))

end Counting

/-! ## Sending -/

section Sending
variable {env : Undeclared} {ccSwInfo ccSwInfo' : SwInfo PacketOut} {pending : List PacketOut} {ret : ErrorCode}

/-- A builder that leaves the header as it is. -/
theorem xid_of_header {header : CreateHeader} (hh : HeaderContract header) {allocated : Bool} {xid : UInt32}
    {type : OfpType} {length : ℕ} {buffer : Message} {data : Bytes} (hl : length < 65536)
    (hbuffer : header allocated xid type length = some buffer) (hfront : ∀ i < 8, data i = buffer.data i) :
    be32 data 4 = xid.toNat := by
  rw [← hh.xid hl hbuffer,← netAt_four,← netAt_four]
  exact netAt_congr (fun i _ hu => hfront i hu)

theorem ccCreateEchoRequest_xid {header : CreateHeader} (hh : HeaderContract header) {allocated : Bool} {xid : UInt32}
    {buf buffer : Message} (h : ccCreateEchoRequest header allocated xid buf = some buffer) :
    be32 buffer.data 4 = xid.toNat := by
  simp only [ccCreateEchoRequest,Option.bind_eq_bind,Option.bind_eq_some_iff,Option.pure_def,Option.some.injEq] at h
  obtain ⟨buffer,hbuffer,rfl⟩ := h
  exact xid_of_header hh (Nat.mod_lt _ (by decide)) hbuffer (fun i hi => if_neg (by omega))

theorem isSome_ccCreateEchoRequest {header : CreateHeader} (hh : HeaderContract header) (allocated : Bool) (xid : UInt32)
    (buf : Message) : (ccCreateEchoRequest header allocated xid buf).isSome = allocated := by
  have hsome := hh.isSome (Nat.mod_lt (8+buf.length%65536) (show 0 < 65536 by decide)) allocated xid .ofptEchoRequest
  rw [ccCreateEchoRequest]
  cases hbuffer : header allocated xid .ofptEchoRequest ((8+buf.length%65536)%65536) <;> rw [hbuffer] at hsome <;>
    exact hsome

theorem ccCreateSetConfig_xid {header : CreateHeader} (hh : HeaderContract header) {allocated : Bool} {xid : UInt32}
    {flags missSendLen : UInt16} {buffer : Message}
    (h : ccCreateSetConfig header allocated xid flags missSendLen = some buffer) : be32 buffer.data 4 = xid.toNat := by
  simp only [ccCreateSetConfig,Option.bind_eq_bind,Option.bind_eq_some_iff,Option.pure_def,Option.some.injEq] at h
  obtain ⟨buffer,hbuffer,rfl⟩ := h
  exact xid_of_header hh (by decide) hbuffer
    (fun i hi => (storeNet_outside (by omega)).trans (storeNet_outside (by omega)))

theorem fillActions_before {length start : ℕ} {actions : Option OpenflowActions} {data filled : Bytes}
    (h : fillActions length start actions data = some filled) {i : ℕ} (hi : i < start) : filled i = data i := by
  rw [fillActions] at h
  split at h
  · simp only [Option.bind_eq_bind,Option.bind_eq_some_iff] at h
    obtain ⟨actions,-,h⟩ := h
    exact writeEach_before h hi
  · rw [Option.some.inj h]

/-- The packet to send is rejected, or the message has its id. -/
theorem ccCreatePacketOut_xid {header : CreateHeader} (hh : HeaderContract header) {ethFcsLength ethMinimumLength : ℕ}
    {getActionsLength : OpenflowActions → ℕ} {allocated : Bool} {xid bufferId : UInt32} {inPort : UInt16}
    {actions : Option OpenflowActions} {data : Option Message} {out : PacketOut}
    (h : ccCreatePacketOutWith header ethFcsLength ethMinimumLength getActionsLength allocated xid bufferId inPort actions
      data = some out) :
    if payloadRejected ethFcsLength ethMinimumLength bufferId data then out = .ccError
    else ∃ buffer, out = .buffer buffer ∧ be32 buffer.data 4 = xid.toNat := by
  rw [ccCreatePacketOutWith] at h
  split at h
  · rename_i hrejected
    rw [if_pos hrejected]
    exact (Option.some.inj h).symm
  · rename_i hrejected
    rw [if_neg hrejected]
    simp only [Option.bind_eq_bind,Option.bind_eq_some_iff,Option.pure_def,Option.some.injEq] at h
    obtain ⟨buffer,hbuffer,filled,hfilled,placed,hplaced,rfl⟩ := h
    refine ⟨_,rfl,xid_of_header hh (Nat.mod_lt _ (by decide)) hbuffer (fun i hi => ?_)⟩
    refine (placePayload_outside hplaced (Or.inl (by omega))).trans <| (fillActions_before hfilled (by omega)).trans ?_
    exact (storeNet_outside (by omega)).trans <|
      (storeNet_outside (by omega)).trans (storeNet_outside (by omega))

/-- The call has had this effect. -/
def Served (ccSwInfo : SwInfo PacketOut) (pending : List PacketOut) (effect : Effect) (ccSwInfo' : SwInfo PacketOut) :
    Prop :=
  ccSwInfo'.xidLatest = effect.counter ccSwInfo.xidLatest ∧ ccSwInfo'.xidTable = ccSwInfo.xidTable ∧
    ∃ pending', Queued ccSwInfo'.sendQueue pending' ∧
      xidsOf pending' = xidsOf pending++effect.issued ccSwInfo.xidLatest

/-- What becomes of a buffer in a sender that takes the latest id. -/
def latestEffect (nullChecked : Bool) : Option PacketOut → Effect
  | none => if nullChecked then .nothing else .skipped
  | some .ccError => .skipped
  | some (.buffer _) => .numbered

theorem xidsOf_append (pending : List PacketOut) (out : PacketOut) :
    xidsOf (pending++[out]) = xidsOf pending++(headerXid out).toList := by
  cases out <;> simp [xidsOf,headerXid]

theorem sendLatest_served {nullChecked : Bool} {refused : ErrorCode → Bool} {answer : ErrorCode}
    {create : Builder PacketOut} {built : Option PacketOut} (hq : Queued ccSwInfo.sendQueue pending)
    (hc : create ccSwInfo.xidLatest = some built)
    (hxid : ∀ message, built = some (.buffer message) → be32 message.data 4 = ccSwInfo.xidLatest.toNat)
    (hrun : sendLatest nullChecked refused answer create ccSwInfo = some (ret,ccSwInfo')) :
    Served ccSwInfo pending (latestEffect nullChecked built) ccSwInfo' := by
  cases built with
  | none =>
    have hsame : xidsOf pending = xidsOf pending++[] := (List.append_nil _).symm
    cases nullChecked with
    | false =>
      obtain ⟨-,rfl⟩ := Prod.mk.inj (Option.some.inj ((sendLatest_unchecked hc _ _).symm.trans hrun))
      exact ⟨rfl,rfl,pending,hq,hsame⟩
    | true =>
      obtain ⟨-,rfl⟩ := Prod.mk.inj (Option.some.inj ((sendLatest_checked hc _ _).symm.trans hrun))
      exact ⟨rfl,rfl,pending,hq,hsame⟩
  | some out =>
    obtain ⟨sendQueue,hq',hsent⟩ := sendLatest_built hq create hc nullChecked refused answer
    obtain ⟨-,rfl⟩ := Prod.mk.inj (Option.some.inj (hsent.symm.trans hrun))
    cases out with
    | ccError => exact ⟨rfl,rfl,_,hq',xidsOf_append pending .ccError⟩
    | buffer message =>
      refine ⟨rfl,rfl,_,hq',(xidsOf_append pending _).trans ?_⟩
      rw [headerXid,hxid message rfl]
      rfl

theorem ccGenerateXid_fresh {place : XidPointer → ℕ} (ht : ccSwInfo.xidTable = ccInitXidTable) :
    ccGenerateXid place ccSwInfo.xidTable ccSwInfo.xidLatest = some (nextXid ccSwInfo.xidLatest) := by
  rw [ht]
  exact generateXid_free ((initialState_invariant 0).ccLookupXidEntry_eq _)

theorem ccSendSetConfig_built {message : PacketOut} (place : XidPointer → ℕ) (create : Builder PacketOut)
    (hq : Queued ccSwInfo.sendQueue pending) (ht : ccSwInfo.xidTable = ccInitXidTable)
    (hc : create (nextXid ccSwInfo.xidLatest) = some (some message)) :
    ∃ sendQueue, Queued sendQueue (pending++[message]) ∧ ccSendSetConfig place create ccSwInfo =
      some (.ccEErr,{ ccSwInfo with xidLatest := nextXid ccSwInfo.xidLatest, sendQueue }) := by
  obtain ⟨sendQueue,heq,hq'⟩ := hq.enqueueMessage message
  refine ⟨sendQueue,hq',?_⟩
  simp only [ccSendSetConfig,ccGenerateXid_fresh ht,hc,heq,Option.bind_eq_bind,Option.bind_some]
  rfl

/-- The builders that return a message with its id where they get a buffer, and NULL otherwise. -/
theorem sendLatest_map_served {nullChecked allocated : Bool} {refused : ErrorCode → Bool} {answer : ErrorCode}
    {make : UInt32 → Option Message} (hxid : ∀ xid message, make xid = some message → be32 message.data 4 = xid.toNat)
    (hsome : ∀ xid, (make xid).isSome = allocated) (hq : Queued ccSwInfo.sendQueue pending)
    (hrun : sendLatest nullChecked refused answer (fun xid => some ((make xid).map .buffer)) ccSwInfo =
      some (ret,ccSwInfo')) :
    Served ccSwInfo pending (if allocated then .numbered else if nullChecked then .nothing else .skipped) ccSwInfo' := by
  have hs := sendLatest_served hq rfl (fun message hm => ?_) hrun
  · have hgranted := hsome ccSwInfo.xidLatest
    cases hmake : make ccSwInfo.xidLatest <;> rw [hmake] at hs hgranted <;> subst hgranted <;> exact hs
  · obtain ⟨buffer,hbuffer,hbuf⟩ := Option.map_eq_some_iff.mp hm
    obtain rfl := PacketOut.buffer.inj hbuf
    exact hxid _ _ hbuffer

theorem ccSendSetConfig_served (hh : HeaderContract env.header) {allocated : Bool} (hq : Queued ccSwInfo.sendQueue pending)
    (ht : ccSwInfo.xidTable = ccInitXidTable)
    (hrun : SendCall.run env (.setConfig allocated) ccSwInfo = some (ret,ccSwInfo')) :
    Served ccSwInfo pending .generated ccSwInfo' := by
  cases hset : ccCreateSetConfig env.header allocated (nextXid ccSwInfo.xidLatest) ofpcFragNormal 65535 with
  | none => simp [SendCall.run,ccSendSetConfig,ccGenerateXid_fresh ht,hset] at hrun
  | some message =>
    obtain ⟨sendQueue,hq',hsent⟩ := ccSendSetConfig_built env.place
      (fun xid => (ccCreateSetConfig env.header allocated xid ofpcFragNormal 65535).map
        (fun message => some (.buffer message))) hq ht (by rw [hset]; rfl)
    obtain ⟨-,rfl⟩ := Prod.mk.inj (Option.some.inj (hsent.symm.trans hrun))
    refine ⟨rfl,rfl,_,hq',(xidsOf_append pending _).trans ?_⟩
    rw [headerXid,ccCreateSetConfig_xid hh hset]
    rfl

theorem ccSendPacketOut_served (hh : HeaderContract env.header) {allocated : Bool} {locals : PacketOutLocals} (hq : Queued ccSwInfo.sendQueue pending)
    (hrun : SendCall.run env (.packetOut allocated locals) ccSwInfo = some (ret,ccSwInfo')) :
    Served ccSwInfo pending ((SendCall.packetOut allocated locals).effect env) ccSwInfo' := by
  simp only [SendCall.run,ccSendPacketOut] at hrun
  cases hout : ccCreatePacketOutWith env.header env.ethFcsLength env.ethMinimumLength env.getActionsLength allocated
      ccSwInfo.xidLatest locals.bufferId locals.inPort locals.actions locals.data with
  | none => simp [sendLatest,hout] at hrun
  | some out =>
    have hxid := ccCreatePacketOut_xid hh hout
    simp only [SendCall.effect]
    split at hxid
    · rename_i hrejected
      subst hxid
      have hs := sendLatest_served hq (by simp only [hout]; rfl) (by simp [Undeclared.pointer]) hrun
      simp only [hrejected]
      cases hnull : env.ccErrorNull <;> simpa [Undeclared.pointer,hnull,latestEffect] using hs
    · rename_i hrejected
      obtain ⟨buffer,rfl,hxid⟩ := hxid
      have hs := sendLatest_served hq (by simp only [hout]; rfl) (by simpa [Undeclared.pointer] using hxid) hrun
      simpa [hrejected,Undeclared.pointer,latestEffect] using hs

/-- Step lemma: a call that comes back has the effect its arguments tell. -/
theorem SendCall.run_served (hh : HeaderContract env.header) {call : SendCall} (hq : Queued ccSwInfo.sendQueue pending)
    (ht : ccSwInfo.xidTable = ccInitXidTable) (hrun : call.run env ccSwInfo = some (ret,ccSwInfo')) :
    Served ccSwInfo pending (call.effect env) ccSwInfo' := by
  have hheader : ∀ {allocated type} xid message, env.header allocated xid type 8 = some message →
      be32 message.data 4 = xid.toNat := fun _ _ => hh.xid (by decide)
  have hsome : ∀ allocated type xid, (env.header allocated xid type 8).isSome = allocated := fun allocated type xid =>
    hh.isSome (by decide) allocated xid type
  cases call with
  | hello allocated =>
    simp only [SendCall.run,ccSendHello] at hrun
    exact sendLatest_map_served hheader (hsome allocated .ofptHello) hq hrun
  | echoRequest allocated buf =>
    simp only [SendCall.run,ccSendEchoRequest] at hrun
    exact sendLatest_map_served (fun _ _ h => ccCreateEchoRequest_xid hh h)
      (fun xid => isSome_ccCreateEchoRequest hh allocated xid buf) hq hrun
  | featuresRequest allocated =>
    simp only [SendCall.run,ccSendFeaturesRequest] at hrun
    exact sendLatest_map_served hheader (hsome allocated .ofptFeaturesRequest) hq hrun
  | getConfigRequest allocated =>
    simp only [SendCall.run,ccSendGetConfigRequest] at hrun
    exact sendLatest_map_served hheader (hsome allocated .ofptGetConfigRequest) hq hrun
  | setConfig allocated => exact ccSendSetConfig_served hh hq ht hrun
  | packetOut allocated locals => exact ccSendPacketOut_served hh hq hrun

/-- Run lemma: the ids on the queue are those the effects give out. -/
theorem runSends_issues (hh : HeaderContract env.header) {calls : List SendCall} (hq : Queued ccSwInfo.sendQueue pending)
    (ht : ccSwInfo.xidTable = ccInitXidTable) (hrun : runSends env calls ccSwInfo = some ccSwInfo') :
    ∃ pending', Queued ccSwInfo'.sendQueue pending' ∧
      xidsOf pending' = xidsOf pending++issuedIds (calls.map (SendCall.effect env)) ccSwInfo.xidLatest := by
  induction calls generalizing ccSwInfo pending with
  | nil =>
    obtain rfl := Option.some.inj hrun
    exact ⟨pending,hq,(List.append_nil _).symm⟩
  | cons call calls ih =>
    simp only [runSends,Option.bind_eq_bind,Option.bind_eq_some_iff,Prod.exists] at hrun
    obtain ⟨ret,next,hcall,hrun⟩ := hrun
    obtain ⟨hcounter,htable,queued,hq',hxids⟩ := SendCall.run_served hh hq ht hcall
    obtain ⟨pending',hq'',heq⟩ := ih hq' (htable.trans ht) hrun
    refine ⟨pending',hq'',?_⟩
    rw [heq,hxids,hcounter,List.append_assoc]
    rfl

/-- The exact runs on a fresh record in which no id is used twice, for any way to a header that
keeps the contract. -/
theorem sentXids_nodup_iff (hh : HeaderContract env.header) {calls : List SendCall} (hfew : calls.length < 2^32)
    (hrun : runSends env calls (ccInitSwInfo PacketOut) = some ccSwInfo) :
    ∃ pending, Queued ccSwInfo.sendQueue pending ∧
      ((xidsOf pending).Nodup ↔ NoneReissued (calls.map (SendCall.effect env))) := by
  obtain ⟨pending,hq,hxids⟩ := runSends_issues hh (ccInitSwInfo_queued PacketOut) rfl hrun
  refine ⟨pending,hq,?_⟩
  rw [hxids]
  exact issuedIds_nodup_iff (by simpa [ccInitSwInfo] using hfew)

theorem exists_runSends (hh : HeaderContract env.header) (calls : List SendCall)
    (hcalls : ∀ call ∈ calls, call = .hello true ∨ call = .setConfig true)
    (hq : Queued ccSwInfo.sendQueue pending) (ht : ccSwInfo.xidTable = ccInitXidTable) :
    ∃ ccSwInfo', runSends env calls ccSwInfo = some ccSwInfo' := by
  induction calls generalizing ccSwInfo pending with
  | nil => exact ⟨ccSwInfo,rfl⟩
  | cons call calls ih =>
    have hcall : ∃ ret next, call.run env ccSwInfo = some (ret,next) := by
      rcases hcalls call List.mem_cons_self with rfl | rfl
      · obtain ⟨buffer,hbuffer,-⟩ := hh.granted ccSwInfo.xidLatest .ofptHello 8 (by decide)
        have hbuilt : some ((ccCreateHello env.header true ccSwInfo.xidLatest).map PacketOut.buffer) =
            some (some (.buffer buffer)) := by
          rw [show ccCreateHello env.header true ccSwInfo.xidLatest = some buffer from hbuffer]
          rfl
        obtain ⟨_,-,hsent⟩ := sendLatest_built hq
          (fun xid => some ((ccCreateHello env.header true xid).map PacketOut.buffer)) hbuilt false
          (fun ret => ret ≠ .ccENone) .ccENone
        exact ⟨_,_,hsent⟩
      · obtain ⟨buffer,hbuffer,-⟩ := hh.granted (nextXid ccSwInfo.xidLatest) .ofptSetConfig 12 (by decide)
        obtain ⟨_,-,hsent⟩ := ccSendSetConfig_built env.place
          (fun xid => (ccCreateSetConfig env.header true xid ofpcFragNormal 65535).map
            (fun message => some (.buffer message))) hq ht (by rw [ccCreateSetConfig,hbuffer]; rfl)
        exact ⟨_,_,hsent⟩
    obtain ⟨ret,next,hcall⟩ := hcall
    obtain ⟨-,htable,_,hq',-⟩ := SendCall.run_served hh hq ht hcall
    obtain ⟨ccSwInfo',hrun⟩ := ih (fun c hc => hcalls c (List.mem_cons_of_mem call hc)) hq' (htable.trans ht)
    exact ⟨ccSwInfo',by rw [runSends,hcall]; exact hrun⟩

def smallFrames : Undeclared := ⟨ccCreateHeader,alignedPlace,4,64,fun actions => 8*actions.list.length,true⟩

theorem sentXids_nodup_iff_hello_setConfig :
    ∃ ccSwInfo, runSends smallFrames [.hello true,.setConfig true] (ccInitSwInfo PacketOut) = some ccSwInfo ∧
      ∃ pending, Queued ccSwInfo.sendQueue pending ∧ (xidsOf pending).Nodup := by
  have hh : HeaderContract smallFrames.header := ccCreateHeader_contract
  obtain ⟨ccSwInfo,hrun⟩ := exists_runSends hh [.hello true,.setConfig true] (by simp)
    (ccInitSwInfo_queued PacketOut) rfl
  obtain ⟨pending,hq,hnodup⟩ := sentXids_nodup_iff hh (by decide) hrun
  exact ⟨ccSwInfo,hrun,pending,hq,hnodup.mpr ⟨not_false,trivial⟩⟩

/-- Where the configuration is set first, the hello behind it gets the same id. -/
theorem setConfig_hello_not_nodup :
    ∃ ccSwInfo, runSends smallFrames [.setConfig true,.hello true] (ccInitSwInfo PacketOut) = some ccSwInfo ∧
      ∀ pending, Queued ccSwInfo.sendQueue pending → ¬ (xidsOf pending).Nodup := by
  have hh : HeaderContract smallFrames.header := ccCreateHeader_contract
  obtain ⟨ccSwInfo,hrun⟩ := exists_runSends hh [.setConfig true,.hello true] (by simp)
    (ccInitSwInfo_queued PacketOut) rfl
  obtain ⟨pending,hq,hxids⟩ := runSends_issues hh (ccInitSwInfo_queued PacketOut) rfl hrun
  refine ⟨ccSwInfo,hrun,fun pending' hq' => ?_⟩
  rw [hq'.unique hq,hxids]
  decide

end Sending
end OpenFlowController.Send
