import OpenFlowController.Create.ActionLists
import OpenFlowController.Create.Builders

/-! # Flow modifications and packets to send

The two messages of the controller that carry actions. A packet follows its
actions; whether it may be sent without a buffered copy is decided first.
-/
namespace OpenFlowController.Create
open Memory Access Check Protocol Handler OpenFlowController.Convert

/-- The arguments of `cc_create_flow_mod` besides the actions. -/
structure FlowMod where
  m : Bytes
  cookie : UInt64
  command : UInt16
  idleTimeout : UInt16
  hardTimeout : UInt16
  priority : UInt16
  bufferId : UInt32
  outPort : UInt16
  flags : UInt16

def htonMatch (dst src : Bytes) : Bytes := ofpMatch.convert 0 src dst

/-- The fields between the header and the actions. -/
def FlowMod.store (flowMod : FlowMod) (data : Bytes) : Bytes :=
  let data := splice data 8 (htonMatch (window data 8) flowMod.m)
  let data := storeNet data 48 8 flowMod.cookie.toNat
  let data := storeNet data 56 2 flowMod.command.toNat
  let data := storeNet data 58 2 flowMod.idleTimeout.toNat
  let data := storeNet data 60 2 flowMod.hardTimeout.toNat
  let data := storeNet data 62 2 flowMod.priority.toNat
  let data := storeNet data 64 4 flowMod.bufferId.toNat
  let data := storeNet data 68 2 flowMod.outPort.toNat
  storeNet data 70 2 flowMod.flags.toNat

def ccCreateFlowMod (getActionsLength : OpenflowActions → ℕ) (allocated : Bool) (transactionId : UInt32)
    (flowMod : FlowMod) (actions : Option OpenflowActions) : Option Message := do
  let length := actionsLength getActionsLength actions
  let buffer ← ccCreateHeader allocated transactionId .ofptFlowMod ((72+length)%65536)
  return { buffer with data := ← fillActions length 72 actions (flowMod.store buffer.data) }

/-- No packet, or one shorter than an Ethernet frame, where none is buffered. -/
def payloadRejected (ethFcsLength ethMinimumLength : ℕ) (bufferId : UInt32) (data : Option Message) : Bool :=
  bufferId.toNat == uintMax && match data with
    | none => true
    | some data => (data.length+ethFcsLength)%2^64 < ethMinimumLength

def payloadLength : Option Message → ℕ
  | some data => data.length
  | none => 0

def placePayload (length start : ℕ) (data : Option Message) (filled : Bytes) : Option Bytes :=
  if length > 0 then do return copyInto filled start (← data).data length else some filled

inductive PacketOut
  | ccError
  | buffer (message : Message)

def ccCreatePacketOutWith (header : CreateHeader) (ethFcsLength ethMinimumLength : ℕ)
    (getActionsLength : OpenflowActions → ℕ) (allocated : Bool) (transactionId bufferId : UInt32) (inPort : UInt16)
    (actions : Option OpenflowActions) (data : Option Message) : Option PacketOut := do
  let dataLength := payloadLength data%65536
  if payloadRejected ethFcsLength ethMinimumLength bufferId data then return .ccError
  let length := actionsLength getActionsLength actions
  let buffer ← header allocated transactionId .ofptPacketOut ((16+length+dataLength)%65536)
  let fields := storeNet (storeNet (storeNet buffer.data 8 4 bufferId.toNat) 12 2 inPort.toNat) 14 2 length
  let filled ← fillActions length 16 actions fields
  return .buffer { buffer with data := ← placePayload dataLength (16+length) data filled }

def ccCreatePacketOut : ℕ → ℕ → (OpenflowActions → ℕ) → Bool → UInt32 → UInt32 → UInt16 → Option OpenflowActions →
    Option Message → Option PacketOut := ccCreatePacketOutWith ccCreateHeader

/-- What `validate_flow_mod` demands, of the arguments in host order. -/
structure FlowMod.Accepted (flowMod : FlowMod) : Prop where
  matched : validateMatch (hostMatchAt flowMod.m 0) = .success
  command : flowMod.command.toNat ≤ ofpfcDeleteStrict
  priority : (hostMatchAt flowMod.m 0).Exact → flowMod.priority.toNat = ushrtMax
  outPort : flowMod.command.toNat = ofpfcDelete ∨ flowMod.command.toNat = ofpfcDeleteStrict →
    flowMod.outPort.toNat ≠ ofppNone → validatePhyPortNo flowMod.outPort.toNat = .success
  flags : bitsOutside flowMod.flags.toNat flowModFlags = 0

structure FlowMod.CarriedIn (flowMod : FlowMod) (data : Bytes) : Prop where
  m : matchAt data 8 = hostMatchAt flowMod.m 0
  cookie : netAt data 48 8 = flowMod.cookie.toNat
  command : be16 data 56 = flowMod.command.toNat
  idleTimeout : be16 data 58 = flowMod.idleTimeout.toNat
  hardTimeout : be16 data 60 = flowMod.hardTimeout.toNat
  priority : be16 data 62 = flowMod.priority.toNat
  bufferId : be32 data 64 = flowMod.bufferId.toNat
  outPort : be16 data 68 = flowMod.outPort.toNat
  flags : be16 data 70 = flowMod.flags.toNat

/-- A message of the length it says, with the actions from `start` on: each in network
order, and `ntoh_action` gives it back. -/
structure CarriesActions (message : Message) (start : ℕ) (list : List HostAction) (rest : ℕ) : Prop where
  length : message.length = start+totalSize HostAction.len list+rest
  lengthField : be16 message.data 2 = message.length
  actions : WalksTo (fun q => be16 message.data (q+2))
    (fun q action => action.CarriedIn (window message.data q) ∧ action.DecodedFrom (window message.data q))
    (start+totalSize HostAction.len list) start list

structure PacketCarriedIn (bufferId : UInt32) (inPort : UInt16) (length : ℕ) (data : Option Message)
    (mem : Bytes) : Prop where
  bufferId : be32 mem 8 = bufferId.toNat
  inPort : be16 mem 12 = inPort.toNat
  actionsLen : be16 mem 14 = length
  payload : ∀ packet, data = some packet → ∀ i < packet.length, mem (16+length+i) = packet.data i

section Rules
variable {flowMod : FlowMod} {data : Bytes}

/-- In front of the fields there are the header and the match. -/
theorem FlowMod.store_front (flowMod : FlowMod) (data : Bytes) {i : ℕ} (hi : i < 48) :
    flowMod.store data i = splice data 8 (htonMatch (window data 8) flowMod.m) i := by
  simp only [FlowMod.store]
  rw [storeNet_outside (by omega),storeNet_outside (by omega),storeNet_outside (by omega),
    storeNet_outside (by omega),storeNet_outside (by omega),storeNet_outside (by omega),
    storeNet_outside (by omega),storeNet_outside (by omega)]

theorem FlowMod.carriedIn {before : Bytes} (h : ∀ i < 72, data i = flowMod.store before i) :
    flowMod.CarriedIn data := by
  have hread : ∀ o width, o+width ≤ 72 → netAt data o width = netAt (flowMod.store before) o width :=
    fun o width ho => netAt_congr (fun i _ hu => h i (by omega))
  have hmatch : ofpMatch.Converted 0 flowMod.m (window data 8) := by
    refine (ofpMatch.converted_convert 0 flowMod.m (window before 8)).congr (fun i _ hi => ?_)
    have hi : i < 40 := by simpa [ofpMatch] using hi
    rw [window,h (8+i) (by omega),FlowMod.store_front _ _ (by omega),splice_at]
    rfl
  have hm : matchAt data (8+0) = hostMatchAt flowMod.m 0 := matchAt_eq hmatch
  refine ⟨hm,?cookie,?_,?_,?_,?_,?_,?_,?_⟩
  case cookie =>
    rw [hread 48 8 (by omega)]
    simp only [FlowMod.store,netAt_storeNet_of_disjoint,Nat.reduceAdd,Nat.reduceLeDiff,true_or,netAt_uint64]
  all_goals
    simp only [← netAt_two,← netAt_four]
    rw [hread _ _ (by omega)]
    simp only [FlowMod.store,netAt_storeNet_of_disjoint,Nat.reduceAdd,Nat.reduceLeDiff,true_or,netAt_uint16,
      netAt_uint32]

theorem FlowMod.CarriedIn.accepted (h : flowMod.CarriedIn data) (ha : flowMod.Accepted) :
    FlowModFieldsAccepted data := by
  refine ⟨?_,?_,?_,?_,?_⟩
  · rw [h.m]
    exact ha.matched
  · rw [h.command]
    exact ha.command
  · rw [ExactPriority,h.m,h.priority]
    exact ha.priority
  · rw [h.command,h.outPort]
    exact ha.outPort
  · rw [h.flags]
    exact ha.flags

theorem ccCreateFlowMod_accepted {getActionsLength : OpenflowActions → ℕ} (hget : SumsLengths getActionsLength)
    (transactionId : UInt32) (actions : Option (List HostAction)) (ha : flowMod.Accepted)
    (hfits : 72+totalSize HostAction.len (actions.getD []) ≤ 65535) :
    ∃ message, ccCreateFlowMod getActionsLength true transactionId flowMod (hostActions actions) = some message ∧
      Returns (validateFlowMod message) message.data .success ∧ flowMod.CarriedIn message.data ∧
      CarriesActions message 72 (actions.getD []) 0 := by
  generalize hlist : totalSize HostAction.len (actions.getD []) = length at hfits
  have hlength : actionsLength getActionsLength (hostActions actions) = length := by
    rw [actionsLength_eq hget actions (by omega),hlist]
  have hlt : 72+length < 65536 := by omega
  obtain ⟨buffer,hbuffer,hsize,hheader⟩ := ccCreateHeader_fresh transactionId .ofptFlowMod hlt
  obtain ⟨data,hfill,hplaced,hframe⟩ := fillActions_placed actions 72 (flowMod.store buffer.data)
  have hheader : HasHeader data .ofptFlowMod buffer.length := hsize ▸ hheader.congr
    (fun i hi => (hframe i (by omega)).trans ((flowMod.store_front _ (by omega)).trans (splice_before hi)))
  have hcarried := FlowMod.carriedIn hframe
  have hactions := hplaced.accepted (by omega)
  rw [hlist] at hactions hfill
  have haccepted : HeaderAccepted { buffer with data } .ofptFlowMod 72 ushrtMax :=
    HasHeader.accepted hheader (by simp only [hsize]; omega) (by simp only [hsize]; omega) (hsize ▸ hfits)
  refine ⟨{ buffer with data },?_,?_,hcarried,⟨by simp only [hsize,hlist]; rfl,hheader.length,hplaced.carried⟩⟩
  · rw [ccCreateFlowMod,hlength,Nat.mod_eq_of_lt hlt,hbuffer]
    simp [hfill]
  · refine returns_validateFlowMod.mpr ⟨haccepted,hcarried.accepted ha,?_⟩
    simp only [hsize,Nat.add_sub_cancel_left]
    exact hactions

/-- The fields in front of the actions, as long as nothing is written over them. -/
theorem packetCarriedIn {buffer mem : Bytes} {bufferId : UInt32} {inPort : UInt16} {length : ℕ}
    {payload : Option Message} (hlt : length < 65536)
    (h : ∀ i < 16, mem i = storeNet (storeNet (storeNet buffer 8 4 bufferId.toNat) 12 2 inPort.toNat) 14 2 length i)
    (hp : ∀ packet, payload = some packet → ∀ i < packet.length, mem (16+length+i) = packet.data i) :
    PacketCarriedIn bufferId inPort length payload mem := by
  have hread : ∀ o width, o+width ≤ 16 → netAt mem o width =
      netAt (storeNet (storeNet (storeNet buffer 8 4 bufferId.toNat) 12 2 inPort.toNat) 14 2 length) o width :=
    fun o width ho => netAt_congr (fun i _ hu => h i (by omega))
  refine ⟨?_,?_,?_,hp⟩
  · rw [← netAt_four,hread 8 4 (by omega)]
    simp only [netAt_storeNet_of_disjoint,Nat.reduceAdd,Nat.reduceLeDiff,true_or,netAt_uint32]
  · rw [← netAt_two,hread 12 2 (by omega)]
    simp only [netAt_storeNet_of_disjoint,Nat.reduceAdd,Nat.reduceLeDiff,true_or,netAt_uint16]
  · rw [← netAt_two,hread 14 2 (by omega),netAt_storeNet _ 14 hlt]

theorem exists_placePayload {length : ℕ} {payload : Option Message} (h : length ≤ payloadLength payload) (start : ℕ)
    (filled : Bytes) : ∃ mem, placePayload length start payload filled = some mem := by
  rw [placePayload]
  split
  · rename_i hpos
    cases payload with
    | none => exact absurd (hpos.trans_le h) (Nat.lt_irrefl 0)
    | some packet => exact ⟨_,rfl⟩
  · exact ⟨filled,rfl⟩

theorem placePayload_outside {length start i : ℕ} {payload : Option Message} {filled mem : Bytes}
    (h : placePayload length start payload filled = some mem) (hi : i < start ∨ start+length ≤ i) :
    mem i = filled i := by
  rw [placePayload] at h
  split at h
  · simp only [Option.bind_eq_bind,Option.bind_eq_some_iff,Option.pure_def,Option.some.injEq] at h
    obtain ⟨packet,-,rfl⟩ := h
    exact if_neg (by omega)
  · rw [Option.some.inj h]

/-- As much of the payload arrives as is asked for. -/
theorem placePayload_inside {length start i : ℕ} {packet : Message} {filled mem : Bytes}
    (h : placePayload length start (some packet) filled = some mem) (hi : i < length) :
    mem (start+i) = packet.data i := by
  rw [placePayload,if_pos (by omega)] at h
  rw [← Option.some.inj h,copyInto,if_pos (by omega),Nat.add_sub_cancel_left]

theorem ccCreatePacketOut_accepted {ethFcsLength ethMinimumLength : ℕ} {getActionsLength : OpenflowActions → ℕ}
    (hget : SumsLengths getActionsLength) (transactionId : UInt32) {bufferId : UInt32} {inPort : UInt16}
    (actions : Option (List HostAction)) {payload : Option Message}
    (hport : validatePhyPortNo inPort.toNat = .success)
    (hkept : payloadRejected ethFcsLength ethMinimumLength bufferId payload = false)
    (hfits : 16+totalSize HostAction.len (actions.getD [])+payloadLength payload ≤ 65535) :
    ∃ message, ccCreatePacketOut ethFcsLength ethMinimumLength getActionsLength true transactionId bufferId inPort
        (hostActions actions) payload = some (.buffer message) ∧
      Returns (validatePacketOut message) message.data .success ∧
      PacketCarriedIn bufferId inPort (totalSize HostAction.len (actions.getD [])) payload message.data ∧
      CarriesActions message 16 (actions.getD []) (payloadLength payload) := by
  generalize hlist : totalSize HostAction.len (actions.getD []) = length at hfits
  have hlength : actionsLength getActionsLength (hostActions actions) = length := by
    rw [actionsLength_eq hget actions (by omega),hlist]
  have hdata : payloadLength payload%65536 = payloadLength payload := Nat.mod_eq_of_lt (by omega)
  have hlt : 16+length+payloadLength payload < 65536 := by omega
  obtain ⟨buffer,hbuffer,hsize,hheader⟩ := ccCreateHeader_fresh transactionId .ofptPacketOut hlt
  let fields := storeNet (storeNet (storeNet buffer.data 8 4 bufferId.toNat) 12 2 inPort.toNat) 14 2 length
  obtain ⟨filled,hfill,hplaced,hframe⟩ := fillActions_placed actions 16 fields
  obtain ⟨mem,hmem⟩ := exists_placePayload (Nat.le_refl (payloadLength payload)) (16+length) filled
  have hkeeps : ∀ i < 16+length, mem i = filled i := fun i hi => placePayload_outside hmem (Or.inl hi)
  have hpayload : ∀ packet, payload = some packet → ∀ i < packet.length, mem (16+length+i) = packet.data i := by
    rintro packet rfl i hi
    exact placePayload_inside hmem hi
  have hplaced : ActionsPlaced mem 16 (actions.getD []) := hplaced.congr (fun i _ hu => hkeeps i (hlist ▸ hu))
  have hcarried : PacketCarriedIn bufferId inPort length payload mem :=
    packetCarriedIn (by omega) (fun i hi => (hkeeps i (by omega)).trans (hframe i hi)) hpayload
  have hfront : ∀ i < 8, mem i = buffer.data i := fun i hi => (hkeeps i (by omega)).trans <|
    (hframe i (by omega)).trans <| (storeNet_outside (by omega)).trans <| (storeNet_outside (by omega)).trans
    (storeNet_outside (by omega))
  have hheader : HasHeader mem .ofptPacketOut buffer.length := hsize ▸ hheader.congr hfront
  have hactions := hplaced.accepted (by omega)
  rw [hlist] at hactions hfill
  have haccepted : HeaderAccepted { buffer with data := mem } .ofptPacketOut 16 ushrtMax :=
    HasHeader.accepted hheader (by simp only [hsize]; omega) (by simp only [hsize]; omega) (hsize ▸ hfits)
  refine ⟨{ buffer with data := mem },?_,?_,hcarried,⟨by simp only [hsize,hlist],hheader.length,hplaced.carried⟩⟩
  · simp only [ccCreatePacketOut,ccCreatePacketOutWith,hlength,hdata,Nat.mod_eq_of_lt hlt,hbuffer,hkept]
    simp only [fields] at hfill
    simp [hfill,hmem]
  · refine returns_validatePacketOut.mpr ⟨haccepted,?_,?_⟩
    · simpa only [hcarried.inPort] using hport
    · simpa only [hcarried.actionsLen] using hactions

end Rules

theorem actionMessages_accepted (ethFcsLength ethMinimumLength : ℕ) {getActionsLength : OpenflowActions → ℕ}
    (hget : SumsLengths getActionsLength) (transactionId : UInt32) (actions : Option (List HostAction)) :
    (∀ flowMod : FlowMod, flowMod.Accepted → 72+totalSize HostAction.len (actions.getD []) ≤ 65535 →
      ∃ message, ccCreateFlowMod getActionsLength true transactionId flowMod (hostActions actions) = some message ∧
        Returns (validateFlowMod message) message.data .success ∧ flowMod.CarriedIn message.data ∧
        CarriesActions message 72 (actions.getD []) 0) ∧
    (∀ (bufferId : UInt32) (inPort : UInt16) (payload : Option Message),
      validatePhyPortNo inPort.toNat = .success →
      payloadRejected ethFcsLength ethMinimumLength bufferId payload = false →
      16+totalSize HostAction.len (actions.getD [])+payloadLength payload ≤ 65535 →
      ∃ message, ccCreatePacketOut ethFcsLength ethMinimumLength getActionsLength true transactionId bufferId inPort
          (hostActions actions) payload = some (.buffer message) ∧
        Returns (validatePacketOut message) message.data .success ∧
        PacketCarriedIn bufferId inPort (totalSize HostAction.len (actions.getD [])) payload message.data ∧
        CarriesActions message 16 (actions.getD []) (payloadLength payload)) :=
  ⟨fun _ ha hfits => ccCreateFlowMod_accepted hget transactionId actions ha hfits,
    fun _ _ _ hport hkept hfits => ccCreatePacketOut_accepted hget transactionId actions hport hkept hfits⟩

/-- Send to port 2, the whole packet. -/
def outputToTwo : HostAction where
  bytes := fun i =>
    match i with
    | 2 => 8 | 4 => 2 | 6 => 255 | 7 => 255 | _ => 0
  shape := ⟨.ofpatOutput,8,by decide⟩
  formed := ⟨by decide,by decide⟩
  accepted := by
    rw [HostActionAccepted,ActionRule,show OfpActionType.ofValue (le16 _ 0) = some .ofpatOutput by decide]
    exact ⟨by decide,by decide⟩

/-- Queue 5 of port 1. -/
def enqueueInFive : HostAction where
  bytes := fun i =>
    match i with
    | 0 => 11 | 2 => 16 | 4 => 1 | 12 => 5 | _ => 0
  shape := ⟨.ofpatEnqueue,16,by decide⟩
  formed := ⟨by decide,by decide⟩
  accepted := by
    rw [HostActionAccepted,ActionRule,show OfpActionType.ofValue (le16 _ 0) = some .ofpatEnqueue by decide]
    exact ⟨by decide,by decide⟩

def sumOfLengths (actions : OpenflowActions) : ℕ :=
  actions.list.foldl (fun length action => (length+le16 action 2)%65536) 0

theorem sumsLengths_sumOfLengths : SumsLengths sumOfLengths :=
  fun _ h => foldl_mod_of_lt (fun action => le16 action 2) (Nat.lt_succ_of_le h)

/-- Everything wildcarded but the port, and a packet of 64 bytes. -/
theorem actionMessages_accepted_outputToTwo :
    let flowMod : FlowMod := ⟨fun i => if i = 0 then 254 else if i = 4 then 1 else 0,7,0,60,0,100,0,0,1⟩
    (∃ message, ccCreateFlowMod sumOfLengths true 1 flowMod (hostActions (some [outputToTwo,enqueueInFive])) =
        some message ∧ Returns (validateFlowMod message) message.data .success ∧ flowMod.CarriedIn message.data ∧
      CarriesActions message 72 [outputToTwo,enqueueInFive] 0) ∧
    ∃ message, ccCreatePacketOut 4 64 sumOfLengths true 1 0xffffffff 1
        (hostActions (some [outputToTwo,enqueueInFive])) (some ⟨fun _ => 5,64⟩) = some (.buffer message) ∧
      Returns (validatePacketOut message) message.data .success ∧
      PacketCarriedIn 0xffffffff 1 24 (some ⟨fun _ => 5,64⟩) message.data ∧
      CarriesActions message 16 [outputToTwo,enqueueInFive] 64 := by
  obtain ⟨hflowMod,hpacketOut⟩ := actionMessages_accepted 4 64 sumsLengths_sumOfLengths 1
    (some [outputToTwo,enqueueInFive])
  refine ⟨hflowMod _ ⟨by decide,by decide,by decide,by decide,by decide⟩ (by decide),?_⟩
  exact hpacketOut 0xffffffff 1 (some ⟨fun _ => 5,64⟩) (by decide) (by decide) (by decide)

end OpenFlowController.Create
