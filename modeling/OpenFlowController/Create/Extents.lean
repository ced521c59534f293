import OpenFlowController.Create.FlowStatsReply
import OpenFlowController.Create.QueueConfigReply
import OpenFlowController.Create.Records

/-! # What the builders of lists write

A builder is its header and a body filled in behind it. The body is written into
memory of any contents here, so that what it leaves alone can be told from what it
writes.
-/
namespace OpenFlowController.Create
open Memory Check Protocol Handler OpenFlowController.Convert

/-- A new buffer in its memory. The first `front` bytes are set even where the
length ends before them. -/
def laid (front : ℕ) (buffer : Message) (mem : Bytes) : Bytes := fun i =>
  if i < front ∨ i < buffer.length then buffer.data i else mem i

/-- A queue in host order with its well-formed properties, if it has any. -/
structure QueueDescription where
  bytes : Bytes
  kinds : List QueueProperty
  formed : QueueShape .host bytes kinds

/-- The calls of the builders that are given a list. -/
inductive ListReply
  | features (pn : Bytes) (switch : SwitchFeatures) (ports : List Bytes)
  | flowStats (slack : Bytes) (flags : UInt16) (flowsStatsHead : List HostFlowStats)
  | tableStats (flags : UInt16) (tableStatsHead : List Bytes)
  | portStats (flags : UInt16) (portStatsHead : List Bytes)
  | queueStats (flags : UInt16) (queueStatsHead : List Bytes)
  | queueGetConfig (slack : Bytes) (port : UInt16) (queues : List QueueDescription)

namespace ListReply

def create (fuel : ℕ) (allocated : Bool) (transactionId : UInt32) : ListReply → Option Message
  | features pn switch ports => ccCreateFeaturesReply pn allocated transactionId switch ports
  | flowStats slack flags flows =>
    ccCreateFlowStatsReply slack fuel allocated transactionId flags (flows.map HostFlowStats.bytes)
  | tableStats flags tables => ccCreateTableStatsReply allocated transactionId flags tables
  | portStats flags ports => ccCreatePortStatsReply allocated transactionId flags ports
  | queueStats flags queues => ccCreateQueueStatsReply allocated transactionId flags queues
  | queueGetConfig slack port queues =>
    ccCreateQueueGetConfigReply slack fuel allocated transactionId port (queues.map QueueDescription.bytes)

/-- The length that is passed to `cc_create_header`. -/
def length : ListReply → ℕ
  | features _ _ ports => recordsLength 32 48 ports.length
  | flowStats _ _ flows => (12+flowsLength (flows.map HostFlowStats.bytes))%65536
  | tableStats _ tables => recordsLength 12 64 tables.length
  | portStats _ ports => recordsLength 12 104 ports.length
  | queueStats _ queues => recordsLength 12 32 queues.length
  | queueGetConfig _ _ queues => (16+queuesLength (queues.map QueueDescription.bytes))%65536

/-- The header and all records. -/
def exactLength : ListReply → ℕ
  | features _ _ ports => 32+ports.length*48
  | flowStats _ _ flows => 12+totalSize HostFlowStats.length flows
  | tableStats _ tables => 12+tables.length*64
  | portStats _ ports => 12+ports.length*104
  | queueStats _ queues => 12+queues.length*32
  | queueGetConfig _ _ queues => 16+totalSize (fun queue => queueLength queue.kinds) queues

def header (allocated : Bool) (transactionId : UInt32) (reply : ListReply) : Option Message :=
  match reply with
  | features _ _ _ => ccCreateHeader allocated transactionId .ofptFeaturesReply reply.length
  | flowStats _ flags _ => ccCreateStatsReply allocated transactionId .ofpstFlow reply.length flags
  | tableStats flags _ => ccCreateStatsReply allocated transactionId .ofpstTable reply.length flags
  | portStats flags _ => ccCreateStatsReply allocated transactionId .ofpstPort reply.length flags
  | queueStats flags _ => ccCreateStatsReply allocated transactionId .ofpstQueue reply.length flags
  | queueGetConfig _ _ _ => ccCreateHeader allocated transactionId .ofptQueueGetConfigReply reply.length

def front : ListReply → ℕ
  | features _ _ _ | queueGetConfig _ _ _ => 8
  | flowStats _ _ _ | tableStats _ _ | portStats _ _ | queueStats _ _ => 12

/-- What is written once the header is there. -/
def body (fuel : ℕ) : ListReply → Bytes → Option Bytes
  | features pn switch ports, data =>
    let data := storeNet data 8 8 switch.datapathId.toNat
    let data := storeNet data 16 4 switch.nBuffers.toNat
    let data := storeNet data 20 1 switch.nTables.toNat
    let data := storeNet data 21 3 0
    let data := storeNet data 24 4 switch.capabilities.toNat
    let data := storeNet data 28 4 switch.actions.toNat
    some (if ports.length%65536 ≠ 0 then placePhyPorts 32 pn ports data else data)
  | flowStats slack _ flows, data =>
    writeEach (fun fs flowStats => (htonFlowStats slack fuel flowStats fs).map (fun s => s.conversion.dst))
      (fun fs => le16 fs 0) 12 (flows.map HostFlowStats.bytes) data
  | tableStats _ tables, data => fillRecords ntohTableStats 64 12 tables data
  | portStats _ ports, data => fillRecords ntohPortStats 104 12 ports data
  | queueStats _ queues, data => fillRecords ntohQueueStats 32 12 queues data
  | queueGetConfig slack port queues, data =>
    let data := storeNet (storeNet data 8 2 port.toNat) 10 6 0
    if queues.length%65536 ≠ 0 then placePacketQueues slack fuel (queues.map QueueDescription.bytes) data
    else some data

/-- The call with its buffer in this memory. -/
def write (fuel : ℕ) (allocated : Bool) (transactionId : UInt32) (mem : Bytes) (reply : ListReply) : Option Bytes := do
  let buffer ← reply.header allocated transactionId
  reply.body fuel (laid reply.front buffer mem)

/-- None of the builders has a way to report failure: the call comes back, with a
length that counts every record, and nothing is written from this length on. -/
structure Contained (allocated : Bool) (transactionId : UInt32) (reply : ListReply) : Prop where
  exact : reply.length = reply.exactLength
  inside : ∀ mem, ∃ fuel data, reply.write fuel allocated transactionId mem = some data ∧
    ∀ i, reply.length ≤ i → data i = mem i

end ListReply

section Rules
variable {reply : ListReply} {allocated : Bool} {transactionId : UInt32} {buffer : Message} {fuel : ℕ}

theorem ccCreateHeader_some {type : OfpType} {length : ℕ}
    (h : ccCreateHeader allocated transactionId type length = some buffer) :
    buffer.length = length ∧ ∀ i, 8 ≤ i → buffer.data i = 0 := by
  obtain ⟨-,heq⟩ := Option.ite_none_right_eq_some.mp h
  obtain rfl := Option.some.inj heq
  refine ⟨rfl,fun i hi => ?_⟩
  simp only
  rw [if_neg (by omega),if_neg (by omega),if_neg (by omega),if_neg (by omega)]

theorem ccCreateStatsReply_some {type : OfpStatsTypes} {length : ℕ} {flags : UInt16}
    (h : ccCreateStatsReply allocated transactionId type length flags = some buffer) :
    buffer.length = length ∧ ∀ i, 12 ≤ i → buffer.data i = 0 := by
  simp only [ccCreateStatsReply,ccCreateStatsReplyWith,Option.bind_eq_bind,Option.bind_eq_some_iff,Option.pure_def,Option.some.injEq] at h
  obtain ⟨header,hheader,rfl⟩ := h
  obtain ⟨hlength,hzero⟩ := ccCreateHeader_some hheader
  refine ⟨hlength,fun i hi => ?_⟩
  rw [← hzero i (by omega)]
  exact (storeNet_outside (by omega)).trans (storeNet_outside (by omega))

theorem ListReply.header_some (h : reply.header allocated transactionId = some buffer) :
    buffer.length = reply.length ∧ ∀ i, reply.front ≤ i → buffer.data i = 0 := by
  cases reply with
  | features | queueGetConfig => exact ccCreateHeader_some h
  | flowStats | tableStats | portStats | queueStats => exact ccCreateStatsReply_some h

theorem ListReply.header_allocated (reply : ListReply) (transactionId : UInt32) :
    (∃ buffer, reply.header true transactionId = some buffer) ∧ reply.header false transactionId = none := by
  cases reply <;> exact ⟨⟨_,rfl⟩,rfl⟩

/-- In memory that is all zero the builder leaves the message it returns. -/
theorem ListReply.create_eq (reply : ListReply) (fuel : ℕ) (allocated : Bool) (transactionId : UInt32) :
    reply.create fuel allocated transactionId =
      (reply.write fuel allocated transactionId (fun _ => 0)).map (fun data => ⟨data,reply.length⟩) := by
  have hcreate : reply.create fuel allocated transactionId = (reply.header allocated transactionId).bind
      (fun buffer => (reply.body fuel buffer.data).bind (fun data => some { buffer with data })) := by
    cases reply with
    | queueGetConfig slack port queues =>
      simp only [create,header,body,ccCreateQueueGetConfigReply,length,List.length_map,Option.bind_eq_bind]
      congr
      funext buffer
      split <;> rfl
    | _ => rfl
  cases hheader : reply.header allocated transactionId with
  | none => simp [hcreate,write,hheader]
  | some buffer =>
    obtain ⟨hlength,hzero⟩ := header_some hheader
    have hlaid : laid reply.front buffer (fun _ => 0) = buffer.data := by
      funext i
      rw [laid]
      split
      · rfl
      · exact (hzero i (by omega)).symm
    simp [hcreate,write,hheader,hlaid,hlength,Option.map_eq_bind]

theorem fillRecords_frame (layout : Layout) (records : List Bytes) (start : ℕ) (data : Bytes) :
    ∃ data', fillRecords (ntohRecord layout) layout.width start records data = some data' ∧
      ∀ i, start+records.length*layout.width ≤ i → data' i = data i := by
  have hwrite : ∀ record ∈ records, ∀ dst : Bytes, ∃ block,
      some (ntohRecord layout dst record) = some block ∧ ∀ i, layout.width ≤ i → block i = dst i :=
    fun record _ dst => ⟨_,rfl,fun i hi => layout.convert_outside 0 record dst (Or.inr (by omega))⟩
  obtain ⟨data',hrun,hframe⟩ := writeEach_frame hwrite
  refine ⟨data',hrun,fun i hi => hframe i (Or.inr ?_)⟩
  rwa [totalSize_const]

theorem placePhyPorts_frame (pn : Bytes) (ports : List Bytes) (data : Bytes) {i : ℕ}
    (hi : 32+ports.length*48 ≤ i) : placePhyPorts 32 pn ports data i = data i := by
  obtain ⟨data',hrun,hframe⟩ := fillRecords_frame ofpPhyPort ports 32 data
  have heq : some (placePhyPorts 32 pn ports data) = some data' :=
    (placePhyPorts_eq 32 pn ports data).symm.trans hrun
  rw [Option.some.inj heq]
  exact hframe i hi

theorem placeFlowStats_frame (slack : Bytes) (flows : List HostFlowStats) (data : Bytes) :
    ∃ data', writeEach (fun fs flowStats => (htonFlowStats slack 65536 flowStats fs).map (fun s => s.conversion.dst))
        (fun fs => le16 fs 0) 12 (flows.map HostFlowStats.bytes) data = some data' ∧
      ∀ i, 12+totalSize HostFlowStats.length flows ≤ i → data' i = data i := by
  have hwrite : ∀ flow ∈ flows, ∀ dst : Bytes, ∃ block,
      (htonFlowStats slack 65536 dst flow.bytes).map (fun s => s.conversion.dst) = some block ∧
      ∀ i, flow.length ≤ i → block i = dst i := by
    intro flow _ dst
    obtain ⟨s,hs,-,hdst⟩ := flowStats_converts flow.formed slack dst (Nat.le_refl 65536)
    have hs : htonFlowStats slack 65536 dst flow.bytes = some s := hs
    have hwidth : (entryLayout flow.shapes).width = flow.length := width_entryLayout flow.shapes
    refine ⟨s.conversion.dst,by rw [hs]; rfl,fun i hi => ?_⟩
    rw [hdst]
    exact Layout.convert_outside _ 0 flow.bytes dst (Or.inr (by omega))
  obtain ⟨data',hrun,hframe⟩ := writeEach_frame hwrite
  refine ⟨data',?_,fun i hi => hframe i (Or.inr hi)⟩
  rw [writeEach_map]
  simpa only [HostFlowStats.length_eq] using hrun

theorem QueueDescription.len_eq (queue : QueueDescription) : le16 queue.bytes 4 = queueLength queue.kinds :=
  queue.formed.len

theorem placePacketQueues_frame (slack : Bytes) (queues : List QueueDescription) (data : Bytes) :
    ∃ data', placePacketQueues slack 65536 (queues.map QueueDescription.bytes) data = some data' ∧
      ∀ i, 16+totalSize (fun queue => queueLength queue.kinds) queues ≤ i → data' i = data i := by
  have hwrite : ∀ queue ∈ queues, ∀ dst : Bytes, ∃ block,
      (htonPacketQueue slack 65536 dst queue.bytes).map PropertyLoop.dst = some block ∧
      ∀ i, queueLength queue.kinds ≤ i → block i = dst i := by
    intro queue _ dst
    have hlt := le16_lt queue.bytes 4
    rw [queue.len_eq] at hlt
    obtain ⟨s,hs,-,-,hframe⟩ := packetQueue_carried queue.formed slack dst (Nat.le_of_lt_succ hlt) (Nat.le_refl 65536)
    have hs : htonPacketQueue slack 65536 dst queue.bytes = some s := hs
    exact ⟨s.dst,by rw [hs]; rfl,hframe⟩
  obtain ⟨data',hrun,hframe⟩ := writeEach_frame hwrite
  refine ⟨data',?_,fun i hi => hframe i (Or.inr hi)⟩
  rw [placePacketQueues,writeEach_map]
  simpa only [QueueDescription.len_eq] using hrun

/-- Behind its records a builder writes nothing, whatever length it has passed. -/
theorem ListReply.body_frame (reply : ListReply) (data : Bytes) :
    ∃ data', reply.body 65536 data = some data' ∧ ∀ i, reply.exactLength ≤ i → data' i = data i := by
  cases reply with
  | features pn switch ports =>
    refine ⟨_,rfl,fun i hi => ?_⟩
    rw [exactLength] at hi
    have hfixed : storeNet (storeNet (storeNet (storeNet (storeNet (storeNet data 8 8 switch.datapathId.toNat) 16 4
        switch.nBuffers.toNat) 20 1 switch.nTables.toNat) 21 3 0) 24 4 switch.capabilities.toNat) 28 4
        switch.actions.toNat i = data i :=
      (storeNet_outside (by omega)).trans <| (storeNet_outside (by omega)).trans <|
      (storeNet_outside (by omega)).trans <| (storeNet_outside (by omega)).trans <|
      (storeNet_outside (by omega)).trans (storeNet_outside (by omega))
    split
    · exact (placePhyPorts_frame pn ports _ hi).trans hfixed
    · exact hfixed
  | flowStats slack flags flows => exact placeFlowStats_frame slack flows data
  | tableStats flags tables => exact fillRecords_frame ofpTableStats tables 12 data
  | portStats flags ports => exact fillRecords_frame ofpPortStats ports 12 data
  | queueStats flags queues => exact fillRecords_frame ofpQueueStats queues 12 data
  | queueGetConfig slack port queues =>
    have hfixed : ∀ i, 16+totalSize (fun queue => queueLength queue.kinds) queues ≤ i →
        storeNet (storeNet data 8 2 port.toNat) 10 6 0 i = data i := fun i hi =>
      (storeNet_outside (by omega)).trans (storeNet_outside (by omega))
    rw [body]
    split
    · obtain ⟨data',hrun,hframe⟩ := placePacketQueues_frame slack queues
        (storeNet (storeNet data 8 2 port.toNat) 10 6 0)
      exact ⟨data',hrun,fun i hi => (hframe i hi).trans (hfixed i hi)⟩
    · exact ⟨_,rfl,hfixed⟩

theorem recordsLength_eq_iff {fixedPart size count : ℕ} (hsize : 0 < size) :
    recordsLength fixedPart size count = fixedPart+count*size ↔ fixedPart+count*size ≤ 65535 := by
  constructor
  · intro h
    rw [← h]
    exact Nat.le_of_lt_succ (Nat.mod_lt _ (by decide))
  · exact recordsLength_eq hsize

theorem mod_eq_self_iff {n : ℕ} : n%65536 = n ↔ n ≤ 65535 := by omega

theorem ListReply.length_eq_iff (reply : ListReply) :
    reply.length = reply.exactLength ↔ reply.exactLength ≤ 65535 := by
  cases reply with
  | features | tableStats | portStats | queueStats => exact recordsLength_eq_iff (by decide)
  | flowStats slack flags flows =>
    have hsum := foldl_mod HostFlowStats.length 65536 0 flows
    have hlength : flowsLength (flows.map HostFlowStats.bytes) = totalSize HostFlowStats.length flows%65536 := by
      simpa [flowsLength,List.foldl_map,HostFlowStats.length_eq] using hsum
    rw [length,exactLength,hlength,Nat.add_mod_mod]
    exact mod_eq_self_iff
  | queueGetConfig slack port queues =>
    have hsum := foldl_mod (fun queue : QueueDescription => queueLength queue.kinds) 65536 0 queues
    have hlength : queuesLength (queues.map QueueDescription.bytes) =
        totalSize (fun queue => queueLength queue.kinds) queues%65536 := by
      simpa [queuesLength,List.foldl_map,QueueDescription.len_eq] using hsum
    rw [length,exactLength,hlength,Nat.add_mod_mod]
    exact mod_eq_self_iff

theorem ListReply.front_le (reply : ListReply) : reply.front ≤ reply.exactLength := by
  cases reply <;> simp only [front,exactLength] <;> omega

/-- The exact calls whose message holds what they write. -/
theorem listReply_contained_iff (reply : ListReply) (allocated : Bool) (transactionId : UInt32) :
    reply.Contained allocated transactionId ↔ allocated = true ∧ reply.exactLength ≤ 65535 := by
  obtain ⟨⟨buffer,hbuffer⟩,hnone⟩ := reply.header_allocated transactionId
  constructor
  · rintro ⟨hexact,hinside⟩
    refine ⟨?_,reply.length_eq_iff.mp hexact⟩
    cases allocated with
    | true => rfl
    | false =>
      obtain ⟨fuel,data,hwrite,-⟩ := hinside (fun _ => 0)
      simp [ListReply.write,hnone] at hwrite
  · rintro ⟨rfl,hfits⟩
    have hexact := reply.length_eq_iff.mpr hfits
    refine ⟨hexact,fun mem => ?_⟩
    obtain ⟨data,hbody,hframe⟩ := reply.body_frame (laid reply.front buffer mem)
    refine ⟨65536,data,by rw [ListReply.write,hbuffer]; exact hbody,fun i hi => ?_⟩
    have hfront := reply.front_le
    have hsize := (ListReply.header_some hbuffer).1
    rw [hframe i (by omega)]
    exact if_neg (by omega)

theorem tableStats_first_written {flags : UInt16} {table : Bytes} {tables : List Bytes} {mem data : Bytes}
    (h : (ListReply.tableStats flags (table :: tables)).write fuel true transactionId mem = some data) :
    data 12 = table 0 := by
  obtain ⟨⟨buffer,hbuffer⟩,-⟩ := (ListReply.tableStats flags (table :: tables)).header_allocated transactionId
  rw [ListReply.write,hbuffer] at h
  obtain ⟨data',hrun,hholds,-⟩ := fillRecords_holds ofpTableStats (table :: tables) 12 (laid 12 buffer mem)
  obtain rfl := Option.some.inj (h.symm.trans hrun)
  have hfirst : ofpTableStats.Converted 0 table (window data 12) := hholds.1
  exact hfirst.1.copied (show 0 < 1 by decide)

/-- With 1024 tables the length comes round to 12, where the first one is written. -/
theorem thousandTables_not_contained :
    ¬ (ListReply.tableStats 0 ((fun _ => 1) :: List.replicate 1023 (fun _ => 1))).Contained true 1 := by
  intro h
  obtain ⟨fuel,data,hwrite,hinside⟩ := h.inside (fun _ => 0)
  have hzero : data 12 = 0 := hinside 12 (by
    rw [ListReply.length,List.length_cons,List.length_replicate]
    exact Nat.le_refl 12)
  rw [tableStats_first_written hwrite] at hzero
  exact absurd hzero (by decide)

end Rules
end OpenFlowController.Create
