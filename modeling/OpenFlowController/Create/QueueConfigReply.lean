import OpenFlowController.Check.Queues
import OpenFlowController.Convert.PacketQueue
import OpenFlowController.Create.Builders

/-! # Queue configuration replies

The loops of builder, counter, validator and decoder follow one chain of lengths:
each moves by what the description itself says of its length.
-/
namespace OpenFlowController.Create
open Memory Access Check Protocol Handler OpenFlowController.Convert

def queuesLength (queues : List Bytes) : ℕ :=
  queues.foldl (fun length packetQueue => (length+le16 packetQueue 4)%65536) 0

/-- The pointer moves by the length in host order. -/
def placePacketQueues (slack : Bytes) (fuel : ℕ) (queues : List Bytes) (data : Bytes) : Option Bytes :=
  writeEach (fun pq packetQueue => (htonPacketQueue slack fuel packetQueue pq).map PropertyLoop.dst)
    (fun pq => le16 pq 4) 16 queues data

def ccCreateQueueGetConfigReply (slack : Bytes) (fuel : ℕ) (allocated : Bool) (transactionId : UInt32)
    (port : UInt16) (queues : List Bytes) : Option Message := do
  let length := (16+queuesLength queues)%65536
  let buffer ← ccCreateHeader allocated transactionId .ofptQueueGetConfigReply length
  let data := storeNet (storeNet buffer.data 8 2 port.toNat) 10 6 0
  let data ← if queues.length%65536 ≠ 0 then placePacketQueues slack fuel queues data else some data
  return { buffer with data }

/-- A description in host order with at least one property. -/
structure HostPacketQueue where
  bytes : Bytes
  kinds : List QueueProperty
  formed : QueueShape .host bytes kinds
  nonempty : kinds ≠ []

def HostPacketQueue.len (queue : HostPacketQueue) : ℕ := queueLength queue.kinds

/-- `ntoh_packet_queue` on `src` ends at the end of the description and gives it back. -/
def HostPacketQueue.DecodedFrom (queue : HostPacketQueue) (src : Bytes) : Prop :=
  ∀ slack dst, ∀ fuel ≥ 65536, ∃ s, ntohPacketQueue slack fuel dst src = some s ∧ s.propertiesLength = 0 ∧
    QueueCarried .host .host queue.bytes s.dst queue.kinds

section Rules
variable {queue : HostPacketQueue} {queues : List HostPacketQueue} {mem src : Bytes} {p : ℕ}

theorem HostPacketQueue.len_eq (queue : HostPacketQueue) : le16 queue.bytes 4 = queue.len := queue.formed.len

theorem HostPacketQueue.bounds (queue : HostPacketQueue) : 16 ≤ queue.len ∧ queue.len ≤ 65535 ∧
    queue.len = 8+totalSize QueueProperty.len queue.kinds := by
  have hlt := le16_lt queue.bytes 4
  rw [queue.len_eq] at hlt
  have hsum : queue.len = 8+totalSize QueueProperty.len queue.kinds := rfl
  have hmany := length_mul_le_totalSize QueueProperty.eight_le queue.kinds
  have hpos := List.length_pos_iff.mpr queue.nonempty
  exact ⟨by omega,by omega,hsum⟩

theorem HostPacketQueue.decodedFrom (h : QueueCarried .host .network queue.bytes src queue.kinds) :
    queue.DecodedFrom src := by
  intro slack dst fuel hf
  obtain ⟨s,hs,hrem,hcarried,-⟩ := packetQueue_carried (h.shape queue.formed) slack dst queue.bounds.2.1 hf
  exact ⟨s,hs,hrem,h.trans hcarried⟩

theorem propertyAccepted_of_has {ph : ℕ} {kind : QueueProperty} (h : HasProperty .network mem ph kind) :
    PropertyAccepted mem ph := by
  obtain ⟨hproperty,hlen⟩ := h
  cases kind with
  | ofpqtNone => exact Or.inl ⟨hproperty,hlen⟩
  | ofpqtMinRate => exact Or.inr ⟨hproperty,hlen⟩

/-- The validator's view of a description that lies carried over at `p`. -/
theorem HostPacketQueue.accepted (h : QueueCarried .host .network queue.bytes (window mem p) queue.kinds) :
    be16 mem (p+4) = queue.len ∧ QueueAccepted mem p := by
  have hshape := h.shape queue.formed
  have hlen : be16 mem (p+4) = queue.len := hshape.len
  obtain ⟨h16,hb,hsum⟩ := queue.bounds
  have hproperties : sub16 (be16 mem (p+4)) 8 = totalSize QueueProperty.len queue.kinds := by
    rw [hlen,sub16_of_le (by omega) (by omega)]
    omega
  have hplaced : ∀ x ∈ located QueueProperty.len 8 queue.kinds, HasProperty .network mem (p+x.1) x.2 :=
    fun x hx => ⟨(hshape.properties x hx).property,(hshape.properties x hx).len⟩
  have hwalk : WalksTo (fun q => be16 mem (q+2)) (fun q x => q = p+x.1)
      (p+8+totalSize QueueProperty.len queue.kinds) (p+8) (located QueueProperty.len 8 queue.kinds) :=
    walksTo_located p rfl (fun x hx => ⟨(hplaced x hx).len,rfl⟩)
  have hoffsets : (∃ offset, PropertyOffset mem (p+8) (totalSize QueueProperty.len queue.kinds) offset ∧
      totalSize QueueProperty.len queue.kinds ≤ offset) ↔
      ∀ x ∈ located QueueProperty.len 8 queue.kinds, True := by
    refine offsets_iff hwalk (by omega) ?_
    rintro q x hx rfl
    have hbounds := located_bounds hx
    have h8 := x.2.eight_le
    have hlen : be16 mem (p+x.1+2) = x.2.len := (hplaced x hx).len
    exact ⟨by omega,by omega,by omega,iff_of_true (propertyAccepted_of_has (hplaced x hx)) trivial⟩
  refine ⟨hlen,by omega,?_⟩
  rw [hproperties]
  exact hoffsets.mpr (fun _ _ => trivial)

theorem queuesLength_eq (h : 16+totalSize HostPacketQueue.len queues ≤ 65535) :
    queuesLength (queues.map HostPacketQueue.bytes) = totalSize HostPacketQueue.len queues := by
  have hfold := foldl_mod_of_lt HostPacketQueue.len (show totalSize HostPacketQueue.len queues < 65536 by omega)
  simpa [queuesLength,List.foldl_map,HostPacketQueue.len_eq] using hfold

/-- The builder's loop leaves every description carried over at its place. -/
theorem placePacketQueues_carried (slack : Bytes) {fuel : ℕ} (hf : 65536 ≤ fuel) (queues : List HostPacketQueue)
    (mem : Bytes) : ∃ data, placePacketQueues slack fuel (queues.map HostPacketQueue.bytes) mem = some data ∧
      (∀ i < 16, data i = mem i) ∧
      WalksTo (fun p => be16 data (p+4)) (fun p queue => p+queue.len ≤ 16+totalSize HostPacketQueue.len queues ∧
        QueueCarried .host .network queue.bytes (window data p) queue.kinds)
        (16+totalSize HostPacketQueue.len queues) 16 queues := by
  have hwrite : ∀ queue ∈ queues, ∀ dst : Bytes, ∃ block,
      (htonPacketQueue slack fuel dst queue.bytes).map PropertyLoop.dst = some block ∧
      QueueCarried .host .network queue.bytes block queue.kinds ∧ ∀ i, queue.len ≤ i → block i = dst i := by
    intro queue _ dst
    obtain ⟨s,hs,-,hcarried,hframe⟩ := packetQueue_carried queue.formed slack dst queue.bounds.2.1 hf
    have hs : htonPacketQueue slack fuel dst queue.bytes = some s := hs
    exact ⟨s.dst,by rw [hs]; rfl,hcarried,hframe⟩
  obtain ⟨data,hrun,hplaced,hframe⟩ := writeEach_placed hwrite
    (fun queue _ block block' h he => h.congr he)
  refine ⟨data,?_,fun i hi => hframe i (Or.inl hi),hplaced.walksTo rfl (fun p queue _ hend hp => ?_)⟩
  · rw [placePacketQueues,writeEach_map]
    simpa only [HostPacketQueue.len_eq] using hrun
  · exact ⟨(HostPacketQueue.accepted hp).1,hend,hp⟩

end Rules

theorem queueGetConfigReply_roundTrip (slack : Bytes) (transactionId : UInt32) (port : UInt16)
    (queues : List HostPacketQueue) (hport : validatePhyPortNo port.toNat = .success) (hne : queues ≠ [])
    (hfits : 16+totalSize HostPacketQueue.len queues ≤ 65535) {fuel : ℕ} (hf : 65536 ≤ fuel) :
    ∃ message, ccCreateQueueGetConfigReply slack fuel true transactionId port (queues.map HostPacketQueue.bytes) =
        some message ∧
      message.length = 16+totalSize HostPacketQueue.len queues ∧ be16 message.data 2 = message.length ∧
      Returns (validateQueueGetConfigReply message) message.data .success ∧
      WalksTo (fun p => be16 message.data (p+4)) (fun p queue => queue.DecodedFrom (window message.data p))
        message.length 16 queues := by
  have hlt : 16+totalSize HostPacketQueue.len queues < 65536 := by omega
  obtain ⟨buffer,hbuffer,hsize,hheader⟩ := ccCreateHeader_fresh transactionId .ofptQueueGetConfigReply hlt
  let filled := storeNet (storeNet buffer.data 8 2 port.toNat) 10 6 0
  obtain ⟨data,hdata,hframe,hwalk⟩ := placePacketQueues_carried slack hf queues filled
  have hfront : ∀ i < 8, data i = buffer.data i := fun i hi => (hframe i (by omega)).trans
    ((storeNet_outside (by omega)).trans (storeNet_outside (by omega)))
  have hheader : HasHeader data .ofptQueueGetConfigReply buffer.length := hsize ▸ hheader.congr hfront
  have hportField : be16 data 8 = port.toNat := by
    rw [← be16_storeNet buffer.data 8 port.toNat_lt,
      ← be16_storeNet_of_disjoint (storeNet buffer.data 8 2 port.toNat) 0 (Or.inl (Nat.le_refl 10))]
    exact ByteOrder.read16_congr .network (hframe 8 (by decide)) (hframe 9 (by decide))
  have hmany := length_mul_le_totalSize (fun queue : HostPacketQueue => queue.bounds.1) queues
  have hpos := List.length_pos_iff.mpr hne
  -- the 16-bit count does not come round to 0
  have hcount : queues.length%65536 ≠ 0 := by
    rw [Nat.mod_eq_of_lt (by omega)]
    omega
  rw [← hsize] at hwalk hfits
  have haccepted : HeaderAccepted { buffer with data } .ofptQueueGetConfigReply 24 ushrtMax :=
    HasHeader.accepted hheader (by simp only [hsize]; omega) (by simp only [hsize]; omega) hfits
  refine ⟨{ buffer with data },?_,hsize,hheader.length,?_,hwalk.mono (fun p queue _ hp =>
    HostPacketQueue.decodedFrom hp.2)⟩
  · rw [ccCreateQueueGetConfigReply,queuesLength_eq (hsize ▸ hfits),Nat.mod_eq_of_lt hlt,hbuffer]
    simp only [List.length_map,hcount,Option.bind_eq_bind,Option.bind_some,ne_eq,not_false_eq_true,if_true]
    rw [hdata]
    rfl
  · refine returns_validateQueueGetConfigReply haccepted (by rw [hportField]; exact hport) hwalk ?_
    rintro p queue - ⟨hend,hcarried⟩
    obtain ⟨hlen,hqueue⟩ := HostPacketQueue.accepted hcarried
    have h16 := queue.bounds.1
    exact ⟨by simp only; omega,by simp only; omega,hqueue⟩

/-- A queue with a minimum rate of 300 and a property without a value. -/
def hostPacketQueue : HostPacketQueue where
  bytes := fun i =>
    match i with
    | 0 => 7 | 4 => 32 | 8 => 1 | 10 => 16 | 16 => 44 | 17 => 1 | 26 => 8 | _ => 0
  kinds := [.ofpqtMinRate,.ofpqtNone]
  formed := by
    refine ⟨by decide,fun x hx => ?_⟩
    simp only [located,List.mem_cons,List.not_mem_nil,or_false] at hx
    rcases hx with rfl | rfl
    · exact ⟨by decide,by decide⟩
    · exact ⟨by decide,by decide⟩
  nonempty := by simp

theorem queueGetConfigReply_roundTrip_minRate :
    ∃ message, ccCreateQueueGetConfigReply (fun _ => 0) 65536 true 1 3
        [hostPacketQueue.bytes,hostPacketQueue.bytes] = some message ∧
      message.length = 80 ∧ be16 message.data 2 = message.length ∧
      Returns (validateQueueGetConfigReply message) message.data .success ∧
      WalksTo (fun p => be16 message.data (p+4)) (fun p queue => queue.DecodedFrom (window message.data p))
        message.length 16 [hostPacketQueue,hostPacketQueue] :=
  queueGetConfigReply_roundTrip (fun _ => 0) 1 3 [hostPacketQueue,hostPacketQueue] (by decide) (by simp)
    (by decide) (Nat.le_refl 65536)

end OpenFlowController.Create
