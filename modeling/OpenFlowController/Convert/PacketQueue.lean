import OpenFlowController.Convert.FlowStats
import OpenFlowController.Memory.Converted

/-! # Byte order of packet queues

A property is converted through a copy of its own; its padding is left as the
destination has it. The two pointers of a loop stay at one common offset.
-/
namespace OpenFlowController.Convert
open Memory Protocol

def ofpQueuePropHeader : Layout := [⟨.swap,2⟩,⟨.swap,2⟩]
def ofpQueuePropRate : Layout := [⟨.swap,2⟩]
def ofpPacketQueue : Layout := [⟨.swap,4⟩,⟨.swap,2⟩,⟨.zero,2⟩]

/-- What the kind of property is decided by has just been converted. -/
def ntohQueueProperty (slack dst src : Bytes) : Bytes :=
  let ph := copyOf src slack (be16 src 2)
  let dst := ofpQueuePropHeader.convert 0 ph dst
  if le16 dst 0 = ofpqtMinRate then ofpQueuePropRate.convert 8 ph dst else dst

def htonQueueProperty (slack dst src : Bytes) : Bytes :=
  let ph := copyOf src slack (le16 src 2)
  let dst := ofpQueuePropHeader.convert 0 ph dst
  if le16 src 0 = ofpqtMinRate then ofpQueuePropRate.convert 8 ph dst else dst

structure PropertyLoop where
  dst : Bytes
  propertiesLength : ℕ
  ph : ℕ

/-- The loop of `ntoh_packet_queue` moves by the length it has just converted. -/
def ntohQueueProperties (slack pq : Bytes) : ℕ → PropertyLoop → Option PropertyLoop
  | 0, _ => none
  | fuel+1, s =>
    if s.propertiesLength ≥ 8 then
      let dst := splice s.dst s.ph (ntohQueueProperty slack (window s.dst s.ph) (window pq s.ph))
      let len := le16 dst (s.ph+2)
      ntohQueueProperties slack pq fuel ⟨dst,sub16 s.propertiesLength len,s.ph+len⟩
    else some s

/-- The loop of `hton_packet_queue` moves by the length it is converting. -/
def htonQueueProperties (slack pq : Bytes) : ℕ → PropertyLoop → Option PropertyLoop
  | 0, _ => none
  | fuel+1, s =>
    if s.propertiesLength ≥ 8 then
      let dst := splice s.dst s.ph (htonQueueProperty slack (window s.dst s.ph) (window pq s.ph))
      let len := le16 pq (s.ph+2)
      htonQueueProperties slack pq fuel ⟨dst,sub16 s.propertiesLength len,s.ph+len⟩
    else some s

def ntohPacketQueue (slack : Bytes) (fuel : ℕ) (dst src : Bytes) : Option PropertyLoop :=
  let pq := copyOf src slack (be16 src 4)
  let dst := ofpPacketQueue.convert 0 pq dst
  ntohQueueProperties slack pq fuel ⟨dst,sub16 (le16 dst 4) 8,8⟩

def htonPacketQueue (slack : Bytes) (fuel : ℕ) (dst src : Bytes) : Option PropertyLoop :=
  let pq := copyOf src slack (le16 src 4)
  htonQueueProperties slack pq fuel ⟨ofpPacketQueue.convert 0 pq dst,sub16 (le16 src 4) 8,8⟩

inductive QueueProperty
  | ofpqtNone
  | ofpqtMinRate
  deriving DecidableEq, Repr

namespace QueueProperty

def value : QueueProperty → ℕ
  | .ofpqtNone => Protocol.ofpqtNone
  | .ofpqtMinRate => Protocol.ofpqtMinRate

def len : QueueProperty → ℕ
  | .ofpqtNone => 8
  | .ofpqtMinRate => 16

theorem eight_le (kind : QueueProperty) : 8 ≤ kind.len := by cases kind <;> decide

end QueueProperty

structure HasProperty (order : ByteOrder) (mem : Bytes) (ph : ℕ) (kind : QueueProperty) : Prop where
  property : order.read16 mem ph = kind.value
  len : order.read16 mem (ph+2) = kind.len

/-- Type, length and, where there is one, the rate are the same. -/
structure PropertyCarried (order order' : ByteOrder) (src dst : Bytes) (ph : ℕ) (kind : QueueProperty) : Prop where
  property : order'.read16 dst ph = order.read16 src ph
  len : order'.read16 dst (ph+2) = order.read16 src (ph+2)
  rate : kind = .ofpqtMinRate → order'.read16 dst (ph+8) = order.read16 src (ph+8)

/-- The length a description of a queue must give. -/
def queueLength (kinds : List QueueProperty) : ℕ := 8+totalSize QueueProperty.len kinds

structure QueueShape (order : ByteOrder) (src : Bytes) (kinds : List QueueProperty) : Prop where
  len : order.read16 src 4 = queueLength kinds
  properties : ∀ x ∈ located QueueProperty.len 8 kinds, HasProperty order src x.1 x.2

structure QueueCarried (order order' : ByteOrder) (src dst : Bytes) (kinds : List QueueProperty) : Prop where
  queueId : order'.read32 dst 0 = order.read32 src 0
  len : order'.read16 dst 4 = order.read16 src 4
  properties : ∀ x ∈ located QueueProperty.len 8 kinds, PropertyCarried order order' src dst x.1 x.2

def queueProperty : ByteOrder → Bytes → Bytes → Bytes → Bytes
  | .network => ntohQueueProperty
  | .host => htonQueueProperty

def queueProperties : ByteOrder → Bytes → Bytes → ℕ → PropertyLoop → Option PropertyLoop
  | .network => ntohQueueProperties
  | .host => htonQueueProperties

/-- The function that reads `order`: decoding reads network order. -/
def packetQueue : ByteOrder → Bytes → ℕ → Bytes → Bytes → Option PropertyLoop
  | .network => ntohPacketQueue
  | .host => htonPacketQueue

section Rules
variable {order order' order'' : ByteOrder} {src mid dst : Bytes} {ph : ℕ} {kind : QueueProperty}
variable {kinds : List QueueProperty}

theorem PropertyCarried.congr {dst' : Bytes} (h : PropertyCarried order order' src dst ph kind)
    (he : ∀ i, ph ≤ i → i < ph+kind.len → dst' i = dst i) : PropertyCarried order order' src dst' ph kind := by
  have h8 := kind.eight_le
  have hread : ∀ o, ph ≤ o → o+1 < ph+kind.len → order'.read16 dst' o = order'.read16 dst o :=
    fun o hl hu => ByteOrder.read16_congr order' (he o hl (by omega)) (he (o+1) (by omega) hu)
  refine ⟨(hread ph (Nat.le_refl ph) (by omega)).trans h.property,(hread (ph+2) (by omega) (by omega)).trans h.len,?_⟩
  rintro rfl
  have h16 : QueueProperty.ofpqtMinRate.len = 16 := rfl
  exact (hread (ph+8) (by omega) (by omega)).trans (h.rate rfl)

theorem PropertyCarried.refl (order : ByteOrder) (src : Bytes) (ph : ℕ) (kind : QueueProperty) :
    PropertyCarried order order src src ph kind := ⟨rfl,rfl,fun _ => rfl⟩

theorem PropertyCarried.trans (h : PropertyCarried order order' src mid ph kind)
    (h' : PropertyCarried order' order'' mid dst ph kind) : PropertyCarried order order'' src dst ph kind :=
  ⟨h'.property.trans h.property,h'.len.trans h.len,fun hk => (h'.rate hk).trans (h.rate hk)⟩

theorem PropertyCarried.hasProperty (h : PropertyCarried order order' src dst ph kind)
    (hs : HasProperty order src ph kind) : HasProperty order' dst ph kind :=
  ⟨h.property.trans hs.property,h.len.trans hs.len⟩

theorem QueueCarried.congr {dst' : Bytes} (h : QueueCarried order order' src dst kinds)
    (he : ∀ i < queueLength kinds, dst' i = dst i) : QueueCarried order order' src dst' kinds := by
  have h8 : 8 ≤ queueLength kinds := Nat.le_add_right 8 _
  refine ⟨?_,?_,fun x hx => ?_⟩
  · exact (ByteOrder.read32_congr order' (fun i hi => he (0+i) (by omega))).trans h.queueId
  · exact (ByteOrder.read16_congr order' (he 4 (by omega)) (he 5 (by omega))).trans h.len
  · have hbounds : 8 ≤ x.1 ∧ x.1+x.2.len ≤ queueLength kinds := located_bounds hx
    exact (h.properties x hx).congr (fun i _ hu => he i (by omega))

theorem QueueCarried.trans (h : QueueCarried order order' src mid kinds)
    (h' : QueueCarried order' order'' mid dst kinds) : QueueCarried order order'' src dst kinds :=
  ⟨h'.queueId.trans h.queueId,h'.len.trans h.len,fun x hx => (h.properties x hx).trans (h'.properties x hx)⟩

theorem QueueCarried.shape (h : QueueCarried order order' src dst kinds) (hs : QueueShape order src kinds) :
    QueueShape order' dst kinds :=
  ⟨h.len.trans hs.len,fun x hx => (h.properties x hx).hasProperty (hs.properties x hx)⟩

theorem queueProperty_eq (h : HasProperty order src 0 kind) (slack dst : Bytes) :
    queueProperty order slack dst src = if kind = .ofpqtMinRate
      then ofpQueuePropRate.convert 8 (copyOf src slack kind.len)
        (ofpQueuePropHeader.convert 0 (copyOf src slack kind.len) dst)
      else ofpQueuePropHeader.convert 0 (copyOf src slack kind.len) dst := by
  have h8 := kind.eight_le
  have hmin : kind.value = ofpqtMinRate ↔ kind = .ofpqtMinRate := by cases kind <;> decide
  cases order with
  | network =>
    have hlen : be16 src 2 = kind.len := h.len
    have hcopied : be16 (copyOf src slack kind.len) 0 = kind.value := by
      rw [← show be16 src 0 = kind.value from h.property]
      exact ByteOrder.read16_congr .network (if_pos (by omega)) (if_pos (by omega))
    have hproperty : le16 (ofpQueuePropHeader.convert 0 (copyOf src slack kind.len) dst) 0 = kind.value :=
      (Layout.read16_convert .network _ 0 _ dst).trans hcopied
    simp only [queueProperty,ntohQueueProperty,hlen,hproperty,hmin]
  | host =>
    have hlen : le16 src 2 = kind.len := h.len
    have hproperty : le16 src 0 = kind.value := h.property
    simp only [queueProperty,htonQueueProperty,hlen,hproperty,hmin]

theorem queueProperty_carried (h : HasProperty order src 0 kind) (slack dst : Bytes) :
    PropertyCarried order order.other src (queueProperty order slack dst src) 0 kind ∧
      ∀ i, kind.len ≤ i → queueProperty order slack dst src i = dst i := by
  have h8 := kind.eight_le
  rw [queueProperty_eq h]
  have hcopy : ∀ o, o+1 < kind.len → order.read16 (copyOf src slack kind.len) o = order.read16 src o :=
    fun o ho => ByteOrder.read16_congr order (if_pos (by omega)) (if_pos ho)
  obtain ⟨hproperty,hlen,-⟩ := ofpQueuePropHeader.converted_convert 0 (copyOf src slack kind.len) dst
  have hheader : ∀ i, 4 ≤ i → ofpQueuePropHeader.convert 0 (copyOf src slack kind.len) dst i = dst i :=
    fun i hi => Layout.convert_outside _ 0 _ dst (Or.inr hi)
  have hproperty := (hproperty.read16 order).trans (hcopy 0 (by omega))
  have hlen := (hlen.read16 order).trans (hcopy 2 (by omega))
  cases kind with
  | ofpqtNone => exact ⟨⟨hproperty,hlen,nofun⟩,fun i hi => hheader i (by omega)⟩
  | ofpqtMinRate =>
    have h16 : QueueProperty.ofpqtMinRate.len = 16 := rfl
    rw [if_pos rfl]
    generalize ofpQueuePropHeader.convert 0 (copyOf src slack QueueProperty.ofpqtMinRate.len) dst = header at *
    have hrate : ∀ i, i < 8 ∨ 10 ≤ i → ofpQueuePropRate.convert 8
        (copyOf src slack QueueProperty.ofpqtMinRate.len) header i = header i :=
      fun i hi => Layout.convert_outside _ 8 _ header hi
    refine ⟨⟨?_,?_,fun _ => ?_⟩,fun i hi => (hrate i (by omega)).trans (hheader i (by omega))⟩
    · exact (ByteOrder.read16_congr _ (hrate 0 (by omega)) (hrate 1 (by omega))).trans hproperty
    · exact (ByteOrder.read16_congr _ (hrate 2 (by omega)) (hrate 3 (by omega))).trans hlen
    · exact ((ofpQueuePropRate.converted_convert 8 _ header).1.read16 order).trans (hcopy 8 (by decide))

theorem HasProperty.at_window (h : HasProperty order src ph kind) : HasProperty order (window src ph) 0 kind :=
  ⟨(order.read16_window src ph 0).trans h.property,(order.read16_window src ph 2).trans h.len⟩

theorem PropertyCarried.of_window (h : PropertyCarried order order' (window src ph) (window dst ph) 0 kind) :
    PropertyCarried order order' src dst ph kind := by
  obtain ⟨hproperty,hlen,hrate⟩ := h
  simp only [ByteOrder.read16_window,Nat.zero_add] at hproperty hlen hrate
  exact ⟨hproperty,hlen,hrate⟩

/-- The property at `ph` converted through the two pointers. -/
def propertyDone (order : ByteOrder) (slack pq dst : Bytes) (ph : ℕ) : Bytes :=
  splice dst ph (queueProperty order slack (window dst ph) (window pq ph))

theorem propertyDone_carried (h : HasProperty order src ph kind) (slack dst : Bytes) :
    PropertyCarried order order.other src (propertyDone order slack src dst ph) ph kind ∧
      ∀ i, i < ph ∨ ph+kind.len ≤ i → propertyDone order slack src dst ph i = dst i := by
  obtain ⟨hcarried,hout⟩ := queueProperty_carried h.at_window slack (window dst ph)
  refine ⟨PropertyCarried.of_window (hcarried.congr (fun i _ _ => splice_at dst _ ph i)),fun i hi => ?_⟩
  rcases hi with hi | hi
  · exact splice_before hi
  · obtain ⟨j,rfl⟩ := Nat.exists_eq_add_of_le (show ph ≤ i by omega)
    rw [propertyDone,splice_at,hout j (by omega)]
    rfl

theorem queueProperties_step (h : HasProperty order src ph kind) (slack dst : Bytes) {remaining : ℕ}
    (h8 : 8 ≤ remaining) (fuel : ℕ) : queueProperties order slack src (fuel+1) ⟨dst,remaining,ph⟩ =
      queueProperties order slack src fuel
        ⟨propertyDone order slack src dst ph,sub16 remaining kind.len,ph+kind.len⟩ := by
  cases order with
  | network =>
    have hlen : le16 (propertyDone .network slack src dst ph) (ph+2) = kind.len :=
      (propertyDone_carried h slack dst).1.len.trans h.len
    simp only [queueProperties,ntohQueueProperties,ge_iff_le,h8,if_true]
    simp only [← hlen]
    rfl
  | host =>
    have hlen : le16 src (ph+2) = kind.len := h.len
    simp only [queueProperties,htonQueueProperties,ge_iff_le,h8,if_true,hlen]
    rfl

/-- Over well-formed properties a loop converts each of them and nothing else. -/
theorem queueProperties_run {fuel : ℕ} (slack dst : Bytes) (hf : kinds.length < fuel)
    (h : ∀ x ∈ located QueueProperty.len ph kinds, HasProperty order src x.1 x.2)
    (hw : totalSize QueueProperty.len kinds < 65536) :
    ∃ s, queueProperties order slack src fuel ⟨dst,totalSize QueueProperty.len kinds,ph⟩ = some s ∧
      s.propertiesLength = 0 ∧
      (∀ x ∈ located QueueProperty.len ph kinds, PropertyCarried order order.other src s.dst x.1 x.2) ∧
      ∀ i, i < ph ∨ ph+totalSize QueueProperty.len kinds ≤ i → s.dst i = dst i := by
  induction kinds generalizing ph dst fuel with
  | nil =>
    obtain ⟨fuel,rfl⟩ := Nat.exists_eq_succ_of_ne_zero (Nat.ne_of_gt hf)
    refine ⟨⟨dst,0,ph⟩,?_,rfl,by simp [located],fun _ _ => rfl⟩
    cases order <;> simp [queueProperties,ntohQueueProperties,htonQueueProperties]
  | cons kind kinds ih =>
    rw [List.length_cons] at hf
    rw [totalSize_cons] at hw ⊢
    obtain ⟨fuel,rfl⟩ := Nat.exists_eq_succ_of_ne_zero (Nat.ne_zero_of_lt hf)
    have h8 := kind.eight_le
    have hhead : HasProperty order src ph kind := h (ph,kind) List.mem_cons_self
    obtain ⟨hcarried,hout⟩ := propertyDone_carried hhead slack dst
    obtain ⟨s,hs,hrem,hrest,hframe⟩ := ih (propertyDone order slack src dst ph) (Nat.lt_of_succ_lt_succ hf)
      (fun x hx => h x (List.mem_cons_of_mem _ hx)) (by omega)
    refine ⟨s,?_,hrem,?_,fun i hi => (hframe i (by omega)).trans (hout i (by omega))⟩
    · rw [queueProperties_step hhead slack dst (by omega),sub16_of_le (by omega) hw,Nat.add_sub_cancel_left]
      exact hs
    · rintro x hx
      rcases List.mem_cons.mp hx with rfl | hx
      · exact hcarried.congr (fun i _ hu => hframe i (Or.inl hu))
      · exact hrest x hx

/-- Both functions start their loop with what the header leaves of the length. -/
theorem packetQueue_eq (h : QueueShape order src kinds) (slack dst : Bytes) (hb : queueLength kinds ≤ 65535)
    (fuel : ℕ) : packetQueue order slack fuel dst src =
      queueProperties order slack (copyOf src slack (queueLength kinds)) fuel
        ⟨ofpPacketQueue.convert 0 (copyOf src slack (queueLength kinds)) dst,totalSize QueueProperty.len kinds,8⟩ := by
  have h8 : 8 ≤ queueLength kinds := Nat.le_add_right 8 _
  have hrest : sub16 (queueLength kinds) 8 = totalSize QueueProperty.len kinds := by
    rw [sub16_of_le h8 (by omega)]
    exact Nat.add_sub_cancel_left 8 _
  cases order with
  | network =>
    have hlen : be16 src 4 = queueLength kinds := h.len
    have hcopied : le16 (ofpPacketQueue.convert 0 (copyOf src slack (queueLength kinds)) dst) 4 =
        be16 (copyOf src slack (queueLength kinds)) 4 :=
      (ofpPacketQueue.converted_convert 0 _ dst).2.1.read16 .network
    have hcopy : be16 (copyOf src slack (queueLength kinds)) 4 = queueLength kinds := by
      rw [← hlen]
      exact ByteOrder.read16_congr .network (if_pos (by omega)) (if_pos (by omega))
    simp only [packetQueue,ntohPacketQueue,queueProperties,hlen,hcopied,hcopy,hrest]
  | host =>
    have hlen : le16 src 4 = queueLength kinds := h.len
    simp only [packetQueue,htonPacketQueue,queueProperties,hlen,hrest]

/-- Encoding or decoding a description carries all of it and writes nothing behind it. -/
theorem packetQueue_carried (h : QueueShape order src kinds) (slack dst : Bytes) {fuel : ℕ}
    (hb : queueLength kinds ≤ 65535) (hf : 65536 ≤ fuel) :
    ∃ s, packetQueue order slack fuel dst src = some s ∧ s.propertiesLength = 0 ∧
      QueueCarried order order.other src s.dst kinds ∧ ∀ i, queueLength kinds ≤ i → s.dst i = dst i := by
  let pq := copyOf src slack (queueLength kinds)
  let header := ofpPacketQueue.convert 0 pq dst
  have hlength : queueLength kinds = 8+totalSize QueueProperty.len kinds := rfl
  have hmany := length_mul_le_totalSize QueueProperty.eight_le kinds
  have hcopy : ∀ i < queueLength kinds, pq i = src i := fun i hi => if_pos hi
  have hread : ∀ o, o+1 < queueLength kinds → order.read16 pq o = order.read16 src o :=
    fun o ho => ByteOrder.read16_congr order (hcopy o (by omega)) (hcopy (o+1) ho)
  obtain ⟨hqueueId,hlen,-⟩ := ofpPacketQueue.converted_convert 0 pq dst
  have hqueueId : order.other.read32 header 0 = order.read32 src 0 := (hqueueId.read32 order).trans
    (ByteOrder.read32_congr order (fun i hi => hcopy (0+i) (by omega)))
  have hlen : order.other.read16 header 4 = order.read16 src 4 := (hlen.read16 order).trans (hread 4 (by omega))
  have hcopied : ∀ x ∈ located QueueProperty.len 8 kinds, PropertyCarried order order src pq x.1 x.2 := by
    intro x hx
    have hbounds := located_bounds hx
    exact (PropertyCarried.refl order src x.1 x.2).congr (fun i _ hu => hcopy i (by omega))
  obtain ⟨s,hs,hrem,hcarried,hframe⟩ := queueProperties_run slack header (show kinds.length < fuel by omega)
    (fun x hx => (hcopied x hx).hasProperty (h.properties x hx)) (show totalSize QueueProperty.len kinds < 65536 by omega)
  have hkept : ∀ i < 8, s.dst i = header i := fun i hi => hframe i (Or.inl hi)
  refine ⟨s,?_,hrem,⟨?_,?_,fun x hx => (hcopied x hx).trans (hcarried x hx)⟩,fun i hi => ?_⟩
  · rw [← hs]
    exact packetQueue_eq h slack dst hb fuel
  · exact (ByteOrder.read32_congr order.other (fun i hi => hkept (0+i) (by omega))).trans hqueueId
  · exact (ByteOrder.read16_congr order.other (hkept 4 (by decide)) (hkept 5 (by decide))).trans hlen
  · exact (hframe i (Or.inr hi)).trans (Layout.convert_outside _ 0 pq dst (Or.inr (by
      change 8 ≤ i
      omega)))

theorem fuelLoop_queueProperties (order : ByteOrder) (slack pq : Bytes) : FuelLoop (queueProperties order slack pq) where
  starved _ := by cases order <;> rfl
  turn t := by
    by_cases h8 : t.propertiesLength ≥ 8
    · right
      cases order with
      | network =>
        let dst := splice t.dst t.ph (ntohQueueProperty slack (window t.dst t.ph) (window pq t.ph))
        let len := le16 dst (t.ph+2)
        refine ⟨some ⟨dst,sub16 t.propertiesLength len,t.ph+len⟩,fun fuel => ?_⟩
        simp only [queueProperties,ntohQueueProperties,h8,if_true]
        rfl
      | host =>
        let dst := splice t.dst t.ph (htonQueueProperty slack (window t.dst t.ph) (window pq t.ph))
        let len := le16 pq (t.ph+2)
        refine ⟨some ⟨dst,sub16 t.propertiesLength len,t.ph+len⟩,fun fuel => ?_⟩
        simp only [queueProperties,htonQueueProperties,h8,if_true]
        rfl
    · left
      intro fuel
      cases order with
      | network => simp only [queueProperties,ntohQueueProperties,h8,if_false]
      | host => simp only [queueProperties,htonQueueProperties,h8,if_false]

/-- The loop leaves off where the properties end. -/
theorem queueProperties_position {fuel : ℕ} {s : PropertyLoop} (slack dst : Bytes)
    (h : ∀ x ∈ located QueueProperty.len ph kinds, HasProperty order src x.1 x.2)
    (hw : totalSize QueueProperty.len kinds < 65536)
    (hs : queueProperties order slack src fuel ⟨dst,totalSize QueueProperty.len kinds,ph⟩ = some s) :
    s.ph = ph+totalSize QueueProperty.len kinds := by
  induction kinds generalizing ph dst fuel with
  | nil =>
    obtain ⟨fuel,rfl⟩ := (fuelLoop_queueProperties _ _ _).succ_of_run hs
    have hstart : queueProperties order slack src (fuel+1) ⟨dst,0,ph⟩ = some ⟨dst,0,ph⟩ := by
      cases order <;> simp [queueProperties,ntohQueueProperties,htonQueueProperties]
    obtain rfl := Option.some.inj (hstart.symm.trans hs)
    rfl
  | cons kind kinds ih =>
    obtain ⟨fuel,rfl⟩ := (fuelLoop_queueProperties _ _ _).succ_of_run hs
    rw [totalSize_cons] at hw hs ⊢
    have h8 := kind.eight_le
    have hhead : HasProperty order src ph kind := h (ph,kind) List.mem_cons_self
    rw [queueProperties_step hhead slack dst (by omega),sub16_of_le (by omega) hw,Nat.add_sub_cancel_left] at hs
    rw [ih _ (fun x hx => h x (List.mem_cons_of_mem _ hx)) (by omega) hs,Nat.add_assoc]

/-- A conversion with a result has used up the length it was given. -/
theorem packetQueue_consumed (h : QueueShape order src kinds) (slack dst : Bytes) {fuel : ℕ} {s : PropertyLoop}
    (hb : queueLength kinds ≤ 65535) (hs : packetQueue order slack fuel dst src = some s) :
    s.ph = 8+(order.read16 src 4-8) := by
  have hlength : queueLength kinds = 8+totalSize QueueProperty.len kinds := rfl
  rw [packetQueue_eq h slack dst hb] at hs
  rw [h.len,hlength,Nat.add_sub_cancel_left]
  refine queueProperties_position slack _ (fun x hx => ?_) (by omega) hs
  have hbounds := located_bounds hx
  have hcopied : PropertyCarried order order src (copyOf src slack (queueLength kinds)) x.1 x.2 :=
    (PropertyCarried.refl order src x.1 x.2).congr (fun i _ hu => if_pos (by omega))
  exact hcopied.hasProperty (h.properties x hx)

/-- Converting a description and converting the result back carries its queue, its
length and its properties, whichever of the two comes first. -/
theorem packetQueue_inverse (h : QueueShape order src kinds) (hb : queueLength kinds ≤ 65535)
    (slack slack' dst dst' : Bytes) {fuel : ℕ} (hf : 65536 ≤ fuel) :
    ∃ s s', packetQueue order slack fuel dst src = some s ∧
      packetQueue order.other slack' fuel dst' s.dst = some s' ∧ QueueCarried order order src s'.dst kinds ∧
      (s.propertiesLength = 0 ∧ s.ph = 8+(order.read16 src 4-8)) ∧
      (s'.propertiesLength = 0 ∧ s'.ph = 8+(order.read16 src 4-8)) ∧
      (∀ i, order.read16 src 4 ≤ i → s.dst i = dst i) ∧ ∀ i, order.read16 src 4 ≤ i → s'.dst i = dst' i := by
  obtain ⟨s,hs,hrem,hcarried,hframe⟩ := packetQueue_carried h slack dst hb hf
  have hshape : QueueShape order.other s.dst kinds := hcarried.shape h
  obtain ⟨s',hs',hrem',hcarried',hframe'⟩ := packetQueue_carried hshape slack' dst' hb hf
  have hback : order.other.other = order := by cases order <;> rfl
  rw [hback] at hcarried'
  have hpos' := packetQueue_consumed hshape slack' dst' hb hs'
  rw [hcarried.len] at hpos'
  rw [h.len]
  refine ⟨s,s',hs,hs',hcarried.trans hcarried',⟨hrem,?_⟩,⟨hrem',?_⟩,hframe,hframe'⟩
  · rw [← h.len]
    exact packetQueue_consumed h slack dst hb hs
  · rw [← h.len]
    exact hpos'

/-- A description of 32 bytes with one property of each kind. -/
def ratedQueue : Bytes := fun i => if i = 4 then 32 else if i = 8 then 1 else if i = 10 then 16 else
  if i = 16 then 100 else if i = 26 then 8 else 0

theorem packetQueue_inverse_ratedQueue : ∃ s s', htonPacketQueue ratedQueue 65536 ratedQueue ratedQueue = some s ∧
    ntohPacketQueue ratedQueue 65536 ratedQueue s.dst = some s' ∧
    QueueCarried .host .host ratedQueue s'.dst [.ofpqtMinRate,.ofpqtNone] ∧ s.ph = 32 ∧ s'.ph = 32 := by
  have hshape : QueueShape .host ratedQueue [.ofpqtMinRate,.ofpqtNone] := by
    refine ⟨by decide,fun x hx => ?_⟩
    simp only [located,List.mem_cons,List.not_mem_nil,or_false] at hx
    rcases hx with rfl | rfl
    · exact ⟨by decide,by decide⟩
    · exact ⟨by decide,by decide⟩
  obtain ⟨s,s',hs,hs',hcarried,⟨-,hpos⟩,⟨-,hpos'⟩,-,-⟩ :=
    packetQueue_inverse hshape (by decide) ratedQueue ratedQueue ratedQueue ratedQueue (Nat.le_refl 65536)
  exact ⟨s,s',hs,hs',hcarried,hpos,hpos'⟩

end Rules
end OpenFlowController.Convert
