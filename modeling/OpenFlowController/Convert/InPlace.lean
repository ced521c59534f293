import OpenFlowController.Convert.PacketQueue
import OpenFlowController.Convert.RoundTrip

/-! # Converting in place

Each converter takes a copy of its source first, so that its destination may be the
source. That is all the same as long as nothing is read from the source afterwards;
`hton_packet_queue` reads the length there once more.
-/
namespace OpenFlowController.Convert
open Memory Protocol

/-- With `dst` and `src` one array; what is read of the source is read before the first store. -/
def ntohFlowStatsInPlace (slack : Bytes) (fuel : ℕ) (mem : Bytes) : Option Bytes :=
  let length := be16 mem 0
  let fs := copyOf mem slack length
  (ntohActions fs fuel (fixedPart fs mem length)).map (fun s => s.conversion.dst)

def htonFlowStatsInPlace (slack : Bytes) (fuel : ℕ) (mem : Bytes) : Option Bytes :=
  let length := le16 mem 0
  let fs := copyOf mem slack length
  (htonActions fs fuel (fixedPart fs mem length)).map (fun s => s.conversion.dst)

def ntohPacketQueueInPlace (slack : Bytes) (fuel : ℕ) (mem : Bytes) : Option Bytes :=
  let pq := copyOf mem slack (be16 mem 4)
  let mem := ofpPacketQueue.convert 0 pq mem
  (ntohQueueProperties slack pq fuel ⟨mem,sub16 (le16 mem 4) 8,8⟩).map PropertyLoop.dst

/-- `src->len - offset` comes after `dst->len` has been converted. -/
def htonPacketQueueInPlace (slack : Bytes) (fuel : ℕ) (mem : Bytes) : Option Bytes :=
  let pq := copyOf mem slack (le16 mem 4)
  let mem := ofpPacketQueue.convert 0 pq mem
  (htonQueueProperties slack pq fuel ⟨mem,sub16 (le16 mem 4) 8,8⟩).map PropertyLoop.dst

inductive Converter
  | ntohFlowStats
  | htonFlowStats
  | ntohPacketQueue
  | htonPacketQueue
  deriving DecidableEq

namespace Converter

def inPlace : Converter → Bytes → ℕ → Bytes → Option Bytes
  | .ntohFlowStats => ntohFlowStatsInPlace
  | .htonFlowStats => htonFlowStatsInPlace
  | .ntohPacketQueue => ntohPacketQueueInPlace
  | .htonPacketQueue => htonPacketQueueInPlace

/-- The destination of a call with two arrays. -/
def apart (converter : Converter) (slack : Bytes) (fuel : ℕ) (dst src : Bytes) : Option Bytes :=
  match converter with
  | .ntohFlowStats => (Convert.ntohFlowStats slack fuel dst src).map (fun s => s.conversion.dst)
  | .htonFlowStats => (Convert.htonFlowStats slack fuel dst src).map (fun s => s.conversion.dst)
  | .ntohPacketQueue => (Convert.ntohPacketQueue slack fuel dst src).map PropertyLoop.dst
  | .htonPacketQueue => (Convert.htonPacketQueue slack fuel dst src).map PropertyLoop.dst

def WellFormed : Converter → Bytes → Prop
  | .ntohFlowStats, mem => ∃ shapes, EntryShape .network mem shapes
  | .htonFlowStats, mem => ∃ shapes, EntryShape .host mem shapes
  | .ntohPacketQueue, mem => ∃ kinds, QueueShape .network mem kinds ∧ queueLength kinds ≤ 65535
  | .htonPacketQueue, mem => ∃ kinds, QueueShape .host mem kinds ∧ queueLength kinds ≤ 65535

/-- Whatever lies behind the two copies, both calls come back with the same bytes. -/
def AgreesInPlace (converter : Converter) (mem : Bytes) : Prop :=
  ∀ slack slack', ∃ fuel bytes, converter.inPlace slack fuel mem = some bytes ∧
    converter.apart slack' fuel mem mem = some bytes

end Converter

section Rules
variable {order : ByteOrder} {mem pq pq' slack slack' dst : Bytes} {ph fuel : ℕ} {kind : QueueProperty}
  {kinds : List QueueProperty} {s : PropertyLoop}

theorem HasProperty.congr (h : HasProperty order pq ph kind) (hsame : ∀ i, ph ≤ i → i < ph+kind.len → pq' i = pq i) :
    HasProperty order pq' ph kind := by
  have h8 := kind.eight_le
  refine ⟨?_,?_⟩
  · rw [ByteOrder.read16_congr order (hsame ph (by omega) (by omega)) (hsame (ph+1) (by omega) (by omega))]
    exact h.property
  · rw [ByteOrder.read16_congr order (hsame (ph+2) (by omega) (by omega)) (hsame (ph+2+1) (by omega) (by omega))]
    exact h.len

/-- A property is converted from its own bytes. -/
theorem propertyDone_congr (h : HasProperty order pq ph kind) (hsame : ∀ i, ph ≤ i → i < ph+kind.len → pq' i = pq i)
    (slack slack' dst : Bytes) : propertyDone order slack' pq' dst ph = propertyDone order slack pq dst ph := by
  have h8 := kind.eight_le
  have hcopy : ∀ j < kind.len, copyOf (window pq' ph) slack' kind.len j = copyOf (window pq ph) slack kind.len j := by
    intro j hj
    rw [copyOf,copyOf,if_pos hj,if_pos hj]
    exact hsame (ph+j) (by omega) (by omega)
  have hheader : ofpQueuePropHeader.convert 0 (copyOf (window pq' ph) slack' kind.len) (window dst ph) =
      ofpQueuePropHeader.convert 0 (copyOf (window pq ph) slack kind.len) (window dst ph) := by
    refine Layout.convert_congr _ 0 _ (fun j _ hj => hcopy j ?_)
    change j < 0+4 at hj
    omega
  rw [propertyDone,propertyDone,queueProperty_eq (h.congr hsame).at_window,queueProperty_eq h.at_window,hheader]
  split
  · rename_i hkind
    subst hkind
    refine congrArg (splice dst ph) (Layout.convert_congr _ 8 _ (fun j _ hj => hcopy j ?_))
    change j < 8+2 at hj
    change j < 16
    omega
  · rfl

theorem queueProperties_congr (h : ∀ x ∈ located QueueProperty.len ph kinds, HasProperty order pq x.1 x.2)
    (hsame : ∀ i, ph ≤ i → i < ph+totalSize QueueProperty.len kinds → pq' i = pq i)
    (hw : totalSize QueueProperty.len kinds < 65536) (slack slack' dst : Bytes) (fuel : ℕ) :
    queueProperties order slack' pq' fuel ⟨dst,totalSize QueueProperty.len kinds,ph⟩ =
      queueProperties order slack pq fuel ⟨dst,totalSize QueueProperty.len kinds,ph⟩ := by
  induction kinds generalizing ph dst fuel with
  | nil =>
    have hnone : totalSize QueueProperty.len [] = 0 := rfl
    cases fuel <;> cases order <;> simp [queueProperties,ntohQueueProperties,htonQueueProperties,hnone]
  | cons kind kinds ih =>
    cases fuel with
    | zero => cases order <;> rfl
    | succ fuel =>
      have h8 := kind.eight_le
      rw [totalSize_cons] at hw hsame ⊢
      have hhead : HasProperty order pq ph kind := h (ph,kind) List.mem_cons_self
      have hkind : ∀ i, ph ≤ i → i < ph+kind.len → pq' i = pq i := fun i hl hu => hsame i hl (by omega)
      have hrest := ih (fun x hx => h x (List.mem_cons_of_mem _ hx)) (fun i hl hu => hsame i (by omega) (by omega))
        (by omega) (propertyDone order slack pq dst ph) fuel
      rw [queueProperties_step hhead slack dst (by omega),queueProperties_step (hhead.congr hkind) slack' dst (by omega),
        propertyDone_congr hhead hkind slack slack',sub16_of_le (by omega) hw,Nat.add_sub_cancel_left]
      exact hrest

theorem copyOf_property (h : QueueShape order mem kinds) (slack : Bytes) {x : ℕ × QueueProperty}
    (hx : x ∈ located QueueProperty.len 8 kinds) :
    HasProperty order (copyOf mem slack (queueLength kinds)) x.1 x.2 := by
  have hbounds : 8 ≤ x.1 ∧ x.1+x.2.len ≤ queueLength kinds := located_bounds hx
  exact (h.properties x hx).congr (fun i _ hu => if_pos (by omega))

/-- What lies behind the copies has no part in the result. -/
theorem packetQueue_slack (h : QueueShape order mem kinds) (hb : queueLength kinds ≤ 65535) (slack slack' dst : Bytes)
    (fuel : ℕ) : packetQueue order slack' fuel dst mem = packetQueue order slack fuel dst mem := by
  have hlength : queueLength kinds = 8+totalSize QueueProperty.len kinds := rfl
  have hcopy : ∀ i < queueLength kinds,
      copyOf mem slack' (queueLength kinds) i = copyOf mem slack (queueLength kinds) i := by
    intro i hi
    rw [copyOf,copyOf,if_pos hi,if_pos hi]
  have hheader : ofpPacketQueue.convert 0 (copyOf mem slack' (queueLength kinds)) dst =
      ofpPacketQueue.convert 0 (copyOf mem slack (queueLength kinds)) dst := by
    refine Layout.convert_congr _ 0 _ (fun j _ hj => hcopy j ?_)
    change j < 0+8 at hj
    omega
  rw [packetQueue_eq h slack dst hb,packetQueue_eq h slack' dst hb,hheader]
  exact queueProperties_congr (fun x hx => copyOf_property h slack hx) (fun i _ hu => hcopy i (by omega)) (by omega)
    slack slack' _ fuel

/-- The length as it stands in the destination, after the header has been converted. -/
theorem le16_header (pq dst : Bytes) : le16 (ofpPacketQueue.convert 0 pq dst) 4 = be16 pq 4 :=
  (ofpPacketQueue.converted_convert 0 pq dst).2.1.read16 .network

/-- The loop gets past the properties with what they leave of its length, or it stops at
one of them and leaves it as it was. -/
theorem queueProperties_short {remaining : ℕ} (h : ∀ x ∈ located QueueProperty.len ph kinds, HasProperty .host pq x.1 x.2)
    (hr : remaining < 65536) (hw : totalSize QueueProperty.len kinds < 65536)
    (hrun : queueProperties .host slack pq fuel ⟨dst,remaining,ph⟩ = some s) :
    (∃ x ∈ located QueueProperty.len ph kinds, ∀ i, x.1 ≤ i → s.dst i = dst i) ∨
      ∃ fuel' dst', queueProperties .host slack pq fuel'
        ⟨dst',sub16 remaining (totalSize QueueProperty.len kinds),ph+totalSize QueueProperty.len kinds⟩ = some s := by
  induction kinds generalizing ph remaining fuel dst with
  | nil =>
    right
    have hnone : sub16 remaining (totalSize QueueProperty.len []) = remaining := by
      change (remaining+65536-0)%65536 = remaining
      omega
    exact ⟨fuel,dst,by rw [hnone]; exact hrun⟩
  | cons kind kinds ih =>
    obtain ⟨fuel,rfl⟩ := (fuelLoop_queueProperties _ _ _).succ_of_run hrun
    have hhead : HasProperty .host pq ph kind := h (ph,kind) List.mem_cons_self
    rw [totalSize_cons] at hw
    by_cases h8 : 8 ≤ remaining
    · rw [queueProperties_step hhead slack dst h8] at hrun
      rcases ih (fun x hx => h x (List.mem_cons_of_mem _ hx)) (sub16_lt _ _) (by omega) hrun with
        ⟨x,hx,hkept⟩ | ⟨fuel',dst',hpast⟩
      · left
        refine ⟨x,List.mem_cons_of_mem _ hx,fun i hi => (hkept i hi).trans ?_⟩
        have hbounds := located_bounds hx
        exact (propertyDone_carried hhead slack dst).2 i (Or.inr (by omega))
      · right
        refine ⟨fuel',dst',?_⟩
        have hsum : sub16 remaining (totalSize QueueProperty.len (kind :: kinds)) =
            sub16 (sub16 remaining kind.len) (totalSize QueueProperty.len kinds) := by
          rw [totalSize_cons]
          unfold sub16
          omega
        rw [hsum,totalSize_cons,← Nat.add_assoc]
        exact hpast
    · left
      have hstop : queueProperties .host slack pq (fuel+1) ⟨dst,remaining,ph⟩ = some ⟨dst,remaining,ph⟩ := by
        simp [queueProperties,htonQueueProperties,h8]
      obtain rfl := Option.some.inj (hstop.symm.trans hrun)
      exact ⟨(ph,kind),List.mem_cons_self,fun _ _ => rfl⟩

/-- The loop only writes from where it stands. -/
theorem htonQueueProperties_before {t : PropertyLoop} (hrun : htonQueueProperties slack pq fuel t = some s) {i : ℕ}
    (hi : i < t.ph) : s.dst i = t.dst i := by
  induction fuel generalizing t with
  | zero => cases hrun
  | succ fuel ih =>
    simp only [htonQueueProperties] at hrun
    split at hrun
    · exact (ih hrun (Nat.lt_add_right _ hi)).trans (splice_before hi)
    · cases hrun
      rfl

theorem htonQueueProperty_first (slack dst src : Bytes) :
    htonQueueProperty slack dst src 0 = copyOf src slack (le16 src 2) 1 := by
  have hheader : ofpQueuePropHeader.convert 0 (copyOf src slack (le16 src 2)) dst 0 = copyOf src slack (le16 src 2) 1 :=
    (ofpQueuePropHeader.converted_convert 0 _ dst).1.swapped (show 0 < 2 by decide)
  unfold htonQueueProperty
  split
  · exact (Layout.convert_outside _ 8 _ _ (Or.inl (by decide))).trans hheader
  · exact hheader

/-- Past the end of the copy the loop writes what it finds there. -/
theorem htonQueueProperties_overrun {c : UInt8} {remaining : ℕ} (hc : c ≠ 0) (hpq : ∀ i, ph ≤ i → pq i = c)
    (h8 : 8 ≤ remaining) (hrun : htonQueueProperties (fun _ => c) pq fuel ⟨dst,remaining,ph⟩ = some s) : s.dst ph = c := by
  cases fuel with
  | zero => cases hrun
  | succ fuel =>
    simp only [htonQueueProperties,ge_iff_le,h8,if_true] at hrun
    have hfirst : splice dst ph (htonQueueProperty (fun _ => c) (window dst ph) (window pq ph)) ph = c := by
      have hat := splice_at dst (htonQueueProperty (fun _ => c) (window dst ph) (window pq ph)) ph 0
      rw [Nat.add_zero] at hat
      rw [hat,htonQueueProperty_first,copyOf]
      split
      · exact hpq (ph+1) (Nat.le_succ ph)
      · rfl
    have hlen : 0 < le16 pq (ph+2) := by
      have hpos : 0 < c.toNat := Nat.pos_of_ne_zero (fun h0 => hc (UInt8.toNat_inj.mp h0))
      rw [le16,hpq (ph+2) (by omega)]
      omega
    exact (htonQueueProperties_before hrun (Nat.lt_add_of_pos_right hlen)).trans hfirst

/-- A length with its bytes exchanged leaves at least a header too many, or it comes round. -/
theorem sub16_swapped {a b total : ℕ} (ha : a < 256) (hb : b < 256) (hne : a ≠ b) (h : a+b*256 = 8+total) :
    8 ≤ sub16 (sub16 (a*256+b) 8) total := by
  by_cases h8 : 8 ≤ a*256+b
  · rw [sub16_of_le h8 (by omega)]
    rcases Nat.lt_or_gt_of_ne hne with hlt | hlt
    · have hwrap : sub16 (a*256+b-8) total = a*256+b-8+65536-total := Nat.mod_eq_of_lt (by omega)
      omega
    · rw [sub16_of_le (by omega) (by omega)]
      omega
  · have hfirst : sub16 (a*256+b) 8 = a*256+b+65536-8 := Nat.mod_eq_of_lt (by omega)
    rw [hfirst,sub16_of_le (by omega) (by omega)]
    omega

/-- What a call in place starts its loop with, of the length with its bytes exchanged. -/
theorem htonPacketQueueInPlace_eq (h : QueueShape .host mem kinds) (hb : queueLength kinds ≤ 65535) (slack : Bytes)
    (fuel : ℕ) : htonPacketQueueInPlace slack fuel mem =
      (queueProperties .host slack (copyOf mem slack (queueLength kinds)) fuel
        ⟨ofpPacketQueue.convert 0 (copyOf mem slack (queueLength kinds)) mem,sub16 (be16 mem 4) 8,8⟩).map PropertyLoop.dst := by
  have hlength : queueLength kinds = 8+totalSize QueueProperty.len kinds := rfl
  have hlen : le16 mem 4 = queueLength kinds := h.len
  have hcopy : be16 (copyOf mem slack (queueLength kinds)) 4 = be16 mem 4 :=
    ByteOrder.read16_congr .network (if_pos (by omega)) (if_pos (by omega))
  simp only [htonPacketQueueInPlace,hlen,le16_header,hcopy]
  rfl

theorem ntohPacketQueueInPlace_eq (slack : Bytes) (fuel : ℕ) (mem : Bytes) : ntohPacketQueueInPlace slack fuel mem =
    (packetQueue .network slack fuel mem mem).map PropertyLoop.dst := rfl

theorem apart_packetQueue (slack : Bytes) (fuel : ℕ) (dst mem : Bytes) :
    Converter.ntohPacketQueue.apart slack fuel dst mem = (packetQueue .network slack fuel dst mem).map PropertyLoop.dst ∧
      Converter.htonPacketQueue.apart slack fuel dst mem = (packetQueue .host slack fuel dst mem).map PropertyLoop.dst :=
  ⟨rfl,rfl⟩

theorem htonPacketQueue_agrees (h : QueueShape .host mem kinds) (hb : queueLength kinds ≤ 65535) (hswap : mem 4 = mem 5) :
    Converter.htonPacketQueue.AgreesInPlace mem := by
  intro slack slack'
  obtain ⟨s,hs,-⟩ := packetQueue_carried h slack mem hb (Nat.le_refl 65536)
  have hlength : queueLength kinds = 8+totalSize QueueProperty.len kinds := rfl
  have hlen : be16 mem 4 = queueLength kinds := by
    have hle : (mem 4).toNat+(mem 5).toNat*256 = queueLength kinds := h.len
    change (mem 4).toNat*256+(mem 5).toNat = queueLength kinds
    rw [hswap] at hle ⊢
    omega
  have hrest : sub16 (be16 mem 4) 8 = totalSize QueueProperty.len kinds := by
    rw [hlen,sub16_of_le (by omega) (by omega)]
    omega
  refine ⟨65536,s.dst,?_,?_⟩
  · rw [Converter.inPlace,htonPacketQueueInPlace_eq h hb,hrest,← packetQueue_eq h slack mem hb,hs]
    rfl
  · rw [(apart_packetQueue slack' 65536 mem mem).2,packetQueue_slack h hb slack slack',hs]
    rfl

/-- What the call with two arrays leaves, however long it was allowed to run. -/
theorem apart_htonPacketQueue_carried (h : QueueShape .host mem kinds) (hb : queueLength kinds ≤ 65535) {bytes : Bytes}
    (hrun : Converter.htonPacketQueue.apart slack fuel mem mem = some bytes) :
    QueueCarried .host .network mem bytes kinds ∧ ∀ i, queueLength kinds ≤ i → bytes i = mem i := by
  rw [(apart_packetQueue slack fuel mem mem).2] at hrun
  obtain ⟨s,hs,rfl⟩ := Option.map_eq_some_iff.mp hrun
  obtain ⟨t,ht,-,hcarried,hframe⟩ := packetQueue_carried h slack mem hb (Nat.le_refl 65536)
  rw [packetQueue_eq h slack mem hb] at hs ht
  obtain rfl : s = t := (fuelLoop_queueProperties .host slack _).unique hs ht
  exact ⟨hcarried,hframe⟩

/-- The length of a property does not read the same both ways. -/
theorem PropertyCarried.not_kept (hp : HasProperty .host mem ph kind) {bytes : Bytes}
    (hcarried : PropertyCarried .host .network mem bytes ph kind) : ¬ ∀ i, ph ≤ i → bytes i = mem i := by
  intro hkept
  have hunconverted : le16 bytes (ph+2) = kind.len :=
    (ByteOrder.read16_congr .host (hkept (ph+2) (by omega)) (hkept (ph+2+1) (by omega))).trans hp.len
  have hconverted : be16 bytes (ph+2) = kind.len := hcarried.len.trans hp.len
  have hlow : kind.len = 8 ∨ kind.len = 16 := by
    cases kind with
    | ofpqtNone => exact Or.inl rfl
    | ofpqtMinRate => exact Or.inr rfl
  unfold le16 at hunconverted
  unfold be16 at hconverted
  omega

/-- With the length exchanged the loop leaves a property as it is, or it writes behind
the queue what stands behind the copy. -/
theorem htonPacketQueueInPlace_swapped (h : QueueShape .host mem kinds) (hb : queueLength kinds ≤ 65535)
    (hswap : mem 4 ≠ mem 5) {c : UInt8} (hc : c ≠ 0) {bytes : Bytes}
    (hrun : htonPacketQueueInPlace (fun _ => c) fuel mem = some bytes) :
    (∃ x ∈ located QueueProperty.len 8 kinds, ∀ i, x.1 ≤ i → bytes i = mem i) ∨ bytes (queueLength kinds) = c := by
  have hlength : queueLength kinds = 8+totalSize QueueProperty.len kinds := rfl
  rw [htonPacketQueueInPlace_eq h hb] at hrun
  obtain ⟨s,hs,rfl⟩ := Option.map_eq_some_iff.mp hrun
  rcases queueProperties_short (fun x hx => copyOf_property h (fun _ => c) hx) (sub16_lt _ _) (by omega) hs with
    ⟨x,hx,hkept⟩ | ⟨fuel',dst',hpast⟩
  · refine Or.inl ⟨x,hx,fun i hi => (hkept i hi).trans ?_⟩
    have hbounds := located_bounds hx
    exact Layout.convert_outside _ 0 _ mem (Or.inr (Nat.le_trans hbounds.1 hi))
  · have hover : 8 ≤ sub16 (sub16 (be16 mem 4) 8) (totalSize QueueProperty.len kinds) := by
      have hlen : (mem 4).toNat+(mem 5).toNat*256 = 8+totalSize QueueProperty.len kinds := h.len
      have hne : (mem 4).toNat ≠ (mem 5).toNat := fun heq => hswap (UInt8.toNat_inj.mp heq)
      exact sub16_swapped (mem 4).toNat_lt (mem 5).toNat_lt hne hlen
    have hslack : ∀ i, queueLength kinds ≤ i → copyOf mem (fun _ => c) (queueLength kinds) i = c :=
      fun i hi => if_neg (by omega)
    rw [← hlength] at hpast
    exact Or.inr (htonQueueProperties_overrun hc hslack hover hpast)

/-- With a wrong length the loop stops at a property or goes past the copy. -/
theorem htonPacketQueue_disagrees (h : QueueShape .host mem kinds) (hb : queueLength kinds ≤ 65535) (hswap : mem 4 ≠ mem 5) :
    ¬ Converter.htonPacketQueue.AgreesInPlace mem := by
  intro hagrees
  obtain ⟨c,hc,hcmem⟩ : ∃ c : UInt8, c ≠ 0 ∧ c ≠ mem (queueLength kinds) := by
    by_cases h1 : mem (queueLength kinds) = 1
    · exact ⟨2,by decide,by rw [h1]; decide⟩
    · exact ⟨1,by decide,Ne.symm h1⟩
  obtain ⟨fuel,bytes,hinPlace,hapart⟩ := hagrees (fun _ => c) (fun _ => 0)
  obtain ⟨hcarried,hframe⟩ := apart_htonPacketQueue_carried h hb hapart
  rcases htonPacketQueueInPlace_swapped h hb hswap hc hinPlace with ⟨x,hx,hkept⟩ | hwritten
  · exact (hcarried.properties x hx).not_kept (h.properties x hx) hkept
  · exact hcmem (hwritten.symm.trans (hframe (queueLength kinds) (Nat.le_refl _)))

theorem flowStats_agrees {shapes : List ActionShape} (h : EntryShape order mem shapes) (slack slack' : Bytes) :
    ∃ fuel bytes, (flowStats order slack fuel mem mem).map (fun s => s.conversion.dst) = some bytes ∧
      (flowStats order slack' fuel mem mem).map (fun s => s.conversion.dst) = some bytes := by
  have hrun (slack : Bytes) := flowStats_run (show 0 < 8 by decide) h.length h.bounded slack mem
    (h.actions.congr (fun i _ hu => if_pos hu))
  obtain ⟨s,hs,-,-,hdst,-⟩ := hrun slack
  obtain ⟨s',hs',-,-,hdst',-⟩ := hrun slack'
  refine ⟨_,_,congrArg (Option.map _) hs,?_⟩
  rw [hs']
  exact congrArg some (hdst'.trans hdst.symm)

theorem ntohPacketQueue_agrees (h : QueueShape .network mem kinds) (hb : queueLength kinds ≤ 65535) :
    Converter.ntohPacketQueue.AgreesInPlace mem := by
  intro slack slack'
  obtain ⟨s,hs,-⟩ := packetQueue_carried h slack mem hb (Nat.le_refl 65536)
  refine ⟨65536,s.dst,?_,?_⟩
  · rw [Converter.inPlace,ntohPacketQueueInPlace_eq,hs]
    rfl
  · rw [(apart_packetQueue slack' 65536 mem mem).1,packetQueue_slack h hb slack slack',hs]
    rfl

/-- The calls in place that do what a call with another array does: all but those of
`hton_packet_queue` on a length whose bytes differ. -/
theorem agreesInPlace_iff (converter : Converter) {mem : Bytes} (h : converter.WellFormed mem) :
    converter.AgreesInPlace mem ↔ (converter = .htonPacketQueue → mem 4 = mem 5) := by
  cases converter with
  | ntohFlowStats =>
    obtain ⟨shapes,h⟩ := h
    exact iff_of_true (fun slack slack' => flowStats_agrees h slack slack') (by simp)
  | htonFlowStats =>
    obtain ⟨shapes,h⟩ := h
    exact iff_of_true (fun slack slack' => flowStats_agrees h slack slack') (by simp)
  | ntohPacketQueue =>
    obtain ⟨kinds,h,hb⟩ := h
    exact iff_of_true (ntohPacketQueue_agrees h hb) (by simp)
  | htonPacketQueue =>
    obtain ⟨kinds,h,hb⟩ := h
    constructor
    · intro hagrees _
      by_contra hswap
      exact htonPacketQueue_disagrees h hb hswap hagrees
    · intro hswap
      exact htonPacketQueue_agrees h hb (hswap rfl)

end Rules

/-- A description of 16 bytes with one property of 8. -/
def plainQueue : Bytes := fun i => if i = 4 then 16 else if i = 10 then 8 else 0

theorem plainQueue_shape : QueueShape .host plainQueue [.ofpqtNone] := by
  refine ⟨by decide,fun x hx => ?_⟩
  obtain rfl := List.mem_singleton.mp hx
  exact ⟨by decide,by decide⟩

theorem agreesInPlace_iff_plainQueue : Converter.htonPacketQueue.WellFormed plainQueue ∧
    (Converter.htonPacketQueue.AgreesInPlace plainQueue ↔
      (Converter.htonPacketQueue = .htonPacketQueue → plainQueue 4 = plainQueue 5)) :=
  have h : Converter.htonPacketQueue.WellFormed plainQueue := ⟨[.ofpqtNone],plainQueue_shape,by decide⟩
  ⟨h,agreesInPlace_iff .htonPacketQueue h⟩

/-- Its length comes out as 4096, and the loop leaves the copy. -/
theorem plainQueue_not_agrees : Converter.htonPacketQueue.WellFormed plainQueue ∧
    ¬ Converter.htonPacketQueue.AgreesInPlace plainQueue :=
  ⟨⟨[.ofpqtNone],plainQueue_shape,by decide⟩,htonPacketQueue_disagrees plainQueue_shape (by decide) (by decide)⟩

end OpenFlowController.Convert
