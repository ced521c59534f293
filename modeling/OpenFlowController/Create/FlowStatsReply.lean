import OpenFlowController.Create.Builders
import OpenFlowController.Create.HostOrder

/-! # Flow statistics replies

Builder, validator and decoder each move through the entries by a length of
their own. On well-formed entries they meet at every boundary.
-/
namespace OpenFlowController.Create
open Memory Access Check Protocol OpenFlowController.Convert

def flowsLength (flowsStatsHead : List Bytes) : ℕ :=
  flowsStatsHead.foldl (fun length flowStats => (length+le16 flowStats 0)%65536) 0

/-- The pointer moves by the length in host order. -/
def ccCreateFlowStatsReply (slack : Bytes) (fuel : ℕ) (allocated : Bool) (transactionId : UInt32)
    (flags : UInt16) (flowsStatsHead : List Bytes) : Option Message := do
  let length := (12+flowsLength flowsStatsHead)%65536
  let buffer ← ccCreateStatsReply allocated transactionId .ofpstFlow length flags
  let data ← writeEach (fun fs flowStats => (htonFlowStats slack fuel flowStats fs).map (fun s => s.conversion.dst))
    (fun fs => le16 fs 0) 12 flowsStatsHead buffer.data
  return { buffer with data }

/-- A flow entry in host order with its well-formed actions. -/
structure HostFlowStats where
  bytes : Bytes
  shapes : List ActionShape
  formed : EntryShape .host bytes shapes

def HostFlowStats.length (entry : HostFlowStats) : ℕ := entryLength entry.shapes

/-- The rules of the validators on an entry in host order. -/
structure HostFlowStats.Accepted (entry : HostFlowStats) : Prop where
  matched : validateMatch (hostMatchAt entry.bytes 4) = .success
  priority : (hostMatchAt entry.bytes 4).Exact → le16 entry.bytes 52 = ushrtMax
  actions : ∀ action ∈ located ActionShape.len 88 entry.shapes, HostActionAccepted entry.bytes action.1

/-- `ntoh_flow_stats` on `src` ends at the end of the entry and gives it back
with its padding cleared. -/
def HostFlowStats.DecodedFrom (entry : HostFlowStats) (src : Bytes) : Prop :=
  ∀ slack dst, ∀ fuel ≥ 65536, ∃ s, ntohFlowStats slack fuel dst src = some s ∧ s.actionsLength = 0 ∧
    ∀ i < entry.length, s.conversion.dst i = if i ∈ entryPadding entry.shapes then 0 else entry.bytes i

section Rules
variable {entry : HostFlowStats} {entries : List HostFlowStats} {mem src : Bytes} {p : ℕ}

theorem HostFlowStats.length_eq (entry : HostFlowStats) : le16 entry.bytes 0 = entry.length := entry.formed.length

theorem HostFlowStats.bounds (entry : HostFlowStats) : 88 ≤ entry.length ∧ entry.length ≤ 65535 ∧
    entry.length = 88+actionsWidth entry.shapes :=
  ⟨Nat.le_add_right 88 _,entry.formed.bounded,rfl⟩

/-- Encoding or decoding one entry with fuel for any entry. -/
theorem flowStats_converts {order : ByteOrder} {shapes : List ActionShape} (h : EntryShape order src shapes)
    (slack dst : Bytes) {fuel : ℕ} (hf : 65536 ≤ fuel) :
    ∃ s, flowStats order slack fuel dst src = some s ∧ s.actionsLength = 0 ∧
      s.conversion.dst = (entryLayout shapes).convert 0 src dst := by
  obtain ⟨s,hs,hrem,-,hdst,-,-⟩ := flowStats_run (show 0 < 8 by omega) h.length h.bounded slack dst
    (h.actions.congr (fun i _ hu => if_pos hu))
  have hwidth : shapes.length*8 ≤ actionsWidth shapes := length_mul_le_totalSize ActionShape.eight_le shapes
  have hb : 88+actionsWidth shapes ≤ 65535 := h.bounded
  exact ⟨s,flowStats_mono hs (by omega),hrem,hdst⟩

theorem HostFlowStats.decodedFrom (h : (entryLayout entry.shapes).Converted 0 entry.bytes src) :
    entry.DecodedFrom src := by
  intro slack dst fuel hf
  have hshape : EntryShape .network src entry.shapes :=
    (entry.formed.convert (fun _ => 0)).congr
      (fun i hi => h.eq_convert _ (Nat.zero_le i) (by simpa using hi))
  obtain ⟨s,hs,hrem,hdst⟩ := flowStats_converts hshape slack dst hf
  refine ⟨s,hs,hrem,fun i hi => ?_⟩
  rw [hdst,← pads_entryLayout]
  exact h.back dst (Nat.zero_le i) (by simpa [HostFlowStats.length] using hi)

/-- The validator's view of an entry that lies converted at `p`. -/
theorem HostFlowStats.accepted_iff (h : (entryLayout entry.shapes).Converted 0 entry.bytes (window mem p)) :
    be16 mem p = entry.length ∧ (FlowStatsAccepted mem p ↔ entry.Accepted) := by
  obtain ⟨hfixed,hactions⟩ := Layout.converted_append.mp h
  rw [Nat.zero_add,width_ofpFlowStats] at hactions
  unfold ofpFlowStats at hfixed
  obtain ⟨hfront,hback⟩ := Layout.converted_append.mp hfixed
  obtain ⟨hhead,hmatched⟩ := Layout.converted_append.mp hfront
  have hlength : be16 mem p = entry.length := (hhead.1.read16 .host).trans entry.length_eq
  have hmatch : matchAt mem (p+4) = hostMatchAt entry.bytes 4 := matchAt_eq hmatched
  have hpriority : be16 mem (p+52) = le16 entry.bytes 52 := hback.2.2.1.read16 .host
  obtain ⟨h88,hb,hsum⟩ := entry.bounds
  have hactionsLength : flowActionsLength mem p = actionsWidth entry.shapes := by
    rw [flowActionsLength,hlength,sub16_of_le h88 (by omega)]
    omega
  have hplaced := fun x hx => actionAccepted_iff (converted_actionsLayout_iff.mp hactions x hx)
    (hasActions_iff.mp entry.formed.actions x hx)
  have hlist : ActionsAccepted mem (p+88) (actionsWidth entry.shapes) ↔
      ∀ x ∈ located ActionShape.len 88 entry.shapes, HostActionAccepted entry.bytes x.1 := by
    have hwalk : WalksTo (fun q => be16 mem (q+2)) (fun q x => q = p+x.1)
        (p+88+actionsWidth entry.shapes) (p+88) (located ActionShape.len 88 entry.shapes) :=
      walksTo_located p rfl (fun x hx => ⟨(hplaced x hx).2.1,rfl⟩)
    refine actionsAccepted_iff_forall hwalk (by omega) ?_
    rintro q x hx rfl
    have hbounds := located_bounds hx
    have htotal : totalSize ActionShape.len entry.shapes = actionsWidth entry.shapes := rfl
    have h8 := x.2.eight_le
    refine ⟨by omega,by omega,?_,(hplaced x hx).2.2⟩
    rw [(hplaced x hx).2.1]
    omega
  refine ⟨hlength,?_⟩
  rw [FlowStatsAccepted,FlowStatsHeadAccepted,ExactPriority,hmatch,hpriority,hactionsLength,hlist]
  constructor
  · rintro ⟨⟨hm,hp⟩,ha⟩
    exact ⟨hm,hp,ha⟩
  · rintro ⟨hm,hp,ha⟩
    exact ⟨⟨hm,hp⟩,ha⟩

theorem flowsLength_eq (h : 12+totalSize HostFlowStats.length entries ≤ 65535) :
    flowsLength (entries.map HostFlowStats.bytes) = totalSize HostFlowStats.length entries := by
  have hfold := foldl_mod_of_lt HostFlowStats.length (show totalSize HostFlowStats.length entries < 65536 by omega)
  simpa [flowsLength,List.foldl_map,HostFlowStats.length_eq] using hfold

/-- The builder's loop leaves every entry converted at its place. -/
theorem placeFlowStats (slack : Bytes) {fuel : ℕ} (hf : 65536 ≤ fuel) (entries : List HostFlowStats) (mem : Bytes) :
    ∃ data, writeEach (fun fs flowStats => (htonFlowStats slack fuel flowStats fs).map (fun s => s.conversion.dst))
        (fun fs => le16 fs 0) 12 (entries.map HostFlowStats.bytes) mem = some data ∧
      (∀ i < 12, data i = mem i) ∧
      WalksTo (fun p => be16 data p) (fun p entry => p+entry.length ≤ 12+totalSize HostFlowStats.length entries ∧
        (entryLayout entry.shapes).Converted 0 entry.bytes (window data p))
        (12+totalSize HostFlowStats.length entries) 12 entries := by
  have hwidth : ∀ entry : HostFlowStats, (entryLayout entry.shapes).width = entry.length := fun entry =>
    width_entryLayout entry.shapes
  have hwrite : ∀ entry ∈ entries, ∀ dst : Bytes, ∃ block,
      (htonFlowStats slack fuel dst entry.bytes).map (fun s => s.conversion.dst) = some block ∧
      (entryLayout entry.shapes).Converted 0 entry.bytes block ∧ ∀ i, entry.length ≤ i → block i = dst i := by
    intro entry _ dst
    obtain ⟨s,hs,-,hdst⟩ := flowStats_converts entry.formed slack dst hf
    have hs : htonFlowStats slack fuel dst entry.bytes = some s := hs
    refine ⟨s.conversion.dst,by rw [hs]; rfl,hdst ▸ Layout.converted_convert _ 0 entry.bytes dst,fun i hi => ?_⟩
    rw [hdst]
    exact Layout.convert_outside _ 0 entry.bytes dst (Or.inr (by rw [hwidth]; omega))
  obtain ⟨data,hrun,hplaced,hframe⟩ := writeEach_placed hwrite
    (fun entry _ block block' h he => h.congr (fun i _ hu => he i (by rw [hwidth] at hu; omega)))
  refine ⟨data,?_,fun i hi => hframe i (Or.inl hi),hplaced.walksTo rfl (fun p entry _ hend hp => ?_)⟩
  · rw [writeEach_map]
    simpa only [HostFlowStats.length_eq] using hrun
  · exact ⟨(HostFlowStats.accepted_iff hp).1,hend,hp⟩

/-- The validator's loop over entries that lie converted one behind the other. -/
theorem flowReplyAccepted_iff {message : Message} (hstats : StatsReplyAccepted message)
    (hwalk : WalksTo (fun p => be16 message.data p) (fun p entry => p+entry.length ≤ message.length ∧
      (entryLayout entry.shapes).Converted 0 entry.bytes (window message.data p)) message.length 12 entries) :
    FlowReplyAccepted message ↔ ∀ entry ∈ entries, entry.Accepted := by
  have hmost : message.length ≤ 65535 := hstats.1.most
  have hends : (∃ s, FlowStatsCursor message.data (message.length-12,12) s ∧ decide (s.1 > 0) = false) ↔
      ∀ entry ∈ entries, entry.Accepted := by
    refine ends_iff (fun p => (message.length-p,p)) hwalk (fun p entry _ hp => ?_) (by simp)
    obtain ⟨hend,hconverted⟩ := hp
    obtain ⟨hlength,haccepted⟩ := HostFlowStats.accepted_iff hconverted
    have h88 := entry.bounds.1
    refine ⟨by simp only [decide_eq_true_eq]; omega,?_,haccepted⟩
    rw [flowStatsAfter,hlength,sub16_of_le (by omega) (by omega),Nat.sub_sub]
  rw [FlowReplyAccepted,and_iff_right hstats,← hends]
  simp

end Rules

theorem flowStatsReply_roundTrip (slack : Bytes) (transactionId : UInt32) (flags : UInt16)
    (entries : List HostFlowStats) (hflags : bitsOutside flags.toNat ofpsfReplyMore = 0)
    (hfits : 12+totalSize HostFlowStats.length entries ≤ 65535) {fuel : ℕ} (hf : 65536 ≤ fuel) :
    ∃ message, ccCreateFlowStatsReply slack fuel true transactionId flags (entries.map HostFlowStats.bytes) =
        some message ∧
      message.length = 12+totalSize HostFlowStats.length entries ∧ be16 message.data 2 = message.length ∧
      WalksTo (fun p => be16 message.data p) (fun p entry => entry.DecodedFrom (window message.data p))
        message.length 12 entries ∧
      (Returns (validateFlowStatsReply message) message.data .success ↔ ∀ entry ∈ entries, entry.Accepted) := by
  have hlt : 12+totalSize HostFlowStats.length entries < 65536 := by omega
  obtain ⟨buffer,hbuffer,hfresh⟩ := ccCreateStatsReply_fresh transactionId .ofpstFlow flags hlt
  obtain ⟨data,hdata,hframe,hwalk⟩ := placeFlowStats slack hf entries buffer.data
  obtain ⟨hfield,hstats⟩ := hfresh.accepted hframe hflags (Nat.le_add_right 12 _) hfits
  have hsize := hfresh.size
  rw [← hsize] at hwalk
  refine ⟨{ buffer with data },?_,hsize,hfield,
    hwalk.mono (fun p entry _ hp => HostFlowStats.decodedFrom hp.2),?_⟩
  · rw [ccCreateFlowStatsReply,flowsLength_eq hfits,Nat.mod_eq_of_lt hlt,hbuffer]
    simp [hdata]
  · rw [returns_validateFlowStatsReply]
    exact flowReplyAccepted_iff hstats hwalk

/-- The entry with an output and a vendor action. -/
def hostFlowStats : HostFlowStats :=
  ⟨hostEntry,outputThenVendor,⟨by decide,by decide,⟨by decide,by decide⟩,⟨by decide,by decide⟩,trivial⟩⟩

theorem flowStatsReply_roundTrip_hostFlowStats :
    ∃ message, ccCreateFlowStatsReply (fun _ => 0) 65536 true 1 1 [hostEntry] = some message ∧
      message.length = 120 ∧ be16 message.data 2 = message.length ∧
      WalksTo (fun p => be16 message.data p) (fun p entry => entry.DecodedFrom (window message.data p))
        message.length 12 [hostFlowStats] ∧
      (Returns (validateFlowStatsReply message) message.data .success ↔
        ∀ entry ∈ [hostFlowStats], entry.Accepted) :=
  flowStatsReply_roundTrip (fun _ => 0) 1 1 [hostFlowStats] (by decide) (by decide) (Nat.le_refl 65536)

end OpenFlowController.Create
