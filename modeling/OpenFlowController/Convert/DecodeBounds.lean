import OpenFlowController.Check.Statistics
import OpenFlowController.Convert.RoundTrip

/-! # Decoding what has been validated

The validator and the decoder of a flow entry walk its actions independently:
the one until its offset has passed the end, the other while a whole header is
left. They part on entries whose last action overruns the entry.
-/
namespace OpenFlowController.Convert
open Memory Access Protocol Check

def entryAt (mem : Bytes) (entry : ℕ) : Bytes := fun i => mem (entry+i)

/-- Decoding ends, and reads and writes only within the length of the entry,
whatever lies behind the copy and in the destination. -/
def DecodesInside (mem : Bytes) (entry : ℕ) : Prop :=
  ∀ slack dst, ∃ fuel s, ntohFlowStats slack fuel dst (entryAt mem entry) = some s ∧
    (∀ i ∈ s.conversion.reads, i < be16 mem entry) ∧ ∀ i ∈ s.conversion.writes, i < be16 mem entry

/-- The offsets the decoder comes to, moving by the lengths of the actions while
a header's worth of bytes is left. -/
def DecodedOffset (mem : Bytes) (entry : ℕ) : ℕ → ℕ → Prop :=
  Visits (fun offset => offset+8 ≤ flowActionsLength mem entry) (fun _ => True)
    (fun offset => offset+be16 mem (entry+88+offset+2))

/-- The entry has its fixed part, and no action the decoder comes to is longer
than the bytes left. -/
structure EntryFits (mem : Bytes) (entry : ℕ) : Prop where
  fixed : 88 ≤ be16 mem entry
  actions : ∀ offset, DecodedOffset mem entry 0 offset → offset+8 ≤ flowActionsLength mem entry →
    offset+be16 mem (entry+88+offset+2) ≤ flowActionsLength mem entry

theorem ActionAccepted.shape {mem : Bytes} {a : ℕ} (h : ActionAccepted mem a) :
    ∃ shape : ActionShape, HasAction .network mem a shape := by
  unfold ActionAccepted at h
  cases ht : OfpActionType.ofValue (be16 mem a) with
  | none => simp [ht] at h
  | some type =>
    have htype := (OfpActionType.ofValue_eq_some_iff _ _).mp ht
    have hsized : if type = .ofpatVendor then 8 ≤ be16 mem (a+2) else be16 mem (a+2) = structLength type := by
      cases type <;> simp [ht] at h <;> simp [structLength,h]
    exact ⟨⟨type,be16 mem (a+2),hsized⟩,htype.symm,rfl⟩

variable {mem : Bytes} {entry : ℕ}

theorem flowActionsLength_eq (h88 : 88 ≤ be16 mem entry) : flowActionsLength mem entry = be16 mem entry-88 :=
  sub16_of_le h88 (be16_lt mem entry)

/-- An action of the message whose header lies in the entry is the same action in
the decoder's copy. -/
theorem HasAction.inCopy {offset : ℕ} {shape : ActionShape} (slack : Bytes)
    (h : HasAction .network mem (entry+88+offset) shape) (h4 : 88+offset+4 ≤ be16 mem entry) :
    HasAction .network (copyOf (entryAt mem entry) slack (be16 mem entry)) (88+offset) shape := by
  have hbyte (i : ℕ) (hi : i < be16 mem entry) :
      copyOf (entryAt mem entry) slack (be16 mem entry) i = mem (entry+i) := if_pos hi
  have hread (i : ℕ) (hi : i+1 < be16 mem entry) :
      be16 (copyOf (entryAt mem entry) slack (be16 mem entry)) i = be16 mem (entry+i) :=
    ByteOrder.network.read16_congr (hbyte i (by omega)) (hbyte (i+1) hi)
  constructor
  · have ht := hread (88+offset) (by omega)
    rw [← Nat.add_assoc] at ht
    exact ht.trans h.type
  · have hl := hread (88+offset+2) (by omega)
    rw [← Nat.add_assoc,← Nat.add_assoc] at hl
    exact hl.trans h.len

/-- As long as nothing overruns, the decoder comes to offsets the validator has
come to, and those it accepts. -/
theorem DecodedOffset.accepted {offset : ℕ} (hacc : FlowStatsAccepted mem entry)
    (ho : ActionOffset mem (entry+88) (flowActionsLength mem entry) offset)
    (hlt : offset < flowActionsLength mem entry) : ActionAccepted mem (entry+88+offset) := by
  obtain ⟨-,t,ht,hend⟩ := hacc
  unfold ActionOffset at ho ht
  have hacc := Visits.accepted ho ht (by simpa using hend) (by simpa using hlt)
  exact hacc

theorem action_at {offset : ℕ} (hacc : FlowStatsAccepted mem entry) (h88 : 88 ≤ be16 mem entry)
    (ho : ActionOffset mem (entry+88) (flowActionsLength mem entry) offset)
    (h8 : offset+8 ≤ flowActionsLength mem entry) (slack : Bytes) :
    ∃ shape : ActionShape, be16 mem (entry+88+offset+2) = shape.len ∧
      HasAction .network (copyOf (entryAt mem entry) slack (be16 mem entry)) (88+offset) shape := by
  have hL := flowActionsLength_eq h88
  obtain ⟨shape,hs⟩ := ActionAccepted.shape (DecodedOffset.accepted hacc ho (by omega))
  exact ⟨shape,hs.len,hs.inCopy slack (by omega)⟩

theorem actionOffset_next {offset : ℕ} (hacc : FlowStatsAccepted mem entry)
    (ho : ActionOffset mem (entry+88) (flowActionsLength mem entry) offset)
    (hlt : offset < flowActionsLength mem entry)
    (hfit : offset+be16 mem (entry+88+offset+2) ≤ flowActionsLength mem entry) :
    ActionOffset mem (entry+88) (flowActionsLength mem entry) (offset+be16 mem (entry+88+offset+2)) := by
  have hL : flowActionsLength mem entry < 65536 := sub16_lt _ _
  refine ho.tail ⟨by simpa using hlt,DecodedOffset.accepted hacc ho hlt,?_⟩
  exact Nat.mod_eq_of_lt (by omega)

theorem EntryFits.shapes (hacc : FlowStatsAccepted mem entry) (hfits : EntryFits mem entry) (slack : Bytes)
    (offset : ℕ) (ho : ActionOffset mem (entry+88) (flowActionsLength mem entry) offset)
    (hd : DecodedOffset mem entry 0 offset) (hle : offset ≤ flowActionsLength mem entry) :
    ∃ shapes rest, rest < 8 ∧ actionsWidth shapes+rest = flowActionsLength mem entry-offset ∧
      HasActions .network (copyOf (entryAt mem entry) slack (be16 mem entry)) (88+offset) shapes := by
  by_cases h8 : offset+8 ≤ flowActionsLength mem entry
  · obtain ⟨shape,hlen,hshape⟩ := action_at hacc hfits.fixed ho h8 slack
    have hfit := hfits.actions offset hd h8
    have hpos := shape.eight_le
    have hnext : DecodedOffset mem entry 0 (offset+be16 mem (entry+88+offset+2)) :=
      hd.tail ⟨by simpa using h8,trivial,rfl⟩
    obtain ⟨shapes,rest,hr,hw,hs⟩ :=
      EntryFits.shapes hacc hfits slack _ (actionOffset_next hacc ho (by omega) hfit) hnext hfit
    refine ⟨shape :: shapes,rest,hr,?_,hshape,?_⟩
    · rw [actionsWidth_cons]
      omega
    · rwa [hlen,← Nat.add_assoc] at hs
  · exact ⟨[],flowActionsLength mem entry-offset,by omega,by simp [actionsWidth],trivial⟩
termination_by flowActionsLength mem entry-offset

theorem ntohAction_writes {src : Bytes} {ah i : ℕ} {c : Conversion} (h : i ∈ c.writes) :
    i ∈ (ntohAction src ah c).writes := by
  have happly (d : Conversion) (layout : Layout) (o : ℕ) (hd : i ∈ d.writes) :
      i ∈ (d.apply layout src o).writes := List.mem_append_left _ hd
  have hbody (d : Conversion) (len : ℕ) (hd : i ∈ d.writes) :
      i ∈ (copyActionVendorBody src ah len d).writes := by
    unfold copyActionVendorBody
    split
    · exact happly d _ _ hd
    · exact hd
  unfold ntohAction
  cases OfpActionType.ofValue (be16 src ah) with
  | none => exact h
  | some type =>
    cases type with
    | ofpatVendor => exact hbody _ _ (happly _ _ _ h)
    | _ => exact happly _ _ _ h

theorem ntohActions_writes {fs : Bytes} {fuel i : ℕ} {s s' : ActionLoop} (h : ntohActions fs fuel s = some s')
    (hi : i ∈ s.conversion.writes) : i ∈ s'.conversion.writes := by
  induction fuel generalizing s with
  | zero => cases h
  | succ fuel ih =>
    rw [ntohActions] at h
    split at h
    · exact ih h (ntohAction_writes hi)
    · cases h
      exact hi

/-- A round of a decoder that ends writing inside the entry: the action it stands
at fits, and the rest of the run starts behind it. -/
theorem decoder_round (hacc : FlowStatsAccepted mem entry) (h88 : 88 ≤ be16 mem entry) {slack : Bytes}
    {offset : ℕ} (ho : ActionOffset mem (entry+88) (flowActionsLength mem entry) offset)
    (h8 : offset+8 ≤ flowActionsLength mem entry) {c : Conversion} {fuel : ℕ} {s : ActionLoop}
    (hrun : ntohActions (copyOf (entryAt mem entry) slack (be16 mem entry)) fuel
      ⟨c,flowActionsLength mem entry-offset,88+offset⟩ = some s)
    (hin : ∀ i ∈ s.conversion.writes, i < be16 mem entry) :
    offset+be16 mem (entry+88+offset+2) ≤ flowActionsLength mem entry ∧ ∃ c' fuel',
      ntohActions (copyOf (entryAt mem entry) slack (be16 mem entry)) fuel'
        ⟨c',flowActionsLength mem entry-(offset+be16 mem (entry+88+offset+2)),
          88+(offset+be16 mem (entry+88+offset+2))⟩ = some s := by
  have hL := flowActionsLength_eq h88
  have hlt := be16_lt mem entry
  obtain ⟨shape,hlen,hshape⟩ := action_at hacc h88 ho h8 slack
  have hpos := shape.eight_le
  cases fuel with
  | zero => cases hrun
  | succ fuel =>
    obtain ⟨c',hc,hstep⟩ :=
      actionsLoop_step hshape c (show 8 ≤ flowActionsLength mem entry-offset by omega)
    have hrun' := (hstep fuel).symm.trans hrun
    -- the last byte written of this action
    have hlast := hin _ (ntohActions_writes hrun' ((hc.writes (88+offset+(shape.len-1))).mpr (Or.inr (by omega))))
    have hfit : offset+be16 mem (entry+88+offset+2) ≤ flowActionsLength mem entry := by omega
    refine ⟨hfit,c',fuel,?_⟩
    have hsub : sub16 (flowActionsLength mem entry-offset) shape.len =
        flowActionsLength mem entry-(offset+be16 mem (entry+88+offset+2)) := by
      rw [sub16_of_le (by omega) (by omega)]
      omega
    rw [hsub,Nat.add_assoc 88 offset,← hlen] at hrun'
    exact hrun'

theorem DecodedOffset.fits (hacc : FlowStatsAccepted mem entry) (h88 : 88 ≤ be16 mem entry) {slack : Bytes}
    {offset target : ℕ} (hpath : DecodedOffset mem entry offset target)
    (ho : ActionOffset mem (entry+88) (flowActionsLength mem entry) offset) {c : Conversion} {fuel : ℕ}
    {s : ActionLoop} (hrun : ntohActions (copyOf (entryAt mem entry) slack (be16 mem entry)) fuel
      ⟨c,flowActionsLength mem entry-offset,88+offset⟩ = some s)
    (hin : ∀ i ∈ s.conversion.writes, i < be16 mem entry) (h8 : target+8 ≤ flowActionsLength mem entry) :
    target+be16 mem (entry+88+target+2) ≤ flowActionsLength mem entry := by
  induction hpath using Relation.ReflTransGen.head_induction_on generalizing c fuel with
  | refl => exact (decoder_round hacc h88 ho h8 hrun hin).1
  | head ht _ ih =>
    obtain ⟨hm,-,rfl⟩ := ht
    have hm8 := of_decide_eq_true hm
    obtain ⟨hfit,c',fuel',hrun'⟩ := decoder_round hacc h88 ho hm8 hrun hin
    exact ih (actionOffset_next hacc ho (by omega) hfit) hrun'

theorem decodesInside_iff (hacc : FlowStatsAccepted mem entry) :
    DecodesInside mem entry ↔ EntryFits mem entry := by
  have hlen : be16 (entryAt mem entry) 0 = be16 mem entry := by
    simp [be16,entryAt]
  constructor
  · intro h
    obtain ⟨fuel,s,hrun,-,hin⟩ := h (fun _ => 0) (fun _ => 0)
    simp only [ntohFlowStats,hlen] at hrun
    have h88 : 88 ≤ be16 mem entry := by
      have hfixed : 87 ∈ ofpFlowStats.writes 0 := by decide
      have hlast := hin 87 (ntohActions_writes hrun (List.mem_append_right _ hfixed))
      omega
    have hstart : flowActionsLength mem entry-0 = sub16 (be16 mem entry) 88 := Nat.sub_zero _
    rw [fixedPart,← hstart] at hrun
    refine ⟨h88,fun offset hd h8 => ?_⟩
    exact DecodedOffset.fits hacc h88 hd .refl hrun hin h8
  · intro h slack dst
    have hL := flowActionsLength_eq h.fixed
    have hlt := be16_lt mem entry
    have h88 := h.fixed
    obtain ⟨shapes,rest,hr,hw,hs⟩ := h.shapes hacc slack 0 .refl .refl (Nat.zero_le _)
    have htotal : entryLength shapes+rest = be16 mem entry := by
      unfold entryLength
      omega
    have hlength : ByteOrder.network.read16 (entryAt mem entry) 0 = entryLength shapes+rest :=
      hlen.trans htotal.symm
    obtain ⟨s,hrun,-,-,-,hreads,hwrites⟩ := flowStats_run hr hlength (by omega) slack dst
      (by rw [htotal]; exact hs)
    rw [htotal] at hreads hwrites
    exact ⟨_,s,hrun,hreads,hwrites⟩

/-- The entries of validated replies that decode within their bounds, exactly. -/
theorem ntohFlowStats_inside_iff (message : Message)
    (h : Returns (validateFlowStatsReply message) message.data .success) (s : ℕ × ℕ)
    (hs : FlowStatsCursor message.data (message.length-12,12) s) (hpos : 0 < s.1) :
    DecodesInside message.data s.2 ↔ EntryFits message.data s.2 :=
  decodesInside_iff (FlowStatsCursor.accepted h hs hpos)

/-- A flow reply with one entry of 96 bytes, all fields of its match wildcarded,
and the front of one action. -/
def replyWithAction (type len port : UInt8) : Message :=
  ⟨fun i =>
    match i with
    | 0 => 1 | 1 => 17 | 3 => 108 | 9 => 1 | 13 => 96 | 17 => 63 | 18 => 255 | 19 => 255
    | 101 => type | 103 => len | 105 => port | _ => 0,108⟩

theorem ntohFlowStats_inside_iff_output :
    Returns (validateFlowStatsReply (replyWithAction 0 8 1)) (replyWithAction 0 8 1).data .success ∧
    (DecodesInside (replyWithAction 0 8 1).data 12 ↔ EntryFits (replyWithAction 0 8 1).data 12) := by
  have hvalid : Returns (validateFlowStatsReply (replyWithAction 0 8 1)) (replyWithAction 0 8 1).data
      .success := ⟨3,rfl⟩
  exact ⟨hvalid,ntohFlowStats_inside_iff (replyWithAction 0 8 1) hvalid (96,12) .refl (by decide)⟩

/-- An action of sixteen bytes with eight bytes of the entry left is accepted, and
decoding it writes past the entry. -/
theorem overrunning_action_decoded_outside :
    Returns (validateFlowStatsReply (replyWithAction 4 16 0)) (replyWithAction 4 16 0).data .success ∧
    FlowStatsCursor (replyWithAction 4 16 0).data ((replyWithAction 4 16 0).length-12,12) (96,12) ∧
    ¬ DecodesInside (replyWithAction 4 16 0).data 12 := by
  have hvalid : Returns (validateFlowStatsReply (replyWithAction 4 16 0)) (replyWithAction 4 16 0).data
      .success := ⟨3,rfl⟩
  have hentry : FlowStatsCursor (replyWithAction 4 16 0).data ((replyWithAction 4 16 0).length-12,12)
      (96,12) := .refl
  refine ⟨hvalid,hentry,fun h => ?_⟩
  have hacc := FlowStatsCursor.accepted hvalid hentry (by decide)
  have hfits := (decodesInside_iff hacc).mp h
  exact absurd (hfits.actions 0 .refl (by decide)) (by decide)

end OpenFlowController.Convert
