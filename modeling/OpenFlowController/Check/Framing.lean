import OpenFlowController.Check.OpenFlowMessage

/-! # What acceptance says of the frame

Whatever else a validator looks at, a message it lets through has the version of
the protocol, its own length in the header and room for the fixed part of its type.
-/
namespace OpenFlowController.Check
open Memory Access Protocol

/-- The struct of the body of a statistics request; the vendor's ends in a tail. -/
def statsRequestBodyLength : OfpStatsTypes → ℕ
  | .ofpstDesc => 0
  | .ofpstFlow => 44
  | .ofpstAggregate => 44
  | .ofpstTable => 0
  | .ofpstPort => 8
  | .ofpstQueue => 8
  | .ofpstVendor => 4

/-- The offset of the variable tail in the struct of a message, or the struct's
size where there is none. -/
def fixedLength (data : Bytes) : OfpType → ℕ
  | .ofptHello => 8
  | .ofptError => 12
  | .ofptEchoRequest => 8
  | .ofptEchoReply => 8
  | .ofptVendor => 12
  | .ofptFeaturesRequest => 8
  | .ofptFeaturesReply => 32
  | .ofptGetConfigRequest => 8
  | .ofptGetConfigReply => 12
  | .ofptSetConfig => 12
  | .ofptPacketIn => 18
  | .ofptFlowRemoved => 88
  | .ofptPortStatus => 64
  | .ofptPacketOut => 16
  | .ofptFlowMod => 72
  | .ofptPortMod => 32
  | .ofptStatsRequest => 12+((OfpStatsTypes.ofValue (be16 data 8)).map statsRequestBodyLength).getD 0
  | .ofptStatsReply => 12
  | .ofptBarrierRequest => 8
  | .ofptBarrierReply => 8
  | .ofptQueueGetConfigRequest => 12
  | .ofptQueueGetConfigReply => 16

structure Framed (message : Message) (type : OfpType) : Prop where
  version : (message.data 0).toNat = ofpVersion
  typed : (message.data 1).toNat = type.value
  length : be16 message.data 2 = message.length
  fixed : fixedLength message.data type ≤ message.length

section Rules
variable {message : Message} {type : OfpType} {minLength maxLength : ℕ}

theorem HeaderAccepted.framed (h : HeaderAccepted message type minLength maxLength)
    (hfixed : fixedLength message.data type ≤ minLength) : Framed message type :=
  ⟨h.version,h.type,h.length,Nat.le_trans hfixed h.least⟩

theorem framed_of_ensure {rest : Access ValidationCode}
    (h : Returns (ensure (validateHeader message type minLength maxLength) rest) message.data .success)
    (hfixed : fixedLength message.data type ≤ minLength) : Framed message type := by
  rw [returns_ensure_success,returns_validateHeader] at h
  exact h.1.framed hfixed

theorem framed_of_checkStatsRequest {body : OfpStatsTypes}
    (hbody : OfpStatsTypes.ofValue (be16 message.data 8) = some body)
    (h : Returns (checkStatsRequest message body minLength maxLength) message.data .success)
    (hmin : 12+statsRequestBodyLength body ≤ minLength) : Framed message .ofptStatsRequest :=
  framed_of_ensure h (by simpa [fixedLength,hbody] using hmin)

theorem framed_of_validateStatsRequest
    (h : Returns (validateStatsRequest message) message.data .success) :
    Framed message .ofptStatsRequest := by
  simp only [validateStatsRequest,returns_bind,returns_ntohsAt,exists_eq_left'] at h
  cases hbody : OfpStatsTypes.ofValue (be16 message.data 8) with
  | none =>
    rw [hbody] at h
    simp at h
  | some body =>
    rw [hbody] at h
    cases body with
    | ofpstDesc => exact framed_of_checkStatsRequest hbody h (Nat.le_refl _)
    | ofpstFlow => exact framed_of_checkStatsRequest hbody ((returns_ensure_success _ _).mp h).1 (Nat.le_refl _)
    | ofpstAggregate =>
      exact framed_of_checkStatsRequest hbody ((returns_ensure_success _ _).mp h).1 (Nat.le_refl _)
    | ofpstTable => exact framed_of_checkStatsRequest hbody h (Nat.le_refl _)
    | ofpstPort => exact framed_of_checkStatsRequest hbody ((returns_ensure_success _ _).mp h).1 (Nat.le_refl _)
    | ofpstQueue => exact framed_of_checkStatsRequest hbody ((returns_ensure_success _ _).mp h).1 (Nat.le_refl _)
    | ofpstVendor => exact framed_of_checkStatsRequest hbody h (Nat.le_refl _)

/-- The one-part replies check the header against their own bound, the others
against the longest message. -/
theorem StatsReplyBodyAccepted.header (h : StatsReplyBodyAccepted message) :
    ∃ longest, HeaderAccepted message .ofptStatsReply 12 longest := by
  unfold StatsReplyBodyAccepted at h
  split at h
  · exact ⟨_,h.1⟩
  · exact ⟨_,h.1.1⟩
  · exact ⟨_,h.1⟩
  · exact ⟨_,h.1.1⟩
  · exact ⟨_,h.1.1⟩
  · exact ⟨_,h.1.1⟩
  · exact ⟨_,h.1⟩
  · exact h.elim

theorem framed_of_validateOpenflowMessage
    (h : Returns (validateOpenflowMessage message) message.data .success) :
    ∃ type, Framed message type := by
  simp only [validateOpenflowMessage,returns_bind,returns_byteAt,exists_eq_left'] at h
  cases htype : OfpType.ofValue (message.data 1).toNat with
  | none =>
    rw [htype] at h
    simp at h
  | some type =>
    rw [htype] at h
    refine ⟨type,?_⟩
    cases type with
    | ofptHello => exact (returns_validateHeader.mp h).framed (Nat.le_refl _)
    | ofptError => exact framed_of_ensure h (Nat.le_refl _)
    | ofptEchoRequest => exact framed_of_ensure h (Nat.le_refl _)
    | ofptEchoReply => exact framed_of_ensure h (Nat.le_refl _)
    | ofptVendor => exact framed_of_ensure h (Nat.le_refl _)
    | ofptFeaturesRequest => exact (returns_validateHeader.mp h).framed (Nat.le_refl _)
    | ofptFeaturesReply => exact framed_of_ensure h (Nat.le_refl _)
    | ofptGetConfigRequest => exact (returns_validateHeader.mp h).framed (Nat.le_refl _)
    | ofptGetConfigReply => exact framed_of_ensure h (Nat.le_refl _)
    | ofptSetConfig => exact framed_of_ensure h (Nat.le_refl _)
    | ofptPacketIn => exact framed_of_ensure h (Nat.le_refl _)
    | ofptFlowRemoved => exact framed_of_ensure h (Nat.le_refl _)
    | ofptPortStatus => exact framed_of_ensure h (Nat.le_refl _)
    | ofptPacketOut => exact framed_of_ensure h (Nat.le_refl _)
    | ofptFlowMod => exact framed_of_ensure h (Nat.le_refl _)
    | ofptPortMod => exact framed_of_ensure h (Nat.le_refl _)
    | ofptStatsRequest => exact framed_of_validateStatsRequest h
    | ofptStatsReply =>
      obtain ⟨longest,hh⟩ := (returns_validateStatsReply.mp h).header
      exact hh.framed (Nat.le_refl _)
    | ofptBarrierRequest => exact (returns_validateHeader.mp h).framed (Nat.le_refl _)
    | ofptBarrierReply => exact (returns_validateHeader.mp h).framed (Nat.le_refl _)
    | ofptQueueGetConfigRequest => exact framed_of_ensure h (Nat.le_refl _)
    -- the validator asks for a whole queue description, more than the tail's offset
    | ofptQueueGetConfigReply => exact framed_of_ensure h (show 16 ≤ 24 from by decide)

/-- Memory after the message plays no part. -/
theorem validateOpenflowMessage_framing (message : Message) (code : ValidationCode)
    (h : Returns (validateOpenflowMessage message) message.data code) :
    (code.value = 0 → ∃ type, Framed message type) ∧ (code.value ≠ 0 → code.value < 0) := by
  constructor
  · intro hzero
    have hsuccess : code = .success := by
      by_contra hne
      have hneg := (ValidationCode.value_neg_iff code).mpr hne
      omega
    exact framed_of_validateOpenflowMessage (hsuccess ▸ h)
  · intro hne
    refine (ValidationCode.value_neg_iff code).mpr (fun hs => hne ?_)
    rw [hs]
    rfl

end Rules

/-- An echo request with four bytes of payload. -/
def shortEcho : Message :=
  ⟨fun i => match i with | 0 => 1 | 1 => 2 | 3 => 12 | _ => 0,12⟩

theorem validateOpenflowMessage_framing_shortEcho :
    Returns (validateOpenflowMessage shortEcho) shortEcho.data .success ∧
      ((ValidationCode.success.value = 0 → ∃ type, Framed shortEcho type) ∧
        (ValidationCode.success.value ≠ 0 → ValidationCode.success.value < 0)) :=
  have h : Returns (validateOpenflowMessage shortEcho) shortEcho.data .success := ⟨0,by decide⟩
  ⟨h,validateOpenflowMessage_framing shortEcho .success h⟩

end OpenFlowController.Check
