import OpenFlowController.Check.Statistics

/-! # Replies that carry records of one size

Four replies have a fixed part and then a whole number of records. What their
validators ask for is said by the table of the four.
-/
namespace OpenFlowController.Check
open Memory Access Protocol

inductive RecordsReply
  | featuresReply
  | tableStatsReply
  | portStatsReply
  | queueStatsReply
  deriving DecidableEq, Repr

namespace RecordsReply

def validate : RecordsReply → Message → Access ValidationCode
  | .featuresReply => validateFeaturesReply
  | .tableStatsReply => validateTableStatsReply
  | .portStatsReply => validatePortStatsReply
  | .queueStatsReply => validateQueueStatsReply

def type : RecordsReply → OfpType
  | .featuresReply => .ofptFeaturesReply
  | .tableStatsReply | .portStatsReply | .queueStatsReply => .ofptStatsReply

/-- The size of the fixed part, which is also the least length. -/
def fixedSize : RecordsReply → ℕ
  | .featuresReply => 32
  | .tableStatsReply | .portStatsReply | .queueStatsReply => 12

def recordSize : RecordsReply → ℕ
  | .featuresReply => 48
  | .tableStatsReply => 64
  | .portStatsReply => 104
  | .queueStatsReply => 32

def FixedAccepted (mem : Bytes) : RecordsReply → Prop
  | .featuresReply => (mem 20).toNat ≠ 0
  | .tableStatsReply | .portStatsReply | .queueStatsReply => bitsOutside (be16 mem 10) ofpsfReplyMore = 0

def RecordAccepted (mem : Bytes) (record : ℕ) : RecordsReply → Prop
  | .featuresReply => PhyPortAccepted mem record
  | .tableStatsReply => bitsOutside (be32 mem (record+36)) ofpfwAll = 0
  | .portStatsReply | .queueStatsReply => validatePhyPortNo (be16 mem record) = .success

/-- A legal header and fixed part, and behind them nothing but accepted records. -/
structure Accepted (reply : RecordsReply) (message : Message) : Prop where
  header : HeaderAccepted message reply.type reply.fixedSize ushrtMax
  fixed : reply.FixedAccepted message.data
  whole : (message.length-reply.fixedSize)%reply.recordSize = 0
  records : ∀ i < (message.length-reply.fixedSize)/reply.recordSize,
    reply.RecordAccepted message.data (reply.fixedSize+i*reply.recordSize)

end RecordsReply

section Rules
variable {message : Message}

theorem RecordsReply.within_validate (reply : RecordsReply) :
    Within message.length (reply.validate message) message.data := by
  cases reply with
  | featuresReply => exact within_validateFeaturesReply
  | tableStatsReply => exact within_validateTableStatsReply
  | portStatsReply => exact within_validatePortStatsReply
  | queueStatsReply => exact within_validateQueueStatsReply

/-- What the three statistics replies ask for, in the order of the general table. -/
theorem RecordsReply.accepted_iff {reply : RecordsReply} (htype : reply.type = .ofptStatsReply)
    (hfixed : reply.fixedSize = 12)
    (hflags : reply.FixedAccepted message.data ↔ bitsOutside (be16 message.data 10) ofpsfReplyMore = 0) :
    reply.Accepted message ↔
      RecordsReplyAccepted message reply.recordSize (fun record => reply.RecordAccepted message.data record) := by
  constructor
  · rintro ⟨hheader,hf,hwhole,hrecords⟩
    rw [htype,hfixed] at hheader
    rw [hfixed] at hwhole hrecords
    exact ⟨⟨hheader,hflags.mp hf⟩,hwhole,hrecords⟩
  · rintro ⟨⟨hheader,hf⟩,hwhole,hrecords⟩
    rw [← hfixed] at hwhole hrecords
    rw [← htype,← hfixed] at hheader
    refine ⟨hheader,hflags.mpr hf,hwhole,hrecords⟩

theorem RecordsReply.returns_validate (reply : RecordsReply) :
    Returns (reply.validate message) message.data .success ↔ reply.Accepted message := by
  cases reply with
  | featuresReply =>
    refine returns_validateFeaturesReply.trans ⟨?_,?_⟩
    · rintro ⟨hheader,hfixed,hwhole,hrecords⟩
      exact ⟨hheader,hfixed,hwhole,hrecords⟩
    · rintro ⟨hheader,hfixed,hwhole,hrecords⟩
      exact ⟨hheader,hfixed,hwhole,hrecords⟩
  | tableStatsReply =>
    rw [accepted_iff rfl rfl Iff.rfl]
    exact returns_validateRecordsReply (fun record => by simp [RecordAccepted,validateWildcards_eq_success]) 64
  | portStatsReply =>
    rw [accepted_iff rfl rfl Iff.rfl]
    exact returns_validateRecordsReply (fun record => by simp [RecordAccepted]) 104
  | queueStatsReply =>
    rw [accepted_iff rfl rfl Iff.rfl]
    exact returns_validateRecordsReply (fun record => by simp [RecordAccepted]) 32

/-- The four validators read nothing but the message and accept what the table says. -/
theorem RecordsReply.validate_exact (reply : RecordsReply) (message : Message) :
    Within message.length (reply.validate message) message.data ∧
      (Returns (reply.validate message) message.data .success ↔ reply.Accepted message) :=
  ⟨reply.within_validate,reply.returns_validate⟩

end Rules
end OpenFlowController.Check
