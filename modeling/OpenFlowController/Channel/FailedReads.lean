import Mathlib.Tactic.Common
import OpenFlowController.Channel.Receive

/-! # Reads that bring no message

The count of a failed read is -1 and becomes the greatest size, so what the call
does then depends on what its fresh buffer holds. A count between 1 and 7 skips
the queue, but schedules a worker like any other.
-/
namespace OpenFlowController.Channel
open Memory Check Protocol Queue
variable {Q : Type*}

/-- What `read` itself answers. -/
def ReadResult.count : ReadResult → ℤ
  | .failed => -1
  | .received bytes _ => bytes.length

/-- Less than a header changes neither the queue nor the tasks, and what is enqueued is
as long as what was read. -/
structure RespectsCount (result : ReadResult) (ccSwInfo : SwInfo Q) (received : Received Q) : Prop where
  unchanged : result.count < 8 → received.ccSwInfo = ccSwInfo
  counted : ∀ message, received.enqueued = some message →
    (message.length : ℤ) = result.count ∧ message.length ≤ ccRecvBufferSize

def HeaderRefused (data : Bytes) : Prop := (data 0).toNat ≠ ofpVersion ∨ be16 data 2 > ccRecvBufferSize

/-- A failed read whose buffer happens to hold no acceptable header, an end of file, or
at least a header. -/
def ReadHandled (before : Bytes) : ReadResult → Prop
  | .failed => HeaderRefused before
  | .received bytes _ => bytes.length = 0 ∨ 8 ≤ bytes.length

section Respect
variable (ops : QueueOps Q) (before : Bytes) (ccSwInfo : SwInfo Q)

theorem respectsCount_refused (result : ReadResult) (ret : ErrorCode) :
    RespectsCount result ccSwInfo ⟨ret,ccSwInfo,none⟩ := ⟨fun _ => rfl,by simp⟩

theorem scheduleWorker_ne {ccSwInfo' : SwInfo Q} (enqueued : Option Message)
    (h : ccSwInfo'.ccRecvThreadPool = ccSwInfo.ccRecvThreadPool) :
    (scheduleWorker ops ccSwInfo' enqueued).ccSwInfo ≠ ccSwInfo := by
  intro heq
  have hpool := congrArg SwInfo.ccRecvThreadPool heq
  simp [scheduleWorker,h] at hpool

theorem respectsCount_failed_iff :
    RespectsCount .failed ccSwInfo (ccRecvFromSecureChannel ops (some before) .failed ccSwInfo) ↔
      HeaderRefused before := by
  have hsize : ReadResult.failed.asSize = 2^64-1 := rfl
  have hfill : ReadResult.failed.fill before = before := rfl
  by_cases hv : (before 0).toNat = ofpVersion
  · by_cases hl : be16 before 2 > ccRecvBufferSize
    · have heq : ccRecvFromSecureChannel ops (some before) .failed ccSwInfo = ⟨.ccEErr,ccSwInfo,none⟩ := by
        simp [ccRecvFromSecureChannel,hsize,hfill,hv,hl]
      rw [heq]
      exact iff_of_true (respectsCount_refused ccSwInfo _ _) (Or.inr hl)
    · refine iff_of_false (fun hr => ?_) (not_or.mpr ⟨not_not.mpr hv,hl⟩)
      have heq : ccRecvFromSecureChannel ops (some before) .failed ccSwInfo =
          scheduleWorker ops { ccSwInfo with
            recvQueue := ops.enqueueMessage ccSwInfo.recvQueue ⟨before,2^64-1⟩ } (some ⟨before,2^64-1⟩) := by
        simp [ccRecvFromSecureChannel,hsize,hfill,hv,hl]
      have hunchanged := hr.unchanged (by simp [ReadResult.count])
      rw [heq] at hunchanged
      exact absurd hunchanged (scheduleWorker_ne ops ccSwInfo _ rfl)
  · have heq : ccRecvFromSecureChannel ops (some before) .failed ccSwInfo = ⟨.ccEErr,ccSwInfo,none⟩ := by
      simp [ccRecvFromSecureChannel,hsize,hfill,hv]
    rw [heq]
    exact iff_of_true (respectsCount_refused ccSwInfo _ _) (Or.inl hv)

theorem respectsCount_header {bytes : List UInt8} {fits : bytes.length ≤ ccRecvBufferSize} (h : 8 ≤ bytes.length) :
    RespectsCount (.received bytes fits) ccSwInfo
      (ccRecvFromSecureChannel ops (some before) (.received bytes fits) ccSwInfo) := by
  have hcount : ¬ (ReadResult.received bytes fits).count < 8 := by
    simp only [ReadResult.count]
    omega
  refine ⟨fun hlt => absurd hlt hcount,fun message hm => ?_⟩
  have hsize : (ReadResult.received bytes fits).asSize = bytes.length := rfl
  have hpos : bytes.length ≠ 0 := by omega
  simp only [ccRecvFromSecureChannel,hsize,hpos,if_false,h,if_true] at hm
  split at hm
  · cases hm
  · split at hm
    · cases hm
    · cases hm
      exact ⟨rfl,fits⟩

/-- The outcomes of `read` that the call respects, exactly. -/
theorem ccRecvFromSecureChannel_respectsCount_iff (ops : QueueOps Q) (tmpBuff : Option Bytes) (result : ReadResult)
    (ccSwInfo : SwInfo Q) :
    RespectsCount result ccSwInfo (ccRecvFromSecureChannel ops tmpBuff result ccSwInfo) ↔
      ∀ before, tmpBuff = some before → ReadHandled before result := by
  cases tmpBuff with
  | none => exact iff_of_true (respectsCount_refused ccSwInfo _ _) (by simp)
  | some before =>
    simp only [Option.some.injEq,forall_eq']
    cases result with
    | failed => exact respectsCount_failed_iff ops before ccSwInfo
    | received bytes fits =>
      have hsize : (ReadResult.received bytes fits).asSize = bytes.length := rfl
      by_cases h0 : bytes.length = 0
      · have heq : ccRecvFromSecureChannel ops (some before) (.received bytes fits) ccSwInfo =
            ⟨.ccEErr,ccSwInfo,none⟩ := by
          simp only [ccRecvFromSecureChannel,hsize,h0,if_true]
        rw [heq]
        exact iff_of_true (respectsCount_refused ccSwInfo _ _) (Or.inl h0)
      by_cases h8 : 8 ≤ bytes.length
      · exact iff_of_true (respectsCount_header ops before ccSwInfo h8) (Or.inr h8)
      · refine iff_of_false (fun hr => ?_) (not_or.mpr ⟨h0,h8⟩)
        have hunchanged := hr.unchanged (by simp only [ReadResult.count]; omega)
        simp only [ccRecvFromSecureChannel,hsize,h0,h8,if_false] at hunchanged
        exact absurd hunchanged (scheduleWorker_ne ops ccSwInfo _ rfl)

end Respect

/-- A failed read enqueues its whole buffer as one of the greatest size when the bytes
left in it look like a header; three bytes schedule a worker. -/
theorem failedRead_not_respected :
    ¬ RespectsCount .failed freshSwInfo
        (ccRecvFromSecureChannel libraryQueue (some fun i => helloFrame.bytes.getD i 0) .failed freshSwInfo) ∧
    ¬ RespectsCount (.received [1,0,0] (by decide)) freshSwInfo
        (ccRecvFromSecureChannel libraryQueue (some fun _ => 0) (.received [1,0,0] (by decide)) freshSwInfo) := by
  constructor
  · intro hr
    have hlength := (hr.counted ⟨fun i => helloFrame.bytes.getD i 0,2^64-1⟩ rfl).2
    revert hlength
    decide
  · intro hr
    have hpool := congrArg (fun s => s.ccRecvThreadPool.length) (hr.unchanged (by decide))
    revert hpool
    decide

end OpenFlowController.Channel
