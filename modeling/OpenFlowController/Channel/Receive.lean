import Mathlib.Algebra.Group.Nat.Defs
import Mathlib.Data.List.Flatten
import OpenFlowController.Check.Header
import OpenFlowController.Queue.MessageQueue

/-! # Reading from the secure channel

One call reads once, hands at most one buffer to the receive queue and schedules
one worker. The queue is a parameter, so that nothing about framing rests on it;
the library's own queue is the instance `libraryQueue`.
-/
namespace OpenFlowController.Channel
open Memory Check Protocol Queue

def ccRecvBufferSize : ℕ := 1024

structure QueueOps (Q : Type*) where
  enqueueMessage : Q → Message → Q
  dequeueMessage : Q → Option Message × Q

/-- The library's queue; without a state once it has accessed a reclaimed cell. -/
def libraryQueue : QueueOps (Option (MessageQueue Message)) where
  enqueueMessage queue message := do
    let (_,queue) ← Queue.enqueueMessage (← queue) (some message)
    return queue
  dequeueMessage queue :=
    match queue.bind Queue.dequeueMessage with
    | some (buf,queue) => (buf,some queue)
    | none => (none,none)

/-- What one `read` returned into a buffer of `ccRecvBufferSize` bytes. -/
inductive ReadResult
  | failed
  | received (bytes : List UInt8) (fits : bytes.length ≤ ccRecvBufferSize)

/-- The return value as the `size_t` it is assigned to. -/
def ReadResult.asSize : ReadResult → ℕ
  | .failed => 2^64-1
  | .received bytes _ => bytes.length

def ReadResult.fill (before : Bytes) : ReadResult → Bytes
  | .failed => before
  | .received bytes _ => fun i => bytes.getD i (before i)

structure TransInfo where
  recvBuf : Option Message

structure SwInfo (Q : Type*) where
  recvQueue : Q
  ccRecvThreadPool : List TransInfo

variable {Q : Type*}

/-- Answer, switch record, and the buffer given to `enqueue_message`, if any. -/
structure Received (Q : Type*) where
  ret : ErrorCode
  ccSwInfo : SwInfo Q
  enqueued : Option Message

/-- `create_trans_info` takes the oldest buffer; `pool_add_worker` always succeeds. -/
def scheduleWorker (ops : QueueOps Q) (ccSwInfo : SwInfo Q) (enqueued : Option Message) : Received Q :=
  let (recvBuf,recvQueue) := ops.dequeueMessage ccSwInfo.recvQueue
  ⟨.ccENone,⟨recvQueue,ccSwInfo.ccRecvThreadPool++[⟨recvBuf⟩]⟩,enqueued⟩

def ccRecvFromSecureChannel (ops : QueueOps Q) (tmpBuff : Option Bytes) (result : ReadResult)
    (ccSwInfo : SwInfo Q) : Received Q :=
  match tmpBuff with
  | none => ⟨.ccEErr,ccSwInfo,none⟩
  | some before =>
    -- the test for a negative count is made on an unsigned one and never holds
    if result.asSize = 0 then ⟨.ccEErr,ccSwInfo,none⟩
    else if result.asSize ≥ 8 then
      let message : Message := ⟨result.fill before,result.asSize⟩
      if (message.data 0).toNat ≠ ofpVersion then ⟨.ccEErr,ccSwInfo,none⟩
      else if be16 message.data 2 > ccRecvBufferSize then ⟨.ccEErr,ccSwInfo,none⟩
      else scheduleWorker ops { ccSwInfo with recvQueue := ops.enqueueMessage ccSwInfo.recvQueue message }
        (some message)
    else scheduleWorker ops ccSwInfo none

def content (message : Message) : List UInt8 := (List.range message.length).map message.data

structure Chunk where
  bytes : List UInt8
  nonempty : bytes ≠ []
  fits : bytes.length ≤ ccRecvBufferSize

def Chunk.result (chunk : Chunk) : ReadResult := .received chunk.bytes chunk.fits

def versionField (bytes : List UInt8) : ℕ := (bytes.getD 0 0).toNat

def lengthField (bytes : List UInt8) : ℕ := (bytes.getD 2 0).toNat*256+(bytes.getD 3 0).toNat

structure Frame where
  bytes : List UInt8
  version : versionField bytes = ofpVersion
  length : lengthField bytes = bytes.length
  least : 8 ≤ bytes.length
  most : bytes.length ≤ ccRecvBufferSize

/-- The buffers given to `enqueue_message` by successive calls. Each call finds
its freshly allocated buffer with contents of its own. -/
def enqueuedBuffers (ops : QueueOps Q) : SwInfo Q → List (Bytes × Chunk) → List Message
  | _, [] => []
  | ccSwInfo, (before,chunk) :: reads =>
    let received := ccRecvFromSecureChannel ops (some before) chunk.result ccSwInfo
    received.enqueued.toList++enqueuedBuffers ops received.ccSwInfo reads

def passesHeader (bytes : List UInt8) : Bool :=
  8 ≤ bytes.length && versionField bytes == ofpVersion && lengthField bytes ≤ ccRecvBufferSize

theorem Chunk.fill_eq (chunk : Chunk) (before : Bytes) {i : ℕ} (hi : i < chunk.bytes.length) (d : UInt8) :
    chunk.result.fill before i = chunk.bytes.getD i d := by
  simp [Chunk.result,ReadResult.fill,hi]

theorem Chunk.content_eq (chunk : Chunk) (before : Bytes) :
    content ⟨chunk.result.fill before,chunk.bytes.length⟩ = chunk.bytes := by
  refine List.ext_getElem (by simp [content]) (fun i h₁ h₂ => ?_)
  simp [content,Chunk.result,ReadResult.fill,h₂]

theorem ccRecvFromSecureChannel_enqueued (ops : QueueOps Q) (ccSwInfo : SwInfo Q) (before : Bytes)
    (chunk : Chunk) :
    (ccRecvFromSecureChannel ops (some before) chunk.result ccSwInfo).enqueued.toList.map content =
      if passesHeader chunk.bytes then [chunk.bytes] else [] := by
  have hsize : chunk.result.asSize = chunk.bytes.length := rfl
  have hpos : chunk.bytes.length ≠ 0 := fun h => chunk.nonempty (List.length_eq_zero_iff.mp h)
  simp only [ccRecvFromSecureChannel,hsize,hpos,if_false]
  by_cases h8 : 8 ≤ chunk.bytes.length
  · have hfield : be16 (chunk.result.fill before) 2 = lengthField chunk.bytes := by
      rw [be16,chunk.fill_eq before (by omega) 0,chunk.fill_eq before (by omega) 0]
      rfl
    have hversion : (chunk.result.fill before 0).toNat = versionField chunk.bytes := by
      rw [chunk.fill_eq before (by omega) 0]
      rfl
    rw [if_pos h8,hfield,hversion]
    simp only [passesHeader,h8,decide_true,Bool.true_and,Bool.and_eq_true,beq_iff_eq,decide_eq_true_eq]
    by_cases hv : versionField chunk.bytes = ofpVersion
    · by_cases hl : lengthField chunk.bytes ≤ ccRecvBufferSize
      · simp [hv,hl,Nat.not_lt.mpr hl,scheduleWorker,chunk.content_eq]
      · simp [hv,hl,Nat.lt_of_not_le hl]
    · simp [hv]
  · simp [h8,passesHeader,scheduleWorker]

theorem enqueuedBuffers_content (ops : QueueOps Q) (ccSwInfo : SwInfo Q) (reads : List (Bytes × Chunk)) :
    (enqueuedBuffers ops ccSwInfo reads).map content =
      (reads.map (fun r => r.2.bytes)).filter passesHeader := by
  induction reads generalizing ccSwInfo with
  | nil => rfl
  | cons read reads ih =>
    obtain ⟨before,chunk⟩ := read
    simp only [enqueuedBuffers,List.map_append,ccRecvFromSecureChannel_enqueued,ih,List.map_cons,
      List.filter_cons]
    split <;> rfl

theorem Frame.passesHeader (frame : Frame) : passesHeader frame.bytes = true := by
  rw [Channel.passesHeader,frame.version,frame.length]
  simp [frame.least,frame.most]

theorem filter_eq_self_of_flatten_eq {p : List UInt8 → Bool} {xss : List (List UInt8)}
    (hne : ∀ xs ∈ xss, xs ≠ []) (h : (xss.filter p).flatten.length = xss.flatten.length) :
    xss.filter p = xss := by
  induction xss with
  | nil => rfl
  | cons xs xss ih =>
    have hx : xs.length ≠ 0 := fun h0 => hne xs List.mem_cons_self (List.length_eq_zero_iff.mp h0)
    have hle : (xss.filter p).flatten.length ≤ xss.flatten.length := List.filter_sublist.flatten.length_le
    by_cases hp : p xs
    · rw [List.filter_cons_of_pos hp] at h ⊢
      simp only [List.flatten_cons,List.length_append] at h
      rw [ih (fun ys hys => hne ys (List.mem_cons_of_mem _ hys)) (by omega)]
    · rw [List.filter_cons_of_neg hp] at h
      simp only [List.flatten_cons,List.length_append] at h
      omega

/-- The chunkings of a stream whose messages are enqueued one by one, exactly:
those that cut it between messages and nowhere else. -/
theorem enqueuedBuffers_eq_frames_iff (ops : QueueOps Q) (ccSwInfo : SwInfo Q) (frames : List Frame)
    (reads : List (Bytes × Chunk))
    (hstream : (reads.map (fun r => r.2.bytes)).flatten = (frames.map Frame.bytes).flatten) :
    (enqueuedBuffers ops ccSwInfo reads).map content = frames.map Frame.bytes ↔
      reads.map (fun r => r.2.bytes) = frames.map Frame.bytes := by
  rw [enqueuedBuffers_content]
  constructor
  · intro h
    have hself : (reads.map (fun r => r.2.bytes)).filter passesHeader = reads.map (fun r => r.2.bytes) := by
      refine filter_eq_self_of_flatten_eq ?_ (by rw [h,hstream])
      intro xs hxs
      obtain ⟨r,-,rfl⟩ := List.mem_map.mp hxs
      exact r.2.nonempty
    rw [← hself,h]
  · intro h
    rw [h]
    refine List.filter_eq_self.mpr (fun xs hxs => ?_)
    obtain ⟨frame,-,rfl⟩ := List.mem_map.mp hxs
    exact frame.passesHeader

def helloFrame : Frame := ⟨[1,0,0,8,0,0,0,7],by decide,by decide,by decide,by decide⟩

def echoFrame : Frame := ⟨[1,2,0,12,0,0,0,8,20,21,22,23],by decide,by decide,by decide,by decide⟩

def helloRead : Bytes × Chunk := (fun _ => 0,⟨helloFrame.bytes,by decide,by decide⟩)

def echoRead : Bytes × Chunk := (fun _ => 1,⟨echoFrame.bytes,by decide,by decide⟩)

def freshSwInfo : SwInfo (Option (MessageQueue Message)) := ⟨some createMessageQueue,[]⟩

/-- Each message in a read of its own. -/
theorem enqueuedBuffers_eq_frames_iff_threeReads :
    ([helloRead,echoRead,echoRead].map (fun r => r.2.bytes)).flatten =
      ([helloFrame,echoFrame,echoFrame].map Frame.bytes).flatten ∧
    (enqueuedBuffers libraryQueue freshSwInfo [helloRead,echoRead,echoRead]).map content =
      [helloFrame,echoFrame,echoFrame].map Frame.bytes :=
  ⟨rfl,(enqueuedBuffers_eq_frames_iff libraryQueue freshSwInfo [helloFrame,echoFrame,echoFrame]
    [helloRead,echoRead,echoRead] rfl).mpr rfl⟩

def twoHellosRead : Bytes × Chunk :=
  (fun _ => 0,⟨helloFrame.bytes++helloFrame.bytes,by decide,by decide⟩)

/-- They are enqueued as one buffer. -/
theorem twoHellosRead_not_framed :
    ([twoHellosRead].map (fun r => r.2.bytes)).flatten = ([helloFrame,helloFrame].map Frame.bytes).flatten ∧
    (enqueuedBuffers libraryQueue freshSwInfo [twoHellosRead]).map content ≠
      [helloFrame,helloFrame].map Frame.bytes := by
  refine ⟨rfl,?_⟩
  rw [enqueuedBuffers_content]
  decide

end OpenFlowController.Channel
