import Mathlib.Algebra.BigOperators.Pi
import Mathlib.Algebra.Order.Group.Multiset
import Mathlib.Tactic.Abel
import OpenFlowController.Channel.Dispatch

/-! # Reading while the pool works

One thread reads and hands work items to the pool, whose threads take them in any
order of steps. Every access to the receive queue and to the list of the pool is one
step. A thread that reads through a NULL buffer takes the process down.
-/
namespace OpenFlowController.Channel
open Memory Check Protocol Handler

/-- Where `cc_recv_from_secure_channel` stands. -/
inductive ReaderLoc
  | read
  | createTransInfo
  | poolAddWorker (recvBuf : Option Buffer)

/-- Where a thread of the pool stands, with the `recv_buf` of its item and the buffer it
has taken off the queue itself. -/
inductive WorkerLoc
  | idle
  | dequeue (recvBuf : Option Buffer)
  | dispatch (recvBuf : Option Buffer) (taken : Buffer)

/-- A handler that was called on `recvBuf` for the type of `taken`. -/
structure Dispatched where
  op : RecvOp
  recvBuf : Buffer
  taken : Buffer

structure ReceivePath (W : Type) where
  crashed : Bool
  recvQueue : List Buffer
  allocated : ℕ
  queueHead : List (Option Buffer)
  reader : ReaderLoc
  worker : W → WorkerLoc
  handled : List Dispatched

inductive ReceiveMove (W : Type)
  | read (tmpBuff : Option Bytes) (result : ReadResult)
  | createTransInfo
  | poolAddWorker
  | takeItem (w : W)
  | dequeue (w : W)
  | dispatch (w : W)

variable {W : Type}

section Moves
variable [DecidableEq W]

def ReceivePath.setWorker (s : ReceivePath W) (w : W) (loc : WorkerLoc) : ReceivePath W :=
  { s with worker := Function.update s.worker w loc }

/-- The part of a read up to the queue: what it puts there does not depend on what is
there. -/
def readOnce (tmpBuff : Option Bytes) (result : ReadResult) (s : ReceivePath W) : ReceivePath W :=
  match (ccRecvFromSecureChannel fifoQueue tmpBuff result ⟨[],[]⟩).ret,
    (ccRecvFromSecureChannel fifoQueue tmpBuff result ⟨[],[]⟩).enqueued with
  | .ccEErr, _ => s
  | .ccENone, none => { s with reader := .createTransInfo }
  | .ccENone, some message =>
    { s with
      recvQueue := s.recvQueue++[⟨s.allocated,message⟩]
      allocated := s.allocated+1
      reader := .createTransInfo }

/-- The handlers of `cc_recv_ops` leave the receive queue alone. Each of them gives its
`recv_buf` to a validator, which reads through it. -/
def dispatchTo (w : W) (recvBuf : Option Buffer) (taken : Buffer) (s : ReceivePath W) : ReceivePath W :=
  match selectOp (taken.message.data 1).toNat, recvBuf with
  | none, _ => s.setWorker w .idle
  | some _, none => { s with crashed := true }
  | some op, some recvBuf => { s.setWorker w .idle with handled := s.handled++[⟨op,recvBuf,taken⟩] }

def moveOnce (s : ReceivePath W) (move : ReceiveMove W) : Option (ReceivePath W) :=
  if s.crashed then none else
    match move with
    | .read tmpBuff result =>
      match s.reader with
      | .read => some (readOnce tmpBuff result s)
      | _ => none
    | .createTransInfo =>
      match s.reader with
      | .createTransInfo =>
        some { s with recvQueue := s.recvQueue.tail, reader := .poolAddWorker s.recvQueue.head? }
      | _ => none
    | .poolAddWorker =>
      match s.reader with
      | .poolAddWorker recvBuf => some { s with queueHead := s.queueHead++[recvBuf], reader := .read }
      | _ => none
    | .takeItem w =>
      match s.worker w, s.queueHead with
      | .idle, recvBuf :: queueHead => some { s.setWorker w (.dequeue recvBuf) with queueHead }
      | _, _ => none
    | .dequeue w =>
      match s.worker w, s.recvQueue with
      | .dequeue _, [] => some { s with crashed := true }
      | .dequeue recvBuf, taken :: recvQueue => some { s.setWorker w (.dispatch recvBuf taken) with recvQueue }
      | _, _ => none
    | .dispatch w =>
      match s.worker w with
      | .dispatch recvBuf taken => some (dispatchTo w recvBuf taken s)
      | _ => none

def moveAll : ReceivePath W → List (ReceiveMove W) → Option (ReceivePath W)
  | s, [] => some s
  | s, move :: moves => do moveAll (← moveOnce s move) moves

end Moves

def startReceiving (W : Type) : ReceivePath W := ⟨false,[],0,[],.read,fun _ => .idle,[]⟩

/-- What a move can be. -/
theorem moveOnce_cases [DecidableEq W] {s t : ReceivePath W} {move : ReceiveMove W} {P : ReceivePath W → Prop}
    (h : moveOnce s move = some t)
    (hread : s.reader = .read → ∀ tmpBuff result, P (readOnce tmpBuff result s))
    (hcreate : s.reader = .createTransInfo →
      P { s with recvQueue := s.recvQueue.tail, reader := .poolAddWorker s.recvQueue.head? })
    (hadd : ∀ {recvBuf}, s.reader = .poolAddWorker recvBuf →
      P { s with queueHead := s.queueHead++[recvBuf], reader := .read })
    (htake : ∀ {w recvBuf queueHead}, s.worker w = .idle → s.queueHead = recvBuf :: queueHead →
      P { s.setWorker w (.dequeue recvBuf) with queueHead })
    (hcrash : P { s with crashed := true })
    (hdequeue : ∀ {w recvBuf taken recvQueue}, s.worker w = .dequeue recvBuf → s.recvQueue = taken :: recvQueue →
      P { s.setWorker w (.dispatch recvBuf taken) with recvQueue })
    (hdispatch : ∀ {w recvBuf taken}, s.worker w = .dispatch recvBuf taken → P (dispatchTo w recvBuf taken s)) : P t := by
  unfold moveOnce at h
  split at h
  · cases h
  · cases move with
    | read tmpBuff result =>
      simp only at h
      split at h
      · rename_i hreader
        cases h
        exact hread hreader tmpBuff result
      · cases h
    | createTransInfo =>
      simp only at h
      split at h
      · rename_i hreader
        cases h
        exact hcreate hreader
      · cases h
    | poolAddWorker =>
      simp only at h
      split at h
      · rename_i recvBuf hreader
        cases h
        exact hadd hreader
      · cases h
    | takeItem w =>
      simp only at h
      split at h
      · rename_i recvBuf queueHead hworker hqueue
        cases h
        exact htake hworker hqueue
      · cases h
    | dequeue w =>
      simp only at h
      split at h
      · cases h
        exact hcrash
      · rename_i recvBuf taken recvQueue hworker hqueue
        cases h
        exact hdequeue hworker hqueue
      · cases h
    | dispatch w =>
      simp only at h
      split at h
      · rename_i recvBuf taken hworker
        cases h
        exact hdispatch hworker
      · cases h

section Held

def numbers (buf : Option Buffer) : Multiset ℕ := buf.elim 0 fun buf => {buf.number}

def ReaderLoc.held : ReaderLoc → Multiset ℕ
  | .read | .createTransInfo => 0
  | .poolAddWorker recvBuf => numbers recvBuf

def WorkerLoc.held : WorkerLoc → Multiset ℕ
  | .idle => 0
  | .dequeue recvBuf => numbers recvBuf
  | .dispatch recvBuf taken => numbers recvBuf+{taken.number}

def Dispatched.held (call : Dispatched) : Multiset ℕ := {call.recvBuf.number}+{call.taken.number}

/-- The buffers that the queue, the pool, the threads and the handlers were given. -/
def ReceivePath.held [Fintype W] (s : ReceivePath W) : Multiset ℕ :=
  (s.recvQueue.map fun buf => ({buf.number} : Multiset ℕ)).sum+(s.queueHead.map numbers).sum+s.reader.held+
    ∑ w, (s.worker w).held+(s.handled.map Dispatched.held).sum

/-- No two of them were given the same buffer. -/
structure ReceivePath.Separate [Fintype W] (s : ReceivePath W) : Prop where
  nodup : s.held.Nodup
  allocated : ∀ number ∈ s.held, number < s.allocated

end Held

section Rules
variable [Fintype W] {s t : ReceivePath W}

/-- A move gives buffers on, gives them up, or brings in a new one. -/
def GivesOn (s t : ReceivePath W) : Prop :=
  t.held ≤ s.held ∧ t.allocated = s.allocated ∨ t.held = s.held+{s.allocated} ∧ t.allocated = s.allocated+1

theorem givesOn_of_eq (hheld : t.held = s.held) (hallocated : t.allocated = s.allocated) : GivesOn s t :=
  Or.inl ⟨hheld.le,hallocated⟩

theorem startReceiving_separate : (startReceiving W).Separate := by
  constructor <;> simp [startReceiving,ReceivePath.held,ReaderLoc.held,WorkerLoc.held]

/-- As many buffers as were brought in, at most. -/
theorem ReceivePath.Separate.card_le (hs : s.Separate) : s.held.card ≤ s.allocated := by
  have hle : s.held ≤ Multiset.range s.allocated :=
    (Multiset.le_iff_subset hs.nodup).mpr fun number hnumber => Multiset.mem_range.mpr (hs.allocated number hnumber)
  simpa using Multiset.card_le_card hle

theorem givesOn_readOnce (hreader : s.reader = .read) (tmpBuff : Option Bytes) (result : ReadResult) :
    GivesOn s (readOnce tmpBuff result s) := by
  unfold readOnce
  split
  · exact givesOn_of_eq rfl rfl
  · exact givesOn_of_eq (by simp [ReceivePath.held,ReaderLoc.held,hreader]) rfl
  · refine Or.inr ⟨?_,rfl⟩
    simp only [ReceivePath.held,ReaderLoc.held,hreader,List.map_append,List.sum_append,List.map_cons,List.map_nil,
      List.sum_cons,List.sum_nil]
    abel

theorem givesOn_createTransInfo (hreader : s.reader = .createTransInfo) :
    GivesOn s { s with recvQueue := s.recvQueue.tail, reader := .poolAddWorker s.recvQueue.head? } := by
  refine givesOn_of_eq ?_ rfl
  cases hqueue : s.recvQueue with
  | nil => simp [ReceivePath.held,ReaderLoc.held,hreader,hqueue,numbers]
  | cons buf queue =>
    simp only [ReceivePath.held,ReaderLoc.held,hreader,hqueue,List.map_cons,List.sum_cons,List.tail_cons,
      List.head?_cons,numbers,Option.elim_some]
    abel

theorem givesOn_poolAddWorker {recvBuf : Option Buffer} (hreader : s.reader = .poolAddWorker recvBuf) :
    GivesOn s { s with queueHead := s.queueHead++[recvBuf], reader := .read } := by
  refine givesOn_of_eq ?_ rfl
  simp only [ReceivePath.held,ReaderLoc.held,hreader,List.map_append,List.sum_append,List.map_cons,List.map_nil,
    List.sum_cons,List.sum_nil]
  abel

variable [DecidableEq W]

/-- Only what the thread that moves was given changes. -/
theorem sum_held_update (worker : W → WorkerLoc) (w : W) (loc : WorkerLoc) :
    ∑ v, (Function.update worker w loc v).held+(worker w).held = ∑ v, (worker v).held+loc.held := by
  have hrest : ∑ v ∈ Finset.univ.erase w, (Function.update worker w loc v).held =
      ∑ v ∈ Finset.univ.erase w, (worker v).held :=
    Finset.sum_congr rfl fun v hv => by rw [Function.update_of_ne (Finset.ne_of_mem_erase hv)]
  rw [← Finset.add_sum_erase Finset.univ (fun v => (Function.update worker w loc v).held) (Finset.mem_univ w),
    ← Finset.add_sum_erase Finset.univ (fun v => (worker v).held) (Finset.mem_univ w),hrest,Function.update_self]
  abel

theorem givesOn_takeItem {w : W} {recvBuf : Option Buffer} {queueHead : List (Option Buffer)}
    (hworker : s.worker w = .idle) (hqueue : s.queueHead = recvBuf :: queueHead) :
    GivesOn s { s.setWorker w (.dequeue recvBuf) with queueHead } := by
  refine givesOn_of_eq ?_ rfl
  have hsum := sum_held_update s.worker w (.dequeue recvBuf)
  rw [hworker] at hsum
  have htaken : ∑ v, (Function.update s.worker w (.dequeue recvBuf) v).held = ∑ v, (s.worker v).held+numbers recvBuf := by
    simpa [WorkerLoc.held] using hsum
  simp only [ReceivePath.held,ReceivePath.setWorker,htaken,hqueue,List.map_cons,List.sum_cons]
  abel

theorem givesOn_dequeue {w : W} {recvBuf : Option Buffer} {taken : Buffer} {recvQueue : List Buffer}
    (hworker : s.worker w = .dequeue recvBuf) (hqueue : s.recvQueue = taken :: recvQueue) :
    GivesOn s { s.setWorker w (.dispatch recvBuf taken) with recvQueue } := by
  refine givesOn_of_eq ?_ rfl
  have hsum := sum_held_update s.worker w (.dispatch recvBuf taken)
  rw [hworker] at hsum
  have htaken : ∑ v, (Function.update s.worker w (.dispatch recvBuf taken) v).held =
      ∑ v, (s.worker v).held+{taken.number} := by
    apply add_right_cancel (hsum.trans _)
    change _+(numbers recvBuf+{taken.number}) = _+numbers recvBuf
    abel
  simp only [ReceivePath.held,ReceivePath.setWorker,htaken,hqueue,List.map_cons,List.sum_cons]
  abel

theorem givesOn_dispatchTo {w : W} {recvBuf : Option Buffer} {taken : Buffer}
    (hworker : s.worker w = .dispatch recvBuf taken) : GivesOn s (dispatchTo w recvBuf taken s) := by
  have hsum := sum_held_update s.worker w .idle
  rw [hworker] at hsum
  have hheld : ∑ v, (s.worker v).held =
      ∑ v, (Function.update s.worker w .idle v).held+(numbers recvBuf+{taken.number}) := by
    simpa [WorkerLoc.held] using hsum.symm
  unfold dispatchTo
  split
  · refine Or.inl ⟨?_,rfl⟩
    simp only [ReceivePath.held,ReceivePath.setWorker,hheld]
    exact add_le_add_left (add_le_add_right (Multiset.le_add_right _ _) _) _
  · exact givesOn_of_eq rfl rfl
  · refine givesOn_of_eq ?_ rfl
    simp only [ReceivePath.held,ReceivePath.setWorker,hheld,Dispatched.held,List.map_append,List.sum_append,
      List.map_cons,List.map_nil,List.sum_cons,List.sum_nil,numbers,Option.elim_some]
    abel

theorem moveOnce_givesOn {move : ReceiveMove W} (h : moveOnce s move = some t) : GivesOn s t :=
  moveOnce_cases h givesOn_readOnce givesOn_createTransInfo givesOn_poolAddWorker givesOn_takeItem
    (givesOn_of_eq rfl rfl) givesOn_dequeue givesOn_dispatchTo

theorem ReceivePath.Separate.step (hs : s.Separate) {move : ReceiveMove W} (h : moveOnce s move = some t) :
    t.Separate := by
  rcases moveOnce_givesOn h with ⟨hle,hallocated⟩ | ⟨hheld,hallocated⟩
  · refine ⟨Multiset.nodup_of_le hle hs.nodup,fun number hnumber => ?_⟩
    rw [hallocated]
    exact hs.allocated number (Multiset.mem_of_le hle hnumber)
  · have hfresh : s.allocated ∉ s.held := fun hmem => Nat.lt_irrefl _ (hs.allocated _ hmem)
    constructor
    · rw [hheld,add_comm,Multiset.singleton_add]
      exact Multiset.nodup_cons.mpr ⟨hfresh,hs.nodup⟩
    · intro number hnumber
      rw [hheld,add_comm,Multiset.singleton_add,Multiset.mem_cons] at hnumber
      rw [hallocated]
      rcases hnumber with rfl | hnumber
      · exact Nat.lt_succ_self _
      · exact Nat.lt_succ_of_lt (hs.allocated number hnumber)

theorem ReceivePath.Separate.moves (hs : s.Separate) {moves : List (ReceiveMove W)} (h : moveAll s moves = some t) :
    t.Separate := by
  induction moves generalizing s with
  | nil =>
    cases h
    exact hs
  | cons move moves ih =>
    obtain ⟨u,hu,ht⟩ := Option.bind_eq_some_iff.mp h
    exact ih (hs.step hu) ht

end Rules

section Handlers
variable {s t : ReceivePath W}

/-- The handler belongs to the type of the buffer that was taken off the queue last. -/
def Dispatched.Selected (call : Dispatched) : Prop := selectOp (call.taken.message.data 1).toNat = some call.op

theorem readOnce_handled (tmpBuff : Option Bytes) (result : ReadResult) :
    (readOnce tmpBuff result s).handled = s.handled := by
  unfold readOnce
  split <;> rfl

variable [DecidableEq W]

theorem dispatchTo_handled (w : W) (recvBuf : Option Buffer) (taken : Buffer) :
    (dispatchTo w recvBuf taken s).handled = s.handled ∨
      ∃ call : Dispatched, call.Selected ∧ (dispatchTo w recvBuf taken s).handled = s.handled++[call] := by
  unfold dispatchTo
  split
  · exact Or.inl rfl
  · exact Or.inl rfl
  · rename_i op recvBuf hop
    exact Or.inr ⟨⟨op,recvBuf,taken⟩,hop,rfl⟩

theorem moveOnce_handled {move : ReceiveMove W} (h : moveOnce s move = some t) :
    t.handled = s.handled ∨ ∃ call : Dispatched, call.Selected ∧ t.handled = s.handled++[call] := by
  apply moveOnce_cases h
  case hread => exact fun _ tmpBuff result => Or.inl (readOnce_handled tmpBuff result)
  case hdispatch => exact fun {w recvBuf taken} _ => dispatchTo_handled w recvBuf taken
  all_goals intros; exact Or.inl rfl

theorem moveAll_selected {moves : List (ReceiveMove W)} (h : moveAll s moves = some t)
    (hs : ∀ call ∈ s.handled, call.Selected) : ∀ call ∈ t.handled, call.Selected := by
  induction moves generalizing s with
  | nil =>
    cases h
    exact hs
  | cons move moves ih =>
    obtain ⟨u,hu,ht⟩ := Option.bind_eq_some_iff.mp h
    refine ih ht fun call hcall => ?_
    rcases moveOnce_handled hu with hsame | ⟨added,hadded,hmore⟩
    · exact hs call (hsame ▸ hcall)
    · rw [hmore,List.mem_append,List.mem_singleton] at hcall
      rcases hcall with hcall | rfl
      · exact hs call hcall
      · exact hadded

end Handlers

section Run

/-- The buffers that the handlers were called on and those that selected them. -/
def ReceivePath.consumed (s : ReceivePath W) : List ℕ :=
  s.handled.flatMap fun call => [call.recvBuf.number,call.taken.number]

theorem coe_consumed (s : ReceivePath W) : (s.consumed : Multiset ℕ) = (s.handled.map Dispatched.held).sum := by
  unfold ReceivePath.consumed
  induction s.handled with
  | nil => rfl
  | cons call handled ih =>
    rw [List.flatMap_cons,List.map_cons,List.sum_cons,← ih,← Multiset.coe_add]
    rfl

theorem length_consumed (s : ReceivePath W) : s.consumed.length = 2*s.handled.length := by
  unfold ReceivePath.consumed
  induction s.handled with
  | nil => rfl
  | cons call handled ih =>
    rw [List.flatMap_cons,List.length_append,ih,List.length_cons]
    simp only [List.length_cons,List.length_nil]
    omega

variable [Fintype W] [DecidableEq W] {t : ReceivePath W}

/-- However the reading thread and the threads of the pool take turns: no buffer is given
to two handlers or decides about two of them, none is given to the handler that it
decides about, and so at least every second message received is handled by nobody. -/
theorem moveAll_dispatches {moves : List (ReceiveMove W)} (h : moveAll (startReceiving W) moves = some t) :
    (∀ call ∈ t.handled, selectOp (call.taken.message.data 1).toNat = some call.op) ∧ t.consumed.Nodup ∧
      (∀ call ∈ t.handled, call.recvBuf.number ≠ call.taken.number) ∧ 2*t.handled.length ≤ t.allocated := by
  have hseparate := startReceiving_separate.moves h
  have hheld : (t.consumed : Multiset ℕ) ≤ t.held := by
    rw [coe_consumed]
    exact Multiset.le_add_left _ _
  have hnodup : t.consumed.Nodup := Multiset.coe_nodup.mp (Multiset.nodup_of_le hheld hseparate.nodup)
  refine ⟨moveAll_selected h (by simp [startReceiving]),hnodup,fun call hcall => ?_,?_⟩
  · have hpair := (List.nodup_flatMap.mp hnodup).1 call hcall
    simpa using hpair
  · rw [← length_consumed,← Multiset.coe_card]
    exact (Multiset.card_le_card hheld).trans hseparate.card_le

/-- A hello, and an echo request that comes in before a thread has looked at the queue. -/
def helloThenEcho : List (ReceiveMove Unit) :=
  [.read (some fun _ => 0) (.received [1,0,0,8,0,0,0,7] (Nat.le_of_ble_eq_true rfl)),.createTransInfo,.poolAddWorker,
    .read (some fun _ => 0) (.received [1,2,0,8,0,0,0,8] (Nat.le_of_ble_eq_true rfl)),.takeItem (),.dequeue (),.dispatch ()]

theorem moveAll_dispatches_helloThenEcho : ∃ t, moveAll (startReceiving Unit) helloThenEcho = some t ∧
    t.consumed = [0,1] ∧
    ((∀ call ∈ t.handled, selectOp (call.taken.message.data 1).toNat = some call.op) ∧ t.consumed.Nodup ∧
      (∀ call ∈ t.handled, call.recvBuf.number ≠ call.taken.number) ∧ 2*t.handled.length ≤ t.allocated) := by
  obtain ⟨t,ht⟩ := Option.isSome_iff_exists.mp (show (moveAll (startReceiving Unit) helloThenEcho).isSome = true from rfl)
  have hconsumed : (moveAll (startReceiving Unit) helloThenEcho).map ReceivePath.consumed = some [0,1] := rfl
  rw [ht] at hconsumed
  exact ⟨t,ht,Option.some.inj hconsumed,moveAll_dispatches ht⟩

end Run

end OpenFlowController.Channel
