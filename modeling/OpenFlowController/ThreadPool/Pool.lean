import Mathlib.Data.List.Basic
import OpenFlowController.Concurrency.Monitor

/-! # The thread pool

`n` threads run `thread_routine`, any number of calls of `pool_add_worker` come in
and one `pool_destroy`. A call is also the name of the task it adds. A location
stands before the statement it is named after. A wait may end at any time, so
signal and broadcast need no effect of their own.
-/
namespace OpenFlowController.ThreadPool
open Concurrency
variable {n : ℕ} {Call : Type}

/-- The record, with whether it is still allocated. `added` and `taken` are its
history: the tasks linked, and the tasks unlinked with the threads that did. -/
structure CThreadPool (n : ℕ) (Call : Type) where
  alive : Bool
  queueHead : List Call
  shutdown : Bool
  curQueueSize : BitVec 32
  added : List Call
  taken : List (Fin n × Call)

inductive ThreadLoc (Call : Type)
  | lockQueue
  | testQueue
  | waitReady
  | relock
  | testShutdown
  | unlockAndExit
  | decrementSize
  | readHead
  | advanceHead (worker : Option Call)
  | unlockQueue (worker : Call)
  | process (worker : Call)
  | exited

inductive CallLoc
  | lockQueue
  | link
  | count
  | unlockQueue
  | signal
  | returned
  deriving DecidableEq

inductive DestroyLoc
  | testShutdown
  | lockQueue
  | setShutdown
  | broadcast
  | join (i : ℕ)
  | freeThreadid
  | freeQueue
  | unlockQueue
  | destroyMutex
  | destroyCond
  | freePool
  | returned
  deriving DecidableEq

inductive Agent (n : ℕ) (Call : Type)
  | thread (t : Fin n)
  | call (c : Call)
  | destroy
  deriving DecidableEq

inductive Loc (Call : Type)
  | thread (l : ThreadLoc Call)
  | call (l : CallLoc)
  | destroy (l : DestroyLoc)

/-- Without a move: the thread has exited, or reads the link of a NULL task. -/
def threadRoutine (t : Fin n) (pool : CThreadPool n Call) :
    ThreadLoc Call → Move (ThreadLoc Call) (CThreadPool n Call)
  | .lockQueue => .acquire .testQueue
  | .testQueue =>
    if pool.curQueueSize = 0 ∧ pool.shutdown = false then .release .waitReady else .go .testShutdown pool
  | .waitReady => .go .relock pool
  | .relock => .acquire .testQueue
  | .testShutdown => if pool.shutdown then .go .unlockAndExit pool else .go .decrementSize pool
  | .unlockAndExit => .release .exited
  | .decrementSize => .go .readHead { pool with curQueueSize := pool.curQueueSize-1 }
  | .readHead => .go (.advanceHead pool.queueHead.head?) pool
  | .advanceHead none => .stuck
  | .advanceHead (some worker) => .go (.unlockQueue worker)
    { pool with queueHead := pool.queueHead.tail, taken := pool.taken++[(t,worker)] }
  | .unlockQueue worker => .release (.process worker)
  | .process _ => .go .lockQueue pool
  | .exited => .stuck

def poolAddWorker (newworker : Call) (pool : CThreadPool n Call) :
    CallLoc → Move CallLoc (CThreadPool n Call)
  | .lockQueue => .acquire .link
  | .link => .go .count
    { pool with queueHead := pool.queueHead++[newworker], added := pool.added++[newworker] }
  | .count => .go .unlockQueue { pool with curQueueSize := pool.curQueueSize+1 }
  | .unlockQueue => .release .signal
  | .signal => .go .returned pool
  | .returned => .stuck

/-- The threads are detached, so a join returns at once. -/
def poolDestroy (pool : CThreadPool n Call) : DestroyLoc → Move DestroyLoc (CThreadPool n Call)
  | .testShutdown => .go (if pool.shutdown then .returned else .lockQueue) pool
  | .lockQueue => .acquire .setShutdown
  | .setShutdown => .go .broadcast { pool with shutdown := true }
  | .broadcast => .go (.join 0) pool
  | .join i => .go (if i < n then .join (i+1) else .freeThreadid) pool
  | .freeThreadid => .go .freeQueue pool
  | .freeQueue =>
    match pool.queueHead with
    | [] => .go .unlockQueue pool
    | _ :: rest => .go .freeQueue { pool with queueHead := rest }
  | .unlockQueue => .release .destroyMutex
  | .destroyMutex => .go .destroyCond pool
  | .destroyCond => .go .freePool pool
  | .freePool => .go .returned { pool with alive := false }
  | .returned => .stuck

def pool : Program (Agent n Call) (Loc Call) (CThreadPool n Call)
  | .thread t, .thread l, shared => (threadRoutine t shared l).map .thread
  | .call c, .call l, shared => (poolAddWorker c shared l).map .call
  | .destroy, .destroy l, shared => (poolDestroy shared l).map .destroy
  | _, _, _ => .stuck

abbrev PoolState (n : ℕ) (Call : Type) := Configuration (Agent n Call) (Loc Call) (CThreadPool n Call)

/-- After `pool_init`; no call has got as far as the mutex. -/
def poolInit (n : ℕ) (Call : Type) : PoolState n Call where
  lock := none
  loc
    | .thread _ => .thread .lockQueue
    | .call _ => .call .lockQueue
    | .destroy => .destroy .testShutdown
  shared := ⟨true,[],false,0,[],[]⟩

end OpenFlowController.ThreadPool
