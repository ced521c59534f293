import Mathlib.Algebra.Group.Nat.Defs
import Mathlib.Data.List.Nodup
import OpenFlowController.ThreadPool.Pool

/-! # The tasks of the pool

The counter and the list are changed by different statements. Inside a critical
section the counter may lag one behind the list; the list is what was added less
what was taken, from the front, at every moment.
-/
namespace OpenFlowController.ThreadPool
open Concurrency
variable {n : ℕ} {Call : Type}

/-- The locations at which `queue_lock` is held. -/
def ThreadLoc.inside : ThreadLoc Call → Bool
  | .testQueue | .testShutdown | .unlockAndExit | .decrementSize | .readHead | .advanceHead _
  | .unlockQueue _ => true
  | .lockQueue | .waitReady | .relock | .process _ | .exited => false

def CallLoc.inside : CallLoc → Bool
  | .link | .count | .unlockQueue => true
  | .lockQueue | .signal | .returned => false

def DestroyLoc.inside : DestroyLoc → Bool
  | .setShutdown | .broadcast | .join _ | .freeThreadid | .freeQueue | .unlockQueue => true
  | .testShutdown | .lockQueue | .destroyMutex | .destroyCond | .freePool | .returned => false

def Loc.inside : Loc Call → Bool
  | .thread l => l.inside
  | .call l => l.inside
  | .destroy l => l.inside

/-- How many tasks are on the list and not in the counter. -/
def Loc.lag : Loc Call → ℕ
  | .thread .readHead | .thread (.advanceHead _) | .call .count => 1
  | _ => 0

/-- What a thread past the wait loop relies on, and the destroyer once it has set
`shutdown`. -/
def Loc.Expects (pool : CThreadPool n Call) : Loc Call → Prop
  | .thread .testShutdown | .thread .decrementSize | .thread .readHead => pool.queueHead ≠ []
  | .thread (.advanceHead worker) => pool.queueHead ≠ [] ∧ pool.queueHead.head? = worker
  | .destroy .broadcast | .destroy (.join _) | .destroy .freeThreadid | .destroy .freeQueue
  | .destroy .unlockQueue => pool.shutdown = true
  | _ => True

structure Consistent (pool : CThreadPool n Call) (lag : ℕ) : Prop where
  counted : pool.curQueueSize+BitVec.ofNat 32 lag = BitVec.ofNat 32 pool.queueHead.length
  history : pool.added = pool.taken.map Prod.snd++pool.queueHead

def FreeInvariant (pool : CThreadPool n Call) : Prop := pool.shutdown = false → Consistent pool 0

def HeldInvariant (l : Loc Call) (pool : CThreadPool n Call) : Prop :=
  pool.shutdown = false → Consistent pool l.lag ∧ l.Expects pool

section Discipline

theorem threadRoutine_disciplined (t : Fin n) (shared : CThreadPool n Call) (l : ThreadLoc Call) :
    (threadRoutine t shared l).Disciplined (fun l => l.inside = true) l := by
  cases l with
  | testQueue =>
    simp only [threadRoutine]
    split <;> simp [Move.Disciplined,ThreadLoc.inside]
  | testShutdown =>
    simp only [threadRoutine]
    split <;> simp [Move.Disciplined,ThreadLoc.inside]
  | advanceHead worker => cases worker <;> simp [threadRoutine,Move.Disciplined,ThreadLoc.inside]
  | _ => simp [threadRoutine,Move.Disciplined,ThreadLoc.inside]

theorem poolAddWorker_disciplined (c : Call) (shared : CThreadPool n Call) (l : CallLoc) :
    (poolAddWorker c shared l).Disciplined (fun l => l.inside = true) l := by
  cases l <;> simp [poolAddWorker,Move.Disciplined,CallLoc.inside]

theorem poolDestroy_disciplined (shared : CThreadPool n Call) (l : DestroyLoc) :
    (poolDestroy shared l).Disciplined (fun l => l.inside = true) l := by
  cases l with
  | testShutdown =>
    simp only [poolDestroy]
    split <;> simp [Move.Disciplined,DestroyLoc.inside]
  | join i =>
    simp only [poolDestroy]
    split <;> simp [Move.Disciplined,DestroyLoc.inside]
  | freeQueue =>
    simp only [poolDestroy]
    split <;> simp [Move.Disciplined,DestroyLoc.inside]
  | _ => simp [poolDestroy,Move.Disciplined,DestroyLoc.inside]

theorem pool_disciplined (a : Agent n Call) (l : Loc Call) (shared : CThreadPool n Call) :
    (pool a l shared).Disciplined (fun l => l.inside = true) l := by
  cases a with
  | thread t =>
    cases l with
    | thread l => exact (Move.disciplined_map _ _ _ _).mpr (threadRoutine_disciplined t shared l)
    | _ => trivial
  | call c =>
    cases l with
    | call l => exact (Move.disciplined_map _ _ _ _).mpr (poolAddWorker_disciplined c shared l)
    | _ => trivial
  | destroy =>
    cases l with
    | destroy l => exact (Move.disciplined_map _ _ _ _).mpr (poolDestroy_disciplined shared l)
    | _ => trivial

end Discipline

section Outline
variable {pool : CThreadPool n Call}

/-- A counter that is not 0 counts a task. -/
theorem Consistent.ne_nil (h : Consistent pool 0) (hsize : pool.curQueueSize ≠ 0) : pool.queueHead ≠ [] := by
  intro hnil
  have hc := h.counted
  rw [hnil] at hc
  exact hsize (by simpa using hc)

theorem Consistent.decrement (h : Consistent pool 0) :
    Consistent { pool with curQueueSize := pool.curQueueSize-1 } 1 := by
  refine ⟨?_,h.history⟩
  have hc := h.counted
  rw [BitVec.add_zero] at hc
  exact (BitVec.sub_add_cancel pool.curQueueSize 1#32).trans hc

theorem Consistent.take (h : Consistent pool 1) {worker : Call} (t : Fin n)
    (hhead : pool.queueHead.head? = some worker) :
    Consistent { pool with queueHead := pool.queueHead.tail, taken := pool.taken++[(t,worker)] } 0 := by
  obtain ⟨rest,hrest⟩ := List.head?_eq_some_iff.mp hhead
  constructor
  · have hc := h.counted
    rw [hrest,List.length_cons,BitVec.ofNat_add] at hc
    simpa [hrest] using hc
  · simp [h.history,hrest]

theorem Consistent.link (h : Consistent pool 0) (c : Call) :
    Consistent { pool with queueHead := pool.queueHead++[c], added := pool.added++[c] } 1 := by
  constructor
  · have hc := h.counted
    rw [BitVec.add_zero] at hc
    rw [hc,List.length_append,List.length_singleton,BitVec.ofNat_add]
  · simp [h.history]

theorem Consistent.count (h : Consistent pool 1) :
    Consistent { pool with curQueueSize := pool.curQueueSize+1 } 0 := by
  refine ⟨?_,h.history⟩
  have hc := h.counted
  simpa using hc

theorem threadRoutine_outlined (t : Fin n) (l : ThreadLoc Call) :
    ((threadRoutine t pool l).map Loc.thread).Outlined (fun l => l.inside = true) FreeInvariant HeldInvariant
      (.thread l) pool := by
  cases l with
  | lockQueue => exact fun h hs => ⟨h hs,trivial⟩
  | testQueue =>
    simp only [threadRoutine]
    split
    · exact fun h hs => (h hs).1
    · rename_i hn
      exact Move.outlined_inside rfl (fun h hs => ⟨(h hs).1,(h hs).1.ne_nil (fun hz => hn ⟨hz,hs⟩)⟩)
  | waitReady => exact Move.outlined_outside Bool.false_ne_true id (fun _ => id)
  | relock => exact fun h hs => ⟨h hs,trivial⟩
  | testShutdown =>
    simp only [threadRoutine]
    split
    · rename_i hd
      exact Move.outlined_inside rfl (fun _ hs => by simp [hd] at hs)
    · exact Move.outlined_inside rfl (fun h hs => h hs)
  | unlockAndExit => exact fun h hs => (h hs).1
  | decrementSize => exact Move.outlined_inside rfl (fun h hs => ⟨(h hs).1.decrement,(h hs).2⟩)
  | readHead => exact Move.outlined_inside rfl (fun h hs => ⟨(h hs).1,(h hs).2,rfl⟩)
  | advanceHead worker =>
    cases worker with
    | none => trivial
    | some worker => exact Move.outlined_inside rfl (fun h hs => ⟨(h hs).1.take t (h hs).2.2,trivial⟩)
  | unlockQueue worker => exact fun h hs => (h hs).1
  | process worker => exact Move.outlined_outside Bool.false_ne_true id (fun _ => id)
  | exited => trivial

theorem poolAddWorker_outlined (c : Call) (l : CallLoc) :
    ((poolAddWorker c pool l).map Loc.call).Outlined (fun l => l.inside = true) FreeInvariant HeldInvariant
      (.call l) pool := by
  cases l with
  | lockQueue => exact fun h hs => ⟨h hs,trivial⟩
  | link => exact Move.outlined_inside rfl (fun h hs => ⟨(h hs).1.link c,trivial⟩)
  | count => exact Move.outlined_inside rfl (fun h hs => ⟨(h hs).1.count,trivial⟩)
  | unlockQueue => exact fun h hs => (h hs).1
  | signal => exact Move.outlined_outside Bool.false_ne_true id (fun _ => id)
  | returned => trivial

theorem Loc.expects_alive (alive : Bool) (l : Loc Call) :
    l.Expects { pool with alive } ↔ l.Expects pool := by
  unfold Loc.Expects
  split <;> rfl

theorem poolDestroy_outlined (l : DestroyLoc) :
    ((poolDestroy pool l).map Loc.destroy).Outlined (fun l => l.inside = true) FreeInvariant HeldInvariant
      (.destroy l) pool := by
  cases l with
  | testShutdown =>
    simp only [poolDestroy]
    split
    · exact Move.outlined_outside Bool.false_ne_true id (fun _ => id)
    · exact Move.outlined_outside Bool.false_ne_true id (fun _ => id)
  | lockQueue => exact fun h hs => ⟨h hs,trivial⟩
  | setShutdown => exact Move.outlined_inside rfl (fun _ hs => by cases hs)
  | broadcast => exact Move.outlined_inside rfl (fun h hs => ⟨(h hs).1,(h hs).2⟩)
  | join i =>
    simp only [poolDestroy]
    split
    · exact Move.outlined_inside rfl (fun h hs => ⟨(h hs).1,(h hs).2⟩)
    · exact Move.outlined_inside rfl (fun h hs => ⟨(h hs).1,(h hs).2⟩)
  | freeThreadid => exact Move.outlined_inside rfl (fun h hs => ⟨(h hs).1,(h hs).2⟩)
  | freeQueue =>
    simp only [poolDestroy]
    split
    · exact Move.outlined_inside rfl (fun h hs => ⟨(h hs).1,(h hs).2⟩)
    · -- the list is freed only under `shutdown`
      refine Move.outlined_inside rfl (fun h hs => ?_)
      have hd : pool.shutdown = true := (h hs).2
      simp [hd] at hs
  | unlockQueue => exact fun h hs => (h hs).1
  | destroyMutex => exact Move.outlined_outside Bool.false_ne_true id (fun _ => id)
  | destroyCond => exact Move.outlined_outside Bool.false_ne_true id (fun _ => id)
  | freePool =>
    have hfree : ∀ lag, Consistent pool lag → Consistent { pool with alive := false } lag :=
      fun lag h => ⟨h.counted,h.history⟩
    exact Move.outlined_outside Bool.false_ne_true (fun h hs => hfree 0 (h hs))
      (fun m h hs => ⟨hfree m.lag (h hs).1,(Loc.expects_alive false m).mpr (h hs).2⟩)
  | returned => trivial

theorem pool_outlined (a : Agent n Call) (l : Loc Call) (shared : CThreadPool n Call) :
    (ThreadPool.pool a l shared).Outlined (fun l => l.inside = true) FreeInvariant HeldInvariant l shared := by
  cases a with
  | thread t =>
    cases l with
    | thread l => exact threadRoutine_outlined t l
    | _ => trivial
  | call c =>
    cases l with
    | call l => exact poolAddWorker_outlined c l
    | _ => trivial
  | destroy =>
    cases l with
    | destroy l => exact poolDestroy_outlined l
    | _ => trivial

end Outline

section History

/-- The call has linked its task. -/
def Loc.linked : Loc Call → Bool
  | .call .lockQueue | .call .link => false
  | _ => true

/-- Each call links one task, its own. -/
structure Recorded (s : PoolState n Call) : Prop where
  distinct : s.shared.added.Nodup
  linked : ∀ c, c ∈ s.shared.added ↔ (s.loc (.call c)).linked = true

def LinksNothing (l : Loc Call) (shared : CThreadPool n Call) : Move (Loc Call) (CThreadPool n Call) → Prop
  | .stuck => True
  | .acquire l' | .release l' => l'.linked = l.linked
  | .go l' shared' => l'.linked = l.linked ∧ shared'.added = shared.added

/-- One statement only links a task. -/
theorem pool_linksNothing (a : Agent n Call) {l : Loc Call} (shared : CThreadPool n Call)
    (h : l ≠ .call .link) : LinksNothing l shared (pool a l shared) := by
  cases a with
  | thread t =>
    cases l with
    | thread l =>
      cases l with
      | testQueue =>
        simp only [pool,threadRoutine]
        split
        · exact rfl
        · exact ⟨rfl,rfl⟩
      | testShutdown =>
        simp only [pool,threadRoutine]
        split <;> exact ⟨rfl,rfl⟩
      | lockQueue | relock | unlockAndExit | unlockQueue _ => exact rfl
      | advanceHead worker =>
        cases worker with
        | none => trivial
        | some worker => exact ⟨rfl,rfl⟩
      | exited => trivial
      | _ => exact ⟨rfl,rfl⟩
    | _ => trivial
  | call c =>
    cases l with
    | call l =>
      cases l with
      | link => exact absurd rfl h
      | lockQueue | unlockQueue => exact rfl
      | returned => trivial
      | _ => exact ⟨rfl,rfl⟩
    | _ => trivial
  | destroy =>
    cases l with
    | destroy l =>
      cases l with
      | lockQueue | unlockQueue => exact rfl
      | freeQueue =>
        simp only [pool,poolDestroy]
        split <;> exact ⟨rfl,rfl⟩
      | returned => trivial
      | _ => exact ⟨rfl,rfl⟩
    | _ => trivial

variable [DecidableEq Call]

/-- Locations and history agree as before if the mover's own mark is as before. -/
theorem Recorded.keep {s : PoolState n Call} (hs : Recorded s) {a : Agent n Call} {l : Loc Call}
    (hl : l.linked = (s.loc a).linked) {lock : Option (Agent n Call)} {shared : CThreadPool n Call}
    (hadded : shared.added = s.shared.added) : Recorded ⟨lock,Function.update s.loc a l,shared⟩ := by
  refine ⟨by simpa [hadded] using hs.distinct,fun c => ?_⟩
  rw [hadded,hs.linked c]
  by_cases hc : Agent.call c = a
  · subst hc
    simp [hl]
  · simp [Function.update_of_ne hc]

theorem Recorded.step {s t : PoolState n Call} {a : Agent n Call} (hs : Recorded s)
    (h : step pool s a = some t) : Recorded t := by
  by_cases hlink : s.loc a = .call .link
  · cases a with
    | thread t => simp [Concurrency.step,hlink,pool] at h
    | destroy => simp [Concurrency.step,hlink,pool] at h
    | call c =>
      simp only [Concurrency.step,hlink,pool,poolAddWorker,Move.map,Option.some.injEq] at h
      subst h
      have hc : c ∉ s.shared.added := fun hc => by simp [(hs.linked c),hlink,Loc.linked] at hc
      refine ⟨List.nodup_append.mpr ⟨hs.distinct,List.nodup_singleton c,?_⟩,fun d => ?_⟩
      · rintro x hx y hy rfl
        exact hc (List.mem_singleton.mp hy ▸ hx)
      · by_cases hd : d = c
        · subst hd
          simp [Loc.linked]
        · have hne : Agent.call d ≠ (Agent.call c : Agent n Call) := fun he => hd (by cases he; rfl)
          simp [hd,hs.linked d]
  · have hmove := pool_linksNothing a s.shared hlink
    rcases step_cases h with ⟨l,hm,-,rfl⟩ | ⟨l,hm,rfl⟩ | ⟨l,shared,hm,rfl⟩
    · rw [hm] at hmove
      exact hs.keep hmove rfl
    · rw [hm] at hmove
      exact hs.keep hmove rfl
    · rw [hm] at hmove
      exact hs.keep hmove.1 hmove.2

end History

/-- Nothing is lost, duplicated or reordered; a free mutex means an exact counter,
as far as an `int` can count. -/
structure TasksKept (s : PoolState n Call) : Prop where
  counted : s.lock = none → s.shared.queueHead.length < 2^31 →
    s.shared.curQueueSize.toInt = s.shared.queueHead.length
  found : ∀ t, s.loc (.thread t) ≠ .thread (.advanceHead none)
  ordered : s.shared.taken.map Prod.snd++s.shared.queueHead = s.shared.added
  added : ∀ c, c ∈ s.shared.added ↔ (s.loc (.call c)).linked = true
  once : ∀ c ∈ s.shared.added, (∃! i : ℕ, s.shared.queueHead[i]? = some c) ∧ (∀ t, (t,c) ∉ s.shared.taken) ∨
    c ∉ s.shared.queueHead ∧ ∃! i : ℕ, (s.shared.taken[i]?).map Prod.snd = some c

theorem existsUnique_getElem?_of_nodup {α : Type} {l : List α} (hl : l.Nodup) {c : α} (hc : c ∈ l) :
    ∃! i : ℕ, l[i]? = some c := by
  obtain ⟨i,hi⟩ := List.mem_iff_getElem?.mp hc
  refine ⟨i,hi,fun j hj => ?_⟩
  obtain ⟨hi',hci⟩ := List.getElem?_eq_some_iff.mp hi
  obtain ⟨hj',hcj⟩ := List.getElem?_eq_some_iff.mp hj
  exact (List.Nodup.getElem_inj_iff hl).mp (hcj.trans hci.symm)

theorem consistent_of_asserted {s : PoolState n Call}
    (hs : Asserted (fun l : Loc Call => l.inside = true) FreeInvariant HeldInvariant s)
    (hshutdown : s.shared.shutdown = false) : ∃ lag, Consistent s.shared lag := by
  cases hlock : s.lock with
  | none => exact ⟨0,hs.free hlock hshutdown⟩
  | some a => exact ⟨_,(hs.held a hlock hshutdown).1⟩

section Runs
variable [DecidableEq Call] {s : PoolState n Call} {schedule : List (Agent n Call)}

theorem poolInit_asserted (n : ℕ) (Call : Type) :
    Asserted (fun l : Loc Call => l.inside = true) FreeInvariant HeldInvariant (poolInit n Call) := by
  refine ⟨fun a => ?_,fun _ _ => ⟨rfl,rfl⟩,fun a h => by cases h⟩
  cases a <;> simp [poolInit,Loc.inside,ThreadLoc.inside,CallLoc.inside,DestroyLoc.inside]

theorem poolInit_recorded (n : ℕ) (Call : Type) : Recorded (poolInit n Call) :=
  ⟨List.nodup_nil,fun c => by simp [poolInit,Loc.linked]⟩

/-- In every interleaving, as long as the pool is not being shut down. -/
theorem interleave_tasksKept (h : interleave pool (poolInit n Call) schedule = some s)
    (hshutdown : s.shared.shutdown = false) : TasksKept s := by
  have hs := (poolInit_asserted n Call).interleave pool_disciplined pool_outlined h
  have hr : Recorded s := interleave_induction (fun _ _ _ hs hstep => hs.step hstep) (poolInit_recorded n Call) h
  obtain ⟨lag,hc⟩ := consistent_of_asserted hs hshutdown
  have hnodup := hr.distinct
  rw [hc.history] at hnodup
  obtain ⟨htaken,hqueue,hdisjoint⟩ := List.nodup_append.mp hnodup
  refine ⟨fun hlock hlt => ?_,fun t hloc => ?_,hc.history.symm,hr.linked,fun c hadded => ?_⟩
  · have hcount := (hs.free hlock hshutdown).counted
    rw [BitVec.add_zero] at hcount
    rw [hcount,BitVec.toInt_eq_toNat_cond,BitVec.toNat_ofNat]
    omega
  · have hlock := (hs.excluded (.thread t)).mpr (by rw [hloc]; rfl)
    have hexpects := (hs.held (.thread t) hlock hshutdown).2
    rw [hloc] at hexpects
    exact hexpects.1 (List.head?_eq_none_iff.mp hexpects.2)
  · rw [hc.history] at hadded
    rcases List.mem_append.mp hadded with hmem | hmem
    · refine Or.inr ⟨fun hq => hdisjoint c hmem c hq rfl,?_⟩
      simpa using existsUnique_getElem?_of_nodup htaken hmem
    · refine Or.inl ⟨existsUnique_getElem?_of_nodup hqueue hmem,fun t ht => ?_⟩
      exact hdisjoint c (List.mem_map.mpr ⟨(t,c),ht,rfl⟩) c hmem rfl

/-- A critical section of `pool_add_worker` from its beginning to its end. -/
theorem poolAddWorker_section {c : Call} (hlock : s.lock = none) (hloc : s.loc (.call c) = .call .lockQueue) :
    interleave pool s (List.replicate 4 (.call c)) =
      some ⟨none,Function.update s.loc (.call c) (.call .signal),
        { s.shared with
          queueHead := s.shared.queueHead++[c]
          curQueueSize := s.shared.curQueueSize+1
          added := s.shared.added++[c] }⟩ := by
  simp [interleave,List.replicate,step,pool,hloc,hlock,poolAddWorker,Move.map]

end Runs

/-- One thread waits. It is woken by the first of two calls, while the other thread takes the
task, and takes the second one. -/
def twoTasks (waiting other : Fin 2) : List (Agent 2 ℕ) :=
  [.thread waiting,.thread waiting]++List.replicate 4 (.call 0)++
    [.thread other,.thread other,.thread waiting,.thread other,.call 0]++List.replicate 4 (.thread other)++
    List.replicate 3 (.call 1)++[.thread other,.call 1]++List.replicate 7 (.thread waiting)

theorem interleave_tasksKept_twoTasks : ∃ s, interleave pool (poolInit 2 ℕ) (twoTasks 0 1) = some s ∧
    s.shared.shutdown = false ∧ s.shared.taken = [(1,0),(0,1)] ∧ TasksKept s :=
  have hrun : interleave pool (poolInit 2 ℕ) (twoTasks 0 1) = some _ := rfl
  ⟨_,hrun,rfl,rfl,interleave_tasksKept hrun rfl⟩

/-- One call after another runs to the end of its critical section. -/
def addTasks (count : ℕ) : List (Agent 1 ℕ) := (List.range count).flatMap (fun c => List.replicate 4 (.call c))

theorem addTasks_interleave (count : ℕ) :
    ∃ s, interleave pool (poolInit 1 ℕ) (addTasks count) = some s ∧ s.lock = none ∧ s.shared.shutdown = false ∧
      s.shared.queueHead.length = count ∧ s.shared.curQueueSize = BitVec.ofNat 32 count ∧
      ∀ c, count ≤ c → s.loc (.call c) = .call .lockQueue := by
  induction count with
  | zero => exact ⟨poolInit 1 ℕ,rfl,rfl,rfl,rfl,rfl,fun _ _ => rfl⟩
  | succ count ih =>
    obtain ⟨s,hs,hlock,hshutdown,hlength,hsize,hloc⟩ := ih
    have hnew := hloc count (Nat.le_refl _)
    have hadd : addTasks (count+1) = addTasks count++List.replicate 4 (.call count) := by
      simp [addTasks,List.range_succ]
    rw [hadd,interleave_append,hs,Option.bind_some,poolAddWorker_section hlock hnew]
    refine ⟨_,rfl,rfl,hshutdown,?_,?_,?_⟩
    · simp [hlength]
    · rw [hsize,BitVec.ofNat_add]
      rfl
    · intro c hc
      have hne : c ≠ count := by omega
      simpa [hne] using hloc c (by omega)

/-- With 2^31 tasks on the list the counter is negative. -/
theorem curQueueSize_wraps : ¬ ∀ (schedule : List (Agent 1 ℕ)) (s : PoolState 1 ℕ),
    interleave pool (poolInit 1 ℕ) schedule = some s → s.shared.shutdown = false → s.lock = none →
      s.shared.curQueueSize.toInt = s.shared.queueHead.length := by
  intro h
  obtain ⟨s,hs,hlock,hshutdown,hlength,hsize,-⟩ := addTasks_interleave (2^31)
  have heq := h _ s hs hshutdown hlock
  rw [hsize,hlength] at heq
  exact absurd heq (by decide)

end OpenFlowController.ThreadPool
