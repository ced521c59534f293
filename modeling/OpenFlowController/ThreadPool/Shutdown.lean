import OpenFlowController.ThreadPool.Pool

/-! # Shutting the pool down

`pool_destroy` joins threads that are detached, so nothing makes it wait for them.
Whether a thread comes back to a freed pool depends on where the threads are when
the pool is freed.
-/
namespace OpenFlowController.ThreadPool
open Concurrency
variable {n : ℕ} {Call : Type}

/-- The next thing the thread does is to read the pool or to call the mutex. A
waiting thread does so once it is woken. -/
def ThreadLoc.touches : ThreadLoc Call → Bool
  | .waitReady | .process _ | .exited => false
  | _ => true

def UsesFreed (s : PoolState n Call) (t : Fin n) : Prop :=
  s.shared.alive = false ∧ ∃ l, s.loc (.thread t) = .thread l ∧ l.touches = true

/-- Where a thread can be when `pool_destroy` is called. -/
def ThreadLoc.idle : ThreadLoc Call → Bool
  | .lockQueue | .waitReady | .relock | .process _ => true
  | _ => false

/-- Any tasks are queued and every thread waits, runs a task or is about to lock. -/
structure Starting (s : PoolState n Call) : Prop where
  alive : s.shared.alive = true
  unlocked : s.lock = none
  running : s.shared.shutdown = false
  threads : ∀ t, ∃ l, s.loc (.thread t) = .thread l ∧ l.idle = true
  destroy : s.loc .destroy = .destroy .testShutdown

def AllExited (s : PoolState n Call) : Prop := ∀ t, s.loc (.thread t) = .thread .exited

theorem AllExited.not_usesFreed {s : PoolState n Call} (h : AllExited s) (t : Fin n) : ¬ UsesFreed s t := by
  rintro ⟨-,l,hl,htouches⟩
  rw [h t] at hl
  cases hl
  cases htouches

theorem threadRoutine_alive {t : Fin n} {shared shared' : CThreadPool n Call} {l l' : ThreadLoc Call}
    (h : threadRoutine t shared l = .go l' shared') : shared'.alive = shared.alive := by
  unfold threadRoutine at h
  split at h <;> (try split at h) <;> cases h <;> rfl

theorem poolAddWorker_alive {c : Call} {shared shared' : CThreadPool n Call} {l l' : CallLoc}
    (h : poolAddWorker c shared l = .go l' shared') : shared'.alive = shared.alive := by
  unfold poolAddWorker at h
  split at h <;> cases h <;> rfl

theorem poolDestroy_alive {shared shared' : CThreadPool n Call} {l l' : DestroyLoc}
    (h : poolDestroy shared l = .go l' shared') : shared'.alive = shared.alive ∨ l = .freePool := by
  unfold poolDestroy at h
  split at h <;> (try split at h) <;> cases h <;> simp

/-- Only one statement takes the pool away. -/
theorem pool_alive {a : Agent n Call} {shared shared' : CThreadPool n Call} {l l' : Loc Call}
    (h : pool a l shared = .go l' shared') :
    shared'.alive = shared.alive ∨ a = .destroy ∧ l = .destroy .freePool := by
  cases a with
  | thread t =>
    cases l with
    | thread l =>
      obtain ⟨l₀,hl,-⟩ := Move.map_eq_go.mp h
      exact Or.inl (threadRoutine_alive hl)
    | _ => cases h
  | call c =>
    cases l with
    | call l =>
      obtain ⟨l₀,hl,-⟩ := Move.map_eq_go.mp h
      exact Or.inl (poolAddWorker_alive hl)
    | _ => cases h
  | destroy =>
    cases l with
    | destroy l =>
      obtain ⟨l₀,hl,-⟩ := Move.map_eq_go.mp h
      rcases poolDestroy_alive hl with ha | rfl
      · exact Or.inl ha
      · exact Or.inr ⟨rfl,rfl⟩
    | _ => cases h

section Steps
variable [DecidableEq Call] {s s' : PoolState n Call} {a : Agent n Call}

/-- The pool is freed, if at all, when every thread has exited. -/
def WaitsForThreads : PoolState n Call → List (Agent n Call) → Prop
  | _, [] => True
  | s, a :: schedule => (a = .destroy → s.loc .destroy = .destroy .freePool → AllExited s) ∧
    ∀ s', step pool s a = some s' → WaitsForThreads s' schedule

theorem step_alive (h : step pool s a = some s') :
    s'.shared.alive = s.shared.alive ∨ a = .destroy ∧ s.loc .destroy = .destroy .freePool := by
  rcases step_cases h with ⟨l,-,-,rfl⟩ | ⟨l,-,rfl⟩ | ⟨l,shared,hm,rfl⟩
  · exact Or.inl rfl
  · exact Or.inl rfl
  · rcases pool_alive hm with ha | ⟨rfl,hl⟩
    · exact Or.inl ha
    · exact Or.inr ⟨rfl,hl⟩

theorem step_freed (h : step pool s a = some s') (hfreed : s.shared.alive = false) : s'.shared.alive = false := by
  rcases step_cases h with ⟨l,-,-,rfl⟩ | ⟨l,-,rfl⟩ | ⟨l,shared,hm,rfl⟩
  · exact hfreed
  · exact hfreed
  · rcases pool_alive hm with ha | ⟨rfl,hl⟩
    · exact ha.trans hfreed
    · rw [hl] at hm
      cases hm
      rfl

/-- As long as the pool is there, nobody had to be waited for. -/
theorem waitsForThreads_append {before after : List (Agent n Call)} (h : interleave pool s before = some s')
    (halive : s'.shared.alive = true) (hafter : WaitsForThreads s' after) : WaitsForThreads s (before++after) := by
  induction before generalizing s with
  | nil =>
    obtain rfl := Option.some.inj h
    exact hafter
  | cons a before ih =>
    obtain ⟨u,hu,h⟩ := Option.bind_eq_some_iff.mp h
    refine ⟨fun ha hl => ?_,fun v hv => ?_⟩
    · have hfreed : u.shared.alive = false := by
        rw [ha,step_of_go (by rw [hl]; rfl)] at hu
        rw [← Option.some.inj hu]
      have hgone : s'.shared.alive = false := interleave_induction (fun _ _ _ hs hstep => step_freed hstep hs) hfreed h
      rw [halive] at hgone
      cases hgone
    · obtain rfl := Option.some.inj (hu.symm.trans hv)
      exact ih h

theorem step_loc_of_ne (h : step pool s a = some s') {b : Agent n Call} (hb : b ≠ a) : s'.loc b = s.loc b := by
  rcases step_cases h with ⟨l,-,-,rfl⟩ | ⟨l,-,rfl⟩ | ⟨l,shared,-,rfl⟩
  · exact Function.update_of_ne hb _ _
  · exact Function.update_of_ne hb _ _
  · exact Function.update_of_ne hb _ _

/-- A thread that has exited is never scheduled again. -/
theorem AllExited.step (hs : AllExited s) (h : step pool s a = some s') : AllExited s' := by
  intro t
  by_cases ha : .thread t = a
  · subst ha
    simp [Concurrency.step,hs t,pool,threadRoutine,Move.map] at h
  · rw [step_loc_of_ne h ha,hs t]

/-- A thread is always at a location of `thread_routine`. -/
def Placed (s : PoolState n Call) : Prop := ∀ t, ∃ l, s.loc (.thread t) = .thread l

theorem Placed.step (hs : Placed s) (h : step pool s a = some s') : Placed s' := by
  intro t
  by_cases ha : .thread t = a
  · subst ha
    obtain ⟨l₀,hl₀⟩ := hs t
    rcases step_cases h with ⟨l,hm,-,rfl⟩ | ⟨l,hm,rfl⟩ | ⟨l,shared,hm,rfl⟩
    · rw [hl₀] at hm
      obtain ⟨l₁,-,rfl⟩ := Move.map_eq_acquire.mp hm
      exact ⟨l₁,Function.update_self _ _ _⟩
    · rw [hl₀] at hm
      obtain ⟨l₁,-,rfl⟩ := Move.map_eq_release.mp hm
      exact ⟨l₁,Function.update_self _ _ _⟩
    · rw [hl₀] at hm
      obtain ⟨l₁,-,rfl⟩ := Move.map_eq_go.mp hm
      exact ⟨l₁,Function.update_self _ _ _⟩
  · rw [step_loc_of_ne h ha]
    exact hs t

theorem AllExited.waitsForThreads (hs : AllExited s) (schedule : List (Agent n Call)) : WaitsForThreads s schedule := by
  induction schedule generalizing s with
  | nil => trivial
  | cons a schedule ih => exact ⟨fun _ _ => hs,fun s' hstep => ih (hs.step hstep)⟩

/-- Step lemma of the careful runs: a freed pool has no threads left. -/
theorem exited_of_freed {schedule : List (Agent n Call)} (hs : s.shared.alive = false → AllExited s)
    (hwait : WaitsForThreads s schedule) (h : interleave pool s schedule = some s') :
    s'.shared.alive = false → AllExited s' := by
  induction schedule generalizing s with
  | nil =>
    cases h
    exact hs
  | cons a schedule ih =>
    obtain ⟨u,hu,h⟩ := Option.bind_eq_some_iff.mp h
    refine ih (fun hfreed => ?_) (hwait.2 u hu) h
    rcases step_alive hu with ha | ⟨ha,hl⟩
    · exact (hs (ha ▸ hfreed)).step hu
    · exact (hwait.1 ha hl).step hu

/-- Freed under a thread that has not exited, the pool is used again. -/
theorem usesFreed_of_not_exited (hs : Placed s) (hfree : s.loc .destroy = .destroy .freePool)
    {t : Fin n} (ht : s.loc (.thread t) ≠ .thread .exited) :
    ∃ rest s', interleave pool s rest = some s' ∧ UsesFreed s' t := by
  obtain ⟨l,hl⟩ := hs t
  let freed : PoolState n Call :=
    ⟨s.lock,Function.update s.loc .destroy (.destroy .returned),{ s.shared with alive := false }⟩
  have hfreed : step pool s .destroy = some freed := step_of_go (by rw [hfree]; rfl)
  have hloc : freed.loc (.thread t) = .thread l := by
    simp [freed,hl]
  by_cases htouches : l.touches = true
  · exact ⟨[.destroy],freed,by simp [interleave,hfreed],rfl,l,hloc,htouches⟩
  · -- a waiting or working thread is one move away from the mutex
    have hback : ∃ l', threadRoutine t freed.shared l = .go l' freed.shared ∧ l'.touches = true := by
      cases l with
      | waitReady => exact ⟨.relock,rfl,rfl⟩
      | process worker => exact ⟨.lockQueue,rfl,rfl⟩
      | exited => exact absurd hl ht
      | _ => exact absurd rfl htouches
    obtain ⟨l',hmove,hl'⟩ := hback
    let back : PoolState n Call :=
      ⟨freed.lock,Function.update freed.loc (.thread t) (.thread l'),freed.shared⟩
    have hstep : step pool freed (.thread t) = some back := step_of_go (by rw [hloc,pool,hmove]; rfl)
    refine ⟨[.destroy,.thread t],back,by simp [interleave,hfreed,hstep],rfl,l',?_,hl'⟩
    simp [back]

/-- In every run in which the pool is freed only when all threads have exited, no
thread uses it afterwards; freed at any other moment, it is used in some run. -/
theorem shutdown_safe {s₀ : PoolState n Call} {schedule : List (Agent n Call)} (hstart : Starting s₀)
    (hrun : interleave pool s₀ schedule = some s) :
    (WaitsForThreads s₀ schedule → ∀ t, ¬ UsesFreed s t) ∧
    (s.loc .destroy = .destroy .freePool →
      ((∀ rest s', interleave pool s rest = some s' → ∀ t, ¬ UsesFreed s' t) ↔ AllExited s)) := by
  constructor
  · intro hwait t hused
    have hexited := exited_of_freed (fun hf => by simp [hstart.alive] at hf) hwait hrun hused.1
    exact hexited.not_usesFreed t hused
  · intro hfree
    have hplaced : Placed s := interleave_induction (fun _ _ _ hs hstep => hs.step hstep)
      (fun t => (hstart.threads t).imp (fun l h => h.1)) hrun
    constructor
    · intro hsafe t
      by_contra ht
      obtain ⟨rest,s',hrest,hused⟩ := usesFreed_of_not_exited hplaced hfree ht
      exact hsafe rest s' hrest t hused
    · intro hexited rest s' hrest t
      have hexited' : AllExited s' := interleave_induction (fun _ _ _ hs hstep => hs.step hstep) hexited hrest
      exact hexited'.not_usesFreed t

end Steps

/-- One idle thread, no task and no call. -/
def loneThread : PoolState 1 Empty := poolInit 1 Empty

theorem loneThread_starting : Starting loneThread :=
  ⟨rfl,rfl,rfl,fun _ => ⟨.lockQueue,rfl,rfl⟩,rfl⟩

/-- The thread is told to exit, and does. -/
def exitThread : List (Agent 1 Empty) := List.replicate 9 .destroy++List.replicate 4 (.thread 0)

/-- The pool is freed after it. -/
theorem shutdown_safe_loneThread : ∃ s, Starting loneThread ∧
    interleave pool loneThread (exitThread++List.replicate 3 .destroy) = some s ∧ s.shared.alive = false ∧
    WaitsForThreads loneThread (exitThread++List.replicate 3 .destroy) ∧ (∀ t, ¬ UsesFreed s t) ∧
    (s.loc .destroy = .destroy .freePool →
      ((∀ rest s', interleave pool s rest = some s' → ∀ t, ¬ UsesFreed s' t) ↔ AllExited s)) := by
  have hwaits : WaitsForThreads loneThread (exitThread++List.replicate 3 .destroy) := by
    obtain ⟨s,hs,halive,hexited⟩ : ∃ s, interleave pool loneThread exitThread = some s ∧ s.shared.alive = true ∧
        AllExited s := ⟨_,rfl,rfl,fun t => by rw [Fin.fin_one_eq_zero t]; rfl⟩
    exact waitsForThreads_append hs halive (hexited.waitsForThreads _)
  obtain ⟨s,hs,hfreed⟩ : ∃ s, interleave pool loneThread (exitThread++List.replicate 3 .destroy) = some s ∧
      s.shared.alive = false := ⟨_,rfl,rfl⟩
  obtain ⟨hsafe,hexact⟩ := shutdown_safe loneThread_starting hs
  exact ⟨s,loneThread_starting,hs,hfreed,hwaits,hsafe hwaits,hexact⟩

/-- `pool_destroy` runs to its end before the thread gets to the mutex. -/
theorem loneThread_usesFreed : ∃ s, Starting loneThread ∧
    interleave pool loneThread (List.replicate 12 .destroy) = some s ∧ UsesFreed s 0 :=
  ⟨_,loneThread_starting,rfl,rfl,.lockQueue,rfl,rfl⟩

end OpenFlowController.ThreadPool
