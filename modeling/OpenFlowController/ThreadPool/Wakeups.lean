import Mathlib.Data.Fintype.Card
import OpenFlowController.Concurrency.Condition
import OpenFlowController.ThreadPool.Shutdown
import OpenFlowController.ThreadPool.Tasks

/-! # Waking the threads of the pool

The waits of `thread_routine` with the signals that end them. One task is one signal,
sent after the mutex is free again, so a thread that did not wait can take the task
before the one that was woken for it. That no task is left behind a sleeping thread
is counted: every queued task has an awake agent of its own.
-/
namespace OpenFlowController.ThreadPool
open Concurrency
variable {n : ℕ} {Call : Type}

/-- The condition variable `queue_ready`. -/
def queueReady : Condition (Loc Call) where
  waits
    | .thread .waitReady => true
    | _ => false
  signals
    | .call .signal => true
    | _ => false
  broadcasts
    | .destroy .broadcast => true
    | _ => false

abbrev WaitingPool (n : ℕ) (Call : Type) := Waiting (Agent n Call) (Loc Call) (CThreadPool n Call)

def waitingInit (n : ℕ) (Call : Type) : WaitingPool n Call := ⟨poolInit n Call,∅⟩

/-- On the way to a task: a thread that has none yet, or a call that has linked its
task and is yet to signal. -/
def Loc.serves : Loc Call → Bool
  | .thread .lockQueue | .thread .testQueue | .thread .waitReady | .thread .relock | .thread .testShutdown
  | .thread .decrementSize | .thread .readHead | .thread (.advanceHead _) => true
  | .call .count | .call .unlockQueue | .call .signal => true
  | _ => false

/-- What a move other than linking and taking a task does: the tasks are as before,
and its agent stays on the way unless it signals. -/
def Passes (l : Loc Call) (shared : CThreadPool n Call) : Move (Loc Call) (CThreadPool n Call) → Prop
  | .stuck => True
  | .acquire l' | .release l' => l.serves = true → l'.serves = true
  | .go l' shared' => (shared.shutdown = true → shared'.shutdown = true) ∧
    (shared'.shutdown = false → shared'.queueHead = shared.queueHead ∧ shared'.added = shared.added ∧
      (l.serves = true → l'.serves = true ∨ l = .call .signal))

theorem threadRoutine_passes (i : Fin n) (shared : CThreadPool n Call) {l : ThreadLoc Call}
    (h : ∀ worker, l ≠ .advanceHead worker) :
    Passes (.thread l) shared ((threadRoutine i shared l).map .thread) := by
  cases l with
  | testQueue =>
    simp only [threadRoutine]
    split
    · exact fun _ => rfl
    · exact ⟨id,fun _ => ⟨rfl,rfl,fun _ => Or.inl rfl⟩⟩
  | testShutdown =>
    simp only [threadRoutine]
    split
    · rename_i hd
      exact ⟨id,fun hn => by simp [hd] at hn⟩
    · exact ⟨id,fun _ => ⟨rfl,rfl,fun _ => Or.inl rfl⟩⟩
  | lockQueue | relock => exact fun _ => rfl
  | unlockAndExit | unlockQueue _ => exact fun hn => by cases hn
  | advanceHead worker => exact absurd rfl (h worker)
  | exited => trivial
  | process _ => exact ⟨id,fun _ => ⟨rfl,rfl,fun hn => by cases hn⟩⟩
  | waitReady | decrementSize | readHead => exact ⟨id,fun _ => ⟨rfl,rfl,fun _ => Or.inl rfl⟩⟩

theorem poolAddWorker_passes (c : Call) (shared : CThreadPool n Call) {l : CallLoc} (h : l ≠ .link) :
    Passes (.call l) shared ((poolAddWorker c shared l).map .call) := by
  cases l with
  | lockQueue => exact fun hn => by cases hn
  | link => exact absurd rfl h
  | count => exact ⟨id,fun _ => ⟨rfl,rfl,fun _ => Or.inl rfl⟩⟩
  | unlockQueue => exact fun _ => rfl
  | signal => exact ⟨id,fun _ => ⟨rfl,rfl,fun _ => Or.inr rfl⟩⟩
  | returned => trivial

/-- The destroyer takes tasks off the list only once `shutdown` is set. -/
theorem poolDestroy_passes (shared : CThreadPool n Call) {l : DestroyLoc}
    (h : l = .freeQueue → shared.shutdown = true) :
    Passes (.destroy l) shared ((poolDestroy shared l).map .destroy) := by
  cases l with
  | lockQueue | unlockQueue => exact fun hn => by cases hn
  | setShutdown => exact ⟨fun _ => rfl,fun hn => by cases hn⟩
  | freeQueue =>
    simp only [poolDestroy]
    split
    · exact ⟨id,fun _ => ⟨rfl,rfl,fun hn => by cases hn⟩⟩
    · exact ⟨id,fun hn => by simp [h rfl] at hn⟩
  | returned => trivial
  | _ => exact ⟨id,fun _ => ⟨rfl,rfl,fun hn => by cases hn⟩⟩

theorem pool_passes {a : Agent n Call} {l : Loc Call} {shared : CThreadPool n Call} (hlink : l ≠ .call .link)
    (htake : ∀ worker, l ≠ .thread (.advanceHead worker)) (hfree : l = .destroy .freeQueue → shared.shutdown = true) :
    Passes l shared (pool a l shared) := by
  cases a with
  | thread i =>
    cases l with
    | thread l => exact threadRoutine_passes i shared (fun worker hl => htake worker (congrArg Loc.thread hl))
    | _ => trivial
  | call c =>
    cases l with
    | call l => exact poolAddWorker_passes c shared (fun hl => hlink (congrArg Loc.call hl))
    | _ => trivial
  | destroy =>
    cases l with
    | destroy l => exact poolDestroy_passes shared (fun hl => hfree (congrArg Loc.destroy hl))
    | _ => trivial

/-- A wait begins at one place, and when no task is counted. -/
def BeginsWait (l : Loc Call) (shared : CThreadPool n Call) : Move (Loc Call) (CThreadPool n Call) → Prop
  | .stuck => True
  | .acquire l' | .go l' _ => queueReady.waits l' = false
  | .release l' => queueReady.waits l' = true → l = .thread .testQueue ∧ shared.curQueueSize = 0

theorem threadRoutine_beginsWait (i : Fin n) (shared : CThreadPool n Call) (l : ThreadLoc Call) :
    BeginsWait (.thread l) shared ((threadRoutine i shared l).map .thread) := by
  cases l with
  | testQueue =>
    simp only [threadRoutine]
    split
    · rename_i hempty
      exact fun _ => ⟨rfl,hempty.1⟩
    · rfl
  | testShutdown =>
    simp only [threadRoutine]
    split <;> rfl
  | advanceHead worker => cases worker <;> trivial
  | unlockAndExit | unlockQueue _ => exact fun hn => by cases hn
  | exited => trivial
  | _ => rfl

theorem poolDestroy_beginsWait (shared : CThreadPool n Call) (l : DestroyLoc) :
    BeginsWait (.destroy l) shared ((poolDestroy shared l).map .destroy) := by
  cases l with
  | testShutdown | join _ => rfl
  | freeQueue =>
    simp only [poolDestroy]
    split <;> rfl
  | unlockQueue => exact fun hn => by cases hn
  | returned => trivial
  | _ => rfl

theorem pool_beginsWait (a : Agent n Call) (l : Loc Call) (shared : CThreadPool n Call) :
    BeginsWait l shared (pool a l shared) := by
  cases a with
  | thread i =>
    cases l with
    | thread l => exact threadRoutine_beginsWait i shared l
    | _ => trivial
  | call c =>
    cases l with
    | call l =>
      cases l with
      | unlockQueue => exact fun hn => by cases hn
      | returned => trivial
      | _ => rfl
    | _ => trivial
  | destroy =>
    cases l with
    | destroy l => exact poolDestroy_beginsWait shared l
    | _ => trivial

section Steps
variable [DecidableEq Call] {s t : PoolState n Call} {a : Agent n Call}

/-- The threads, and the calls that have linked a task. -/
def agents (s : PoolState n Call) : Finset (Agent n Call) :=
  Finset.univ.image Agent.thread ∪ s.shared.added.toFinset.image Agent.call

def serving (s : WaitingPool n Call) : Finset (Agent n Call) :=
  (agents s.base).filter (fun a => a ∉ s.asleep ∧ (s.base.loc a).serves = true)

/-- While a thread sleeps there are as many agents on the way as there are tasks. -/
def Attended (s : WaitingPool n Call) : Prop :=
  s.asleep.Nonempty → s.base.shared.queueHead.length ≤ (serving s).card

/-- A step while the pool is not being shut down. -/
structure Passed (s t : PoolState n Call) (a : Agent n Call) : Prop where
  running : s.shared.shutdown = false
  queueHead : t.shared.queueHead = s.shared.queueHead
  added : t.shared.added = s.shared.added
  serves : (s.loc a).serves = true → (t.loc a).serves = true ∨ s.loc a = .call .signal

/-- Link, take, or neither. -/
theorem step_tasks (hs : Asserted (fun l : Loc Call => l.inside = true) FreeInvariant HeldInvariant s)
    (h : step pool s a = some t) (hrunning : t.shared.shutdown = false) :
    (∃ c, a = .call c ∧ s.loc a = .call .link ∧
      t = ⟨s.lock,Function.update s.loc a (.call .count),
        { s.shared with queueHead := s.shared.queueHead++[c], added := s.shared.added++[c] }⟩) ∨
    (∃ i worker, a = .thread i ∧ s.loc a = .thread (.advanceHead (some worker)) ∧
      t = ⟨s.lock,Function.update s.loc a (.thread (.unlockQueue worker)),
        { s.shared with queueHead := s.shared.queueHead.tail, taken := s.shared.taken++[(i,worker)] }⟩) ∨
    Passed s t a := by
  by_cases hlink : s.loc a = .call .link
  · cases a with
    | call c =>
      simp only [Concurrency.step,hlink,pool,poolAddWorker,Move.map,Option.some.injEq] at h
      exact Or.inl ⟨c,rfl,hlink,h.symm⟩
    | _ => simp [Concurrency.step,hlink,pool] at h
  by_cases htake : ∃ worker, s.loc a = .thread (.advanceHead worker)
  · obtain ⟨worker,htake⟩ := htake
    cases a with
    | thread i =>
      cases worker with
      | none => simp [Concurrency.step,htake,pool,threadRoutine,Move.map] at h
      | some worker =>
        simp only [Concurrency.step,htake,pool,threadRoutine,Move.map,Option.some.injEq] at h
        exact Or.inr (Or.inl ⟨i,worker,rfl,htake,h.symm⟩)
    | _ => simp [Concurrency.step,htake,pool] at h
  have hfree : s.loc a = .destroy .freeQueue → s.shared.shutdown = true := by
    intro hl
    by_contra hn
    have hn : s.shared.shutdown = false := by simpa using hn
    have hheld := hs.held a ((hs.excluded a).mpr (by rw [hl]; rfl)) hn
    rw [hl] at hheld
    have hd : s.shared.shutdown = true := hheld.2
    simp [hn] at hd
  have hmove : Passes (s.loc a) s.shared (pool a (s.loc a) s.shared) :=
    pool_passes hlink (fun worker hl => htake ⟨worker,hl⟩) hfree
  refine Or.inr (Or.inr ?_)
  rcases step_cases h with ⟨l,hm,-,rfl⟩ | ⟨l,hm,rfl⟩ | ⟨l,shared,hm,rfl⟩
  · rw [hm] at hmove
    exact ⟨hrunning,rfl,rfl,fun hl => Or.inl (by simpa using hmove hl)⟩
  · rw [hm] at hmove
    exact ⟨hrunning,rfl,rfl,fun hl => Or.inl (by simpa using hmove hl)⟩
  · rw [hm] at hmove
    obtain ⟨hkeep,hpass⟩ := hmove
    obtain ⟨hqueue,hadded,hserves⟩ := hpass hrunning
    refine ⟨?_,hqueue,hadded,fun hl => by simpa using hserves hl⟩
    by_contra hn
    have hn : s.shared.shutdown = true := by simpa using hn
    have hd := hkeep hn
    have hrunning : shared.shutdown = false := hrunning
    simp [hd] at hrunning

theorem step_beginsWait (h : step pool s a = some t) (hwait : queueReady.waits (t.loc a) = true) :
    (∃ i, a = .thread i) ∧ t.loc a = .thread .waitReady ∧ s.loc a = .thread .testQueue ∧
      s.shared.curQueueSize = 0 ∧ t.shared = s.shared := by
  have hmove := pool_beginsWait a (s.loc a) s.shared
  rcases step_cases h with ⟨l,hm,-,rfl⟩ | ⟨l,hm,rfl⟩ | ⟨l,shared,hm,rfl⟩
  · rw [hm] at hmove
    simp [show queueReady.waits l = false from hmove] at hwait
  · rw [hm] at hmove
    have hl : queueReady.waits l = true := by simpa using hwait
    obtain ⟨htest,hsize⟩ := hmove hl
    refine ⟨?_,?_,htest,hsize,rfl⟩
    · cases a with
      | thread i => exact ⟨i,rfl⟩
      | _ => simp [htest,pool] at hm
    · have hwaitReady : l = .thread .waitReady := by
        revert hl
        unfold queueReady
        simp only
        split <;> simp
      simp [hwaitReady]
  · rw [hm] at hmove
    simp [show queueReady.waits l = false from hmove] at hwait

end Steps

section Attendance
variable [DecidableEq Call] {s t : WaitingPool n Call} {a : Agent n Call} {woken : Finset (Agent n Call)}

structure Watched (s : WaitingPool n Call) : Prop where
  asserted : Asserted (fun l : Loc Call => l.inside = true) FreeInvariant HeldInvariant s.base
  recorded : Recorded s.base
  sleeping : ∀ b ∈ s.asleep, (∃ i, b = .thread i) ∧ s.base.loc b = .thread .waitReady
  attended : s.base.shared.shutdown = false → s.base.shared.added.length < 2^32 → Attended s

theorem mem_serving {b : Agent n Call} : b ∈ serving s ↔
    b ∈ agents s.base ∧ b ∉ s.asleep ∧ (s.base.loc b).serves = true := Finset.mem_filter

theorem mem_agents {s : PoolState n Call} {b : Agent n Call} :
    b ∈ agents s ↔ (∃ i, b = .thread i) ∨ ∃ c ∈ s.shared.added, b = .call c := by
  simp only [agents,Finset.mem_union,Finset.mem_image,Finset.mem_univ,true_and,List.mem_toFinset,eq_comm]

theorem agents_subset {s t : PoolState n Call} (h : ∀ c ∈ s.shared.added, c ∈ t.shared.added) :
    agents s ⊆ agents t := by
  intro b hb
  rcases mem_agents.mp hb with hthread | ⟨c,hc,rfl⟩
  · exact mem_agents.mpr (Or.inl hthread)
  · exact mem_agents.mpr (Or.inr ⟨c,h c hc,rfl⟩)

/-- An agent other than the mover goes on serving if it is left awake. -/
theorem serving_of_ne (hstep : step pool s.base a = some t.base)
    (hadded : ∀ c ∈ s.base.shared.added, c ∈ t.base.shared.added) {b : Agent n Call} (hb : b ∈ serving s)
    (hne : b ≠ a) (hawake : b ∉ t.asleep) : b ∈ serving t := by
  obtain ⟨hagent,-,hserves⟩ := mem_serving.mp hb
  refine mem_serving.mpr ⟨agents_subset hadded hagent,hawake,?_⟩
  rwa [step_loc_of_ne hstep hne]

/-- A task more is on the list, and its call is on the way to the signal. -/
theorem attended_of_link (hs : Watched s) {c : Call} (hl : s.base.loc (.call c) = .call .link)
    (ht : t.base = ⟨s.base.lock,Function.update s.base.loc (.call c) (.call .count),
      { s.base.shared with queueHead := s.base.shared.queueHead++[c], added := s.base.shared.added++[c] }⟩)
    (hasleep : t.asleep = s.asleep) (hbefore : Attended s) : Attended t := by
  intro hsome
  have hle := hbefore (hasleep ▸ hsome)
  have hnew : Agent.call c ∉ serving s := fun hc => by
    have hserves := (mem_serving.mp hc).2.2
    rw [hl] at hserves
    cases hserves
  have hsub : insert (Agent.call c) (serving s) ⊆ serving t := by
    intro b hb
    rcases Finset.mem_insert.mp hb with rfl | hb
    · refine mem_serving.mpr ⟨mem_agents.mpr (Or.inr ⟨c,by simp [ht],rfl⟩),?_,by simp [ht,Loc.serves]⟩
      intro hsleep
      obtain ⟨⟨i,hi⟩,-⟩ := hs.sleeping _ (hasleep ▸ hsleep)
      cases hi
    · obtain ⟨hagent,hawake,hserves⟩ := mem_serving.mp hb
      have hne : b ≠ Agent.call c := fun he => hnew (he ▸ hb)
      refine mem_serving.mpr ⟨agents_subset (fun d hd => by simp [ht,hd]) hagent,hasleep ▸ hawake,?_⟩
      simpa [ht,hne] using hserves
  have hcard := Finset.card_le_card hsub
  rw [Finset.card_insert_of_notMem hnew] at hcard
  have hlength : t.base.shared.queueHead.length = s.base.shared.queueHead.length+1 := by simp [ht]
  omega

/-- With the task its thread has gone from among those on the way. -/
theorem attended_of_take {i : Fin n} {worker : Call} (hstep : step pool s.base (.thread i) = some t.base)
    (ht : t.base = ⟨s.base.lock,Function.update s.base.loc (.thread i) (.thread (.unlockQueue worker)),
      { s.base.shared with
        queueHead := s.base.shared.queueHead.tail
        taken := s.base.shared.taken++[(i,worker)] }⟩)
    (hasleep : t.asleep = s.asleep) (hbefore : Attended s) : Attended t := by
  intro hsome
  have hle := hbefore (hasleep ▸ hsome)
  have hadded : ∀ c ∈ s.base.shared.added, c ∈ t.base.shared.added := fun c hc => by simpa [ht] using hc
  have hsub : serving s ⊆ insert (Agent.thread i) (serving t) := by
    intro b hb
    by_cases hne : b = .thread i
    · exact Finset.mem_insert.mpr (Or.inl hne)
    · exact Finset.mem_insert_of_mem
        (serving_of_ne hstep hadded hb hne (hasleep ▸ (mem_serving.mp hb).2.1))
  have hcard := (Finset.card_le_card hsub).trans (Finset.card_insert_le _ _)
  have hlength : t.base.shared.queueHead.length = s.base.shared.queueHead.length-1 := by simp [ht]
  omega

/-- The signalling call leaves, and one of those it has woken takes its place. -/
theorem attended_of_signal (hs : Watched s) (hstep : step pool s.base a = some t.base)
    (hpassed : Passed s.base t.base a) (hawake : a ∉ s.asleep)
    (hwoken : woken ⊆ s.asleep) (hone : woken = ∅ → s.asleep = ∅) (hasleep : t.asleep = s.asleep \ woken)
    (hbefore : Attended s) : Attended t := by
  intro hsome
  obtain ⟨sleeper,hsleeper⟩ := hsome
  rw [hasleep] at hsleeper
  have hsleeper := (Finset.mem_sdiff.mp hsleeper).1
  have hle := hbefore ⟨sleeper,hsleeper⟩
  have hnonempty : woken ≠ ∅ := fun hempty => by
    rw [hone hempty] at hsleeper
    cases hsleeper
  obtain ⟨w,hw⟩ := Finset.nonempty_iff_ne_empty.mpr hnonempty
  have hadded : ∀ c ∈ s.base.shared.added, c ∈ t.base.shared.added := fun c hc => hpassed.added ▸ hc
  obtain ⟨hthread,hwloc⟩ := hs.sleeping w (hwoken hw)
  have hwne : w ≠ a := fun he => hawake (he ▸ hwoken hw)
  have hwserves : w ∈ serving t := by
    refine mem_serving.mpr ⟨mem_agents.mpr (Or.inl hthread),?_,?_⟩
    · rw [hasleep]
      exact fun h => (Finset.mem_sdiff.mp h).2 hw
    · rw [step_loc_of_ne hstep hwne,hwloc]
      rfl
  have hsub : serving s ⊆ insert a ((serving t).erase w) := by
    intro b hb
    have hbawake := (mem_serving.mp hb).2.1
    by_cases hne : b = a
    · exact Finset.mem_insert.mpr (Or.inl hne)
    · refine Finset.mem_insert_of_mem (Finset.mem_erase.mpr ⟨fun he => hbawake (he ▸ hwoken hw),?_⟩)
      refine serving_of_ne hstep hadded hb hne ?_
      rw [hasleep]
      exact fun h => hbawake (Finset.mem_sdiff.mp h).1
  have hcard := (Finset.card_le_card hsub).trans (Finset.card_insert_le _ _)
  have hpos := Finset.card_pos.mpr ⟨w,hwserves⟩
  rw [Finset.card_erase_of_mem hwserves] at hcard
  have hlength : t.base.shared.queueHead.length = s.base.shared.queueHead.length := by rw [hpassed.queueHead]
  omega

/-- A thread goes to sleep only with the list empty. -/
theorem attended_of_wait (hs : Watched s) (hstep : step pool s.base a = some t.base)
    (hwait : queueReady.waits (t.base.loc a) = true) (hrunning : t.base.shared.shutdown = false)
    (hfew : t.base.shared.added.length < 2^32) : Attended t := by
  obtain ⟨-,-,htest,hsize,hshared⟩ := step_beginsWait hstep hwait
  rw [hshared] at hrunning hfew
  have hheld := hs.asserted.held a ((hs.asserted.excluded a).mpr (by rw [htest]; rfl)) hrunning
  rw [htest] at hheld
  have hcounted := hheld.1.counted
  have hhistory := congrArg List.length hheld.1.history
  simp only [hsize,Loc.lag,BitVec.add_zero] at hcounted
  have hlength := congrArg BitVec.toNat hcounted
  rw [BitVec.toNat_ofNat] at hlength
  simp only [List.length_append,List.length_map] at hhistory
  intro _
  rw [hshared]
  have hzero : (0 : BitVec 32).toNat = 0 := rfl
  omega

/-- Nobody falls asleep or wakes, and the mover stays on the way. -/
theorem attended_of_pass (hstep : step pool s.base a = some t.base) (hpassed : Passed s.base t.base a)
    (hsignal : queueReady.signals (s.base.loc a) = false) (hawake : a ∉ s.asleep) (hasleep : t.asleep = s.asleep)
    (hbefore : Attended s) : Attended t := by
  intro hsome
  have hle := hbefore (hasleep ▸ hsome)
  have hadded : ∀ c ∈ s.base.shared.added, c ∈ t.base.shared.added := fun c hc => hpassed.added ▸ hc
  have hsub : serving s ⊆ serving t := by
    intro b hb
    obtain ⟨hagent,hbawake,hserves⟩ := mem_serving.mp hb
    by_cases hne : b = a
    · subst hne
      rcases hpassed.serves hserves with hserves' | hl
      · exact mem_serving.mpr ⟨agents_subset hadded hagent,hasleep ▸ hawake,hserves'⟩
      · rw [hl] at hsignal
        cases hsignal
    · exact serving_of_ne hstep hadded hb hne (hasleep ▸ hbawake)
  rw [hpassed.queueHead]
  exact hle.trans (Finset.card_le_card hsub)

theorem Watched.attended_move (hs : Watched s) (h : happen pool queueReady s (.move a woken) = some t)
    (hrunning : t.base.shared.shutdown = false) (hfew : t.base.shared.added.length < 2^32) : Attended t := by
  obtain ⟨hawake,hstep,hasleep⟩ := happen_move h
  rcases step_tasks hs.asserted hstep hrunning with ⟨c,rfl,hl,ht⟩ | ⟨i,worker,rfl,hl,ht⟩ | hpassed
  · have hfew' : s.base.shared.added.length < 2^32 := by
      rw [ht] at hfew
      exact (Nat.le_of_lt (by simpa using hfew))
    have hrunning' : s.base.shared.shutdown = false := by
      rw [ht] at hrunning
      exact hrunning
    have hsame : t.asleep = s.asleep := by
      have hcount : t.base.loc (.call c) = .call .count := by simp [ht]
      rw [hl,hcount] at hasleep
      exact (Option.some.inj hasleep).symm
    exact attended_of_link hs hl ht hsame (hs.attended hrunning' hfew')
  · rw [ht] at hrunning hfew
    have hsame : t.asleep = s.asleep := by
      have hunlock : t.base.loc (.thread i) = .thread (.unlockQueue worker) := by simp [ht]
      rw [hl,hunlock] at hasleep
      exact (Option.some.inj hasleep).symm
    exact attended_of_take hstep ht hsame (hs.attended hrunning hfew)
  · have hbefore : Attended s := hs.attended hpassed.running (hpassed.added ▸ hfew)
    rcases asleepAfter_cases hasleep with ⟨-,hwoken,hone,heq⟩ | ⟨-,heq⟩ | ⟨-,hwait,-⟩ | ⟨hsignal,-,heq⟩
    · exact attended_of_signal hs hstep hpassed hawake hwoken hone heq hbefore
    · intro hsome
      rw [heq] at hsome
      exact absurd hsome Finset.not_nonempty_empty
    · exact attended_of_wait hs hstep hwait hrunning hfew
    · exact attended_of_pass hstep hpassed hsignal hawake heq hbefore

theorem Watched.sleeping_move (hs : Watched s) (h : happen pool queueReady s (.move a woken) = some t) :
    ∀ b ∈ t.asleep, (∃ i, b = .thread i) ∧ t.base.loc b = .thread .waitReady := by
  obtain ⟨hawake,hstep,hasleep⟩ := happen_move h
  have hold : ∀ b ∈ s.asleep, (∃ i, b = .thread i) ∧ t.base.loc b = .thread .waitReady := by
    intro b hb
    rw [step_loc_of_ne hstep (fun he => hawake (he ▸ hb))]
    exact hs.sleeping b hb
  rcases asleepAfter_cases hasleep with ⟨-,-,-,heq⟩ | ⟨-,heq⟩ | ⟨-,hwait,heq⟩ | ⟨-,-,heq⟩
  · rw [heq]
    exact fun b hb => hold b (Finset.mem_sdiff.mp hb).1
  · rw [heq]
    exact fun b hb => by cases hb
  · rw [heq]
    intro b hb
    rcases Finset.mem_insert.mp hb with rfl | hb
    · obtain ⟨hthread,hl,-⟩ := step_beginsWait hstep hwait
      exact ⟨hthread,hl⟩
    · exact hold b hb
  · rw [heq]
    exact hold

/-- Step lemma. -/
theorem Watched.happen {event : Event (Agent n Call)} (hs : Watched s) (h : happen pool queueReady s event = some t) :
    Watched t := by
  cases event with
  | move a woken =>
    obtain ⟨-,hstep,-⟩ := happen_move h
    exact ⟨hs.asserted.step pool_disciplined pool_outlined hstep,hs.recorded.step hstep,hs.sleeping_move h,
      hs.attended_move h⟩
  | spurious b =>
    obtain ⟨hb,rfl⟩ := happen_spurious h
    refine ⟨hs.asserted,hs.recorded,fun d hd => hs.sleeping d (Finset.mem_of_mem_erase hd),?_⟩
    intro hrunning hfew hsome
    obtain ⟨d,hd⟩ := hsome
    refine (hs.attended hrunning hfew ⟨d,Finset.mem_of_mem_erase hd⟩).trans (Finset.card_le_card ?_)
    intro e he
    obtain ⟨hagent,hawake,hserves⟩ := mem_serving.mp he
    exact mem_serving.mpr ⟨hagent,fun hsleep => hawake (Finset.mem_of_mem_erase hsleep),hserves⟩

theorem waitingInit_watched (n : ℕ) (Call : Type) [DecidableEq Call] : Watched (waitingInit n Call) :=
  ⟨poolInit_asserted n Call,poolInit_recorded n Call,fun _ hb => absurd hb (Finset.notMem_empty _),
    fun _ _ hsome => absurd hsome Finset.not_nonempty_empty⟩

variable {events : List (Event (Agent n Call))}

theorem occur_watched (h : occur pool queueReady (waitingInit n Call) events = some s) : Watched s :=
  occur_induction (fun _ _ _ hs hevent => hs.happen hevent) (waitingInit_watched n Call) h

/-- No wake-up is lost: in every run, whomever the signals wake, the tasks on the list
never outnumber the agents on the way while a thread sleeps. The bound is the counter's. -/
theorem occur_attended (h : occur pool queueReady (waitingInit n Call) events = some s)
    (hrunning : s.base.shared.shutdown = false) (hfew : s.base.shared.added.length < 2^32) : Attended s :=
  (occur_watched h).attended hrunning hfew

/-- Both threads sleep, and a call has linked its task. -/
def unsignalled : List (Event (Agent 2 ℕ)) :=
  [.move (.thread 0) ∅,.move (.thread 0) ∅,.move (.thread 1) ∅,.move (.thread 1) ∅]++
    List.replicate 4 (.move (.call 0) ∅)

theorem occur_attended_unsignalled : ∃ s, occur pool queueReady (waitingInit 2 ℕ) unsignalled = some s ∧
    s.asleep.Nonempty ∧ s.base.shared.queueHead = [0] ∧ Attended s :=
  have hrun : occur pool queueReady (waitingInit 2 ℕ) unsignalled = some _ := rfl
  ⟨_,hrun,⟨.thread 0,by decide⟩,rfl,occur_attended hrun rfl (by decide)⟩

end Attendance

end OpenFlowController.ThreadPool
