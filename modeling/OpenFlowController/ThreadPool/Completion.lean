import OpenFlowController.ThreadPool.Wakeups

/-! # A pool at rest

When no thread and no call in progress has a next move, the mutex is free, every
thread sleeps and nobody is on the way to a task. No wake-up being lost, there is no
task left.
-/
namespace OpenFlowController.ThreadPool
open Concurrency
variable {n : ℕ} {Call : Type}

/-- Where an agent can be, and what `shutdown` is then: a thread leaves only under it,
and it is the destroyer who sets it. -/
def Orderly (shared : CThreadPool n Call) : Agent n Call → Loc Call → Prop
  | .thread _, .thread l => l = .unlockAndExit ∨ l = .exited → shared.shutdown = true
  | .call _, .call _ => True
  | .destroy, .destroy l => l = .testShutdown → shared.shutdown = false
  | _, _ => False

def KeepsOrder (a : Agent n Call) (shared : CThreadPool n Call) : Move (Loc Call) (CThreadPool n Call) → Prop
  | .stuck => True
  | .acquire l' | .release l' => Orderly shared a l'
  | .go l' shared' => Orderly shared' a l' ∧
    (shared'.shutdown = shared.shutdown ∨ a = .destroy ∧ shared'.shutdown = true)

theorem threadRoutine_keepsOrder (i : Fin n) (shared : CThreadPool n Call) {l : ThreadLoc Call}
    (h : Orderly shared (.thread i) (.thread l)) :
    KeepsOrder (.thread i) shared ((threadRoutine i shared l).map .thread) := by
  cases l with
  | testQueue =>
    simp only [threadRoutine]
    split
    · exact fun hl => by simp at hl
    · exact ⟨fun hl => by simp at hl,Or.inl rfl⟩
  | testShutdown =>
    simp only [threadRoutine]
    split
    · rename_i hd
      exact ⟨fun _ => hd,Or.inl rfl⟩
    · exact ⟨fun hl => by simp at hl,Or.inl rfl⟩
  | unlockAndExit => exact fun _ => h (Or.inl rfl)
  | advanceHead worker =>
    cases worker with
    | none => trivial
    | some worker => exact ⟨fun hl => by simp at hl,Or.inl rfl⟩
  | exited => trivial
  | lockQueue | relock | unlockQueue _ => exact fun hl => by simp at hl
  | waitReady | decrementSize | readHead | process _ => exact ⟨fun hl => by simp at hl,Or.inl rfl⟩

theorem poolDestroy_keepsOrder (shared : CThreadPool n Call) {l : DestroyLoc} :
    KeepsOrder .destroy shared ((poolDestroy shared l).map .destroy) := by
  cases l with
  | testShutdown =>
    simp only [poolDestroy]
    split <;> exact ⟨fun hl => by simp at hl,Or.inl rfl⟩
  | join _ =>
    simp only [poolDestroy]
    split <;> exact ⟨fun hl => by simp at hl,Or.inl rfl⟩
  | freeQueue =>
    simp only [poolDestroy]
    split <;> exact ⟨fun hl => by simp at hl,Or.inl rfl⟩
  | setShutdown => exact ⟨fun hl => by simp at hl,Or.inr ⟨rfl,rfl⟩⟩
  | lockQueue | unlockQueue => exact fun hl => by simp at hl
  | returned => trivial
  | _ => exact ⟨fun hl => by simp at hl,Or.inl rfl⟩

theorem pool_keepsOrder {a : Agent n Call} {l : Loc Call} {shared : CThreadPool n Call} (h : Orderly shared a l) :
    KeepsOrder a shared (pool a l shared) := by
  cases a with
  | thread i =>
    cases l with
    | thread l => exact threadRoutine_keepsOrder i shared h
    | _ => trivial
  | call c =>
    cases l with
    | call l => cases l <;> simp [pool,poolAddWorker,Move.map,KeepsOrder,Orderly]
    | _ => trivial
  | destroy =>
    cases l with
    | destroy l => exact poolDestroy_keepsOrder shared
    | _ => trivial

/-- What another agent's move can do to the flag. -/
theorem Orderly.other {shared shared' : CThreadPool n Call} {b : Agent n Call} {l : Loc Call} (h : Orderly shared b l)
    (hset : shared'.shutdown = shared.shutdown ∨ b ≠ .destroy ∧ shared'.shutdown = true) : Orderly shared' b l := by
  cases b with
  | thread i =>
    cases l with
    | thread l =>
      intro hl
      rcases hset with hset | ⟨-,hset⟩
      · exact hset.trans (h hl)
      · exact hset
    | _ => exact h
  | call c => cases l <;> exact h
  | destroy =>
    cases l with
    | destroy l =>
      intro hl
      rcases hset with hset | ⟨hne,-⟩
      · exact hset.trans (h hl)
      · exact absurd rfl hne
    | _ => exact h

section Rest
variable [DecidableEq Call] {s t : PoolState n Call} {a : Agent n Call}

theorem orderly_step (hs : ∀ b, Orderly s.shared b (s.loc b)) (h : step pool s a = some t) (b : Agent n Call) :
    Orderly t.shared b (t.loc b) := by
  have hmove := pool_keepsOrder (hs a)
  by_cases hb : b = a
  · subst hb
    rcases step_cases h with ⟨l,hm,-,rfl⟩ | ⟨l,hm,rfl⟩ | ⟨l,shared,hm,rfl⟩
    · rw [hm] at hmove
      simpa using show Orderly s.shared b l from hmove
    · rw [hm] at hmove
      simpa using show Orderly s.shared b l from hmove
    · rw [hm] at hmove
      simpa using hmove.1
  · rw [step_loc_of_ne h hb]
    refine (hs b).other ?_
    rcases step_cases h with ⟨l,hm,-,rfl⟩ | ⟨l,hm,rfl⟩ | ⟨l,shared,hm,rfl⟩
    · exact Or.inl rfl
    · exact Or.inl rfl
    · rw [hm] at hmove
      rcases hmove.2 with hset | ⟨ha,hset⟩
      · exact Or.inl hset
      · exact Or.inr ⟨fun he => hb (he.trans ha.symm),hset⟩

theorem poolInit_orderly (n : ℕ) (Call : Type) (b : Agent n Call) :
    Orderly (poolInit n Call).shared b ((poolInit n Call).loc b) := by
  cases b with
  | thread i => exact fun hl => by simp at hl
  | call c => trivial
  | destroy => exact fun _ => rfl

end Rest

/-- Inside the mutex there is always a next move. -/
theorem pool_possible {a : Agent n Call} {l : Loc Call} {shared : CThreadPool n Call} (horder : Orderly shared a l)
    (hinside : l.inside = true) (hfound : l ≠ .thread (.advanceHead none)) (free : Bool) :
    (pool a l shared).possible free = true := by
  cases a with
  | thread i =>
    cases l with
    | thread l =>
      refine (Move.possible_map _ _ _).trans ?_
      cases l with
      | testQueue =>
        simp only [threadRoutine]
        split <;> rfl
      | testShutdown =>
        simp only [threadRoutine]
        split <;> rfl
      | advanceHead worker =>
        cases worker with
        | none => exact absurd rfl hfound
        | some worker => rfl
      | unlockAndExit | decrementSize | readHead | unlockQueue _ => rfl
      | _ => cases hinside
    | _ => cases horder
  | call c =>
    cases l with
    | call l =>
      cases l with
      | link | count | unlockQueue => rfl
      | _ => cases hinside
    | _ => cases horder
  | destroy =>
    cases l with
    | destroy l =>
      refine (Move.possible_map _ _ _).trans ?_
      cases l with
      | join _ =>
        simp only [poolDestroy]
        split <;> rfl
      | freeQueue =>
        simp only [poolDestroy]
        split <;> rfl
      | setShutdown | broadcast | freeThreadid | unlockQueue => rfl
      | _ => cases hinside
    | _ => cases horder

/-- With the mutex free a thread that has not left has a next move. -/
theorem thread_possible {i : Fin n} {l : ThreadLoc Call} {shared : CThreadPool n Call} (hinside : l.inside = false)
    (hexited : l ≠ .exited) : (pool (.thread i) (.thread l) shared).possible true = true := by
  cases l with
  | lockQueue | waitReady | relock | process _ => rfl
  | exited => exact absurd rfl hexited
  | _ => cases hinside

section Completion
variable [DecidableEq Call] {s : WaitingPool n Call} {events : List (Event (Agent n Call))}

/-- Nobody moves who has begun, the destroyer apart. -/
def AtRest (s : WaitingPool n Call) : Prop :=
  ∀ a woken, a ≠ .destroy → s.base.loc a ≠ .call .lockQueue → happen pool queueReady s (.move a woken) = none

/-- Every task is taken, every thread sleeps and every call that has linked a task is back. -/
structure Completed (s : WaitingPool n Call) : Prop where
  queueHead : s.base.shared.queueHead = []
  taken : s.base.shared.taken.map Prod.snd = s.base.shared.added
  threads : ∀ i, Agent.thread i ∈ s.asleep
  calls : ∀ c ∈ s.base.shared.added, s.base.loc (.call c) = .call .returned

theorem AtRest.not_possible (hrest : AtRest s) {a : Agent n Call} (hdestroy : a ≠ .destroy)
    (hbegun : s.base.loc a ≠ .call .lockQueue) (hawake : a ∉ s.asleep) :
    (pool a (s.base.loc a) s.base.shared).possible s.base.lock.isNone ≠ true := by
  intro hpossible
  obtain ⟨base,hstep⟩ := exists_step_iff.mpr hpossible
  have hmove : ∃ woken t, happen pool queueReady s (.move a woken) = some t := exists_happen_of_step hawake hstep
  obtain ⟨woken,t,ht⟩ := hmove
  rw [hrest a woken hdestroy hbegun] at ht
  cases ht

/-- Whoever held the mutex would have a next move. -/
theorem AtRest.unlocked (hrest : AtRest s) (hs : Watched s) (horder : ∀ b, Orderly s.base.shared b (s.base.loc b))
    (hdestroy : s.base.loc .destroy = .destroy .testShutdown) (hrunning : s.base.shared.shutdown = false) :
    s.base.lock = none := by
  cases hlock : s.base.lock with
  | none => rfl
  | some b =>
    have hinside : (s.base.loc b).inside = true := (hs.asserted.excluded b).mp hlock
    have hne : b ≠ .destroy := by
      rintro rfl
      rw [hdestroy] at hinside
      cases hinside
    have hbegun : s.base.loc b ≠ .call .lockQueue := fun hl => by
      rw [hl] at hinside
      cases hinside
    have hawake : b ∉ s.asleep := fun hsleep => by
      rw [(hs.sleeping b hsleep).2] at hinside
      cases hinside
    have hfound : s.base.loc b ≠ .thread (.advanceHead none) := by
      intro hl
      have hheld := (hs.asserted.held b hlock hrunning).2
      rw [hl] at hheld
      exact hheld.1 (List.head?_eq_none_iff.mp hheld.2)
    exact absurd (pool_possible (horder b) hinside hfound _) (hrest.not_possible hne hbegun hawake)

/-- A pool comes to rest only with its work done: as long as it is not destroyed, some
thread or some call in progress has a next move until every task is taken. -/
theorem occur_atRest (h : occur pool queueReady (waitingInit n Call) events = some s) (hn : 0 < n)
    (hdestroy : s.base.loc .destroy = .destroy .testShutdown) (hfew : s.base.shared.added.length < 2^32)
    (hrest : AtRest s) : Completed s := by
  have hs := occur_watched h
  have horder : ∀ b, Orderly s.base.shared b (s.base.loc b) :=
    interleave_induction (fun _ _ _ hs hstep => orderly_step hs hstep) (poolInit_orderly n Call) (occur_interleave h)
  have hrunning : s.base.shared.shutdown = false := by
    have ho := horder .destroy
    rw [hdestroy] at ho
    exact ho rfl
  have hlock := hrest.unlocked hs horder hdestroy hrunning
  have houtside : ∀ a, (s.base.loc a).inside = false := by
    intro a
    by_contra hn
    have ha := (hs.asserted.excluded a).mpr (by simpa using hn)
    rw [hlock] at ha
    cases ha
  have hthreads : ∀ i, Agent.thread i ∈ s.asleep := by
    intro i
    by_contra hawake
    have ho := horder (.thread i)
    have hout := houtside (.thread i)
    cases hl : s.base.loc (.thread i) with
    | thread l =>
      have hnot := hrest.not_possible (by simp) (by simp [hl]) hawake
      rw [hl] at ho hout hnot
      rw [hlock] at hnot
      refine hnot (thread_possible hout ?_)
      rintro rfl
      have hd : s.base.shared.shutdown = true := ho (Or.inr rfl)
      simp [hrunning] at hd
    | _ =>
      rw [hl] at ho
      cases ho
  have hcalls : ∀ c ∈ s.base.shared.added, s.base.loc (.call c) = .call .returned := by
    intro c hc
    have hlinked := (hs.recorded.linked c).mp hc
    have ho := horder (.call c)
    have hout := houtside (.call c)
    have hawake : Agent.call c ∉ s.asleep := fun hsleep => by
      obtain ⟨⟨i,hi⟩,-⟩ := hs.sleeping _ hsleep
      cases hi
    cases hl : s.base.loc (.call c) with
    | call l =>
      rw [hl] at hout hlinked
      cases l with
      | returned => rfl
      | signal =>
        have hnot := hrest.not_possible (by simp) (by simp [hl]) hawake
        rw [hl] at hnot
        exact absurd rfl hnot
      | lockQueue => cases hlinked
      | _ => cases hout
    | _ =>
      rw [hl] at ho
      cases ho
  have hnone : serving s = ∅ := by
    refine Finset.eq_empty_of_forall_notMem (fun b hb => ?_)
    obtain ⟨hagent,hawake,hserves⟩ := mem_serving.mp hb
    rcases mem_agents.mp hagent with ⟨i,rfl⟩ | ⟨c,hc,rfl⟩
    · exact hawake (hthreads i)
    · rw [hcalls c hc] at hserves
      cases hserves
  have hle := hs.attended hrunning hfew ⟨_,hthreads ⟨0,hn⟩⟩
  rw [hnone,Finset.card_empty,Nat.le_zero] at hle
  have hempty := List.length_eq_zero_iff.mp hle
  have hhistory := (hs.asserted.free hlock hrunning).history
  rw [hempty,List.append_nil] at hhistory
  exact ⟨hempty,hhistory.symm,hthreads,hcalls⟩

end Completion

/-- One call and one thread, and nobody destroys the pool. -/
def lonePool (call : CallLoc) (thread : ThreadLoc Unit) (shared : CThreadPool 1 Unit)
    (asleep : Finset (Agent 1 Unit)) : WaitingPool 1 Unit where
  base :=
    { lock := none
      loc
        | .thread _ => .thread thread
        | .call _ => .call call
        | .destroy => .destroy .testShutdown
      shared }
  asleep

theorem lonePool_ext {call : CallLoc} {thread : ThreadLoc Unit} {shared : CThreadPool 1 Unit}
    {asleep : Finset (Agent 1 Unit)} {loc : Agent 1 Unit → Loc Unit} (hthread : loc (.thread 0) = .thread thread)
    (hcall : loc (.call ()) = .call call) (hdestroy : loc .destroy = .destroy .testShutdown) :
    (⟨⟨none,loc,shared⟩,asleep⟩ : WaitingPool 1 Unit) = lonePool call thread shared asleep := by
  have hloc : loc = (lonePool call thread shared asleep).base.loc := by
    funext a
    cases a with
    | thread i =>
      obtain rfl := Subsingleton.elim i 0
      exact hthread
    | call c => exact hcall
    | destroy => exact hdestroy
  rw [hloc]
  rfl

/-- The call links its task and signals; nobody is there to be woken. -/
theorem lonePool_added : occur pool queueReady (waitingInit 1 Unit) (List.replicate 5 (.move (.call ()) ∅)) =
    some (lonePool .returned .lockQueue ⟨true,[()],false,1,[()],[]⟩ ∅) := by
  rw [← @lonePool_ext _ _ _ _ (Function.update (poolInit 1 Unit).loc (.call ()) (.call .returned)) rfl rfl rfl]
  simp [occur,List.replicate,happen,asleepAfter,step,waitingInit,poolInit,pool,poolAddWorker,Move.map,queueReady]

theorem lonePool_taken : occur pool queueReady (lonePool .returned .lockQueue ⟨true,[()],false,1,[()],[]⟩ ∅)
    (List.replicate 7 (.move (.thread 0) ∅)) =
      some (lonePool .returned (.process ()) ⟨true,[],false,0,[()],[(0,())]⟩ ∅) := by
  rw [← @lonePool_ext .returned (.process ()) _ _
    (Function.update (lonePool .returned .lockQueue ⟨true,[()],false,1,[()],[]⟩ ∅).base.loc (.thread 0)
      (.thread (.process ()))) rfl rfl rfl]
  simp [occur,List.replicate,happen,asleepAfter,step,lonePool,pool,threadRoutine,Move.map,queueReady]

theorem lonePool_asleep : occur pool queueReady (lonePool .returned (.process ()) ⟨true,[],false,0,[()],[(0,())]⟩ ∅)
    (List.replicate 3 (.move (.thread 0) ∅)) =
      some (lonePool .returned .waitReady ⟨true,[],false,0,[()],[(0,())]⟩ {.thread 0}) := by
  rw [← @lonePool_ext .returned .waitReady _ _
    (Function.update (lonePool .returned (.process ()) ⟨true,[],false,0,[()],[(0,())]⟩ ∅).base.loc (.thread 0)
      (.thread .waitReady)) rfl rfl rfl]
  simp [occur,List.replicate,happen,asleepAfter,step,lonePool,pool,threadRoutine,Move.map,queueReady]

theorem lonePool_atRest : AtRest (lonePool .returned .waitReady ⟨true,[],false,0,[()],[(0,())]⟩ {.thread 0}) := by
  intro a woken hdestroy hbegun
  cases a with
  | thread i =>
    obtain rfl := Subsingleton.elim i 0
    rfl
  | call c => rfl
  | destroy => exact absurd rfl hdestroy

theorem occur_atRest_lonePool : ∃ events s, occur pool queueReady (waitingInit 1 Unit) events = some s ∧
    AtRest s ∧ s.base.shared.added = [()] ∧ Completed s :=
  have hrun := occur_append (occur_append lonePool_added lonePool_taken) lonePool_asleep
  ⟨_,_,hrun,lonePool_atRest,rfl,occur_atRest hrun Nat.one_pos rfl (by decide) lonePool_atRest⟩

end OpenFlowController.ThreadPool
