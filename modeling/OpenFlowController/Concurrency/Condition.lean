import Mathlib.Data.Finset.Card
import OpenFlowController.Concurrency.Monitor

/-! # Agents around a mutex and a condition variable

Waiting gives the mutex up and puts the agent to sleep. A signal wakes at least one
sleeper if there is one, a broadcast all of them, and a sleeper may wake unasked.
Whom a signal wakes is left open, so the event names them. Without the sleepers such
a run is an interleaving around the mutex alone.
-/
namespace OpenFlowController.Concurrency

/-- What a location means to the condition variable: the agent has begun to wait
there, or its next move signals or broadcasts. -/
structure Condition (L : Type*) where
  waits : L → Bool
  signals : L → Bool
  broadcasts : L → Bool

structure Waiting (A L σ : Type*) where
  base : Configuration A L σ
  asleep : Finset A

inductive Event (A : Type*)
  | move (agent : A) (woken : Finset A)
  | spurious (agent : A)

variable {A L σ : Type*} [DecidableEq A] (program : Program A L σ) (condition : Condition L)

/-- Who sleeps when `agent` has moved from `l` to `l'`; there is no such move if it
wakes nobody by a signal that has to wake somebody. -/
def asleepAfter (agent : A) (l l' : L) (woken asleep : Finset A) : Option (Finset A) :=
  if condition.signals l then
    if woken ⊆ asleep ∧ (woken = ∅ → asleep = ∅) then some (asleep \ woken) else none
  else if condition.broadcasts l then some ∅
  else if condition.waits l' then some (insert agent asleep)
  else some asleep

def happen (s : Waiting A L σ) : Event A → Option (Waiting A L σ)
  | .spurious agent => if agent ∈ s.asleep then some { s with asleep := s.asleep.erase agent } else none
  | .move agent woken =>
    if agent ∈ s.asleep then none
    else (step program s.base agent).bind (fun base =>
      (asleepAfter condition agent (s.base.loc agent) (base.loc agent) woken s.asleep).map (Waiting.mk base))

def occur (s : Waiting A L σ) : List (Event A) → Option (Waiting A L σ)
  | [] => some s
  | event :: events => do occur (← happen program condition s event) events

/-- The moves of a run, without the sleepers. -/
def movers : List (Event A) → List A
  | [] => []
  | .move agent _ :: events => agent :: movers events
  | .spurious _ :: events => movers events

variable {program condition}

theorem occur_append {s t u : Waiting A L σ} {first rest : List (Event A)}
    (hfirst : occur program condition s first = some t) (hrest : occur program condition t rest = some u) :
    occur program condition s (first++rest) = some u := by
  induction first generalizing s with
  | nil =>
    obtain rfl := Option.some.inj hfirst
    exact hrest
  | cons event first ih =>
    obtain ⟨v,hv,hfirst⟩ := Option.bind_eq_some_iff.mp hfirst
    rw [List.cons_append,occur,hv]
    exact ih hfirst

theorem happen_move {s t : Waiting A L σ} {agent : A} {woken : Finset A}
    (h : happen program condition s (.move agent woken) = some t) :
    agent ∉ s.asleep ∧ step program s.base agent = some t.base ∧
      asleepAfter condition agent (s.base.loc agent) (t.base.loc agent) woken s.asleep = some t.asleep := by
  obtain ⟨hawake,h⟩ := Option.ite_none_left_eq_some.mp h
  obtain ⟨base,hbase,h⟩ := Option.bind_eq_some_iff.mp h
  obtain ⟨asleep,hasleep,rfl⟩ := Option.map_eq_some_iff.mp h
  exact ⟨hawake,hbase,hasleep⟩

theorem happen_spurious {s t : Waiting A L σ} {agent : A} (h : happen program condition s (.spurious agent) = some t) :
    agent ∈ s.asleep ∧ t = ⟨s.base,s.asleep.erase agent⟩ := by
  obtain ⟨hasleep,h⟩ := Option.ite_none_right_eq_some.mp h
  exact ⟨hasleep,(Option.some.inj h).symm⟩

/-- Whom a move can leave asleep. -/
theorem asleepAfter_cases {agent : A} {l l' : L} {woken asleep asleep' : Finset A}
    (h : asleepAfter condition agent l l' woken asleep = some asleep') :
    (condition.signals l = true ∧ woken ⊆ asleep ∧ (woken = ∅ → asleep = ∅) ∧ asleep' = asleep \ woken) ∨
    (condition.broadcasts l = true ∧ asleep' = ∅) ∨
    (condition.signals l = false ∧ condition.waits l' = true ∧ asleep' = insert agent asleep) ∨
    (condition.signals l = false ∧ condition.waits l' = false ∧ asleep' = asleep) := by
  unfold asleepAfter at h
  split at h
  · rename_i hs
    obtain ⟨⟨hsub,hsome⟩,h⟩ := Option.ite_none_right_eq_some.mp h
    exact Or.inl ⟨hs,hsub,hsome,(Option.some.inj h).symm⟩
  · rename_i hs
    have hs : condition.signals l = false := by simpa using hs
    split at h
    · rename_i hb
      exact Or.inr (Or.inl ⟨hb,(Option.some.inj h).symm⟩)
    · split at h
      · rename_i hw
        exact Or.inr (Or.inr (Or.inl ⟨hs,hw,(Option.some.inj h).symm⟩))
      · rename_i hw
        exact Or.inr (Or.inr (Or.inr ⟨hs,by simpa using hw,(Option.some.inj h).symm⟩))

/-- A signal is never in the way of its agent: it may wake everybody. -/
theorem asleepAfter_all (condition : Condition L) (agent : A) (l l' : L) (asleep : Finset A) :
    ∃ asleep', asleepAfter condition agent l l' asleep asleep = some asleep' := by
  unfold asleepAfter
  split
  · exact ⟨_,if_pos ⟨Finset.Subset.refl _,id⟩⟩
  · split
    · exact ⟨_,rfl⟩
    · split <;> exact ⟨_,rfl⟩

/-- A move can be made: only acquiring has to wait. -/
def Move.possible (free : Bool) : Move L σ → Bool
  | stuck => false
  | acquire _ => free
  | release _ | go _ _ => true

omit [DecidableEq A] in
theorem Move.possible_map {M : Type*} (f : L → M) (free : Bool) (m : Move L σ) :
    (m.map f).possible free = m.possible free := by
  cases m <;> rfl

theorem exists_step_iff {s : Configuration A L σ} {agent : A} :
    (∃ t, step program s agent = some t) ↔ (program agent (s.loc agent) s.shared).possible s.lock.isNone = true := by
  unfold step
  cases program agent (s.loc agent) s.shared with
  | acquire l => cases s.lock <;> simp [Move.possible]
  | _ => simp [Move.possible]

theorem exists_happen_of_step {s : Waiting A L σ} {agent : A} {base : Configuration A L σ} (hawake : agent ∉ s.asleep)
    (h : step program s.base agent = some base) :
    ∃ woken t, happen program condition s (.move agent woken) = some t := by
  obtain ⟨asleep,hasleep⟩ := asleepAfter_all condition agent (s.base.loc agent) (base.loc agent) s.asleep
  refine ⟨s.asleep,⟨base,asleep⟩,?_⟩
  simp [happen,hawake,h,hasleep]

/-- What holds at the start and survives every event holds along every run. -/
theorem occur_induction {P : Waiting A L σ → Prop}
    (hevent : ∀ s t event, P s → happen program condition s event = some t → P t) {s t : Waiting A L σ}
    {events : List (Event A)} (hs : P s) (h : occur program condition s events = some t) : P t := by
  induction events generalizing s with
  | nil =>
    cases h
    exact hs
  | cons event events ih =>
    obtain ⟨u,hu,ht⟩ := Option.bind_eq_some_iff.mp h
    exact ih (hevent s u event hs hu) ht

/-- Simulation: whatever sleeps and wakes, the moves are an interleaving around the mutex. -/
theorem occur_interleave {s t : Waiting A L σ} {events : List (Event A)}
    (h : occur program condition s events = some t) : interleave program s.base (movers events) = some t.base := by
  induction events generalizing s with
  | nil =>
    cases h
    rfl
  | cons event events ih =>
    obtain ⟨u,hu,ht⟩ := Option.bind_eq_some_iff.mp h
    cases event with
    | move agent woken =>
      obtain ⟨-,hstep,-⟩ := happen_move hu
      rw [movers,interleave,hstep]
      exact ih ht
    | spurious agent =>
      obtain ⟨-,rfl⟩ := happen_spurious hu
      have hrun := ih ht
      exact hrun

end OpenFlowController.Concurrency
