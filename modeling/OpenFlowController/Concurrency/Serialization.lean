import Mathlib.Algebra.Order.Ring.Nat
import Mathlib.Tactic.Ring
import OpenFlowController.Concurrency.Monitor

/-! # Calls that keep the mutex

Every agent makes calls, one after the other. A call takes the mutex, runs statements
on the shared state and gives the mutex up again. If each call alone amounts to one
step of a sequential object, then every interleaving of the statements amounts to a
sequence of such steps, in the order in which the calls gave the mutex up.
-/
namespace OpenFlowController.Concurrency

/-- On to the next statement, or back: `leave` is a return with the mutex held, and a
`fault` never comes back. -/
inductive Statement (L R σ : Type*)
  | fault
  | next (loc : L) (shared : σ)
  | unlock (result : R)
  | leave (result : R)

structure Routine (Op L R σ : Type*) where
  entry : Op → L
  statement : L → σ → Statement L R σ

structure Caller (Op L R : Type*) where
  done : List (Op × R)
  current : Option (Op × L)
  pending : List Op

variable {A Op L R σ : Type*}

def calling (routine : Routine Op L R σ) : Program A (Caller Op L R) σ := fun _ caller shared =>
  match caller.current with
  | none =>
    match caller.pending with
    | [] => .stuck
    | op :: pending => .acquire ⟨caller.done,some (op,routine.entry op),pending⟩
  | some (op,loc) =>
    match routine.statement loc shared with
    | .fault => .stuck
    | .next loc shared => .go ⟨caller.done,some (op,loc),caller.pending⟩ shared
    | .unlock result => .release ⟨caller.done++[(op,result)],none,caller.pending⟩
    | .leave result => .go ⟨caller.done++[(op,result)],none,caller.pending⟩ shared

def beforeCalls (calls : A → List Op) (shared : σ) : Configuration A (Caller Op L R) σ where
  lock := none
  loc a := ⟨[],none,calls a⟩
  shared := shared

/-- Run alone from `loc` on, the call gives up the mutex within `n` statements, or
faults, which is `none`. -/
inductive Routine.Ends (routine : Routine Op L R σ) : ℕ → L → σ → Option (R × σ) → Prop
  | fault {n : ℕ} {loc : L} {shared : σ} : routine.statement loc shared = .fault →
    Ends routine (n+1) loc shared none
  | unlock {n : ℕ} {loc : L} {shared : σ} {result : R} : routine.statement loc shared = .unlock result →
    Ends routine (n+1) loc shared (some (result,shared))
  | next {n : ℕ} {loc loc' : L} {shared shared' : σ} {out : Option (R × σ)} :
    routine.statement loc shared = .next loc' shared' → Ends routine n loc' shared' out →
    Ends routine (n+1) loc shared out

/-- Each call alone is one step of `atomic`. -/
def Routine.Implements (routine : Routine Op L R σ) (size : ℕ) (atomic : Op → σ → Option (R × σ)) : Prop :=
  ∀ op shared, routine.Ends size (routine.entry op) shared (atomic op shared)

/-- Calls made one after the other, each with its agent and its answer. -/
def Serial (atomic : Op → σ → Option (R × σ)) : σ → List (A × Op × R) → σ → Prop
  | shared, [], shared' => shared = shared'
  | shared, (_,op,result) :: order, shared' =>
    ∃ after, atomic op shared = some (result,after) ∧ Serial atomic after order shared'

section Ends
variable {routine : Routine Op L R σ} {n : ℕ} {loc loc' : L} {shared shared' : σ} {out : Option (R × σ)}

theorem Routine.Ends.pos (h : routine.Ends n loc shared out) : 0 < n := by
  cases h <;> exact Nat.succ_pos _

theorem Routine.Ends.after_next (h : routine.Ends n loc shared out)
    (hnext : routine.statement loc shared = .next loc' shared') :
    ∃ m, m+1 = n ∧ routine.Ends m loc' shared' out := by
  cases h with
  | fault h => cases hnext.symm.trans h
  | unlock h => cases hnext.symm.trans h
  | next h hrest =>
    cases hnext.symm.trans h
    exact ⟨_,rfl,hrest⟩

theorem Routine.Ends.of_unlock {result : R} (h : routine.Ends n loc shared out)
    (hunlock : routine.statement loc shared = .unlock result) : out = some (result,shared) := by
  cases h with
  | fault h => cases hunlock.symm.trans h
  | unlock h =>
    cases hunlock.symm.trans h
    rfl
  | next h => cases hunlock.symm.trans h

theorem Routine.Ends.of_fault (h : routine.Ends n loc shared out)
    (hfault : routine.statement loc shared = .fault) : out = none := by
  cases h with
  | fault => rfl
  | unlock h => cases hfault.symm.trans h
  | next h => cases hfault.symm.trans h

theorem Routine.Ends.not_leave {result : R} (h : routine.Ends n loc shared out) :
    routine.statement loc shared ≠ .leave result := by
  intro hleave
  cases h with
  | fault h => cases hleave.symm.trans h
  | unlock h => cases hleave.symm.trans h
  | next h => cases hleave.symm.trans h

end Ends

theorem serial_append {atomic : Op → σ → Option (R × σ)} {shared shared' : σ} {first rest : List (A × Op × R)} :
    Serial atomic shared (first++rest) shared' ↔
      ∃ between, Serial atomic shared first between ∧ Serial atomic between rest shared' := by
  induction first generalizing shared with
  | nil => simp [Serial]
  | cons call first ih =>
    simp only [List.cons_append,Serial,ih]
    constructor
    · rintro ⟨after,hcall,between,hfirst,hrest⟩
      exact ⟨between,⟨after,hcall,hfirst⟩,hrest⟩
    · rintro ⟨between,⟨after,hcall,hfirst⟩,hrest⟩
      exact ⟨after,hcall,between,hfirst,hrest⟩

variable [DecidableEq A] {routine : Routine Op L R σ} {s t : Configuration A (Caller Op L R) σ} {a : A}

/-- An agent takes the mutex, runs a statement, or comes back, with the mutex given up
or not. -/
theorem calling_step_cases (h : step (calling routine) s a = some t) :
    (∃ op pending, (s.loc a).current = none ∧ (s.loc a).pending = op :: pending ∧ s.lock = none ∧
      t = ⟨some a,Function.update s.loc a ⟨(s.loc a).done,some (op,routine.entry op),pending⟩,s.shared⟩) ∨
    (∃ op loc, (s.loc a).current = some (op,loc) ∧
      ((∃ loc' shared, routine.statement loc s.shared = .next loc' shared ∧
        t = ⟨s.lock,Function.update s.loc a ⟨(s.loc a).done,some (op,loc'),(s.loc a).pending⟩,shared⟩) ∨
      (∃ result, routine.statement loc s.shared = .unlock result ∧
        t = ⟨none,Function.update s.loc a ⟨(s.loc a).done++[(op,result)],none,(s.loc a).pending⟩,s.shared⟩) ∨
      ∃ result, routine.statement loc s.shared = .leave result)) := by
  unfold step calling at h
  cases hcurrent : (s.loc a).current with
  | none =>
    refine Or.inl ?_
    cases hpending : (s.loc a).pending with
    | nil => simp [hcurrent,hpending] at h
    | cons op pending =>
      simp only [hcurrent,hpending] at h
      split at h
      · rename_i hlock
        exact ⟨op,pending,rfl,rfl,hlock,(Option.some.inj h).symm⟩
      · cases h
  | some current =>
    obtain ⟨op,loc⟩ := current
    refine Or.inr ⟨op,loc,rfl,?_⟩
    cases hstatement : routine.statement loc s.shared with
    | fault => simp [hcurrent,hstatement] at h
    | next loc' shared =>
      simp only [hcurrent,hstatement,Option.some.injEq] at h
      exact Or.inl ⟨loc',shared,rfl,h.symm⟩
    | unlock result =>
      simp only [hcurrent,hstatement,Option.some.injEq] at h
      exact Or.inr (Or.inl ⟨result,rfl,h.symm⟩)
    | leave result => exact Or.inr (Or.inr ⟨result,rfl⟩)

/-- Without a move an agent has made its calls, waits for the mutex or has faulted. -/
theorem calling_blocked (h : step (calling routine) s a = none) :
    (s.loc a).current = none ∧ ((s.loc a).pending = [] ∨ s.lock ≠ none) ∨
      ∃ op loc, (s.loc a).current = some (op,loc) ∧ routine.statement loc s.shared = .fault := by
  unfold step calling at h
  cases hcurrent : (s.loc a).current with
  | none =>
    refine Or.inl ⟨rfl,?_⟩
    cases hpending : (s.loc a).pending with
    | nil => exact Or.inl rfl
    | cons op pending =>
      refine Or.inr fun hlock => ?_
      simp [hcurrent,hpending,hlock] at h
  | some current =>
    obtain ⟨op,loc⟩ := current
    refine Or.inr ⟨op,loc,rfl,?_⟩
    cases hstatement : routine.statement loc s.shared with
    | fault => rfl
    | next => simp [hcurrent,hstatement] at h
    | unlock => simp [hcurrent,hstatement] at h
    | leave => simp [hcurrent,hstatement] at h

section Serialized
variable (routine) (size : ℕ) (atomic : Op → σ → Option (R × σ)) (calls : A → List Op) (initial : σ)

/-- The calls that came back are `order`, from `initial` to `shared`, and what a call
under way still does is what it does to `shared` alone. `moves` are those made so far. -/
structure Serialized (moves : A → ℕ) (s : Configuration A (Caller Op L R) σ) (order : List (A × Op × R))
    (shared : σ) : Prop where
  serial : Serial atomic initial order shared
  done : ∀ a, (s.loc a).done = (order.filter (·.1 = a)).map Prod.snd
  program : ∀ a, calls a = (s.loc a).done.map Prod.fst++((s.loc a).current.map Prod.fst).toList++(s.loc a).pending
  held : ∀ a, s.lock = some a ↔ (s.loc a).current.isSome
  free : s.lock = none → s.shared = shared
  under_way : ∀ a, ∃ n, (∀ op loc, (s.loc a).current = some (op,loc) → routine.Ends n loc s.shared (atomic op shared)) ∧
    moves a+n+(size+1)*(s.loc a).pending.length ≤ (size+1)*(calls a).length

variable {routine size atomic calls initial} {moves : A → ℕ} {order : List (A × Op × R)} {shared : σ}

theorem serialized_beforeCalls :
    Serialized routine size atomic calls initial (fun _ => 0) (beforeCalls calls initial) [] initial where
  serial := rfl
  done _ := rfl
  program _ := rfl
  held := by simp [beforeCalls]
  free _ := rfl
  under_way _ := ⟨0,by simp [beforeCalls],by simp [beforeCalls]⟩

/-- Only the holder of the mutex has a call under way. -/
theorem Serialized.current_none (h : Serialized routine size atomic calls initial moves s order shared) {b : A}
    (hb : s.lock ≠ some b) : (s.loc b).current = none := by
  by_contra hsome
  exact hb ((h.held b).mpr (Option.isSome_iff_ne_none.mpr hsome))

/-- A move of `a` that leaves nobody else in a call: what has to be shown is about `a`. -/
theorem Serialized.move (h : Serialized routine size atomic calls initial moves s order shared)
    {lock : Option A} {caller : Caller Op L R} {now after : σ} {order' : List (A × Op × R)}
    (hserial : Serial atomic initial order' after) (hdone : caller.done = (order'.filter (·.1 = a)).map Prod.snd)
    (hothers : ∀ b, b ≠ a → order'.filter (·.1 = b) = order.filter (·.1 = b))
    (hprogram : calls a = caller.done.map Prod.fst++(caller.current.map Prod.fst).toList++caller.pending)
    (hheld : lock = some a ↔ caller.current.isSome)
    (hidle : ∀ b, b ≠ a → lock ≠ some b ∧ (s.loc b).current = none) (hfree : lock = none → now = after) {n : ℕ}
    (hends : ∀ op loc, caller.current = some (op,loc) → routine.Ends n loc now (atomic op after))
    (hmoves : moves a+1+n+(size+1)*caller.pending.length ≤ (size+1)*(calls a).length) :
    Serialized routine size atomic calls initial (fun b => moves b+[a].count b)
      ⟨lock,Function.update s.loc a caller,now⟩ order' after := by
  refine ⟨hserial,fun b => ?_,fun b => ?_,fun b => ?_,hfree,fun b => ?_⟩ <;> by_cases hb : b = a
  · subst hb
    simpa using hdone
  · simpa [Function.update_of_ne hb,hothers b hb] using h.done b
  · subst hb
    simpa using hprogram
  · simpa [Function.update_of_ne hb] using h.program b
  · subst hb
    simpa using hheld
  · simp [Function.update_of_ne hb,hidle b hb]
  · subst hb
    exact ⟨n,by simpa using hends,by simpa using hmoves⟩
  · obtain ⟨m,-,hrest⟩ := h.under_way b
    refine ⟨m,?_,?_⟩
    · simp [Function.update_of_ne hb,(hidle b hb).2]
    · simpa [Function.update_of_ne hb,Ne.symm hb] using hrest

theorem Serialized.acquire (h : Serialized routine size atomic calls initial moves s order shared)
    (himplements : routine.Implements size atomic) {op : Op} {pending : List Op}
    (hcurrent : (s.loc a).current = none) (hpending : (s.loc a).pending = op :: pending) (hlock : s.lock = none) :
    Serialized routine size atomic calls initial (fun b => moves b+[a].count b)
      ⟨some a,Function.update s.loc a ⟨(s.loc a).done,some (op,routine.entry op),pending⟩,s.shared⟩ order shared := by
  obtain ⟨n,-,hmoves⟩ := h.under_way a
  rw [hpending,List.length_cons,Nat.mul_succ] at hmoves
  refine h.move h.serial (h.done a) (fun _ _ => rfl) ?_ (by simp) ?_ (by simp) (n := size) ?_ (by dsimp only; omega)
  · simpa [hcurrent,hpending] using h.program a
  · exact fun b hb => ⟨fun hlock' => hb (Option.some.inj hlock').symm,h.current_none (by simp [hlock])⟩
  · intro op' loc' hin
    obtain ⟨rfl,rfl⟩ := Prod.mk.inj (Option.some.inj hin)
    rw [h.free hlock]
    exact himplements op shared

theorem Serialized.lock_of_current (h : Serialized routine size atomic calls initial moves s order shared) {op : Op}
    {loc : L} (hcurrent : (s.loc a).current = some (op,loc)) : s.lock = some a :=
  (h.held a).mpr (by rw [hcurrent]; rfl)

theorem Serialized.next (h : Serialized routine size atomic calls initial moves s order shared) {op : Op} {loc loc' : L}
    {shared' : σ} (hcurrent : (s.loc a).current = some (op,loc))
    (hnext : routine.statement loc s.shared = .next loc' shared') :
    Serialized routine size atomic calls initial (fun b => moves b+[a].count b)
      ⟨s.lock,Function.update s.loc a ⟨(s.loc a).done,some (op,loc'),(s.loc a).pending⟩,shared'⟩ order shared := by
  have hlock := h.lock_of_current hcurrent
  have hother : ∀ b, b ≠ a → s.lock ≠ some b := fun b hb hlock' => hb (Option.some.inj (hlock.symm.trans hlock')).symm
  obtain ⟨n,hends,hmoves⟩ := h.under_way a
  obtain ⟨m,rfl,hrest⟩ := (hends op loc hcurrent).after_next hnext
  refine h.move h.serial (h.done a) (fun _ _ => rfl) ?_ (by simp [hlock]) ?_ (by simp [hlock]) (n := m) ?_
    (by dsimp only; omega)
  · simpa [hcurrent] using h.program a
  · exact fun b hb => ⟨hother b hb,h.current_none (hother b hb)⟩
  · intro op' loc' hin
    obtain ⟨rfl,rfl⟩ := Prod.mk.inj (Option.some.inj hin)
    exact hrest

/-- The call that gives up the mutex is the next one of the order. -/
theorem Serialized.unlock (h : Serialized routine size atomic calls initial moves s order shared) {op : Op} {loc : L}
    {result : R} (hcurrent : (s.loc a).current = some (op,loc))
    (hunlock : routine.statement loc s.shared = .unlock result) :
    Serialized routine size atomic calls initial (fun b => moves b+[a].count b)
      ⟨none,Function.update s.loc a ⟨(s.loc a).done++[(op,result)],none,(s.loc a).pending⟩,s.shared⟩
      (order++[(a,op,result)]) s.shared := by
  have hlock := h.lock_of_current hcurrent
  obtain ⟨n,hends,hmoves⟩ := h.under_way a
  have hatomic := (hends op loc hcurrent).of_unlock hunlock
  have hpos := (hends op loc hcurrent).pos
  refine h.move (serial_append.mpr ⟨shared,h.serial,s.shared,hatomic,rfl⟩) (by simp [h.done a]) ?_ ?_ (by simp) ?_
    (fun _ => rfl) (n := 0) (by simp) (by dsimp only; omega)
  · intro b hb
    simp [Ne.symm hb]
  · simpa [hcurrent] using h.program a
  · intro b hb
    refine ⟨by simp,h.current_none fun hlock' => ?_⟩
    exact hb (Option.some.inj (hlock.symm.trans hlock')).symm

/-- Step lemma: the order grows by the call that came back, if one did. -/
theorem Serialized.step (h : Serialized routine size atomic calls initial moves s order shared)
    (himplements : routine.Implements size atomic) (hstep : step (calling routine) s a = some t) :
    ∃ more shared',
      Serialized routine size atomic calls initial (fun b => moves b+[a].count b) t (order++more) shared' := by
  rcases calling_step_cases hstep with ⟨op,pending,hcurrent,hpending,hlock,rfl⟩ | ⟨op,loc,hcurrent,hmove⟩
  · exact ⟨[],shared,by simpa using h.acquire himplements hcurrent hpending hlock⟩
  · rcases hmove with ⟨loc',shared',hnext,rfl⟩ | ⟨result,hunlock,rfl⟩ | ⟨result,hleave⟩
    · exact ⟨[],shared,by simpa using h.next hcurrent hnext⟩
    · exact ⟨[(a,op,result)],s.shared,h.unlock hcurrent hunlock⟩
    · obtain ⟨n,hends,-⟩ := h.under_way a
      exact absurd hleave (hends op loc hcurrent).not_leave

/-- Run lemma: what came back before stays where it is in the order. -/
theorem Serialized.interleave (h : Serialized routine size atomic calls initial moves s order shared)
    (himplements : routine.Implements size atomic) {schedule : List A}
    (hrun : interleave (calling routine) s schedule = some t) :
    ∃ more shared',
      Serialized routine size atomic calls initial (fun b => moves b+schedule.count b) t (order++more) shared' := by
  induction schedule generalizing s moves order shared with
  | nil =>
    cases hrun
    exact ⟨[],shared,by simpa using h⟩
  | cons a schedule ih =>
    obtain ⟨u,hu,ht⟩ := Option.bind_eq_some_iff.mp hrun
    obtain ⟨first,between,hfirst⟩ := h.step himplements hu
    obtain ⟨more,shared',hmore⟩ := ih hfirst ht
    refine ⟨first++more,shared',?_⟩
    rw [← List.append_assoc]
    convert hmore using 2 with b
    rw [Nat.add_assoc,← List.count_append,List.singleton_append]

/-- No agent makes more than `size+1` moves for each of its calls. -/
theorem Serialized.moves_le (h : Serialized routine size atomic calls initial moves s order shared) (a : A) :
    moves a ≤ (size+1)*(calls a).length := by
  obtain ⟨n,-,hmoves⟩ := h.under_way a
  omega

/-- Where no agent has a move, all calls came back, or the holder of the mutex is in a
call that faults on the state of the order. -/
theorem Serialized.blocked (h : Serialized routine size atomic calls initial moves s order shared)
    (hblocked : ∀ a, Concurrency.step (calling routine) s a = none) :
    (∀ a, (s.loc a).done.map Prod.fst = calls a) ∨
      ∃ a op loc, s.lock = some a ∧ (s.loc a).current = some (op,loc) ∧
        routine.statement loc s.shared = .fault ∧ atomic op shared = none := by
  by_cases hall : ∀ a, (s.loc a).current = none
  · refine Or.inl fun a => ?_
    have hfree : s.lock = none := by
      by_contra hlock
      obtain ⟨b,hb⟩ := Option.ne_none_iff_exists'.mp hlock
      simpa [hall b] using (h.held b).mp hb
    rcases calling_blocked (hblocked a) with ⟨-,hpending | hlock⟩ | ⟨op,loc,hcurrent,-⟩
    · simpa [hall a,hpending] using (h.program a).symm
    · exact absurd hfree hlock
    · cases (hall a).symm.trans hcurrent
  · obtain ⟨a,ha⟩ := not_forall.mp hall
    rcases calling_blocked (hblocked a) with ⟨hnone,-⟩ | ⟨op,loc,hcurrent,hfault⟩
    · exact absurd hnone ha
    · obtain ⟨n,hends,-⟩ := h.under_way a
      exact Or.inr ⟨a,op,loc,h.lock_of_current hcurrent,hcurrent,hfault,(hends op loc hcurrent).of_fault hfault⟩

end Serialized
end OpenFlowController.Concurrency
