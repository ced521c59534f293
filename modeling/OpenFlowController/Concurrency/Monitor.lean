import Mathlib.Logic.Function.Basic

/-! # Agents around one mutex

Any number of agents run sequential programs, each at a location of its own, over
one shared state. Acquiring waits for the mutex; nothing else is checked, so that
an access outside the mutex is possible and its absence is something to prove. An
interleaving is the list of the agents in the order in which they move.
-/
namespace OpenFlowController.Concurrency

inductive Move (L σ : Type*)
  | stuck
  | acquire (loc : L)
  | release (loc : L)
  | go (loc : L) (shared : σ)

def Move.map {L M σ : Type*} (f : L → M) : Move L σ → Move M σ
  | stuck => stuck
  | acquire loc => acquire (f loc)
  | release loc => release (f loc)
  | go loc shared => go (f loc) shared

section Map
variable {L M σ : Type*} {f : L → M} {m : Move L σ} {l : M}

theorem Move.map_eq_acquire : m.map f = .acquire l ↔ ∃ l₀, m = .acquire l₀ ∧ f l₀ = l := by
  cases m <;> simp [map]

theorem Move.map_eq_release : m.map f = .release l ↔ ∃ l₀, m = .release l₀ ∧ f l₀ = l := by
  cases m <;> simp [map]

theorem Move.map_eq_go {shared : σ} : m.map f = .go l shared ↔ ∃ l₀, m = .go l₀ shared ∧ f l₀ = l := by
  cases m <;> simp [map]
  grind

end Map

structure Configuration (A L σ : Type*) where
  lock : Option A
  loc : A → L
  shared : σ

abbrev Program (A L σ : Type*) := A → L → σ → Move L σ

variable {A L σ : Type*} [DecidableEq A] (program : Program A L σ)

def step (s : Configuration A L σ) (a : A) : Option (Configuration A L σ) :=
  match program a (s.loc a) s.shared with
  | .stuck => none
  | .acquire loc =>
    match s.lock with
    | none => some ⟨some a,Function.update s.loc a loc,s.shared⟩
    | some _ => none
  | .release loc => some ⟨none,Function.update s.loc a loc,s.shared⟩
  | .go loc shared => some ⟨s.lock,Function.update s.loc a loc,shared⟩

def interleave : Configuration A L σ → List A → Option (Configuration A L σ)
  | s, [] => some s
  | s, a :: schedule => do interleave (← step program s a) schedule

theorem interleave_append (s : Configuration A L σ) (first rest : List A) :
    interleave program s (first++rest) = (interleave program s first).bind (fun t => interleave program t rest) := by
  induction first generalizing s with
  | nil => rfl
  | cons a first ih =>
    cases h : step program s a with
    | none => simp [interleave,h]
    | some t => simp [interleave,h,ih]

variable {program}

theorem step_of_go {s : Configuration A L σ} {a : A} {loc : L} {shared : σ}
    (h : program a (s.loc a) s.shared = .go loc shared) :
    step program s a = some ⟨s.lock,Function.update s.loc a loc,shared⟩ := by
  simp [step,h]

/-- What a step can be, and of whom. -/
theorem step_cases {s t : Configuration A L σ} {a : A} (h : step program s a = some t) :
    (∃ loc, program a (s.loc a) s.shared = .acquire loc ∧ s.lock = none ∧
      t = ⟨some a,Function.update s.loc a loc,s.shared⟩) ∨
    (∃ loc, program a (s.loc a) s.shared = .release loc ∧ t = ⟨none,Function.update s.loc a loc,s.shared⟩) ∨
    (∃ loc shared, program a (s.loc a) s.shared = .go loc shared ∧
      t = ⟨s.lock,Function.update s.loc a loc,shared⟩) := by
  unfold step at h
  split at h
  · cases h
  · rename_i loc hmove
    split at h
    · rename_i hlock
      exact Or.inl ⟨loc,hmove,hlock,(Option.some.inj h).symm⟩
    · cases h
  · rename_i loc hmove
    exact Or.inr (Or.inl ⟨loc,hmove,(Option.some.inj h).symm⟩)
  · rename_i loc shared hmove
    exact Or.inr (Or.inr ⟨loc,shared,hmove,(Option.some.inj h).symm⟩)

/-- What holds at the start and survives every step holds along every interleaving. -/
theorem interleave_induction {P : Configuration A L σ → Prop}
    (hstep : ∀ s t a, P s → step program s a = some t → P t) {s t : Configuration A L σ} {schedule : List A}
    (hs : P s) (h : interleave program s schedule = some t) : P t := by
  induction schedule generalizing s with
  | nil =>
    cases h
    exact hs
  | cons a schedule ih =>
    obtain ⟨u,hu,ht⟩ := Option.bind_eq_some_iff.mp h
    exact ih (hstep s u a hs hu) ht

section Discipline

/-- A move from `l` agrees with `inside`, the locations at which the mutex is held. -/
def Move.Disciplined (inside : L → Prop) (l : L) : Move L σ → Prop
  | stuck => True
  | acquire l' => ¬ inside l ∧ inside l'
  | release l' => inside l ∧ ¬ inside l'
  | go l' _ => inside l ↔ inside l'

theorem Move.disciplined_map {M : Type*} (f : L → M) (inside : M → Prop) (l : L) (m : Move L σ) :
    (m.map f).Disciplined inside (f l) ↔ m.Disciplined (fun l => inside (f l)) l := by
  cases m <;> rfl

/-- The mutex is held by the agent at an inside location. -/
def Excluded (inside : L → Prop) (s : Configuration A L σ) : Prop :=
  ∀ a, s.lock = some a ↔ inside (s.loc a)

variable {inside : L → Prop} (hd : ∀ a l shared, (program a l shared).Disciplined inside l)
include hd

theorem Excluded.step {s t : Configuration A L σ} {a : A} (hs : Excluded inside s)
    (h : step program s a = some t) : Excluded inside t := by
  intro b
  have hmove := hd a (s.loc a) s.shared
  rcases step_cases h with ⟨l,hm,hfree,rfl⟩ | ⟨l,hm,rfl⟩ | ⟨l,shared,hm,rfl⟩
  · rw [hm] at hmove
    by_cases hb : b = a
    · subst hb
      simp [hmove.2]
    · have hn : ¬ inside (s.loc b) := fun hi => by simp [(hs b).mpr hi] at hfree
      simp [Function.update_of_ne hb,hn,Ne.symm hb]
  · rw [hm] at hmove
    by_cases hb : b = a
    · subst hb
      simp [hmove.2]
    · have hn : ¬ inside (s.loc b) := fun hi =>
        hb (Option.some.inj (((hs b).mpr hi).symm.trans ((hs a).mpr hmove.1)))
      simp [Function.update_of_ne hb,hn]
  · rw [hm] at hmove
    by_cases hb : b = a
    · subst hb
      simpa [← show inside (s.loc b) ↔ inside l from hmove] using hs b
    · simpa [Function.update_of_ne hb] using hs b

end Discipline

section Outline

/-- Assertions about the shared state: one for the free mutex, one for each
location of its holder. A move outside leaves all of them alone. -/
def Move.Outlined (inside : L → Prop) (free : σ → Prop) (held : L → σ → Prop) (l : L) (shared : σ) :
    Move L σ → Prop
  | stuck => True
  | acquire l' => free shared → held l' shared
  | release _ => held l shared → free shared
  | go l' shared' => (inside l → held l shared → held l' shared') ∧
    (¬ inside l → (free shared → free shared') ∧ ∀ m, held m shared → held m shared')

theorem Move.outlined_inside {inside : L → Prop} {free : σ → Prop} {held : L → σ → Prop} {l l' : L}
    {shared shared' : σ} (hi : inside l) (h : held l shared → held l' shared') :
    (go l' shared').Outlined inside free held l shared :=
  ⟨fun _ => h,fun hn => absurd hi hn⟩

theorem Move.outlined_outside {inside : L → Prop} {free : σ → Prop} {held : L → σ → Prop} {l l' : L}
    {shared shared' : σ} (hn : ¬ inside l) (hf : free shared → free shared')
    (hh : ∀ m, held m shared → held m shared') : (go l' shared').Outlined inside free held l shared :=
  ⟨fun hi => absurd hi hn,fun _ => ⟨hf,hh⟩⟩

structure Asserted (inside : L → Prop) (free : σ → Prop) (held : L → σ → Prop)
    (s : Configuration A L σ) : Prop where
  excluded : Excluded inside s
  free : s.lock = none → free s.shared
  held : ∀ a, s.lock = some a → held (s.loc a) s.shared

variable {inside : L → Prop} {free : σ → Prop} {held : L → σ → Prop}
variable (hd : ∀ a l shared, (program a l shared).Disciplined inside l)
variable (ho : ∀ a l shared, (program a l shared).Outlined inside free held l shared)
include hd ho

theorem Asserted.step {s t : Configuration A L σ} {a : A} (hs : Asserted inside free held s)
    (h : step program s a = some t) : Asserted inside free held t := by
  have hdisc := hd a (s.loc a) s.shared
  have hout := ho a (s.loc a) s.shared
  refine ⟨hs.excluded.step hd h,?_,?_⟩
  · intro hlock
    rcases step_cases h with ⟨l,hm,hfree,rfl⟩ | ⟨l,hm,rfl⟩ | ⟨l,shared,hm,rfl⟩
    · cases hlock
    · rw [hm] at hdisc hout
      exact hout (hs.held a ((hs.excluded a).mpr hdisc.1))
    · rw [hm] at hout
      have hn : ¬ inside (s.loc a) := fun hi => by simp [(hs.excluded a).mpr hi] at hlock
      exact (hout.2 hn).1 (hs.free hlock)
  · intro b hlock
    rcases step_cases h with ⟨l,hm,hfree,rfl⟩ | ⟨l,hm,rfl⟩ | ⟨l,shared,hm,rfl⟩
    · rw [hm] at hout
      cases hlock
      simpa using hout (hs.free hfree)
    · cases hlock
    · rw [hm] at hout
      by_cases hb : b = a
      · subst hb
        simpa using hout.1 ((hs.excluded b).mp hlock) (hs.held b hlock)
      · have hn : ¬ inside (s.loc a) := fun hi =>
          hb (Option.some.inj (hlock.symm.trans ((hs.excluded a).mpr hi)))
        simpa [Function.update_of_ne hb] using (hout.2 hn).2 _ (hs.held b hlock)

/-- Run lemma: the assertions hold along every interleaving. -/
theorem Asserted.interleave {s t : Configuration A L σ} {schedule : List A}
    (hs : Asserted inside free held s) (h : interleave program s schedule = some t) :
    Asserted inside free held t :=
  interleave_induction (fun _ _ _ hu hstep => hu.step hd ho hstep) hs h

end Outline
end OpenFlowController.Concurrency
