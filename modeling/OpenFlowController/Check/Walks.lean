import Mathlib.Data.Fintype.Pigeonhole
import OpenFlowController.Check.Control

/-! # Walks that come to an end

A loop ends when its walk reaches a state with nothing left or an item that is
refused. A walk that only goes up below a bound gets there, and one that comes back
to a state never does.
-/
namespace OpenFlowController.Check
open Memory Access
variable {α σ : Type}

/-- Some amount of fuel is enough. -/
def Terminates (x : Access α) (mem : Bytes) : Prop := ∃ a, Returns x mem a

section Rules
variable {mem : Bytes}

@[simp] theorem terminates_pure (a : α) : Terminates (pure a : Access α) mem := ⟨a,by simp⟩

@[simp] theorem terminates_bind {β : Type} (x : Access α) (f : α → Access β) :
    Terminates (x >>= f) mem ↔ ∃ a, Returns x mem a ∧ Terminates (f a) mem := by
  simp only [Terminates,returns_bind]
  constructor
  · rintro ⟨b,a,ha,hb⟩
    exact ⟨a,ha,b,hb⟩
  · rintro ⟨a,ha,b,hb⟩
    exact ⟨b,a,ha,hb⟩

@[simp] theorem terminates_ite (c : Prop) [Decidable c] (x y : Access α) :
    Terminates (if c then x else y) mem ↔ if c then Terminates x mem else Terminates y mem := by
  split <;> rfl

/-- A check ends with success or with the code of an error. -/
theorem terminates_iff (x : Access ValidationCode) :
    Terminates x mem ↔ Returns x mem .success ∨ EndsIn (· ≠ .success) x mem := by
  constructor
  · rintro ⟨code,hr⟩
    by_cases hs : code = .success
    · exact Or.inl (hs ▸ hr)
    · exact Or.inr ⟨code,hs,hr⟩
  · rintro (hr | ⟨code,-,hr⟩)
    · exact ⟨_,hr⟩
    · exact ⟨_,hr⟩

theorem not_returns_of_endsIn {x : Access ValidationCode} (h : EndsIn (· ≠ .success) x mem) :
    ¬ Returns x mem .success := by
  obtain ⟨code,hs,hr⟩ := h
  exact fun hsuccess => hs (hr.unique hsuccess)

theorem endsIn_iff (x : Access ValidationCode) :
    EndsIn (· ≠ .success) x mem ↔ Terminates x mem ∧ ¬ Returns x mem .success := by
  rw [terminates_iff]
  constructor
  · intro h
    exact ⟨Or.inr h,not_returns_of_endsIn h⟩
  · rintro ⟨h,hn⟩
    exact h.resolve_left hn

theorem terminates_ensure (first rest : Access ValidationCode) : Terminates (ensure first rest) mem ↔
    Terminates first mem ∧ (Returns first mem .success → Terminates rest mem) := by
  rw [terminates_iff,returns_ensure_success,endsIn_ensure (by simp),terminates_iff first,terminates_iff rest]
  constructor
  · rintro (⟨hf,hr⟩ | he | ⟨hf,hr⟩)
    · exact ⟨Or.inl hf,fun _ => Or.inl hr⟩
    · exact ⟨Or.inr he,fun hf => absurd hf (not_returns_of_endsIn he)⟩
    · exact ⟨Or.inl hf,fun _ => Or.inr hr⟩
  · rintro ⟨hf | he,hr⟩
    · rcases hr hf with hr | hr
      · exact Or.inl ⟨hf,hr⟩
      · exact Or.inr (Or.inr ⟨hf,hr⟩)
    · exact Or.inr (Or.inl he)

theorem terminates_walk {more : σ → Bool} {check : σ → Access ValidationCode} {move : σ → Access σ}
    {accepted : σ → Prop} {next : σ → σ} (hcheck : ∀ s, Returns (check s) mem .success ↔ accepted s)
    (hmove : ∀ s s', Returns (move s) mem s' ↔ next s = s') (s : σ) :
    Terminates (walk more check move s) mem ↔ ∃ t, Visits more accepted next s t ∧
      (more t = false ∨ EndsIn (· ≠ .success) (check t) mem) := by
  rw [terminates_iff,returns_walk hcheck hmove,endsIn_walk (by simp) hcheck hmove]
  constructor
  · rintro (⟨t,ht,hend⟩ | ⟨t,ht,-,he⟩)
    · exact ⟨t,ht,Or.inl hend⟩
    · exact ⟨t,ht,Or.inr he⟩
  · rintro ⟨t,ht,h⟩
    cases hm : more t with
    | false => exact Or.inl ⟨t,ht,hm⟩
    | true => exact Or.inr ⟨t,ht,hm,h.resolve_left (by simp [hm])⟩

end Rules

section Walks
variable {more : σ → Bool} {accepted : σ → Prop} {next : σ → σ} {s : σ}

/-- A walk that only goes up below a bound stops somewhere. -/
theorem exists_stop (measure : σ → ℕ) (bound : ℕ)
    (h : ∀ t, Visits more accepted next s t → more t → accepted t →
      measure t < measure (next t) ∧ measure (next t) ≤ bound) :
    ∃ t, Visits more accepted next s t ∧ (more t = false ∨ ¬ accepted t) := by
  induction hk : bound-measure s using Nat.strong_induction_on generalizing s with
  | _ k ih =>
    by_cases hs : more s ∧ accepted s
    · obtain ⟨hup,hle⟩ := h s .refl hs.1 hs.2
      have hfrom : ∀ t, Visits more accepted next (next s) t → Visits more accepted next s t :=
        fun t ht => Visits.head hs.1 hs.2 ht
      obtain ⟨t,ht,hend⟩ := ih (bound-measure (next s)) (by omega) (fun t ht => h t (hfrom t ht)) rfl
      exact ⟨t,hfrom t ht,hend⟩
    · refine ⟨s,.refl,?_⟩
      by_cases hm : more s
      · exact Or.inr (fun ha => hs ⟨hm,ha⟩)
      · exact Or.inl (by simpa using hm)

/-- Where a walk can come back it goes on for ever. -/
theorem goes_on_of_return (hm : more s) (ha : accepted s) (hback : Visits more accepted next (next s) s)
    {t : σ} (ht : Visits more accepted next s t) :
    more t ∧ accepted t ∧ Visits more accepted next (next t) s := by
  induction ht with
  | refl => exact ⟨hm,ha,hback⟩
  | @tail t u _ hstep ih =>
    obtain ⟨-,-,rfl⟩ := hstep
    rcases visits_iff.mp ih.2.2 with he | h
    · rw [he]
      exact ⟨hm,ha,hback⟩
    · exact h

theorem no_stop_of_return {t : σ} (ht : Visits more accepted next s t) (hm : more t) (ha : accepted t)
    (hback : Visits more accepted next (next t) t) :
    ¬ ∃ u, Visits more accepted next s u ∧ (more u = false ∨ ¬ accepted u) := by
  have hunique : Relator.RightUnique (fun s s' => more s ∧ accepted s ∧ next s = s') := by
    intro s t t' ht ht'
    exact ht.2.2.symm.trans ht'.2.2
  rintro ⟨u,hu,hend⟩
  have hgoes : more u ∧ accepted u := by
    rcases Relation.ReflTransGen.total_of_right_unique hunique ht hu with h | h
    · obtain ⟨hmu,hau,-⟩ := goes_on_of_return hm ha hback h
      exact ⟨hmu,hau⟩
    · rcases visits_iff.mp h with rfl | ⟨hmu,hau,-⟩
      · exact ⟨hm,ha⟩
      · exact ⟨hmu,hau⟩
  rcases hend with hend | hend
  · rw [hgoes.1] at hend
    cases hend
  · exact hend hgoes.2

/-- A walk that goes on passes through all that `next` leads to. -/
theorem visits_iterate (hgoes : ∀ t, Visits more accepted next s t → more t ∧ accepted t) (n : ℕ) :
    Visits more accepted next s (next^[n] s) := by
  induction n with
  | zero => exact .refl
  | succ n ih =>
    rw [Function.iterate_succ_apply']
    exact ih.tail ⟨(hgoes _ ih).1,(hgoes _ ih).2,rfl⟩

/-- Among finitely many states a walk that does not stop comes back. -/
theorem stops_iff_no_return {more : ℕ → Bool} {accepted : ℕ → Prop} {next : ℕ → ℕ} {s bound : ℕ}
    (hs : s < bound) (hnext : ∀ t, next t < bound) :
    (∃ t, Visits more accepted next s t ∧ (more t = false ∨ ¬ accepted t)) ↔
      ¬ ∃ t, Visits more accepted next s t ∧ more t ∧ accepted t ∧ Visits more accepted next (next t) t := by
  refine ⟨?_,fun hreturn => ?_⟩
  · rintro hstop ⟨t,ht,hm,ha,hback⟩
    exact no_stop_of_return ht hm ha hback hstop
  by_contra hstop
  have hgoes : ∀ t, Visits more accepted next s t → more t ∧ accepted t := by
    intro t ht
    by_contra hn
    refine hstop ⟨t,ht,?_⟩
    by_cases hm : more t
    · exact Or.inr (fun ha => hn ⟨hm,ha⟩)
    · exact Or.inl (by simpa using hm)
  have hvisits := visits_iterate hgoes
  have hlt : ∀ n, next^[n] s < bound := by
    intro n
    cases n with
    | zero => exact hs
    | succ n =>
      rw [Function.iterate_succ_apply']
      exact hnext _
  have hfrom : ∀ i k, Visits more accepted next (next^[i] s) (next^[i+k] s) := by
    intro i k
    rw [Nat.add_comm,Function.iterate_add_apply]
    exact visits_iterate (fun t ht => hgoes t ((hvisits i).trans ht)) k
  have hclash : ∀ i j, i < j → next^[i] s ≠ next^[j] s := by
    intro i j hij he
    have hback := hfrom (i+1) (j-(i+1))
    rw [Nat.add_sub_cancel' hij,← he,Function.iterate_succ_apply'] at hback
    exact hreturn ⟨_,hvisits i,(hgoes _ (hvisits i)).1,(hgoes _ (hvisits i)).2,hback⟩
  obtain ⟨i,j,hne,he⟩ := Finite.exists_ne_map_eq_of_infinite (fun n => (⟨next^[n] s,hlt n⟩ : Fin bound))
  have he' : next^[i] s = next^[j] s := congrArg Fin.val he
  rcases Nat.lt_or_gt_of_ne hne with hij | hij
  · exact hclash i j hij he'
  · exact hclash j i hij he'.symm

/-- A stop is found by counting the items. -/
theorem stops_iff_iterate {refused : σ → Prop} :
    (∃ t, Visits more accepted next s t ∧ (more t = false ∨ refused t)) ↔
      ∃ n, (∀ i < n, accepted (next^[i] s)) ∧ (more (next^[n] s) = false ∨ refused (next^[n] s)) := by
  constructor
  · rintro ⟨t,ht,hend⟩
    induction ht using Relation.ReflTransGen.head_induction_on with
    | refl => exact ⟨0,by simp,hend⟩
    | head hstep _ ih =>
      obtain ⟨-,ha,rfl⟩ := hstep
      obtain ⟨n,hn,hend⟩ := ih
      refine ⟨n+1,fun i hi => ?_,hend⟩
      cases i with
      | zero => exact ha
      | succ i => exact hn i (by omega)
  · rintro ⟨n,hn,hend⟩
    induction n generalizing s with
    | zero => exact ⟨s,.refl,hend⟩
    | succ n ih =>
      cases hm : more s with
      | false => exact ⟨s,.refl,Or.inl hm⟩
      | true =>
        have ha : accepted s := hn 0 (Nat.succ_pos n)
        obtain ⟨t,ht,hstop⟩ := ih (fun i hi => hn (i+1) (Nat.succ_lt_succ hi)) hend
        exact ⟨t,Visits.head hm ha ht,hstop⟩

end Walks
end OpenFlowController.Check
