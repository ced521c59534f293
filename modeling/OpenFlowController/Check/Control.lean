import OpenFlowController.Check.ValidationCode
import OpenFlowController.Memory.Blocks

/-! # How validators are put together

Three shapes recur in the library: a check before the rest, a counted loop over
records of one size, and a loop that moves a cursor from item to item.
-/
namespace OpenFlowController.Check
open Memory Access
variable {σ : Type}

/-- `ret = first; if ( ret < 0 ) return ret;` before `rest`. -/
def ensure (first rest : Access ValidationCode) : Access ValidationCode := do
  let ret ← first
  if ret.value < 0 then return ret else rest

/-- The counted loops of the library: records of one size, checked in order. -/
def validateRecords (check : ℕ → Access ValidationCode) (size : ℕ) : ℕ → ℕ → Access ValidationCode
  | _, 0 => return .success
  | record, count+1 => ensure (check record) (validateRecords check size (record+size) count)

/-- `while ( more ) { ret = check; if ( ret < 0 ) return ret; move; } return 0;` -/
def walkRound (more : σ → Bool) (check : σ → Access ValidationCode) (move : σ → Access σ) (s : σ) :
    Access (σ ⊕ ValidationCode) := do
  if more s then
    let ret ← check s
    if ret.value < 0 then return .inr ret
    return .inl (← move s)
  else return .inr .success

def walk (more : σ → Bool) (check : σ → Access ValidationCode) (move : σ → Access σ) (s : σ) :
    Access ValidationCode := loop (walkRound more check move) s

/-- The states such a loop comes through: only an accepted item is passed. -/
def Visits (more : σ → Bool) (accepted : σ → Prop) (next : σ → σ) : σ → σ → Prop :=
  Relation.ReflTransGen (fun s s' => more s ∧ accepted s ∧ next s = s')

theorem visits_iff {more : σ → Bool} {accepted : σ → Prop} {next : σ → σ} {s t : σ} :
    Visits more accepted next s t ↔
      s = t ∨ more s ∧ accepted s ∧ Visits more accepted next (next s) t := by
  unfold Visits
  rw [Relation.ReflTransGen.cases_head_iff]
  refine or_congr_right ⟨?_,?_⟩
  · rintro ⟨_,⟨hm,ha,rfl⟩,ht⟩
    exact ⟨hm,ha,ht⟩
  · rintro ⟨hm,ha,ht⟩
    exact ⟨_,⟨hm,ha,rfl⟩,ht⟩

theorem Visits.head {more : σ → Bool} {accepted : σ → Prop} {next : σ → σ} {s t : σ} (hm : more s) (ha : accepted s)
    (h : Visits more accepted next (next s) t) : Visits more accepted next s t :=
  visits_iff.mpr (Or.inr ⟨hm,ha,h⟩)

theorem Visits.accepted {more : σ → Bool} {accepted : σ → Prop} {next : σ → σ} {s a b : σ}
    (ha : Visits more accepted next s a) (hb : Visits more accepted next s b) (hend : more b = false)
    (hm : more a) : accepted a := by
  have hunique : Relator.RightUnique (fun s s' => more s ∧ accepted s ∧ next s = s') := by
    intro s t t' ht ht'
    exact ht.2.2.symm.trans ht'.2.2
  have hstuck {t : σ} (h : Visits more accepted next b t) : b = t := by
    rcases visits_iff.mp h with rfl | ⟨hmb,-,-⟩
    · rfl
    · rw [hend] at hmb
      cases hmb
  rcases Relation.ReflTransGen.total_of_right_unique hunique ha hb with h | h
  · rcases visits_iff.mp h with rfl | ⟨-,hacc,-⟩
    · rw [hend] at hm
      cases hm
    · exact hacc
  · obtain rfl := hstuck h
    rw [hend] at hm
    cases hm

/-- Along a walk that such a loop follows it comes to its end exactly when every
item passes. -/
theorem ends_iff {α : Type} {more : σ → Bool} {accepted : σ → Prop} {next : σ → σ} {step : ℕ → ℕ}
    {found : ℕ → α → Prop} {passes : α → Prop} {stop o : ℕ} {items : List α} (state : ℕ → σ)
    (h : WalksTo step found stop o items)
    (hitem : ∀ p, ∀ a ∈ items, found p a → more (state p) = true ∧ next (state p) = state (p+step p) ∧
      (accepted (state p) ↔ passes a))
    (hstop : more (state stop) = false) :
    (∃ t, Visits more accepted next (state o) t ∧ more t = false) ↔ ∀ a ∈ items, passes a := by
  induction items generalizing o with
  | nil =>
    obtain rfl : o = stop := h
    exact iff_of_true ⟨state o,.refl,hstop⟩ (by simp)
  | cons a items ih =>
    obtain ⟨hmore,hnext,haccepted⟩ := hitem o a List.mem_cons_self h.1
    have hrest := ih h.2 (fun p b hb => hitem p b (List.mem_cons_of_mem a hb))
    rw [List.forall_mem_cons,← hrest,← haccepted,← hnext]
    constructor
    · rintro ⟨t,ht,hend⟩
      rcases visits_iff.mp ht with rfl | ⟨-,ha,ht⟩
      · rw [hmore] at hend
        cases hend
      · exact ⟨ha,t,ht,hend⟩
    · rintro ⟨ha,t,ht,hend⟩
      exact ⟨t,Visits.head hmore ha ht,hend⟩

/-- The same for a loop that keeps a 16-bit offset from the head of its list. -/
theorem offsets_iff {α : Type} {head length : ℕ} {accepted : ℕ → Prop} {step : ℕ → ℕ} {found : ℕ → α → Prop}
    {passes : α → Prop} {items : List α} (h : WalksTo step found (head+length) head items) (hlen : length < 65536)
    (hitem : ∀ q, ∀ a ∈ items, found q a → head ≤ q ∧ q < head+length ∧ q+step q ≤ head+length ∧
      (accepted q ↔ passes a)) :
    (∃ offset, Visits (fun offset => offset < length) (fun offset => accepted (head+offset))
      (fun offset => (offset+step (head+offset))%65536) 0 offset ∧ length ≤ offset) ↔ ∀ a ∈ items, passes a := by
  have hends : (∃ offset, Visits (fun offset => decide (offset < length)) (fun offset => accepted (head+offset))
      (fun offset => (offset+step (head+offset))%65536) (head-head) offset ∧
      decide (offset < length) = false) ↔ ∀ a ∈ items, passes a := by
    refine ends_iff (fun q => q-head) h (fun q a ha hf => ?_) (by simp)
    obtain ⟨hl,hu,hend,haccepted⟩ := hitem q a ha hf
    have hq : head+(q-head) = q := by omega
    refine ⟨by simp only [decide_eq_true_eq]; omega,?_,by rw [hq]; exact haccepted⟩
    rw [hq,Nat.mod_eq_of_lt (by omega)]
    omega
  rw [Nat.sub_self] at hends
  rw [← hends]
  simp

section Rules
variable {n : ℕ} {mem : Bytes}

@[simp] theorem returns_ensure_success (first rest : Access ValidationCode) :
    Returns (ensure first rest) mem .success ↔ Returns first mem .success ∧ Returns rest mem .success := by
  simp only [ensure,returns_bind,returns_ite,ValidationCode.value_neg_iff,returns_pure]
  constructor
  · rintro ⟨ret,hf,hr⟩
    split at hr
    · contradiction
    · simp_all
  · rintro ⟨hf,hr⟩
    exact ⟨.success,hf,by simpa using hr⟩

/-- Only a success lets the rest run. -/
@[simp] theorem within_ensure (first rest : Access ValidationCode) :
    Within n (ensure first rest) mem ↔
      Within n first mem ∧ (Returns first mem .success → Within n rest mem) := by
  simp only [ensure,within_bind,within_ite,ValidationCode.value_neg_iff,within_pure,implies_true,true_and,
    Classical.not_not]
  grind

theorem within_validateRecords (check : ℕ → Access ValidationCode) (size record count : ℕ)
    (h : ∀ i < count, Within n (check (record+i*size)) mem) :
    Within n (validateRecords check size record count) mem := by
  induction count generalizing record with
  | zero => exact within_pure _
  | succ count ih =>
    have hrest : Within n (validateRecords check size (record+size) count) mem := by
      refine ih (record+size) (fun i hi => ?_)
      have hi' := h (i+1) (by omega)
      rwa [Nat.add_mul,Nat.one_mul,Nat.add_comm (i*size),← Nat.add_assoc] at hi'
    have hhead := h 0 (Nat.succ_pos count)
    rw [Nat.zero_mul,Nat.add_zero] at hhead
    simp [validateRecords,hhead,hrest]

theorem returns_validateRecords {check : ℕ → Access ValidationCode} {accepted : ℕ → Prop}
    (hcheck : ∀ record, Returns (check record) mem .success ↔ accepted record) (size record count : ℕ) :
    Returns (validateRecords check size record count) mem .success ↔ ∀ i < count, accepted (record+i*size) := by
  induction count generalizing record with
  | zero => simp [validateRecords]
  | succ count ih =>
    have hshift : ∀ i, record+size+i*size = record+(i+1)*size := by
      intro i
      rw [Nat.succ_mul,Nat.add_assoc,Nat.add_comm size]
    rw [validateRecords,returns_ensure_success,hcheck,ih,Nat.forall_lt_succ_left]
    simp only [hshift,Nat.zero_mul,Nat.add_zero]

section Walk
variable {more : σ → Bool} {check : σ → Access ValidationCode} {move : σ → Access σ}
variable {accepted : σ → Prop} {next : σ → σ}

theorem turns_walkRound (hcheck : ∀ s, Returns (check s) mem .success ↔ accepted s)
    (hmove : ∀ s s', Returns (move s) mem s' ↔ next s = s') (s s' : σ) :
    Turns (walkRound more check move) mem s s' ↔ more s ∧ accepted s ∧ next s = s' := by
  simp only [Turns,walkRound,returns_ite,returns_bind,returns_pure,ValidationCode.value_neg_iff]
  cases more s with
  | false => simp
  | true =>
    simp only [if_true,← hcheck,true_and]
    constructor
    · rintro ⟨ret,hr,h⟩
      split at h
      · cases h
      · simp_all
    · rintro ⟨hr,rfl⟩
      exact ⟨.success,hr,by simp [hmove]⟩

theorem reaches_walkRound (hcheck : ∀ s, Returns (check s) mem .success ↔ accepted s)
    (hmove : ∀ s s', Returns (move s) mem s' ↔ next s = s') :
    Reaches (walkRound more check move) mem = Visits more accepted next := by
  unfold Reaches Visits
  congr 1
  ext s s'
  exact turns_walkRound hcheck hmove s s'

theorem returns_walk (hcheck : ∀ s, Returns (check s) mem .success ↔ accepted s)
    (hmove : ∀ s s', Returns (move s) mem s' ↔ next s = s') (s : σ) :
    Returns (walk more check move s) mem .success ↔
      ∃ s', Visits more accepted next s s' ∧ more s' = false := by
  rw [walk,returns_loop,reaches_walkRound hcheck hmove]
  refine exists_congr (fun s' => and_congr_right (fun _ => ?_))
  simp only [walkRound,returns_ite,returns_bind,returns_pure,ValidationCode.value_neg_iff]
  cases more s' with
  | false => simp
  | true => simp

theorem within_walk (hcheck : ∀ s, Returns (check s) mem .success ↔ accepted s)
    (hmove : ∀ s s', Returns (move s) mem s' ↔ next s = s') (s : σ) :
    Within n (walk more check move s) mem ↔ ∀ s', Visits more accepted next s s' → more s' →
      Within n (check s') mem ∧ (accepted s' → Within n (move s') mem) := by
  rw [walk,within_loop,reaches_walkRound hcheck hmove]
  refine forall_congr' (fun s' => imp_congr_right (fun _ => ?_))
  simp only [walkRound,within_ite,within_bind,within_pure,ValidationCode.value_neg_iff,implies_true,
    and_true,true_and,Classical.not_not]
  refine imp_congr_right (fun _ => and_congr_right (fun _ => ?_))
  rw [← hcheck]
  constructor
  · intro h hr
    exact h _ hr rfl
  · rintro h ret hr rfl
    exact h hr

end Walk
end Rules

/-- The check comes to an end with one of the codes in `S`. -/
def EndsIn (S : ValidationCode → Prop) (x : Access ValidationCode) (mem : Bytes) : Prop :=
  ∃ code, S code ∧ Returns x mem code

section Ends
variable {mem : Bytes} {α : Type} (S : ValidationCode → Prop)

@[simp] theorem endsIn_pure (code : ValidationCode) : EndsIn S (pure code) mem ↔ S code := by
  simp [EndsIn]

@[simp] theorem endsIn_bind (x : Access α) (f : α → Access ValidationCode) :
    EndsIn S (x >>= f) mem ↔ ∃ a, Returns x mem a ∧ EndsIn S (f a) mem := by
  simp only [EndsIn,returns_bind]
  constructor
  · rintro ⟨code,hs,a,ha,hr⟩
    exact ⟨a,ha,code,hs,hr⟩
  · rintro ⟨a,ha,code,hs,hr⟩
    exact ⟨code,hs,a,ha,hr⟩

@[simp] theorem endsIn_ite (c : Prop) [Decidable c] (x y : Access ValidationCode) :
    EndsIn S (if c then x else y) mem ↔ if c then EndsIn S x mem else EndsIn S y mem := by
  split <;> rfl

variable {S} (hS : ¬ S .success)
include hS

theorem endsIn_ensure (first rest : Access ValidationCode) : EndsIn S (ensure first rest) mem ↔
    EndsIn S first mem ∨ Returns first mem .success ∧ EndsIn S rest mem := by
  simp only [ensure,endsIn_bind,endsIn_ite,endsIn_pure,ValidationCode.value_neg_iff]
  constructor
  · rintro ⟨ret,hr,h⟩
    split at h
    · exact Or.inl ⟨ret,h,hr⟩
    · rename_i hs
      obtain rfl := Classical.not_not.mp hs
      exact Or.inr ⟨hr,h⟩
  · rintro (⟨ret,hs,hr⟩ | ⟨hr,h⟩)
    · refine ⟨ret,hr,?_⟩
      have hne : ret ≠ .success := fun he => hS (he ▸ hs)
      rwa [if_pos hne]
    · exact ⟨.success,hr,by simpa using h⟩

theorem endsIn_walk {more : σ → Bool} {check : σ → Access ValidationCode} {move : σ → Access σ}
    {accepted : σ → Prop} {next : σ → σ} (hcheck : ∀ s, Returns (check s) mem .success ↔ accepted s)
    (hmove : ∀ s s', Returns (move s) mem s' ↔ next s = s') (s : σ) :
    EndsIn S (walk more check move s) mem ↔
      ∃ s', Visits more accepted next s s' ∧ more s' ∧ EndsIn S (check s') mem := by
  simp only [EndsIn,walk,returns_loop,reaches_walkRound hcheck hmove]
  simp only [walkRound,returns_ite,returns_bind,returns_pure,ValidationCode.value_neg_iff]
  constructor
  · rintro ⟨code,hs,s',hv,h⟩
    split at h
    · rename_i hm
      obtain ⟨ret,hr,h⟩ := h
      split at h
      · cases h
        exact ⟨s',hv,hm,code,hs,hr⟩
      · simp at h
    · cases h
      exact absurd hs hS
  · rintro ⟨s',hv,hm,code,hs,hr⟩
    refine ⟨code,hs,s',hv,?_⟩
    rw [if_pos hm]
    refine ⟨code,hr,?_⟩
    have hne : code ≠ .success := fun he => hS (he ▸ hs)
    rw [if_pos hne]

/-- Where a rejected record always gives one of the codes, so does a rejected array. -/
theorem endsIn_validateRecords {check : ℕ → Access ValidationCode} {accepted : ℕ → Prop}
    (hcheck : ∀ record, Returns (check record) mem .success ↔ accepted record)
    (hends : ∀ record, EndsIn S (check record) mem ↔ ¬ accepted record) (size record count : ℕ) :
    EndsIn S (validateRecords check size record count) mem ↔ ¬ ∀ i < count, accepted (record+i*size) := by
  induction count generalizing record with
  | zero => simpa [validateRecords] using hS
  | succ count ih =>
    have hshift : ∀ i, record+size+i*size = record+(i+1)*size := by
      intro i
      rw [Nat.succ_mul,Nat.add_assoc,Nat.add_comm size]
    rw [validateRecords,endsIn_ensure hS,hends,hcheck,ih,Nat.forall_lt_succ_left]
    simp only [hshift,Nat.zero_mul,Nat.add_zero]
    constructor
    · rintro (hn | ⟨-,hn⟩) hall
      · exact hn hall.1
      · exact hn hall.2
    · intro hn
      by_cases ha : accepted record
      · exact Or.inr ⟨ha,fun hrest => hn ⟨ha,hrest⟩⟩
      · exact Or.inl ha

end Ends
end OpenFlowController.Check
