import Mathlib.Data.Nat.ModEq
import Mathlib.Data.List.Induction
import Mathlib.Algebra.BigOperators.Group.List.Basic

/-! # Sums with end-around carry

In base `b` a carry goes back in at the low end, so that sums are kept modulo `b-1`.
Zero has the two representatives `0` and `b-1`. A sum of naturals only is `0` when every
summand is, which makes the choice.
-/
namespace OpenFlowController.EndAroundCarry

variable {b : ℕ}

/-- The digits above the lowest one are added to it. -/
def carry (b x : ℕ) : ℕ := x%b+x/b

def sum (b : ℕ) (words : List ℕ) : ℕ := words.foldl (fun total word => carry b (total+word)) 0

theorem carry_modEq (hb : 0 < b) (x : ℕ) : carry b x ≡ x [MOD b-1] := by
  have hone : b*(x/b) ≡ 1*(x/b) [MOD b-1] :=
    Nat.ModEq.mul_right _ ((Nat.modEq_iff_dvd' hb).mpr dvd_rfl).symm
  calc
    carry b x = x%b+1*(x/b) := by rw [carry,one_mul]
    _ ≡ x%b+b*(x/b) [MOD b-1] := Nat.ModEq.add_left _ hone.symm
    _ = x := Nat.mod_add_div x b

theorem carry_eq_zero {x : ℕ} : carry b x = 0 ↔ x = 0 := by
  constructor
  · intro h
    obtain ⟨hmod,hdiv⟩ := Nat.add_eq_zero_iff.mp h
    rw [← Nat.mod_add_div x b,hmod,hdiv,Nat.mul_zero]
  · rintro rfl
    rw [carry,Nat.zero_mod,Nat.zero_div]

theorem carry_of_lt {x : ℕ} (hx : x < b) : carry b x = x := by
  rw [carry,Nat.mod_eq_of_lt hx,Nat.div_eq_of_lt hx,Nat.add_zero]

theorem carry_lt_self (hb : 1 < b) {x : ℕ} (hx : b ≤ x) : carry b x < x := by
  have hdiv : 0 < x/b := Nat.div_pos hx (by omega)
  have hmul : 2*(x/b) ≤ b*(x/b) := Nat.mul_le_mul_right _ hb
  have hsplit := Nat.mod_add_div x b
  rw [carry]
  omega

/-- One carry is enough after one addition. -/
theorem carry_add_lt {x y : ℕ} (hx : x < b) (hy : y < b) : carry b (x+y) < b := by
  rcases Nat.lt_or_ge (x+y) b with hlt | hge
  · rw [carry_of_lt hlt]
    exact hlt
  · have hsub : (x+y)%b = x+y-b := by
      rw [Nat.mod_eq_sub_mod hge,Nat.mod_eq_of_lt (by omega)]
    have hdiv : (x+y)/b = 1 := Nat.div_eq_of_lt_le (by omega) (by omega)
    rw [carry,hsub,hdiv]
    omega

/-- A residue and whether it is a sum of zeros determine the representative. -/
theorem eq_of_modEq {x y : ℕ} (hx : x < b) (hy : y < b) (h : x ≡ y [MOD b-1]) (h0 : x = 0 ↔ y = 0) :
    x = y := by
  wlog hle : x ≤ y generalizing x y
  · exact (this hy hx h.symm h0.symm (by omega)).symm
  obtain ⟨k,hk⟩ := (Nat.modEq_iff_dvd' hle).mp h
  rcases Nat.eq_zero_or_pos k with rfl | hpos
  · omega
  · have hmul : b-1 ≤ (b-1)*k := Nat.le_mul_of_pos_right _ hpos
    omega

section Sum
variable (words : List ℕ)

theorem sum_append_singleton (word : ℕ) : sum b (words++[word]) = carry b (sum b words+word) := by
  rw [sum,List.foldl_append]
  rfl

theorem sum_modEq (hb : 0 < b) : sum b words ≡ words.sum [MOD b-1] := by
  induction words using List.reverseRecOn with
  | nil => rfl
  | append_singleton words word ih =>
    rw [sum_append_singleton,List.sum_append,List.sum_singleton]
    exact (carry_modEq hb _).trans (ih.add_right word)

theorem sum_lt (hb : 0 < b) (hwords : ∀ word ∈ words, word < b) : sum b words < b := by
  induction words using List.reverseRecOn with
  | nil => exact hb
  | append_singleton words word ih =>
    rw [sum_append_singleton]
    exact carry_add_lt (ih fun w hw => hwords w (List.mem_append_left _ hw)) (hwords word (by simp))

theorem sum_eq_zero : sum b words = 0 ↔ words.sum = 0 := by
  induction words using List.reverseRecOn with
  | nil => rfl
  | append_singleton words word ih =>
    rw [sum_append_singleton,carry_eq_zero,List.sum_append,List.sum_singleton,Nat.add_eq_zero_iff,ih,
      Nat.add_eq_zero_iff]

/-- Whatever carries a plain sum down to one word finds the sum with end-around carry. -/
theorem eq_sum {x : ℕ} (hb : 0 < b) (hwords : ∀ word ∈ words, word < b) (hx : x < b)
    (h : x ≡ words.sum [MOD b-1]) (h0 : x = 0 ↔ words.sum = 0) : x = sum b words :=
  eq_of_modEq hx (sum_lt words hb hwords) (h.trans (sum_modEq words hb).symm) (h0.trans (sum_eq_zero words).symm)

/-- The complement of a sum fills it up to the other zero. -/
theorem sum_append_complement (hb : 0 < b) (hwords : ∀ word ∈ words, word < b) :
    sum b (words++[b-1-sum b words]) = b-1 := by
  have hlt := sum_lt words hb hwords
  have hfill : sum b words+(b-1-sum b words) = b-1 := by omega
  rw [sum_append_singleton,hfill,carry_of_lt (by omega)]

end Sum
end OpenFlowController.EndAroundCarry
