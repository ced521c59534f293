import Mathlib.Data.List.Basic
import Mathlib.Data.Nat.Init

/-! # Texts that can be read back

What a number, a field in front of a stop, or a row of pieces was printed from is told by
the text alone.
-/
namespace OpenFlowController.Texts

section Stops
variable {α : Type*} {c : α}

theorem eq_of_stop {a a' b b' : List α} (ha : c ∉ a) (ha' : c ∉ a') (h : a++c :: b = a'++c :: b') : a = a' ∧ b = b' := by
  induction a generalizing a' with
  | nil =>
    cases a' with
    | nil => exact ⟨rfl,(List.cons.inj h).2⟩
    | cons x a' => exact absurd ((List.cons.inj h).1 ▸ List.mem_cons_self) ha'
  | cons x a ih =>
    cases a' with
    | nil => exact absurd ((List.cons.inj h).1 ▸ List.mem_cons_self) ha
    | cons x' a' =>
      obtain ⟨hx,hrest⟩ := List.cons.inj h
      obtain ⟨htail,hb⟩ := ih (List.not_mem_of_not_mem_cons ha) (List.not_mem_of_not_mem_cons ha') hrest
      exact ⟨by rw [hx,htail],hb⟩

/-- The last stop is found from the end. -/
theorem eq_of_last_stop {a a' b b' : List α} (hb : c ∉ b) (hb' : c ∉ b') (h : a++c :: b = a'++c :: b') :
    a = a' ∧ b = b' := by
  have hreverse := congrArg List.reverse h
  simp only [List.reverse_append,List.reverse_cons,List.append_assoc,List.singleton_append] at hreverse
  obtain ⟨hback,hfront⟩ := eq_of_stop (mt List.mem_reverse.mp hb) (mt List.mem_reverse.mp hb') hreverse
  exact ⟨List.reverse_injective hfront,List.reverse_injective hback⟩

theorem eq_of_separator {separator a a' b b' : List α} (hfirst : separator.head? = some c) (ha : c ∉ a) (ha' : c ∉ a')
    (h : a++(separator++b) = a'++(separator++b')) : a = a' ∧ b = b' := by
  cases separator with
  | nil => cases hfirst
  | cons x rest =>
    cases hfirst
    obtain ⟨hfront,hback⟩ := eq_of_stop ha ha' h
    exact ⟨hfront,List.append_cancel_left hback⟩

theorem eq_of_last_separator {separator a a' b b' : List α} (hlast : separator.getLast? = some c) (hb : c ∉ b)
    (hb' : c ∉ b') (h : a++separator++b = a'++separator++b') : a = a' ∧ b = b' := by
  obtain ⟨rest,rfl⟩ := List.getLast?_eq_some_iff.mp hlast
  simp only [← List.append_assoc] at h
  rw [List.append_assoc (a++rest),List.append_assoc (a'++rest)] at h
  obtain ⟨hfront,hback⟩ := eq_of_last_stop hb hb' h
  exact ⟨List.append_cancel_right hfront,hback⟩

/-- Every piece is followed by the stop and `behind`. -/
def ended (c : α) (behind : List α) (pieces : List (List α)) : List α :=
  (pieces.map fun piece => piece++c :: behind).flatten

@[simp] theorem ended_nil (behind : List α) : ended c behind [] = [] := rfl

@[simp] theorem ended_cons (behind piece : List α) (pieces : List (List α)) :
    ended c behind (piece :: pieces) = piece++c :: (behind++ended c behind pieces) := by
  simp [ended]

@[simp] theorem ended_append (behind : List α) (pieces pieces' : List (List α)) :
    ended c behind (pieces++pieces') = ended c behind pieces++ended c behind pieces' := by
  simp [ended]

theorem ended_inj (behind : List α) {pieces pieces' : List (List α)} (h : ∀ piece ∈ pieces, c ∉ piece)
    (h' : ∀ piece ∈ pieces', c ∉ piece) (heq : ended c behind pieces = ended c behind pieces') : pieces = pieces' := by
  induction pieces generalizing pieces' with
  | nil =>
    cases pieces' with
    | nil => rfl
    | cons piece' pieces' => simp at heq
  | cons piece pieces ih =>
    cases pieces' with
    | nil => simp at heq
    | cons piece' pieces' =>
      rw [List.forall_mem_cons] at h h'
      rw [ended_cons,ended_cons] at heq
      obtain ⟨hpiece,hrest⟩ := eq_of_stop h.1 h'.1 heq
      rw [hpiece,ih h.2 h'.2 (List.append_cancel_left hrest)]

theorem intercalate_append_ended (behind : List α) {pieces : List (List α)} (hne : pieces ≠ []) :
    (c :: behind).intercalate pieces++c :: behind = ended c behind pieces := by
  induction pieces with
  | nil => exact absurd rfl hne
  | cons piece pieces ih =>
    cases pieces with
    | nil => simp
    | cons piece' pieces =>
      rw [List.intercalate_cons_cons,List.append_assoc,ih (List.cons_ne_nil _ _),ended_cons]
      simp

/-- Pieces that are not empty and lack the first character of the separator. -/
theorem intercalate_inj (behind : List α) {pieces pieces' : List (List α)} (h : ∀ piece ∈ pieces, piece ≠ [] ∧ c ∉ piece)
    (h' : ∀ piece ∈ pieces', piece ≠ [] ∧ c ∉ piece)
    (heq : (c :: behind).intercalate pieces = (c :: behind).intercalate pieces') : pieces = pieces' := by
  have hnil {pieces : List (List α)} (h : ∀ piece ∈ pieces, piece ≠ [] ∧ c ∉ piece)
      (heq : (c :: behind).intercalate pieces = []) : pieces = [] := by
    cases pieces with
    | nil => rfl
    | cons piece pieces =>
      have hpiece := (h piece List.mem_cons_self).1
      cases pieces with
      | nil => simp_all
      | cons piece' pieces => simp at heq
  by_cases hne : pieces = []
  · rw [hne] at heq ⊢
    exact (hnil h' heq.symm).symm
  · have hne' : pieces' ≠ [] := fun hempty => hne (hnil h (by rw [heq,hempty]; rfl))
    refine ended_inj behind (fun piece hmem => (h piece hmem).2) (fun piece hmem => (h' piece hmem).2) ?_
    rw [← intercalate_append_ended behind hne,← intercalate_append_ended behind hne',heq]

theorem intercalate_concat (separator : List α) (pieces : List (List α)) (piece : List α) :
    separator.intercalate (pieces++[piece]) =
      (if pieces = [] then [] else separator.intercalate pieces++separator)++piece := by
  induction pieces with
  | nil => simp
  | cons first pieces ih =>
    cases pieces with
    | nil => simp
    | cons second pieces =>
      rw [if_neg (List.cons_ne_nil _ _)] at ih ⊢
      rw [List.cons_append,List.cons_append,List.intercalate_cons_cons,← List.cons_append,ih,List.intercalate_cons_cons]
      simp only [List.append_assoc]

end Stops

section Numbers
variable {b n m : ℕ}

theorem remainder_lt (hb : 1 < b) (hdigits : b ≤ 16) (n : ℕ) : n%b < 16 :=
  Nat.lt_of_lt_of_le (Nat.mod_lt n (Nat.zero_lt_of_lt hb)) hdigits

theorem digitChar_injOn (hn : n < 16) (hm : m < 16) (h : Nat.digitChar n = Nat.digitChar m) : n = m := by
  have hall : ∀ i j : Fin 16, Nat.digitChar i = Nat.digitChar j → i = j := by decide
  exact Fin.mk.inj_iff.mp (hall ⟨n,hn⟩ ⟨m,hm⟩ h)

/-- In any base with a digit for each remainder. -/
theorem toDigits_injective (hb : 1 < b) (hdigits : b ≤ 16) : Function.Injective (Nat.toDigits b) := by
  intro n
  induction n using Nat.strongRecOn with
  | ind n ih =>
    intro m h
    rw [Nat.toDigits_eq_if hb,Nat.toDigits_eq_if (n := m) hb] at h
    have hnonempty (k : ℕ) : (Nat.toDigits b k).length ≠ 0 := by
      simp [Nat.toDigits_ne_nil]
    split at h <;> split at h
    · exact digitChar_injOn (by omega) (by omega) (List.singleton_inj.mp h)
    · have hlength := congrArg List.length h
      rw [List.length_append,List.length_singleton,List.length_singleton] at hlength
      exact absurd (by omega) (hnonempty (m/b))
    · have hlength := congrArg List.length h
      rw [List.length_append,List.length_singleton,List.length_singleton] at hlength
      exact absurd (by omega) (hnonempty (n/b))
    · rename_i hn hm
      obtain ⟨hfront,hlast⟩ := List.append_inj' h rfl
      have hquotient := ih (n/b) (Nat.div_lt_self (by omega) hb) hfront
      have hremainder := digitChar_injOn (remainder_lt hb hdigits n) (remainder_lt hb hdigits m) (List.singleton_inj.mp hlast)
      rw [← Nat.div_add_mod n b,hquotient,hremainder,Nat.div_add_mod]

theorem isAlphanum_of_mem_toDigits (hb : 1 < b) (hdigits : b ≤ 16) {c : Char} (h : c ∈ Nat.toDigits b n) :
    c.isAlphanum = true := by
  have hdigit : ∀ i : Fin 16, (Nat.digitChar i).isAlphanum = true := by decide
  induction n using Nat.strongRecOn with
  | ind n ih =>
    rw [Nat.toDigits_eq_if hb] at h
    split at h
    · rw [List.mem_singleton.mp h]
      exact hdigit ⟨n,by omega⟩
    · rw [List.mem_append,List.mem_singleton] at h
      rcases h with hfront | rfl
      · exact ih (n/b) (Nat.div_lt_self (by omega) hb) hfront
      · exact hdigit ⟨n%b,remainder_lt hb hdigits n⟩

end Numbers
end OpenFlowController.Texts
