import Mathlib.Data.Set.Card

/-! # Finite maps as histories

A key stands for its class under `compare`. What a map holds after a sequence of
calls is read off the calls alone: the latest insert for an equal key that no
delete has followed.
-/
namespace OpenFlowController.Table

/-- The two functions a table is created with, and what they have to satisfy. -/
structure KeyOps (K : Type) where
  compare : K → K → Bool
  hash : K → UInt32
  compare_refl (x : K) : compare x x = true
  compare_symm {x y : K} : compare x y = true → compare y x = true
  compare_trans {x y z : K} : compare x y = true → compare y z = true → compare x z = true
  hash_eq {x y : K} : compare x y = true → hash x = hash y

inductive TableCall (K V : Type)
  | insert (key : K) (value : Option V)
  | delete (key : K)
  | lookup (key : K)

def TableCall.key {K V : Type} : TableCall K V → K
  | .insert key _ => key
  | .delete key => key
  | .lookup key => key

variable {K V : Type} (ops : KeyOps K)

def KeyOps.setoid : Setoid K where
  r x y := ops.compare x y = true
  iseqv := ⟨ops.compare_refl,ops.compare_symm,ops.compare_trans⟩

theorem KeyOps.compare_comm (x y : K) : ops.compare x y = ops.compare y x :=
  Bool.eq_iff_iff.mpr ⟨ops.compare_symm,ops.compare_symm⟩

theorem KeyOps.compare_congr {x y : K} (h : ops.compare x y = true) (z : K) :
    ops.compare x z = ops.compare y z :=
  Bool.eq_iff_iff.mpr ⟨ops.compare_trans (ops.compare_symm h),ops.compare_trans h⟩

/-- What is bound to a key after the given calls, the latest one first. The bound
value itself may be NULL. -/
def latest : List (TableCall K V) → K → Option (Option V)
  | [], _ => none
  | .insert key value :: past, k => if ops.compare k key then some value else latest past k
  | .delete key :: past, k => if ops.compare k key then none else latest past k
  | .lookup _ :: past, k => latest past k

def boundKeys (past : List (TableCall K V)) : Set (Quotient ops.setoid) :=
  Quotient.mk ops.setoid '' {k | (latest ops past k).isSome}

/-- The value found for a key among bindings listed one for each class. -/
def bindingOf (bindings : List (K × Option V)) (k : K) : Option (Option V) :=
  (bindings.find? (fun b => ops.compare k b.1)).map Prod.snd

def Apart (bindings : List (K × Option V)) : Prop :=
  bindings.Pairwise (fun b c => ops.compare b.1 c.1 = false)

variable {ops} {bindings xs ys : List (K × Option V)} {k : K}

theorem bindingOf_append : bindingOf ops (xs++ys) k = (bindingOf ops xs k).or (bindingOf ops ys k) := by
  simp only [bindingOf,List.find?_append]
  cases xs.find? (fun b => ops.compare k b.1) <;> simp

theorem bindingOf_eq_none_iff : bindingOf ops bindings k = none ↔ ∀ b ∈ bindings, ops.compare k b.1 = false := by
  simp [bindingOf,List.find?_eq_none]

theorem bindingOf_congr {j : K} (h : ops.compare j k = true) : bindingOf ops bindings j = bindingOf ops bindings k := by
  have hfun : (fun b : K × Option V => ops.compare j b.1) = fun b => ops.compare k b.1 := by
    funext b
    exact ops.compare_congr h b.1
  rw [bindingOf,hfun,bindingOf]

theorem bindingOf_middle {b : K × Option V} (ha : Apart ops (xs++b :: ys)) :
    bindingOf ops (xs++b :: ys) k =
      if ops.compare k b.1 then some b.2 else bindingOf ops (xs++ys) k := by
  obtain ⟨-,-,hcross⟩ := List.pairwise_append.mp ha
  by_cases hk : ops.compare k b.1 = true
  · have hx : bindingOf ops xs k = none := by
      apply bindingOf_eq_none_iff.mpr
      intro c hc
      have hcb := hcross c hc b List.mem_cons_self
      rw [ops.compare_comm] at hcb
      rw [ops.compare_congr hk]
      exact hcb
    rw [bindingOf_append,hx,if_pos hk]
    simp [bindingOf,hk]
  · rw [if_neg hk,bindingOf_append,bindingOf_append]
    simp [bindingOf,hk]

theorem bindingOf_erase {b : K × Option V} (ha : Apart ops (xs++b :: ys)) :
    bindingOf ops (xs++ys) k = if ops.compare k b.1 then none else bindingOf ops (xs++b :: ys) k := by
  rw [bindingOf_middle ha]
  by_cases hk : ops.compare k b.1 = true
  · rw [if_pos hk]
    apply bindingOf_eq_none_iff.mpr
    have hperm : Apart ops (b :: (xs++ys)) := by
      apply (List.perm_middle.pairwise_iff ?_).mp ha
      intro c d hcd
      rw [ops.compare_comm]
      exact hcd
    intro c hc
    rw [ops.compare_congr hk]
    exact (List.pairwise_cons.mp hperm).1 c hc
  · rw [if_neg hk,if_neg hk]

/-- Bindings that are apart and agree with a history are as many as its bound keys. -/
theorem ncard_boundKeys {past : List (TableCall K V)} (ha : Apart ops bindings)
    (hb : ∀ k, bindingOf ops bindings k = latest ops past k) :
    (boundKeys ops past).ncard = bindings.length := by
  classical
  have hset : boundKeys ops past =
      ((bindings.map (fun b => Quotient.mk ops.setoid b.1)).toFinset : Set (Quotient ops.setoid)) := by
    ext c
    simp only [boundKeys,Set.mem_image,Set.mem_ofPred_eq,List.coe_toFinset,List.mem_map,← hb]
    constructor
    · intro h
      obtain ⟨k,hk,rfl⟩ := h
      obtain ⟨v,hv⟩ := Option.isSome_iff_exists.mp hk
      obtain ⟨b,hf,-⟩ := Option.map_eq_some_iff.mp hv
      have hkb := List.find?_some hf
      exact ⟨b,List.mem_of_find?_eq_some hf,Quotient.sound (ops.compare_symm hkb)⟩
    · intro h
      obtain ⟨b,hmem,rfl⟩ := h
      refine ⟨b.1,?_,rfl⟩
      rw [Option.isSome_iff_ne_none]
      intro hn
      have hbb := bindingOf_eq_none_iff.mp hn b hmem
      rw [ops.compare_refl] at hbb
      cases hbb
  have hnodup : (bindings.map (fun b => Quotient.mk ops.setoid b.1)).Nodup := by
    apply List.pairwise_map.mpr
    apply ha.imp
    intro b c hbc heq
    have hrel : ops.compare b.1 c.1 = true := Quotient.exact heq
    rw [hrel] at hbc
    cases hbc
  rw [hset,Set.ncard_coe_finset,List.toFinset_card_of_nodup hnodup,List.length_map]

end OpenFlowController.Table
