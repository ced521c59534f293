import Mathlib.Data.List.Basic
import Mathlib.Logic.Relation

/-! # Byte reads with their footprint

A computation reads bytes by offset from a memory that is total: what lies after
the object under inspection is unknown but readable. A run has fuel for its
loops; without enough of it there is no outcome. The footprint lists the offsets
read, in order, in either case, and more fuel never takes anything back.
-/
namespace OpenFlowController.Memory

abbrev Bytes := ℕ → UInt8

/-- Network byte order, two bytes. -/
def be16 (mem : Bytes) (o : ℕ) : ℕ := (mem o).toNat*256+(mem (o+1)).toNat

def be32 (mem : Bytes) (o : ℕ) : ℕ := be16 mem o*65536+be16 mem (o+2)

theorem be16_lt (mem : Bytes) (o : ℕ) : be16 mem o < 65536 := by
  have h₀ := (mem o).toNat_lt
  have h₁ := (mem (o+1)).toNat_lt
  unfold be16
  omega

theorem be32_lt (mem : Bytes) (o : ℕ) : be32 mem o < 4294967296 := by
  have h₀ := be16_lt mem o
  have h₁ := be16_lt mem (o+2)
  unfold be32
  omega

/-- A difference stored in a `uint16_t`. -/
def sub16 (a b : ℕ) : ℕ := (a+65536-b)%65536

theorem sub16_of_le {a b : ℕ} (hb : b ≤ a) (ha : a < 65536) : sub16 a b = a-b := by
  unfold sub16
  omega

theorem sub16_lt (a b : ℕ) : sub16 a b < 65536 := Nat.mod_lt _ (by decide)

abbrev Trace (α : Type) := Option α × List ℕ

namespace Trace
variable {α β : Type}

/-- `y` has got at least as far as `x`. -/
def Extends (x y : Trace α) : Prop := x = y ∨ x.1 = none ∧ x.2 ⊆ y.2

def followedBy (x : Trace α) (f : α → Trace β) : Trace β :=
  match x with
  | (none,read) => (none,read)
  | (some a,read) => ((f a).1,read++(f a).2)

theorem Extends.refl (x : Trace α) : Extends x x := Or.inl rfl

theorem Extends.trans {x y z : Trace α} (hxy : Extends x y) (hyz : Extends y z) : Extends x z := by
  rcases hxy with rfl | ⟨hn,hs⟩
  · exact hyz
  · rcases hyz with rfl | ⟨-,hs'⟩
    · exact Or.inr ⟨hn,hs⟩
    · exact Or.inr ⟨hn,List.Subset.trans hs hs'⟩

theorem Extends.subset {x y : Trace α} (h : Extends x y) : x.2 ⊆ y.2 := by
  rcases h with rfl | ⟨-,hs⟩
  · exact List.Subset.refl _
  · exact hs

theorem Extends.value {x y : Trace α} (h : Extends x y) {a : α} (ha : x.1 = some a) : y.1 = some a := by
  rcases h with rfl | ⟨hn,-⟩
  · exact ha
  · rw [hn] at ha
    cases ha

theorem Extends.followedBy {x y : Trace α} {f g : α → Trace β} (h : Extends x y)
    (hfg : ∀ a, Extends (f a) (g a)) : Extends (x.followedBy f) (y.followedBy g) := by
  obtain ⟨a?,read⟩ := x
  rcases h with rfl | ⟨rfl,hs⟩
  · cases a? with
    | none => exact Extends.refl _
    | some a =>
      rcases hfg a with he | ⟨hn,hs⟩
      · left
        simp only [Trace.followedBy,he]
      · right
        exact ⟨hn,List.append_subset.mpr
          ⟨List.subset_append_left _ _,List.Subset.trans hs (List.subset_append_right _ _)⟩⟩
  · right
    refine ⟨rfl,?_⟩
    obtain ⟨b?,read'⟩ := y
    cases b? with
    | none => exact hs
    | some b => exact List.Subset.trans hs (List.subset_append_left _ _)

end Trace

structure Access (α : Type) where
  run : ℕ → Bytes → Trace α
  grows : ∀ fuel mem, Trace.Extends (run fuel mem) (run (fuel+1) mem)

namespace Access
variable {α β σ ρ : Type}

def starve : Access α := ⟨fun _ _ => (none,[]),fun _ _ => Trace.Extends.refl _⟩

instance : Monad Access where
  pure a := ⟨fun _ _ => (some a,[]),fun _ _ => Trace.Extends.refl _⟩
  bind x f := ⟨fun fuel mem => (x.run fuel mem).followedBy (fun a => (f a).run fuel mem),
    fun fuel mem => (x.grows fuel mem).followedBy (fun a => (f a).grows fuel mem)⟩

def byteAt (o : ℕ) : Access ℕ :=
  ⟨fun _ mem => (some (mem o).toNat,[o]),fun _ _ => Trace.Extends.refl _⟩

def ntohsAt (o : ℕ) : Access ℕ := do
  let hi ← byteAt o
  let lo ← byteAt (o+1)
  return hi*256+lo

def ntohlAt (o : ℕ) : Access ℕ := do
  let hi ← ntohsAt o
  let lo ← ntohsAt (o+2)
  return hi*65536+lo

def bytesAt (o : ℕ) : ℕ → Access (List ℕ)
  | 0 => pure []
  | len+1 => do
    let b ← byteAt o
    let rest ← bytesAt (o+1) len
    return b :: rest

def iterate (body : σ → Access (σ ⊕ ρ)) : ℕ → σ → Access ρ
  | 0, _ => starve
  | count+1, s => do
    match ← body s with
    | .inl s => iterate body count s
    | .inr r => return r

theorem run_bind (x : Access α) (f : α → Access β) (fuel : ℕ) (mem : Bytes) :
    (x >>= f).run fuel mem = (x.run fuel mem).followedBy (fun a => (f a).run fuel mem) := rfl

theorem iterate_extends (body : σ → Access (σ ⊕ ρ)) (count fuel : ℕ) (s : σ) (mem : Bytes) :
    Trace.Extends ((iterate body count s).run fuel mem) ((iterate body (count+1) s).run (fuel+1) mem) := by
  induction count generalizing s with
  | zero => exact Or.inr ⟨rfl,List.nil_subset _⟩
  | succ count ih =>
    refine ((body s).grows fuel mem).followedBy (fun a => ?_)
    cases a with
    | inl s => exact ih s
    | inr r => exact Trace.Extends.refl _

/-- Run the body from state to state until it answers. -/
def loop (body : σ → Access (σ ⊕ ρ)) (s : σ) : Access ρ :=
  ⟨fun fuel mem => (iterate body fuel s).run fuel mem,
    fun fuel mem => iterate_extends body fuel fuel s mem⟩

/-- Some amount of fuel gives the outcome `a`. -/
def Returns (x : Access α) (mem : Bytes) (a : α) : Prop := ∃ fuel, (x.run fuel mem).1 = some a

/-- Whatever the fuel, every offset read lies below `n`. -/
def Within (n : ℕ) (x : Access α) (mem : Bytes) : Prop := ∀ fuel, ∀ o ∈ (x.run fuel mem).2, o < n

theorem extends_of_le (x : Access α) (mem : Bytes) {j k : ℕ} (h : j ≤ k) :
    Trace.Extends (x.run j mem) (x.run k mem) := by
  induction h with
  | refl => exact Trace.Extends.refl _
  | step _ ih => exact ih.trans (x.grows _ mem)

theorem Returns.unique {x : Access α} {mem : Bytes} {a b : α} (ha : Returns x mem a)
    (hb : Returns x mem b) : a = b := by
  obtain ⟨j,hj⟩ := ha
  obtain ⟨k,hk⟩ := hb
  have hj' := (extends_of_le x mem (Nat.le_max_left j k)).value hj
  have hk' := (extends_of_le x mem (Nat.le_max_right j k)).value hk
  exact Option.some.inj (hj'.symm.trans hk')

section Rules
variable {n : ℕ} {mem : Bytes}

@[simp] theorem returns_starve (a : α) : ¬ Returns (starve : Access α) mem a := by simp [Returns,starve]
@[simp] theorem within_starve : Within n (starve : Access α) mem := by simp [Within,starve]

@[simp] theorem returns_pure (a b : α) : Returns (pure a : Access α) mem b ↔ a = b := by
  simp [Returns,pure]

@[simp] theorem within_pure (a : α) : Within n (pure a : Access α) mem := by simp [Within,pure]

@[simp] theorem returns_bind (x : Access α) (f : α → Access β) (b : β) :
    Returns (x >>= f) mem b ↔ ∃ a, Returns x mem a ∧ Returns (f a) mem b := by
  constructor
  · rintro ⟨fuel,h⟩
    rw [run_bind,Trace.followedBy.eq_def] at h
    split at h
    · cases h
    · rename_i a read heq
      exact ⟨a,⟨fuel,by rw [heq]⟩,fuel,h⟩
  · rintro ⟨a,⟨j,hj⟩,k,hk⟩
    have hj' := (extends_of_le x mem (Nat.le_max_left j k)).value hj
    have hk' := (extends_of_le (f a) mem (Nat.le_max_right j k)).value hk
    refine ⟨max j k,?_⟩
    rw [run_bind]
    generalize x.run (max j k) mem = t at hj' ⊢
    obtain ⟨v,read⟩ := t
    cases hj'
    exact hk'

@[simp] theorem within_bind (x : Access α) (f : α → Access β) :
    Within n (x >>= f) mem ↔ Within n x mem ∧ ∀ a, Returns x mem a → Within n (f a) mem := by
  constructor
  · intro h
    refine ⟨fun fuel o ho => h fuel o ?_,?_⟩
    · rw [run_bind,Trace.followedBy.eq_def]
      split
      · rename_i heq
        rwa [heq] at ho
      · rename_i heq
        rw [heq] at ho
        exact List.mem_append_left _ ho
    · rintro a ⟨j,hj⟩ k o ho
      have hj' := (extends_of_le x mem (Nat.le_max_left j k)).value hj
      have ho' := (extends_of_le (f a) mem (Nat.le_max_right j k)).subset ho
      refine h (max j k) o ?_
      rw [run_bind]
      generalize x.run (max j k) mem = t at hj' ⊢
      obtain ⟨v,read⟩ := t
      cases hj'
      exact List.mem_append_right _ ho'
  · rintro ⟨hx,hf⟩ fuel o ho
    rw [run_bind,Trace.followedBy.eq_def] at ho
    split at ho
    · rename_i heq
      exact hx fuel o (by rw [heq]; exact ho)
    · rename_i a read heq
      rcases List.mem_append.mp ho with ho | ho
      · exact hx fuel o (by rw [heq]; exact ho)
      · exact hf a ⟨fuel,by rw [heq]⟩ fuel o ho

@[simp] theorem returns_ite (c : Prop) [Decidable c] (x y : Access α) (a : α) :
    Returns (if c then x else y) mem a ↔ if c then Returns x mem a else Returns y mem a := by
  split <;> rfl

@[simp] theorem within_ite (c : Prop) [Decidable c] (x y : Access α) :
    Within n (if c then x else y) mem ↔ (c → Within n x mem) ∧ (¬ c → Within n y mem) := by
  split <;> simp_all

@[simp] theorem returns_byteAt (o a : ℕ) : Returns (byteAt o) mem a ↔ (mem o).toNat = a := by
  simp [Returns,byteAt]

@[simp] theorem returns_ntohsAt (o a : ℕ) : Returns (ntohsAt o) mem a ↔ be16 mem o = a := by
  simp [ntohsAt,be16]

@[simp] theorem returns_ntohlAt (o a : ℕ) : Returns (ntohlAt o) mem a ↔ be32 mem o = a := by
  simp [ntohlAt,be32]

@[simp] theorem within_byteAt (o : ℕ) : Within n (byteAt o) mem ↔ o < n := by
  simp [Within,byteAt]

@[simp] theorem within_ntohsAt (o : ℕ) : Within n (ntohsAt o) mem ↔ o+1 < n := by
  simp only [ntohsAt,within_bind,within_byteAt,returns_byteAt,within_pure,forall_eq',implies_true,and_true]
  omega

@[simp] theorem within_ntohlAt (o : ℕ) : Within n (ntohlAt o) mem ↔ o+3 < n := by
  simp only [ntohlAt,within_bind,within_ntohsAt,returns_ntohsAt,within_pure,forall_eq',implies_true,and_true]
  omega

@[simp] theorem returns_bytesAt (o len : ℕ) (bytes : List ℕ) :
    Returns (bytesAt o len) mem bytes ↔ (List.range' o len).map (fun i => (mem i).toNat) = bytes := by
  induction len generalizing o bytes with
  | zero => simp [bytesAt]
  | succ len ih => simp [bytesAt,ih,List.range'_succ]

theorem within_bytesAt (o len : ℕ) : Within n (bytesAt o len) mem ↔ (0 < len → o+len ≤ n) := by
  induction len generalizing o with
  | zero => simp [bytesAt]
  | succ len ih =>
    simp only [bytesAt,within_bind,within_byteAt,returns_byteAt,ih,returns_bytesAt,within_pure,
      forall_eq',implies_true,and_true]
    omega

end Rules

section Loop
variable {n : ℕ} {mem : Bytes} (body : σ → Access (σ ⊕ ρ))

def Turns (mem : Bytes) (s s' : σ) : Prop := Returns (body s) mem (.inl s')

def Reaches (mem : Bytes) : σ → σ → Prop := Relation.ReflTransGen (Turns body mem)

theorem returns_iterate_iff (s : σ) (r : ρ) : (∃ count, Returns (iterate body count s) mem r) ↔
    ∃ s', Reaches body mem s s' ∧ Returns (body s') mem (.inr r) := by
  constructor
  · rintro ⟨count,h⟩
    induction count generalizing s with
    | zero => simp [iterate] at h
    | succ count ih =>
      rw [iterate,returns_bind] at h
      obtain ⟨a,ha,hr⟩ := h
      cases a with
      | inl t =>
        obtain ⟨s',hs',hr'⟩ := ih t hr
        exact ⟨s',.head ha hs',hr'⟩
      | inr r' =>
        obtain rfl := (returns_pure _ _).mp hr
        exact ⟨s,.refl,ha⟩
  · rintro ⟨s',hs',hr⟩
    induction hs' using Relation.ReflTransGen.head_induction_on with
    | refl =>
      refine ⟨1,?_⟩
      rw [iterate,returns_bind]
      exact ⟨_,hr,(returns_pure _ _).mpr rfl⟩
    | head ht _ ih =>
      obtain ⟨count,hc⟩ := ih
      refine ⟨count+1,?_⟩
      rw [iterate,returns_bind]
      exact ⟨_,ht,hc⟩

theorem iterate_extends_of_le {i j k l : ℕ} (hij : i ≤ j) (hkl : k ≤ l) (s : σ) :
    Trace.Extends ((iterate body i s).run k mem) ((iterate body j s).run l mem) := by
  induction i generalizing s j with
  | zero => exact Or.inr ⟨rfl,List.nil_subset _⟩
  | succ i ih =>
    obtain ⟨m,rfl⟩ := Nat.exists_eq_add_of_le' hij
    refine (extends_of_le (body s) mem hkl).followedBy (fun a => ?_)
    cases a with
    | inl s => exact ih (Nat.le_add_left i m) s
    | inr r => exact Trace.Extends.refl _

theorem returns_loop (s : σ) (r : ρ) : Returns (loop body s) mem r ↔
    ∃ s', Reaches body mem s s' ∧ Returns (body s') mem (.inr r) := by
  rw [← returns_iterate_iff]
  constructor
  · rintro ⟨fuel,h⟩
    exact ⟨fuel,fuel,h⟩
  · rintro ⟨count,fuel,h⟩
    exact ⟨max count fuel,(iterate_extends_of_le body (Nat.le_max_left _ _) (Nat.le_max_right _ _) s).value h⟩

theorem within_iterate_iff (s : σ) : (∀ count, Within n (iterate body count s) mem) ↔
    Within n (body s) mem ∧ ∀ s', Turns body mem s s' → ∀ count, Within n (iterate body count s') mem := by
  constructor
  · intro h
    refine ⟨?_,fun s' hs' count => ?_⟩
    · have h₁ := h 1
      rw [iterate,within_bind] at h₁
      exact h₁.1
    · have h₁ := h (count+1)
      rw [iterate,within_bind] at h₁
      exact h₁.2 (.inl s') hs'
  · rintro ⟨hb,ht⟩ count
    cases count with
    | zero => exact within_starve
    | succ count =>
      rw [iterate,within_bind]
      refine ⟨hb,fun a ha => ?_⟩
      cases a with
      | inl s' => exact ht s' ha count
      | inr r => exact within_pure r

theorem within_loop_iff_iterate (s : σ) :
    Within n (loop body s) mem ↔ ∀ count, Within n (iterate body count s) mem := by
  constructor
  · intro h count fuel o ho
    exact h (max count fuel) o
      ((iterate_extends_of_le body (Nat.le_max_left _ _) (Nat.le_max_right _ _) s).subset ho)
  · intro h fuel o ho
    exact h fuel fuel o ho

theorem within_loop (s : σ) :
    Within n (loop body s) mem ↔ ∀ s', Reaches body mem s s' → Within n (body s') mem := by
  rw [within_loop_iff_iterate]
  constructor
  · intro h s' hs'
    have hall : ∀ count, Within n (iterate body count s') mem := by
      induction hs' with
      | refl => exact h
      | tail _ ht ih => exact ((within_iterate_iff body _).mp ih).2 _ ht
    exact ((within_iterate_iff body s').mp hall).1
  · intro h count
    induction count generalizing s with
    | zero => exact within_starve
    | succ count ih =>
      rw [iterate,within_bind]
      refine ⟨h s .refl,fun a ha => ?_⟩
      cases a with
      | inl s' => exact ih s' (fun t ht => h t (.head ha ht))
      | inr r => exact within_pure r

end Loop
end Access
/-- A loop that has fuel and no footprint: a turn ends it, or goes on from the state it
comes to. -/
structure FuelLoop {σ : Type} (loop : ℕ → σ → Option σ) : Prop where
  starved : ∀ s, loop 0 s = none
  turn : ∀ s, (∀ fuel, loop (fuel+1) s = some s) ∨ ∃ next : Option σ, ∀ fuel, loop (fuel+1) s = next.bind (loop fuel)

namespace FuelLoop
variable {σ : Type} {loop : ℕ → σ → Option σ} {fuel fuel' : ℕ} {s r r' : σ}

theorem succ_of_run (h : FuelLoop loop) (hrun : loop fuel s = some r) : ∃ k, fuel = k+1 := by
  cases fuel with
  | zero =>
    rw [h.starved] at hrun
    cases hrun
  | succ k => exact ⟨k,rfl⟩

/-- More fuel does not change the result. -/
theorem mono (h : FuelLoop loop) (hrun : loop fuel s = some r) (hle : fuel ≤ fuel') : loop fuel' s = some r := by
  induction fuel generalizing s fuel' with
  | zero =>
    rw [h.starved] at hrun
    cases hrun
  | succ fuel ih =>
    obtain ⟨k,rfl⟩ := Nat.exists_eq_add_of_le' (Nat.one_le_of_lt hle)
    rcases h.turn s with hstop | ⟨next,hnext⟩
    · rw [hstop] at hrun ⊢
      exact hrun
    · rw [hnext] at hrun ⊢
      obtain ⟨t,rfl,hrest⟩ := Option.bind_eq_some_iff.mp hrun
      exact ih hrest (Nat.le_of_succ_le_succ hle)

theorem unique (h : FuelLoop loop) (hrun : loop fuel s = some r) (hrun' : loop fuel' s = some r') : r = r' := by
  have hmax := h.mono hrun (Nat.le_max_left fuel fuel')
  have hmax' := h.mono hrun' (Nat.le_max_right fuel fuel')
  exact Option.some.inj (hmax.symm.trans hmax')

end FuelLoop
end OpenFlowController.Memory
