import OpenFlowController.Memory.Blocks
import OpenFlowController.Memory.Layout

/-! # Reading a converted structure

Field by field, what memory holds where a structure has been converted to.
-/
namespace OpenFlowController.Memory

/-- Little-endian, as the host stores four bytes. -/
def le32 (mem : Bytes) (o : ℕ) : ℕ := le16 mem o+le16 mem (o+2)*65536

def ByteOrder.read32 : ByteOrder → Bytes → ℕ → ℕ
  | .network => be32
  | .host => le32

theorem ByteOrder.read16_window (order : ByteOrder) (mem : Bytes) (o i : ℕ) :
    order.read16 (window mem o) i = order.read16 mem (o+i) := by
  cases order <;> rfl

theorem ByteOrder.read32_congr (order : ByteOrder) {mem mem' : Bytes} {o o' : ℕ}
    (h : ∀ i < 4, mem' (o'+i) = mem (o+i)) : order.read32 mem' o' = order.read32 mem o := by
  have h₀ : mem' o' = mem o := h 0 (by decide)
  have h₁ : mem' (o'+1) = mem (o+1) := h 1 (by decide)
  have h₂ : mem' (o'+2) = mem (o+2) := h 2 (by decide)
  have h₃ : mem' (o'+3) = mem (o+3) := h 3 (by decide)
  cases order with
  | network => simp only [read32,be32,be16,Nat.add_assoc,Nat.reduceAdd,h₀,h₁,h₂,h₃]
  | host => simp only [read32,le32,le16,Nat.add_assoc,Nat.reduceAdd,h₀,h₁,h₂,h₃]

theorem le16_lt (mem : Bytes) (o : ℕ) : le16 mem o < 65536 := by
  have h₀ := (mem o).toNat_lt
  have h₁ := (mem (o+1)).toNat_lt
  unfold le16
  omega

def Field.Converted (f : Field) (o : ℕ) (src dst : Bytes) : Prop :=
  ∀ i, o ≤ i → i < o+f.width → dst i = f.byte o src i

namespace Field
variable {o n : ℕ} {src dst : Bytes}

theorem Converted.swapped (h : Converted ⟨.swap,n⟩ o src dst) {i : ℕ} (hi : i < n) :
    dst (o+i) = src (o+(n-1-i)) := by
  have hb := h (o+i) (by omega) (by simpa using hi)
  rw [hb,byte,show 2*o+n-1-(o+i) = o+(n-1-i) by omega]

theorem Converted.read16 (h : Converted ⟨.swap,2⟩ o src dst) (order : ByteOrder) :
    order.other.read16 dst o = order.read16 src o := by
  have h₀ : dst o = src (o+1) := h.swapped (show 0 < 2 by decide)
  have h₁ : dst (o+1) = src o := h.swapped (show 1 < 2 by decide)
  cases order with
  | network =>
    simp only [ByteOrder.other,ByteOrder.read16,le16,be16,h₀,h₁]
    omega
  | host =>
    simp only [ByteOrder.other,ByteOrder.read16,le16,be16,h₀,h₁]
    omega

theorem Converted.read32 (h : Converted ⟨.swap,4⟩ o src dst) (order : ByteOrder) :
    order.other.read32 dst o = order.read32 src o := by
  have h₀ : dst o = src (o+3) := h.swapped (show 0 < 4 by decide)
  have h₁ : dst (o+1) = src (o+2) := h.swapped (show 1 < 4 by decide)
  have h₂ : dst (o+2) = src (o+1) := h.swapped (show 2 < 4 by decide)
  have h₃ : dst (o+3) = src o := h.swapped (show 3 < 4 by decide)
  cases order with
  | network =>
    simp only [ByteOrder.other,ByteOrder.read32,le32,be32,le16,be16,Nat.add_assoc,Nat.reduceAdd,h₀,h₁,h₂,h₃]
    omega
  | host =>
    simp only [ByteOrder.other,ByteOrder.read32,le32,be32,le16,be16,Nat.add_assoc,Nat.reduceAdd,h₀,h₁,h₂,h₃]
    omega

theorem Converted.copied (h : Converted ⟨.copy,n⟩ o src dst) {i : ℕ} (hi : i < n) : dst (o+i) = src (o+i) :=
  h (o+i) (by omega) (by simpa using hi)

end Field

namespace Layout
variable {layout : Layout} {o : ℕ} {src dst : Bytes}

def Converted : Layout → ℕ → Bytes → Bytes → Prop
  | [], _, _, _ => True
  | f :: fields, o, src, dst => f.Converted o src dst ∧ Converted fields (o+f.width) src dst

theorem Converted.congr {dst' : Bytes} (h : Converted layout o src dst)
    (he : ∀ i, o ≤ i → i < o+layout.width → dst' i = dst i) : Converted layout o src dst' := by
  induction layout generalizing o with
  | nil => trivial
  | cons f fields ih =>
    rw [width_cons] at he
    refine ⟨fun i hl hu => ?_,ih h.2 (fun i hl hu => he i (by omega) (by omega))⟩
    rw [he i hl (by omega)]
    exact h.1 i hl hu

theorem converted_convert (layout : Layout) (o : ℕ) (src dst : Bytes) :
    Converted layout o src (convert layout o src dst) := by
  induction layout generalizing o dst with
  | nil => trivial
  | cons f fields ih =>
    refine ⟨fun i hl hu => ?_,ih _ _⟩
    rw [convert,convert_outside _ _ _ _ (Or.inl hu),Field.convert,if_pos ⟨hl,hu⟩]

theorem converted_append {xs ys : Layout} :
    Converted (xs++ys) o src dst ↔ Converted xs o src dst ∧ Converted ys (o+xs.width) src dst := by
  induction xs generalizing o with
  | nil => simp [Converted]
  | cons f fields ih =>
    rw [List.cons_append,Converted,ih,Converted,width_cons,Nat.add_assoc,and_assoc]

/-- A conversion depends on nothing it overwrites. -/
theorem Converted.eq_convert (h : Converted layout o src dst) (before : Bytes) {i : ℕ} (hl : o ≤ i)
    (hu : i < o+layout.width) : dst i = convert layout o src before i := by
  induction layout generalizing o before with
  | nil =>
    rw [width_nil] at hu
    omega
  | cons f fields ih =>
    rw [width_cons] at hu
    by_cases hi : i < o+f.width
    · rw [convert,convert_outside _ _ _ _ (Or.inl hi),Field.convert,if_pos ⟨hl,hi⟩]
      exact h.1 i hl hi
    · exact ih h.2 _ (by omega) (by omega)

/-- Converted back, the source is read again with its padding cleared. -/
theorem Converted.back (h : Converted layout o src dst) (before : Bytes) {i : ℕ} (hl : o ≤ i)
    (hu : i < o+layout.width) : convert layout o dst before i = if i ∈ layout.pads o then 0 else src i := by
  rw [convert_congr layout o before (fun j => h.eq_convert dst),convert_convert]
  exact cleared_apply layout o src before hl hu

end Layout
end OpenFlowController.Memory
