import Mathlib.Algebra.BigOperators.Group.List.Basic
import Mathlib.Algebra.Ring.Nat
import OpenFlowController.Memory.Access

/-! # Contiguous layouts and byte-order conversion

A layout lists the fields of a packed structure without gaps. A conversion
reverses the bytes of a number, copies an opaque field and clears padding; it is
the same function in both directions.
-/
namespace OpenFlowController.Memory

/-- Little-endian, as the host stores two bytes. -/
def le16 (mem : Bytes) (o : ℕ) : ℕ := (mem o).toNat+(mem (o+1)).toNat*256

inductive ByteOrder
  | network
  | host
  deriving DecidableEq, Repr

namespace ByteOrder

def other : ByteOrder → ByteOrder
  | network => host
  | host => network

def read16 : ByteOrder → Bytes → ℕ → ℕ
  | network => be16
  | host => le16

theorem read16_congr (order : ByteOrder) {mem mem' : Bytes} {o o' : ℕ} (h₀ : mem' o' = mem o)
    (h₁ : mem' (o'+1) = mem (o+1)) : order.read16 mem' o' = order.read16 mem o := by
  cases order with
  | network => simp only [read16,be16,h₀,h₁]
  | host => simp only [read16,le16,h₀,h₁]

end ByteOrder

inductive FieldKind
  | swap
  | copy
  | zero
  deriving DecidableEq, Repr

structure Field where
  kind : FieldKind
  width : ℕ
  deriving DecidableEq, Repr

abbrev Layout := List Field

namespace Field

/-- The byte at `i` of a converted field that starts at `o`. -/
def byte (f : Field) (o : ℕ) (src : Bytes) (i : ℕ) : UInt8 :=
  match f.kind with
  | .swap => src (2*o+f.width-1-i)
  | .copy => src i
  | .zero => 0

def convert (f : Field) (o : ℕ) (src dst : Bytes) : Bytes := fun i =>
  if o ≤ i ∧ i < o+f.width then f.byte o src i else dst i

def still (f : Field) : Field :=
  match f.kind with
  | .swap => ⟨.copy,f.width⟩
  | _ => f

def reads (f : Field) (o : ℕ) : List ℕ :=
  match f.kind with
  | .zero => []
  | _ => List.range' o f.width

@[simp] theorem width_still (f : Field) : f.still.width = f.width := by
  obtain ⟨kind,width⟩ := f
  cases kind <;> rfl

theorem byte_congr (f : Field) (o : ℕ) {src src' : Bytes} {i : ℕ} (hl : o ≤ i) (hu : i < o+f.width)
    (h : ∀ j, o ≤ j → j < o+f.width → src j = src' j) : f.byte o src i = f.byte o src' i := by
  unfold byte
  cases f.kind with
  | swap => exact h _ (by omega) (by omega)
  | copy => exact h i hl hu
  | zero => rfl

theorem byte_byte (f : Field) (o : ℕ) (src dst : Bytes) {i : ℕ} (hl : o ≤ i) (hu : i < o+f.width) :
    f.byte o (f.convert o src dst) i = f.still.byte o src i := by
  obtain ⟨kind,width⟩ := f
  cases kind with
  | swap =>
    have hr : o ≤ 2*o+width-1-i ∧ 2*o+width-1-i < o+width := by
      simp only at hu
      omega
    have hback : 2*o+width-1-(2*o+width-1-i) = i := by
      simp only at hu
      omega
    simp only [byte,convert,still,hr,and_self,if_true,hback]
  | copy => simp only [byte,convert,still,hl,hu,and_self,if_true]
  | zero => rfl

end Field

namespace Layout

def width (layout : Layout) : ℕ := (layout.map Field.width).sum

@[simp] theorem width_nil : width [] = 0 := rfl

@[simp] theorem width_cons (f : Field) (fields : Layout) : width (f :: fields) = f.width+width fields := by
  simp [width]

@[simp] theorem width_append (xs ys : Layout) : width (xs++ys) = width xs+width ys := by
  simp [width]

def convert : Layout → ℕ → Bytes → Bytes → Bytes
  | [], _, _, dst => dst
  | f :: fields, o, src, dst => convert fields (o+f.width) src (f.convert o src dst)

def cleared (layout : Layout) (o : ℕ) (src dst : Bytes) : Bytes := convert (layout.map Field.still) o src dst

def reads : Layout → ℕ → List ℕ
  | [], _ => []
  | f :: fields, o => f.reads o++reads fields (o+f.width)

def pads : Layout → ℕ → List ℕ
  | [], _ => []
  | f :: fields, o =>
    match f.kind with
    | .zero => List.range' o f.width++pads fields (o+f.width)
    | _ => pads fields (o+f.width)

def writes (layout : Layout) (o : ℕ) : List ℕ := List.range' o layout.width

theorem convert_append (xs ys : Layout) (o : ℕ) (src dst : Bytes) :
    convert (xs++ys) o src dst = convert ys (o+xs.width) src (convert xs o src dst) := by
  induction xs generalizing o dst with
  | nil => rfl
  | cons f fields ih =>
    rw [List.cons_append,convert,ih,convert,width_cons,Nat.add_assoc]

theorem reads_append (xs ys : Layout) (o : ℕ) : reads (xs++ys) o = reads xs o++reads ys (o+xs.width) := by
  induction xs generalizing o with
  | nil => rfl
  | cons f fields ih =>
    rw [List.cons_append,reads,reads,ih,width_cons,List.append_assoc,Nat.add_assoc]

theorem pads_append (xs ys : Layout) (o : ℕ) : pads (xs++ys) o = pads xs o++pads ys (o+xs.width) := by
  induction xs generalizing o with
  | nil => rfl
  | cons f fields ih =>
    obtain ⟨kind,n⟩ := f
    cases kind with
    | zero => rw [List.cons_append,pads,pads,ih,width_cons,List.append_assoc,Nat.add_assoc]
    | swap | copy => rw [List.cons_append,pads,pads,ih,width_cons,Nat.add_assoc]

theorem writes_append (xs ys : Layout) (o : ℕ) : writes (xs++ys) o = writes xs o++writes ys (o+xs.width) := by
  simp [writes]

/-- Frame: nothing outside the layout changes. -/
theorem convert_outside (layout : Layout) (o : ℕ) (src dst : Bytes) {i : ℕ}
    (hi : i < o ∨ o+layout.width ≤ i) : convert layout o src dst i = dst i := by
  induction layout generalizing o dst with
  | nil => rfl
  | cons f fields ih =>
    rw [width_cons] at hi
    rw [convert,ih _ _ (by omega),Field.convert,if_neg (by omega)]

theorem convert_congr (layout : Layout) (o : ℕ) {src src' : Bytes} (dst : Bytes)
    (h : ∀ j, o ≤ j → j < o+layout.width → src j = src' j) :
    convert layout o src dst = convert layout o src' dst := by
  induction layout generalizing o dst with
  | nil => rfl
  | cons f fields ih =>
    rw [width_cons] at h
    have hhead : f.convert o src dst = f.convert o src' dst := by
      funext i
      unfold Field.convert
      by_cases hi : o ≤ i ∧ i < o+f.width
      · rw [if_pos hi,if_pos hi]
        exact Field.byte_congr f o hi.1 hi.2 (fun j hl hu => h j hl (by omega))
      · rw [if_neg hi,if_neg hi]
    rw [convert,convert,hhead]
    exact ih _ _ (fun j hl hu => h j (by omega) (by omega))

/-- Converting twice gives the source back, padding cleared. -/
theorem convert_convert (layout : Layout) (o : ℕ) (src dst dst' : Bytes) :
    convert layout o (convert layout o src dst) dst' = cleared layout o src dst' := by
  induction layout generalizing o dst dst' with
  | nil => rfl
  | cons f fields ih =>
    have hhead : f.convert o (convert (f :: fields) o src dst) dst' = f.still.convert o src dst' := by
      funext i
      unfold Field.convert
      rw [Field.width_still]
      by_cases hi : o ≤ i ∧ i < o+f.width
      · rw [if_pos hi,if_pos hi,← Field.byte_byte f o src dst hi.1 hi.2]
        refine Field.byte_congr f o hi.1 hi.2 (fun j _ hu => ?_)
        exact convert_outside _ _ _ _ (Or.inl hu)
      · rw [if_neg hi,if_neg hi]
    have hstill : cleared (f :: fields) o src dst' =
        cleared fields (o+f.width) src (f.still.convert o src dst') := by
      rw [cleared,List.map_cons,convert,Field.width_still]
      rfl
    rw [convert,hhead,hstill]
    exact ih (o+f.width) (f.convert o src dst) _

theorem le_of_mem_pads {layout : Layout} {o i : ℕ} (h : i ∈ layout.pads o) : o ≤ i := by
  induction layout generalizing o with
  | nil => cases h
  | cons f fields ih =>
    obtain ⟨kind,width⟩ := f
    cases kind with
    | zero =>
      rcases List.mem_append.mp h with hf | hr
      · exact (List.mem_range'_1.mp hf).1
      · exact Nat.le_trans (Nat.le_add_right o width) (ih hr)
    | swap | copy => exact Nat.le_trans (Nat.le_add_right o width) (ih h)

theorem cleared_apply (layout : Layout) (o : ℕ) (src dst : Bytes) {i : ℕ} (hl : o ≤ i)
    (hu : i < o+layout.width) : cleared layout o src dst i = if i ∈ layout.pads o then 0 else src i := by
  induction layout generalizing o dst with
  | nil =>
    rw [width_nil] at hu
    omega
  | cons f fields ih =>
    obtain ⟨kind,width⟩ := f
    change i < o+(width+Layout.width fields) at hu
    by_cases hf : i < o+width
    · have hrest : i ∉ pads fields (o+width) := by
        intro h
        have hle := le_of_mem_pads h
        omega
      rw [cleared,List.map_cons,convert,convert_outside _ _ _ _ (Or.inl (by simpa using hf))]
      cases kind with
      | zero => simp [Field.convert,Field.byte,Field.still,pads,hl,hf,List.mem_range'_1]
      | swap | copy => simp [Field.convert,Field.byte,Field.still,pads,hl,hf,hrest]
    · have hpads : i ∈ pads (⟨kind,width⟩ :: fields) o ↔ i ∈ pads fields (o+width) := by
        cases kind with
        | zero => simp [pads,List.mem_range'_1,hf]
        | swap | copy => rfl
      have hstep := ih (o+width) ((Field.still ⟨kind,width⟩).convert o src dst) (by omega) (by omega)
      rw [cleared,List.map_cons,convert,Field.width_still]
      simp only [hpads]
      exact hstep

/-- A two-byte number at the front of a layout reads the same after conversion,
in the other order. -/
theorem read16_convert (order : ByteOrder) (fields : Layout) (o : ℕ) (src dst : Bytes) :
    order.other.read16 (convert (⟨.swap,2⟩ :: fields) o src dst) o = order.read16 src o := by
  have h₀ : convert (⟨.swap,2⟩ :: fields) o src dst o = src (o+1) := by
    rw [convert,convert_outside _ _ _ _ (Or.inl (by simp))]
    simp only [Field.convert,Field.byte]
    rw [if_pos (by omega),show 2*o+2-1-o = o+1 by omega]
  have h₁ : convert (⟨.swap,2⟩ :: fields) o src dst (o+1) = src o := by
    rw [convert,convert_outside _ _ _ _ (Or.inl (by simp))]
    simp only [Field.convert,Field.byte]
    rw [if_pos (by omega),show 2*o+2-1-(o+1) = o by omega]
  cases order with
  | network =>
    simp only [ByteOrder.other,ByteOrder.read16,le16,be16,h₀,h₁]
    omega
  | host =>
    simp only [ByteOrder.other,ByteOrder.read16,le16,be16,h₀,h₁]
    omega

theorem mem_writes {layout : Layout} {o i : ℕ} : i ∈ layout.writes o ↔ o ≤ i ∧ i < o+layout.width := by
  simp [writes,List.mem_range'_1]

theorem mem_reads {layout : Layout} {o i : ℕ} (h : i ∈ layout.reads o) : o ≤ i ∧ i < o+layout.width := by
  induction layout generalizing o with
  | nil => cases h
  | cons f fields ih =>
    rw [width_cons]
    rcases List.mem_append.mp h with hf | hr
    · obtain ⟨kind,width⟩ := f
      cases kind with
      | zero => cases hf
      | swap | copy =>
        have hb : o ≤ i ∧ i < o+width := List.mem_range'_1.mp hf
        change o ≤ i ∧ i < o+(width+Layout.width fields)
        omega
    · have hb := ih hr
      omega

end Layout
end OpenFlowController.Memory
