import OpenFlowController.Convert.FlowStats

/-! # Well-formed action lists and their conversion

A shape says of one action what its converters depend on: its type and its
length. Over well-formed actions both loops are one conversion of one layout.
-/
namespace OpenFlowController.Convert
open Memory Protocol

/-- The size of an action's structure, without the body of a vendor action. -/
def structLength : OfpActionType → ℕ
  | .ofpatSetDlSrc | .ofpatSetDlDst | .ofpatEnqueue => 16
  | _ => 8

/-- The members `pad` of an action's structure, as `openflow.h` declares them. -/
def actionPadding : OfpActionType → List ℕ
  | .ofpatSetVlanVid | .ofpatSetTpSrc | .ofpatSetTpDst => [6,7]
  | .ofpatSetVlanPcp | .ofpatSetNwTos => [5,6,7]
  | .ofpatStripVlan => [4,5,6,7]
  | .ofpatSetDlSrc | .ofpatSetDlDst => [10,11,12,13,14,15]
  | .ofpatEnqueue => [6,7,8,9,10,11]
  | .ofpatOutput | .ofpatSetNwSrc | .ofpatSetNwDst | .ofpatVendor => []

structure ActionShape where
  type : OfpActionType
  len : ℕ
  sized : if type = .ofpatVendor then 8 ≤ len else len = structLength type

namespace ActionShape

def layout (shape : ActionShape) : Layout :=
  match shape.type with
  | .ofpatOutput => ofpActionOutput
  | .ofpatSetVlanVid => ofpActionVlanVid
  | .ofpatSetVlanPcp => ofpActionVlanPcp
  | .ofpatStripVlan => ofpActionHeader
  | .ofpatSetDlSrc | .ofpatSetDlDst => ofpActionDlAddr
  | .ofpatSetNwSrc | .ofpatSetNwDst => ofpActionNwAddr
  | .ofpatSetNwTos => ofpActionNwTos
  | .ofpatSetTpSrc | .ofpatSetTpDst => ofpActionTpPort
  | .ofpatEnqueue => ofpActionEnqueue
  | .ofpatVendor => ofpActionVendorHeader++[⟨.copy,shape.len-8⟩]

theorem eight_le (shape : ActionShape) : 8 ≤ shape.len := by
  obtain ⟨type,len,sized⟩ := shape
  cases type <;> simp [structLength] at sized <;> simp only <;> omega

@[simp] theorem width_layout (shape : ActionShape) : shape.layout.width = shape.len := by
  obtain ⟨type,len,sized⟩ := shape
  cases type <;> simp [structLength] at sized <;> simp only [layout]
  case ofpatVendor =>
    rw [Layout.width_append]
    change 8+(len-8+0) = len
    omega
  all_goals rw [sized]; rfl

/-- What a converter clears is the padding, and nothing else. -/
theorem pads_layout (shape : ActionShape) (ah : ℕ) :
    shape.layout.pads ah = (actionPadding shape.type).map (ah+·) := by
  obtain ⟨type,len,sized⟩ := shape
  cases type <;> rfl

theorem layout_eq (shape : ActionShape) : ∃ rest, shape.layout = ⟨.swap,2⟩ :: ⟨.swap,2⟩ :: rest := by
  obtain ⟨type,len,sized⟩ := shape
  cases type <;> exact ⟨_,rfl⟩

end ActionShape

structure HasAction (order : ByteOrder) (mem : Bytes) (ah : ℕ) (shape : ActionShape) : Prop where
  type : order.read16 mem ah = shape.type.value
  len : order.read16 mem (ah+2) = shape.len

def HasActions (order : ByteOrder) (mem : Bytes) : ℕ → List ActionShape → Prop
  | _, [] => True
  | ah, shape :: shapes => HasAction order mem ah shape ∧ HasActions order mem (ah+shape.len) shapes

def actionsLayout (shapes : List ActionShape) : Layout := shapes.flatMap ActionShape.layout

def actionsWidth (shapes : List ActionShape) : ℕ := (shapes.map ActionShape.len).sum

def actionsPadding : ℕ → List ActionShape → List ℕ
  | _, [] => []
  | ah, shape :: shapes => (actionPadding shape.type).map (ah+·)++actionsPadding (ah+shape.len) shapes

@[simp] theorem actionsLayout_cons (shape : ActionShape) (shapes : List ActionShape) :
    actionsLayout (shape :: shapes) = shape.layout++actionsLayout shapes := rfl

@[simp] theorem actionsWidth_cons (shape : ActionShape) (shapes : List ActionShape) :
    actionsWidth (shape :: shapes) = shape.len+actionsWidth shapes := by
  simp [actionsWidth]

@[simp] theorem width_actionsLayout (shapes : List ActionShape) :
    (actionsLayout shapes).width = actionsWidth shapes := by
  induction shapes with
  | nil => rfl
  | cons shape shapes ih => simp [ih]

theorem pads_actionsLayout (shapes : List ActionShape) (ah : ℕ) :
    (actionsLayout shapes).pads ah = actionsPadding ah shapes := by
  induction shapes generalizing ah with
  | nil => rfl
  | cons shape shapes ih =>
    rw [actionsLayout_cons,Layout.pads_append,ActionShape.pads_layout,ActionShape.width_layout,ih,actionsPadding]

/-- The effect of converting one action: its layout is converted, nothing else is
written, and nothing outside it is read. -/
structure Converts (src : Bytes) (ah : ℕ) (shape : ActionShape) (c c' : Conversion) : Prop where
  dst : c'.dst = shape.layout.convert ah src c.dst
  reads : ∀ i ∈ c'.reads, i ∈ c.reads ∨ ah ≤ i ∧ i < ah+shape.len
  writes : ∀ i, i ∈ c'.writes ↔ i ∈ c.writes ∨ ah ≤ i ∧ i < ah+shape.len

theorem convert_header {layout : Layout} (hl : ∃ rest, layout = ⟨.swap,2⟩ :: ⟨.swap,2⟩ :: rest)
    (order : ByteOrder) (ah : ℕ) (src dst : Bytes) :
    order.other.read16 (layout.convert ah src dst) ah = order.read16 src ah ∧
      order.other.read16 (layout.convert ah src dst) (ah+2) = order.read16 src (ah+2) := by
  obtain ⟨rest,rfl⟩ := hl
  refine ⟨Layout.read16_convert order _ ah src dst,?_⟩
  exact Layout.read16_convert order rest (ah+2) src _

theorem converts_apply {layout : Layout} {shape : ActionShape} (hl : layout = shape.layout) (src : Bytes)
    (ah : ℕ) (c : Conversion) :
    Converts src ah shape c (Conversion.apply { c with reads := c.reads++[ah,ah+1] } layout src ah) := by
  subst hl
  have h8 := shape.eight_le
  refine ⟨rfl,?_,?_⟩
  · intro i hi
    rcases List.mem_append.mp hi with hi | hi
    · rcases List.mem_append.mp hi with hi | hi
      · exact Or.inl hi
      · right
        simp only [List.mem_cons,List.not_mem_nil,or_false] at hi
        omega
    · right
      have hb := Layout.mem_reads hi
      rwa [ActionShape.width_layout] at hb
  · intro i
    simp [Conversion.apply,Layout.mem_writes]

theorem Conversion.apply_append (c : Conversion) (xs ys : Layout) (src : Bytes) (o : ℕ) :
    (c.apply xs src o).apply ys src (o+xs.width) = c.apply (xs++ys) src o := by
  simp only [Conversion.apply,Layout.convert_append,Layout.reads_append,Layout.writes_append,
    List.append_assoc]

/-- Header and body of a vendor action are one layout. -/
theorem copyActionVendorBody_eq (src : Bytes) (ah len : ℕ) (h8 : 8 ≤ len) (c : Conversion) :
    copyActionVendorBody src ah (vendorBodyLength len) (c.apply ofpActionVendorHeader src ah) =
      c.apply (ofpActionVendorHeader++[⟨.copy,len-8⟩]) src ah := by
  have hbody := Conversion.apply_append c ofpActionVendorHeader [⟨.copy,len-8⟩] src ah
  rw [vendorBodyLength,if_pos h8,← hbody,copyActionVendorBody]
  split
  · rfl
  · have hzero : len-8 = 0 := by omega
    rw [hzero]
    have hnothing (d : Conversion) (o : ℕ) : d.apply [⟨.copy,0⟩] src o = d := by
      have hdst : Layout.convert [⟨.copy,0⟩] o src d.dst = d.dst := by
        funext i
        exact Layout.convert_outside _ _ _ _ (by simp; omega)
      simp [Conversion.apply,hdst,Layout.reads,Field.reads,Layout.writes]
    rw [hnothing]

theorem ntohAction_converts {src : Bytes} {ah : ℕ} {shape : ActionShape}
    (h : HasAction .network src ah shape) (c : Conversion) : Converts src ah shape c (ntohAction src ah c) := by
  have hlen : be16 src (ah+2) = shape.len := h.len
  have htype : OfpActionType.ofValue (be16 src ah) = some shape.type := by
    rw [show be16 src ah = shape.type.value from h.type,OfpActionType.ofValue_value]
  simp only [ntohAction,htype]
  by_cases hv : shape.type = .ofpatVendor
  · have hconverted (d : Conversion) : le16 (d.apply ofpActionVendorHeader src ah).dst (ah+2) = shape.len := by
      rw [← hlen]
      exact (convert_header ⟨_,rfl⟩ .network ah src d.dst).2
    simp only [hv,ntohActionVendor,hconverted,copyActionVendorBody_eq src ah shape.len shape.eight_le]
    exact converts_apply (by simp [ActionShape.layout,hv]) src ah c
  · cases ht : shape.type <;>
      first
      | exact absurd ht hv
      | exact converts_apply (by simp [ActionShape.layout,ht]) src ah c

theorem htonAction_converts {src : Bytes} {ah : ℕ} {shape : ActionShape}
    (h : HasAction .host src ah shape) (c : Conversion) :
    ∃ c', htonAction src ah c = some c' ∧ Converts src ah shape c c' := by
  have hlen : le16 src (ah+2) = shape.len := h.len
  have htype : OfpActionType.ofValue (le16 src ah) = some shape.type := by
    rw [show le16 src ah = shape.type.value from h.type,OfpActionType.ofValue_value]
  simp only [htonAction,htype]
  by_cases hv : shape.type = .ofpatVendor
  · simp only [hv,htonActionVendor,hlen,copyActionVendorBody_eq src ah shape.len shape.eight_le]
    exact ⟨_,rfl,converts_apply (by simp [ActionShape.layout,hv]) src ah c⟩
  · cases ht : shape.type <;>
      first
      | exact absurd ht hv
      | exact ⟨_,rfl,converts_apply (by simp [ActionShape.layout,ht]) src ah c⟩

end OpenFlowController.Convert
