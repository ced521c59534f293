import OpenFlowController.Convert.ActionShapes

/-! # Encoding and decoding flow entries

On a well-formed entry either function converts one layout, the fixed part
followed by the actions, and its loop ends exactly at the end of the entry.
-/
namespace OpenFlowController.Convert
open Memory Protocol

def actionsLoop : ByteOrder → Bytes → ℕ → ActionLoop → Option ActionLoop
  | .network => ntohActions
  | .host => htonActions

/-- The function that reads `order`: decoding reads network order. -/
def flowStats : ByteOrder → Bytes → ℕ → Bytes → Bytes → Option ActionLoop
  | .network => ntohFlowStats
  | .host => htonFlowStats

def entryLayout (shapes : List ActionShape) : Layout := ofpFlowStats++actionsLayout shapes

def entryLength (shapes : List ActionShape) : ℕ := 88+actionsWidth shapes

/-- The members `pad` and `pad2` of an entry, `pad1` and `pad2` of its match, and the
padding of its actions. -/
def entryPadding (shapes : List ActionShape) : List ℕ :=
  [3,25,30,31,58,59,60,61,62,63]++actionsPadding 88 shapes

theorem width_ofpFlowStats : ofpFlowStats.width = 88 := rfl

@[simp] theorem width_entryLayout (shapes : List ActionShape) :
    (entryLayout shapes).width = entryLength shapes := by
  rw [entryLayout,Layout.width_append,width_ofpFlowStats,width_actionsLayout,entryLength]

theorem pads_entryLayout (shapes : List ActionShape) : (entryLayout shapes).pads 0 = entryPadding shapes := by
  rw [entryLayout,Layout.pads_append,width_ofpFlowStats,pads_actionsLayout]
  rfl

structure EntryShape (order : ByteOrder) (mem : Bytes) (shapes : List ActionShape) : Prop where
  length : order.read16 mem 0 = entryLength shapes
  bounded : entryLength shapes ≤ 65535
  actions : HasActions order mem 88 shapes

theorem actionsLoop_step {order : ByteOrder} {fs : Bytes} {ah : ℕ} {shape : ActionShape}
    (h : HasAction order fs ah shape) (c : Conversion) {remaining : ℕ} (h8 : 8 ≤ remaining) :
    ∃ c', Converts fs ah shape c c' ∧ ∀ fuel, actionsLoop order fs (fuel+1) ⟨c,remaining,ah⟩ =
      actionsLoop order fs fuel ⟨c',sub16 remaining shape.len,ah+shape.len⟩ := by
  cases order with
  | network =>
    have hc := ntohAction_converts h c
    have hlen : le16 (ntohAction fs ah c).dst (ah+2) = shape.len := by
      rw [hc.dst,← h.len]
      exact (convert_header shape.layout_eq .network ah fs c.dst).2
    refine ⟨_,hc,fun fuel => ?_⟩
    simp only [actionsLoop,ntohActions,ge_iff_le,h8,if_true,hlen]
  | host =>
    obtain ⟨c',he,hc⟩ := htonAction_converts h c
    have hlen : le16 fs (ah+2) = shape.len := h.len
    refine ⟨c',hc,fun fuel => ?_⟩
    simp only [actionsLoop,htonActions,ge_iff_le,h8,if_true,he,hlen]
    rfl

theorem fuelLoop_actionsLoop (order : ByteOrder) (fs : Bytes) : FuelLoop (actionsLoop order fs) where
  starved _ := by cases order <;> rfl
  turn s := by
    by_cases h8 : s.actionsLength ≥ 8
    · right
      cases order with
      | network =>
        let conversion := ntohAction fs s.ah s.conversion
        let len := le16 conversion.dst (s.ah+2)
        refine ⟨some ⟨conversion,sub16 s.actionsLength len,s.ah+len⟩,fun fuel => ?_⟩
        simp only [actionsLoop,ntohActions,h8,if_true]
        rfl
      | host =>
        let len := le16 fs (s.ah+2)
        refine ⟨(htonAction fs s.ah s.conversion).map (fun conversion =>
          ⟨conversion,sub16 s.actionsLength len,s.ah+len⟩),fun fuel => ?_⟩
        rw [Option.bind_map]
        simp only [actionsLoop,htonActions,h8,if_true]
        rfl
    · left
      intro fuel
      cases order with
      | network => simp only [actionsLoop,ntohActions,h8,if_false]
      | host => simp only [actionsLoop,htonActions,h8,if_false]

theorem flowStats_mono {order : ByteOrder} {slack dst src : Bytes} {fuel fuel' : ℕ} {r : ActionLoop}
    (h : flowStats order slack fuel dst src = some r) (hle : fuel ≤ fuel') :
    flowStats order slack fuel' dst src = some r := by
  cases order with
  | network => exact (fuelLoop_actionsLoop .network _).mono h hle
  | host => exact (fuelLoop_actionsLoop .host _).mono h hle

/-- What a loop over well-formed actions leaves behind: every action converted,
and the bytes that do not make a header left over. -/
structure ActionsConverted (fs : Bytes) (ah : ℕ) (shapes : List ActionShape) (rest : ℕ) (c : Conversion)
    (s : ActionLoop) : Prop where
  dst : s.conversion.dst = (actionsLayout shapes).convert ah fs c.dst
  reads : ∀ i ∈ s.conversion.reads, i ∈ c.reads ∨ i < ah+actionsWidth shapes
  writes : ∀ i ∈ s.conversion.writes, i ∈ c.writes ∨ i < ah+actionsWidth shapes
  remaining : s.actionsLength = rest
  cursor : s.ah = ah+actionsWidth shapes

theorem actionsLoop_run {order : ByteOrder} {fs : Bytes} {ah : ℕ} {shapes : List ActionShape}
    (h : HasActions order fs ah shapes) (c : Conversion) {rest : ℕ} (hr : rest < 8)
    (hw : actionsWidth shapes+rest < 65536) :
    ∃ s, actionsLoop order fs (shapes.length+1) ⟨c,actionsWidth shapes+rest,ah⟩ = some s ∧
      ActionsConverted fs ah shapes rest c s := by
  induction shapes generalizing ah c with
  | nil =>
    have hstop : ¬ actionsWidth []+rest ≥ 8 := by
      simp only [actionsWidth,List.map_nil,List.sum_nil]
      omega
    refine ⟨⟨c,actionsWidth []+rest,ah⟩,?_,rfl,fun i hi => Or.inl hi,fun i hi => Or.inl hi,?_,rfl⟩
    · cases order <;> simp [actionsLoop,ntohActions,htonActions,hstop]
    · simp [actionsWidth]
  | cons shape shapes ih =>
    obtain ⟨hhead,htail⟩ := h
    have h8 := shape.eight_le
    rw [actionsWidth_cons] at hw
    obtain ⟨c',hc,hstep⟩ :=
      actionsLoop_step hhead c (show 8 ≤ shape.len+actionsWidth shapes+rest by omega)
    have hsub : sub16 (shape.len+actionsWidth shapes+rest) shape.len = actionsWidth shapes+rest := by
      rw [sub16_of_le (by omega) hw]
      omega
    obtain ⟨s,hs,hconv⟩ := ih htail c' (by omega)
    refine ⟨s,?_,?_,?_,?_,hconv.remaining,?_⟩
    · rw [List.length_cons,actionsWidth_cons,hstep,hsub]
      exact hs
    · rw [hconv.dst,hc.dst,actionsLayout_cons,Layout.convert_append,ActionShape.width_layout]
    · intro i hi
      rw [actionsWidth_cons]
      rcases hconv.reads i hi with hi' | hi'
      · rcases hc.reads i hi' with hi'' | hi''
        · exact Or.inl hi''
        · exact Or.inr (by omega)
      · exact Or.inr (by omega)
    · intro i hi
      rw [actionsWidth_cons]
      rcases hconv.writes i hi with hi' | hi'
      · rcases (hc.writes i).mp hi' with hi'' | hi''
        · exact Or.inl hi''
        · exact Or.inr (by omega)
      · exact Or.inr (by omega)
    · rw [hconv.cursor,actionsWidth_cons,Nat.add_assoc]

theorem HasAction.congr {order : ByteOrder} {mem mem' : Bytes} {ah : ℕ} {shape : ActionShape}
    (h : HasAction order mem ah shape) (he : ∀ i, ah ≤ i → i < ah+shape.len → mem' i = mem i) :
    HasAction order mem' ah shape := by
  have h8 := shape.eight_le
  constructor
  · rw [ByteOrder.read16_congr order (he ah (by omega) (by omega)) (he (ah+1) (by omega) (by omega))]
    exact h.type
  · rw [ByteOrder.read16_congr order (he (ah+2) (by omega) (by omega)) (he (ah+2+1) (by omega) (by omega))]
    exact h.len

theorem HasActions.congr {order : ByteOrder} {mem mem' : Bytes} {ah : ℕ} {shapes : List ActionShape}
    (h : HasActions order mem ah shapes)
    (he : ∀ i, ah ≤ i → i < ah+actionsWidth shapes → mem' i = mem i) : HasActions order mem' ah shapes := by
  induction shapes generalizing ah with
  | nil => trivial
  | cons shape shapes ih =>
    rw [actionsWidth_cons] at he
    refine ⟨h.1.congr (fun i hl hu => he i hl (by omega)),ih h.2 (fun i hl hu => he i (by omega) (by omega))⟩

theorem HasActions.convert {order : ByteOrder} {src : Bytes} {ah : ℕ} {shapes : List ActionShape}
    (h : HasActions order src ah shapes) (dst : Bytes) :
    HasActions order.other ((actionsLayout shapes).convert ah src dst) ah shapes := by
  induction shapes generalizing ah dst with
  | nil => trivial
  | cons shape shapes ih =>
    rw [actionsLayout_cons,Layout.convert_append,ActionShape.width_layout]
    obtain ⟨htype,hlen⟩ := convert_header shape.layout_eq order ah src dst
    have hhead : HasAction order.other (shape.layout.convert ah src dst) ah shape :=
      ⟨htype.trans h.1.type,hlen.trans h.1.len⟩
    refine ⟨hhead.congr (fun i _ hu => ?_),ih h.2 _⟩
    exact Layout.convert_outside _ _ _ _ (Or.inl hu)

theorem fixedPart_inside (fs dst : Bytes) {length : ℕ} (h88 : 88 ≤ length) :
    (∀ i ∈ (fixedPart fs dst length).conversion.reads, i < length) ∧
      ∀ i ∈ (fixedPart fs dst length).conversion.writes, i < length := by
  constructor
  · intro i hi
    rcases List.mem_append.mp hi with hi | hi
    · simp only [List.mem_append,List.mem_cons,List.not_mem_nil,or_false,List.mem_range] at hi
      omega
    · have hb := (Layout.mem_reads hi).2
      rw [width_ofpFlowStats] at hb
      omega
  · intro i hi
    have hb := (Layout.mem_writes.mp hi).2
    rw [width_ofpFlowStats] at hb
    omega

/-- One direction on an entry of well-formed actions: all of it is converted but
the bytes left over, and nothing outside it is read or written. -/
theorem flowStats_run {order : ByteOrder} {src : Bytes} {shapes : List ActionShape} {rest : ℕ}
    (hr : rest < 8) (hl : order.read16 src 0 = entryLength shapes+rest)
    (hb : entryLength shapes+rest ≤ 65535) (slack dst : Bytes)
    (h : HasActions order (copyOf src slack (entryLength shapes+rest)) 88 shapes) :
    ∃ s, flowStats order slack (shapes.length+1) dst src = some s ∧ s.actionsLength = rest ∧
      s.ah = entryLength shapes ∧ s.conversion.dst = (entryLayout shapes).convert 0 src dst ∧
      (∀ i ∈ s.conversion.reads, i < entryLength shapes+rest) ∧
      ∀ i ∈ s.conversion.writes, i < entryLength shapes+rest := by
  have hlen : entryLength shapes = 88+actionsWidth shapes := rfl
  have hsub : sub16 (entryLength shapes+rest) 88 = actionsWidth shapes+rest := by
    rw [sub16_of_le (by omega) (by omega)]
    omega
  obtain ⟨s,hs,hc⟩ := actionsLoop_run h
    (fixedPart (copyOf src slack (entryLength shapes+rest)) dst (entryLength shapes+rest)).conversion hr
    (by omega)
  have hrun : flowStats order slack (shapes.length+1) dst src = some s := by
    rw [← hs,← hsub]
    cases order with
    | network =>
      have hl' : be16 src 0 = entryLength shapes+rest := hl
      simp only [flowStats,ntohFlowStats,hl']
      rfl
    | host =>
      have hl' : le16 src 0 = entryLength shapes+rest := hl
      simp only [flowStats,htonFlowStats,hl']
      rfl
  have hfixed := fixedPart_inside (copyOf src slack (entryLength shapes+rest)) dst
    (show 88 ≤ entryLength shapes+rest by omega)
  refine ⟨s,hrun,hc.remaining,hc.cursor,?_,?_,?_⟩
  · rw [hc.dst]
    change Layout.convert _ (0+ofpFlowStats.width) _ (Layout.convert ofpFlowStats 0 _ dst) = _
    rw [← Layout.convert_append]
    refine Layout.convert_congr _ _ _ (fun j _ hu => if_pos ?_)
    have hw := width_entryLayout shapes
    rw [entryLayout] at hw
    omega
  · intro i hi
    rcases hc.reads i hi with hi | hi
    · exact hfixed.1 i hi
    · omega
  · intro i hi
    rcases hc.writes i hi with hi | hi
    · exact hfixed.2 i hi
    · omega

theorem EntryShape.convert {order : ByteOrder} {src : Bytes} {shapes : List ActionShape}
    (h : EntryShape order src shapes) (dst : Bytes) :
    EntryShape order.other ((entryLayout shapes).convert 0 src dst) shapes where
  length := (Layout.read16_convert order _ 0 src dst).trans h.length
  bounded := h.bounded
  actions := by
    rw [entryLayout,Layout.convert_append,width_ofpFlowStats]
    exact h.actions.convert _

theorem EntryShape.congr {order : ByteOrder} {mem mem' : Bytes} {shapes : List ActionShape}
    (h : EntryShape order mem shapes) (he : ∀ i < entryLength shapes, mem' i = mem i) :
    EntryShape order mem' shapes where
  length := (ByteOrder.read16_congr order (he 0 (by unfold entryLength; omega))
    (he 1 (by unfold entryLength; omega))).trans h.length
  bounded := h.bounded
  actions := h.actions.congr (fun i _ hu => he i hu)

/-- `there` and then `back` use up the entry exactly and give it back with its
padding cleared. -/
def RoundTrips (there back : Bytes → ℕ → Bytes → Bytes → Option ActionLoop) (shapes : List ActionShape)
    (entry : Bytes) : Prop :=
  ∀ slack dst slack' dst', ∃ fuel s s', there slack fuel dst entry = some s ∧
    back slack' fuel dst' s.conversion.dst = some s' ∧
    s.actionsLength = 0 ∧ s.ah = entryLength shapes ∧ s'.actionsLength = 0 ∧ s'.ah = entryLength shapes ∧
    ∀ i < entryLength shapes, s'.conversion.dst i = if i ∈ entryPadding shapes then 0 else entry i

theorem flowStats_roundTrips {order : ByteOrder} {entry : Bytes} {shapes : List ActionShape}
    (h : EntryShape order entry shapes) :
    RoundTrips (flowStats order) (flowStats order.other) shapes entry := by
  have hrun (o : ByteOrder) (src slack dst : Bytes) (hs : EntryShape o src shapes) :=
    flowStats_run (show 0 < 8 by omega) hs.length hs.bounded slack dst
      (hs.actions.congr (fun i _ hu => if_pos hu))
  intro slack dst slack' dst'
  obtain ⟨s,hs,hrem,hah,hdst,-,-⟩ := hrun order entry slack dst h
  obtain ⟨s',hs',hrem',hah',hdst',-,-⟩ := hrun order.other _ slack' dst' (h.convert dst)
  rw [← hdst] at hs'
  refine ⟨_,s,s',hs,hs',hrem,hah,hrem',hah',fun i hi => ?_⟩
  rw [hdst',Layout.convert_convert,← pads_entryLayout]
  exact Layout.cleared_apply _ _ _ _ (Nat.zero_le i) (by simpa using hi)

/-- Encoding and decoding of flow entries are inverse, in both orders. -/
theorem flowStats_encode_decode (shapes : List ActionShape) :
    (∀ entry, EntryShape .host entry shapes → RoundTrips htonFlowStats ntohFlowStats shapes entry) ∧
    ∀ entry, EntryShape .network entry shapes → RoundTrips ntohFlowStats htonFlowStats shapes entry :=
  ⟨fun _ h => flowStats_roundTrips h,fun _ h => flowStats_roundTrips h⟩

def outputThenVendor : List ActionShape := [⟨.ofpatOutput,8,rfl⟩,⟨.ofpatVendor,12,by decide⟩]

def hostEntry : Bytes := fun i =>
  match i with
  | 0 => 108 | 5 => 1 | 90 => 8 | 92 => 2 | 96 => 255 | 97 => 255 | 98 => 12 | 104 => 1 | 107 => 4 | _ => 0

def wireEntry : Bytes := fun i =>
  match i with
  | 1 => 108 | 6 => 1 | 91 => 8 | 93 => 2 | 96 => 255 | 97 => 255 | 99 => 12 | 104 => 1 | 107 => 4 | _ => 0

theorem flowStats_encode_decode_outputThenVendor :
    RoundTrips htonFlowStats ntohFlowStats outputThenVendor hostEntry ∧
    RoundTrips ntohFlowStats htonFlowStats outputThenVendor wireEntry := by
  have hhost : EntryShape .host hostEntry outputThenVendor :=
    ⟨by decide,by decide,⟨by decide,by decide⟩,⟨by decide,by decide⟩,trivial⟩
  have hwire : EntryShape .network wireEntry outputThenVendor :=
    ⟨by decide,by decide,⟨by decide,by decide⟩,⟨by decide,by decide⟩,trivial⟩
  exact ⟨(flowStats_encode_decode outputThenVendor).1 hostEntry hhost,
    (flowStats_encode_decode outputThenVendor).2 wireEntry hwire⟩

end OpenFlowController.Convert
