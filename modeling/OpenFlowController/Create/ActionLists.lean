import OpenFlowController.Create.HostOrder

/-! # The actions of a request

`openflow_actions` is a record around a chain of actions in host order. The
builders write them one behind the other, and the rest of the message behind them.
-/
namespace OpenFlowController.Create
open Memory Check Protocol OpenFlowController.Convert

structure OpenflowActions where
  list : List Bytes

/-- The pointer moves by the length in host order. -/
def placeActions (start : ℕ) (list : List Bytes) (data : Bytes) : Option Bytes :=
  writeEach (fun action a => (htonAction action 0 ⟨a,[],[]⟩).map Conversion.dst) (fun action => le16 action 2)
    start list data

/-- The variable is 0 where no actions are given. -/
def actionsLength (getActionsLength : OpenflowActions → ℕ) : Option OpenflowActions → ℕ
  | some actions => getActionsLength actions%65536
  | none => 0

def fillActions (length start : ℕ) (actions : Option OpenflowActions) (data : Bytes) : Option Bytes :=
  if length > 0 then do placeActions start (← actions).list data else some data

/-- What is relied on of `get_actions_length`, where 16 bits hold the sum. -/
def SumsLengths (getActionsLength : OpenflowActions → ℕ) : Prop :=
  ∀ actions : OpenflowActions, totalSize (fun action => le16 action 2) actions.list ≤ 65535 →
    getActionsLength actions = totalSize (fun action => le16 action 2) actions.list

/-- An action in host order with its type, its length and its arguments in order. -/
structure HostAction where
  bytes : Bytes
  shape : ActionShape
  formed : HasAction .host bytes 0 shape
  accepted : HostActionAccepted bytes 0

/-- The arguments of an action in host order are those of the action on the wire. -/
def ArgumentsCarried (type : OfpActionType) (len : ℕ) (host wire : Bytes) : Prop :=
  match type with
  | .ofpatOutput => be16 wire 4 = le16 host 4 ∧ be16 wire 6 = le16 host 6
  | .ofpatSetVlanVid | .ofpatSetTpSrc | .ofpatSetTpDst => be16 wire 4 = le16 host 4
  | .ofpatSetVlanPcp | .ofpatSetNwTos => wire 4 = host 4
  | .ofpatStripVlan => True
  | .ofpatSetDlSrc | .ofpatSetDlDst => ∀ i < 6, wire (4+i) = host (4+i)
  | .ofpatSetNwSrc | .ofpatSetNwDst => be32 wire 4 = le32 host 4
  | .ofpatEnqueue => be16 wire 4 = le16 host 4 ∧ be32 wire 12 = le32 host 12
  | .ofpatVendor => be32 wire 4 = le32 host 4 ∧ ∀ i, 8 ≤ i → i < len → wire i = host i

namespace HostAction

def len (action : HostAction) : ℕ := action.shape.len

/-- Type, length and arguments are in network order at the front of `wire`. -/
structure CarriedIn (action : HostAction) (wire : Bytes) : Prop where
  type : be16 wire 0 = action.shape.type.value
  len : be16 wire 2 = action.len
  arguments : ArgumentsCarried action.shape.type action.len action.bytes wire

/-- `ntoh_action` on `src` gives the action back with its padding cleared. -/
def DecodedFrom (action : HostAction) (src : Bytes) : Prop :=
  ∀ dst, ∀ i < action.len, (ntohAction src 0 ⟨dst,[],[]⟩).dst i =
    if i ∈ actionPadding action.shape.type then 0 else action.bytes i

theorem len_eq (action : HostAction) : le16 action.bytes 2 = action.len := action.formed.len

theorem eight_le (action : HostAction) : 8 ≤ action.len := action.shape.eight_le

theorem pads_layout (action : HostAction) : action.shape.layout.pads 0 = actionPadding action.shape.type := by
  simp [ActionShape.pads_layout]

/-- Field by field, as the converter of each type leaves the action. -/
theorem argumentsCarried {action : HostAction} {wire : Bytes} (h : action.shape.layout.Converted 0 action.bytes wire) :
    ArgumentsCarried action.shape.type action.len action.bytes wire := by
  obtain ⟨bytes,⟨type,length,sized⟩,formed,accepted⟩ := action
  cases type with
  | ofpatOutput =>
    obtain ⟨-,-,hport,hmaxLen,-⟩ := h
    exact ⟨hport.read16 .host,hmaxLen.read16 .host⟩
  | ofpatSetVlanVid | ofpatSetTpSrc | ofpatSetTpDst =>
    obtain ⟨-,-,hnumber,-⟩ := h
    exact hnumber.read16 .host
  | ofpatSetVlanPcp | ofpatSetNwTos =>
    obtain ⟨-,-,hbyte,-⟩ := h
    exact hbyte.copied (show 0 < 1 by decide)
  | ofpatStripVlan => trivial
  | ofpatSetDlSrc | ofpatSetDlDst =>
    obtain ⟨-,-,hdlAddr,-⟩ := h
    exact fun i hi => hdlAddr.copied hi
  | ofpatSetNwSrc | ofpatSetNwDst =>
    obtain ⟨-,-,hnwAddr,-⟩ := h
    exact hnwAddr.read32 .host
  | ofpatEnqueue =>
    obtain ⟨-,-,hport,-,hqueueId,-⟩ := h
    exact ⟨hport.read16 .host,hqueueId.read32 .host⟩
  | ofpatVendor =>
    obtain ⟨-,-,hvendor,hbody,-⟩ := h
    refine ⟨hvendor.read32 .host,fun i hl hu => ?_⟩
    exact hbody i hl (show i < 8+(length-8) by change i < length at hu; omega)

/-- A converted action is accepted where it lies, says what was asked and can be had back. -/
theorem view {action : HostAction} {mem : Bytes} {p : ℕ}
    (h : action.shape.layout.Converted 0 action.bytes (window mem p)) :
    be16 mem (p+2) = action.len ∧ ActionAccepted mem p ∧ action.CarriedIn (window mem p) ∧
      action.DecodedFrom (window mem p) := by
  obtain ⟨htype,hlen,haccepted⟩ := actionAccepted_iff h action.formed
  refine ⟨hlen,haccepted.mpr action.accepted,⟨htype,hlen,argumentsCarried h⟩,fun dst i hi => ?_⟩
  have hshape : HasAction .network (window mem p) 0 action.shape := ⟨htype,hlen⟩
  rw [(ntohAction_converts hshape ⟨dst,[],[]⟩).dst,← action.pads_layout]
  exact h.back dst (Nat.zero_le i) (by simpa [len] using hi)

end HostAction

def hostActions (actions : Option (List HostAction)) : Option OpenflowActions :=
  actions.map (fun list => ⟨list.map HostAction.bytes⟩)

def ActionsPlaced (data : Bytes) (start : ℕ) (list : List HostAction) : Prop :=
  Placed (fun action block => action.shape.layout.Converted 0 action.bytes block) HostAction.len data start list

section Rules
variable {list : List HostAction} {data data' : Bytes} {start : ℕ}

theorem converted_action_congr (action : HostAction) (block block' : Bytes)
    (h : action.shape.layout.Converted 0 action.bytes block) (he : ∀ i < action.len, block' i = block i) :
    action.shape.layout.Converted 0 action.bytes block' :=
  h.congr (fun i _ hu => he i (by simpa [HostAction.len] using hu))

theorem ActionsPlaced.congr (h : ActionsPlaced data start list)
    (he : ∀ i, start ≤ i → i < start+totalSize HostAction.len list → data' i = data i) :
    ActionsPlaced data' start list := Placed.congr h (fun action _ => converted_action_congr action) he

theorem ActionsPlaced.carried (h : ActionsPlaced data start list) :
    WalksTo (fun q => be16 data (q+2))
      (fun q action => action.CarriedIn (window data q) ∧ action.DecodedFrom (window data q))
      (start+totalSize HostAction.len list) start list :=
  h.walksTo rfl (fun _ _ _ _ hq => ⟨(HostAction.view hq).1,(HostAction.view hq).2.2⟩)

theorem ActionsPlaced.accepted (h : ActionsPlaced data start list) (hlt : totalSize HostAction.len list < 65536) :
    ActionsAccepted data start (totalSize HostAction.len list) := by
  have hplaced : WalksTo (fun q => be16 data (q+2)) (fun q action => q+action.len ≤ start+totalSize HostAction.len list ∧
      action.shape.layout.Converted 0 action.bytes (window data q)) (start+totalSize HostAction.len list) start list :=
    h.walksTo rfl (fun _ _ _ hend hq => ⟨(HostAction.view hq).1,hend,hq⟩)
  refine (actionsAccepted_iff_forall (hplaced.forward (Nat.le_refl start)) hlt ?_).mpr
    (fun action _ => action.accepted)
  rintro q action - ⟨hl,hend,hq⟩
  have h8 := action.eight_le
  obtain ⟨hlen,haccepted,-⟩ := HostAction.view hq
  exact ⟨hl,by omega,by omega,iff_of_true haccepted action.accepted⟩

theorem placeActions_placed (list : List HostAction) (start : ℕ) (data : Bytes) :
    ∃ data', placeActions start (list.map HostAction.bytes) data = some data' ∧ ActionsPlaced data' start list ∧
      ∀ i < start, data' i = data i := by
  have hwrite : ∀ action ∈ list, ∀ dst : Bytes, ∃ block,
      (htonAction action.bytes 0 ⟨dst,[],[]⟩).map Conversion.dst = some block ∧
      action.shape.layout.Converted 0 action.bytes block ∧ ∀ i, action.len ≤ i → block i = dst i := by
    intro action _ dst
    obtain ⟨c,hc,hconverts⟩ := htonAction_converts action.formed ⟨dst,[],[]⟩
    refine ⟨c.dst,by rw [hc]; rfl,?_,fun i hi => ?_⟩
    · rw [hconverts.dst]
      exact Layout.converted_convert _ 0 action.bytes dst
    · rw [hconverts.dst]
      exact Layout.convert_outside _ 0 action.bytes dst (Or.inr (by simpa [HostAction.len] using hi))
  obtain ⟨data',hrun,hplaced,hframe⟩ := writeEach_placed hwrite (fun action _ => converted_action_congr action)
  refine ⟨data',?_,hplaced,fun i hi => hframe i (Or.inl hi)⟩
  rw [placeActions,writeEach_map]
  simpa only [HostAction.len_eq] using hrun

/-- NULL and the empty chain are the same to the builders. -/
theorem actionsLength_eq {getActionsLength : OpenflowActions → ℕ} (hget : SumsLengths getActionsLength)
    (actions : Option (List HostAction)) (hfits : totalSize HostAction.len (actions.getD []) ≤ 65535) :
    actionsLength getActionsLength (hostActions actions) = totalSize HostAction.len (actions.getD []) := by
  cases actions with
  | none => rfl
  | some list =>
    have hsum : totalSize (fun action => le16 action 2) (list.map HostAction.bytes) =
        totalSize HostAction.len list := by
      simp [totalSize,Function.comp_def,HostAction.len_eq]
    have hlength : getActionsLength ⟨list.map HostAction.bytes⟩ = totalSize HostAction.len list :=
      (hget ⟨list.map HostAction.bytes⟩ (hsum.trans_le hfits)).trans hsum
    change getActionsLength ⟨list.map HostAction.bytes⟩%65536 = totalSize HostAction.len list
    rw [hlength]
    exact Nat.mod_eq_of_lt (Nat.lt_succ_of_le hfits)

theorem fillActions_placed (actions : Option (List HostAction)) (start : ℕ) (data : Bytes) :
    ∃ data', fillActions (totalSize HostAction.len (actions.getD [])) start (hostActions actions) data = some data' ∧
      ActionsPlaced data' start (actions.getD []) ∧ ∀ i < start, data' i = data i := by
  cases actions with
  | none => exact ⟨data,rfl,trivial,fun _ _ => rfl⟩
  | some list =>
    cases list with
    | nil => exact ⟨data,rfl,trivial,fun _ _ => rfl⟩
    | cons action list =>
      have hpos : totalSize HostAction.len (action :: list) > 0 := by
        have h8 := action.eight_le
        rw [totalSize_cons]
        omega
      obtain ⟨data',hrun,hplaced,hframe⟩ := placeActions_placed (action :: list) start data
      refine ⟨data',?_,hplaced,hframe⟩
      rw [fillActions,Option.getD_some,if_pos hpos]
      exact hrun

end Rules
end OpenFlowController.Create
