import OpenFlowController.Check.Actions
import OpenFlowController.Convert.RoundTrip
import OpenFlowController.Memory.Converted

/-! # Matches and actions in host order

The rules of the validators, read off a structure in host order, agree with what
the validators say of its converted copy.
-/
namespace OpenFlowController.Create
open Memory Check Protocol OpenFlowController.Convert

def hostMatchAt (mem : Bytes) (src : ℕ) : OfpMatch where
  wildcards := le32 mem src
  inPort := le16 mem (src+4)
  dlSrc := (List.range' (src+6) 6).map (fun i => (mem i).toNat)
  dlDst := (List.range' (src+12) 6).map (fun i => (mem i).toNat)
  dlVlan := le16 mem (src+18)
  dlVlanPcp := (mem (src+20)).toNat
  dlType := le16 mem (src+22)
  nwTos := (mem (src+24)).toNat
  nwProto := (mem (src+25)).toNat
  nwSrc := le32 mem (src+28)
  nwDst := le32 mem (src+32)
  tpSrc := le16 mem (src+36)
  tpDst := le16 mem (src+38)

/-- What an action check demands of type and length and of what follows them,
read as a number of two bytes or of one. -/
def ActionRule (type len word byte : ℕ) : Prop :=
  match OfpActionType.ofValue type with
  | some .ofpatOutput => len = 8 ∧ validatePhyPortNo word = .success
  | some .ofpatSetVlanVid => len = 8 ∧ validateVlanVid word = .success
  | some .ofpatSetVlanPcp => len = 8 ∧ validateVlanPcp byte = .success
  | some .ofpatSetNwTos => len = 8 ∧ validateNwTos byte = .success
  | some .ofpatSetDlSrc | some .ofpatSetDlDst => len = 16
  | some .ofpatEnqueue => len = 16 ∧ validatePhyPortNo word = .success
  | some .ofpatVendor => 8 ≤ len
  | some _ => len = 8
  | none => False

def HostActionAccepted (mem : Bytes) (action : ℕ) : Prop :=
  ActionRule (le16 mem action) (le16 mem (action+2)) (le16 mem (action+4)) (mem (action+4)).toNat

section Rules
variable {mem src : Bytes} {p o : ℕ}

theorem actionAccepted_iff_rule (mem : Bytes) (action : ℕ) : ActionAccepted mem action ↔
    ActionRule (be16 mem action) (be16 mem (action+2)) (be16 mem (action+4)) (mem (action+4)).toNat := by
  unfold ActionAccepted ActionRule
  cases OfpActionType.ofValue (be16 mem action) with
  | none => rfl
  | some type => cases type <;> rfl

/-- Only the field that the type has is looked at. -/
theorem actionRule_congr {type : OfpActionType} {len word word' byte byte' : ℕ}
    (hword : type = .ofpatOutput ∨ type = .ofpatSetVlanVid ∨ type = .ofpatEnqueue → word = word')
    (hbyte : type = .ofpatSetVlanPcp ∨ type = .ofpatSetNwTos → byte = byte') :
    ActionRule type.value len word byte ↔ ActionRule type.value len word' byte' := by
  unfold ActionRule
  rw [OfpActionType.ofValue_value]
  cases type with
  | ofpatOutput => rw [hword (by simp)]
  | ofpatSetVlanVid => rw [hword (by simp)]
  | ofpatEnqueue => rw [hword (by simp)]
  | ofpatSetVlanPcp => rw [hbyte (by simp)]
  | ofpatSetNwTos => rw [hbyte (by simp)]
  | _ => rfl

theorem copied_bytes {n : ℕ} (h : Field.Converted ⟨.copy,n⟩ o src (window mem p)) :
    (List.range' (p+o) n).map (fun i => (mem i).toNat) = (List.range' o n).map (fun i => (src i).toNat) := by
  refine List.ext_getElem (by simp) (fun i h₁ h₂ => ?_)
  have hi : i < n := by simpa using h₁
  have hb : mem (p+(o+i)) = src (o+i) := h.copied hi
  simp [Nat.add_assoc,hb]

theorem matchAt_eq (h : ofpMatch.Converted o src (window mem p)) : matchAt mem (p+o) = hostMatchAt src o := by
  obtain ⟨hwild,hport,hsrc,hdst,hvlan,hpcp,-,htype,htos,hproto,-,hnwSrc,hnwDst,htpSrc,htpDst,-⟩ := h
  have hwild : be32 mem (p+o) = le32 src o := hwild.read32 .host
  have hport : be16 mem (p+o+4) = le16 src (o+4) := hport.read16 .host
  have hvlan : be16 mem (p+o+18) = le16 src (o+18) := hvlan.read16 .host
  have htype : be16 mem (p+o+22) = le16 src (o+22) := htype.read16 .host
  have hnwSrc : be32 mem (p+o+28) = le32 src (o+28) := hnwSrc.read32 .host
  have hnwDst : be32 mem (p+o+32) = le32 src (o+32) := hnwDst.read32 .host
  have htpSrc : be16 mem (p+o+36) = le16 src (o+36) := htpSrc.read16 .host
  have htpDst : be16 mem (p+o+38) = le16 src (o+38) := htpDst.read16 .host
  have hpcp : mem (p+o+20) = src (o+20) := hpcp.copied (show 0 < 1 by decide)
  have htos : mem (p+o+24) = src (o+24) := htos.copied (show 0 < 1 by decide)
  have hproto : mem (p+o+25) = src (o+25) := hproto.copied (show 0 < 1 by decide)
  have hsrc := copied_bytes hsrc
  have hdst := copied_bytes hdst
  simp only [matchAt,hostMatchAt,hwild,hport,hvlan,htype,hnwSrc,hnwDst,htpSrc,htpDst,hpcp,htos,hproto]
  simp only [← Nat.add_assoc] at hsrc hdst
  simp only [Nat.add_assoc,Nat.reduceAdd] at hsrc hdst ⊢
  rw [hsrc,hdst]

/-- An accepted action in host order is one whose converted copy is accepted. -/
theorem actionAccepted_iff {shape : ActionShape} (h : shape.layout.Converted o src (window mem p))
    (hs : HasAction .host src o shape) : be16 mem (p+o) = shape.type.value ∧ be16 mem (p+o+2) = shape.len ∧
      (ActionAccepted mem (p+o) ↔ HostActionAccepted src o) := by
  obtain ⟨rest,hlayout⟩ := shape.layout_eq
  have hhead := hlayout ▸ h
  have htype : be16 mem (p+o) = shape.type.value := (hhead.1.read16 .host).trans hs.type
  have hlen : be16 mem (p+o+2) = shape.len := (hhead.2.1.read16 .host).trans hs.len
  refine ⟨htype,hlen,?_⟩
  have htype' : le16 src o = shape.type.value := hs.type
  have hlen' : le16 src (o+2) = shape.len := hs.len
  rw [actionAccepted_iff_rule,HostActionAccepted,htype,hlen,htype',hlen']
  refine actionRule_congr (fun hword => ?_) (fun hbyte => ?_)
  · have hfield : Field.Converted ⟨.swap,2⟩ (o+4) src (window mem p) := by
      rcases hword with ht | ht | ht <;>
        · simp only [ActionShape.layout,ht] at h
          exact h.2.2.1
    exact hfield.read16 .host
  · have hfield : Field.Converted ⟨.copy,1⟩ (o+4) src (window mem p) := by
      rcases hbyte with ht | ht <;>
        · simp only [ActionShape.layout,ht] at h
          exact h.2.2.1
    have hbyte : mem (p+o+4) = src (o+4) := hfield.copied (show 0 < 1 by decide)
    rw [hbyte]

theorem hasActions_iff {order : ByteOrder} {shapes : List ActionShape} : HasActions order src o shapes ↔
    ∀ x ∈ located ActionShape.len o shapes, HasAction order src x.1 x.2 := by
  induction shapes generalizing o with
  | nil => simp [HasActions,located]
  | cons shape shapes ih => simp [HasActions,located,ih]

theorem converted_actionsLayout_iff {shapes : List ActionShape} {dst : Bytes} :
    (actionsLayout shapes).Converted o src dst ↔
      ∀ x ∈ located ActionShape.len o shapes, x.2.layout.Converted x.1 src dst := by
  induction shapes generalizing o with
  | nil => simp [actionsLayout,Layout.Converted,located]
  | cons shape shapes ih => simp [Layout.converted_append,located,ih]

/-- A list of actions is accepted when its length fields lead from action to action
and every action is accepted. -/
theorem actionsAccepted_iff_forall {α : Type} {actionsHead length : ℕ} {items : List α} {found : ℕ → α → Prop}
    {passes : α → Prop}
    (h : WalksTo (fun q => be16 mem (q+2)) found (actionsHead+length) actionsHead items) (hlen : length < 65536)
    (hitem : ∀ q, ∀ a ∈ items, found q a → actionsHead ≤ q ∧ q < actionsHead+length ∧
      q+be16 mem (q+2) ≤ actionsHead+length ∧ (ActionAccepted mem q ↔ passes a)) :
    ActionsAccepted mem actionsHead length ↔ ∀ a ∈ items, passes a := by
  rw [ActionsAccepted]
  exact offsets_iff h hlen hitem

end Rules
end OpenFlowController.Create
