import Mathlib.Logic.Relation
import OpenFlowController.Memory.Converted
import OpenFlowController.Protocol.OpenFlow
import OpenFlowController.Utility.BoundedString

/-! # Actions as text

The actions lie in host order. One after the other is printed behind what `str` spells
so far; the length field of each says where the next one begins. `CC_SUCCESS` and
`CC_ERROR` are different codes whose values are not used.
-/
namespace OpenFlowController.Utility
open Memory Protocol BoundedString

inductive Conversion
  | ccSuccess
  | ccError
  deriving DecidableEq, Repr

/-- `%u` -/
def decimal (n : ℕ) : List Char := Nat.toDigits 10 n

/-- `%#x` -/
def sharpHex (n : ℕ) : List Char := if n = 0 then ['0'] else '0' :: 'x' :: Nat.toDigits 16 n

/-- `%02x` -/
def hexByte (b : UInt8) : List Char := [Nat.digitChar (b.toNat/16),Nat.digitChar (b.toNat%16)]

/-- Over the address in host order. -/
def inetNtop (addr : ℕ) : List Char :=
  decimal (addr/16777216)++['.']++decimal (addr/65536%256)++['.']++decimal (addr/256%256)++['.']++decimal (addr%256)

section Texts
variable (actions : Bytes) (action : ℕ)

/-! What the functions of the single kinds format. They print and test it alike. -/

def actionOutputToString : List Char :=
  "output: port=".toList++decimal (le16 actions (action+4))++" max_len=".toList++decimal (le16 actions (action+6))

def actionSetVlanVidToString : List Char :=
  "set_vlan_vid: vlan_vid=".toList++sharpHex (le16 actions (action+4))

def actionSetVlanPcpToString : List Char :=
  "set_vlan_pcp: vlan_pcp=".toList++sharpHex (actions (action+4)).toNat

def actionStripVlanToString : List Char := "strip_vlan".toList

def actionDlAddrToString (type : OfpActionType) : List Char :=
  "set_dl_".toList++(if type = .ofpatSetDlSrc then "src" else "dst").toList++": dl_addr=".toList++
    hexByte (actions (action+4))++[':']++hexByte (actions (action+5))++[':']++hexByte (actions (action+6))++
    [':']++hexByte (actions (action+7))++[':']++hexByte (actions (action+8))++[':']++hexByte (actions (action+9))

def actionSetDlSrcToString : List Char := actionDlAddrToString actions action .ofpatSetDlSrc

def actionSetDlDstToString : List Char := actionDlAddrToString actions action .ofpatSetDlDst

def actionNwAddrToString (type : OfpActionType) : List Char :=
  "set_nw_".toList++(if type = .ofpatSetNwSrc then "src" else "dst").toList++": nw_addr=".toList++
    inetNtop (le32 actions (action+4))

def actionSetNwSrcToString : List Char := actionNwAddrToString actions action .ofpatSetNwSrc

def actionSetNwDstToString : List Char := actionNwAddrToString actions action .ofpatSetNwDst

def actionSetNwTosToString : List Char :=
  "set_nw_tos: nw_tos=".toList++sharpHex (actions (action+4)).toNat

def actionTpPortToString (type : OfpActionType) : List Char :=
  "set_tp_".toList++(if type = .ofpatSetTpSrc then "src" else "dst").toList++": tp_port=".toList++
    decimal (le16 actions (action+4))

def actionSetTpSrcToString : List Char := actionTpPortToString actions action .ofpatSetTpSrc

def actionSetTpDstToString : List Char := actionTpPortToString actions action .ofpatSetTpDst

def actionEnqueueToString : List Char :=
  "enqueue: port=".toList++decimal (le16 actions (action+4))++" queue_id=".toList++decimal (le32 actions (action+12))

def actionVendorToString : List Char := "vendor: vendor=".toList++sharpHex (le32 actions (action+4))

def actionType : Option OfpActionType := OfpActionType.ofValue (le16 actions action)

/-- `switch ( header->type )` -/
def actionToString : List Char :=
  match actionType actions action with
  | some .ofpatOutput => actionOutputToString actions action
  | some .ofpatSetVlanVid => actionSetVlanVidToString actions action
  | some .ofpatSetVlanPcp => actionSetVlanPcpToString actions action
  | some .ofpatStripVlan => actionStripVlanToString
  | some .ofpatSetDlSrc => actionSetDlSrcToString actions action
  | some .ofpatSetDlDst => actionSetDlDstToString actions action
  | some .ofpatSetNwSrc => actionSetNwSrcToString actions action
  | some .ofpatSetNwDst => actionSetNwDstToString actions action
  | some .ofpatSetNwTos => actionSetNwTosToString actions action
  | some .ofpatSetTpSrc => actionSetTpSrcToString actions action
  | some .ofpatSetTpDst => actionSetTpDstToString actions action
  | some .ofpatEnqueue => actionEnqueueToString actions action
  | some .ofpatVendor => actionVendorToString actions action
  | none => "undefined: type=".toList++sharpHex (le16 actions action)

end Texts

/-- The offsets of the headers looked at are kept, the latest first. -/
structure Progress where
  ret : Conversion
  offset : UInt64
  str : List Char
  inspected : List ℕ

/-- Between two actions, where there is space for it and more. -/
def appendSeparator (strLength : UInt64) (str : List Char) : Option (List Char × UInt64 × UInt64) := do
  let currentStrLength := UInt64.ofNat (← strlen str)
  let remainingStrLength := strLength-currentStrLength
  if 0 < currentStrLength ∧ 2 < remainingStrLength then
    let str ← snprintf str currentStrLength.toNat remainingStrLength.toNat ", ".toList
    return (str,currentStrLength+2,remainingStrLength-2)
  return (str,currentStrLength,remainingStrLength)

/-- The loop body up to the test of `ret`. What printing an unknown type returned is not looked at,
and the size is compared as an `int`. -/
def convertAction (actions : Bytes) (strLength : UInt64) (s : Progress) : Option Progress := do
  let (str,p,remainingStrLength) ← appendSeparator strLength s.str
  let header := s.offset.toNat
  let text := actionToString actions header
  let str ← snprintf str p.toNat remainingStrLength.toNat text
  let ret := match actionType actions header with
    | none => s.ret
    | some _ => if Int.bmod remainingStrLength.toNat 4294967296 ≤ text.length then .ccError else .ccSuccess
  return ⟨ret,s.offset,str,header :: s.inspected⟩

inductive Fault
  | starved
  | outside
  deriving DecidableEq, Repr

/-- The remaining length is a difference of unsigned numbers. -/
def actionsLoop (actions : Bytes) (actionsLength : UInt16) (strLength : UInt64) :
    ℕ → Progress → Except Fault Progress
  | 0, _ => .error .starved
  | fuel+1, s =>
    if 8 ≤ actionsLength.toUInt64-s.offset then
      match convertAction actions strLength s with
      | none => .error .outside
      | some s =>
        if s.ret = .ccError then .ok s
        else
          let len := UInt64.ofNat (le16 actions (s.offset.toNat+2))
          actionsLoop actions actionsLength strLength fuel { s with offset := s.offset+len }
    else .ok s

/-- What is returned, what `str` then holds, and where headers were taken from. -/
def actionsToString (actions : Bytes) (actionsLength : UInt16) (strLength : UInt64) (fuel : ℕ) :
    Except Fault (Conversion × List Char × List ℕ) := do
  let s ← actionsLoop actions actionsLength strLength fuel ⟨.ccSuccess,0,List.replicate strLength.toNat nul,[]⟩
  match poke s.str (strLength-1).toNat nul with
  | none => .error .outside
  | some str => return (s.ret,str,s.inspected)

theorem nul_notMem_toDigits (b n : ℕ) : nul ∉ Nat.toDigits b n := by
  have hcore : ∀ fuel n ds, nul ∉ ds → nul ∉ Nat.toDigitsCore b fuel n ds := by
    intro fuel
    induction fuel with
    | zero => exact fun _ _ hds => hds
    | succ fuel ih =>
      intro n ds hds
      have hcons : nul ∉ Nat.digitChar (n%b) :: ds :=
        List.not_mem_cons_of_ne_of_not_mem (Nat.digitChar_ne nul (by decide)).symm hds
      rw [Nat.toDigitsCore]
      split
      · exact hcons
      · exact ih _ _ hcons
  exact hcore _ _ _ List.not_mem_nil

theorem nul_notMem_decimal (n : ℕ) : nul ∉ decimal n := nul_notMem_toDigits 10 n

theorem nul_notMem_sharpHex (n : ℕ) : nul ∉ sharpHex n := by
  unfold sharpHex
  split
  · decide
  · exact List.not_mem_append (s := ['0','x']) (by decide) (nul_notMem_toDigits 16 n)

theorem nul_notMem_hexByte (b : UInt8) : nul ∉ hexByte b := by
  simp only [hexByte,List.mem_cons,List.not_mem_nil,or_false,not_or]
  exact ⟨(Nat.digitChar_ne nul (by decide)).symm,(Nat.digitChar_ne nul (by decide)).symm⟩

theorem nul_notMem_inetNtop (n : ℕ) : nul ∉ inetNtop n := by
  unfold inetNtop
  simp only [List.mem_append,List.mem_cons,nul_notMem_decimal]
  decide

abbrev Printable (text : List Char) : Prop := nul ∉ text ∧ text ≠ []

theorem Printable.append {text more : List Char} (h : Printable text) (hmore : nul ∉ more) : Printable (text++more) :=
  ⟨List.not_mem_append h.1 hmore,List.append_ne_nil_of_left_ne_nil h.2 more⟩

section Printable
variable (actions : Bytes) (action : ℕ) (type : OfpActionType)

theorem printable_actionDlAddrToString : Printable (actionDlAddrToString actions action type) := by
  constructor
  · unfold actionDlAddrToString
    simp only [List.mem_append,List.mem_cons,nul_notMem_hexByte]
    split <;> decide
  · unfold actionDlAddrToString
    simp only [List.append_assoc]
    exact List.append_ne_nil_of_left_ne_nil (by decide) _

theorem printable_actionNwAddrToString : Printable (actionNwAddrToString actions action type) := by
  refine Printable.append (Printable.append (Printable.append (by decide) ?_) (by decide)) (nul_notMem_inetNtop _)
  split <;> decide

theorem printable_actionTpPortToString : Printable (actionTpPortToString actions action type) := by
  refine Printable.append (Printable.append (Printable.append (by decide) ?_) (by decide)) (nul_notMem_decimal _)
  split <;> decide

/-- Whatever an action holds, its text is not empty and nowhere ends before its end. -/
theorem printable_actionToString : Printable (actionToString actions action) := by
  have htwo (n m : ℕ) {first second : List Char} (hfirst : Printable first) (hsecond : nul ∉ second) :
      Printable (first++decimal n++second++decimal m) :=
    ((hfirst.append (nul_notMem_decimal n)).append hsecond).append (nul_notMem_decimal m)
  unfold actionToString
  split
  · exact htwo _ _ (by decide) (by decide)
  · exact Printable.append (by decide) (nul_notMem_sharpHex _)
  · exact Printable.append (by decide) (nul_notMem_sharpHex _)
  · exact (by decide : Printable "strip_vlan".toList)
  · exact printable_actionDlAddrToString actions action _
  · exact printable_actionDlAddrToString actions action _
  · exact printable_actionNwAddrToString actions action _
  · exact printable_actionNwAddrToString actions action _
  · exact Printable.append (by decide) (nul_notMem_sharpHex _)
  · exact printable_actionTpPortToString actions action _
  · exact printable_actionTpPortToString actions action _
  · exact htwo _ _ (by decide) (by decide)
  · exact Printable.append (by decide) (nul_notMem_sharpHex _)
  · exact Printable.append (by decide) (nul_notMem_sharpHex _)

end Printable

end OpenFlowController.Utility
