import OpenFlowController.Check.Control
import OpenFlowController.Protocol.OpenFlow

/-! # Field checks

The `ntoh_*` converters appear here as readers of a host-order copy: they read
every field but the padding. The checks work on the copy.
-/
namespace OpenFlowController.Check
open Memory Access Protocol

def validatePhyPortNo (portNo : ℕ) : ValidationCode :=
  if portNo = 0 ∨ portNo > ofppMax ∧ portNo < ofppInPort then .errorInvalidPortNo else .success

structure OfpPhyPort where
  portNo : ℕ
  hwAddr : List ℕ
  name : List ℕ
  config : ℕ
  state : ℕ
  curr : ℕ
  advertised : ℕ
  supported : ℕ
  peer : ℕ

def ntohPhyPort (src : ℕ) : Access OfpPhyPort := do
  return {
    portNo := ← ntohsAt src
    hwAddr := ← bytesAt (src+2) 6
    name := ← bytesAt (src+8) 16
    config := ← ntohlAt (src+24)
    state := ← ntohlAt (src+28)
    curr := ← ntohlAt (src+32)
    advertised := ← ntohlAt (src+36)
    supported := ← ntohlAt (src+40)
    peer := ← ntohlAt (src+44) }

def validatePhyPort (port : ℕ) : Access ValidationCode := do
  let portH ← ntohPhyPort port
  ensure (return validatePhyPortNo portH.portNo) do
  if bitsOutside portH.config portConfig ≠ 0 then return .errorInvalidPortConfig
  if bitsOutside portH.state portState ≠ 0 then return .errorInvalidPortState
  if bitsOutside portH.curr portFeatures ≠ 0
    ∨ bitsOutside portH.advertised portFeatures ≠ 0
    ∨ bitsOutside portH.supported portFeatures ≠ 0
    ∨ bitsOutside portH.peer portFeatures ≠ 0 then return .errorInvalidPortFeatures
  return .success

def validatePhyPorts (ports nPorts : ℕ) : Access ValidationCode :=
  validateRecords validatePhyPort 48 ports nPorts

def validateWildcards (wildcards : ℕ) : ValidationCode :=
  if bitsOutside wildcards ofpfwAll ≠ 0 then .errorInvalidWildcards else .success

def validateVlanVid (vid : ℕ) : ValidationCode :=
  if vid ≠ ushrtMax ∧ bitsOutside vid vlanVidMask ≠ 0 then .errorInvalidVlanVid else .success

def validateVlanPcp (pcp : ℕ) : ValidationCode :=
  if bitsOutside pcp vlanPcpMask ≠ 0 then .errorInvalidVlanPcp else .success

def validateNwTos (tos : ℕ) : ValidationCode :=
  if bitsOutside tos nwTosMask ≠ 0 then .errorInvalidNwTos else .success

structure OfpMatch where
  wildcards : ℕ
  inPort : ℕ
  dlSrc : List ℕ
  dlDst : List ℕ
  dlVlan : ℕ
  dlVlanPcp : ℕ
  dlType : ℕ
  nwTos : ℕ
  nwProto : ℕ
  nwSrc : ℕ
  nwDst : ℕ
  tpSrc : ℕ
  tpDst : ℕ

def ntohMatch (src : ℕ) : Access OfpMatch := do
  return {
    wildcards := ← ntohlAt src
    inPort := ← ntohsAt (src+4)
    dlSrc := ← bytesAt (src+6) 6
    dlDst := ← bytesAt (src+12) 6
    dlVlan := ← ntohsAt (src+18)
    dlVlanPcp := ← byteAt (src+20)
    dlType := ← ntohsAt (src+22)
    nwTos := ← byteAt (src+24)
    nwProto := ← byteAt (src+25)
    nwSrc := ← ntohlAt (src+28)
    nwDst := ← ntohlAt (src+32)
    tpSrc := ← ntohsAt (src+36)
    tpDst := ← ntohsAt (src+38) }

def validateMatch (m : OfpMatch) : ValidationCode :=
  (validateWildcards m.wildcards).followedBy <|
  (validateVlanVid m.dlVlan).followedBy <|
  (validateVlanPcp m.dlVlanPcp).followedBy <|
  validateNwTos m.nwTos

def matchAt (mem : Bytes) (src : ℕ) : OfpMatch where
  wildcards := be32 mem src
  inPort := be16 mem (src+4)
  dlSrc := (List.range' (src+6) 6).map (fun i => (mem i).toNat)
  dlDst := (List.range' (src+12) 6).map (fun i => (mem i).toNat)
  dlVlan := be16 mem (src+18)
  dlVlanPcp := (mem (src+20)).toNat
  dlType := be16 mem (src+22)
  nwTos := (mem (src+24)).toNat
  nwProto := (mem (src+25)).toNat
  nwSrc := be32 mem (src+28)
  nwDst := be32 mem (src+32)
  tpSrc := be16 mem (src+36)
  tpDst := be16 mem (src+38)

structure PhyPortAccepted (mem : Bytes) (port : ℕ) : Prop where
  portNo : validatePhyPortNo (be16 mem port) = .success
  config : bitsOutside (be32 mem (port+24)) portConfig = 0
  state : bitsOutside (be32 mem (port+28)) portState = 0
  curr : bitsOutside (be32 mem (port+32)) portFeatures = 0
  advertised : bitsOutside (be32 mem (port+36)) portFeatures = 0
  supported : bitsOutside (be32 mem (port+40)) portFeatures = 0
  peer : bitsOutside (be32 mem (port+44)) portFeatures = 0

/-- No field is wildcarded. -/
def OfpMatch.Exact (m : OfpMatch) : Prop := m.wildcards &&& ofpfwAll = 0

instance (m : OfpMatch) : Decidable m.Exact := inferInstanceAs (Decidable (_ = _))

section Rules
variable {n : ℕ} {mem : Bytes}

theorem validateWildcards_eq_success (wildcards : ℕ) :
    validateWildcards wildcards = .success ↔ bitsOutside wildcards ofpfwAll = 0 := by
  simp [validateWildcards]

theorem within_ntohPhyPort (src : ℕ) : Within n (ntohPhyPort src) mem ↔ src+48 ≤ n := by
  simp [ntohPhyPort,within_bytesAt]
  omega

theorem returns_validatePhyPort (port : ℕ) :
    Returns (validatePhyPort port) mem .success ↔ PhyPortAccepted mem port := by
  simp [validatePhyPort,ntohPhyPort]
  constructor
  · rintro ⟨hn,hc,hs,⟨hcurr,hadv,hsup,hpeer⟩⟩
    exact ⟨hn,hc,hs,hcurr,hadv,hsup,hpeer⟩
  · rintro ⟨hn,hc,hs,hcurr,hadv,hsup,hpeer⟩
    exact ⟨hn,hc,hs,hcurr,hadv,hsup,hpeer⟩

theorem within_validatePhyPort (port : ℕ) : Within n (validatePhyPort port) mem ↔ port+48 ≤ n := by
  simp [validatePhyPort,within_ntohPhyPort]

@[simp] theorem returns_ntohMatch (src : ℕ) (m : OfpMatch) :
    Returns (ntohMatch src) mem m ↔ matchAt mem src = m := by
  simp [ntohMatch,matchAt]

theorem within_ntohMatch (src : ℕ) : Within n (ntohMatch src) mem ↔ src+40 ≤ n := by
  simp [ntohMatch,within_bytesAt]
  omega

end Rules
end OpenFlowController.Check
