import OpenFlowController.Memory.Layout
import OpenFlowController.Protocol.OpenFlow

/-! # Byte order of flow statistics

The converters work on one entry at offset zero of its source and destination.
`hton_*` of a fixed-size structure is a macro for `ntoh_*`. The host is
little-endian; the two action pointers of a loop stay at one common offset.
-/
namespace OpenFlowController.Convert
open Memory Protocol

def ofpMatch : Layout :=
  [⟨.swap,4⟩,⟨.swap,2⟩,⟨.copy,6⟩,⟨.copy,6⟩,⟨.swap,2⟩,⟨.copy,1⟩,⟨.zero,1⟩,⟨.swap,2⟩,⟨.copy,1⟩,⟨.copy,1⟩,
   ⟨.zero,2⟩,⟨.swap,4⟩,⟨.swap,4⟩,⟨.swap,2⟩,⟨.swap,2⟩]

def ofpFlowStats : Layout :=
  [⟨.swap,2⟩,⟨.copy,1⟩,⟨.zero,1⟩]++ofpMatch++[⟨.swap,4⟩,⟨.swap,4⟩,⟨.swap,2⟩,⟨.swap,2⟩,⟨.swap,2⟩,
   ⟨.zero,6⟩,⟨.swap,8⟩,⟨.swap,8⟩,⟨.swap,8⟩]

def ofpActionOutput : Layout := [⟨.swap,2⟩,⟨.swap,2⟩,⟨.swap,2⟩,⟨.swap,2⟩]
def ofpActionVlanVid : Layout := [⟨.swap,2⟩,⟨.swap,2⟩,⟨.swap,2⟩,⟨.zero,2⟩]
def ofpActionVlanPcp : Layout := [⟨.swap,2⟩,⟨.swap,2⟩,⟨.copy,1⟩,⟨.zero,3⟩]
def ofpActionHeader : Layout := [⟨.swap,2⟩,⟨.swap,2⟩,⟨.zero,4⟩]
def ofpActionDlAddr : Layout := [⟨.swap,2⟩,⟨.swap,2⟩,⟨.copy,6⟩,⟨.zero,6⟩]
def ofpActionNwAddr : Layout := [⟨.swap,2⟩,⟨.swap,2⟩,⟨.swap,4⟩]
def ofpActionNwTos : Layout := [⟨.swap,2⟩,⟨.swap,2⟩,⟨.copy,1⟩,⟨.zero,3⟩]
def ofpActionTpPort : Layout := [⟨.swap,2⟩,⟨.swap,2⟩,⟨.swap,2⟩,⟨.zero,2⟩]
def ofpActionEnqueue : Layout := [⟨.swap,2⟩,⟨.swap,2⟩,⟨.swap,2⟩,⟨.zero,6⟩,⟨.swap,4⟩]
def ofpActionVendorHeader : Layout := [⟨.swap,2⟩,⟨.swap,2⟩,⟨.swap,4⟩]

/-- The destination so far, the offsets read of the entry or its copy, and the
offsets of the destination that have been written. -/
structure Conversion where
  dst : Bytes
  reads : List ℕ
  writes : List ℕ

def Conversion.apply (c : Conversion) (layout : Layout) (src : Bytes) (o : ℕ) : Conversion :=
  ⟨layout.convert o src c.dst,c.reads++layout.reads o,c.writes++layout.writes o⟩

def ntohActionOutput (src : Bytes) (ah : ℕ) (c : Conversion) : Conversion := c.apply ofpActionOutput src ah
def ntohActionVlanVid (src : Bytes) (ah : ℕ) (c : Conversion) : Conversion := c.apply ofpActionVlanVid src ah
def ntohActionVlanPcp (src : Bytes) (ah : ℕ) (c : Conversion) : Conversion := c.apply ofpActionVlanPcp src ah
def ntohActionStripVlan (src : Bytes) (ah : ℕ) (c : Conversion) : Conversion := c.apply ofpActionHeader src ah
def ntohActionDlAddr (src : Bytes) (ah : ℕ) (c : Conversion) : Conversion := c.apply ofpActionDlAddr src ah
def ntohActionNwAddr (src : Bytes) (ah : ℕ) (c : Conversion) : Conversion := c.apply ofpActionNwAddr src ah
def ntohActionNwTos (src : Bytes) (ah : ℕ) (c : Conversion) : Conversion := c.apply ofpActionNwTos src ah
def ntohActionTpPort (src : Bytes) (ah : ℕ) (c : Conversion) : Conversion := c.apply ofpActionTpPort src ah
def ntohActionEnqueue (src : Bytes) (ah : ℕ) (c : Conversion) : Conversion := c.apply ofpActionEnqueue src ah

/-- `len - sizeof( struct ofp_action_vendor_header )` as a `size_t`. -/
def vendorBodyLength (len : ℕ) : ℕ := if 8 ≤ len then len-8 else 2^64+len-8

def copyActionVendorBody (src : Bytes) (ah bodyLength : ℕ) (c : Conversion) : Conversion :=
  if bodyLength > 0 then c.apply [⟨.copy,bodyLength⟩] src (ah+8) else c

/-- The body length comes from the converted side. -/
def ntohActionVendor (src : Bytes) (ah : ℕ) (c : Conversion) : Conversion :=
  let c := c.apply ofpActionVendorHeader src ah
  copyActionVendorBody src ah (vendorBodyLength (le16 c.dst (ah+2))) c

/-- The body length comes from the unconverted side. -/
def htonActionVendor (src : Bytes) (ah : ℕ) (c : Conversion) : Conversion :=
  copyActionVendorBody src ah (vendorBodyLength (le16 src (ah+2))) (c.apply ofpActionVendorHeader src ah)

/-- An undefined type is logged and nothing is written. -/
def ntohAction (src : Bytes) (ah : ℕ) (c : Conversion) : Conversion :=
  let c := { c with reads := c.reads++[ah,ah+1] }
  match OfpActionType.ofValue (be16 src ah) with
  | some .ofpatOutput => ntohActionOutput src ah c
  | some .ofpatSetVlanVid => ntohActionVlanVid src ah c
  | some .ofpatSetVlanPcp => ntohActionVlanPcp src ah c
  | some .ofpatStripVlan => ntohActionStripVlan src ah c
  | some .ofpatSetDlSrc | some .ofpatSetDlDst => ntohActionDlAddr src ah c
  | some .ofpatSetNwSrc | some .ofpatSetNwDst => ntohActionNwAddr src ah c
  | some .ofpatSetNwTos => ntohActionNwTos src ah c
  | some .ofpatSetTpSrc | some .ofpatSetTpDst => ntohActionTpPort src ah c
  | some .ofpatEnqueue => ntohActionEnqueue src ah c
  | some .ofpatVendor => ntohActionVendor src ah c
  | none => c

/-- An undefined type ends the program. -/
def htonAction (src : Bytes) (ah : ℕ) (c : Conversion) : Option Conversion :=
  let c := { c with reads := c.reads++[ah,ah+1] }
  match OfpActionType.ofValue (le16 src ah) with
  | some .ofpatOutput => some (ntohActionOutput src ah c)
  | some .ofpatSetVlanVid => some (ntohActionVlanVid src ah c)
  | some .ofpatSetVlanPcp => some (ntohActionVlanPcp src ah c)
  | some .ofpatStripVlan => some (ntohActionStripVlan src ah c)
  | some .ofpatSetDlSrc | some .ofpatSetDlDst => some (ntohActionDlAddr src ah c)
  | some .ofpatSetNwSrc | some .ofpatSetNwDst => some (ntohActionNwAddr src ah c)
  | some .ofpatSetNwTos => some (ntohActionNwTos src ah c)
  | some .ofpatSetTpSrc | some .ofpatSetTpDst => some (ntohActionTpPort src ah c)
  | some .ofpatEnqueue => some (ntohActionEnqueue src ah c)
  | some .ofpatVendor => some (htonActionVendor src ah c)
  | none => none

structure ActionLoop where
  conversion : Conversion
  actionsLength : ℕ
  ah : ℕ

/-- The loop of `ntoh_flow_stats` moves by the length it has just converted. -/
def ntohActions (fs : Bytes) : ℕ → ActionLoop → Option ActionLoop
  | 0, _ => none
  | fuel+1, s =>
    if s.actionsLength ≥ 8 then
      let conversion := ntohAction fs s.ah s.conversion
      let len := le16 conversion.dst (s.ah+2)
      ntohActions fs fuel ⟨conversion,sub16 s.actionsLength len,s.ah+len⟩
    else some s

/-- The loop of `hton_flow_stats` moves by the length it is converting. -/
def htonActions (fs : Bytes) : ℕ → ActionLoop → Option ActionLoop
  | 0, _ => none
  | fuel+1, s =>
    if s.actionsLength ≥ 8 then do
      let conversion ← htonAction fs s.ah s.conversion
      let len := le16 fs (s.ah+2)
      htonActions fs fuel ⟨conversion,sub16 s.actionsLength len,s.ah+len⟩
    else some s

/-- The copy of `length` bytes that both functions work from; `slack` is what
happens to lie behind it. -/
def copyOf (src slack : Bytes) (length : ℕ) : Bytes := fun i => if i < length then src i else slack i

/-- The state in front of the first action: the length has been read, the entry
copied and its fixed part converted. -/
def fixedPart (fs dst : Bytes) (length : ℕ) : ActionLoop :=
  ⟨Conversion.apply ⟨dst,[0,1]++List.range length,[]⟩ ofpFlowStats fs 0,sub16 length 88,88⟩

def ntohFlowStats (slack : Bytes) (fuel : ℕ) (dst src : Bytes) : Option ActionLoop :=
  let length := be16 src 0
  let fs := copyOf src slack length
  ntohActions fs fuel (fixedPart fs dst length)

def htonFlowStats (slack : Bytes) (fuel : ℕ) (dst src : Bytes) : Option ActionLoop :=
  let length := le16 src 0
  let fs := copyOf src slack length
  htonActions fs fuel (fixedPart fs dst length)

end OpenFlowController.Convert
