import Mathlib.Data.Nat.Bitwise
import OpenFlowController.Create.Builders

/-! # Port modifications

A port is described to the controller in one message and modified by it in another.
The bits of the four fields that the two have in common are checked twice.
-/
namespace OpenFlowController.Create
open Memory Access Check Protocol Handler

/-- The arguments of `cc_create_port_mod` besides the transaction id. -/
structure PortMod where
  portNo : UInt16
  hwAddr : Bytes
  config : UInt32
  mask : UInt32
  advertise : UInt32

/-- The fields behind the header, the padding cleared at the end. -/
def PortMod.store (portMod : PortMod) (data : Bytes) : Bytes :=
  let data := storeNet data 8 2 portMod.portNo.toNat
  let data := copyInto data 10 portMod.hwAddr 6
  let data := storeNet data 16 4 portMod.config.toNat
  let data := storeNet data 20 4 portMod.mask.toNat
  let data := storeNet data 24 4 portMod.advertise.toNat
  copyInto data 28 (fun _ => 0) 4

def ccCreatePortModWith (header : CreateHeader) (allocated : Bool) (transactionId : UInt32) (portMod : PortMod) :
    Option Message := do
  let buffer ← header allocated transactionId .ofptPortMod 32
  return { buffer with data := portMod.store buffer.data }

def ccCreatePortMod : Bool → UInt32 → PortMod → Option Message := ccCreatePortModWith ccCreateHeader

/-- Modify the port described at `port`: its own number, address and configuration,
and what it advertises. -/
def PortMod.ofPhyPort (mem : Bytes) (port : ℕ) (mask : UInt32) : PortMod where
  portNo := UInt16.ofNat (be16 mem port)
  hwAddr := window mem (port+2)
  config := UInt32.ofNat (be32 mem (port+24))
  mask := mask
  advertise := UInt32.ofNat (be32 mem (port+36))

structure PortMod.CarriedIn (portMod : PortMod) (data : Bytes) : Prop where
  portNo : be16 data 8 = portMod.portNo.toNat
  hwAddr : ∀ i < 6, data (10+i) = portMod.hwAddr i
  config : be32 data 16 = portMod.config.toNat
  mask : be32 data 20 = portMod.mask.toNat
  advertise : be32 data 24 = portMod.advertise.toNat

section Rules
variable {mem : Bytes} {port : ℕ}

theorem netAt_copyInto_of_disjoint (mem src : Bytes) {o o' width length : ℕ}
    (h : o'+width ≤ o ∨ o+length ≤ o') : netAt (copyInto mem o src length) o' width = netAt mem o' width :=
  netAt_congr (fun i hl hu => if_neg (by omega))

theorem PortMod.store_carriedIn (portMod : PortMod) (data : Bytes) : portMod.CarriedIn (portMod.store data) := by
  refine ⟨?_,?hwAddr,?_,?_,?_⟩
  case hwAddr =>
    intro i hi
    simp only [PortMod.store]
    rw [copyInto,if_neg (by omega),storeNet_outside (by omega),storeNet_outside (by omega),
      storeNet_outside (by omega),copyInto,if_pos (by omega),Nat.add_sub_cancel_left]
  all_goals
    simp only [← netAt_two,← netAt_four,PortMod.store,netAt_copyInto_of_disjoint,netAt_storeNet_of_disjoint,
      Nat.reduceAdd,Nat.reduceLeDiff,true_or,netAt_uint16,netAt_uint32]

theorem PortMod.store_header (portMod : PortMod) {data : Bytes} {type : OfpType} {length : ℕ}
    (h : HasHeader data type length) : HasHeader (portMod.store data) type length := by
  refine h.congr (fun i hi => ?_)
  simp only [PortMod.store]
  rw [copyInto,if_neg (by omega),storeNet_outside (by omega),storeNet_outside (by omega),
    storeNet_outside (by omega),copyInto,if_neg (by omega),storeNet_outside (by omega)]

/-- The values of a port mod that its validator asks for. -/
structure PortMod.Accepted (portMod : PortMod) : Prop where
  portNo : validatePhyPortNo portMod.portNo.toNat = .success
  physical : portMod.portNo.toNat ≤ ofppMax ∨ portMod.portNo.toNat = ofppLocal
  config : bitsOutside portMod.config.toNat portConfig = 0
  mask : bitsOutside portMod.mask.toNat portConfig = 0
  advertise : bitsOutside portMod.advertise.toNat portConfig = 0

/-- The validator accepts what was built exactly when it accepts the values. -/
theorem ccCreatePortMod_accepted_iff (transactionId : UInt32) (portMod : PortMod) :
    (∃ message, ccCreatePortMod true transactionId portMod = some message ∧
      Returns (validatePortMod message) message.data .success) ↔ portMod.Accepted := by
  obtain ⟨buffer,hbuffer,hsize,hheader⟩ := ccCreateHeader_fresh transactionId .ofptPortMod (show 32 < 65536 by decide)
  have hstored := portMod.store_carriedIn buffer.data
  have haccepted : HeaderAccepted { buffer with data := portMod.store buffer.data } .ofptPortMod 32 32 :=
    HasHeader.accepted (hsize.symm ▸ portMod.store_header hheader) (by simp [hsize]) (by simp [hsize]) (by simp [hsize])
  have hmessage : ccCreatePortMod true transactionId portMod = some { buffer with data := portMod.store buffer.data } := by
    rw [ccCreatePortMod,ccCreatePortModWith,hbuffer]
    rfl
  simp only [hmessage,Option.some.injEq,exists_eq_left',returns_validatePortMod]
  constructor
  · rintro ⟨-,hn,hp,hc,hm,ha⟩
    simp only [hstored.portNo,hstored.config,hstored.mask,hstored.advertise] at hn hp hc hm ha
    exact ⟨hn,hp,hc,hm,ha⟩
  · rintro ⟨hn,hp,hc,hm,ha⟩
    rw [← hstored.portNo] at hn hp
    rw [← hstored.config] at hc
    rw [← hstored.mask] at hm
    rw [← hstored.advertise] at ha
    exact ⟨haccepted,hn,hp,hc,hm,ha⟩

theorem bitsOutside_low_iff (value n : ℕ) : bitsOutside value (2^n-1) = 0 ↔ value < 2^n := by
  rw [bitsOutside,Nat.xor_eq_zero_iff,Nat.and_two_pow_sub_one_eq_mod]
  constructor
  · intro h
    rw [h]
    exact Nat.mod_lt _ (Nat.two_pow_pos n)
  · exact fun h => (Nat.mod_eq_of_lt h).symm

/-- All that is left to ask of a described port is that it advertises none of the
features beyond the bits of the configuration. -/
theorem PortMod.ofPhyPort_accepted_iff {mask : UInt32} (hport : PhyPortAccepted mem port)
    (hphysical : be16 mem port ≤ ofppMax ∨ be16 mem port = ofppLocal) (hmask : bitsOutside mask.toNat portConfig = 0) :
    (PortMod.ofPhyPort mem port mask).Accepted ↔ be32 mem (port+36) < 128 := by
  have hno : (PortMod.ofPhyPort mem port mask).portNo.toNat = be16 mem port :=
    UInt16.toNat_ofNat_of_lt' (be16_lt mem port)
  have hconfig : (PortMod.ofPhyPort mem port mask).config.toNat = be32 mem (port+24) :=
    UInt32.toNat_ofNat_of_lt' (be32_lt mem _)
  have hadvertise : (PortMod.ofPhyPort mem port mask).advertise.toNat = be32 mem (port+36) :=
    UInt32.toNat_ofNat_of_lt' (be32_lt mem _)
  have hlow := bitsOutside_low_iff (be32 mem (port+36)) 7
  constructor
  · intro h
    exact hlow.mp (hadvertise ▸ h.advertise)
  · intro h
    refine ⟨hno ▸ hport.portNo,hno ▸ hphysical,hconfig ▸ hport.config,hmask,?_⟩
    rw [hadvertise]
    exact hlow.mpr h

/-- A port that was accepted in a description is accepted in a modification unless it
advertises fiber, copper, negotiation or pauses. -/
theorem ccCreatePortMod_agrees_iff (transactionId mask : UInt32)
    (hport : Returns (validatePhyPort port) mem .success)
    (hphysical : be16 mem port ≤ ofppMax ∨ be16 mem port = ofppLocal) (hmask : bitsOutside mask.toNat portConfig = 0) :
    (∃ message, ccCreatePortMod true transactionId (PortMod.ofPhyPort mem port mask) = some message ∧
      Returns (validatePortMod message) message.data .success) ↔ be32 mem (port+36) < 128 := by
  have hdescribed := (returns_validatePhyPort port).mp hport
  rw [ccCreatePortMod_accepted_iff,PortMod.ofPhyPort_accepted_iff hdescribed hphysical hmask]

/-- Port 1, which advertises the features in the low byte. -/
def advertisingPort (features : UInt8) : Bytes := fun o => if o = 1 then 1 else if o = 39 then features else 0

theorem phyPortAccepted_advertisingPort (features : UInt8) : PhyPortAccepted (advertisingPort features) 0 := by
  have hfeatures : be32 (advertisingPort features) (0+36) = features.toNat := by
    simp [be32,be16,advertisingPort]
  have hno : be16 (advertisingPort features) 0 = 1 := by simp [be16,advertisingPort]
  refine ⟨by rw [hno]; decide,?_,?_,?_,?_,?_,?_⟩
  case refine_4 =>
    have hlt := features.toNat_lt
    rw [hfeatures]
    exact (bitsOutside_low_iff _ 12).mpr (by omega)
  all_goals simp [be32,be16,advertisingPort,bitsOutside]

theorem ccCreatePortMod_agrees_advertisingPort :
    Returns (validatePhyPort 0) (advertisingPort 0x40) .success ∧
      be16 (advertisingPort 0x40) 0 ≤ ofppMax ∧ bitsOutside portConfig portConfig = 0 ∧
      ∃ message, ccCreatePortMod true 1 (PortMod.ofPhyPort (advertisingPort 0x40) 0 0x7f) = some message ∧
        Returns (validatePortMod message) message.data .success := by
  have hport : Returns (validatePhyPort 0) (advertisingPort 0x40) .success :=
    (returns_validatePhyPort 0).mpr (phyPortAccepted_advertisingPort 0x40)
  refine ⟨hport,by decide,by decide,?_⟩
  exact (ccCreatePortMod_agrees_iff 1 0x7f hport (Or.inl (by decide)) (by decide)).mpr (by decide)

/-- Copper is a feature of ports, and a bit that no port configuration has. -/
theorem ccCreatePortMod_refuses_advertisingPort :
    Returns (validatePhyPort 0) (advertisingPort 0x80) .success ∧
      be16 (advertisingPort 0x80) 0 ≤ ofppMax ∧ bitsOutside portConfig portConfig = 0 ∧
      ¬ ∃ message, ccCreatePortMod true 1 (PortMod.ofPhyPort (advertisingPort 0x80) 0 0x7f) = some message ∧
        Returns (validatePortMod message) message.data .success := by
  have hport := phyPortAccepted_advertisingPort 0x80
  refine ⟨(returns_validatePhyPort 0).mpr hport,by decide,by decide,?_⟩
  rw [ccCreatePortMod_accepted_iff,PortMod.ofPhyPort_accepted_iff hport (Or.inl (by decide)) (by decide)]
  decide

end Rules
end OpenFlowController.Create
