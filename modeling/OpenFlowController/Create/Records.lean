import OpenFlowController.Create.Builders

/-! # Replies made of records of one size

One loop writes the records, one check walks over them. The port descriptions of
a features reply are converted in a variable first and copied from there.
-/
namespace OpenFlowController.Create
open Memory Access Check Protocol Handler

def ofpPhyPort : Layout :=
  [⟨.swap,2⟩,⟨.copy,6⟩,⟨.copy,16⟩,⟨.swap,4⟩,⟨.swap,4⟩,⟨.swap,4⟩,⟨.swap,4⟩,⟨.swap,4⟩,⟨.swap,4⟩]

def ofpTableStats : Layout :=
  [⟨.copy,1⟩,⟨.zero,3⟩,⟨.copy,32⟩,⟨.swap,4⟩,⟨.swap,4⟩,⟨.swap,4⟩,⟨.swap,8⟩,⟨.swap,8⟩]

def ofpPortStats : Layout := [⟨.swap,2⟩,⟨.zero,6⟩]++List.replicate 12 ⟨.swap,8⟩

def ofpQueueStats : Layout := [⟨.swap,2⟩,⟨.zero,2⟩,⟨.swap,4⟩,⟨.swap,8⟩,⟨.swap,8⟩,⟨.swap,8⟩]

/-- A converter of a structure without a variable part, and its `hton` as well. -/
def ntohRecord (layout : Layout) (dst src : Bytes) : Bytes := layout.convert 0 src dst

def ntohPhyPort : Bytes → Bytes → Bytes := ntohRecord ofpPhyPort
def ntohTableStats : Bytes → Bytes → Bytes := ntohRecord ofpTableStats
def ntohPortStats : Bytes → Bytes → Bytes := ntohRecord ofpPortStats
def ntohQueueStats : Bytes → Bytes → Bytes := ntohRecord ofpQueueStats

/-- Records are counted in 16 bits, and so is the length. -/
def recordsLength (fixedPart size count : ℕ) : ℕ := (fixedPart+size*(count%65536))%65536

def fillRecords (hton : Bytes → Bytes → Bytes) (size start : ℕ) (records : List Bytes) (data : Bytes) :
    Option Bytes := writeEach (fun record dst => some (hton dst record)) (fun _ => size) start records data

def ccCreateRecordsReply (type : OfpStatsTypes) (hton : Bytes → Bytes → Bytes) (size : ℕ) (allocated : Bool)
    (transactionId : UInt32) (flags : UInt16) (head : List Bytes) : Option Message := do
  let buffer ← ccCreateStatsReply allocated transactionId type (recordsLength 12 size head.length) flags
  return { buffer with data := ← fillRecords hton size 12 head buffer.data }

def ccCreateTableStatsReply : Bool → UInt32 → UInt16 → List Bytes → Option Message :=
  ccCreateRecordsReply .ofpstTable ntohTableStats 64

def ccCreatePortStatsReply : Bool → UInt32 → UInt16 → List Bytes → Option Message :=
  ccCreateRecordsReply .ofpstPort ntohPortStats 104

def ccCreateQueueStatsReply : Bool → UInt32 → UInt16 → List Bytes → Option Message :=
  ccCreateRecordsReply .ofpstQueue ntohQueueStats 32

/-- `pn` is the variable the ports are converted in. -/
def placePhyPorts : ℕ → Bytes → List Bytes → Bytes → Bytes
  | _, _, [], data => data
  | phyPort, pn, port :: ports, data =>
    let pn := ntohPhyPort pn port
    placePhyPorts (phyPort+48) pn ports (copyInto data phyPort pn 48)

structure SwitchFeatures where
  datapathId : UInt64
  nBuffers : UInt32
  nTables : UInt8
  capabilities : UInt32
  actions : UInt32

def ccCreateFeaturesReply (pn : Bytes) (allocated : Bool) (transactionId : UInt32) (features : SwitchFeatures)
    (ports : List Bytes) : Option Message := do
  let buffer ← ccCreateHeader allocated transactionId .ofptFeaturesReply (recordsLength 32 48 ports.length)
  let data := storeNet buffer.data 8 8 features.datapathId.toNat
  let data := storeNet data 16 4 features.nBuffers.toNat
  let data := storeNet data 20 1 features.nTables.toNat
  let data := storeNet data 21 3 0
  let data := storeNet data 24 4 features.capabilities.toNat
  let data := storeNet data 28 4 features.actions.toNat
  let data := if ports.length%65536 ≠ 0 then placePhyPorts 32 pn ports data else data
  return { buffer with data }

/-- The check of `validate_phy_port` on a port description in host order. -/
structure HostPhyPortAccepted (port : Bytes) : Prop where
  portNo : validatePhyPortNo (le16 port 0) = .success
  config : bitsOutside (le32 port 24) portConfig = 0
  state : bitsOutside (le32 port 28) portState = 0
  curr : bitsOutside (le32 port 32) portFeatures = 0
  advertised : bitsOutside (le32 port 36) portFeatures = 0
  supported : bitsOutside (le32 port 40) portFeatures = 0
  peer : bitsOutside (le32 port 44) portFeatures = 0

/-- What a port description in host order has become at an offset in network order. -/
structure PhyPortCarried (port data : Bytes) (o : ℕ) : Prop where
  portNo : be16 data o = le16 port 0
  hwAddr : ∀ i < 6, data (o+2+i) = port (2+i)
  name : ∀ i < 16, data (o+8+i) = port (8+i)
  config : be32 data (o+24) = le32 port 24
  state : be32 data (o+28) = le32 port 28
  curr : be32 data (o+32) = le32 port 32
  advertised : be32 data (o+36) = le32 port 36
  supported : be32 data (o+40) = le32 port 40
  peer : be32 data (o+44) = le32 port 44

/-- The message is its fixed part and the records, and each record can be had
back from its place with its padding cleared. -/
structure CarriesRecords (message : Message) (fixedPart size : ℕ) (ntoh : Bytes → Bytes → Bytes)
    (pads : List ℕ) (records : List Bytes) : Prop where
  length : message.length = fixedPart+records.length*size
  lengthField : be16 message.data 2 = fixedPart+records.length*size
  decoded : ∀ i record, records[i]? = some record → ∀ dst, ∀ j < size,
    ntoh dst (window message.data (fixedPart+i*size)) j = if j ∈ pads then 0 else record j

/-- Each record lies converted at its place. -/
def HoldsRecords (layout : Layout) (data : Bytes) (start : ℕ) (records : List Bytes) : Prop :=
  WalksTo (fun _ => layout.width) (fun p record => layout.Converted 0 record (window data p))
    (start+records.length*layout.width) start records

section Rules
variable {layout : Layout} {data : Bytes} {start : ℕ} {records : List Bytes}

theorem recordsLength_eq {fixedPart size count : ℕ} (hsize : 0 < size) (h : fixedPart+count*size ≤ 65535) :
    recordsLength fixedPart size count = fixedPart+count*size := by
  have hcount : count ≤ count*size := Nat.le_mul_of_pos_right count hsize
  rw [recordsLength,Nat.mod_eq_of_lt (by omega : count < 65536),Nat.mul_comm]
  exact Nat.mod_eq_of_lt (by omega)

theorem fillRecords_holds (layout : Layout) (records : List Bytes) (start : ℕ) (data : Bytes) :
    ∃ data', fillRecords (ntohRecord layout) layout.width start records data = some data' ∧
      HoldsRecords layout data' start records ∧ ∀ i < start, data' i = data i := by
  have hwrite : ∀ record ∈ records, ∀ dst : Bytes, ∃ block,
      some (ntohRecord layout dst record) = some block ∧ layout.Converted 0 record block ∧
      ∀ i, layout.width ≤ i → block i = dst i := by
    refine fun record _ dst => ⟨_,rfl,layout.converted_convert 0 record dst,fun i hi => ?_⟩
    exact layout.convert_outside 0 record dst (Or.inr (by omega))
  obtain ⟨data',hrun,hplaced,hframe⟩ := writeEach_placed hwrite
    (fun record _ block block' h he => h.congr (fun i _ hu => he i (by omega)))
  exact ⟨data',hrun,hplaced.walksTo (by rw [totalSize_const]) (fun p record _ _ hp => ⟨rfl,hp⟩),
    fun i hi => hframe i (Or.inl hi)⟩

theorem HoldsRecords.carries {message : Message} (h : HoldsRecords layout message.data start records)
    (hlength : message.length = start+records.length*layout.width)
    (hfield : be16 message.data 2 = message.length) :
    CarriesRecords message start layout.width (ntohRecord layout) (layout.pads 0) records :=
  ⟨hlength,hfield.trans hlength,fun _ _ hr dst j hj =>
    (WalksTo.getElem? h hr).back dst (Nat.zero_le j) (by omega)⟩

/-- The records are accepted where they lie when they pass in host order. -/
theorem HoldsRecords.accepted_iff {accepted : ℕ → Prop} {passes : Bytes → Prop}
    (h : HoldsRecords layout data start records)
    (hrule : ∀ p record, layout.Converted 0 record (window data p) → (accepted p ↔ passes record)) :
    (∀ i < records.length, accepted (start+i*layout.width)) ↔ ∀ record ∈ records, passes record :=
  WalksTo.forall_iff h (fun p record _ hp => hrule p record hp)

theorem phyPortCarried {p : ℕ} {port : Bytes} (h : ofpPhyPort.Converted 0 port (window data p)) :
    PhyPortCarried port data p := by
  obtain ⟨hport,hhwAddr,hname,hconfig,hstate,hcurr,hadvertised,hsupported,hpeer,-⟩ := h
  refine ⟨hport.read16 .host,fun i hi => ?_,fun i hi => ?_,hconfig.read32 .host,hstate.read32 .host,hcurr.read32 .host,
    hadvertised.read32 .host,hsupported.read32 .host,hpeer.read32 .host⟩
  · rw [Nat.add_assoc]
    exact hhwAddr.copied hi
  · rw [Nat.add_assoc]
    exact hname.copied hi

theorem PhyPortCarried.accepted_iff {p : ℕ} {port : Bytes} (h : PhyPortCarried port data p) :
    PhyPortAccepted data p ↔ HostPhyPortAccepted port := by
  constructor
  · rintro ⟨h₁,h₂,h₃,h₄,h₅,h₆,h₇⟩
    exact ⟨h.portNo ▸ h₁,h.config ▸ h₂,h.state ▸ h₃,h.curr ▸ h₄,h.advertised ▸ h₅,h.supported ▸ h₆,h.peer ▸ h₇⟩
  · rintro ⟨h₁,h₂,h₃,h₄,h₅,h₆,h₇⟩
    exact ⟨h.portNo ▸ h₁,h.config ▸ h₂,h.state ▸ h₃,h.curr ▸ h₄,h.advertised ▸ h₅,h.supported ▸ h₆,h.peer ▸ h₇⟩

/-- Copying the converted variable is converting in place. -/
theorem placePhyPorts_eq (phyPort : ℕ) (pn : Bytes) (ports : List Bytes) (data : Bytes) :
    fillRecords ntohPhyPort 48 phyPort ports data = some (placePhyPorts phyPort pn ports data) := by
  induction ports generalizing phyPort pn data with
  | nil => rfl
  | cons port ports ih =>
    have hcopy : splice data phyPort (ntohPhyPort (window data phyPort) port) =
        copyInto data phyPort (ntohPhyPort pn port) 48 := by
      funext i
      unfold splice copyInto
      by_cases hi : phyPort ≤ i
      · obtain ⟨j,rfl⟩ := Nat.exists_eq_add_of_le hi
        by_cases hj : j < 48
        · rw [if_pos hi,if_pos (by omega),Nat.add_sub_cancel_left]
          exact (ofpPhyPort.converted_convert 0 port _).eq_convert _ (Nat.zero_le j) (Nat.lt_add_left 0 hj)
        · rw [if_pos hi,if_neg (by omega),Nat.add_sub_cancel_left]
          exact ofpPhyPort.convert_outside 0 port _ (Or.inr (Nat.not_lt.mp hj))
      · rw [if_neg hi,if_neg (by omega)]
    rw [placePhyPorts,← ih,← hcopy]
    rfl

theorem ccCreateRecordsReply_spec (type : OfpStatsTypes) (transactionId : UInt32) {flags : UInt16}
    (hpos : 0 < layout.width) (hflags : bitsOutside flags.toNat ofpsfReplyMore = 0)
    (hfits : 12+records.length*layout.width ≤ 65535) :
    ∃ message, ccCreateRecordsReply type (ntohRecord layout) layout.width true transactionId flags records =
        some message ∧
      CarriesRecords message 12 layout.width (ntohRecord layout) (layout.pads 0) records ∧
      HoldsRecords layout message.data 12 records ∧ StatsReplyAccepted message := by
  have hlength := recordsLength_eq hpos hfits
  have hlt : 12+records.length*layout.width < 65536 := by omega
  obtain ⟨buffer,hbuffer,hfresh⟩ := ccCreateStatsReply_fresh transactionId type flags hlt
  obtain ⟨data,hfill,hholds,hframe⟩ := fillRecords_holds layout records 12 buffer.data
  have hsize : buffer.length = 12+records.length*layout.width := hfresh.size
  obtain ⟨hfield,hstats⟩ := hfresh.accepted hframe hflags (Nat.le_add_right 12 _) hfits
  refine ⟨{ buffer with data },?_,HoldsRecords.carries hholds hsize hfield,hholds,hstats⟩
  rw [ccCreateRecordsReply,hlength,hbuffer]
  simp [hfill]

theorem recordsReplyAccepted_iff {message : Message} {size count : ℕ} {accepted : ℕ → Prop} (hpos : 0 < size)
    (h : StatsReplyAccepted message) (hlength : message.length = 12+count*size) :
    RecordsReplyAccepted message size accepted ↔ ∀ i < count, accepted (12+i*size) := by
  rw [RecordsReplyAccepted,and_iff_right h,hlength,Nat.add_sub_cancel_left,Nat.mul_mod_left,
    Nat.mul_div_cancel count hpos,and_iff_right rfl]

/-- The reply of a statistics type, given what its rule says of a placed record. -/
theorem ccCreateRecordsReply_accepted (type : OfpStatsTypes) (transactionId : UInt32) {flags : UInt16}
    {accepted : Bytes → ℕ → Prop} {passes : Bytes → Prop} (hpos : 0 < layout.width)
    (hrule : ∀ data p record, layout.Converted 0 record (window data p) → (accepted data p ↔ passes record))
    (hflags : bitsOutside flags.toNat ofpsfReplyMore = 0) (hfits : 12+records.length*layout.width ≤ 65535) :
    ∃ message, ccCreateRecordsReply type (ntohRecord layout) layout.width true transactionId flags records =
        some message ∧
      CarriesRecords message 12 layout.width (ntohRecord layout) (layout.pads 0) records ∧
      (RecordsReplyAccepted message layout.width (accepted message.data) ↔ ∀ record ∈ records, passes record) := by
  obtain ⟨message,hmessage,hcarries,hholds,hstats⟩ :=
    ccCreateRecordsReply_spec type transactionId hpos hflags hfits
  refine ⟨message,hmessage,hcarries,?_⟩
  rw [recordsReplyAccepted_iff hpos hstats hcarries.length]
  exact HoldsRecords.accepted_iff hholds (hrule message.data)

theorem ccCreateFeaturesReply_accepted (pn : Bytes) (transactionId : UInt32) (features : SwitchFeatures)
    (ports : List Bytes) (hfits : 32+ports.length*48 ≤ 65535) :
    ∃ message, ccCreateFeaturesReply pn true transactionId features ports = some message ∧
      CarriesRecords message 32 48 ntohPhyPort (ofpPhyPort.pads 0) ports ∧
      (Returns (validateFeaturesReply message) message.data .success ↔
        features.nTables ≠ 0 ∧ ∀ port ∈ ports, HostPhyPortAccepted port) := by
  have hlength := recordsLength_eq (show 0 < 48 by decide) hfits
  have hlt : 32+ports.length*48 < 65536 := by omega
  obtain ⟨buffer,hbuffer,hsize,hheader⟩ := ccCreateHeader_fresh transactionId .ofptFeaturesReply hlt
  let data := storeNet (storeNet (storeNet (storeNet (storeNet (storeNet buffer.data 8 8
    features.datapathId.toNat) 16 4 features.nBuffers.toNat) 20 1 features.nTables.toNat) 21 3 0) 24 4
    features.capabilities.toNat) 28 4 features.actions.toNat
  have houtside : ∀ i < 8, data i = buffer.data i := fun i hi =>
    (storeNet_outside (by omega)).trans <| (storeNet_outside (by omega)).trans <|
    (storeNet_outside (by omega)).trans <| (storeNet_outside (by omega)).trans <|
    (storeNet_outside (by omega)).trans (storeNet_outside (by omega))
  have htables : data 20 = features.nTables := by
    have hstored := storeNet_at (storeNet (storeNet buffer.data 8 8 features.datapathId.toNat) 16 4
      features.nBuffers.toNat) 20 features.nTables.toNat (show 0 < 1 by decide)
    refine ((storeNet_outside (by omega)).trans <| (storeNet_outside (by omega)).trans <|
      (storeNet_outside (by omega)).trans hstored).trans ?_
    simp
  obtain ⟨data',hfill,hholds,hframe⟩ := fillRecords_holds ofpPhyPort ports 32 data
  have hplaced : (if ports.length%65536 ≠ 0 then placePhyPorts 32 pn ports data else data) = data' := by
    have heq : some (placePhyPorts 32 pn ports data) = some data' := (placePhyPorts_eq 32 pn ports data).symm.trans hfill
    rw [← Option.some.inj heq]
    cases ports with
    | nil => rfl
    | cons port ports =>
      rw [if_pos]
      rw [List.length_cons] at hfits ⊢
      omega
  have hheader' : HasHeader data' .ofptFeaturesReply (32+ports.length*48) :=
    hheader.congr (fun i hi => (hframe i (by omega)).trans (houtside i hi))
  have hfield : be16 data' 2 = buffer.length := hheader'.length.trans hsize.symm
  have hcarries := @HoldsRecords.carries ofpPhyPort 32 ports { buffer with data := data' } hholds hsize hfield
  refine ⟨{ buffer with data := data' },?_,hcarries,?_⟩
  · rw [ccCreateFeaturesReply,hlength,hbuffer,← hplaced]
    rfl
  · have hmost : buffer.length ≤ ushrtMax := hsize ▸ hfits
    have haccepted : HeaderAccepted { buffer with data := data' } .ofptFeaturesReply 32 ushrtMax :=
      HasHeader.accepted (hsize ▸ hheader') (by simp only [hsize]; omega) (by simp only [hsize]; omega) hmost
    rw [returns_validateFeaturesReply,and_iff_right haccepted,FeaturesBodyAccepted]
    simp only [hsize,Nat.add_sub_cancel_left,Nat.mul_mod_left,Nat.mul_div_cancel _ (show 0 < 48 by decide),true_and,
      hframe 20 (by decide),htables]
    refine and_congr ?_ (HoldsRecords.accepted_iff hholds (fun p port hp => (phyPortCarried hp).accepted_iff))
    rw [Ne,Ne,not_iff_not]
    exact UInt8.toNat_inj (b := 0)

theorem tableStatsAccepted_iff {p : ℕ} {tableStats : Bytes}
    (h : ofpTableStats.Converted 0 tableStats (window data p)) :
    validateWildcards (be32 data (p+36)) = .success ↔ bitsOutside (le32 tableStats 36) ofpfwAll = 0 := by
  obtain ⟨-,-,-,hwildcards,-⟩ := h
  have hwildcards : be32 data (p+36) = le32 tableStats 36 := hwildcards.read32 .host
  rw [hwildcards,validateWildcards_eq_success]

/-- Port and queue statistics begin with the port they are about. -/
theorem portNoAccepted_iff {fields : Layout} {p : ℕ} {record : Bytes}
    (h : Layout.Converted (⟨.swap,2⟩ :: fields) 0 record (window data p)) :
    validatePhyPortNo (be16 data p) = .success ↔ validatePhyPortNo (le16 record 0) = .success := by
  have hportNo : be16 data p = le16 record 0 := h.1.read16 .host
  rw [hportNo]

end Rules

/-- A statistics reply carries its records, and is accepted when they all pass. -/
def StatsReplyRoundTrips (create : Bool → UInt32 → UInt16 → List Bytes → Option Message)
    (validate : Message → Access ValidationCode) (size : ℕ) (ntoh : Bytes → Bytes → Bytes) (pads : List ℕ)
    (passes : Bytes → Prop) : Prop :=
  ∀ transactionId flags records, bitsOutside flags.toNat ofpsfReplyMore = 0 → 12+records.length*size ≤ 65535 →
    ∃ message, create true transactionId flags records = some message ∧
      CarriesRecords message 12 size ntoh pads records ∧
      (Returns (validate message) message.data .success ↔ ∀ record ∈ records, passes record)

theorem recordReplies_roundTrip :
    (∀ pn transactionId features ports, 32+ports.length*48 ≤ 65535 →
      ∃ message, ccCreateFeaturesReply pn true transactionId features ports = some message ∧
        CarriesRecords message 32 48 ntohPhyPort [] ports ∧
        (Returns (validateFeaturesReply message) message.data .success ↔
          features.nTables ≠ 0 ∧ ∀ port ∈ ports, HostPhyPortAccepted port)) ∧
    StatsReplyRoundTrips ccCreateTableStatsReply validateTableStatsReply 64 ntohTableStats [1,2,3]
      (fun tableStats => bitsOutside (le32 tableStats 36) ofpfwAll = 0) ∧
    StatsReplyRoundTrips ccCreatePortStatsReply validatePortStatsReply 104 ntohPortStats [2,3,4,5,6,7]
      (fun portStats => validatePhyPortNo (le16 portStats 0) = .success) ∧
    StatsReplyRoundTrips ccCreateQueueStatsReply validateQueueStatsReply 32 ntohQueueStats [2,3]
      (fun queueStats => validatePhyPortNo (le16 queueStats 0) = .success) := by
  refine ⟨ccCreateFeaturesReply_accepted,?_,?_,?_⟩
  · intro transactionId flags records hflags hfits
    obtain ⟨message,hmessage,hcarries,haccepted⟩ := @ccCreateRecordsReply_accepted ofpTableStats records
      .ofpstTable transactionId flags _ _ (by decide) (fun data p record => tableStatsAccepted_iff) hflags hfits
    exact ⟨message,hmessage,hcarries,(returns_validateRecordsReply (fun _ => by simp) 64).trans haccepted⟩
  · intro transactionId flags records hflags hfits
    obtain ⟨message,hmessage,hcarries,haccepted⟩ := @ccCreateRecordsReply_accepted ofpPortStats records
      .ofpstPort transactionId flags _ _ (by decide) (fun data p record => portNoAccepted_iff) hflags hfits
    exact ⟨message,hmessage,hcarries,(returns_validateRecordsReply (fun _ => by simp) 104).trans haccepted⟩
  · intro transactionId flags records hflags hfits
    obtain ⟨message,hmessage,hcarries,haccepted⟩ := @ccCreateRecordsReply_accepted ofpQueueStats records
      .ofpstQueue transactionId flags _ _ (by decide) (fun data p record => portNoAccepted_iff) hflags hfits
    exact ⟨message,hmessage,hcarries,(returns_validateRecordsReply (fun _ => by simp) 32).trans haccepted⟩

/-- Port 1, with nothing set otherwise. -/
def hostPort : Bytes := fun i => if i = 0 then 1 else 0

theorem recordReplies_roundTrip_hostPort :
    (∃ message, ccCreateFeaturesReply (fun _ => 7) true 1 ⟨1,0,2,0,0⟩ [hostPort,hostPort] = some message ∧
      CarriesRecords message 32 48 ntohPhyPort [] [hostPort,hostPort] ∧
      Returns (validateFeaturesReply message) message.data .success) ∧
    ∃ message, ccCreatePortStatsReply true 1 1 [hostPort] = some message ∧
      CarriesRecords message 12 104 ntohPortStats [2,3,4,5,6,7] [hostPort] ∧
      Returns (validatePortStatsReply message) message.data .success := by
  have hport : HostPhyPortAccepted hostPort :=
    ⟨by decide,by decide,by decide,by decide,by decide,by decide,by decide⟩
  obtain ⟨hfeatures,-,hports,-⟩ := recordReplies_roundTrip
  obtain ⟨reply,hreply,hcarries,haccepted⟩ := hfeatures (fun _ => 7) 1 ⟨1,0,2,0,0⟩ [hostPort,hostPort] (by decide)
  obtain ⟨stats,hstats,hcarries',haccepted'⟩ := hports 1 1 [hostPort] (by decide) (by decide)
  refine ⟨⟨reply,hreply,hcarries,haccepted.mpr ⟨by decide,?_⟩⟩,⟨stats,hstats,hcarries',haccepted'.mpr ?_⟩⟩
  · simpa using hport
  · simpa using hport.portNo

end OpenFlowController.Create
