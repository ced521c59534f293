import Mathlib.Order.Bounds.Defs
import OpenFlowController.Check.Termination
import OpenFlowController.Check.Tiling

/-! # What accepted lists are made of

An action list, a list of queue properties, a flow reply and a queue reply are
concatenations of items with lengths of their own. Their validators follow the same
lengths, but they look where an item begins and not where it ends.
-/
namespace OpenFlowController.Check
open Memory Access Protocol

/-- The `length` bytes are actions one behind the other. -/
def ActionList (mem : Bytes) (actionsHead length : ℕ) : Prop :=
  Tiled (fun offset => ActionAccepted mem (actionsHead+offset))
    (fun offset => be16 mem (actionsHead+offset+2)) length 0

def PropertyList (mem : Bytes) (propHead length : ℕ) : Prop :=
  Tiled (fun offset => PropertyAccepted mem (propHead+offset))
    (fun offset => be16 mem (propHead+offset+2)) length 0

/-- No action that the walk comes to reaches past the end of the list. -/
def ActionsContained (mem : Bytes) (actionsHead length : ℕ) : Prop :=
  ∀ offset, ActionOffset mem actionsHead length offset → offset < length →
    offset+be16 mem (actionsHead+offset+2) ≤ length

def PropertiesContained (mem : Bytes) (propHead length : ℕ) : Prop :=
  ∀ offset, PropertyOffset mem propHead length offset → offset < length →
    offset+be16 mem (propHead+offset+2) ≤ length

/-- A flow entry as the protocol has it. -/
structure FlowStatsFormed (mem : Bytes) (flowStats : ℕ) : Prop where
  least : 88 ≤ be16 mem flowStats
  head : FlowStatsHeadAccepted mem flowStats
  actions : ActionList mem (flowStats+88) (be16 mem flowStats-88)

def FlowStatsList (message : Message) : Prop :=
  Tiled (FlowStatsFormed message.data) (be16 message.data) message.length 12

/-- The entry at a cursor has room for its fixed part, ends inside the message and
has its actions inside itself. -/
structure FlowStatsContained (mem : Bytes) (s : ℕ × ℕ) : Prop where
  least : 88 ≤ be16 mem s.2
  inside : be16 mem s.2 ≤ s.1
  actions : ActionsContained mem (s.2+88) (be16 mem s.2-88)

structure PacketQueueFormed (mem : Bytes) (queue : ℕ) : Prop where
  least : 16 ≤ be16 mem (queue+4)
  properties : PropertyList mem (queue+8) (be16 mem (queue+4)-8)

def PacketQueueList (message : Message) : Prop :=
  Tiled (PacketQueueFormed message.data) (fun queue => be16 message.data (queue+4)) message.length 16

structure PacketQueueContained (mem : Bytes) (s : ℕ × ℕ) : Prop where
  inside : be16 mem (s.2+4) ≤ s.1
  properties : PropertiesContained mem (s.2+8) (be16 mem (s.2+4)-8)

/-- The first walk comes out even and the second accepts every description of it. -/
def QueueConfigAccepted (message : Message) : Prop :=
  HeaderAccepted message .ofptQueueGetConfigReply 24 ushrtMax ∧
    validatePhyPortNo (be16 message.data 8) = .success ∧
    (∃ queue, CountedQueue message.data (message.length-16,16) (0,queue)) ∧
    ∀ s, CountedQueue message.data (message.length-16,16) s → 8 < s.1 → QueueAccepted message.data s.2

/-- Where the last of the actions that the walk comes to ends, counted from the head. -/
def ActionsEnd (mem : Bytes) (actionsHead length : ℕ) : ℕ → Prop :=
  IsLeast {stop | ∀ offset, ActionOffset mem actionsHead length offset → offset < length →
    offset+be16 mem (actionsHead+offset+2) ≤ stop}

/-- `data_length` of `validate_packet_out`. -/
def packetDataLength (message : Message) : ℕ := sub16 (sub16 (be16 message.data 2) 16) (be16 message.data 14)

/-- The difference does not wrap round, and it is what follows the actions. -/
structure PacketDataCounted (message : Message) : Prop where
  room : 16+be16 message.data 14 ≤ message.length
  follows : ∃ stop, ActionsEnd message.data 16 (be16 message.data 14) stop ∧
    16+stop+packetDataLength message = message.length

/-- Every action of a packet-out ends inside its list and inside the message. -/
structure PacketOutContained (message : Message) : Prop where
  list : ActionsContained message.data 16 (be16 message.data 14)
  message : ∀ offset, ActionOffset message.data 16 (be16 message.data 14) offset →
    offset < be16 message.data 14 → 16+offset+be16 message.data (16+offset+2) ≤ message.length

section Rules
variable {mem : Bytes} {message : Message}

theorem actionList_iff {actionsHead length : ℕ} (hlength : length < 65536)
    (h : ActionsAccepted mem actionsHead length) :
    ActionList mem actionsHead length ↔ ActionsContained mem actionsHead length :=
  tiled_iff_contained hlength h

theorem propertyList_iff {propHead length : ℕ} (hlength : length < 65536)
    (h : ∃ offset, PropertyOffset mem propHead length offset ∧ length ≤ offset) :
    PropertyList mem propHead length ↔ PropertiesContained mem propHead length :=
  tiled_iff_contained hlength h

theorem ActionList.accepted {actionsHead length : ℕ} (hlength : length < 65536)
    (h : ActionList mem actionsHead length) : ActionsAccepted mem actionsHead length := by
  obtain ⟨offset,ho,hend⟩ :=
    (offsetCursor _ hlength).ends_of_tiled (Nat.zero_le length) (fun _ _ _ hf => hf) h
  exact ⟨offset,ho,by simpa using hend⟩

/-- Where the walk over an action list ends, it accepts action lists and nothing else
unless it accepts a list with an action that reaches past the end. -/
theorem validateActions_exact_iff (mem : Bytes) (actionsHead : ℕ) (length : UInt16) :
    (Terminates (validateActions actionsHead length.toNat) mem →
      (Returns (validateActions actionsHead length.toNat) mem .success ↔
        ActionList mem actionsHead length.toNat)) ↔
      (ActionsAccepted mem actionsHead length.toNat → ActionsContained mem actionsHead length.toNat) := by
  have hlength : length.toNat < 65536 := length.toNat_lt
  rw [returns_validateActions]
  constructor
  · intro h haccepted
    have hterm : Terminates (validateActions actionsHead length.toNat) mem :=
      ⟨_,(returns_validateActions _ _).mpr haccepted⟩
    exact (actionList_iff hlength haccepted).mp ((h hterm).mp haccepted)
  · intro h _
    constructor
    · intro haccepted
      exact (actionList_iff hlength haccepted).mpr (h haccepted)
    · exact fun hlist => hlist.accepted hlength

/-- A list of 8 bytes with a vendor action that says it has 16. -/
def overrunningAction : Bytes := fun o => if o < 2 then 0xff else if o = 3 then 16 else 0

theorem actionAccepted_overrunningAction : ActionAccepted overrunningAction 0 := .vendor (by decide) (by decide)

theorem validateActions_overrunningAction :
    Returns (validateActions 0 8) overrunningAction .success ∧ ¬ ActionList overrunningAction 0 8 := by
  constructor
  · refine (returns_validateActions 0 8).mpr ⟨16,?_,by decide⟩
    exact Visits.head (by decide) actionAccepted_overrunningAction .refl
  · intro hlist
    have hle := (hlist.first (by decide)).2.le
    exact absurd hle (by decide)

/-- What the check of an entry leaves to be said about its lengths. -/
theorem flowStatsFormed_iff {flowStats : ℕ} (h : FlowStatsAccepted mem flowStats) :
    FlowStatsFormed mem flowStats ↔
      88 ≤ be16 mem flowStats ∧ ActionsContained mem (flowStats+88) (be16 mem flowStats-88) := by
  have hlt := be16_lt mem flowStats
  obtain ⟨hhead,hactions⟩ := h
  constructor
  · rintro ⟨hl,-,ha⟩
    rw [flowActionsLength,sub16_of_le hl hlt] at hactions
    exact ⟨hl,(actionList_iff (by omega) hactions).mp ha⟩
  · rintro ⟨hl,ha⟩
    rw [flowActionsLength,sub16_of_le hl hlt] at hactions
    exact ⟨hl,hhead,(actionList_iff (by omega) hactions).mpr ha⟩

/-- An accepted flow reply is a list of whole entries unless it has an entry that is
too short, or too long for the message, or too short for its actions. -/
theorem validateFlowStatsReply_nests_iff (message : Message) :
    (Returns (validateFlowStatsReply message) message.data .success → FlowStatsList message) ↔
      (FlowReplyAccepted message → ∀ s, FlowStatsCursor message.data (message.length-12,12) s → 0 < s.1 →
        FlowStatsContained message.data s) := by
  have hcursor (hm : message.length ≤ 65535) := leftCursor (be16 message.data) 0 (Nat.lt_succ_of_le hm)
  constructor
  · intro h haccepted s hs hpos
    have hreturns := returns_validateFlowStatsReply.mpr haccepted
    have hl := haccepted.1.1.least
    obtain ⟨hin,hformed,hle⟩ := (hcursor haccepted.1.1.most).item_of_tiled
      (s := (message.length-12,12)) (by simp only; omega) (h hreturns) hs (by simpa using hpos)
    have hentry := (flowStatsFormed_iff (FlowStatsCursor.accepted hreturns hs hpos)).mp hformed
    exact ⟨hentry.1,by omega,hentry.2⟩
  · intro h hreturns
    have haccepted := returns_validateFlowStatsReply.mp hreturns
    have hl := haccepted.1.1.least
    obtain ⟨t,ht,hend⟩ := haccepted.2
    refine (hcursor haccepted.1.1.most).tiled_of_items (s := (message.length-12,12))
      (by simp only; omega) ht (by omega) ?_
    intro s hs hin hm
    have hpos : 0 < s.1 := by simpa using hm
    obtain ⟨hleast,hinside,hactions⟩ := h haccepted s hs hpos
    have hentry := FlowStatsCursor.accepted hreturns hs hpos
    exact ⟨(flowStatsFormed_iff hentry).mpr ⟨hleast,hactions⟩,by omega⟩

/-- A flow reply with one entry of 96 bytes, 8 of them actions, and in these a vendor
action of 16. -/
def overrunningFlowReply : Message where
  data o := if o = 0 then 1 else if o = 1 then 17 else if o = 3 then 108 else if o = 9 then 1 else
    if o = 13 then 96 else if o = 17 then 0x3f else if o = 18 ∨ o = 19 ∨ o = 100 ∨ o = 101 then 0xff else
    if o = 103 then 16 else 0
  length := 108

theorem validateFlowStatsReply_overrunningFlowReply :
    Returns (validateFlowStatsReply overrunningFlowReply) overrunningFlowReply.data .success ∧
      ¬ FlowStatsList overrunningFlowReply := by
  have hreply : StatsReplyAccepted overrunningFlowReply :=
    ⟨⟨by decide,by decide,by decide,by decide,by decide,by decide⟩,by decide⟩
  have haction : ActionAccepted overrunningFlowReply.data 100 := .vendor (by decide) (by decide)
  have hentry : FlowStatsAccepted overrunningFlowReply.data 12 := by
    refine ⟨⟨by decide,fun h => absurd h (by decide)⟩,16,?_,by decide⟩
    exact Visits.head (by decide) haction .refl
  constructor
  · refine returns_validateFlowStatsReply.mpr ⟨hreply,(0,108),?_,rfl⟩
    exact Visits.head (by decide) hentry .refl
  · intro hlist
    have hactions : ActionList overrunningFlowReply.data 100 8 := (hlist.first (by decide)).1.actions
    have hle := (hactions.first (by decide)).2.le
    exact absurd hle (by decide)

/-- The second walk accepts what the first has counted when it accepts each of it. -/
theorem returns_validatePacketQueues_iff {s : ℕ × ℕ} {n : ℕ} (h : CountsTo mem s n) :
    Returns (validatePacketQueues s.2 n) mem .success ↔
      ∀ t, CountedQueue mem s t → 8 < t.1 → QueueAccepted mem t.2 := by
  induction n generalizing s with
  | zero =>
    have h0 : s.1 = 0 := h
    refine iff_of_true (by simp [validatePacketQueues]) (fun t ht hl => ?_)
    rcases visits_iff.mp ht with rfl | ⟨hs,-,-⟩
    · omega
    · simp [h0] at hs
  | succ n ih =>
    obtain ⟨hl,hcount⟩ := h
    have hrest := ih hcount
    rw [validatePacketQueues,returns_ensure_success,returns_validatePacketQueue]
    simp only [returns_bind,returns_ntohsAt,exists_eq_left']
    change _ ∧ Returns (validatePacketQueues (nextQueue mem s).2 n) mem .success ↔ _
    rw [hrest]
    constructor
    · rintro ⟨hhead,htail⟩ t ht hlt
      rcases visits_iff.mp ht with rfl | ⟨-,-,ht⟩
      · exact hhead
      · exact htail t ht hlt
    · intro hall
      refine ⟨hall s .refl hl,fun t ht => hall t ?_⟩
      exact Visits.head (by simpa using hl) trivial ht

theorem returns_validateQueueGetConfigReply_iff :
    Returns (validateQueueGetConfigReply message) message.data .success ↔ QueueConfigAccepted message := by
  rw [validateQueueGetConfigReply,returns_ensure_success,returns_validateHeader,QueueConfigAccepted]
  refine and_congr_right (fun h => ?_)
  have hl := h.least
  have hm : message.length ≤ 65535 := h.most
  have hlen : sub16 message.length 16 = message.length-16 := sub16_of_le (by omega) (by omega)
  rw [returns_ensure_success]
  simp only [returns_bind,returns_ntohsAt,exists_eq_left',returns_pure,h.length,hlen]
  refine and_congr_right (fun _ => ?_)
  rw [countedQueue_even_iff]
  constructor
  · rintro ⟨⟨l,n⟩,hcount,hrest⟩
    obtain rfl : l = 0 := by
      by_contra hne
      simp [hne] at hrest
    have hto := (returns_countQueues (message.length-16,16) n).mp hcount
    refine ⟨⟨n,hto⟩,(returns_validatePacketQueues_iff hto).mp ?_⟩
    rcases Nat.eq_zero_or_pos n with rfl | hn
    · simp [validatePacketQueues]
    · simpa [hn] using hrest
  · rintro ⟨⟨n,hto⟩,hall⟩
    refine ⟨(0,n),(returns_countQueues (message.length-16,16) n).mpr hto,?_⟩
    simpa using fun _ => (returns_validatePacketQueues_iff hto).mpr hall

theorem packetQueueFormed_iff {queue : ℕ} (h : QueueAccepted mem queue) :
    PacketQueueFormed mem queue ↔ PropertiesContained mem (queue+8) (be16 mem (queue+4)-8) := by
  have hlt := be16_lt mem (queue+4)
  obtain ⟨hl,hproperties⟩ := h
  rw [sub16_of_le (by omega) hlt] at hproperties
  constructor
  · rintro ⟨-,hlist⟩
    exact (propertyList_iff (by omega) hproperties).mp hlist
  · exact fun hcontained => ⟨hl,(propertyList_iff (by omega) hproperties).mpr hcontained⟩

/-- An accepted queue reply is a list of well-nested descriptions unless it has one
that is too long for the message or too short for its properties. -/
theorem validateQueueGetConfigReply_nests_iff (message : Message) :
    (Returns (validateQueueGetConfigReply message) message.data .success → PacketQueueList message) ↔
      (QueueConfigAccepted message → ∀ s, CountedQueue message.data (message.length-16,16) s → 8 < s.1 →
        PacketQueueContained message.data s) := by
  rw [returns_validateQueueGetConfigReply_iff]
  refine imp_congr_right (fun haccepted => ?_)
  obtain ⟨hheader,-,⟨queue,heven⟩,hqueues⟩ := haccepted
  have hl := hheader.least
  have hm : message.length ≤ 65535 := hheader.most
  have cursor := leftCursor (fun queue => be16 message.data (queue+4)) 8 (Nat.lt_succ_of_le hm)
  constructor
  · intro hlist s hs hmore
    obtain ⟨hin,hformed,hle⟩ := cursor.item_of_tiled
      (s := (message.length-16,16)) (by simp only; omega) hlist hs (by simpa using hmore)
    exact ⟨by omega,(packetQueueFormed_iff (hqueues s hs hmore)).mp hformed⟩
  · intro hcontained
    refine cursor.tiled_of_items (s := (message.length-16,16)) (by simp only; omega) heven
      (fun hin => by simpa using hin) ?_
    intro s hs hin hm
    have hmore : 8 < s.1 := by simpa using hm
    obtain ⟨hinside,hproperties⟩ := hcontained s hs hmore
    exact ⟨(packetQueueFormed_iff (hqueues s hs hmore)).mpr hproperties,by omega⟩

/-- A queue reply with one description of 16 bytes, in it a minimum rate of 16. -/
def overrunningQueueReply : Message where
  data o := if o = 0 then 1 else if o = 1 then 21 else if o = 3 then 32 else if o = 9 then 1 else
    if o = 21 then 16 else if o = 25 then 1 else if o = 27 then 16 else 0
  length := 32

theorem validateQueueGetConfigReply_overrunningQueueReply :
    Returns (validateQueueGetConfigReply overrunningQueueReply) overrunningQueueReply.data .success ∧
      ¬ PacketQueueList overrunningQueueReply := by
  have hheader : HeaderAccepted overrunningQueueReply .ofptQueueGetConfigReply 24 ushrtMax :=
    ⟨by decide,by decide,by decide,by decide,by decide,by decide⟩
  have hproperty : PropertyAccepted overrunningQueueReply.data 24 := Or.inr ⟨by decide,by decide⟩
  have hqueue : QueueAccepted overrunningQueueReply.data 16 := by
    refine ⟨by decide,16,?_,by decide⟩
    exact Visits.head (by decide) hproperty .refl
  have heven : CountsTo overrunningQueueReply.data (16,16) 1 :=
    ⟨by decide,show (nextQueue overrunningQueueReply.data (16,16)).1 = 0 by decide⟩
  constructor
  · refine returns_validateQueueGetConfigReply_iff.mpr ⟨hheader,by decide,countedQueue_even_iff.mpr ⟨1,heven⟩,?_⟩
    refine (returns_validatePacketQueues_iff heven).mp ?_
    simpa [validatePacketQueues,returns_validatePacketQueue] using hqueue
  · intro hlist
    have hproperties : PropertyList overrunningQueueReply.data 24 8 := (hlist.first (by decide)).1.properties
    have hle := (hproperties.first (by decide)).2.le
    exact absurd hle (by decide)

/-- The walk leaves a list behind the last action, so nothing of the list is left. -/
theorem ActionsAccepted.le_of_bound {actionsHead length stop : ℕ} (h : ActionsAccepted mem actionsHead length)
    (hstop : ∀ offset, ActionOffset mem actionsHead length offset → offset < length →
      offset+be16 mem (actionsHead+offset+2) ≤ stop) : length ≤ stop := by
  obtain ⟨last,hlast,hle⟩ := h
  rcases Relation.ReflTransGen.cases_tail hlast with rfl | ⟨offset,ho,hl,-,rfl⟩
  · omega
  · have hbound := hstop offset ho (by simpa using hl)
    have hwrap := Nat.mod_le (offset+be16 mem (actionsHead+offset+2)) 65536
    exact Nat.le_trans hle (Nat.le_trans hwrap hbound)

theorem ActionsAccepted.ends {actionsHead length : ℕ} (h : ActionsAccepted mem actionsHead length)
    (hcontained : ActionsContained mem actionsHead length) : ActionsEnd mem actionsHead length length :=
  ⟨hcontained,fun _ hstop => h.le_of_bound hstop⟩

/-- The length of the packet data of an accepted packet-out is right unless an action
reaches past the list or the message. -/
theorem validatePacketOut_counts_iff (message : Message) :
    (Returns (validatePacketOut message) message.data .success → PacketDataCounted message) ↔
      (HeaderAccepted message .ofptPacketOut 16 ushrtMax → validatePhyPortNo (be16 message.data 12) = .success →
        ActionsAccepted message.data 16 (be16 message.data 14) → PacketOutContained message) := by
  rw [returns_validatePacketOut]
  have hdata (hheader : HeaderAccepted message .ofptPacketOut 16 ushrtMax)
      (hroom : 16+be16 message.data 14 ≤ message.length) :
      packetDataLength message = message.length-16-be16 message.data 14 := by
    have hm : message.length ≤ 65535 := hheader.most
    rw [packetDataLength,hheader.length,sub16_of_le hheader.least (by omega),sub16_of_le (by omega) (by omega)]
  constructor
  · intro h hheader hport hactions
    obtain ⟨hroom,stop,hend,hstop⟩ := h ⟨hheader,hport,hactions⟩
    rw [hdata hheader hroom] at hstop
    obtain rfl : stop = be16 message.data 14 := by omega
    refine ⟨hend.1,fun offset ho hl => ?_⟩
    have hle := hend.1 offset ho hl
    omega
  · rintro h ⟨hheader,hport,hactions⟩
    obtain ⟨hlist,hmessage⟩ := h hheader hport hactions
    have hl := hheader.least
    have hroom : be16 message.data 14 ≤ message.length-16 := by
      refine hactions.le_of_bound (fun offset ho hlt => ?_)
      have hle := hmessage offset ho hlt
      omega
    refine ⟨by omega,_,hactions.ends hlist,?_⟩
    rw [hdata hheader (by omega)]
    omega

/-- A packet-out of 24 bytes that says it has 16 bytes of actions, all of them one
vendor action. -/
def overrunningPacketOut : Message where
  data o := if o = 0 then 1 else if o = 1 then 13 else if o = 3 then 24 else if o = 13 then 1 else
    if o = 15 then 16 else if o = 16 ∨ o = 17 then 0xff else if o = 19 then 16 else 0
  length := 24

theorem validatePacketOut_overrunningPacketOut :
    Returns (validatePacketOut overrunningPacketOut) overrunningPacketOut.data .success ∧
      packetDataLength overrunningPacketOut = 65528 ∧ ¬ PacketDataCounted overrunningPacketOut := by
  have hheader : HeaderAccepted overrunningPacketOut .ofptPacketOut 16 ushrtMax :=
    ⟨by decide,by decide,by decide,by decide,by decide,by decide⟩
  have haction : ActionAccepted overrunningPacketOut.data 16 := .vendor (by decide) (by decide)
  refine ⟨returns_validatePacketOut.mpr ⟨hheader,by decide,16,?_,by decide⟩,by decide,fun h => ?_⟩
  · exact Visits.head (by decide) haction .refl
  · exact absurd h.room (by decide)

end Rules
end OpenFlowController.Check
