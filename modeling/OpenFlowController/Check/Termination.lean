import OpenFlowController.Check.Queues
import OpenFlowController.Check.Statistics
import OpenFlowController.Check.Walks

/-! # Which validators come to an end

The offsets and the counts of bytes left have 16 bits and are moved by lengths that
the peer chooses. Whether a loop ends is said by where these lengths lead when they
are added up exactly.
-/
namespace OpenFlowController.Check
open Memory Access Protocol

/-- The offsets at which items begin, with their lengths added up exactly. -/
def Begins (accepted : ℕ → Prop) (step : ℕ → ℕ) (length : ℕ) : ℕ → Prop :=
  Visits (fun offset => offset < length) accepted (fun offset => offset+step offset) 0

/-- No accepted item that begins inside the list ends past a 16-bit offset. -/
def Fits (accepted : ℕ → Prop) (step : ℕ → ℕ) (length : ℕ) : Prop :=
  ∀ offset, Begins accepted step length offset → offset < length → accepted offset →
    offset+step offset < 65536

def ActionsFit (mem : Bytes) (actionsHead length : ℕ) : Prop :=
  Fits (fun offset => ActionAccepted mem (actionsHead+offset))
    (fun offset => be16 mem (actionsHead+offset+2)) length

def PropertiesFit (mem : Bytes) (propHead length : ℕ) : Prop :=
  Fits (fun offset => PropertyAccepted mem (propHead+offset))
    (fun offset => be16 mem (propHead+offset+2)) length

/-- The walk over a list of actions gets to an offset that it has left. -/
def ActionsReturn (mem : Bytes) (actionsHead length : ℕ) : Prop :=
  ∃ offset, ActionOffset mem actionsHead length offset ∧ offset < length ∧
    ActionAccepted mem (actionsHead+offset) ∧
    Visits (fun offset => offset < length) (fun offset => ActionAccepted mem (actionsHead+offset))
      (fun offset => (offset+be16 mem (actionsHead+offset+2))%65536)
      ((offset+be16 mem (actionsHead+offset+2))%65536) offset

/-- One pass of the loop of `validate_actions`. -/
def actionsRound (actionsHead length : ℕ) : ℕ → Access (ℕ ⊕ ValidationCode) :=
  walkRound (fun offset => offset < length) (fun offset => validateAction (actionsHead+offset))
    (nextAction actionsHead)

/-- A pass that does not return moves the offset forward. -/
def ActionsForward (mem : Bytes) (actionsHead length : ℕ) : Prop :=
  ∀ offset offset', Reaches (actionsRound actionsHead length) mem 0 offset →
    Turns (actionsRound actionsHead length) mem offset offset' → offset < offset'

/-- Where the `n`-th item begins when each begins behind the one before. -/
def itemAt (length : ℕ → ℕ) (start n : ℕ) : ℕ := (fun position => position+length position)^[n] start

/-- What a 16-bit count makes of the bytes from `position` up to `length`. -/
def bytesLeft (length position : ℕ) : ℕ := (length+65536-position%65536)%65536

def flowStatsAt (message : Message) (n : ℕ) : ℕ := itemAt (be16 message.data) 12 n

def FlowStatsRefused (mem : Bytes) (flowStats : ℕ) : Prop :=
  ¬ FlowStatsHeadAccepted mem flowStats ∨
    ¬ ActionsAccepted mem (flowStats+88) (flowActionsLength mem flowStats) ∧
      ¬ ActionsReturn mem (flowStats+88) (flowActionsLength mem flowStats)

/-- Behind accepted entries their lengths come to the end of the message, up to a
multiple of 2^16, or to an entry that is refused. -/
def FlowStatsEnd (message : Message) : Prop :=
  ∃ n, (∀ i < n, FlowStatsAccepted message.data (flowStatsAt message i)) ∧
    (bytesLeft message.length (flowStatsAt message n) = 0 ∨
      FlowStatsRefused message.data (flowStatsAt message n))

def queueAt (message : Message) (n : ℕ) : ℕ := itemAt (fun queue => be16 message.data (queue+4)) 16 n

/-- The lengths of the descriptions come to at most 8 bytes before the end of the
message, up to a multiple of 2^16; if nothing is left, the properties fit in every
description that follows accepted ones only. -/
def QueuesEnd (message : Message) : Prop :=
  ∃ n, (∀ i < n, 8 < bytesLeft message.length (queueAt message i)) ∧
    bytesLeft message.length (queueAt message n) ≤ 8 ∧
    (bytesLeft message.length (queueAt message n) = 0 →
      ∀ i < n, (∀ j < i, QueueAccepted message.data (queueAt message j)) →
        16 ≤ be16 message.data (queueAt message i+4) →
        PropertiesFit message.data (queueAt message i+8) (be16 message.data (queueAt message i+4)-8))

section Offsets
variable {accepted : ℕ → Prop} {step : ℕ → ℕ} {length offset : ℕ}

/-- Items that fit are met by the 16-bit offset as by the exact one. -/
theorem Fits.visits_iff (h : Fits accepted step length) :
    Visits (fun offset => offset < length) accepted (fun offset => (offset+step offset)%65536) 0 offset ↔
      Begins accepted step length offset := by
  constructor
  · intro hv
    induction hv with
    | refl => exact .refl
    | @tail a b _ hstep ih =>
      obtain ⟨hm,ha,rfl⟩ := hstep
      change Begins accepted step length ((a+step a)%65536)
      rw [Nat.mod_eq_of_lt (h a ih (by simpa using hm) ha)]
      exact ih.tail ⟨hm,ha,rfl⟩
  · intro hb
    induction hb with
    | refl => exact .refl
    | @tail a b hab hstep ih =>
      obtain ⟨hm,ha,rfl⟩ := hstep
      refine ih.tail ⟨hm,ha,?_⟩
      exact Nat.mod_eq_of_lt (h a hab (by simpa using hm) ha)

/-- What holds of the first offset and of the one behind every accepted item, and
keeps items below 2^16, makes them all fit. -/
theorem fits_of_invariant (invariant : ℕ → Prop) (hstart : invariant 0)
    (hnext : ∀ offset,
      Visits (fun offset => offset < length) accepted (fun offset => (offset+step offset)%65536) 0 offset →
      invariant offset → offset < length → accepted offset →
      offset+step offset < 65536 ∧ invariant (offset+step offset)) : Fits accepted step length := by
  have hbegins : ∀ offset, Begins accepted step length offset →
      Visits (fun offset => offset < length) accepted (fun offset => (offset+step offset)%65536) 0 offset ∧
        invariant offset := by
    intro offset hb
    induction hb with
    | refl => exact ⟨.refl,hstart⟩
    | @tail a b _ hs ih =>
      obtain ⟨hm,ha,rfl⟩ := hs
      obtain ⟨hlt,hinv⟩ := hnext a ih.1 ih.2 (by simpa using hm) ha
      exact ⟨ih.1.tail ⟨hm,ha,Nat.mod_eq_of_lt hlt⟩,hinv⟩
  intro offset hb hl ha
  obtain ⟨hv,hinv⟩ := hbegins offset hb
  exact (hnext offset hv hinv hl ha).1

/-- Items of a positive length that fit are passed in the end. -/
theorem Fits.stops (h : Fits accepted step length) (hpos : ∀ offset, accepted offset → 0 < step offset) :
    ∃ offset, Visits (fun offset => offset < length) accepted (fun offset => (offset+step offset)%65536) 0 offset ∧
      (decide (offset < length) = false ∨ ¬ accepted offset) := by
  refine exists_stop id 65535 (fun o ho hm ha => ?_)
  have hfit := h o (h.visits_iff.mp ho) (by simpa using hm) ha
  have hstep := hpos o ha
  simp only [id]
  omega

end Offsets

section Rules
variable {mem : Bytes} {message : Message}

theorem terminates_validateHeader {message : Message} {type : OfpType} {minLength maxLength : ℕ} :
    Terminates (validateHeader message type minLength maxLength) message.data := by
  simp only [validateHeader,terminates_bind,terminates_ite,terminates_pure,returns_byteAt,returns_ntohsAt,
    exists_eq_left',ite_self]

theorem terminates_validateAction (action : ℕ) : Terminates (validateAction action) mem := by
  simp only [validateAction,terminates_bind,terminates_ite,terminates_pure,returns_ntohsAt,exists_eq_left']
  split
  · trivial
  cases OfpActionType.ofValue (be16 mem action) with
  | none => simp
  | some type =>
    cases type <;>
      simp [validateActionOutput,validateActionSetVlanVid,validateActionSetVlanPcp,validateActionStripVlan,
        validateActionSetDlSrc,validateActionSetDlDst,validateActionSetNwSrc,validateActionSetNwDst,
        validateActionSetNwTos,validateActionSetTpSrc,validateActionSetTpDst,validateActionEnqueue,
        validateActionVendor,ntohActionOutput,ntohActionVlanVid,ntohActionVlanPcp,ntohActionDlAddr,
        ntohActionNwAddr,ntohActionNwTos,ntohActionTpPort,ntohActionEnqueue]

theorem ActionAccepted.eight_le {action : ℕ} (h : ActionAccepted mem action) : 8 ≤ be16 mem (action+2) := by
  unfold ActionAccepted at h
  split at h <;> grind

theorem turns_actionsRound (actionsHead length offset offset' : ℕ) :
    Turns (actionsRound actionsHead length) mem offset offset' ↔ offset < length ∧
      ActionAccepted mem (actionsHead+offset) ∧ (offset+be16 mem (actionsHead+offset+2))%65536 = offset' := by
  rw [actionsRound,turns_walkRound (fun offset => returns_validateAction _) (returns_nextAction actionsHead)]
  simp

theorem reaches_actionsRound (actionsHead length offset : ℕ) :
    Reaches (actionsRound actionsHead length) mem 0 offset ↔ ActionOffset mem actionsHead length offset := by
  rw [actionsRound,reaches_walkRound (fun offset => returns_validateAction _) (returns_nextAction actionsHead)]
  rfl

theorem terminates_validateActions_iff_stops (actionsHead length : ℕ) :
    Terminates (validateActions actionsHead length) mem ↔
      ∃ offset, ActionOffset mem actionsHead length offset ∧
        (decide (offset < length) = false ∨ ¬ ActionAccepted mem (actionsHead+offset)) := by
  rw [validateActions,terminates_walk (fun offset => returns_validateAction _) (returns_nextAction actionsHead)]
  simp only [endsIn_iff,terminates_validateAction,true_and,returns_validateAction]
  rfl

theorem terminates_validateActions (actionsHead length : ℕ) :
    Terminates (validateActions actionsHead length) mem ↔ ¬ ActionsReturn mem actionsHead length := by
  rw [terminates_validateActions_iff_stops]
  refine (stops_iff_no_return (by decide : 0 < 65536) (fun offset => Nat.mod_lt _ (by decide))).trans ?_
  simp [ActionsReturn,ActionOffset]

/-- Every pass moves the offset towards the end of the list exactly when no accepted
action reaches past a 16-bit offset. -/
theorem actionsForward_iff (actionsHead length : ℕ) :
    ActionsForward mem actionsHead length ↔ ActionsFit mem actionsHead length := by
  constructor
  · intro hf
    refine fits_of_invariant (fun offset => offset < 65536) (by decide) ?_
    intro offset ho h16 hl ha
    have hlen := be16_lt mem (actionsHead+offset+2)
    have hup := hf offset _ ((reaches_actionsRound _ _ _).mpr ho) ((turns_actionsRound _ _ _ _).mpr ⟨hl,ha,rfl⟩)
    omega
  · intro hfit offset offset' hr ht
    obtain ⟨hl,ha,rfl⟩ := (turns_actionsRound _ _ _ _).mp ht
    have hb := hfit.visits_iff.mp ((reaches_actionsRound _ _ _).mp hr)
    have hlt := hfit offset hb hl ha
    have hlen := ha.eight_le
    simp only at hlt
    rw [Nat.mod_eq_of_lt hlt]
    omega

theorem ActionsFit.terminates {actionsHead length : ℕ} (h : ActionsFit mem actionsHead length) :
    Terminates (validateActions actionsHead length) mem := by
  rw [terminates_validateActions_iff_stops]
  exact Fits.stops h (fun offset ha => Nat.lt_of_lt_of_le (by decide) ha.eight_le)

/-- The loop ends, each pass moving on towards the end of the list, for exactly the
lists whose accepted actions stay below 2^16 when their lengths are added up. -/
theorem validateActions_moves_to_end_iff (actionsHead length : ℕ) :
    Terminates (validateActions actionsHead length) mem ∧ ActionsForward mem actionsHead length ↔
      ActionsFit mem actionsHead length := by
  rw [actionsForward_iff]
  exact ⟨And.right,fun h => ⟨h.terminates,h⟩⟩

/-- Two vendor actions of 32768 bytes: behind the second one the offset is 0 again. -/
def turningActions : Bytes := fun o => if o%32768 = 2 then 0x80 else if o%32768 = 3 then 0 else 0xff

theorem validateActions_turningActions : ¬ Terminates (validateActions 0 65535) turningActions := by
  have hfirst : ActionAccepted turningActions 0 := .vendor (by decide) (by decide)
  have hsecond : ActionAccepted turningActions 32768 := .vendor (by decide) (by decide)
  rw [terminates_validateActions,Classical.not_not]
  refine ⟨0,.refl,by decide,hfirst,Visits.head (by decide) hsecond ?_⟩
  exact .refl

theorem sub16_bytesLeft (length position : ℕ) {step : ℕ} (h : step < 65536) :
    sub16 (bytesLeft length position) step = bytesLeft length (position+step) := by
  unfold sub16 bytesLeft
  omega

theorem bytesLeft_of_le {length position : ℕ} (hp : position ≤ length) (hl : length < 65536) :
    bytesLeft length position = length-position := by
  unfold bytesLeft
  omega

theorem itemAt_succ (length : ℕ → ℕ) (start n : ℕ) :
    itemAt length start (n+1) = itemAt length (start+length start) n := rfl

theorem itemAt_succ' (length : ℕ → ℕ) (start n : ℕ) :
    itemAt length start (n+1) = itemAt length start n+length (itemAt length start n) :=
  Function.iterate_succ_apply' _ n start

theorem terminates_validateActionList (actionsHead length : ℕ) :
    Terminates (validateActionList actionsHead length) mem ↔
      ActionsAccepted mem actionsHead length ∨ ¬ ActionsReturn mem actionsHead length := by
  rw [terminates_iff,returns_validateActionList,endsIn_iff,returns_validateActionList]
  rcases Nat.eq_zero_or_pos length with rfl | hl
  · have haccepted : ActionsAccepted mem actionsHead 0 := ⟨0,.refl,Nat.le_refl 0⟩
    simp [haccepted]
  · simp only [validateActionList,gt_iff_lt,hl,if_true,terminates_ensure,terminates_pure,implies_true,and_true,
      terminates_validateActions]
    tauto

theorem refused_validateFlowStatsEntry (flowStats : ℕ) :
    EndsIn (· ≠ .success) (validateFlowStatsEntry flowStats) mem ↔ FlowStatsRefused mem flowStats := by
  have hp := be16_lt mem (flowStats+52)
  have hmax : ¬ be16 mem (flowStats+52) < ushrtMax ↔ be16 mem (flowStats+52) = ushrtMax := by
    unfold ushrtMax
    omega
  have hterm : Terminates (validateFlowStatsEntry flowStats) mem ↔ (FlowStatsHeadAccepted mem flowStats →
      Terminates (validateActionList (flowStats+88) (flowActionsLength mem flowStats)) mem) := by
    simp [validateFlowStatsEntry,terminates_ensure,FlowStatsHeadAccepted,ExactPriority,flowActionsLength,← hmax]
  rw [endsIn_iff,hterm,returns_validateFlowStatsEntry,terminates_validateActionList,FlowStatsRefused,
    FlowStatsAccepted]
  tauto

theorem terminates_checkStatsReply : Terminates (checkStatsReply message) message.data := by
  simp [checkStatsReply,terminates_ensure,terminates_validateHeader]

theorem terminates_validateFlowStatsReply_iff_stops : Terminates (validateFlowStatsReply message) message.data ↔
    (StatsReplyAccepted message → ∃ s, FlowStatsCursor message.data (message.length-12,12) s ∧
      (decide (s.1 > 0) = false ∨ FlowStatsRefused message.data s.2)) := by
  rw [validateFlowStatsReply,terminates_ensure,returns_checkStatsReply,and_iff_right terminates_checkStatsReply]
  refine imp_congr_right (fun h => ?_)
  have hl := h.1.least
  have hm : message.length ≤ 65535 := h.1.most
  simp only [terminates_bind,returns_ntohsAt,exists_eq_left',h.1.length]
  rw [sub16_of_le hl (by omega),
    terminates_walk (fun s => returns_validateFlowStatsEntry _) returns_nextFlowStats]
  simp only [refused_validateFlowStatsEntry]
  rfl

theorem flowStatsAfter_iterate (n : ℕ) (hl : 12 ≤ message.length) (hm : message.length ≤ 65535) :
    (flowStatsAfter message.data)^[n] (message.length-12,12) =
      (bytesLeft message.length (flowStatsAt message n),flowStatsAt message n) := by
  induction n with
  | zero =>
    rw [← bytesLeft_of_le hl (by omega)]
    rfl
  | succ n ih =>
    rw [Function.iterate_succ_apply',ih,flowStatsAfter,sub16_bytesLeft _ _ (be16_lt _ _)]
    simp only [flowStatsAt,itemAt_succ']

/-- The entry loop ends when the entries do, wherever the lengths of the accepted
ones lead. -/
theorem validateFlowStatsReply_terminates_iff : Terminates (validateFlowStatsReply message) message.data ↔
    (StatsReplyAccepted message → FlowStatsEnd message) := by
  rw [terminates_validateFlowStatsReply_iff_stops]
  refine imp_congr_right (fun h => ?_)
  unfold FlowStatsCursor
  rw [stops_iff_iterate]
  simp only [flowStatsAfter_iterate _ h.1.least h.1.most,gt_iff_lt,decide_eq_false_iff_not,Nat.pos_iff_ne_zero,
    Classical.not_not]
  rfl

/-- A flow reply with one entry of length 0. Its action list is taken to be 65448 bytes
long, and one vendor action reaches past that. -/
def stuckFlowReply : Message where
  data o := if o = 0 then 1 else if o = 1 then 17 else if o = 3 then 108 else if o = 9 then 1 else
    if o = 17 then 0x3f else if o = 18 ∨ o = 19 then 0xff else if 100 ≤ o ∧ o < 104 then 0xff else 0
  length := 108

theorem validateFlowStatsReply_stuckFlowReply :
    StatsReplyAccepted stuckFlowReply ∧ ¬ Terminates (validateFlowStatsReply stuckFlowReply) stuckFlowReply.data := by
  have hreply : StatsReplyAccepted stuckFlowReply :=
    ⟨⟨by decide,by decide,by decide,by decide,by decide,by decide⟩,by decide⟩
  have haction : ActionAccepted stuckFlowReply.data 100 := .vendor (by decide) (by decide)
  have hentry : FlowStatsAccepted stuckFlowReply.data 12 := by
    refine ⟨⟨by decide,fun h => absurd h (by decide)⟩,65535,?_,by decide⟩
    exact Visits.head (by decide) haction .refl
  refine ⟨hreply,fun h => ?_⟩
  obtain ⟨s,hs,hend⟩ := terminates_validateFlowStatsReply_iff_stops.mp h hreply
  have hstart : FlowStatsCursor stuckFlowReply.data (96,12) (96,12) := .refl
  unfold FlowStatsCursor at hs hstart
  refine no_stop_of_return hstart (by decide) hentry hstart
    ⟨s,hs,hend.imp_right (fun hrefused haccepted => ?_)⟩
  rcases hrefused with hn | ⟨hn,-⟩
  · exact hn haccepted.1
  · exact hn haccepted.2

theorem terminates_validateQueueProperty (property : ℕ) : Terminates (validateQueueProperty property) mem := by
  simp [validateQueueProperty]

theorem PropertyAccepted.sizes {property : ℕ} (h : PropertyAccepted mem property) :
    be16 mem (property+2) = 8 ∨ be16 mem (property+2) = 16 := h.imp And.right And.right

/-- A property of 8 or 16 bytes that runs past 2^16 ends right there, and the walk is
back at the head. -/
theorem terminates_validateQueueProperties (propHead : ℕ) {length : ℕ} (hlen : length ≤ 65527) :
    Terminates (validateQueueProperties propHead length) mem ↔ PropertiesFit mem propHead length := by
  rw [validateQueueProperties,
    terminates_walk (fun offset => returns_validateQueueProperty _) (returns_nextProperty propHead)]
  simp only [endsIn_iff,terminates_validateQueueProperty,true_and,returns_validateQueueProperty]
  constructor
  · intro hstop
    refine fits_of_invariant (fun offset => 8 ∣ offset) (Nat.dvd_zero 8) ?_
    intro offset ho h8 hl ha
    have hsize := ha.sizes
    have hlt : offset+be16 mem (propHead+offset+2) < 65536 := by
      by_contra hn
      have hhead : (offset+be16 mem (propHead+offset+2))%65536 = 0 := by omega
      refine no_stop_of_return ho (by simpa using hl) ha ?_ hstop
      simp only [hhead]
      exact ho
    have h8' : 8 ∣ offset+be16 mem (propHead+offset+2) := by omega
    exact ⟨hlt,h8'⟩
  · intro hfit
    refine Fits.stops hfit (fun offset ha => ?_)
    have hsize := ha.sizes
    omega

theorem terminates_validatePacketQueue (queue : ℕ) : Terminates (validatePacketQueue queue) mem ↔
    (16 ≤ be16 mem (queue+4) → PropertiesFit mem (queue+8) (be16 mem (queue+4)-8)) := by
  have hlt := be16_lt mem (queue+4)
  simp only [validatePacketQueue,terminates_bind,terminates_ite,terminates_ensure,terminates_pure,returns_ntohsAt,
    exists_eq_left',implies_true,and_true]
  rcases Nat.lt_or_ge (be16 mem (queue+4)) 16 with hs | hs
  · simp [hs]
  · rw [if_neg (by omega),sub16_of_le (by omega) hlt,terminates_validateQueueProperties _ (by omega)]
    simp [hs]

theorem terminates_validatePacketQueues (queue n : ℕ) : Terminates (validatePacketQueues queue n) mem ↔
    ∀ i < n, (∀ j < i, QueueAccepted mem (itemAt (fun queue => be16 mem (queue+4)) queue j)) →
      Terminates (validatePacketQueue (itemAt (fun queue => be16 mem (queue+4)) queue i)) mem := by
  induction n generalizing queue with
  | zero => simp [validatePacketQueues]
  | succ n ih =>
    rw [validatePacketQueues,terminates_ensure,returns_validatePacketQueue,Nat.forall_lt_succ_left]
    simp only [terminates_bind,returns_ntohsAt,exists_eq_left',ih,Nat.forall_lt_succ_left,itemAt_succ]
    refine and_congr (by simp [itemAt]) ?_
    constructor
    · rintro h i hi ⟨h0,hrest⟩
      exact h h0 i hi hrest
    · intro h h0 i hi hrest
      exact h i hi ⟨h0,hrest⟩

theorem reaches_countQueues {length queue k : ℕ} {s : ℕ × ℕ × ℕ} :
    Reaches countQueuesRound mem (bytesLeft length queue,queue,k) s ↔
      ∃ n, (∀ i < n, 8 < bytesLeft length (itemAt (fun queue => be16 mem (queue+4)) queue i)) ∧
        s = (bytesLeft length (itemAt (fun queue => be16 mem (queue+4)) queue n),
          itemAt (fun queue => be16 mem (queue+4)) queue n,k+n) := by
  constructor
  · intro h
    induction h with
    | refl => exact ⟨0,by simp,rfl⟩
    | tail _ hstep ih =>
      obtain ⟨n,hn,rfl⟩ := ih
      obtain ⟨hl,rfl⟩ := turns_countQueuesRound.mp hstep
      refine ⟨n+1,fun i hi => ?_,?_⟩
      · rcases Nat.lt_succ_iff_lt_or_eq.mp hi with hi | rfl
        · exact hn i hi
        · exact hl
      · simp only [nextQueue,sub16_bytesLeft _ _ (be16_lt _ _),itemAt_succ',Nat.add_assoc]
  · rintro ⟨n,hn,rfl⟩
    induction n with
    | zero => exact .refl
    | succ n ih =>
      refine (ih (fun i hi => hn i (by omega))).tail (turns_countQueuesRound.mpr ⟨hn n (by omega),?_⟩)
      simp only [nextQueue,sub16_bytesLeft _ _ (be16_lt _ _),itemAt_succ',Nat.add_assoc]

theorem returns_countQueues_iff (length queue : ℕ) (r : ℕ × ℕ) :
    Returns (loop countQueuesRound (bytesLeft length queue,queue,0)) mem r ↔
      (∀ i < r.2, 8 < bytesLeft length (itemAt (fun queue => be16 mem (queue+4)) queue i)) ∧
        bytesLeft length (itemAt (fun queue => be16 mem (queue+4)) queue r.2) ≤ 8 ∧
        bytesLeft length (itemAt (fun queue => be16 mem (queue+4)) queue r.2) = r.1 := by
  rw [returns_loop]
  constructor
  · rintro ⟨s,hs,hr⟩
    obtain ⟨n,hn,rfl⟩ := reaches_countQueues.mp hs
    simp only [countQueuesRound,returns_ite,returns_bind,returns_pure,reduceCtorEq,and_false,exists_const,
      if_false_left,Sum.inr.injEq,Nat.zero_add] at hr
    obtain ⟨hle,rfl⟩ := hr
    exact ⟨hn,by simpa using hle,rfl⟩
  · rintro ⟨hn,hle,he⟩
    refine ⟨_,reaches_countQueues.mpr ⟨r.2,hn,rfl⟩,?_⟩
    have hle' : r.1 ≤ 8 := he ▸ hle
    simp [countQueuesRound,he,hle']

theorem terminates_checkQueues (r : ℕ × ℕ) :
    Terminates (if r.1 ≠ 0 then return .errorInvalidLength else
      if r.2 > 0 then ensure (validatePacketQueues 16 r.2) (return .success) else return .success) message.data ↔
        (r.1 = 0 → ∀ i < r.2, (∀ j < i, QueueAccepted message.data (queueAt message j)) →
          16 ≤ be16 message.data (queueAt message i+4) →
          PropertiesFit message.data (queueAt message i+8) (be16 message.data (queueAt message i+4)-8)) := by
  obtain ⟨l,n⟩ := r
  simp only [terminates_ite,terminates_ensure,terminates_pure,implies_true,and_true,terminates_validatePacketQueues,
    terminates_validatePacketQueue]
  rcases Nat.eq_zero_or_pos n with rfl | hn
  · simp
  · by_cases h0 : l = 0
    · simp [h0,hn,queueAt]
    · simp [h0]

theorem terminates_validateQueueGetConfigReply_iff_counts
    (h : HeaderAccepted message .ofptQueueGetConfigReply 24 ushrtMax)
    (hport : validatePhyPortNo (be16 message.data 8) = .success) :
    Terminates (validateQueueGetConfigReply message) message.data ↔
      ∃ r : ℕ × ℕ, Returns (loop countQueuesRound (bytesLeft message.length 16,16,0)) message.data r ∧
        (r.1 = 0 → ∀ i < r.2, (∀ j < i, QueueAccepted message.data (queueAt message j)) →
          16 ≤ be16 message.data (queueAt message i+4) →
          PropertiesFit message.data (queueAt message i+8) (be16 message.data (queueAt message i+4)-8)) := by
  have hl := h.least
  have hm : message.length ≤ 65535 := h.most
  have hlen : sub16 message.length 16 = bytesLeft message.length 16 := by
    rw [sub16_of_le (by omega) (by omega),bytesLeft_of_le (by omega) (by omega)]
  rw [validateQueueGetConfigReply,terminates_ensure,returns_validateHeader,and_iff_right terminates_validateHeader]
  simp only [terminates_ensure,terminates_bind,returns_ntohsAt,returns_bind,returns_pure,exists_eq_left',
    terminates_pure,true_and,h.length,hlen,h,hport,true_implies]
  exact exists_congr (fun r => and_congr_right (fun _ => terminates_checkQueues r))

/-- Both walks end when the lengths of the descriptions lead to the end of the
message and no list of properties turns back. -/
theorem validateQueueGetConfigReply_terminates_iff :
    Terminates (validateQueueGetConfigReply message) message.data ↔
      (HeaderAccepted message .ofptQueueGetConfigReply 24 ushrtMax →
        validatePhyPortNo (be16 message.data 8) = .success → QueuesEnd message) := by
  by_cases h : HeaderAccepted message .ofptQueueGetConfigReply 24 ushrtMax
  · by_cases hport : validatePhyPortNo (be16 message.data 8) = .success
    · rw [terminates_validateQueueGetConfigReply_iff_counts h hport]
      simp only [returns_countQueues_iff,h,hport,true_implies]
      constructor
      · rintro ⟨r,⟨hcount,hle,he⟩,hfit⟩
        exact ⟨r.2,hcount,hle,fun h0 => hfit (he.symm.trans h0)⟩
      · rintro ⟨n,hcount,hle,hfit⟩
        exact ⟨(bytesLeft message.length (queueAt message n),n),⟨hcount,hle,rfl⟩,hfit⟩
    · have hends : Terminates (validateQueueGetConfigReply message) message.data := by
        simp [validateQueueGetConfigReply,terminates_ensure,terminates_validateHeader,hport]
      exact iff_of_true hends (fun _ hp => absurd hp hport)
  · have hends : Terminates (validateQueueGetConfigReply message) message.data := by
      rw [validateQueueGetConfigReply,terminates_ensure,returns_validateHeader]
      exact ⟨terminates_validateHeader,fun hh => absurd hh h⟩
    exact iff_of_true hends (fun hh => absurd hh h)

/-- A queue reply whose only description says that it is 0 bytes long. -/
def stuckQueueReply : Message where
  data o := if o = 0 then 1 else if o = 1 then 21 else if o = 3 then 32 else if o = 9 then 1 else 0
  length := 32

theorem validateQueueGetConfigReply_stuckQueueReply :
    HeaderAccepted stuckQueueReply .ofptQueueGetConfigReply 24 ushrtMax ∧
      ¬ Terminates (validateQueueGetConfigReply stuckQueueReply) stuckQueueReply.data := by
  have hheader : HeaderAccepted stuckQueueReply .ofptQueueGetConfigReply 24 ushrtMax :=
    ⟨by decide,by decide,by decide,by decide,by decide,by decide⟩
  have hstays : ∀ n, itemAt (fun queue => be16 stuckQueueReply.data (queue+4)) 16 n = 16 := by
    intro n
    induction n with
    | zero => rfl
    | succ n ih =>
      rw [itemAt_succ',ih]
      decide
  refine ⟨hheader,fun h => ?_⟩
  obtain ⟨r,hr,-⟩ := (terminates_validateQueueGetConfigReply_iff_counts hheader (by decide)).mp h
  have hle := ((returns_countQueues_iff _ _ _).mp hr).2.1
  rw [hstays] at hle
  exact absurd hle (by decide)

end Rules
end OpenFlowController.Check
