import OpenFlowController.Check.Header

/-! # Queue configuration

The reply is walked twice: first to count the queue descriptions, with nothing
but their length fields, then to check as many descriptions.
-/
namespace OpenFlowController.Check
open Memory Access Protocol

def validateQueueGetConfigRequest (message : Message) : Access ValidationCode :=
  ensure (validateHeader message .ofptQueueGetConfigRequest 12 12) do
  ensure (do return validatePhyPortNo (← ntohsAt 8)) do
  return .success

def validateQueueProperty (property : ℕ) : Access ValidationCode := do
  let propertyLength ← ntohsAt (property+2)
  if propertyLength < 8 then return .errorTooShortQueueProperty
  let kind ← ntohsAt property
  if kind = ofpqtNone then
    if propertyLength < 8 then return .errorTooShortQueueProperty
    else if propertyLength > 8 then return .errorTooLongQueueProperty
    else return .success
  else if kind = ofpqtMinRate then
    if propertyLength < 16 then return .errorTooShortQueueProperty
    else if propertyLength > 16 then return .errorTooLongQueueProperty
    else return .success
  else return .errorUndefinedQueueProperty

def nextProperty (propHead offset : ℕ) : Access ℕ := do
  return (offset+(← ntohsAt (propHead+offset+2)))%65536

def validateQueueProperties (propHead propertiesLength : ℕ) : Access ValidationCode :=
  walk (fun offset => offset < propertiesLength) (fun offset => validateQueueProperty (propHead+offset))
    (nextProperty propHead) 0

def validatePacketQueue (queue : ℕ) : Access ValidationCode := do
  if (← ntohsAt (queue+4)) < 16 then return .errorTooShortQueueDescription
  ensure (validateQueueProperties (queue+8) (sub16 (← ntohsAt (queue+4)) 8)) do
  return .success

def validatePacketQueues : ℕ → ℕ → Access ValidationCode
  | _, 0 => return .success
  | queue, nQueues+1 => ensure (validatePacketQueue queue) do
    validatePacketQueues (queue+(← ntohsAt (queue+4))) nQueues

/-- One round of the counting loop, on the bytes left and the current description. -/
def countQueuesRound : ℕ × ℕ × ℕ → Access (ℕ × ℕ × ℕ ⊕ ℕ × ℕ)
  | (queuesLength,queue,nQueues) => do
    if queuesLength > 8 then
      return .inl (sub16 queuesLength (← ntohsAt (queue+4)),queue+(← ntohsAt (queue+4)),nQueues+1)
    else return .inr (queuesLength,nQueues)

def validateQueueGetConfigReply (message : Message) : Access ValidationCode :=
  ensure (validateHeader message .ofptQueueGetConfigReply 24 ushrtMax) do
  ensure (do return validatePhyPortNo (← ntohsAt 8)) do
  let (queuesLength,nQueues) ← loop countQueuesRound (sub16 (← ntohsAt 2) 16,16,0)
  if queuesLength ≠ 0 then return .errorInvalidLength
  if nQueues > 0 then ensure (validatePacketQueues 16 nQueues) (return .success)
  else return .success

def PropertyAccepted (mem : Bytes) (property : ℕ) : Prop :=
  be16 mem property = ofpqtNone ∧ be16 mem (property+2) = 8 ∨
    be16 mem property = ofpqtMinRate ∧ be16 mem (property+2) = 16

def PropertyOffset (mem : Bytes) (propHead length : ℕ) : ℕ → Prop :=
  Visits (fun offset => offset < length) (fun offset => PropertyAccepted mem (propHead+offset))
    (fun offset => (offset+be16 mem (propHead+offset+2))%65536) 0

def PropertiesInside (n : ℕ) (mem : Bytes) (propHead length : ℕ) : Prop :=
  ∀ offset, PropertyOffset mem propHead length offset → offset < length → propHead+offset+4 ≤ n

def QueueAccepted (mem : Bytes) (queue : ℕ) : Prop :=
  16 ≤ be16 mem (queue+4) ∧
    ∃ offset, PropertyOffset mem (queue+8) (sub16 (be16 mem (queue+4)) 8) offset ∧
      sub16 (be16 mem (queue+4)) 8 ≤ offset

/-- The bytes left, as the 16-bit counter has them, and the next description. -/
def nextQueue (mem : Bytes) (s : ℕ × ℕ) : ℕ × ℕ := (sub16 s.1 (be16 mem (s.2+4)),s.2+be16 mem (s.2+4))

def CountedQueue (mem : Bytes) : ℕ × ℕ → ℕ × ℕ → Prop :=
  Visits (fun s => 8 < s.1) (fun _ => True) (nextQueue mem)

def CheckedQueue (mem : Bytes) : ℕ × ℕ → ℕ × ℕ → Prop :=
  Visits (fun s => 8 < s.1) (fun s => QueueAccepted mem s.2) (nextQueue mem)

/-- The length field of every counted description lies in the message and, when
the count comes out even, so does every property header that is checked. -/
def QueueConfigInside (message : Message) : Prop :=
  HeaderAccepted message .ofptQueueGetConfigReply 24 ushrtMax →
    validatePhyPortNo (be16 message.data 8) = .success →
    (∀ s, CountedQueue message.data (message.length-16,16) s → 8 < s.1 → s.2+6 ≤ message.length) ∧
    ((∃ queue, CountedQueue message.data (message.length-16,16) (0,queue)) →
      ∀ s, CheckedQueue message.data (message.length-16,16) s → 8 < s.1 →
        16 ≤ be16 message.data (s.2+4) →
        PropertiesInside message.length message.data (s.2+8) (sub16 (be16 message.data (s.2+4)) 8))

def CountsTo (mem : Bytes) : ℕ × ℕ → ℕ → Prop
  | s, 0 => s.1 = 0
  | s, n+1 => 8 < s.1 ∧ CountsTo mem (nextQueue mem s) n

section Rules
variable {n : ℕ} {mem : Bytes} {message : Message}

theorem within_validateQueueGetConfigRequest :
    Within message.length (validateQueueGetConfigRequest message) message.data := by
  rw [validateQueueGetConfigRequest,within_ensure,returns_validateHeader]
  refine ⟨within_validateHeader,fun h => ?_⟩
  have hl := h.least
  simp
  omega

theorem returns_validateQueueProperty (property : ℕ) :
    Returns (validateQueueProperty property) mem .success ↔ PropertyAccepted mem property := by
  simp [validateQueueProperty,PropertyAccepted]
  have hkind : ofpqtMinRate ≠ ofpqtNone := by decide
  grind

theorem within_validateQueueProperty (property : ℕ) :
    Within n (validateQueueProperty property) mem ↔ property+4 ≤ n := by
  simp [validateQueueProperty]
  omega

theorem returns_nextProperty (propHead offset offset' : ℕ) :
    Returns (nextProperty propHead offset) mem offset' ↔
      (offset+be16 mem (propHead+offset+2))%65536 = offset' := by
  simp [nextProperty]

theorem within_validateQueueProperties (propHead length : ℕ) :
    Within n (validateQueueProperties propHead length) mem ↔ PropertiesInside n mem propHead length := by
  rw [validateQueueProperties,
    within_walk (fun offset => returns_validateQueueProperty _) (returns_nextProperty propHead)]
  refine forall_congr' (fun offset => imp_congr_right (fun _ => ?_))
  simp only [decide_eq_true_eq,within_validateQueueProperty,nextProperty,within_bind,within_ntohsAt,
    within_pure,implies_true,and_true]
  exact imp_congr_right (fun _ => and_iff_left_of_imp (fun h _ => by omega))

theorem returns_validatePacketQueue (queue : ℕ) :
    Returns (validatePacketQueue queue) mem .success ↔ QueueAccepted mem queue := by
  simp [validatePacketQueue,QueueAccepted,validateQueueProperties,
    returns_walk (fun offset => returns_validateQueueProperty _) (returns_nextProperty _),PropertyOffset]

theorem within_validatePacketQueue (queue : ℕ) :
    Within n (validatePacketQueue queue) mem ↔ queue+6 ≤ n ∧ (16 ≤ be16 mem (queue+4) →
      PropertiesInside n mem (queue+8) (sub16 (be16 mem (queue+4)) 8)) := by
  simp [validatePacketQueue,within_validateQueueProperties]
  grind

theorem turns_countQueuesRound {l q k : ℕ} {s : ℕ × ℕ × ℕ} :
    Turns countQueuesRound mem (l,q,k) s ↔
      8 < l ∧ s = ((nextQueue mem (l,q)).1,(nextQueue mem (l,q)).2,k+1) := by
  simp [Turns,countQueuesRound,nextQueue,eq_comm]

theorem reaches_countQueuesRound {s s' : ℕ × ℕ × ℕ} (h : Reaches countQueuesRound mem s s') :
    CountedQueue mem (s.1,s.2.1) (s'.1,s'.2.1) := by
  induction h using Relation.ReflTransGen.head_induction_on with
  | refl => exact .refl
  | @head s t ht _ ih =>
    obtain ⟨l,q,k⟩ := s
    obtain ⟨hl,rfl⟩ := turns_countQueuesRound.mp ht
    exact Visits.head (by simpa using hl) trivial ih

theorem countedQueue_reaches {s s' : ℕ × ℕ} (h : CountedQueue mem s s') (k : ℕ) :
    ∃ k', Reaches countQueuesRound mem (s.1,s.2,k) (s'.1,s'.2,k') := by
  induction h using Relation.ReflTransGen.head_induction_on generalizing k with
  | refl => exact ⟨k,.refl⟩
  | head ht _ ih =>
    obtain ⟨hl,-,rfl⟩ := ht
    obtain ⟨k',hk⟩ := ih (k+1)
    exact ⟨k',.head (turns_countQueuesRound.mpr ⟨by simpa using hl,rfl⟩) hk⟩

theorem within_countQueues (l q k : ℕ) : Within n (loop countQueuesRound (l,q,k)) mem ↔
    ∀ s, CountedQueue mem (l,q) s → 8 < s.1 → s.2+6 ≤ n := by
  rw [within_loop]
  constructor
  · intro h s hs hl
    obtain ⟨k',hk⟩ := countedQueue_reaches hs k
    have hw := h _ hk
    simp [countQueuesRound,hl] at hw
    omega
  · rintro h ⟨l',q',k'⟩ hs
    have hw := h _ (reaches_countQueuesRound hs)
    simp [countQueuesRound]
    grind

theorem countsTo_of_reaches {s s' : ℕ × ℕ × ℕ} (h : Reaches countQueuesRound mem s s') (h0 : s'.1 = 0) :
    ∃ m, s'.2.2 = s.2.2+m ∧ CountsTo mem (s.1,s.2.1) m := by
  induction h using Relation.ReflTransGen.head_induction_on with
  | refl => exact ⟨0,rfl,h0⟩
  | @head s t ht _ ih =>
    obtain ⟨l,q,k⟩ := s
    obtain ⟨hl,rfl⟩ := turns_countQueuesRound.mp ht
    obtain ⟨m,hm,hc⟩ := ih
    exact ⟨m+1,by simp only [hm]; omega,hl,hc⟩

theorem CountsTo.reaches {s : ℕ × ℕ} {m : ℕ} (h : CountsTo mem s m) (k : ℕ) :
    ∃ queue, Reaches countQueuesRound mem (s.1,s.2,k) (0,queue,k+m) := by
  induction m generalizing s k with
  | zero => exact ⟨s.2,by rw [show s.1 = 0 from h]; exact .refl⟩
  | succ m ih =>
    obtain ⟨hl,hc⟩ := h
    obtain ⟨queue,hq⟩ := ih hc (k+1)
    refine ⟨queue,.head (turns_countQueuesRound.mpr ⟨hl,rfl⟩) ?_⟩
    rwa [Nat.add_assoc,Nat.add_comm 1 m] at hq

theorem returns_countQueues (s : ℕ × ℕ) (m : ℕ) :
    Returns (loop countQueuesRound (s.1,s.2,0)) mem (0,m) ↔ CountsTo mem s m := by
  rw [returns_loop]
  constructor
  · rintro ⟨t,ht,hr⟩
    simp only [countQueuesRound,returns_ite,returns_bind,returns_pure,reduceCtorEq,and_false,exists_const,
      if_false_left,Sum.inr.injEq,Prod.mk.injEq] at hr
    obtain ⟨m',hm,hc⟩ := countsTo_of_reaches ht hr.2.1
    rw [← hr.2.2,hm,Nat.zero_add]
    exact hc
  · intro h
    obtain ⟨queue,hq⟩ := h.reaches 0
    refine ⟨_,hq,?_⟩
    simp [countQueuesRound]

theorem countedQueue_even_iff {s : ℕ × ℕ} :
    (∃ queue, CountedQueue mem s (0,queue)) ↔ ∃ m, CountsTo mem s m := by
  constructor
  · rintro ⟨queue,hq⟩
    obtain ⟨k,hk⟩ := countedQueue_reaches hq 0
    obtain ⟨m,-,hm⟩ := countsTo_of_reaches hk rfl
    exact ⟨m,hm⟩
  · rintro ⟨m,hm⟩
    obtain ⟨queue,hq⟩ := hm.reaches 0
    exact ⟨queue,reaches_countQueuesRound hq⟩

/-- The second walk comes to the counted descriptions, up to the first rejected one. -/
theorem within_validatePacketQueues {s : ℕ × ℕ} {m : ℕ} (hm : CountsTo mem s m)
    (hin : ∀ t, CountedQueue mem s t → 8 < t.1 → t.2+6 ≤ n) :
    Within n (validatePacketQueues s.2 m) mem ↔ ∀ t, CheckedQueue mem s t → 8 < t.1 →
      16 ≤ be16 mem (t.2+4) → PropertiesInside n mem (t.2+8) (sub16 (be16 mem (t.2+4)) 8) := by
  induction m generalizing s with
  | zero =>
    have h0 : s.1 = 0 := hm
    constructor
    · intro _ t ht hl
      rcases visits_iff.mp ht with rfl | ⟨hs,-,-⟩
      · omega
      · simp [h0] at hs
    · intro _
      exact within_pure _
  | succ m ih =>
    obtain ⟨hl,hc⟩ := hm
    have hhead : s.2+6 ≤ n := hin s .refl hl
    have hrest := ih hc (fun t ht => hin t (Visits.head (by simpa using hl) trivial ht))
    rw [validatePacketQueues,within_ensure,returns_validatePacketQueue,within_validatePacketQueue,
      and_iff_right hhead]
    simp only [within_bind,within_ntohsAt,returns_ntohsAt,forall_eq']
    change _ ∧ (_ → _ ∧ Within n (validatePacketQueues (nextQueue mem s).2 m) mem) ↔ _
    rw [hrest,and_iff_right (by omega : s.2+4+1 < n)]
    constructor
    · rintro ⟨hs,ht⟩ t hv hlt
      rcases visits_iff.mp hv with rfl | ⟨-,ha,hv⟩
      · exact hs
      · exact ht ha t hv hlt
    · intro h
      refine ⟨h s .refl hl,fun ha t hv => h t (Visits.head (by simpa using hl) ha hv)⟩

theorem within_validateQueueGetConfigReply :
    Within message.length (validateQueueGetConfigReply message) message.data ↔ QueueConfigInside message := by
  rw [validateQueueGetConfigReply,within_ensure,returns_validateHeader,and_iff_right within_validateHeader]
  refine imp_congr_right (fun h => ?_)
  have hl := h.least
  have hm : message.length ≤ 65535 := h.most
  have hlen : sub16 message.length 16 = message.length-16 := sub16_of_le (by omega) (by omega)
  simp only [within_ensure,within_bind,within_ntohsAt,returns_ntohsAt,returns_bind,returns_pure,
    exists_eq_left',within_pure,implies_true,and_true,forall_eq',h.length,hlen]
  rw [and_iff_right (by omega)]
  refine imp_congr_right (fun _ => ?_)
  rw [and_iff_right (by omega),within_countQueues]
  refine and_congr_right (fun hin => ?_)
  rw [countedQueue_even_iff]
  constructor
  · rintro hw ⟨m,hc⟩
    refine (within_validatePacketQueues hc hin).mp ?_
    rcases Nat.eq_zero_or_pos m with rfl | hpos
    · exact within_pure _
    · have hw' := hw (0,m) ((returns_countQueues _ m).mpr hc)
      simpa [hpos] using hw'
  · rintro hp ⟨l,m⟩ hr
    simp only [within_ite,within_ensure,within_pure,implies_true,and_true,true_and,ne_eq,Classical.not_not]
    rintro rfl -
    have hc := (returns_countQueues (message.length-16,16) m).mp hr
    exact (within_validatePacketQueues hc hin).mpr (hp ⟨m,hc⟩)

section Walk
variable {α : Type} {found : ℕ → α → Prop} {stop o : ℕ} {queues : List α}

/-- Length fields that lead from description to description are counted one by one. -/
theorem countsTo_of_walk (h : WalksTo (fun p => be16 mem (p+4)) found stop o queues) (hstop : stop < 65536)
    (hqueue : ∀ p, ∀ a ∈ queues, found p a → p+8 < stop ∧ p+be16 mem (p+4) ≤ stop) :
    CountsTo mem (stop-o,o) queues.length := by
  induction queues generalizing o with
  | nil =>
    obtain rfl : o = stop := h
    exact Nat.sub_self o
  | cons a queues ih =>
    obtain ⟨hmore,hend⟩ := hqueue o a List.mem_cons_self h.1
    have hrest : sub16 (stop-o) (be16 mem (o+4)) = stop-(o+be16 mem (o+4)) := by
      rw [sub16_of_le (by omega) (by omega),Nat.sub_sub]
    have hnext : nextQueue mem (stop-o,o) = (stop-(o+be16 mem (o+4)),o+be16 mem (o+4)) := by
      simp only [nextQueue,hrest]
    refine ⟨by simp only; omega,?_⟩
    rw [hnext]
    exact ih h.2 (fun p b hb => hqueue p b (List.mem_cons_of_mem a hb))

theorem returns_validatePacketQueues (h : WalksTo (fun p => be16 mem (p+4)) found stop o queues)
    (hqueue : ∀ p, ∀ a ∈ queues, found p a → QueueAccepted mem p) :
    Returns (validatePacketQueues o queues.length) mem .success := by
  induction queues generalizing o with
  | nil => simp [validatePacketQueues]
  | cons a queues ih =>
    have hhead := hqueue o a List.mem_cons_self h.1
    have hrest := ih h.2 (fun p b hb => hqueue p b (List.mem_cons_of_mem a hb))
    rw [List.length_cons,validatePacketQueues,returns_ensure_success]
    refine ⟨(returns_validatePacketQueue o).mpr hhead,?_⟩
    simpa using hrest

theorem returns_validateQueueGetConfigReply
    (hheader : HeaderAccepted message .ofptQueueGetConfigReply 24 ushrtMax)
    (hport : validatePhyPortNo (be16 message.data 8) = .success)
    (h : WalksTo (fun p => be16 message.data (p+4)) found message.length 16 queues)
    (hqueue : ∀ p, ∀ a ∈ queues, found p a → p+8 < message.length ∧ p+be16 message.data (p+4) ≤ message.length ∧
      QueueAccepted message.data p) : Returns (validateQueueGetConfigReply message) message.data .success := by
  have hl := hheader.least
  have hm : message.length ≤ 65535 := hheader.most
  have hlen : sub16 message.length 16 = message.length-16 := sub16_of_le (by omega) (by omega)
  have hcount := countsTo_of_walk h (by omega) (fun p a ha hf => (hqueue p a ha hf).imp_right And.left)
  have hchecked := returns_validatePacketQueues h (fun p a ha hf => (hqueue p a ha hf).2.2)
  rw [validateQueueGetConfigReply,returns_ensure_success,returns_validateHeader,returns_ensure_success]
  refine ⟨hheader,by simpa using hport,?_⟩
  simp only [returns_bind,returns_ntohsAt,exists_eq_left',hheader.length,hlen]
  refine ⟨(0,queues.length),(returns_countQueues (message.length-16,16) _).mpr hcount,?_⟩
  simpa using fun _ => hchecked

end Walk

end Rules
end OpenFlowController.Check
