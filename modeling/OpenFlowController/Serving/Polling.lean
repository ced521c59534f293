import OpenFlowController.Queue.MessageQueue
import OpenFlowController.Serving.FileTable

/-! # Accepting switches

One process listens, and forks one for each switch that it accepts. Between them they
have to keep every descriptor with its owner: the connection with the child, and the
socket that is listened on with the parent. What the system calls answer is left open.
-/
namespace OpenFlowController.Serving
open Queue

def ccAcceptFd : ℕ := 3

/-- Of the C library. -/
def fdSetsize : ℕ := 1024

/-- Connections are numbered as they come in. -/
inductive OpenFile
  | listening
  | connection (number : ℕ)
  | inherited (number : ℕ)
  deriving DecidableEq

/-- The results of the system calls of `cc_server_conn_create`. -/
structure ServerCalls where
  socket : Option ℕ
  reuseaddr : Bool
  nodelay : Bool
  getFlags : Bool
  setFlags : Bool
  bind : Bool
  listen : Bool

/-- The descriptor, if there is one. Only the last two failures close it again. -/
def ccServerConnCreate (calls : ServerCalls) (table : FileTable OpenFile) : Option ℕ × FileTable OpenFile :=
  match calls.socket with
  | none => (none,table)
  | some fd =>
    let table := table.opened fd .listening
    if !calls.reuseaddr then (none,table)
    else if !calls.nodelay then (none,table)
    else if !(calls.getFlags && calls.setFlags) then (none,table)
    else if !calls.bind then (none,table.close fd)
    else if !calls.listen then (none,table.close fd)
    else (some fd,table)

/-- A child in its loop: `socketFd` is what messages are read from and written to, and
`acceptFd` what `select` waits for. -/
structure Child where
  table : FileTable OpenFile
  number : ℕ
  socketFd : ℕ
  acceptFd : ℕ

/-- The descriptor is moved out of the way of the standard streams after it was entered
into the record of the switch. -/
def serveSwitch (listenFd : ℕ) (table : FileTable OpenFile) (number acceptFd : ℕ) : Child :=
  let table := table.close listenFd
  if acceptFd < ccAcceptFd then ⟨(table.dup2 acceptFd ccAcceptFd).close acceptFd,number,acceptFd,ccAcceptFd⟩
  else ⟨table,number,acceptFd,acceptFd⟩

/-- What `accept` and `fork` answer. -/
inductive Accepting
  | failed
  | accepted (acceptFd : ℕ) (forked : Bool)

structure Listener where
  table : FileTable OpenFile
  accepted : ℕ
  children : List Child

def ccConnAccept (listenFd : ℕ) (listener : Listener) : Accepting → ErrorCode × Listener
  | .failed => (.ccEErr,listener)
  | .accepted acceptFd forked =>
    let shared := listener.table.opened acceptFd (.connection listener.accepted)
    let closed : Listener := ⟨shared.close acceptFd,listener.accepted+1,listener.children⟩
    if acceptFd > fdSetsize then (.ccENone,closed)
    else if forked then
      (.ccENone,{ closed with
        children := closed.children++[serveSwitch listenFd shared listener.accepted acceptFd] })
    else (.ccEErr,closed)

/-- What `select` answers, with what comes of it. -/
inductive PollEvent
  | failed (interrupted : Bool)
  | nothing
  | ready (accepting : Accepting)

/-- The code it returns with, or none while it is still polling. -/
def ccPolling (listenFd : ℕ) : List PollEvent → Listener → Option ErrorCode × Listener
  | [], listener => (none,listener)
  | .failed interrupted :: events, listener =>
    if interrupted then ccPolling listenFd events listener else (some .ccEErr,listener)
  | .nothing :: events, listener => ccPolling listenFd events listener
  | .ready accepting :: events, listener =>
    let (ret,listener) := ccConnAccept listenFd listener accepting
    if ret.value < 0 then (some .ccEErr,listener) else ccPolling listenFd events listener

/-! ## Who has what -/

/-- The child has its connection once and where it waits for it, no other connection, and
not the socket that is listened on. What it reads and writes is the connection unless the
descriptor was moved. -/
structure Child.Serves (child : Child) : Prop where
  connected : child.table.Solely child.acceptFd (.connection child.number)
  single : ∀ number ≠ child.number, child.table.Without (.connection number)
  alone : child.table.Without .listening
  usable : child.table child.socketFd = some (.connection child.number) ↔ ccAcceptFd ≤ child.socketFd
  watched : child.acceptFd < fdSetsize ↔ child.socketFd ≠ fdSetsize

/-- Neither has the connection of the other. -/
def Child.Apart (child child' : Child) : Prop :=
  child.table.Without (.connection child'.number) ∧ child'.table.Without (.connection child.number)

/-- The table of the listening process between two switches. -/
structure Settled (listenFd : ℕ) (table : FileTable OpenFile) : Prop where
  listening : table.Solely listenFd .listening
  unconnected : ∀ number, table.Without (.connection number)

section Polling
variable {listenFd : ℕ} {table : FileTable OpenFile} {listener : Listener}

theorem Settled.serves (h : Settled listenFd table) {acceptFd : ℕ} (hfree : table acceptFd = none)
    (hsize : ¬ acceptFd > fdSetsize) (number : ℕ) :
    (serveSwitch listenFd (table.opened acceptFd (.connection number)) number acceptFd).Serves := by
  have hne : listenFd ≠ acceptFd := by
    rintro rfl
    rw [(h.listening listenFd).mpr rfl] at hfree
    cases hfree
  have hclosed := ((h.unconnected number).solely_opened acceptFd).close_other hne
  have hdiffer : OpenFile.connection number ≠ .listening := by simp
  have halone := (h.listening.opened_other hfree hdiffer).without_close
  have hsingle : ∀ other ≠ number, OpenFile.connection number ≠ .connection other := fun other hother hsame =>
    hother (OpenFile.connection.inj hsame).symm
  have hothers : ∀ other ≠ number,
      ((table.opened acceptFd (.connection number)).close listenFd).Without (.connection other) :=
    fun other hother => ((h.unconnected other).opened_other acceptFd (hsingle other hother)).close listenFd
  rw [serveSwitch]
  split
  · rename_i hlow
    have hmove : acceptFd ≠ ccAcceptFd := Nat.ne_of_lt hlow
    refine ⟨hclosed.move hmove,fun other hother => hclosed.without_move (hothers other hother) (hsingle other hother),
      hclosed.without_move halone hdiffer,iff_of_false ?_ (Nat.not_le.mpr hlow),?_⟩
    · intro hopen
      cases (FileTable.close_self _ acceptFd).symm.trans hopen
    · have hsmall : ccAcceptFd < fdSetsize := by decide
      exact iff_of_true hsmall (Nat.ne_of_lt (Nat.lt_trans hlow hsmall))
  · rename_i hhigh
    refine ⟨hclosed,hothers,halone,iff_of_true ((hclosed acceptFd).mpr rfl) (Nat.not_lt.mp hhigh),Nat.ne_of_lt,?_⟩
    exact Nat.lt_of_le_of_ne (Nat.not_lt.mp hsize)

/-- The table is as before, and the children are served each a connection of its own. -/
structure Kept (listener listener' : Listener) : Prop where
  table : listener'.table = listener.table
  accepted : listener.accepted ≤ listener'.accepted
  children : ∃ added, listener'.children = listener.children++added ∧ (∀ child ∈ added, child.Serves) ∧
    (added.map Child.number).Pairwise (· < ·) ∧ added.Pairwise Child.Apart ∧
    ∀ child ∈ added, listener.accepted ≤ child.number ∧ child.number < listener'.accepted

theorem Kept.refl (listener : Listener) : Kept listener listener :=
  ⟨rfl,Nat.le_refl _,[],(List.append_nil _).symm,nofun,List.Pairwise.nil,List.Pairwise.nil,nofun⟩

/-- The later child has the greater number. -/
theorem Child.Serves.apart {child child' : Child} (h : child.Serves) (h' : child'.Serves)
    (hlt : child.number < child'.number) : child.Apart child' :=
  ⟨h.single child'.number (Nat.ne_of_gt hlt),h'.single child.number (Nat.ne_of_lt hlt)⟩

theorem Kept.trans {listener' listener'' : Listener} (h : Kept listener listener') (h' : Kept listener' listener'') :
    Kept listener listener'' := by
  obtain ⟨added,hadded,hserves,hsorted,hapart,hbounds⟩ := h.children
  obtain ⟨added',hadded',hserves',hsorted',hapart',hbounds'⟩ := h'.children
  have hlt : ∀ child ∈ added, ∀ child' ∈ added', child.number < child'.number := fun child hchild child' hchild' =>
    Nat.lt_of_lt_of_le (hbounds child hchild).2 (hbounds' child' hchild').1
  refine ⟨h'.table.trans h.table,Nat.le_trans h.accepted h'.accepted,added++added',?_,?_,?_,?_,?_⟩
  · rw [hadded',hadded,List.append_assoc]
  · intro child hchild
    exact (List.mem_append.mp hchild).elim (hserves child) (hserves' child)
  · rw [List.map_append,List.pairwise_append]
    refine ⟨hsorted,hsorted',fun a ha b hb => ?_⟩
    obtain ⟨child,hchild,rfl⟩ := List.mem_map.mp ha
    obtain ⟨child',hchild',rfl⟩ := List.mem_map.mp hb
    exact hlt child hchild child' hchild'
  · refine List.pairwise_append.mpr ⟨hapart,hapart',fun child hchild child' hchild' => ?_⟩
    exact (hserves child hchild).apart (hserves' child' hchild') (hlt child hchild child' hchild')
  · intro child hchild
    rcases List.mem_append.mp hchild with hchild | hchild
    · exact ⟨(hbounds child hchild).1,Nat.lt_of_lt_of_le (hbounds child hchild).2 h'.accepted⟩
    · exact ⟨Nat.le_trans h.accepted (hbounds' child hchild).1,(hbounds' child hchild).2⟩

/-- Step lemma. -/
theorem ccConnAccept_kept (h : Settled listenFd listener.table) (accepting : Accepting)
    (hfree : ∀ acceptFd forked, accepting = .accepted acceptFd forked → listener.table acceptFd = none) :
    Kept listener (ccConnAccept listenFd listener accepting).2 := by
  cases accepting with
  | failed => exact Kept.refl listener
  | accepted acceptFd forked =>
    have hnew := hfree acceptFd forked rfl
    have htable := FileTable.close_opened hnew (.connection listener.accepted)
    have hclosed : Kept listener ⟨(listener.table.opened acceptFd (.connection listener.accepted)).close acceptFd,
        listener.accepted+1,listener.children⟩ :=
      ⟨htable,Nat.le_succ _,[],(List.append_nil _).symm,nofun,List.Pairwise.nil,List.Pairwise.nil,nofun⟩
    simp only [ccConnAccept]
    split
    · exact hclosed
    · rename_i hsize
      split
      · have hserves := h.serves hnew hsize listener.accepted
        have hnumber : (serveSwitch listenFd (listener.table.opened acceptFd (.connection listener.accepted))
            listener.accepted acceptFd).number = listener.accepted := by
          rw [serveSwitch]
          split <;> rfl
        refine ⟨htable,Nat.le_succ _,_,rfl,?_,List.pairwise_singleton _ _,List.pairwise_singleton _ _,?_⟩
        · exact fun child hchild => List.mem_singleton.mp hchild ▸ hserves
        · intro child hchild
          rw [List.mem_singleton.mp hchild,hnumber]
          exact ⟨Nat.le_refl _,Nat.lt_succ_self _⟩
      · exact hclosed

end Polling

theorem ccPolling_kept (listenFd : ℕ) (events : List PollEvent) {listener : Listener}
    (h : Settled listenFd listener.table)
    (hfree : ∀ acceptFd forked, .ready (.accepted acceptFd forked) ∈ events → listener.table acceptFd = none) :
    Kept listener (ccPolling listenFd events listener).2 := by
  induction events generalizing listener with
  | nil => exact Kept.refl listener
  | cons event events ih =>
    have hrest : ∀ acceptFd forked, .ready (.accepted acceptFd forked) ∈ events → listener.table acceptFd = none :=
      fun acceptFd forked hmem => hfree acceptFd forked (List.mem_cons_of_mem _ hmem)
    cases event with
    | failed interrupted =>
      rw [ccPolling]
      split
      · exact ih h hrest
      · exact Kept.refl listener
    | nothing => exact ih h hrest
    | ready accepting =>
      have hstep := ccConnAccept_kept h accepting
        (fun acceptFd forked ha => hfree acceptFd forked (ha ▸ List.mem_cons_self))
      have hready : ccPolling listenFd (.ready accepting :: events) listener =
          if (ccConnAccept listenFd listener accepting).1.value < 0 then
            (some .ccEErr,(ccConnAccept listenFd listener accepting).2)
          else ccPolling listenFd events (ccConnAccept listenFd listener accepting).2 := rfl
      rw [hready]
      split
      · exact hstep
      · refine hstep.trans (ih ?_ ?_)
        · rw [hstep.table]
          exact h
        · rw [hstep.table]
          exact hrest

/-- What a process has before it creates its socket. -/
structure Unserving (table : FileTable OpenFile) : Prop where
  listening : table.Without .listening
  unconnected : ∀ number, table.Without (.connection number)

/-- A socket that could be created stays open, except after the last two failures. -/
theorem ccServerConnCreate_cases {table table' : FileTable OpenFile} {calls : ServerCalls} {result : Option ℕ}
    (h : Unserving table) (hnew : ∀ fd, calls.socket = some fd → table fd = none)
    (hrun : ccServerConnCreate calls table = (result,table')) :
    (∃ fd, result = some fd ∧ Settled fd table') ∨ result = none ∧
      (table' = table ∨ ∃ fd, calls.socket = some fd ∧ Settled fd table' ∧
        (calls.reuseaddr && calls.nodelay && calls.getFlags && calls.setFlags) = false) := by
  obtain ⟨socket,reuseaddr,nodelay,getFlags,setFlags,bind,listen⟩ := calls
  cases socket with
  | none =>
    cases hrun
    exact Or.inr ⟨rfl,Or.inl rfl⟩
  | some fd =>
    have hfree := hnew fd rfl
    have hsettled : Settled fd (table.opened fd .listening) := by
      refine ⟨h.listening.solely_opened fd,fun number fd' hfd' => ?_⟩
      rw [FileTable.opened_apply] at hfd'
      split at hfd'
      · cases hfd'
      · exact h.unconnected number fd' hfd'
    have hclosed := FileTable.close_opened hfree .listening
    -- the failures in the order in which they are tested
    simp only [ccServerConnCreate] at hrun
    split at hrun
    · rename_i hreuseaddr
      cases hrun
      refine Or.inr ⟨rfl,Or.inr ⟨fd,rfl,hsettled,?_⟩⟩
      rw [(Bool.not_eq_true' _).mp hreuseaddr]
      rfl
    split at hrun
    · rename_i hnodelay
      cases hrun
      refine Or.inr ⟨rfl,Or.inr ⟨fd,rfl,hsettled,?_⟩⟩
      rw [(Bool.not_eq_true' _).mp hnodelay,Bool.and_false]
      rfl
    split at hrun
    · rename_i hnonblocking
      cases hrun
      refine Or.inr ⟨rfl,Or.inr ⟨fd,rfl,hsettled,?_⟩⟩
      rw [Bool.and_assoc (reuseaddr && nodelay),(Bool.not_eq_true' _).mp hnonblocking,Bool.and_false]
    split at hrun
    · cases hrun
      exact Or.inr ⟨rfl,Or.inl hclosed⟩
    split at hrun
    · cases hrun
      exact Or.inr ⟨rfl,Or.inl hclosed⟩
    · cases hrun
      exact Or.inl ⟨fd,rfl,hsettled⟩

/-- From the creation of the socket on, in every run of the listening process and however its
system calls end: no descriptor of an accepted connection stays open in it; each child has
its connection and no other child's, and none has the socket that is listened on. -/
theorem serving_kept {table listening : FileTable OpenFile} (h : Unserving table) (calls : ServerCalls)
    (hnew : ∀ fd, calls.socket = some fd → table fd = none) {listenFd : ℕ}
    (hstart : ccServerConnCreate calls table = (some listenFd,listening)) (events : List PollEvent)
    (hfree : ∀ acceptFd forked, .ready (.accepted acceptFd forked) ∈ events → listening acceptFd = none) :
    Kept ⟨listening,0,[]⟩ (ccPolling listenFd events ⟨listening,0,[]⟩).2 := by
  rcases ccServerConnCreate_cases h hnew hstart with ⟨fd,hfd,hsettled⟩ | ⟨hnone,-⟩
  · obtain rfl := Option.some.inj hfd
    exact ccPolling_kept listenFd events hsettled hfree
  · cases hnone

def standardStreams : FileTable OpenFile := fun fd => if fd < 3 then some (.inherited fd) else none

def twoSwitches : List PollEvent := [.failed true,.ready (.accepted 4 true),.nothing,.ready (.accepted 4 true),.ready .failed]

theorem serving_kept_twoSwitches :
    Kept ⟨standardStreams.opened 3 .listening,0,[]⟩
      (ccPolling 3 twoSwitches ⟨standardStreams.opened 3 .listening,0,[]⟩).2 := by
  have hclean : Unserving standardStreams := by
    constructor
    · intro fd
      rw [standardStreams]
      split <;> simp
    · intro number fd
      rw [standardStreams]
      split <;> simp
  refine serving_kept hclean ⟨some 3,true,true,true,true,true,true⟩ ?_ rfl twoSwitches ?_
  · rintro fd ⟨⟩
    rfl
  · intro acceptFd forked hmem
    simp only [twoSwitches,List.mem_cons,List.not_mem_nil,or_false,PollEvent.ready.injEq,reduceCtorEq,false_or,
      Accepting.accepted.injEq,or_self] at hmem
    obtain ⟨rfl,-⟩ := hmem
    rfl

end OpenFlowController.Serving
