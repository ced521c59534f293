import OpenFlowController.Xid.XidTable

/-! # Whole runs of the xid table

An entry is live from its insert to the delete that is called with it, and its
xid is the one it was given. The hash table knows exactly the live entries; the
list and the entries in memory may not, since a delete frees another entry.
-/
namespace OpenFlowController.Xid
open Memory Table

structure XidState where
  table : XidTable
  xidLatest : UInt32
  live : List (ℕ × UInt32)

inductive XidCall
  | insert
  | delete (entry : ℕ)
  | assign (value : UInt32)

def XidState.entries (s : XidState) : List ℕ := s.live.map Prod.fst

def XidState.xids (s : XidState) : List UInt32 := s.live.map Prod.snd

variable (place : XidPointer → ℕ)

/-- A delete is only called with a live entry. -/
def XidCall.run (s : XidState) : XidCall → Option XidState
  | .insert => do
    let (xid,table,xidLatest) ← ccInsertXidEntry place s.table s.xidLatest
    return ⟨table,xidLatest,(s.table.entries.next,xid) :: s.live⟩
  | .delete entry => do
    if entry ∈ s.entries then
      let (_,table) ← ccDeleteXidEntry place s.table entry
      return { s with table, live := s.live.filter (fun e => e.1 ≠ entry) }
    else none
  | .assign value => some { s with xidLatest := value }

def initialState (xidLatest : UInt32) : XidState := ⟨ccInitXidTable,xidLatest,[]⟩

/-- What the generator returns while no lookup finds anything. -/
def nextXid (xidLatest : UInt32) : UInt32 := if xidLatest ≠ uint32Max then xidLatest+1 else uint32Max

def AllUnique : XidState → List XidCall → Prop
  | s, [] => s.xids.Nodup
  | s, call :: calls => s.xids.Nodup ∧ ∀ s', call.run place s = some s' → AllUnique s' calls

def NeverCollides : XidState → List XidCall → Prop
  | _, [] => True
  | s, call :: calls => (call = .insert → nextXid s.xidLatest ∉ s.xids) ∧
    ∀ s', call.run place s = some s' → NeverCollides s' calls

/-- The hash table maps each live entry to itself and nothing else to anything. -/
structure XidInvariant (s : XidState) : Prop where
  hashed : ∃ bs, Tidy (atomOps place) s.table.xidHash bs ∧
    (∀ a, bindingOf (atomOps place) (bindings bs) (.entry a) = if a ∈ s.entries then some (some a) else none) ∧
    bindingOf (atomOps place) (bindings bs) .stack = none
  allocated : ∀ a ∈ s.entries, a < s.table.entries.next

variable {place} {s : XidState}

theorem initialState_invariant (xidLatest : UInt32) : XidInvariant place (initialState xidLatest) where
  hashed := ⟨[],createHashWithSize_tidy,fun _ => rfl,rfl⟩
  allocated := by simp [initialState,XidState.entries]

/-- The lookup answers NULL whatever it is asked and whatever the table holds. -/
theorem XidInvariant.ccLookupXidEntry_eq (hi : XidInvariant place s) (xid : UInt32) :
    ccLookupXidEntry place s.table xid = some none := by
  obtain ⟨bs,ht,-,hstack⟩ := hi.hashed
  have hlookup := ht.lookupHashEntry_eq .stack
  rw [hstack] at hlookup
  simp [ccLookupXidEntry,hlookup]

theorem generateLoop_free {lookup : UInt32 → Option (Option ℕ)} {initialValue xidLatest : UInt32}
    (h : lookup initialValue = some none) (fuel : ℕ) :
    generateLoop lookup initialValue (fuel+1) xidLatest = some xidLatest := by
  simp [generateLoop,h]

/-- The value that is asked about, and the counter at that time. -/
theorem generateXid_eq_loop (lookup : UInt32 → Option (Option ℕ)) (xidLatest : UInt32) :
    generateXid lookup xidLatest = generateLoop lookup (xidLatest+1) UInt32.size (nextXid xidLatest) := by
  unfold generateXid nextXid
  by_cases hmax : xidLatest = uint32Max
  · simp only [hmax,ne_eq,not_true_eq_false,if_false]
    rfl
  · simp only [hmax,ne_eq,not_false_eq_true,if_true]

theorem generateXid_free {lookup : UInt32 → Option (Option ℕ)} {xidLatest : UInt32}
    (h : lookup (xidLatest+1) = some none) : generateXid lookup xidLatest = some (nextXid xidLatest) := by
  rw [generateXid_eq_loop]
  exact generateLoop_free h 4294967295

/-- Step lemma: an insert always succeeds and adds one live entry. -/
theorem XidInvariant.insert (hi : XidInvariant place s) :
    ∃ table, XidCall.run place s .insert =
        some ⟨table,nextXid s.xidLatest,(s.table.entries.next,nextXid s.xidLatest) :: s.live⟩ ∧
      XidInvariant place ⟨table,nextXid s.xidLatest,(s.table.entries.next,nextXid s.xidLatest) :: s.live⟩ := by
  have hgenerate : ccGenerateXid place s.table s.xidLatest = some (nextXid s.xidLatest) :=
    generateXid_free (hi.ccLookupXidEntry_eq (s.xidLatest+1))
  obtain ⟨bs,ht,hentry,hstack⟩ := hi.hashed
  obtain ⟨xidHash,bs',hinsert,ht',hbind⟩ :=
    ht.insertHashEntry_spec (.entry s.table.entries.next) (some s.table.entries.next)
  refine ⟨⟨xidHash,_,_⟩,by simp [XidCall.run,ccInsertXidEntry,hgenerate,hinsert]; exact ⟨rfl,rfl⟩,
    ⟨bs',ht',fun a => ?_,?_⟩,?_⟩
  · rw [hbind,hentry]
    by_cases ha : a = s.table.entries.next
    · simp [ha,XidState.entries]
    · rw [if_neg (by simpa using ha)]
      apply if_congr _ rfl rfl
      simp [XidState.entries,ha]
  · rw [hbind,hstack]
    simp
  · intro a ha
    rcases List.mem_cons.mp ha with rfl | ha
    · exact Nat.lt_succ_self _
    · exact Nat.lt_succ_of_lt (hi.allocated a ha)

theorem next_ccFreeXidEntry {entries entries' : Heap XidEntry} {p : Option ℕ}
    (h : ccFreeXidEntry entries p = some entries') : entries'.next = entries.next := by
  cases p with
  | none =>
    cases h
    rfl
  | some p => exact Heap.next_of_free h

/-- Step lemma: a delete of a live entry, if it has a result, takes exactly this
entry out of the hash table. -/
theorem XidInvariant.delete (hi : XidInvariant place s) {entry : ℕ} {s' : XidState}
    (hs : XidCall.run place s (.delete entry) = some s') :
    XidInvariant place s' ∧ s'.live = s.live.filter (fun e => e.1 ≠ entry) := by
  obtain ⟨bs,ht,hentry,hstack⟩ := hi.hashed
  obtain ⟨xidHash,bs',hdelete,ht',hbind⟩ := ht.deleteHashEntry_spec (.entry entry)
  by_cases hlive : entry ∈ s.entries
  · rw [hentry,if_pos hlive] at hdelete
    simp only [XidCall.run,if_pos hlive,ccDeleteXidEntry,hdelete,Option.join_some,Option.bind_eq_bind,
      Option.bind_some,Option.bind_eq_some_iff,Option.pure_def,Option.some.injEq] at hs
    obtain ⟨_,⟨_,-,_,-,entries,hfree,rfl⟩,rfl⟩ := hs
    have hmem : ∀ a, a ∈ (s.live.filter (fun e => e.1 ≠ entry)).map Prod.fst ↔ a ≠ entry ∧ a ∈ s.entries := by
      intro a
      simp only [List.mem_map,List.mem_filter,decide_eq_true_eq,XidState.entries]
      constructor
      · intro h
        obtain ⟨e,⟨he,hne⟩,rfl⟩ := h
        exact ⟨hne,e,he,rfl⟩
      · intro h
        obtain ⟨hne,e,he,rfl⟩ := h
        exact ⟨e,⟨he,hne⟩,rfl⟩
    refine ⟨⟨⟨bs',ht',fun a => ?_,?_⟩,?_⟩,rfl⟩
    · rw [hbind,hentry]
      by_cases ha : a = entry
      · simp [ha,XidState.entries]
      · rw [if_neg (by simpa using ha)]
        apply if_congr _ rfl rfl
        exact ((hmem a).trans (and_iff_right ha)).symm
    · rw [hbind,hstack]
      simp
    · intro a ha
      have hlt := hi.allocated a ((hmem a).mp ha).2
      rw [next_ccFreeXidEntry hfree]
      exact hlt
  · simp [XidCall.run,if_neg hlive] at hs

def XidState.after (place : XidPointer → ℕ) (s : XidState) : List XidCall → Option XidState
  | [] => some s
  | call :: calls => do
    let s ← call.run place s
    s.after place calls

theorem XidInvariant.assign (hi : XidInvariant place s) (value : UInt32) :
    XidInvariant place { s with xidLatest := value } where
  hashed := hi.hashed
  allocated := hi.allocated

theorem XidInvariant.after (hi : XidInvariant place s) {calls : List XidCall} {s' : XidState}
    (hs : s.after place calls = some s') : XidInvariant place s' := by
  induction calls generalizing s with
  | nil => exact Option.some.inj hs ▸ hi
  | cons call calls ih =>
    simp only [XidState.after,Option.bind_eq_bind,Option.bind_eq_some_iff] at hs
    obtain ⟨s₁,hcall,hs⟩ := hs
    refine ih ?_ hs
    cases call with
    | insert =>
      obtain ⟨table,heq,hi'⟩ := hi.insert
      rw [heq] at hcall
      exact Option.some.inj hcall ▸ hi'
    | delete entry => exact (hi.delete hcall).1
    | assign value => exact Option.some.inj hcall ▸ hi.assign value

theorem XidInvariant.allUnique_iff (hi : XidInvariant place s) (hu : s.xids.Nodup) (calls : List XidCall) :
    AllUnique place s calls ↔ NeverCollides place s calls := by
  induction calls generalizing s with
  | nil => exact iff_of_true hu trivial
  | cons call calls ih =>
    cases call with
    | insert =>
      obtain ⟨table,heq,hi'⟩ := hi.insert
      simp only [AllUnique,NeverCollides,heq,hu,true_and,forall_const,Option.some.injEq,forall_eq']
      by_cases hcollide : nextXid s.xidLatest ∈ s.xids
      · apply iff_of_false
        · intro h
          have hnodup : (nextXid s.xidLatest :: s.xids).Nodup := by
            cases calls with
            | nil => exact h
            | cons call calls => exact h.1
          exact (List.nodup_cons.mp hnodup).1 hcollide
        · intro h
          exact h.1 hcollide
      · have hu' : (nextXid s.xidLatest :: s.xids).Nodup := List.nodup_cons.mpr ⟨hcollide,hu⟩
        rw [ih hi' hu',and_iff_right hcollide]
    | delete entry =>
      simp only [AllUnique,NeverCollides,hu,true_and,reduceCtorEq,false_implies]
      apply forall_congr'
      intro s'
      apply imp_congr_right
      intro heq
      obtain ⟨hi',hlive⟩ := hi.delete heq
      apply ih hi'
      rw [XidState.xids,hlive]
      exact hu.sublist (List.filter_sublist.map _)
    | assign value =>
      simp only [AllUnique,NeverCollides,hu,true_and,reduceCtorEq,false_implies,XidCall.run,
        Option.some.injEq,forall_eq']
      exact ih (hi.assign value) hu

/-- The exact runs from a fresh table in which the live xids stay distinct. -/
theorem initialState_allUnique_iff (place : XidPointer → ℕ) (xidLatest : UInt32) (calls : List XidCall) :
    AllUnique place (initialState xidLatest) calls ↔ NeverCollides place (initialState xidLatest) calls :=
  (initialState_invariant xidLatest).allUnique_iff List.nodup_nil calls

/-- Entries lie 16 bytes apart; the local variable lies below them. -/
def alignedPlace : XidPointer → ℕ
  | .entry a => 4096+16*a
  | .stack => 1024

/-- A counter set back while an entry is live gives its xid again. -/
theorem setBack_not_unique : ¬ AllUnique alignedPlace (initialState 0) [.insert,.assign 0,.insert] := by
  intro h
  obtain ⟨table,heq,hi⟩ := (initialState_invariant 0 : XidInvariant alignedPlace _).insert
  obtain ⟨table',heq',-⟩ := (hi.assign 0).insert
  have hlast : [nextXid 0,nextXid 0].Nodup := ((h.2 _ heq).2 _ rfl).2 _ heq'
  exact absurd hlast (by decide)

end OpenFlowController.Xid
