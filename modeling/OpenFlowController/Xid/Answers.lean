import OpenFlowController.Xid.XidRuns

/-! # What generator and lookup answer

The generator asks about the value it has started from and moves another one. The
lookup turns its result round. Both are right only where there is nothing to find.
-/
namespace OpenFlowController.Xid
open Memory Table

/-- A lookup that answers with the live entry of an xid, or with NULL. -/
def answers (live : UInt32 → Option ℕ) (xid : UInt32) : Option (Option ℕ) := some (live xid)

/-- The value returned, and `*xid_latest` after the call. -/
def generateXidAndCounter (lookup : UInt32 → Option (Option ℕ)) (xidLatest : UInt32) : Option (UInt32 × UInt32) := do
  let xidLatest ← generateXid lookup xidLatest
  return (xidLatest,xidLatest)

/-- The call comes back, and with a value that is not live if there is one. -/
def GeneratesFresh (live : UInt32 → Option ℕ) (xidLatest : UInt32) : Prop :=
  ∃ xid counter, generateXidAndCounter (answers live) xidLatest = some (xid,counter) ∧ xid = counter ∧
    ((∃ x, live x = none) → live xid = none)

/-- The next value is free and is the one returned, or 0 is returned and free. -/
def NextFree (live : UInt32 → Option ℕ) (xidLatest : UInt32) : Prop :=
  if xidLatest = uint32Max then live 0 = none ∧ live uint32Max = none
  else live (xidLatest+1) = none ∨ live 0 = none

section Generate
variable {live : UInt32 → Option ℕ} {lookup : UInt32 → Option (Option ℕ)} {initialValue xidLatest : UInt32}

theorem succ_of_wrap (x : UInt32) : (if x ≠ uint32Max then x+1 else 0) = x+1 := by
  split
  · rfl
  · rename_i hmax
    rw [not_not.mp hmax]
    rfl

theorem generateLoop_step {a : ℕ} (h : lookup initialValue = some (some a)) (fuel : ℕ) :
    generateLoop lookup initialValue (fuel+1) xidLatest =
      if initialValue = xidLatest+1 then some 0 else generateLoop lookup initialValue fuel (xidLatest+1) := by
  simp only [generateLoop,h,succ_of_wrap,Option.bind_eq_bind,Option.bind_some]
  rfl

/-- The value that is asked about stays the same, so the counter goes all the way
round to it. -/
theorem generateLoop_occupied {a n fuel : ℕ} (h : lookup initialValue = some (some a))
    (hround : xidLatest+UInt32.ofNat (n+1) = initialValue) (hfuel : n < fuel) :
    generateLoop lookup initialValue fuel xidLatest = some 0 := by
  obtain ⟨fuel,rfl⟩ := Nat.exists_eq_succ_of_ne_zero (Nat.ne_zero_of_lt hfuel)
  induction n generalizing xidLatest fuel with
  | zero =>
    have hlast : initialValue = xidLatest+1 := hround.symm
    rw [generateLoop_step h,if_pos hlast]
  | succ n ih =>
    obtain ⟨fuel,rfl⟩ := Nat.exists_eq_succ_of_ne_zero (show fuel ≠ 0 by omega)
    rw [generateLoop_step h]
    split
    · rfl
    · refine ih ?_ fuel (Nat.lt_of_succ_lt_succ hfuel)
      rw [← hround,UInt32.ofNat_add (n+1) 1,UInt32.add_comm (UInt32.ofNat (n+1)),← UInt32.add_assoc]
      rfl

theorem generateXid_occupied {a : ℕ} (h : lookup (xidLatest+1) = some (some a)) :
    generateXid lookup xidLatest = some 0 := by
  rw [generateXid_eq_loop,nextXid]
  by_cases hmax : xidLatest = uint32Max
  · rw [if_neg (not_not.mpr hmax)]
    exact generateLoop_occupied h (n := 0) (by rw [hmax]; rfl) (by decide)
  · rw [if_pos hmax]
    refine generateLoop_occupied h (n := 4294967295) ?_ (Nat.lt_succ_self _)
    exact UInt32.add_zero _

theorem generatesFresh_iff_value {xid : UInt32} (h : generateXid (answers live) xidLatest = some xid) :
    GeneratesFresh live xidLatest ↔ (∀ x, live x ≠ none) ∨ live xid = none := by
  have hcall : generateXidAndCounter (answers live) xidLatest = some (xid,xid) := by
    rw [generateXidAndCounter,h]
    rfl
  simp only [GeneratesFresh,hcall,Option.some.injEq,Prod.mk.injEq]
  constructor
  · rintro ⟨_,_,⟨rfl,rfl⟩,-,hfresh⟩
    by_cases hfree : ∃ x, live x = none
    · exact Or.inr (hfresh hfree)
    · exact Or.inl (not_exists.mp hfree)
  · intro hfresh
    refine ⟨xid,xid,⟨rfl,rfl⟩,rfl,?_⟩
    rintro ⟨x,hx⟩
    exact hfresh.resolve_left (fun hall => hall x hx)

/-- The generator always comes back. Its value is fresh where the next one is free, and
where it is not 0 is returned in its place; from the greatest value on the next one is 0,
and what is returned is the greatest value. -/
theorem generatesFresh_iff (live : UInt32 → Option ℕ) (xidLatest : UInt32) :
    GeneratesFresh live xidLatest ↔ (∀ x, live x ≠ none) ∨ NextFree live xidLatest := by
  cases hnext : live (xidLatest+1) with
  | none =>
    have hlookup : answers live (xidLatest+1) = some none := congrArg some hnext
    rw [generatesFresh_iff_value (generateXid_free hlookup),NextFree,nextXid]
    by_cases hmax : xidLatest = uint32Max
    · have hzero : live 0 = none := by
        rw [hmax] at hnext
        exact hnext
      simp [hmax,hzero]
    · simp [hmax,hnext]
  | some a =>
    have hlookup : answers live (xidLatest+1) = some (some a) := congrArg some hnext
    rw [generatesFresh_iff_value (generateXid_occupied hlookup),NextFree]
    by_cases hmax : xidLatest = uint32Max
    · have hzero : live 0 ≠ none := by
        rw [hmax] at hnext
        exact fun h => Option.some_ne_none a (hnext.symm.trans h)
      simp [hmax,hzero]
    · simp [hmax,hnext]

/-- With 0 and 1 live, the generator returns 0 after 0. -/
theorem occupiedNext_not_fresh : ¬ GeneratesFresh (fun x => if x ≤ 1 then some 0 else none) 0 := by
  have hlookup : answers (fun x => if x ≤ 1 then some 0 else none) (0+1) = some (some 0) := rfl
  rw [generatesFresh_iff_value (generateXid_occupied hlookup)]
  rintro (hall | hzero)
  · exact hall 2 rfl
  · cases hzero

end Generate

/-- The lookup answers with the live entry that has the xid, and otherwise with NULL. -/
def FindsLive (place : XidPointer → ℕ) (s : XidState) (xid : UInt32) : Prop :=
  ∃ found, ccLookupXidEntry place s.table xid = some found ∧ ∀ a, found = some a ↔ (a,xid) ∈ s.live

section Lookup
variable {place : XidPointer → ℕ} {s : XidState} {xid : UInt32}

theorem XidInvariant.findsLive_iff (hi : XidInvariant place s) : FindsLive place s xid ↔ xid ∉ s.xids := by
  have hnull := hi.ccLookupXidEntry_eq xid
  constructor
  · rintro ⟨found,hfound,hlive⟩ hmem
    obtain ⟨⟨a,_⟩,he,rfl⟩ := List.mem_map.mp hmem
    cases hnull.symm.trans hfound
    cases (hlive a).mpr he
  · intro hfree
    refine ⟨none,hnull,fun a => iff_of_false nofun (fun he => hfree ?_)⟩
    exact List.mem_map_of_mem he

/-- After every run the lookup is right about exactly the xids that are not live. -/
theorem initialState_findsLive_iff (place : XidPointer → ℕ) (xidLatest : UInt32) (calls : List XidCall)
    (hs : (initialState xidLatest).after place calls = some s) (xid : UInt32) :
    FindsLive place s xid ↔ xid ∉ s.xids :=
  ((initialState_invariant xidLatest).after hs).findsLive_iff

/-- One insert, after which 1 is live. -/
theorem exists_after_insert (place : XidPointer → ℕ) : ∃ s, (initialState 0).after place [.insert] = some s ∧
    s.live = [(0,1)] ∧ XidInvariant place s := by
  obtain ⟨table,heq,hi⟩ := (initialState_invariant 0 : XidInvariant place _).insert
  refine ⟨_,?_,rfl,hi⟩
  rw [XidState.after,heq]
  rfl

theorem initialState_findsLive_iff_insert : ∃ s, (initialState 0).after alignedPlace [.insert] = some s ∧
    (FindsLive alignedPlace s 2 ↔ 2 ∉ s.xids) := by
  obtain ⟨s,hs,-,-⟩ := exists_after_insert alignedPlace
  exact ⟨s,hs,initialState_findsLive_iff alignedPlace 0 [.insert] hs 2⟩

/-- The one live xid is not found. -/
theorem insertedXid_not_found : ∃ s, (initialState 0).after alignedPlace [.insert] = some s ∧ s.xids.Nodup ∧
    ccLookupXidEntry alignedPlace s.table 1 = some none ∧ ¬ FindsLive alignedPlace s 1 := by
  obtain ⟨s,hs,hlive,hi⟩ := exists_after_insert alignedPlace
  have hxids : s.xids = [1] := by rw [XidState.xids,hlive,List.map_singleton]
  refine ⟨s,hs,by simp [hxids],hi.ccLookupXidEntry_eq 1,?_⟩
  rw [hi.findsLive_iff,hxids]
  simp

end Lookup
end OpenFlowController.Xid
