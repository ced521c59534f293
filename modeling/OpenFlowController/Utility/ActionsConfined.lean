import OpenFlowController.Utility.ActionsToString

/-! # Which actions are printed without a fault

The walk over the actions is followed by where the next action begins and how many
characters `str` spells. It goes on behind an action of an unknown type, and behind one
whose text has fitted.
-/
namespace OpenFlowController.Utility
open Memory Protocol BoundedString

structure Place where
  offset : ℕ
  used : ℕ

section Walk
variable (actions : Bytes) (actionsLength strLength : ℕ)

def actionLength (action : ℕ) : ℕ := le16 actions (action+2)

/-- Where the text begins, behind a separator if there is space. -/
def printedFrom (used : ℕ) : ℕ := if 0 < used ∧ 2 < strLength-used then used+2 else used

/-- The space for the text is taken as an `int`. -/
def TextFits (place : Place) : Prop :=
  (actionToString actions place.offset).length < Int.bmod (strLength-printedFrom strLength place.used : ℕ) 4294967296

def GoesOn (place : Place) : Prop := actionType actions place.offset = none ∨ TextFits actions strLength place

def next (place : Place) : Place where
  offset := place.offset+actionLength actions place.offset
  used := printedFrom strLength place.used+
    min (strLength-printedFrom strLength place.used-1) (actionToString actions place.offset).length

def Passes (place place' : Place) : Prop :=
  place.offset+8 ≤ actionsLength ∧ GoesOn actions strLength place ∧ place' = next actions strLength place

/-- The action ends within the actions, and if its type is unknown it has a length. -/
def LeadsOn (place : Place) : Prop :=
  place.offset+actionLength actions place.offset ≤ actionsLength ∧
    (actionType actions place.offset = none → 0 < actionLength actions place.offset)

/-- So do all actions that the walk goes on behind. -/
def StaysInside (place : Place) : Prop :=
  ∀ place', Relation.ReflTransGen (Passes actions actionsLength strLength) place place' →
    place'.offset+8 ≤ actionsLength → GoesOn actions strLength place' → LeadsOn actions actionsLength place'

end Walk

/-- No access outside `str`, an end, and headers only from within the actions. -/
def Confined (actions : Bytes) (actionsLength : UInt16) (strLength : UInt64) : Prop :=
  (∀ fuel, actionsToString actions actionsLength strLength fuel ≠ .error .outside) ∧
  ∃ fuel ret str inspected, actionsToString actions actionsLength strLength fuel = .ok (ret,str,inspected) ∧
    ∀ o ∈ inspected, o+8 ≤ actionsLength.toNat

/-- In front of an action `str` spells `used` characters and nothing has failed. -/
structure Printing (strLength : UInt64) (s : Progress) (used : ℕ) : Prop where
  sized : s.str.length = strLength.toNat
  spelled : ∃ text, Spells s.str text ∧ text.length = used
  going : s.ret = .ccSuccess

theorem le_printedFrom (strLength used : ℕ) : used ≤ printedFrom strLength used := by
  unfold printedFrom
  split <;> omega

theorem appendSeparator_spec {strLength : UInt64} {str text : List Char} (hsize : str.length = strLength.toNat)
    (hs : Spells str text) :
    ∃ str' text' p remaining, appendSeparator strLength str = some (str',p,remaining) ∧
      str'.length = strLength.toNat ∧ Spells str' text' ∧
      text'.length = printedFrom strLength.toNat text.length ∧ p.toNat = text'.length ∧
      remaining.toNat = strLength.toNat-text'.length := by
  have hlt := hs.length_lt
  have hbound := strLength.toNat_lt
  rw [hsize] at hlt
  have hp : (UInt64.ofNat text.length).toNat = text.length := by
    rw [UInt64.toNat_ofNat',Nat.mod_eq_of_lt (by omega)]
  have hremaining : (strLength-UInt64.ofNat text.length).toNat = strLength.toNat-text.length := by
    rw [UInt64.toNat_sub_of_le _ _ (UInt64.le_iff_toNat_le.mpr (by omega)),hp]
  have hseparates : (0 < UInt64.ofNat text.length ∧ 2 < strLength-UInt64.ofNat text.length) ↔
      0 < text.length ∧ 2 < strLength.toNat-text.length := by
    rw [UInt64.lt_iff_toNat_lt,UInt64.lt_iff_toNat_lt,hp,hremaining]
    rfl
  rw [appendSeparator,hs.strlen_eq,printedFrom]
  simp only [Option.bind_eq_bind,Option.bind_some]
  by_cases hspace : 0 < text.length ∧ 2 < strLength.toNat-text.length
  · obtain ⟨str',hrun,hsize',hs'⟩ := hs.snprintf_eq (by decide : nul ∉ ", ".toList)
    rw [hsize] at hrun hsize' hs'
    have hwhole : ", ".toList.take (strLength.toNat-text.length-1) = ", ".toList :=
      List.take_of_length_le (by change 2 ≤ _; omega)
    rw [hwhole] at hs'
    have hlength : (text++", ".toList).length = text.length+2 := List.length_append
    rw [if_pos (hseparates.mpr hspace),if_pos hspace,hp,hremaining,hrun]
    refine ⟨str',_,_,_,rfl,hsize',hs',hlength,?_,?_⟩
    · rw [hlength,UInt64.toNat_add,hp]
      exact Nat.mod_eq_of_lt (by change text.length+2 < 18446744073709551616; omega)
    · have htwo : (2 : UInt64).toNat = 2 := rfl
      rw [hlength,UInt64.toNat_sub_of_le _ _ (UInt64.le_iff_toNat_le.mpr (by rw [hremaining,htwo]; omega)),
        hremaining,htwo]
      omega
  · rw [if_neg (fun h => hspace (hseparates.mp h)),if_neg hspace]
    exact ⟨str,text,_,_,rfl,hsize,hs,rfl,hp,hremaining⟩

/-- One turn prints a text behind what there is, wherever in the actions it is. -/
theorem convertAction_spec (actions : Bytes) {strLength : UInt64} {s : Progress} {used : ℕ}
    (h : Printing strLength s used) :
    ∃ s', convertAction actions strLength s = some s' ∧ s'.offset = s.offset ∧
      s'.inspected = s.offset.toNat :: s.inspected ∧
      (s'.ret = .ccError ∧ s'.str.length = strLength.toNat ∧ ¬GoesOn actions strLength.toNat ⟨s.offset.toNat,used⟩ ∨
        GoesOn actions strLength.toNat ⟨s.offset.toNat,used⟩ ∧
        Printing strLength s' (next actions strLength.toNat ⟨s.offset.toNat,used⟩).used) := by
  obtain ⟨hsized,⟨text,hspelled,hused⟩,hgoing⟩ := h
  obtain ⟨str,text',p,remaining,hsep,hsize',hspelled',hlength',hp,hremaining⟩ :=
    appendSeparator_spec hsized hspelled
  obtain ⟨str'',hrun,hsize'',hspelled''⟩ :=
    hspelled'.snprintf_eq (printable_actionToString actions s.offset.toNat).1
  rw [hsize'] at hrun hsize'' hspelled''
  rw [← hused,convertAction,hsep]
  simp only [Option.bind_eq_bind,Option.bind_some,hp,hremaining,hrun]
  refine ⟨_,rfl,rfl,rfl,?_⟩
  have hspells : ∃ text'', Spells str'' text'' ∧
      text''.length = (next actions strLength.toNat ⟨s.offset.toNat,text.length⟩).used := by
    refine ⟨_,hspelled'',?_⟩
    rw [List.length_append,List.length_take,hlength']
    rfl
  cases htype : actionType actions s.offset.toNat with
  | none => exact .inr ⟨.inl htype,hsize'',hspells,hgoing⟩
  | some type =>
    dsimp only
    rw [hlength']
    rcases Int.lt_or_le ((actionToString actions s.offset.toNat).length : ℤ)
      (Int.bmod (strLength.toNat-printedFrom strLength.toNat text.length : ℕ) 4294967296) with hfits | hfits
    · rw [if_neg (Int.not_le.mpr hfits)]
      exact .inr ⟨.inr hfits,hsize'',hspells,rfl⟩
    · rw [if_pos hfits]
      refine .inl ⟨rfl,hsize'',?_⟩
      rintro (hnone | hfits')
      · rw [hnone] at htype
        cases htype
      · exact Int.not_lt.mpr hfits hfits'

section Loop
variable {actions : Bytes} {actionsLength : UInt16} {strLength : UInt64} {s : Progress} {used : ℕ}

/-- The loop ends, or prints an action that does not fit and ends, or goes on behind one. -/
theorem actionsLoop_cases (actions : Bytes) (actionsLength : UInt16) (h : Printing strLength s used) :
    (¬8 ≤ actionsLength.toUInt64-s.offset ∧
      ∀ fuel, actionsLoop actions actionsLength strLength (fuel+1) s = .ok s) ∨
    (8 ≤ actionsLength.toUInt64-s.offset ∧ ¬GoesOn actions strLength.toNat ⟨s.offset.toNat,used⟩ ∧
      ∃ s', s'.str.length = strLength.toNat ∧ s'.inspected = s.offset.toNat :: s.inspected ∧
        ∀ fuel, actionsLoop actions actionsLength strLength (fuel+1) s = .ok s') ∨
    (8 ≤ actionsLength.toUInt64-s.offset ∧ GoesOn actions strLength.toNat ⟨s.offset.toNat,used⟩ ∧
      ∃ s', s'.inspected = s.offset.toNat :: s.inspected ∧
        s'.offset = s.offset+UInt64.ofNat (actionLength actions s.offset.toNat) ∧
        Printing strLength s' (next actions strLength.toNat ⟨s.offset.toNat,used⟩).used ∧
        ∀ fuel, actionsLoop actions actionsLength strLength (fuel+1) s =
          actionsLoop actions actionsLength strLength fuel s') := by
  by_cases henters : 8 ≤ actionsLength.toUInt64-s.offset
  · obtain ⟨s',hrun,hoffset,hinspected,hres⟩ := convertAction_spec actions h
    rcases hres with ⟨herr,hsize,hstop⟩ | ⟨hon,hprinting⟩
    · refine .inr (.inl ⟨henters,hstop,s',hsize,hinspected,fun fuel => ?_⟩)
      rw [actionsLoop,if_pos henters,hrun]
      exact if_pos herr
    · refine .inr (.inr ⟨henters,hon,
        { s' with offset := s.offset+UInt64.ofNat (actionLength actions s.offset.toNat) },hinspected,rfl,
        ⟨hprinting.sized,hprinting.spelled,hprinting.going⟩,fun fuel => ?_⟩)
      rw [actionsLoop,if_pos henters,hrun,← hoffset]
      exact if_neg (by rw [hprinting.going]; decide)
  · exact .inl ⟨henters,fun fuel => by rw [actionsLoop,if_neg henters]⟩

theorem actionsLoop_inside (actions : Bytes) (actionsLength : UInt16) (h : Printing strLength s used) (fuel : ℕ) :
    actionsLoop actions actionsLength strLength fuel s = .error .starved ∨
    ∃ s', actionsLoop actions actionsLength strLength fuel s = .ok s' ∧ s'.str.length = strLength.toNat := by
  induction fuel generalizing s used with
  | zero => exact .inl rfl
  | succ fuel ih =>
    rcases actionsLoop_cases actions actionsLength h with
      ⟨-,hrun⟩ | ⟨-,-,s',hsize,-,hrun⟩ | ⟨-,-,s',-,-,hprinting,hrun⟩
    · exact .inr ⟨s,hrun fuel,h.sized⟩
    · exact .inr ⟨s',hrun fuel,hsize⟩
    · rw [hrun fuel]
      exact ih hprinting

theorem inspected_subset (h : Printing strLength s used) {fuel : ℕ} {s' : Progress}
    (hrun : actionsLoop actions actionsLength strLength fuel s = .ok s') : s.inspected ⊆ s'.inspected := by
  induction fuel generalizing s used with
  | zero => cases hrun
  | succ fuel ih =>
    rcases actionsLoop_cases actions actionsLength h with
      ⟨-,hstep⟩ | ⟨-,-,s'',-,hinspected,hstep⟩ | ⟨-,-,s'',hinspected,-,hprinting,hstep⟩
    · rw [hstep fuel] at hrun
      cases hrun
      exact List.Subset.refl _
    · rw [hstep fuel] at hrun
      cases hrun
      rw [hinspected]
      exact List.subset_cons_self _ _
    · rw [hstep fuel] at hrun
      have hsub := ih hprinting hrun
      rw [hinspected] at hsub
      exact fun o ho => hsub (List.mem_cons_of_mem _ ho)

/-- As long as the offset has not passed the end, the difference is the remaining length. -/
theorem enters_iff (h : s.offset.toNat ≤ actionsLength.toNat) :
    8 ≤ actionsLength.toUInt64-s.offset ↔ s.offset.toNat+8 ≤ actionsLength.toNat := by
  rw [UInt64.le_iff_toNat_le,UInt64.toNat_sub_of_le _ _ (UInt64.le_iff_toNat_le.mpr h),UInt16.toNat_toUInt64]
  change 8 ≤ _ ↔ _
  omega

/-- Behind the end it is a large number. -/
theorem enters_of_gt (h : actionsLength.toNat < s.offset.toNat) (hnear : s.offset.toNat < 4294967296) :
    8 ≤ actionsLength.toUInt64-s.offset := by
  have hlength := actionsLength.toNat_lt
  rw [UInt64.le_iff_toNat_le,UInt64.toNat_sub,UInt16.toNat_toUInt64]
  change 8 ≤ _
  omega

theorem toNat_offset_add (h : s.offset.toNat ≤ actionsLength.toNat) :
    (s.offset+UInt64.ofNat (actionLength actions s.offset.toNat)).toNat =
      s.offset.toNat+actionLength actions s.offset.toNat := by
  have hlength := actionsLength.toNat_lt
  have hlen : actionLength actions s.offset.toNat < 65536 := le16_lt actions _
  rw [UInt64.toNat_add,UInt64.toNat_ofNat',Nat.mod_eq_of_lt (a := actionLength _ _) (by omega)]
  exact Nat.mod_eq_of_lt (by change _ < 18446744073709551616; omega)

/-- A header that is looked at stays on record. -/
theorem offset_mem_inspected (h : Printing strLength s used) (henters : 8 ≤ actionsLength.toUInt64-s.offset)
    {fuel : ℕ} {s' : Progress} (hrun : actionsLoop actions actionsLength strLength fuel s = .ok s') :
    s.offset.toNat ∈ s'.inspected := by
  cases fuel with
  | zero => cases hrun
  | succ fuel =>
    rcases actionsLoop_cases actions actionsLength h with
      ⟨hends,-⟩ | ⟨-,-,s'',-,hinspected,hstep⟩ | ⟨-,-,s'',hinspected,-,hprinting,hstep⟩
    · exact absurd henters hends
    · rw [hstep fuel] at hrun
      cases hrun
      rw [hinspected]
      exact List.mem_cons_self
    · rw [hstep fuel] at hrun
      have hmem := inspected_subset hprinting hrun
      rw [hinspected] at hmem
      exact hmem List.mem_cons_self

/-- An action of an unknown type and no length is come back to for ever. -/
theorem endless (h : Printing strLength s used) (henters : 8 ≤ actionsLength.toUInt64-s.offset)
    (htype : actionType actions s.offset.toNat = none) (hlen : actionLength actions s.offset.toNat = 0)
    (fuel : ℕ) : actionsLoop actions actionsLength strLength fuel s = .error .starved := by
  induction fuel generalizing s used with
  | zero => rfl
  | succ fuel ih =>
    rcases actionsLoop_cases actions actionsLength h with
      ⟨hends,-⟩ | ⟨-,hstop,-⟩ | ⟨-,-,s',-,hoffset,hprinting,hstep⟩
    · exact absurd henters hends
    · exact absurd (.inl htype) hstop
    · rw [hlen] at hoffset
      replace hoffset : s'.offset = s.offset := hoffset.trans (UInt64.add_zero _)
      rw [hstep fuel]
      exact ih hprinting (hoffset ▸ henters) (hoffset ▸ htype) (hoffset ▸ hlen)

theorem used_lt (h : Printing strLength s used) : used < strLength.toNat := by
  obtain ⟨text,hspelled,rfl⟩ := h.spelled
  exact h.sized ▸ hspelled.length_lt

/-- A text that fits is longer than nothing. -/
theorem used_lt_next (actions : Bytes) {strLength : ℕ} {place : Place} (hfits : TextFits actions strLength place) :
    place.used < (next actions strLength place).used := by
  have hnonempty : 0 < (actionToString actions place.offset).length :=
    List.length_pos_iff.mpr (printable_actionToString actions place.offset).2
  have hbmod : Int.bmod (strLength-printedFrom strLength place.used : ℕ) 4294967296 ≤
      (strLength-printedFrom strLength place.used : ℕ) := by
    simp only [Int.bmod]
    split <;> omega
  have hspace := Int.ofNat_lt.mp (Int.lt_of_lt_of_le hfits hbmod)
  have hfrom := le_printedFrom strLength place.used
  rw [next]
  dsimp only
  omega

theorem returns_of_staysInside {s : Progress} {used : ℕ} (h : Printing strLength s used)
    (hoffset : s.offset.toNat ≤ actionsLength.toNat) (hin : ∀ o ∈ s.inspected, o+8 ≤ actionsLength.toNat)
    (hstays : StaysInside actions actionsLength.toNat strLength.toNat ⟨s.offset.toNat,used⟩) :
    ∃ fuel s', actionsLoop actions actionsLength strLength fuel s = .ok s' ∧
      ∀ o ∈ s'.inspected, o+8 ≤ actionsLength.toNat := by
  rcases actionsLoop_cases actions actionsLength h with
    ⟨-,hrun⟩ | ⟨henters,-,s',-,hinspected,hrun⟩ | ⟨henters,hon,s',hinspected,hnext,hprinting,hrun⟩
  · exact ⟨1,s,hrun 0,hin⟩
  · rw [enters_iff hoffset] at henters
    refine ⟨1,s',hrun 0,?_⟩
    rw [hinspected]
    exact List.forall_mem_cons.mpr ⟨henters,hin⟩
  · rw [enters_iff hoffset] at henters
    obtain ⟨hends,hlen⟩ := hstays _ .refl henters hon
    have htoNat : s'.offset.toNat = s.offset.toNat+actionLength actions s.offset.toNat := by
      rw [hnext,toNat_offset_add hoffset]
    have hin' : ∀ o ∈ s'.inspected, o+8 ≤ actionsLength.toNat := by
      rw [hinspected]
      exact List.forall_mem_cons.mpr ⟨henters,hin⟩
    have hstays' : StaysInside actions actionsLength.toNat strLength.toNat
        ⟨s'.offset.toNat,(next actions strLength.toNat ⟨s.offset.toNat,used⟩).used⟩ := by
      intro place hreach
      refine hstays place (.head ⟨henters,hon,?_⟩ hreach)
      rw [htoNat]
      rfl
    obtain ⟨fuel,s'',hrun',hin''⟩ := returns_of_staysInside hprinting (htoNat ▸ hends) hin' hstays'
    exact ⟨fuel+1,s'',(hrun fuel).trans hrun',hin''⟩
termination_by (actionsLength.toNat-s.offset.toNat,strLength.toNat-used)
decreasing_by
  rcases Nat.eq_zero_or_pos (actionLength actions s.offset.toNat) with hzero | hpos
  · -- without a length only a text that fits leads on, and it takes up space
    have hfits := hon.resolve_left (fun hunknown => absurd (hlen hunknown) (by rw [hzero]; decide))
    have hless := used_lt_next actions hfits
    dsimp only at hless
    have hused := used_lt h
    rw [htoNat,hzero,Nat.add_zero]
    apply Prod.Lex.right
    omega
  · dsimp only at hends
    rw [htoNat]
    apply Prod.Lex.left
    omega

theorem staysInside_of_returns (h : Printing strLength s used) (hoffset : s.offset.toNat ≤ actionsLength.toNat)
    {fuel : ℕ} {s' : Progress} (hrun : actionsLoop actions actionsLength strLength fuel s = .ok s')
    (hin : ∀ o ∈ s'.inspected, o+8 ≤ actionsLength.toNat) :
    StaysInside actions actionsLength.toNat strLength.toNat ⟨s.offset.toNat,used⟩ := by
  intro place hreach hheader hon
  induction fuel generalizing s used with
  | zero => cases hrun
  | succ fuel ih =>
    rcases actionsLoop_cases actions actionsLength h with
      ⟨hends,-⟩ | ⟨-,hstop,-⟩ | ⟨henters,-,s'',-,hnext,hprinting,hstep⟩
    · rw [enters_iff hoffset] at hends
      rcases Relation.ReflTransGen.cases_head hreach with rfl | ⟨_,hpass,-⟩
      · exact absurd hheader hends
      · exact absurd hpass.1 hends
    · rcases Relation.ReflTransGen.cases_head hreach with rfl | ⟨_,hpass,-⟩
      · exact absurd hon hstop
      · exact absurd hpass.2.1 hstop
    · rw [hstep fuel] at hrun
      have htoNat : s''.offset.toNat = s.offset.toNat+actionLength actions s.offset.toNat := by
        rw [hnext,toNat_offset_add hoffset]
      have hlength := actionsLength.toNat_lt
      have hlen : actionLength actions s.offset.toNat < 65536 := le16_lt actions _
      -- the header that comes next would be looked at, and lies outside
      have hends : s.offset.toNat+actionLength actions s.offset.toNat ≤ actionsLength.toNat := by
        by_contra hpast
        have henters' : 8 ≤ actionsLength.toUInt64-s''.offset := enters_of_gt (by omega) (by omega)
        have hin' := hin _ (offset_mem_inspected hprinting henters' hrun)
        omega
      rcases Relation.ReflTransGen.cases_head hreach with rfl | ⟨place',hpass,hreach'⟩
      · refine ⟨hends,fun hunknown => Nat.pos_of_ne_zero fun hzero => ?_⟩
        have hstuck := endless h henters hunknown hzero (fuel+1)
        rw [hstep fuel,hrun] at hstuck
        cases hstuck
      · obtain ⟨-,-,rfl⟩ := hpass
        refine ih hprinting (htoNat ▸ hends) hrun ?_
        rw [htoNat]
        exact hreach'

end Loop

theorem printing_start {strLength : UInt64} (hpos : 0 < strLength) :
    Printing strLength ⟨.ccSuccess,0,List.replicate strLength.toNat nul,[]⟩ 0 where
  sized := List.length_replicate
  spelled := ⟨[],spells_replicate (UInt64.lt_iff_toNat_lt.mp hpos),rfl⟩
  going := rfl

/-- The last byte of `str` is there to be set. -/
theorem poke_last {strLength : UInt64} (hpos : 0 < strLength) {str : List Char} (hsize : str.length = strLength.toNat) :
    ∃ str', poke str (strLength-1).toNat nul = some str' := by
  have hpos' := UInt64.lt_iff_toNat_lt.mp hpos
  have hlast : (strLength-1).toNat < str.length := by
    have hone : 1 ≤ strLength := UInt64.le_iff_toNat_le.mpr (Nat.succ_le_of_lt hpos')
    rw [hsize,UInt64.toNat_sub_of_le _ _ hone]
    exact Nat.sub_lt hpos' (by decide)
  exact ⟨_,if_pos hlast⟩

theorem actionsToString_cases (actions : Bytes) (actionsLength : UInt16) {strLength : UInt64} (hpos : 0 < strLength)
    (fuel : ℕ) :
    let start : Progress := ⟨.ccSuccess,0,List.replicate strLength.toNat nul,[]⟩
    (actionsLoop actions actionsLength strLength fuel start = .error .starved ∧
      actionsToString actions actionsLength strLength fuel = .error .starved) ∨
    ∃ s str, actionsLoop actions actionsLength strLength fuel start = .ok s ∧
      actionsToString actions actionsLength strLength fuel = .ok (s.ret,str,s.inspected) := by
  intro start
  rw [actionsToString]
  rcases actionsLoop_inside actions actionsLength (printing_start hpos) fuel with
    hstarved | ⟨s,hrun,hsize⟩
  · rw [hstarved]
    exact .inl ⟨rfl,rfl⟩
  · obtain ⟨str,hstr⟩ := poke_last hpos hsize
    rw [hrun]
    refine .inr ⟨s,str,rfl,?_⟩
    simp only [bind,Except.bind,hstr]
    rfl

theorem not_outside (actions : Bytes) (actionsLength : UInt16) {strLength : UInt64} (hpos : 0 < strLength) (fuel : ℕ) :
    actionsToString actions actionsLength strLength fuel ≠ .error .outside := by
  intro hout
  rcases actionsToString_cases actions actionsLength hpos fuel with ⟨-,hstarved⟩ | ⟨s,str,-,hret⟩
  · rw [hstarved] at hout
    cases hout
  · rw [hret] at hout
    cases hout

theorem confined_iff_staysInside (actions : Bytes) (actionsLength : UInt16) {strLength : UInt64} (hpos : 0 < strLength) :
    Confined actions actionsLength strLength ↔ StaysInside actions actionsLength.toNat strLength.toNat ⟨0,0⟩ := by
  constructor
  · rintro ⟨-,fuel,ret,str,inspected,hret,hin⟩
    rcases actionsToString_cases actions actionsLength hpos fuel with ⟨-,hstarved⟩ | ⟨s,str',hrun,hret'⟩
    · rw [hstarved] at hret
      cases hret
    · rw [hret'] at hret
      cases hret
      exact staysInside_of_returns (printing_start hpos) (Nat.zero_le _) hrun hin
  · intro hstays
    refine ⟨not_outside actions actionsLength hpos,?_⟩
    obtain ⟨fuel,s,hrun,hin⟩ := returns_of_staysInside (printing_start hpos) (Nat.zero_le actionsLength.toNat)
      (List.forall_mem_nil _) hstays
    rcases actionsToString_cases actions actionsLength hpos fuel with ⟨hstarved,-⟩ | ⟨s',str,hrun',hret⟩
    · rw [hstarved] at hrun
      cases hrun
    · rw [hrun'] at hrun
      cases hrun
      exact ⟨fuel,s.ret,str,s.inspected,hret,hin⟩

/-- Nothing outside `str` is ever touched. An action that leads past the end is followed
there, and one of an unknown type without a length is never left. -/
theorem actionsToString_confined_iff (actions : Bytes) (actionsLength : UInt16) {strLength : UInt64}
    (hpos : 0 < strLength) :
    (∀ fuel, actionsToString actions actionsLength strLength fuel ≠ .error .outside) ∧
    (Confined actions actionsLength strLength ↔ StaysInside actions actionsLength.toNat strLength.toNat ⟨0,0⟩) :=
  ⟨not_outside actions actionsLength hpos,confined_iff_staysInside actions actionsLength hpos⟩

def outputAction (len : UInt8) : Bytes := fun o => [0,0,len,0,1,0].getD o 0

theorem actionsToString_confined_iff_outputAction : Confined (outputAction 8) 8 64 := by
  apply (actionsToString_confined_iff (outputAction 8) 8 (by decide)).2.mpr
  intro place hreach hheader hon
  rcases Relation.ReflTransGen.cases_head hreach with rfl | ⟨_,⟨-,-,rfl⟩,hreach'⟩
  · exact ⟨by decide,by decide⟩
  · rcases Relation.ReflTransGen.cases_head hreach' with rfl | ⟨_,⟨hheader',-⟩,-⟩
    · exact absurd hheader (by decide)
    · exact absurd hheader' (by decide)

/-- Eight bytes are enough, of an unknown type and no length, or of a length of sixteen. -/
theorem misleadingLength_not_confined :
    ¬Confined (fun o => if o = 0 then 13 else 0) 8 64 ∧ ¬Confined (outputAction 16) 8 64 := by
  constructor
  · rw [confined_iff_staysInside _ _ (by decide)]
    intro hstays
    have hleads := hstays ⟨0,0⟩ .refl (by decide) (.inl (by decide))
    exact absurd (hleads.2 (by decide)) (by decide)
  · rw [confined_iff_staysInside _ _ (by decide)]
    intro hstays
    have hfits : TextFits (outputAction 16) 64 ⟨0,0⟩ := by
      unfold TextFits
      decide
    exact absurd (hstays ⟨0,0⟩ .refl (by decide) (.inr hfits)).1 (by decide)

end OpenFlowController.Utility
