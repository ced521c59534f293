import OpenFlowController.Utility.ActionsConfined
import OpenFlowController.Utility.Texts

/-! # What the text of actions tells

The text of an action begins with the name of its kind and has no comma, so that a row of
actions printed to the end can be read back action for action.
-/
namespace OpenFlowController.Utility
open Memory Protocol BoundedString Texts

theorem decimal_injective : Function.Injective decimal := toDigits_injective (by decide) (by decide)

theorem sharpHex_injective : Function.Injective sharpHex := by
  intro n m h
  unfold sharpHex at h
  split at h <;> split at h
  · omega
  · exact absurd (congrArg List.length h) (by simp)
  · exact absurd (congrArg List.length h) (by simp)
  · exact toDigits_injective (by decide) (by decide) (List.cons.inj (List.cons.inj h).2).2

theorem hexByte_injective : Function.Injective hexByte := by
  intro a b h
  have ha := a.toNat_lt
  have hb := b.toNat_lt
  obtain ⟨hhigh,hlow⟩ := List.cons.inj h
  have hquotient := digitChar_injOn (by omega) (by omega) hhigh
  have hremainder := digitChar_injOn (by omega) (by omega) (List.cons.inj hlow).1
  exact UInt8.toNat_inj.mp (by omega)

section Stops
variable {c : Char}

theorem notMem_decimal (hc : c.isAlphanum = false) (n : ℕ) : c ∉ decimal n := fun h => by
  rw [isAlphanum_of_mem_toDigits (by decide) (by decide) h] at hc
  cases hc

theorem notMem_sharpHex (hc : c.isAlphanum = false) (n : ℕ) : c ∉ sharpHex n := by
  unfold sharpHex
  split
  · rintro h
    rw [List.mem_singleton.mp h] at hc
    cases hc
  · simp only [List.mem_cons,not_or]
    refine ⟨fun h => ?_,fun h => ?_,fun h => ?_⟩
    · rw [h] at hc
      cases hc
    · rw [h] at hc
      cases hc
    · rw [isAlphanum_of_mem_toDigits (by decide) (by decide) h] at hc
      cases hc

theorem notMem_hexByte (hc : c.isAlphanum = false) (b : UInt8) : c ∉ hexByte b := by
  have hb := b.toNat_lt
  have hdigit : ∀ i : Fin 16, (Nat.digitChar i).isAlphanum = true := by decide
  simp only [hexByte,List.mem_cons,List.not_mem_nil,or_false,not_or]
  constructor <;> rintro rfl
  · exact absurd (hdigit ⟨b.toNat/16,by omega⟩) (by rw [hc]; decide)
  · exact absurd (hdigit ⟨b.toNat%16,by omega⟩) (by rw [hc]; decide)

theorem notMem_inetNtop (hc : c.isAlphanum = false) (hdot : c ≠ '.') (n : ℕ) : c ∉ inetNtop n := by
  unfold inetNtop
  simp only [List.mem_append,List.mem_singleton,notMem_decimal hc,hdot,or_self,not_false_eq_true]

end Stops

theorem inetNtop_injective : Function.Injective inetNtop := by
  intro n m h
  have hdot (n : ℕ) : '.' ∉ decimal n := notMem_decimal (by decide) n
  unfold inetNtop at h
  simp only [List.append_assoc,List.singleton_append] at h
  obtain ⟨h₃,h⟩ := eq_of_stop (hdot _) (hdot _) h
  obtain ⟨h₂,h⟩ := eq_of_stop (hdot _) (hdot _) h
  obtain ⟨h₁,h₀⟩ := eq_of_stop (hdot _) (hdot _) h
  have h₃ := decimal_injective h₃
  have h₂ := decimal_injective h₂
  have h₁ := decimal_injective h₁
  have h₀ := decimal_injective h₀
  omega

section Kinds

/-- What the text begins with. -/
def kindName : Option OfpActionType → List Char
  | some .ofpatOutput => "output".toList
  | some .ofpatSetVlanVid => "set_vlan_vid".toList
  | some .ofpatSetVlanPcp => "set_vlan_pcp".toList
  | some .ofpatStripVlan => "strip_vlan".toList
  | some .ofpatSetDlSrc => "set_dl_src".toList
  | some .ofpatSetDlDst => "set_dl_dst".toList
  | some .ofpatSetNwSrc => "set_nw_src".toList
  | some .ofpatSetNwDst => "set_nw_dst".toList
  | some .ofpatSetNwTos => "set_nw_tos".toList
  | some .ofpatSetTpSrc => "set_tp_src".toList
  | some .ofpatSetTpDst => "set_tp_dst".toList
  | some .ofpatEnqueue => "enqueue".toList
  | some .ofpatVendor => "vendor".toList
  | none => "undefined".toList

theorem kindName_injective : Function.Injective kindName := by
  have hall : ∀ kind ∈ none :: OfpActionType.all.map some, ∀ kind' ∈ none :: OfpActionType.all.map some,
      kindName kind = kindName kind' → kind = kind' := by decide
  have hmem (kind : Option OfpActionType) : kind ∈ none :: OfpActionType.all.map some := by
    rcases kind with _ | kind
    · exact List.mem_cons_self
    · cases kind <;> decide
  exact fun kind kind' => hall kind (hmem kind) kind' (hmem kind')

variable (actions : Bytes) (action : ℕ)

/-- The fields of an action that its text is made from. -/
def shownFields : List ℕ :=
  match actionType actions action with
  | some .ofpatOutput => [le16 actions (action+4),le16 actions (action+6)]
  | some .ofpatSetVlanVid => [le16 actions (action+4)]
  | some .ofpatStripVlan => []
  | some .ofpatSetDlSrc | some .ofpatSetDlDst => (List.range 6).map fun i => (actions (action+4+i)).toNat
  | some .ofpatSetNwSrc | some .ofpatSetNwDst | some .ofpatVendor => [le32 actions (action+4)]
  | some .ofpatSetVlanPcp | some .ofpatSetNwTos => [(actions (action+4)).toNat]
  | some .ofpatSetTpSrc | some .ofpatSetTpDst => [le16 actions (action+4)]
  | some .ofpatEnqueue => [le16 actions (action+4),le32 actions (action+12)]
  | none => [le16 actions action]

/-- The kind and the fields. -/
def shownAction : Option OfpActionType × List ℕ := (actionType actions action,shownFields actions action)

end Kinds
section Read
variable {actions actions' : Bytes} {action action' : ℕ}

theorem takeWhile_actionToString (actions : Bytes) (action : ℕ) :
    (actionToString actions action).takeWhile (· ≠ ':') = kindName (actionType actions action) := by
  unfold actionToString
  split <;> rename_i hkind <;> rw [hkind] <;> rfl

/-- Two numbers, the second behind a blank. -/
theorem eq_of_two {name between : List Char} {n m n' m' : ℕ}
    (h : name++decimal n++ ' ' :: between++decimal m = name++decimal n'++ ' ' :: between++decimal m') : n = n' ∧ m = m' := by
  have hblank (n : ℕ) : ' ' ∉ decimal n := notMem_decimal (by decide) n
  simp only [List.append_assoc,List.cons_append] at h
  obtain ⟨hn,hm⟩ := eq_of_stop (hblank n) (hblank n') (List.append_cancel_left h)
  exact ⟨decimal_injective hn,decimal_injective (List.append_cancel_left hm)⟩

theorem shownFields_dlAddr {type : OfpActionType}
    (h : actionDlAddrToString actions action type = actionDlAddrToString actions' action' type) :
    (List.range 6).map (fun i => (actions (action+4+i)).toNat) = (List.range 6).map fun i => (actions' (action'+4+i)).toNat := by
  have hcolon (b : UInt8) : ':' ∉ hexByte b := notMem_hexByte (by decide) b
  unfold actionDlAddrToString at h
  simp only [List.append_assoc,List.singleton_append,List.append_cancel_left_eq] at h
  obtain ⟨h₀,h⟩ := eq_of_stop (hcolon _) (hcolon _) h
  obtain ⟨h₁,h⟩ := eq_of_stop (hcolon _) (hcolon _) h
  obtain ⟨h₂,h⟩ := eq_of_stop (hcolon _) (hcolon _) h
  obtain ⟨h₃,h⟩ := eq_of_stop (hcolon _) (hcolon _) h
  obtain ⟨h₄,h₅⟩ := eq_of_stop (hcolon _) (hcolon _) h
  refine List.map_congr_left fun i hi => congrArg UInt8.toNat ?_
  match i,List.mem_range.mp hi with
  | 0,_ => exact hexByte_injective h₀
  | 1,_ => exact hexByte_injective h₁
  | 2,_ => exact hexByte_injective h₂
  | 3,_ => exact hexByte_injective h₃
  | 4,_ => exact hexByte_injective h₄
  | 5,_ => exact hexByte_injective h₅

/-- The name gives the kind, and the kind how the rest is read. -/
theorem shownAction_of_text (h : actionToString actions action = actionToString actions' action') :
    shownAction actions action = shownAction actions' action' := by
  have hkind : actionType actions action = actionType actions' action' := by
    apply kindName_injective
    rw [← takeWhile_actionToString,h,takeWhile_actionToString]
  refine Prod.ext hkind ?_
  dsimp only [shownAction]
  generalize htype : actionType actions action = type at hkind
  unfold actionToString at h
  unfold shownFields
  rw [← hkind,htype] at h ⊢
  rcases type with _ | type
  · rw [sharpHex_injective (List.append_cancel_left h)]
  cases type with
  | ofpatOutput =>
    obtain ⟨hport,hlen⟩ := eq_of_two h
    rw [hport,hlen]
  | ofpatSetVlanVid => rw [sharpHex_injective (List.append_cancel_left h)]
  | ofpatSetVlanPcp => rw [sharpHex_injective (List.append_cancel_left h)]
  | ofpatStripVlan => rfl
  | ofpatSetDlSrc => exact shownFields_dlAddr h
  | ofpatSetDlDst => exact shownFields_dlAddr h
  | ofpatSetNwSrc => rw [inetNtop_injective (List.append_cancel_left h)]
  | ofpatSetNwDst => rw [inetNtop_injective (List.append_cancel_left h)]
  | ofpatSetNwTos => rw [sharpHex_injective (List.append_cancel_left h)]
  | ofpatSetTpSrc => rw [decimal_injective (List.append_cancel_left h)]
  | ofpatSetTpDst => rw [decimal_injective (List.append_cancel_left h)]
  | ofpatEnqueue =>
    obtain ⟨hport,hqueue⟩ := eq_of_two h
    rw [hport,hqueue]
  | ofpatVendor => rw [sharpHex_injective (List.append_cancel_left h)]

theorem comma_notMem_dlAddr (actions : Bytes) (action : ℕ) (type : OfpActionType) :
    ',' ∉ actionDlAddrToString actions action type := by
  have hbyte := notMem_hexByte (c := ',') (by decide)
  unfold actionDlAddrToString
  simp only [List.mem_append,hbyte]
  split <;> decide

theorem comma_notMem_actionToString (actions : Bytes) (action : ℕ) : ',' ∉ actionToString actions action := by
  have hdecimal := notMem_decimal (c := ',') (by decide)
  have hhex := notMem_sharpHex (c := ',') (by decide)
  have haddr := notMem_inetNtop (c := ',') (by decide) (by decide)
  unfold actionToString
  split
  · exact List.not_mem_append (List.not_mem_append (List.not_mem_append (by decide) (hdecimal _)) (by decide)) (hdecimal _)
  · exact List.not_mem_append (by decide) (hhex _)
  · exact List.not_mem_append (by decide) (hhex _)
  · exact (by decide : ',' ∉ "strip_vlan".toList)
  · exact comma_notMem_dlAddr actions action _
  · exact comma_notMem_dlAddr actions action _
  · exact List.not_mem_append (by decide) (haddr _)
  · exact List.not_mem_append (by decide) (haddr _)
  · exact List.not_mem_append (by decide) (hhex _)
  · exact List.not_mem_append (by decide) (hdecimal _)
  · exact List.not_mem_append (by decide) (hdecimal _)
  · exact List.not_mem_append (List.not_mem_append (List.not_mem_append (by decide) (hdecimal _)) (by decide)) (hdecimal _)
  · exact List.not_mem_append (by decide) (hhex _)
  · exact List.not_mem_append (by decide) (hhex _)

end Read
section Row

/-- From `offset` on the lengths lead from action to action until less than a header is left. -/
inductive Laid (actions : Bytes) (stop : ℕ) : ℕ → List ℕ → Prop
  | finished {offset : ℕ} : offset ≤ stop → stop < offset+8 → Laid actions stop offset []
  | action {offset : ℕ} {offsets : List ℕ} : offset+8 ≤ stop →
      Laid actions stop (offset+actionLength actions offset) offsets → Laid actions stop offset (offset :: offsets)

def rowText (texts : List (List Char)) : List Char := ", ".toList.intercalate texts

/-- Before the loop, and after each turn that has printed its action to the end. -/
structure Written (strLength : UInt64) (s : Progress) (texts : List (List Char)) : Prop where
  sized : s.str.length = strLength.toNat
  spelled : Spells s.str (rowText texts)
  going : s.ret = .ccSuccess
  filled : ∀ text ∈ texts, text ≠ []

theorem rowText_eq_nil_iff {texts : List (List Char)} (hfilled : ∀ text ∈ texts, text ≠ []) :
    rowText texts = [] ↔ texts = [] := by
  constructor
  · intro h
    cases texts with
    | nil => rfl
    | cons text texts =>
      have htext := hfilled text List.mem_cons_self
      cases texts with
      | nil => exact absurd (by simpa [rowText] using h) htext
      | cons text' texts => simp [rowText] at h
  · rintro rfl
    rfl

/-- The separator in front of the next text. -/
def before (text : List Char) : List Char := if text = [] then [] else text++", ".toList

theorem rowText_concat {texts : List (List Char)} (hfilled : ∀ text ∈ texts, text ≠ []) (text : List Char) :
    rowText (texts++[text]) = before (rowText texts)++text := by
  rw [rowText,intercalate_concat,before]
  simp only [rowText_eq_nil_iff hfilled]
  rfl

variable {actions : Bytes} {actionsLength : UInt16} {strLength : UInt64} {s : Progress} {done : List (List Char)}

theorem appendSeparator_whole {str text : List Char} (hsize : str.length = strLength.toNat) (hs : Spells str text)
    (hspace : text ≠ [] → text.length+2 < strLength.toNat) :
    ∃ str' p remaining, appendSeparator strLength str = some (str',p,remaining) ∧ str'.length = strLength.toNat ∧
      Spells str' (before text) ∧ p.toNat = (before text).length ∧ remaining.toNat = strLength.toNat-(before text).length := by
  have hlt := hs.length_lt
  have hbound := strLength.toNat_lt
  rw [hsize] at hlt
  have hp : (UInt64.ofNat text.length).toNat = text.length := by
    rw [UInt64.toNat_ofNat',Nat.mod_eq_of_lt (by omega)]
  have hremaining : (strLength-UInt64.ofNat text.length).toNat = strLength.toNat-text.length := by
    rw [UInt64.toNat_sub_of_le _ _ (UInt64.le_iff_toNat_le.mpr (by omega)),hp]
  rw [appendSeparator,hs.strlen_eq]
  simp only [Option.bind_eq_bind,Option.bind_some,UInt64.lt_iff_toNat_lt,hp,hremaining]
  by_cases hempty : text = []
  · subst hempty
    exact ⟨str,_,_,if_neg (fun h => Nat.lt_irrefl 0 h.1),hsize,hs,rfl,hremaining⟩
  · have hpos := List.length_pos_of_ne_nil hempty
    replace hspace := hspace hempty
    obtain ⟨str',hrun,hsize',hs'⟩ := hs.snprintf_eq (by decide : nul ∉ ", ".toList)
    rw [hsize,List.take_of_length_le (by change 2 ≤ _; omega)] at hs'
    rw [hsize] at hrun hsize'
    have hlength : (text++", ".toList).length = text.length+2 := List.length_append
    rw [before,if_neg hempty,if_pos ⟨hpos,by change 2 < _; omega⟩,hrun]
    refine ⟨str',_,_,rfl,hsize',hs',?_,?_⟩
    · rw [hlength,UInt64.toNat_add,hp]
      exact Nat.mod_eq_of_lt (by change text.length+2 < 18446744073709551616; omega)
    · have htwo : (2 : UInt64).toNat = 2 := rfl
      rw [hlength,UInt64.toNat_sub_of_le _ _ (UInt64.le_iff_toNat_le.mpr (by rw [hremaining,htwo]; omega)),hremaining,htwo]
      omega

theorem Written.concat {s' : Progress} {text : List Char} (h : Written strLength s done) (hne : text ≠ [])
    (hsized : s'.str.length = strLength.toNat) (hspelled : Spells s'.str (before (rowText done)++text))
    (hgoing : s'.ret = .ccSuccess) : Written strLength s' (done++[text]) where
  sized := hsized
  spelled := by
    rw [rowText_concat h.filled]
    exact hspelled
  going := hgoing
  filled := by
    intro text' hmem
    rw [List.mem_append,List.mem_singleton] at hmem
    rcases hmem with hmem | rfl
    · exact h.filled text' hmem
    · exact hne

/-- A text for which there is space is printed whole behind the others. -/
theorem convertAction_whole (h : Written strLength s done) (hint : strLength.toNat < 2147483648)
    (hfits : (rowText (done++[actionToString actions s.offset.toNat])).length < strLength.toNat) :
    ∃ s', convertAction actions strLength s = some s' ∧ s'.offset = s.offset ∧
      Written strLength s' (done++[actionToString actions s.offset.toNat]) := by
  obtain ⟨hprintable,hne⟩ := printable_actionToString actions s.offset.toNat
  have hpos := List.length_pos_of_ne_nil hne
  rw [rowText_concat h.filled,List.length_append] at hfits
  obtain ⟨str,p,remaining,hsep,hsize,hspelled,hp,hremaining⟩ := appendSeparator_whole h.sized h.spelled (fun hempty => by
    have hlength : (rowText done++", ".toList).length = (rowText done).length+2 := List.length_append
    rw [before,if_neg hempty] at hfits
    omega)
  obtain ⟨str',hrun,hsize',hspelled'⟩ := hspelled.snprintf_eq hprintable
  rw [hsize] at hrun hsize'
  rw [hsize,List.take_of_length_le (by omega)] at hspelled'
  rw [convertAction,hsep]
  simp only [Option.bind_eq_bind,Option.bind_some,hp,hremaining,hrun]
  refine ⟨_,rfl,rfl,h.concat hne hsize' hspelled' ?_⟩
  dsimp only
  split
  · exact h.going
  · rw [Int.bmod_eq_of_le (by omega) (by omega),if_neg (by omega)]

theorem two_lt_length_actionToString (actions : Bytes) (action : ℕ) : 2 < (actionToString actions action).length := by
  have hname (kind : Option OfpActionType) : 2 < (kindName kind).length := by
    rcases kind with _ | kind
    · decide
    · cases kind <;> decide
  refine (hname (actionType actions action)).trans_le ?_
  rw [← takeWhile_actionToString]
  exact (List.takeWhile_prefix _).length_le

/-- One for which there is not ends the loop, if its kind is known. -/
theorem convertAction_cut (h : Written strLength s done) (hknown : actionType actions s.offset.toNat ≠ none)
    (hint : strLength.toNat < 2147483648)
    (hlong : strLength.toNat ≤ (rowText (done++[actionToString actions s.offset.toNat])).length) :
    ∃ s', convertAction actions strLength s = some s' ∧ s'.ret = .ccError := by
  obtain ⟨s',hrun,-,-,⟨herror,-⟩ | ⟨hon,-⟩⟩ := convertAction_spec actions ⟨h.sized,⟨_,h.spelled,rfl⟩,h.going⟩
  · exact ⟨s',hrun,herror⟩
  · rcases hon with hnone | hfits
    · exact absurd hnone hknown
    · exfalso
      have hlt := h.spelled.length_lt
      rw [h.sized] at hlt
      rw [rowText_concat h.filled,List.length_append] at hlong
      have htwo := two_lt_length_actionToString actions s.offset.toNat
      have hbefore : (before (rowText done)).length ≤ (rowText done).length+2 := by
        unfold before
        split
        · exact Nat.zero_le _
        · exact List.length_append.le
      unfold TextFits printedFrom at hfits
      dsimp only at hfits
      split at hfits
      · rw [Int.bmod_eq_of_le (by omega) (by omega)] at hfits
        omega
      · rename_i hnospace
        have hempty : rowText done = [] := by
          by_contra hempty
          have hpos := List.length_pos_of_ne_nil hempty
          rw [Int.bmod_eq_of_le (by omega) (by omega)] at hfits
          omega
        rw [Int.bmod_eq_of_le (by omega) (by omega)] at hfits
        rw [hempty] at hlong hfits
        exact absurd hfits (by simpa [before] using hlong)

theorem length_rowText_le (texts more : List (List Char)) : (rowText texts).length ≤ (rowText (texts++more)).length := by
  induction more generalizing texts with
  | nil => rw [List.append_nil]
  | cons text more ih =>
    rw [List.append_cons]
    refine le_trans ?_ (ih (texts++[text]))
    rw [rowText,rowText,intercalate_concat,List.length_append]
    split
    · rename_i hempty
      rw [hempty]
      exact Nat.zero_le _
    · rw [List.length_append]
      omega

/-- The texts of the actions at `offsets`, one behind the other. -/
def row (actions : Bytes) (offsets : List ℕ) : List Char := rowText (offsets.map (actionToString actions))

theorem enters (hfar : s.offset.toNat+8 ≤ actionsLength.toNat) : 8 ≤ actionsLength.toUInt64-s.offset :=
  (enters_iff (by omega)).mpr hfar

theorem actionsLoop_whole {offset : ℕ} {offsets : List ℕ} (hlaid : Laid actions actionsLength.toNat offset offsets)
    (hoffset : s.offset.toNat = offset) (h : Written strLength s done) (hint : strLength.toNat < 2147483648)
    (hfits : (rowText (done++offsets.map (actionToString actions))).length < strLength.toNat) :
    ∃ fuel s', actionsLoop actions actionsLength strLength fuel s = .ok s' ∧
      Written strLength s' (done++offsets.map (actionToString actions)) := by
  induction hlaid generalizing s done with
  | finished hle hnear =>
    refine ⟨1,s,?_,by simpa using h⟩
    rw [actionsLoop,if_neg (by rw [enters_iff (hoffset ▸ hle)]; omega)]
  | @action offset offsets hfar _ ih =>
    subst hoffset
    rw [List.map_cons,List.append_cons] at hfits ⊢
    obtain ⟨s',hturn,hkept,hwritten⟩ := convertAction_whole h hint ((length_rowText_le _ _).trans_lt hfits)
    obtain ⟨fuel,s'',hrun,hfinal⟩ := ih
      (s := { s' with offset := s.offset+UInt64.ofNat (actionLength actions s.offset.toNat) })
      (toNat_offset_add (show s.offset.toNat ≤ actionsLength.toNat by omega))
      ⟨hwritten.sized,hwritten.spelled,hwritten.going,hwritten.filled⟩ hfits
    refine ⟨fuel+1,s'',?_,hfinal⟩
    rw [actionsLoop,if_pos (enters hfar),hturn]
    dsimp only
    rw [if_neg (by rw [hwritten.going]; decide),hkept]
    exact hrun

theorem actionsLoop_cut {offset : ℕ} {offsets : List ℕ} (hlaid : Laid actions actionsLength.toNat offset offsets)
    (hknown : ∀ action ∈ offsets, actionType actions action ≠ none)
    (hoffset : s.offset.toNat = offset) (h : Written strLength s done) (hint : strLength.toNat < 2147483648)
    (hlong : strLength.toNat ≤ (rowText (done++offsets.map (actionToString actions))).length) :
    ∃ fuel s', actionsLoop actions actionsLength strLength fuel s = .ok s' ∧ s'.ret = .ccError := by
  induction hlaid generalizing s done with
  | finished =>
    have hlt := h.spelled.length_lt
    rw [h.sized] at hlt
    rw [List.map_nil,List.append_nil] at hlong
    omega
  | @action offset offsets hfar _ ih =>
    subst hoffset
    rw [List.forall_mem_cons] at hknown
    rw [List.map_cons,List.append_cons] at hlong
    rcases Nat.lt_or_ge (rowText (done++[actionToString actions s.offset.toNat])).length strLength.toNat with hfits | hcut
    · obtain ⟨s',hturn,hkept,hwritten⟩ := convertAction_whole h hint hfits
      obtain ⟨fuel,s'',hrun,herror⟩ := ih
        (s := { s' with offset := s.offset+UInt64.ofNat (actionLength actions s.offset.toNat) })
        hknown.2 (toNat_offset_add (show s.offset.toNat ≤ actionsLength.toNat by omega))
        ⟨hwritten.sized,hwritten.spelled,hwritten.going,hwritten.filled⟩ hlong
      refine ⟨fuel+1,s'',?_,herror⟩
      rw [actionsLoop,if_pos (enters hfar),hturn]
      dsimp only
      rw [if_neg (by rw [hwritten.going]; decide),hkept]
      exact hrun
    · obtain ⟨s',hturn,herror⟩ := convertAction_cut h hknown.1 hint hcut
      refine ⟨1,s',?_,herror⟩
      rw [actionsLoop,if_pos (enters hfar),hturn]
      exact if_pos herror

end Row

section Told
variable {actions actions' : Bytes} {offsets offsets' : List ℕ}

theorem shown_of_row (h : row actions offsets = row actions' offsets') :
    offsets.map (shownAction actions) = offsets'.map (shownAction actions') := by
  have hpieces (actions : Bytes) (offsets : List ℕ) :
      ∀ piece ∈ offsets.map (actionToString actions), piece ≠ [] ∧ ',' ∉ piece := by
    intro piece hmem
    obtain ⟨action,-,rfl⟩ := List.mem_map.mp hmem
    exact ⟨(printable_actionToString actions action).2,comma_notMem_actionToString actions action⟩
  have htexts := intercalate_inj [' '] (hpieces actions offsets) (hpieces actions' offsets') h
  induction offsets generalizing offsets' with
  | nil =>
    cases offsets' with
    | nil => rfl
    | cons => cases htexts
  | cons action offsets ih =>
    cases offsets' with
    | nil => cases htexts
    | cons action' offsets' =>
      obtain ⟨hfirst,hrest⟩ := List.cons.inj htexts
      rw [List.map_cons,List.map_cons,shownAction_of_text hfirst,ih (congrArg _ hrest) hrest]

/-- Setting the last byte of `str` takes nothing away. -/
theorem poke_last_spells {strLength : UInt64} (hpos : 0 < strLength) {str text : List Char}
    (hsize : str.length = strLength.toNat) (hs : Spells str text) :
    ∃ str', poke str (strLength-1).toNat nul = some str' ∧ Spells str' text := by
  have hlt := hs.length_lt
  have hone : 1 ≤ strLength := UInt64.le_iff_toNat_le.mpr (Nat.succ_le_of_lt (UInt64.lt_iff_toNat_lt.mp hpos))
  have hlast : (strLength-1).toNat = str.length-1 := by
    rw [UInt64.toNat_sub_of_le _ _ hone,hsize]
    rfl
  refine ⟨_,if_pos (by omega),hs.1,?_⟩
  obtain ⟨-,rest,rfl⟩ := hs
  rw [List.set_append_right _ _ (by omega)]
  cases (strLength-1).toNat-text.length with
  | zero => exact ⟨rest,rfl⟩
  | succ k => exact ⟨rest.set k nul,rfl⟩

/-- Actions whose lengths lead through them are printed in one row if it fits, and end with an
error if it does not. The row tells their kinds and the fields shown. -/
theorem actionsToString_told (actions : Bytes) (actionsLength : UInt16) {strLength : UInt64} (hpos : 0 < strLength)
    (hint : strLength.toNat < 2147483648) {offsets : List ℕ} (hlaid : Laid actions actionsLength.toNat 0 offsets) :
    ((row actions offsets).length < strLength.toNat → ∃ fuel str inspected,
      actionsToString actions actionsLength strLength fuel = .ok (.ccSuccess,str,inspected) ∧
        Spells str (row actions offsets)) ∧
    (strLength.toNat ≤ (row actions offsets).length → (∀ action ∈ offsets, actionType actions action ≠ none) →
      ∃ fuel str inspected, actionsToString actions actionsLength strLength fuel = .ok (.ccError,str,inspected)) ∧
    ∀ actions' offsets', row actions' offsets' = row actions offsets →
      offsets'.map (shownAction actions') = offsets.map (shownAction actions) := by
  have hstart : Written strLength ⟨.ccSuccess,0,List.replicate strLength.toNat nul,[]⟩ [] :=
    ⟨List.length_replicate,spells_replicate (UInt64.lt_iff_toNat_lt.mp hpos),rfl,List.forall_mem_nil _⟩
  refine ⟨fun hfits => ?_,fun hlong hknown => ?_,fun actions' offsets' => shown_of_row⟩
  · obtain ⟨fuel,s,hrun,hwritten⟩ := actionsLoop_whole hlaid rfl hstart hint hfits
    obtain ⟨str,hpoke,hspells⟩ := poke_last_spells hpos hwritten.sized hwritten.spelled
    refine ⟨fuel,str,s.inspected,?_,hspells⟩
    rw [actionsToString,hrun]
    simp only [bind,Except.bind,hpoke,hwritten.going]
    rfl
  · obtain ⟨fuel,s,hrun,herror⟩ := actionsLoop_cut hlaid hknown rfl hstart hint hlong
    rcases actionsToString_cases actions actionsLength hpos fuel with ⟨hstarved,-⟩ | ⟨s',str,hrun',hret⟩
    · rw [hstarved] at hrun
      cases hrun
    · rw [hrun'] at hrun
      cases hrun
      exact ⟨fuel,str,s.inspected,by rw [hret,herror]⟩

/-- To port 1, 65535 bytes of it, and the VLAN header off. -/
def outputThenStrip : Bytes := fun o => [0,0,8,0,1,0,255,255,3,0,8,0,0,0,0,0].getD o 0

theorem actionsToString_told_outputThenStrip :
    Laid outputThenStrip 16 0 [0,8] ∧ String.ofList (row outputThenStrip [0,8]) = "output: port=1 max_len=65535, strip_vlan" ∧
    ∃ fuel str inspected, actionsToString outputThenStrip 16 64 fuel = .ok (.ccSuccess,str,inspected) ∧
      Spells str (row outputThenStrip [0,8]) := by
  have hlaid : Laid outputThenStrip 16 0 [0,8] :=
    .action (by decide) (.action (by decide) (.finished (by decide) (by decide)))
  refine ⟨hlaid,by decide,?_⟩
  exact (actionsToString_told outputThenStrip 16 (by decide) (by decide) hlaid).1 (by decide)

end Told
end OpenFlowController.Utility
