import Mathlib.Data.Nat.Bitwise
import OpenFlowController.Utility.ActionsTold

/-! # Wildcards as text

Names are appended one by one and followed by a bar each. A name for which there is no
space is left out. `CC_SUCCESS` and `CC_ERROR` stand for whatever numbers they are.
-/
namespace OpenFlowController.Utility
open Protocol BoundedString Texts

section Flags

def ofpfwInPort : ℕ := 1<<<0
def ofpfwDlVlan : ℕ := 1<<<1
def ofpfwDlSrc : ℕ := 1<<<2
def ofpfwDlDst : ℕ := 1<<<3
def ofpfwDlType : ℕ := 1<<<4
def ofpfwNwProto : ℕ := 1<<<5
def ofpfwTpSrc : ℕ := 1<<<6
def ofpfwTpDst : ℕ := 1<<<7
def ofpfwNwSrcShift : ℕ := 8
def ofpfwNwSrcMask : ℕ := 63<<<ofpfwNwSrcShift
def ofpfwNwDstShift : ℕ := 14
def ofpfwNwDstMask : ℕ := 63<<<ofpfwNwDstShift
def ofpfwDlVlanPcp : ℕ := 1<<<20
def ofpfwNwTos : ℕ := 1<<<21

/-- `OFPFW_ALL & ~OFPFW_NW_SRC_MASK & ~OFPFW_NW_DST_MASK` -/
def ofpfwFields : ℕ := ofpfwAll-ofpfwNwSrcMask-ofpfwNwDstMask

def leadingFlags : List (ℕ × String) :=
  [(ofpfwInPort,"in_port"),(ofpfwDlSrc,"dl_src"),(ofpfwDlDst,"dl_dst"),(ofpfwDlType,"dl_type"),
    (ofpfwDlVlan,"dl_vlan"),(ofpfwDlVlanPcp,"dl_vlan_pcp"),(ofpfwNwProto,"nw_proto"),(ofpfwNwTos,"nw_tos")]

def trailingFlags : List (ℕ × String) := [(ofpfwTpSrc,"tp_src"),(ofpfwTpDst,"tp_dst")]

end Flags

section Names
variable (wildcards : ℕ)

def nwSrcMask : ℕ := (wildcards&&&ofpfwNwSrcMask)>>>ofpfwNwSrcShift

def nwDstMask : ℕ := (wildcards&&&ofpfwNwDstMask)>>>ofpfwNwDstShift

def Everything : Prop :=
  wildcards&&&ofpfwFields = ofpfwFields ∧ 32 ≤ nwSrcMask wildcards ∧ 32 ≤ nwDstMask wildcards

instance : Decidable (Everything wildcards) := inferInstanceAs (Decidable (_ ∧ _))

def flagNames (flags : List (ℕ × String)) : List (List Char) :=
  (flags.filter fun flag => wildcards&&&flag.1 ≠ 0).map fun flag => flag.2.toList

def maskName (name : String) (mask : ℕ) : List (List Char) :=
  if 0 < mask then [name.toList++ '(' :: (decimal mask++[')'])] else []

/-- Without the bars. The name of a mask of six bits fits into `mask_str`. -/
def wildcardNames : List (List Char) :=
  flagNames wildcards leadingFlags++(maskName "nw_src" (nwSrcMask wildcards)++
    (maskName "nw_dst" (nwDstMask wildcards)++flagNames wildcards trailingFlags))

end Names

section Append
variable (ccSuccess ccError : UInt32)

/-- `strncpy` with room for the NUL. -/
def strncpy (buf : List Char) (o : ℕ) (string : List Char) : Option (List Char) :=
  snprintf buf o (string.length+1) string

def appendString (buf : List Char) (length : ℕ) (string : List Char) : Option (UInt32 × List Char) := do
  let currentLength ← strlen buf
  if length < currentLength+string.length+1 then return (ccError,buf)
  return (ccSuccess,← strncpy buf currentLength string)

def appendNames (size : ℕ) : List (List Char) → UInt32 × List Char → Option (UInt32 × List Char)
  | [], s => some s
  | name :: names, (ret,str) => do
    let (code,str) ← appendString ccSuccess ccError str size (name++['|'])
    appendNames size names (ret&&&code,str)

def wildcardsToString (wildcards size : ℕ) : Option (UInt32 × List Char) := do
  let str := List.replicate size nul
  if wildcards&&&ofpfwAll = 0 then
    let (code,str) ← appendString ccSuccess ccError str size "none".toList
    return (ccSuccess&&&code,str)
  if Everything wildcards then
    let (code,str) ← appendString ccSuccess ccError str size "all".toList
    return (ccSuccess&&&code,str)
  let (ret,str) ← appendNames ccSuccess ccError size (wildcardNames wildcards) (ccSuccess,str)
  let length ← strlen str
  if 0 < length then return (ret,← poke str (length-1) nul)
  return (ret,str)

end Append

/-- The text as a whole. -/
def wildcardsText (wildcards : ℕ) : List Char :=
  if wildcards&&&ofpfwAll = 0 then "none".toList
  else if Everything wildcards then "all".toList
  else ['|'].intercalate (wildcardNames wildcards)

/-- What is printed in place of a list of names counts as one. -/
def wildcardWords (wildcards : ℕ) : List (List Char) :=
  if wildcards&&&ofpfwAll = 0 then ["none".toList]
  else if Everything wildcards then ["all".toList]
  else wildcardNames wildcards

/-- The words for which there is space behind `used` characters, with a NUL to come. `stop` is the
length of what follows a word. -/
def fitting (stop size : ℕ) : ℕ → List (List Char) → List (List Char)
  | _, [] => []
  | used, word :: words =>
    if used+word.length+stop < size then word :: fitting stop size (used+word.length+stop) words
    else fitting stop size used words

/-- The words of which there are traces in a string of `size` bytes. Only names have bars. -/
def printedWords (wildcards size : ℕ) : List (List Char) :=
  if wildcards&&&ofpfwAll = 0 ∨ Everything wildcards then fitting 0 size 0 (wildcardWords wildcards)
  else fitting 1 size 0 (wildcardWords wildcards)

example : ofpfwFields = ofpfwAll&&&(0xffffffff^^^ofpfwNwSrcMask)&&&(0xffffffff^^^ofpfwNwDstMask) := by decide

example : String.ofList (wildcardsText 0x200085) = "in_port|dl_src|nw_tos|tp_dst" := by decide

/-- A name for which there is space is printed behind one for which there was none. -/
example : printedWords 0x300001 16 = ["in_port".toList,"nw_tos".toList] ∧
    wildcardWords 0x300001 = ["in_port".toList,"dl_vlan_pcp".toList,"nw_tos".toList] := by decide

section Spelled
variable {str text name : List Char}

theorem strncpy_eq (hs : Spells str text) (hname : nul ∉ name) (hfits : text.length+name.length < str.length) :
    ∃ str', strncpy str text.length name = some str' ∧ str'.length = str.length ∧ Spells str' (text++name) := by
  obtain ⟨str',hrun,hlength,hspells⟩ := hs.snprintf_eq hname
  have hwhole : name.take (str.length-text.length-1) = name := List.take_of_length_le (by omega)
  rw [hwhole] at hspells
  rw [snprintf,if_neg (by omega),hwhole] at hrun
  refine ⟨str',?_,hlength,hspells⟩
  rw [strncpy,snprintf,if_neg (Nat.succ_ne_zero _),Nat.add_sub_cancel,List.take_length]
  exact hrun

/-- What does not fit is refused, and so nothing is ever written behind the end. -/
theorem appendString_spec (ccSuccess ccError : UInt32) (hs : Spells str text) (hname : nul ∉ name) :
    ∃ code str', appendString ccSuccess ccError str str.length name = some (code,str') ∧ str'.length = str.length ∧
      (text.length+name.length < str.length ∧ code = ccSuccess ∧ Spells str' (text++name) ∨
        str.length ≤ text.length+name.length ∧ code = ccError ∧ str' = str) := by
  rw [appendString,hs.strlen_eq]
  simp only [Option.bind_eq_bind,Option.bind_some]
  rcases Nat.lt_or_ge (text.length+name.length) str.length with hfits | hlong
  · obtain ⟨str',hrun,hlength,hspells⟩ := strncpy_eq hs hname hfits
    rw [if_neg (by omega),hrun]
    exact ⟨_,str',rfl,hlength,.inl ⟨hfits,rfl,hspells⟩⟩
  · rw [if_pos (by omega)]
    exact ⟨_,str,rfl,rfl,.inr ⟨hlong,rfl,rfl⟩⟩

theorem fitting_sublist (stop size used : ℕ) (words : List (List Char)) : (fitting stop size used words).Sublist words := by
  induction words generalizing used with
  | nil => exact List.Sublist.slnil
  | cons word words ih =>
    rw [fitting]
    split
    · exact (ih _).cons_cons word
    · exact (ih used).cons word

/-- What was left out is missing in the end. -/
theorem fitting_ne_cons (stop size used : ℕ) (word : List Char) (words : List (List Char)) :
    fitting stop size used words ≠ word :: words := by
  intro heq
  have hlength := (fitting_sublist stop size used words).length_le
  rw [heq,List.length_cons] at hlength
  omega

theorem fitting_eq_self {size used : ℕ} {names : List (List Char)} (h : used+(ended '|' [] names).length < size) :
    fitting 1 size used names = names := by
  induction names generalizing used with
  | nil => rfl
  | cons name names ih =>
    rw [ended_cons] at h
    simp only [List.length_append,List.length_cons,List.nil_append] at h
    rw [fitting,if_pos (by omega),ih (by omega)]

/-- The names for which there is space are appended, and `ret` is an error once one is missing. -/
theorem appendNames_spec (ccSuccess ccError : UInt32) {names : List (List Char)} (hnames : ∀ name ∈ names, nul ∉ name)
    {ret : UInt32} (hret : ret&&&ccSuccess = ret) (hs : Spells str text) :
    ∃ str', appendNames ccSuccess ccError str.length names (ret,str) =
        some (if fitting 1 str.length text.length names = names then ret else ret&&&ccError,str') ∧
      str'.length = str.length ∧ Spells str' (text++ended '|' [] (fitting 1 str.length text.length names)) := by
  induction names generalizing ret str text with
  | nil => exact ⟨str,rfl,rfl,by simpa [fitting] using hs⟩
  | cons name names ih =>
    rw [List.forall_mem_cons] at hnames
    have hbar : (name++['|']).length = name.length+1 := List.length_append
    obtain ⟨code,str',hrun,hlength,hres⟩ := appendString_spec ccSuccess ccError hs
      (List.not_mem_append hnames.1 (by decide : nul ∉ ['|']))
    rw [appendNames,hrun]
    simp only [Option.bind_eq_bind,Option.bind_some]
    rcases hres with ⟨hfits,rfl,hs'⟩ | ⟨hlong,rfl,rfl⟩
    · have hprinted : fitting 1 str.length text.length (name :: names) =
          name :: fitting 1 str.length (text.length+name.length+1) names := if_pos (by omega)
      obtain ⟨str'',hrest,hlength',hs''⟩ := ih hnames.2 hret hs'
      rw [List.length_append,hbar,← Nat.add_assoc,hlength] at hrest hs''
      refine ⟨str'',?_,hlength'.trans hlength,?_⟩
      · simp only [hret,hrest,hprinted,List.cons.injEq,true_and]
      · rw [hprinted]
        simpa using hs''
    · have hmissing : fitting 1 str'.length text.length (name :: names) = fitting 1 str'.length text.length names :=
        if_neg (by omega)
      rw [hmissing,if_neg (fitting_ne_cons 1 str'.length text.length name names)]
      have herror : (ret&&&code)&&&ccSuccess = ret&&&code := by
        rw [UInt32.and_assoc,UInt32.and_comm code,← UInt32.and_assoc,hret]
      obtain ⟨str'',hrest,hlength',hs''⟩ := ih hnames.2 herror hs
      refine ⟨str'',?_,hlength',hs''⟩
      rw [hrest,UInt32.and_assoc,UInt32.and_self,ite_self]

theorem poke_end (hs : Spells str text) (hne : text ≠ []) :
    ∃ str', poke str (text.length-1) nul = some str' ∧ str'.length = str.length ∧ Spells str' text.dropLast := by
  have hlt := hs.length_lt
  obtain ⟨hnul,rest,rfl⟩ := hs
  refine ⟨_,if_pos (by omega),List.length_set,fun hmem => hnul (List.dropLast_subset _ hmem),nul :: rest,?_⟩
  obtain ⟨front,last,rfl⟩ := (List.eq_nil_or_concat text).resolve_left hne
  simp

end Spelled
section Names

theorem nwSrcMask_lt (wildcards : ℕ) : nwSrcMask wildcards < 64 := by
  have hmask : wildcards&&&ofpfwNwSrcMask ≤ 63*256 := Nat.and_le_right
  rw [nwSrcMask,Nat.shiftRight_eq_div_pow]
  exact Nat.div_lt_of_lt_mul (hmask.trans_lt (by decide))

theorem nwDstMask_lt (wildcards : ℕ) : nwDstMask wildcards < 64 := by
  have hmask : wildcards&&&ofpfwNwDstMask ≤ 63*16384 := Nat.and_le_right
  rw [nwDstMask,Nat.shiftRight_eq_div_pow]
  exact Nat.div_lt_of_lt_mul (hmask.trans_lt (by decide))

/-- A name that neither a bar nor the end of a string is part of. -/
def Plain (name : List Char) : Prop := name ≠ [] ∧ '|' ∉ name ∧ nul ∉ name

instance (name : List Char) : Decidable (Plain name) := inferInstanceAs (Decidable (_ ∧ _))

theorem plain_of_mem_flagNames {wildcards : ℕ} {flags : List (ℕ × String)} (hflags : ∀ flag ∈ flags, Plain flag.2.toList)
    {name : List Char} (h : name ∈ flagNames wildcards flags) : Plain name := by
  obtain ⟨flag,hmem,rfl⟩ := List.mem_map.mp h
  exact hflags flag (List.mem_of_mem_filter hmem)

theorem mem_maskName {name : List Char} {of : String} {mask : ℕ} :
    name ∈ maskName of mask ↔ 0 < mask ∧ name = of.toList++ '(' :: (decimal mask++[')']) := by
  unfold maskName
  split
  · rename_i hpos
    rw [List.mem_singleton]
    exact ⟨fun h => ⟨hpos,h⟩,And.right⟩
  · rename_i hzero
    exact ⟨fun h => absurd h List.not_mem_nil,fun h => absurd h.1 hzero⟩

theorem plain_of_mem_maskName {of : String} {mask : ℕ} (hof : Plain of.toList) {name : List Char}
    (h : name ∈ maskName of mask) : Plain name := by
  obtain ⟨-,rfl⟩ := mem_maskName.mp h
  have hbar := notMem_decimal (c := '|') (by decide) mask
  have hnul := nul_notMem_decimal mask
  refine ⟨List.append_ne_nil_of_left_ne_nil hof.1 _,?_,?_⟩
  · simp [hof.2.1,hbar]
  · simp only [List.mem_append,List.mem_cons,hof.2.2,hnul]
    decide

theorem plain_of_mem_wildcardNames {wildcards : ℕ} {name : List Char} (h : name ∈ wildcardNames wildcards) :
    Plain name := by
  unfold wildcardNames at h
  simp only [List.mem_append] at h
  rcases h with h | h | h | h
  · exact plain_of_mem_flagNames (by decide) h
  · exact plain_of_mem_maskName (by decide) h
  · exact plain_of_mem_maskName (by decide) h
  · exact plain_of_mem_flagNames (by decide) h

theorem length_flagNames_le (wildcards : ℕ) (flags : List (ℕ × String)) :
    (ended '|' [] (flagNames wildcards flags)).length ≤ (flags.map fun flag => flag.2.toList.length+1).sum := by
  induction flags with
  | nil => exact Nat.le_refl 0
  | cons flag flags ih =>
    rw [flagNames] at ih ⊢
    rw [List.filter_cons]
    split
    · simp only [List.map_cons,ended_cons,List.nil_append,List.length_append,List.length_cons,List.sum_cons]
      omega
    · simp only [List.map_cons,List.sum_cons]
      omega

theorem length_maskName_le (of : String) {mask : ℕ} (hmask : mask < 64) :
    (ended '|' [] (maskName of mask)).length ≤ of.toList.length+5 := by
  have hdigits : (decimal mask).length ≤ 2 := (Nat.length_toDigits_le_iff (by decide) (by decide)).mpr (by omega)
  unfold maskName
  split
  · simp only [ended_cons,ended_nil,List.length_append,List.length_cons,List.length_nil]
    omega
  · exact Nat.zero_le _

theorem length_wildcardNames_le (wildcards : ℕ) : (ended '|' [] (wildcardNames wildcards)).length ≤ 102 := by
  have hleading := length_flagNames_le wildcards leadingFlags
  have htrailing := length_flagNames_le wildcards trailingFlags
  have hsrc := length_maskName_le "nw_src" (nwSrcMask_lt wildcards)
  have hdst := length_maskName_le "nw_dst" (nwDstMask_lt wildcards)
  have hleading' : (leadingFlags.map fun flag => flag.2.toList.length+1).sum = 66 := by decide
  have htrailing' : (trailingFlags.map fun flag => flag.2.toList.length+1).sum = 14 := by decide
  have hnw : "nw_src".toList.length = 6 ∧ "nw_dst".toList.length = 6 := by decide
  rw [wildcardNames]
  simp only [ended_append,List.length_append]
  omega

end Names

theorem wildcardsText_eq (wildcards : ℕ) : wildcardsText wildcards = ['|'].intercalate (wildcardWords wildcards) := by
  unfold wildcardsText wildcardWords
  split
  · exact List.intercalate_singleton.symm
  · split
    · exact List.intercalate_singleton.symm
    · rfl

/-- A word that stands for all names. -/
theorem appendWord_spec (ccSuccess ccError : UInt32) {word : List Char} (hnul : nul ∉ word) {size : ℕ} (hsize : 0 < size) :
    ∃ code str, appendString ccSuccess ccError (List.replicate size nul) size word = some (code,str) ∧
      ccSuccess&&&code = (if fitting 0 size 0 [word] = [word] then ccSuccess else ccSuccess&&&ccError) ∧
      str.length = size ∧ Spells str (['|'].intercalate (fitting 0 size 0 [word])) := by
  have hlength : (List.replicate size nul).length = size := List.length_replicate
  obtain ⟨code,str,hrun,hkept,hres⟩ := appendString_spec ccSuccess ccError (spells_replicate hsize) hnul
  rw [hlength,List.length_nil] at hres
  rw [hlength] at hrun hkept
  refine ⟨code,str,hrun,?_⟩
  rcases hres with ⟨hfits,rfl,hspells⟩ | ⟨hlong,rfl,rfl⟩
  · have hwhole : fitting 0 size 0 [word] = [word] := if_pos (by omega)
    rw [hwhole,if_pos rfl,List.intercalate_singleton]
    exact ⟨UInt32.and_self,hkept,hspells⟩
  · have hempty : fitting 0 size 0 [word] = [] := if_neg (by omega)
    rw [hempty,if_neg (List.cons_ne_nil _ _).symm]
    exact ⟨rfl,hlength,spells_replicate hsize⟩

/-- The words for which there is space are printed, with a bar between two of them. -/
theorem wildcardsToString_printed (ccSuccess ccError : UInt32) (wildcards : ℕ) {size : ℕ} (hsize : 0 < size) :
    ∃ str, wildcardsToString ccSuccess ccError wildcards size =
        some (if printedWords wildcards size = wildcardWords wildcards then ccSuccess else ccSuccess&&&ccError,str) ∧
      str.length = size ∧ Spells str (['|'].intercalate (printedWords wildcards size)) := by
  have hlength : (List.replicate size nul).length = size := List.length_replicate
  unfold wildcardsToString printedWords wildcardWords
  simp only [Option.bind_eq_bind,Option.pure_def]
  split
  · rename_i hzero
    rw [if_pos (Or.inl hzero)]
    obtain ⟨code,str,hrun,hcode,hkept,hspells⟩ := appendWord_spec ccSuccess ccError (by decide : nul ∉ "none".toList) hsize
    rw [hrun,Option.bind_some,hcode]
    exact ⟨str,rfl,hkept,hspells⟩
  rename_i hsome
  split
  · rename_i heverything
    rw [if_pos (Or.inr heverything)]
    obtain ⟨code,str,hrun,hcode,hkept,hspells⟩ := appendWord_spec ccSuccess ccError (by decide : nul ∉ "all".toList) hsize
    rw [hrun,Option.bind_some,hcode]
    exact ⟨str,rfl,hkept,hspells⟩
  rename_i hnames
  rw [if_neg (not_or.mpr ⟨hsome,hnames⟩)]
  obtain ⟨str,hrun,hkept,hspells⟩ := appendNames_spec ccSuccess ccError
    (fun name hmem => (plain_of_mem_wildcardNames hmem).2.2) UInt32.and_self (spells_replicate hsize)
  rw [hlength,List.length_nil] at hrun hspells
  rw [hlength] at hkept
  rw [List.nil_append] at hspells
  rw [hrun]
  simp only [Option.bind_some,hspells.strlen_eq]
  -- the last bar is overwritten, if there is one
  by_cases hempty : fitting 1 size 0 (wildcardNames wildcards) = []
  · rw [hempty] at hspells ⊢
    exact ⟨str,if_neg (Nat.lt_irrefl 0),hkept,hspells⟩
  · have hended := intercalate_append_ended (c := '|') [] hempty
    obtain ⟨str',hpoke,hkept',hspells'⟩ := poke_end hspells (hended ▸ List.append_ne_nil_of_right_ne_nil _ (List.cons_ne_nil _ _))
    rw [← hended,List.dropLast_concat] at hspells'
    refine ⟨str',?_,hkept'.trans hkept,hspells'⟩
    rw [if_pos (by rw [← hended,List.length_append]; exact Nat.succ_pos _),hpoke]
    rfl

/-- Where there is space for the longest nothing is left out. -/
theorem printedWords_eq_self (wildcards : ℕ) {size : ℕ} (hspace : 103 ≤ size) :
    printedWords wildcards size = wildcardWords wildcards := by
  have hfits := length_wildcardNames_le wildcards
  have hword {word : List Char} (hshort : word.length ≤ 4) : fitting 0 size 0 [word] = [word] := if_pos (by omega)
  unfold printedWords wildcardWords
  by_cases hzero : wildcards&&&ofpfwAll = 0
  · simp only [hzero,true_or,if_true]
    exact hword (by decide)
  by_cases heverything : Everything wildcards
  · simp only [hzero,heverything,or_true,if_true,if_false]
    exact hword (by decide)
  · simp only [hzero,heverything,or_self,if_false]
    exact fitting_eq_self (by omega)

theorem wildcardsToString_spec (ccSuccess ccError : UInt32) (wildcards : ℕ) {size : ℕ} (hspace : 103 ≤ size) :
    ∃ str, wildcardsToString ccSuccess ccError wildcards size = some (ccSuccess,str) ∧ str.length = size ∧
      Spells str (wildcardsText wildcards) := by
  obtain ⟨str,hrun,hkept,hspells⟩ := wildcardsToString_printed ccSuccess ccError wildcards (show 0 < size by omega)
  rw [printedWords_eq_self wildcards hspace] at hrun hspells
  rw [if_pos rfl] at hrun
  exact ⟨str,hrun,hkept,wildcardsText_eq wildcards ▸ hspells⟩

section Told
variable {wildcards wildcards' : ℕ}

theorem mem_wildcardNames_flag (wildcards : ℕ) {flag : ℕ × String} (hflag : flag ∈ leadingFlags++trailingFlags) :
    flag.2.toList ∈ wildcardNames wildcards ↔ wildcards&&&flag.1 ≠ 0 := by
  have hdistinct : ∀ flag ∈ leadingFlags++trailingFlags, ∀ flag' ∈ leadingFlags++trailingFlags,
      flag.2.toList = flag'.2.toList → flag = flag' := by decide
  have hbracket : ∀ flag ∈ leadingFlags++trailingFlags, '(' ∉ flag.2.toList := by decide
  have hmask (of : String) (mask : ℕ) : flag.2.toList ∉ maskName of mask := by
    intro hmem
    apply hbracket flag hflag
    rw [(mem_maskName.mp hmem).2]
    simp
  have hflags {flags : List (ℕ × String)} (hsub : flags ⊆ leadingFlags++trailingFlags) :
      flag.2.toList ∈ flagNames wildcards flags ↔ flag ∈ flags ∧ wildcards&&&flag.1 ≠ 0 := by
    simp only [flagNames,List.mem_map,List.mem_filter,decide_eq_true_eq]
    constructor
    · rintro ⟨flag',⟨hmem,hset⟩,hname⟩
      rw [← hdistinct flag' (hsub hmem) flag hflag hname]
      exact ⟨hmem,hset⟩
    · exact fun ⟨hmem,hset⟩ => ⟨flag,⟨hmem,hset⟩,rfl⟩
  rw [wildcardNames]
  simp only [List.mem_append,hmask,false_or,hflags (List.subset_append_left _ _),
    hflags (List.subset_append_right leadingFlags trailingFlags)]
  rw [← or_and_right,and_iff_right (List.mem_append.mp hflag)]

theorem mem_maskName_iff (of of' : String) {mask mask' : ℕ} (hof : '(' ∉ of.toList) (hof' : '(' ∉ of'.toList) :
    of.toList++ '(' :: (decimal mask++[')']) ∈ maskName of' mask' ↔ 0 < mask' ∧ of.toList = of'.toList ∧ mask = mask' := by
  rw [mem_maskName]
  refine and_congr_right fun _ => ⟨fun h => ?_,fun ⟨hname,hmask⟩ => by rw [hname,hmask]⟩
  obtain ⟨hname,hrest⟩ := eq_of_stop hof hof' h
  exact ⟨hname,decimal_injective (List.append_cancel_right hrest)⟩

theorem masked_notMem_flagNames (wildcards : ℕ) (of : String) (mask : ℕ) {flags : List (ℕ × String)}
    (hflags : ∀ flag ∈ flags, '(' ∉ flag.2.toList) :
    of.toList++ '(' :: (decimal mask++[')']) ∉ flagNames wildcards flags := by
  intro hmem
  obtain ⟨flag,hmem,heq⟩ := List.mem_map.mp hmem
  apply hflags flag (List.mem_of_mem_filter hmem)
  rw [heq]
  simp

/-- A mask is among the names as a number, unless it is zero. -/
theorem mem_wildcardNames_mask (wildcards mask : ℕ) :
    ("nw_src".toList++ '(' :: (decimal mask++[')']) ∈ wildcardNames wildcards ↔
      0 < nwSrcMask wildcards ∧ mask = nwSrcMask wildcards) ∧
    ("nw_dst".toList++ '(' :: (decimal mask++[')']) ∈ wildcardNames wildcards ↔
      0 < nwDstMask wildcards ∧ mask = nwDstMask wildcards) := by
  have hleading (of : String) := masked_notMem_flagNames wildcards of mask
    (by decide : ∀ flag ∈ leadingFlags, '(' ∉ flag.2.toList)
  have htrailing (of : String) := masked_notMem_flagNames wildcards of mask
    (by decide : ∀ flag ∈ trailingFlags, '(' ∉ flag.2.toList)
  have hother : "nw_src".toList ≠ "nw_dst".toList := by decide
  rw [wildcardNames]
  simp only [List.mem_append,hleading,htrailing,false_or,or_false]
  rw [mem_maskName_iff "nw_src" "nw_src" (by decide) (by decide),mem_maskName_iff "nw_src" "nw_dst" (by decide) (by decide),
    mem_maskName_iff "nw_dst" "nw_src" (by decide) (by decide),mem_maskName_iff "nw_dst" "nw_dst" (by decide) (by decide)]
  simp only [hother,hother.symm,true_and,false_and,and_false,or_false,false_or]

theorem underscore_mem_of_mem_wildcardNames {name : List Char} (h : name ∈ wildcardNames wildcards) : '_' ∈ name := by
  have hflags {flags : List (ℕ × String)} (hall : ∀ flag ∈ flags, '_' ∈ flag.2.toList)
      (h : name ∈ flagNames wildcards flags) : '_' ∈ name := by
    obtain ⟨flag,hmem,rfl⟩ := List.mem_map.mp h
    exact hall flag (List.mem_of_mem_filter hmem)
  rw [wildcardNames] at h
  simp only [List.mem_append] at h
  rcases h with h | h | h | h
  · exact hflags (by decide) h
  · rw [(mem_maskName.mp h).2]
    exact List.mem_append_left _ (by decide)
  · rw [(mem_maskName.mp h).2]
    exact List.mem_append_left _ (by decide)
  · exact hflags (by decide) h

theorem and_ofpfwAll {flag : ℕ} (hflag : ofpfwAll&&&flag = flag) (wildcards : ℕ) :
    (wildcards&&&ofpfwAll)&&&flag = wildcards&&&flag := by
  rw [Nat.and_assoc,hflag]

/-- Nothing else of the wildcards is looked at. -/
theorem wildcardsText_and_ofpfwAll (wildcards : ℕ) : wildcardsText (wildcards&&&ofpfwAll) = wildcardsText wildcards := by
  have hsrc : nwSrcMask (wildcards&&&ofpfwAll) = nwSrcMask wildcards := by
    rw [nwSrcMask,and_ofpfwAll (by decide),nwSrcMask]
  have hdst : nwDstMask (wildcards&&&ofpfwAll) = nwDstMask wildcards := by
    rw [nwDstMask,and_ofpfwAll (by decide),nwDstMask]
  have hflags {flags : List (ℕ × String)} (hall : ∀ flag ∈ flags, ofpfwAll&&&flag.1 = flag.1) :
      flagNames (wildcards&&&ofpfwAll) flags = flagNames wildcards flags := by
    unfold flagNames
    congr 1
    exact List.filter_congr fun flag hmem => by rw [and_ofpfwAll (hall flag hmem)]
  have hnames : wildcardNames (wildcards&&&ofpfwAll) = wildcardNames wildcards := by
    rw [wildcardNames,hsrc,hdst,hflags (by decide),hflags (by decide),wildcardNames]
  have heverything : Everything (wildcards&&&ofpfwAll) ↔ Everything wildcards := by
    rw [Everything,hsrc,hdst,and_ofpfwAll (by decide),Everything]
  simp only [wildcardsText,and_ofpfwAll (show ofpfwAll&&&ofpfwAll = ofpfwAll by decide),heverything,hnames]

/-- One bit after the other, the ten that are flags and the two masks of six. -/
theorem and_ofpfwAll_of_names (h : wildcardNames wildcards = wildcardNames wildcards') :
    wildcards&&&ofpfwAll = wildcards'&&&ofpfwAll := by
  have hflag : ∀ i < 22, i < 8 ∨ 20 ≤ i → wildcards.testBit i = wildcards'.testBit i := by
    intro i hi hflag
    have htable : ∀ i < 22, i < 8 ∨ 20 ≤ i → ∃ flag ∈ leadingFlags++trailingFlags, flag.1 = 2^i := by decide
    obtain ⟨flag,hmem,hbit⟩ := htable i hi hflag
    have hboth := mem_wildcardNames_flag wildcards hmem
    rw [h,mem_wildcardNames_flag wildcards' hmem,hbit,Nat.and_two_pow,Nat.and_two_pow] at hboth
    have hpos := Nat.two_pow_pos i
    cases hw : wildcards.testBit i <;> cases hw' : wildcards'.testBit i <;> simp_all
  have hsrc : nwSrcMask wildcards = nwSrcMask wildcards' := by
    have hmask (mask : ℕ) := (mem_wildcardNames_mask wildcards mask).1
    simp only [h,mem_wildcardNames_mask] at hmask
    have hleft := hmask (nwSrcMask wildcards)
    have hright := hmask (nwSrcMask wildcards')
    omega
  have hdst : nwDstMask wildcards = nwDstMask wildcards' := by
    have hmask (mask : ℕ) := (mem_wildcardNames_mask wildcards mask).2
    simp only [h,mem_wildcardNames_mask] at hmask
    have hleft := hmask (nwDstMask wildcards)
    have hright := hmask (nwDstMask wildcards')
    omega
  have hmasked {mask shift i : ℕ} (hset : mask.testBit (shift+i) = true)
      (heq : (wildcards&&&mask)>>>shift = (wildcards'&&&mask)>>>shift) :
      wildcards.testBit (shift+i) = wildcards'.testBit (shift+i) := by
    have hbit := congrArg (Nat.testBit · i) heq
    simpa only [Nat.testBit_shiftRight,Nat.testBit_and,hset,Bool.and_true] using hbit
  refine Nat.eq_of_testBit_eq fun i => ?_
  rw [Nat.testBit_and,Nat.testBit_and]
  have hsrcBits : ∀ i < 6, ofpfwNwSrcMask.testBit (8+i) = true := by decide
  have hdstBits : ∀ i < 6, ofpfwNwDstMask.testBit (14+i) = true := by decide
  rcases Nat.lt_or_ge i 22 with hi | hi
  · congr 1
    by_cases hsingle : i < 8 ∨ 20 ≤ i
    · exact hflag i hi hsingle
    · rcases Nat.lt_or_ge i 14 with hlow | hhigh
      · obtain ⟨k,rfl⟩ := Nat.exists_eq_add_of_le (show 8 ≤ i by omega)
        exact hmasked (hsrcBits k (by omega)) hsrc
      · obtain ⟨k,rfl⟩ := Nat.exists_eq_add_of_le hhigh
        exact hmasked (hdstBits k (by omega)) hdst
  · have hzero : ofpfwAll.testBit i = false :=
      Nat.testBit_eq_false_of_lt (lt_of_lt_of_le (by decide : ofpfwAll < 2^22) (Nat.pow_le_pow_right (by decide) hi))
    rw [hzero,Bool.and_false,Bool.and_false]

theorem wildcardWords_cases (wildcards : ℕ) :
    (wildcards&&&ofpfwAll = 0 ∧ wildcardWords wildcards = ["none".toList]) ∨
    (Everything wildcards ∧ wildcardWords wildcards = ["all".toList]) ∨
    wildcardWords wildcards = wildcardNames wildcards := by
  unfold wildcardWords
  by_cases hzero : wildcards&&&ofpfwAll = 0
  · exact .inl ⟨hzero,if_pos hzero⟩
  rw [if_neg hzero]
  by_cases heverything : Everything wildcards
  · exact .inr (.inl ⟨heverything,if_pos heverything⟩)
  · exact .inr (.inr (if_neg heverything))

theorem plain_of_mem_wildcardWords {name : List Char} (h : name ∈ wildcardWords wildcards) : name ≠ [] ∧ '|' ∉ name := by
  rcases wildcardWords_cases wildcards with ⟨-,hwords⟩ | ⟨-,hwords⟩ | hwords
  · rw [hwords,List.mem_singleton] at h
    rw [h]
    decide
  · rw [hwords,List.mem_singleton] at h
    rw [h]
    decide
  · rw [hwords] at h
    exact ⟨(plain_of_mem_wildcardNames h).1,(plain_of_mem_wildcardNames h).2.1⟩

theorem nonzero_of_everything (h : Everything wildcards) : wildcards&&&ofpfwAll ≠ 0 := by
  intro hzero
  have hfields := h.1
  rw [← and_ofpfwAll (by decide),hzero,Nat.zero_and] at hfields
  revert hfields
  decide

theorem wildcardsText_eq_iff : wildcardsText wildcards = wildcardsText wildcards' ↔
    wildcards&&&ofpfwAll = wildcards'&&&ofpfwAll ∨ Everything wildcards ∧ Everything wildcards' := by
  have hword {wildcards : ℕ} {word : List Char} (hplain : '_' ∉ word) : wildcardNames wildcards ≠ [word] := fun h =>
    hplain (underscore_mem_of_mem_wildcardNames (h ▸ List.mem_singleton_self word))
  have hnone : "none".toList ≠ "all".toList := by decide
  constructor
  · intro h
    rw [wildcardsText_eq,wildcardsText_eq] at h
    have hwords := intercalate_inj [] (fun _ => plain_of_mem_wildcardWords) (fun _ => plain_of_mem_wildcardWords) h
    rcases wildcardWords_cases wildcards with ⟨hzero,hw⟩ | ⟨heverything,hw⟩ | hw <;>
      rcases wildcardWords_cases wildcards' with ⟨hzero',hw'⟩ | ⟨heverything',hw'⟩ | hw' <;> rw [hw,hw'] at hwords
    · exact .inl (hzero.trans hzero'.symm)
    · exact absurd (List.singleton_inj.mp hwords) hnone
    · exact absurd hwords.symm (hword (by decide))
    · exact absurd (List.singleton_inj.mp hwords).symm hnone
    · exact .inr ⟨heverything,heverything'⟩
    · exact absurd hwords.symm (hword (by decide))
    · exact absurd hwords (hword (by decide))
    · exact absurd hwords (hword (by decide))
    · exact .inl (and_ofpfwAll_of_names hwords)
  · rintro (hbits | ⟨heverything,heverything'⟩)
    · rw [← wildcardsText_and_ofpfwAll,hbits,wildcardsText_and_ofpfwAll]
    · rw [wildcardsText,wildcardsText,if_neg (nonzero_of_everything heverything),if_pos heverything,
        if_neg (nonzero_of_everything heverything'),if_pos heverything']

end Told

/-- The string never runs out of its buffer: a name is printed if there is still space for it, its
bar and the NUL. In a string of 103 bytes there always is, and then it tells the wildcards, but
for the prefix lengths behind an `all` and bits that mean nothing. -/
theorem wildcardsToString_told (ccSuccess ccError : UInt32) (wildcards : ℕ) {size : ℕ} (hsize : 0 < size) :
    ∃ ret str, wildcardsToString ccSuccess ccError wildcards size = some (ret,str) ∧ str.length = size ∧
      Spells str (['|'].intercalate (printedWords wildcards size)) ∧
      ret = (if printedWords wildcards size = wildcardWords wildcards then ccSuccess else ccSuccess&&&ccError) ∧
      (103 ≤ size → printedWords wildcards size = wildcardWords wildcards) ∧
      ∀ wildcards', ['|'].intercalate (wildcardWords wildcards') = ['|'].intercalate (wildcardWords wildcards) ↔
        wildcards'&&&ofpfwAll = wildcards&&&ofpfwAll ∨ Everything wildcards' ∧ Everything wildcards := by
  obtain ⟨str,hrun,hlength,hspells⟩ := wildcardsToString_printed ccSuccess ccError wildcards hsize
  refine ⟨_,str,hrun,hlength,hspells,rfl,printedWords_eq_self wildcards,fun wildcards' => ?_⟩
  rw [← wildcardsText_eq,← wildcardsText_eq,wildcardsText_eq_iff]

/-- In 16 bytes there is space for the first name and the last of three. -/
theorem wildcardsToString_told_twoOfThree :
    ∃ ret str, wildcardsToString 0 1 0x300001 16 = some (ret,str) ∧ str.length = 16 ∧
      Spells str (['|'].intercalate (printedWords 0x300001 16)) ∧
      ret = (if printedWords 0x300001 16 = wildcardWords 0x300001 then 0 else 0&&&1) ∧
      (103 ≤ 16 → printedWords 0x300001 16 = wildcardWords 0x300001) ∧
      ∀ wildcards', ['|'].intercalate (wildcardWords wildcards') = ['|'].intercalate (wildcardWords 0x300001) ↔
        wildcards'&&&ofpfwAll = 0x300001&&&ofpfwAll ∨ Everything wildcards' ∧ Everything 0x300001 :=
  wildcardsToString_told 0 1 0x300001 (by decide)

end OpenFlowController.Utility
