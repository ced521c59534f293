import OpenFlowController.Check.Fields
import OpenFlowController.Utility.Wildcards

/-! # Matches and ports as text -/
namespace OpenFlowController.Utility
open BoundedString Texts
open Check (OfpMatch OfpPhyPort)

section Print
variable (ccSuccess ccError : UInt32)

/-- The whole string is cleared and printed into. Its size is compared as an `int`. -/
def printed (size : ℕ) (text : List Char) : Option (UInt32 × List Char) := do
  let str ← snprintf (List.replicate size nul) 0 size text
  return (if Int.bmod size 4294967296 ≤ text.length then ccError else ccSuccess,str)

/-- What `%s` takes from an array. Without a NUL it would leave it. -/
def cString (buf : List Char) : Option (List Char) := (strlen buf).map buf.take

/-- `%02x:%02x:%02x:%02x:%02x:%02x` -/
def hwAddrText (addr : List ℕ) : List Char :=
  let hex i := hexByte (UInt8.ofNat (addr.getD i 0))
  hex 0++ ':' :: (hex 1++ ':' :: (hex 2++ ':' :: (hex 3++ ':' :: (hex 4++ ':' :: hex 5))))

def prefixlen (masklen : ℕ) : ℕ := if 32 ≤ masklen then 0 else 32-masklen

def matchText (m : OfpMatch) (wildcardsStr : List Char) : List Char :=
  "wildcards = ".toList++(sharpHex m.wildcards++("(".toList++(wildcardsStr++
  ("), in_port = ".toList++(decimal m.inPort++
  (", dl_src = ".toList++(hwAddrText m.dlSrc++
  (", dl_dst = ".toList++(hwAddrText m.dlDst++
  (", dl_vlan = ".toList++(sharpHex m.dlVlan++(", dl_vlan_pcp = ".toList++(sharpHex m.dlVlanPcp++
  (", dl_type = ".toList++(sharpHex m.dlType++
  (", nw_tos = ".toList++(decimal m.nwTos++(", nw_proto = ".toList++(decimal m.nwProto++
  (", nw_src = ".toList++(inetNtop m.nwSrc++("/".toList++(decimal (prefixlen (nwSrcMask m.wildcards))++
  (", nw_dst = ".toList++(inetNtop m.nwDst++("/".toList++(decimal (prefixlen (nwDstMask m.wildcards))++
  (", tp_src = ".toList++(decimal m.tpSrc++(", tp_dst = ".toList++decimal m.tpDst))))))))))))))))))))))))))))))

def matchToString (m : OfpMatch) (size : ℕ) : Option (UInt32 × List Char) := do
  let (_,wildcardsStr) ← wildcardsToString ccSuccess ccError m.wildcards 256
  printed ccSuccess ccError size (matchText m (← cString wildcardsStr))

def phyPortText (port : OfpPhyPort) (name : List Char) : List Char :=
  "port_no = ".toList++(decimal port.portNo++(", hw_addr = ".toList++(hwAddrText port.hwAddr++
  (", name = ".toList++(name++(", config = ".toList++(sharpHex port.config++
  (", state = ".toList++(sharpHex port.state++(", curr = ".toList++(sharpHex port.curr++
  (", advertised = ".toList++(sharpHex port.advertised++(", supported = ".toList++(sharpHex port.supported++
  (", peer = ".toList++sharpHex port.peer))))))))))))))))

def shownName (port : OfpPhyPort) : Option (List Char) := cString (port.name.map Char.ofNat)

/-- Without a result where the name fills its 16 bytes and `%s` reads on behind it. -/
def phyPortToString (port : OfpPhyPort) (size : ℕ) : Option (UInt32 × List Char) := do
  printed ccSuccess ccError size (phyPortText port (← shownName port))

end Print
section Widths

def SixBytes (addr : List ℕ) : Prop := addr.length = 6 ∧ ∀ byte ∈ addr, byte < 256

instance (addr : List ℕ) : Decidable (SixBytes addr) := inferInstanceAs (Decidable (_ ∧ _))

/-- The types of the fields. -/
structure FieldWidths (m : OfpMatch) : Prop where
  wildcards : m.wildcards < 4294967296
  inPort : m.inPort < 65536
  dlSrc : SixBytes m.dlSrc
  dlDst : SixBytes m.dlDst
  dlVlan : m.dlVlan < 65536
  dlVlanPcp : m.dlVlanPcp < 256
  dlType : m.dlType < 65536
  nwTos : m.nwTos < 256
  nwProto : m.nwProto < 256
  nwSrc : m.nwSrc < 4294967296
  nwDst : m.nwDst < 4294967296
  tpSrc : m.tpSrc < 65536
  tpDst : m.tpDst < 65536

structure PortWidths (port : OfpPhyPort) : Prop where
  portNo : port.portNo < 65536
  hwAddr : SixBytes port.hwAddr
  name : port.name.length = 16 ∧ ∀ byte ∈ port.name, byte < 256
  config : port.config < 4294967296
  state : port.state < 4294967296
  curr : port.curr < 4294967296
  advertised : port.advertised < 4294967296
  supported : port.supported < 4294967296
  peer : port.peer < 4294967296

open Memory in
/-- A match that came in a message has them. -/
theorem fieldWidths_matchAt (mem : Bytes) (src : ℕ) : FieldWidths (Check.matchAt mem src) := by
  have hsix (first : ℕ) : SixBytes ((List.range' first 6).map fun i => (mem i).toNat) := by
    refine ⟨by rw [List.length_map,List.length_range'],fun byte hmem => ?_⟩
    obtain ⟨i,-,rfl⟩ := List.mem_map.mp hmem
    exact (mem i).toNat_lt
  exact
    { wildcards := be32_lt mem _
      inPort := be16_lt mem _
      dlSrc := hsix _
      dlDst := hsix _
      dlVlan := be16_lt mem _
      dlVlanPcp := (mem _).toNat_lt
      dlType := be16_lt mem _
      nwTos := (mem _).toNat_lt
      nwProto := (mem _).toNat_lt
      nwSrc := be32_lt mem _
      nwDst := be32_lt mem _
      tpSrc := be16_lt mem _
      tpDst := be16_lt mem _ }

end Widths

section Read

theorem hwAddrText_inj {addr addr' : List ℕ} (h : SixBytes addr) (h' : SixBytes addr')
    (heq : hwAddrText addr = hwAddrText addr') : addr = addr' := by
  have hcolon (b : UInt8) : ':' ∉ hexByte b := notMem_hexByte (by decide) b
  have hbyte {i : ℕ} (hi : i < 6) (heq : hexByte (UInt8.ofNat (addr.getD i 0)) = hexByte (UInt8.ofNat (addr'.getD i 0))) :
      addr.getD i 0 = addr'.getD i 0 := by
    have hlt {addr : List ℕ} (h : SixBytes addr) : addr.getD i 0 < 256 := by
      rw [List.getD_eq_getElem _ _ (by rw [h.1]; exact hi)]
      exact h.2 _ (List.getElem_mem _)
    have htoNat := congrArg UInt8.toNat (hexByte_injective heq)
    rw [UInt8.toNat_ofNat',UInt8.toNat_ofNat',Nat.mod_eq_of_lt (hlt h),Nat.mod_eq_of_lt (hlt h')] at htoNat
    exact htoNat
  obtain ⟨h₀,heq⟩ := eq_of_stop (hcolon _) (hcolon _) heq
  obtain ⟨h₁,heq⟩ := eq_of_stop (hcolon _) (hcolon _) heq
  obtain ⟨h₂,heq⟩ := eq_of_stop (hcolon _) (hcolon _) heq
  obtain ⟨h₃,heq⟩ := eq_of_stop (hcolon _) (hcolon _) heq
  obtain ⟨h₄,h₅⟩ := eq_of_stop (hcolon _) (hcolon _) heq
  refine List.ext_getElem (h.1.trans h'.1.symm) fun i hi hi' => ?_
  rw [← List.getD_eq_getElem addr 0 hi,← List.getD_eq_getElem addr' 0 hi']
  rw [h.1] at hi
  match i,hi with
  | 0,hi => exact hbyte hi h₀
  | 1,hi => exact hbyte hi h₁
  | 2,hi => exact hbyte hi h₂
  | 3,hi => exact hbyte hi h₃
  | 4,hi => exact hbyte hi h₄
  | 5,hi => exact hbyte hi h₅

theorem comma_notMem_hwAddrText (addr : List ℕ) : ',' ∉ hwAddrText addr := by
  have hbyte := notMem_hexByte (c := ',') (by decide)
  simp only [hwAddrText,List.mem_append,List.mem_cons,hbyte]
  decide

/-- The wildcards come first and settle the words for them. Every later field ends at the next comma or slash. -/
theorem match_of_text {m m' : OfpMatch} (h : FieldWidths m) (h' : FieldWidths m')
    (heq : matchText m (wildcardsText m.wildcards) = matchText m' (wildcardsText m'.wildcards)) : m = m' := by
  have hdecimal := notMem_decimal (c := ',') (by decide)
  have hhex := notMem_sharpHex (c := ',') (by decide)
  have hopen := notMem_sharpHex (c := '(') (by decide)
  have hslash := notMem_inetNtop (c := '/') (by decide) (by decide)
  have hcomma := comma_notMem_hwAddrText
  unfold matchText at heq
  obtain ⟨hwildcards,heq⟩ := eq_of_separator rfl (hopen _) (hopen _) (List.append_cancel_left heq)
  replace hwildcards := sharpHex_injective hwildcards
  rw [hwildcards] at heq
  replace heq := List.append_cancel_left (List.append_cancel_left heq)
  obtain ⟨hinPort,heq⟩ := eq_of_separator rfl (hdecimal _) (hdecimal _) heq
  obtain ⟨hdlSrc,heq⟩ := eq_of_separator rfl (hcomma _) (hcomma _) heq
  obtain ⟨hdlDst,heq⟩ := eq_of_separator rfl (hcomma _) (hcomma _) heq
  obtain ⟨hdlVlan,heq⟩ := eq_of_separator rfl (hhex _) (hhex _) heq
  obtain ⟨hdlVlanPcp,heq⟩ := eq_of_separator rfl (hhex _) (hhex _) heq
  obtain ⟨hdlType,heq⟩ := eq_of_separator rfl (hhex _) (hhex _) heq
  obtain ⟨hnwTos,heq⟩ := eq_of_separator rfl (hdecimal _) (hdecimal _) heq
  obtain ⟨hnwProto,heq⟩ := eq_of_separator rfl (hdecimal _) (hdecimal _) heq
  obtain ⟨hnwSrc,heq⟩ := eq_of_separator rfl (hslash _) (hslash _) heq
  obtain ⟨hnwDst,heq⟩ := eq_of_separator rfl (hslash _) (hslash _) (List.append_cancel_left (List.append_cancel_left heq))
  obtain ⟨htpSrc,htpDst⟩ := eq_of_separator rfl (hdecimal _) (hdecimal _) (List.append_cancel_left (List.append_cancel_left heq))
  have hdlSrc := hwAddrText_inj h.dlSrc h'.dlSrc hdlSrc
  have hdlDst := hwAddrText_inj h.dlDst h'.dlDst hdlDst
  cases m
  cases m'
  rw [OfpMatch.mk.injEq]
  exact ⟨hwildcards,decimal_injective hinPort,hdlSrc,hdlDst,sharpHex_injective hdlVlan,sharpHex_injective hdlVlanPcp,
    sharpHex_injective hdlType,decimal_injective hnwTos,decimal_injective hnwProto,inetNtop_injective hnwSrc,
    inetNtop_injective hnwDst,decimal_injective htpSrc,decimal_injective htpDst⟩

end Read
section Lengths

theorem length_decimal_le {n k : ℕ} (hk : 0 < k) (hn : n < 10^k) : (decimal n).length ≤ k :=
  (Nat.length_toDigits_le_iff (by decide) hk).mpr hn

theorem length_sharpHex_le {n k : ℕ} (hk : 0 < k) (hn : n < 16^k) : (sharpHex n).length ≤ k+2 := by
  have hdigits : (Nat.toDigits 16 n).length ≤ k := (Nat.length_toDigits_le_iff (by decide) hk).mpr hn
  unfold sharpHex
  split <;> simp only [List.length_cons,List.length_nil] <;> omega

theorem length_inetNtop_le {n : ℕ} (hn : n < 4294967296) : (inetNtop n).length ≤ 15 := by
  have hbyte {n : ℕ} (hn : n < 256) : (decimal n).length ≤ 3 := length_decimal_le (by decide) (by omega)
  have h₃ := hbyte (show n/16777216 < 256 by omega)
  have h₂ := hbyte (show n/65536%256 < 256 by omega)
  have h₁ := hbyte (show n/256%256 < 256 by omega)
  have h₀ := hbyte (show n%256 < 256 by omega)
  simp only [inetNtop,List.length_append,List.length_singleton]
  omega

theorem length_hwAddrText (addr : List ℕ) : (hwAddrText addr).length = 17 := rfl

theorem length_wildcardsText_le (wildcards : ℕ) : (wildcardsText wildcards).length ≤ 102 := by
  obtain ⟨str,-,hlength,hspells⟩ := wildcardsToString_spec 0 0 wildcards (Nat.le_refl 103)
  have hlt := hspells.length_lt
  omega

theorem length_matchText_le {m : OfpMatch} (h : FieldWidths m) : (matchText m (wildcardsText m.wildcards)).length ≤ 375 := by
  have hwildcards : (sharpHex m.wildcards).length ≤ 10 :=
    length_sharpHex_le (by decide : 0 < 8) (by have hlt := h.wildcards; omega)
  have hwords := length_wildcardsText_le m.wildcards
  have hport {n : ℕ} (hn : n < 65536) : (decimal n).length ≤ 5 := length_decimal_le (by decide) (by omega)
  have hshort {n : ℕ} (hn : n < 256) : (decimal n).length ≤ 3 := length_decimal_le (by decide) (by omega)
  have htwo {n : ℕ} (hn : n < 65536) : (sharpHex n).length ≤ 6 := length_sharpHex_le (by decide : 0 < 4) (by omega)
  have hone {n : ℕ} (hn : n < 256) : (sharpHex n).length ≤ 4 := length_sharpHex_le (by decide : 0 < 2) (by omega)
  have hprefixlen (mask : ℕ) : (decimal (prefixlen mask)).length ≤ 2 := by
    refine length_decimal_le (by decide) ?_
    unfold prefixlen
    split <;> omega
  have hinPort := hport h.inPort
  have hdlVlan := htwo h.dlVlan
  have hdlVlanPcp := hone h.dlVlanPcp
  have hdlType := htwo h.dlType
  have hnwTos := hshort h.nwTos
  have hnwProto := hshort h.nwProto
  have hnwSrc := length_inetNtop_le h.nwSrc
  have hnwDst := length_inetNtop_le h.nwDst
  have hsrclen := hprefixlen (nwSrcMask m.wildcards)
  have hdstlen := hprefixlen (nwDstMask m.wildcards)
  have htpSrc := hport h.tpSrc
  have htpDst := hport h.tpDst
  unfold matchText
  simp only [List.length_append,length_hwAddrText,String.reduceToList,List.length_cons,List.length_nil,
    Nat.reduceAdd]
  have hfield {literal field bound rest total : ℕ} (hbound : field ≤ bound) (hrest : rest ≤ total) :
      literal+(field+rest) ≤ literal+(bound+total) := by omega
  exact hfield hwildcards <| hfield hwords <| hfield hinPort <| hfield (le_refl 17) <| hfield (le_refl 17) <|
    hfield hdlVlan <| hfield hdlVlanPcp <| hfield hdlType <| hfield hnwTos <| hfield hnwProto <| hfield hnwSrc <|
    hfield hsrclen <| hfield hnwDst <| hfield hdstlen <| hfield htpSrc <| Nat.add_le_add_left htpDst _

theorem length_phyPortText_le {port : OfpPhyPort} (h : PortWidths port) {name : List Char} (hname : name.length ≤ 15) :
    (phyPortText port name).length ≤ 196 := by
  have hportNo : (decimal port.portNo).length ≤ 5 := length_decimal_le (by decide) (by have hlt := h.portNo; omega)
  have hword {n : ℕ} (hn : n < 4294967296) : (sharpHex n).length ≤ 10 := length_sharpHex_le (by decide : 0 < 8) (by omega)
  unfold phyPortText
  simp only [List.length_append,length_hwAddrText,String.reduceToList,List.length_cons,List.length_nil,
    Nat.reduceAdd]
  have hfield {literal field bound rest total : ℕ} (hbound : field ≤ bound) (hrest : rest ≤ total) :
      literal+(field+rest) ≤ literal+(bound+total) := by omega
  exact hfield hportNo <| hfield (le_refl 17) <| hfield hname <| hfield (hword h.config) <| hfield (hword h.state) <|
    hfield (hword h.curr) <| hfield (hword h.advertised) <| hfield (hword h.supported) <|
    Nat.add_le_add_left (hword h.peer) _

end Lengths
section Told
variable {ccSuccess ccError : UInt32}

/-- A text that does not fit is cut and reported. -/
theorem printed_spec (ccSuccess ccError : UInt32) {size : ℕ} (hsize : 0 < size) (hint : size < 2147483648)
    {text : List Char} (hnul : nul ∉ text) :
    ∃ str, printed ccSuccess ccError size text = some (if text.length < size then ccSuccess else ccError,str) ∧
      str.length = size ∧ Spells str (text.take (size-1)) := by
  have hlength : (List.replicate size nul).length = size := List.length_replicate
  obtain ⟨str,hrun,hkept,hspells⟩ := (spells_replicate hsize).snprintf_eq hnul
  rw [hlength,List.length_nil,Nat.sub_zero] at hrun hspells
  refine ⟨str,?_,hkept.trans hlength,hspells⟩
  rw [printed,hrun,Int.bmod_eq_of_le (by omega) (by omega)]
  by_cases hfits : text.length < size
  · rw [if_pos hfits,if_neg (by omega)]
    rfl
  · rw [if_neg hfits,if_pos (by omega)]
    rfl

theorem cString_eq {buf text : List Char} (hs : Spells buf text) : cString buf = some text := by
  rw [cString,hs.strlen_eq]
  obtain ⟨-,rest,rfl⟩ := hs
  rw [Option.map_some,List.take_left]

theorem nul_notMem_hwAddrText (addr : List ℕ) : nul ∉ hwAddrText addr := by
  simp only [hwAddrText,List.mem_append,List.mem_cons,nul_notMem_hexByte]
  decide

theorem nul_notMem_matchText (m : OfpMatch) {wildcardsStr : List Char} (hnul : nul ∉ wildcardsStr) :
    nul ∉ matchText m wildcardsStr := by
  unfold matchText
  simp only [List.mem_append,nul_notMem_decimal,nul_notMem_sharpHex,nul_notMem_inetNtop,nul_notMem_hwAddrText,hnul,
    or_false,false_or,String.reduceToList]
  decide

/-- In a string of 376 bytes a match is always told whole, and no two are told alike. -/
theorem matchToString_told (ccSuccess ccError : UInt32) {m : OfpMatch} (hm : FieldWidths m) {size : ℕ} (hsize : 0 < size)
    (hint : size < 2147483648) :
    ∃ text str, matchToString ccSuccess ccError m size =
        some (if text.length < size then ccSuccess else ccError,str) ∧ text.length ≤ 375 ∧ str.length = size ∧
      Spells str (text.take (size-1)) ∧ text = matchText m (wildcardsText m.wildcards) ∧
      ∀ m', FieldWidths m' → matchText m' (wildcardsText m'.wildcards) = text → m' = m := by
  obtain ⟨buf,hrun,-,hspells⟩ := wildcardsToString_spec ccSuccess ccError m.wildcards (by decide : 103 ≤ 256)
  obtain ⟨str,hprinted,hlength,hspells'⟩ := printed_spec ccSuccess ccError hsize hint
    (nul_notMem_matchText m hspells.1)
  refine ⟨_,str,?_,length_matchText_le hm,hlength,hspells',rfl,fun m' hm' heq => match_of_text hm' hm heq⟩
  rw [matchToString,hrun]
  simp only [Option.bind_eq_bind,Option.bind_some,cString_eq hspells,hprinted]

/-- Every field is set, each of its bytes to another value. -/
def countedMatch : OfpMatch := Check.matchAt (fun i => UInt8.ofNat (i+1)) 0

theorem matchToString_told_countedMatch :
    ∃ text str, matchToString 0 1 countedMatch 1024 = some (if text.length < 1024 then 0 else 1,str) ∧ text.length ≤ 375 ∧
      str.length = 1024 ∧ Spells str (text.take 1023) ∧ text = matchText countedMatch (wildcardsText countedMatch.wildcards) ∧
      ∀ m', FieldWidths m' → matchText m' (wildcardsText m'.wildcards) = text → m' = countedMatch :=
  matchToString_told 0 1 (fieldWidths_matchAt (fun i => UInt8.ofNat (i+1)) 0) (by decide) (by decide)

theorem blank_notMem_sharpHex (n : ℕ) : ' ' ∉ sharpHex n := notMem_sharpHex (by decide) n

/-- Whatever stands in the name, the fields behind it are found from the end. -/
theorem phyPort_of_text {port port' : OfpPhyPort} {name name' : List Char} (h : SixBytes port.hwAddr)
    (h' : SixBytes port'.hwAddr) (heq : phyPortText port name = phyPortText port' name') :
    name = name' ∧ port' = { port with name := port'.name } := by
  have hcomma := comma_notMem_hwAddrText
  have hdecimal := notMem_decimal (c := ',') (by decide)
  have hblank := blank_notMem_sharpHex
  unfold phyPortText at heq
  obtain ⟨hportNo,heq⟩ := eq_of_separator rfl (hdecimal _) (hdecimal _) (List.append_cancel_left heq)
  obtain ⟨hhwAddr,heq⟩ := eq_of_separator rfl (hcomma _) (hcomma _) heq
  simp only [← List.append_assoc] at heq
  obtain ⟨heq,hpeer⟩ := eq_of_last_separator rfl (hblank _) (hblank _) heq
  obtain ⟨heq,hsupported⟩ := eq_of_last_separator rfl (hblank _) (hblank _) heq
  obtain ⟨heq,hadvertised⟩ := eq_of_last_separator rfl (hblank _) (hblank _) heq
  obtain ⟨heq,hcurr⟩ := eq_of_last_separator rfl (hblank _) (hblank _) heq
  obtain ⟨heq,hstate⟩ := eq_of_last_separator rfl (hblank _) (hblank _) heq
  obtain ⟨hname,hconfig⟩ := eq_of_last_separator rfl (hblank _) (hblank _) heq
  have hhwAddr := hwAddrText_inj h h' hhwAddr
  refine ⟨hname,?_⟩
  cases port
  cases port'
  rw [OfpPhyPort.mk.injEq]
  exact ⟨(decimal_injective hportNo).symm,hhwAddr.symm,rfl,(sharpHex_injective hconfig).symm,
    (sharpHex_injective hstate).symm,(sharpHex_injective hcurr).symm,(sharpHex_injective hadvertised).symm,
    (sharpHex_injective hsupported).symm,(sharpHex_injective hpeer).symm⟩

theorem spells_of_cString {buf text : List Char} (h : cString buf = some text) : Spells buf text := by
  obtain ⟨length,hlength,rfl⟩ := Option.map_eq_some_iff.mp h
  obtain ⟨hlt,hnul,hbefore⟩ := List.findIdx?_eq_some_iff_getElem.mp hlength
  refine ⟨fun hmem => ?_,buf.drop (length+1),?_⟩
  · obtain ⟨i,hi,heq⟩ := List.mem_iff_getElem.mp hmem
    rw [List.length_take] at hi
    rw [List.getElem_take] at heq
    exact absurd (hbefore i (by omega)) (by simp [heq])
  · have hat : buf[length] = nul := by simpa using hnul
    rw [← hat,List.cons_getElem_drop_succ,List.take_append_drop]

theorem shownName_eq_none_iff {port : OfpPhyPort} (h : PortWidths port) : shownName port = none ↔ 0 ∉ port.name := by
  have hzero {byte : ℕ} (hbyte : byte < 256) (heq : Char.ofNat byte = nul) : byte = 0 := by
    have htoNat := congrArg Char.toNat heq
    rw [Char.ofNat,dif_pos (.inl (by omega))] at htoNat
    exact htoNat
  rw [shownName,cString,Option.map_eq_none_iff,strlen,List.findIdx?_eq_none_iff]
  simp only [List.mem_map,decide_eq_false_iff_not]
  constructor
  · exact fun hnone hmem => hnone nul ⟨0,hmem,rfl⟩ rfl
  · rintro hnone _ ⟨byte,hmem,rfl⟩ heq
    exact hnone (hzero (h.name.2 byte hmem) heq ▸ hmem)

/-- The port is told but for what its name holds behind the end. -/
theorem phyPortToString_told (ccSuccess ccError : UInt32) {port : OfpPhyPort} (hport : PortWidths port) {size : ℕ}
    (hsize : 0 < size) (hint : size < 2147483648) :
    (phyPortToString ccSuccess ccError port size = none ↔ 0 ∉ port.name) ∧
    ∀ name, shownName port = some name → ∃ text str, phyPortToString ccSuccess ccError port size =
        some (if text.length < size then ccSuccess else ccError,str) ∧ text.length ≤ 196 ∧ str.length = size ∧
      Spells str (text.take (size-1)) ∧ text = phyPortText port name ∧
      ∀ port' name', PortWidths port' → shownName port' = some name' → phyPortText port' name' = text →
        name' = name ∧ port' = { port with name := port'.name } := by
  have hshown (name) (hname : shownName port = some name) : ∃ str, phyPortToString ccSuccess ccError port size =
      some (if (phyPortText port name).length < size then ccSuccess else ccError,str) ∧ str.length = size ∧
        Spells str ((phyPortText port name).take (size-1)) := by
    have hnul : nul ∉ phyPortText port name := by
      unfold phyPortText
      simp only [List.mem_append,nul_notMem_decimal,nul_notMem_sharpHex,nul_notMem_hwAddrText,(spells_of_cString hname).1,
        or_false,false_or,String.reduceToList]
      decide
    obtain ⟨str,hprinted,hlength,hspells⟩ := printed_spec ccSuccess ccError hsize hint hnul
    refine ⟨str,?_,hlength,hspells⟩
    rw [phyPortToString,hname]
    exact hprinted
  constructor
  · rw [← shownName_eq_none_iff hport]
    cases hname : shownName port with
    | none =>
      rw [phyPortToString,hname]
      exact ⟨fun _ => rfl,fun _ => rfl⟩
    | some name =>
      obtain ⟨str,hrun,-⟩ := hshown name hname
      rw [hrun]
      exact ⟨nofun,nofun⟩
  · intro name hname
    obtain ⟨str,hrun,hlength,hspells⟩ := hshown name hname
    have hshort := (spells_of_cString hname).length_lt
    rw [List.length_map,hport.name.1] at hshort
    exact ⟨_,str,hrun,length_phyPortText_le hport (by omega),hlength,hspells,rfl,fun port' name' hport' _ heq =>
      have hread := phyPort_of_text hport.hwAddr hport'.hwAddr heq.symm
      ⟨hread.1.symm,hread.2⟩⟩

def eth0 : OfpPhyPort where
  portNo := 1
  hwAddr := [0,1,2,3,4,5]
  name := [101,116,104,48,0,0,0,0,0,0,0,0,0,0,0,0]
  config := 0
  state := 0
  curr := 0
  advertised := 0
  supported := 0
  peer := 0

theorem phyPortToString_told_eth0 :
    shownName eth0 = some ['e','t','h','0'] ∧
    ∃ text str, phyPortToString 0 1 eth0 1024 = some (if text.length < 1024 then 0 else 1,str) ∧ text.length ≤ 196 ∧
      str.length = 1024 ∧ Spells str (text.take 1023) ∧ text = phyPortText eth0 ['e','t','h','0'] ∧
      ∀ port' name', PortWidths port' → shownName port' = some name' → phyPortText port' name' = text →
        name' = ['e','t','h','0'] ∧ port' = { eth0 with name := port'.name } := by
  have hwidths : PortWidths eth0 := by constructor <;> decide
  exact ⟨by decide,(phyPortToString_told 0 1 hwidths (by decide) (by decide)).2 ['e','t','h','0'] (by decide)⟩

end Told
end OpenFlowController.Utility
