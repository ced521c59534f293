import Mathlib.Data.List.TakeWhile
import OpenFlowController.Utility.ActionsTold

/-! # Datapath ids from text

`strtoull` with base 0, as the C library has it, takes the longest number it can find. The
id is taken only if nothing is left of the text.
-/
namespace OpenFlowController.Utility
open Texts

section Strtoull

/-- 16 for what is not a digit. -/
def digitValue (c : Char) : ℕ :=
  if c.isDigit then c.toNat-48
  else if 'a' ≤ c ∧ c ≤ 'f' then c.toNat-87
  else if 'A' ≤ c ∧ c ≤ 'F' then c.toNat-55
  else 16

def valueOf (base : ℕ) (digits : List Char) : ℕ := digits.foldl (fun value c => value*base+digitValue c) 0

def isSpace (c : Char) : Bool := c ∈ [' ','\t','\n','\x0b','\x0c','\r']

/-- Is there a minus, and what is behind the sign? -/
def signed : List Char → Bool × List Char
  | '-' :: rest => (true,rest)
  | '+' :: rest => (false,rest)
  | str => (false,str)

/-- The base and the text from the first digit on. An `x` without a hexadecimal digit is not taken. -/
def based : List Char → ℕ × List Char
  | '0' :: x :: rest =>
    if (x = 'x' ∨ x = 'X') ∧ rest.head?.any (digitValue · < 16) then (16,rest) else (8,'0' :: x :: rest)
  | ['0'] => (8,['0'])
  | str => (10,str)

/-- A number that is too large is the largest, with a minus as well. -/
def converted (negative : Bool) (value : ℕ) : UInt64 :=
  if 18446744073709551616 ≤ value then 18446744073709551615
  else if negative then 0-UInt64.ofNat value
  else UInt64.ofNat value

/-- Without a digit the end is where the text began. -/
def strtoull (str : List Char) : UInt64 × List Char :=
  let (negative,unsigned) := signed (str.dropWhile isSpace)
  let (base,digits) := based unsigned
  let number := digits.takeWhile (digitValue · < base)
  if number = [] then (0,str)
  else (converted negative (valueOf base number),digits.dropWhile (digitValue · < base))

def stringToDatapathId (str : List Char) : Conversion × UInt64 :=
  let (datapathId,endp) := strtoull str
  (if endp = [] then .ccSuccess else .ccError,datapathId)

end Strtoull

section Grammar

/-- A number without a sign. -/
inductive Numeral : List Char → ℕ → Prop
  | decimal {digits : List Char} : digits ≠ [] → digits.head? ≠ some '0' → (∀ c ∈ digits, digitValue c < 10) →
      Numeral digits (valueOf 10 digits)
  | octal {digits : List Char} : (∀ c ∈ digits, digitValue c < 8) → Numeral ('0' :: digits) (valueOf 8 digits)
  | hexadecimal {x : Char} {digits : List Char} : x = 'x' ∨ x = 'X' → digits ≠ [] → (∀ c ∈ digits, digitValue c < 16) →
      Numeral ('0' :: x :: digits) (valueOf 16 digits)

/-- Blanks, a sign or none, and a number. No text at all stands for zero. -/
def Stands (str : List Char) (datapathId : UInt64) : Prop :=
  (str = [] ∧ datapathId = 0) ∨
  ∃ blanks sign numeral value, str = blanks++(sign++numeral) ∧ (∀ c ∈ blanks, isSpace c = true) ∧
    sign ∈ [[],['+'],['-']] ∧ Numeral numeral value ∧ datapathId = converted (sign = ['-']) value

end Grammar

example : stringToDatapathId "0x1f".toList = (.ccSuccess,31) := by decide

example : stringToDatapathId "1f".toList = (.ccError,1) := by decide

section Read

@[simp] theorem valueOf_zero_cons (base : ℕ) (digits : List Char) : valueOf base ('0' :: digits) = valueOf base digits := by
  have hzero : digitValue '0' = 0 := rfl
  rw [valueOf,List.foldl_cons,hzero,Nat.zero_mul,valueOf]

theorem digitValue_x {x : Char} (hx : x = 'x' ∨ x = 'X') : digitValue x = 16 := by
  rcases hx with rfl | rfl <;> rfl

/-- What the base was found from is a number exactly if only digits of it follow. -/
theorem numeral_iff {unsigned digits : List Char} {base value : ℕ} (hbased : based unsigned = (base,digits)) :
    Numeral unsigned value ↔ digits ≠ [] ∧ (∀ c ∈ digits, digitValue c < base) ∧ value = valueOf base digits := by
  have hzero : digitValue '0' < 8 := by decide
  constructor
  · rintro (⟨hne,hhead,hdigits⟩ | ⟨hdigits⟩ | ⟨hx,hne,hdigits⟩)
    · have hten : based unsigned = (10,unsigned) := by
        unfold based
        split
        · exact absurd rfl hhead
        · exact absurd rfl hhead
        · rfl
      rw [hten] at hbased
      cases hbased
      exact ⟨hne,hdigits,rfl⟩
    · rename_i rest
      have height : based ('0' :: rest) = (8,'0' :: rest) := by
        cases rest with
        | nil => rfl
        | cons x rest =>
          rw [based,if_neg]
          rintro ⟨hx,-⟩
          have hsmall := hdigits x List.mem_cons_self
          rw [digitValue_x hx] at hsmall
          omega
      rw [height] at hbased
      cases hbased
      exact ⟨List.cons_ne_nil _ _,List.forall_mem_cons.mpr ⟨hzero,hdigits⟩,(valueOf_zero_cons 8 rest).symm⟩
    · rename_i x rest
      obtain ⟨first,rest,rfl⟩ := List.exists_cons_of_ne_nil hne
      rw [based,if_pos ⟨hx,by simpa using hdigits first List.mem_cons_self⟩] at hbased
      cases hbased
      exact ⟨hne,hdigits,rfl⟩
  · rintro ⟨hne,hdigits,rfl⟩
    unfold based at hbased
    split at hbased
    · rename_i x rest
      split at hbased
      · rename_i hhex
        cases hbased
        exact .hexadecimal hhex.1 hne hdigits
      · cases hbased
        rw [valueOf_zero_cons]
        exact .octal (List.forall_mem_cons.mp hdigits).2
    · cases hbased
      exact .octal (List.forall_mem_nil _)
    · rename_i hlong hshort
      cases hbased
      refine .decimal hne (fun hhead => ?_) hdigits
      obtain ⟨rest,rfl⟩ := List.head?_eq_some_iff.mp hhead
      cases rest with
      | nil => exact hshort rfl
      | cons x rest => exact hlong x rest rfl

theorem Numeral.exists_cons {numeral : List Char} {value : ℕ} (h : Numeral numeral value) :
    ∃ c rest, numeral = c :: rest ∧ digitValue c < 10 := by
  rcases h with ⟨hne,-,hdigits⟩ | ⟨-⟩ | ⟨-,-,-⟩
  · obtain ⟨c,rest,rfl⟩ := List.exists_cons_of_ne_nil hne
    exact ⟨c,rest,rfl,hdigits c List.mem_cons_self⟩
  · exact ⟨ '0',_,rfl,by decide⟩
  · exact ⟨ '0',_,rfl,by decide⟩

/-- The conversion goes to the end exactly over a number. -/
theorem stringToDatapathId_eq_iff (str : List Char) (datapathId : UInt64) :
    stringToDatapathId str = (.ccSuccess,datapathId) ↔ (str = [] ∧ datapathId = 0) ∨
      ∃ value, Numeral (signed (str.dropWhile isSpace)).2 value ∧
        datapathId = converted (signed (str.dropWhile isSpace)).1 value := by
  obtain ⟨base,digits,hbased⟩ : ∃ base digits, based (signed (str.dropWhile isSpace)).2 = (base,digits) := ⟨_,_,rfl⟩
  simp only [stringToDatapathId,strtoull,hbased,numeral_iff hbased]
  by_cases hnumber : digits.takeWhile (digitValue · < base) = []
  · have hnone : ¬(digits ≠ [] ∧ (∀ c ∈ digits, digitValue c < base)) := by
      rintro ⟨hne,hdigits⟩
      rw [List.takeWhile_eq_self_iff.mpr (by simpa using hdigits)] at hnumber
      exact hne hnumber
    simp only [hnumber,if_true,Prod.mk.injEq]
    by_cases hstr : str = []
    · simp only [hstr,if_true,true_and]
      constructor
      · exact fun h => .inl h.symm
      · rintro (h | ⟨value,⟨hne,hdigits,-⟩,-⟩)
        · exact h.symm
        · exact absurd ⟨hne,hdigits⟩ hnone
    · simp only [hstr,if_false,false_and,false_or]
      constructor
      · rintro ⟨⟨⟩,-⟩
      · rintro ⟨value,⟨hne,hdigits,-⟩,-⟩
        exact absurd ⟨hne,hdigits⟩ hnone
  · have hstr : str ≠ [] := by
      rintro rfl
      cases hbased
      exact hnumber rfl
    simp only [hnumber,if_false,Prod.mk.injEq,hstr,false_and,false_or]
    constructor
    · rintro ⟨hend,rfl⟩
      have hall : ∀ c ∈ digits, digitValue c < base := by
        by_contra hother
        rw [if_neg (fun hnil => hother (by simpa using List.dropWhile_eq_nil_iff.mp hnil))] at hend
        cases hend
      rw [List.takeWhile_eq_self_iff.mpr (by simpa using hall)] at hnumber ⊢
      exact ⟨_,⟨hnumber,hall,rfl⟩,rfl⟩
    · rintro ⟨value,⟨-,hall,rfl⟩,rfl⟩
      rw [if_pos (List.dropWhile_eq_nil_iff.mpr (by simpa using hall)),
        List.takeWhile_eq_self_iff.mpr (by simpa using hall)]
      exact ⟨rfl,rfl⟩

theorem signed_cases (str : List Char) :
    ∃ sign ∈ [[],['+'],['-']], str = sign++(signed str).2 ∧ (signed str).1 = decide (sign = ['-']) := by
  unfold signed
  split
  · exact ⟨['-'],by decide,rfl,rfl⟩
  · exact ⟨['+'],by decide,rfl,rfl⟩
  · exact ⟨[],by decide,rfl,rfl⟩

theorem signed_append {sign numeral : List Char} {value : ℕ} (hsign : sign ∈ [[],['+'],['-']]) (h : Numeral numeral value) :
    signed (sign++numeral) = (decide (sign = ['-']),numeral) := by
  simp only [List.mem_cons,List.not_mem_nil,or_false] at hsign
  rcases hsign with rfl | rfl | rfl
  · obtain ⟨c,rest,rfl,hdigit⟩ := h.exists_cons
    rw [List.nil_append]
    unfold signed
    split
    · rename_i heq
      rw [(List.cons.inj heq).1] at hdigit
      exact absurd hdigit (by decide)
    · rename_i heq
      rw [(List.cons.inj heq).1] at hdigit
      exact absurd hdigit (by decide)
    · rfl
  · rfl
  · rfl

theorem dropWhile_blanks {blanks sign numeral : List Char} {value : ℕ} (hblanks : ∀ c ∈ blanks, isSpace c = true)
    (hsign : sign ∈ [[],['+'],['-']]) (h : Numeral numeral value) :
    (blanks++(sign++numeral)).dropWhile isSpace = sign++numeral := by
  have hdigit : ∀ c, digitValue c < 10 → isSpace c = false := by
    intro c hc
    by_contra hspace
    simp only [isSpace,List.mem_cons,List.not_mem_nil,or_false,decide_eq_true_eq,Bool.not_eq_false] at hspace
    rcases hspace with rfl | rfl | rfl | rfl | rfl | rfl <;> exact absurd hc (by decide)
  rw [List.dropWhile_append_of_pos hblanks]
  simp only [List.mem_cons,List.not_mem_nil,or_false] at hsign
  rcases hsign with rfl | rfl | rfl
  · obtain ⟨c,rest,rfl,hc⟩ := h.exists_cons
    rw [List.nil_append,List.dropWhile_cons_of_neg (by simp [hdigit c hc])]
  · rfl
  · rfl

theorem stands_iff (str : List Char) (datapathId : UInt64) :
    stringToDatapathId str = (.ccSuccess,datapathId) ↔ Stands str datapathId := by
  rw [stringToDatapathId_eq_iff,Stands]
  refine or_congr_right ⟨?_,?_⟩
  · rintro ⟨value,hnumeral,rfl⟩
    obtain ⟨sign,hsign,hstr,hnegative⟩ := signed_cases (str.dropWhile isSpace)
    refine ⟨str.takeWhile isSpace,sign,_,value,?_,fun c hc => List.mem_takeWhile_imp hc,hsign,hnumeral,by rw [hnegative]⟩
    rw [← hstr,List.takeWhile_append_dropWhile]
  · rintro ⟨blanks,sign,numeral,value,rfl,hblanks,hsign,hnumeral,rfl⟩
    rw [dropWhile_blanks hblanks hsign hnumeral,signed_append hsign hnumeral]
    exact ⟨value,hnumeral,rfl⟩

end Read

section Printed
variable {b : ℕ}

theorem digitValue_digitChar {digit : ℕ} (h : digit < 16) : digitValue (Nat.digitChar digit) = digit := by
  have hall : ∀ i : Fin 16, digitValue (Nat.digitChar i) = i := by decide
  exact hall ⟨digit,h⟩

theorem digitValue_lt_of_mem (hb : 1 < b) (hdigits : b ≤ 16) {n : ℕ} {c : Char} (h : c ∈ Nat.toDigits b n) :
    digitValue c < b := by
  induction n using Nat.strongRecOn with
  | ind n ih =>
    rw [Nat.toDigits_eq_if hb] at h
    split at h
    · rw [List.mem_singleton.mp h,digitValue_digitChar (by omega)]
      assumption
    · rw [List.mem_append,List.mem_singleton] at h
      rcases h with hfront | rfl
      · exact ih (n/b) (Nat.div_lt_self (by omega) hb) hfront
      · rw [digitValue_digitChar (remainder_lt hb hdigits n)]
        exact Nat.mod_lt n (by omega)

/-- Digits are read as they were written. -/
theorem valueOf_toDigits (hb : 1 < b) (hdigits : b ≤ 16) (n : ℕ) : valueOf b (Nat.toDigits b n) = n := by
  induction n using Nat.strongRecOn with
  | ind n ih =>
    rw [Nat.toDigits_eq_if hb]
    split
    · rw [valueOf,List.foldl_cons,List.foldl_nil,digitValue_digitChar (by omega),Nat.zero_mul,Nat.zero_add]
    · have hquotient := ih (n/b) (Nat.div_lt_self (by omega) hb)
      rw [valueOf] at hquotient
      rw [valueOf,List.foldl_append,List.foldl_cons,List.foldl_nil,hquotient,
        digitValue_digitChar (remainder_lt hb hdigits n),Nat.mul_comm,Nat.div_add_mod]

/-- No zero is written in front. -/
theorem head_toDigits_ne {n : ℕ} (hb : 1 < b) (hpos : 0 < n) : (Nat.toDigits b n).head? ≠ some '0' := by
  induction n using Nat.strongRecOn with
  | ind n ih =>
    rw [Nat.toDigits_eq_if hb]
    split
    · simp only [List.head?_cons,ne_eq,Option.some.injEq,Nat.digitChar_eq_zero]
      omega
    · have hquotient : 0 < n/b := Nat.div_pos (by omega) (by omega)
      rw [List.head?_append_of_ne_nil _ Nat.toDigits_ne_nil]
      exact ih (n/b) (Nat.div_lt_self (by omega) hb) hquotient

theorem numeral_decimal (n : ℕ) : Numeral (decimal n) n := by
  rcases Nat.eq_zero_or_pos n with rfl | hpos
  · exact .octal (List.forall_mem_nil _)
  · have h := Numeral.decimal Nat.toDigits_ne_nil (head_toDigits_ne (by decide) hpos)
      (fun c => digitValue_lt_of_mem (by decide) (by decide))
    rwa [valueOf_toDigits (by decide) (by decide)] at h

theorem numeral_sharpHex (n : ℕ) : Numeral (sharpHex n) n := by
  unfold sharpHex
  split
  · rename_i hzero
    rw [hzero]
    exact .octal (List.forall_mem_nil _)
  · have h := Numeral.hexadecimal (.inl rfl) Nat.toDigits_ne_nil (fun c => digitValue_lt_of_mem (n := n) (by decide) (by decide))
    rwa [valueOf_toDigits (by decide) (by decide)] at h

/-- Exactly the texts that stand for an id are taken, the id they stand for is found, and so is every
id that was printed in decimal or as `%#x` does. -/
theorem stringToDatapathId_reads :
    (∀ str datapathId, stringToDatapathId str = (.ccSuccess,datapathId) ↔ Stands str datapathId) ∧
    ∀ datapathId : UInt64, stringToDatapathId (decimal datapathId.toNat) = (.ccSuccess,datapathId) ∧
      stringToDatapathId (sharpHex datapathId.toNat) = (.ccSuccess,datapathId) := by
  refine ⟨stands_iff,fun datapathId => ?_⟩
  have hconverted : datapathId = converted false datapathId.toNat := by
    have hlt := datapathId.toNat_lt
    rw [converted,if_neg (by omega)]
    exact UInt64.ofNat_toNat.symm
  exact ⟨(stands_iff _ _).mpr (.inr ⟨[],[],_,_,rfl,List.forall_mem_nil _,by decide,numeral_decimal _,hconverted⟩),
    (stands_iff _ _).mpr (.inr ⟨[],[],_,_,rfl,List.forall_mem_nil _,by decide,numeral_sharpHex _,hconverted⟩)⟩

end Printed
end OpenFlowController.Utility
