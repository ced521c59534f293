import OpenFlowController.Table.ContentMap

/-! # Keys of hash tables

The pairs of a comparison and a hash function that the library offers for
`create_hash`. The tables take every answer of a comparison but 0 for equality.
-/
namespace OpenFlowController.Utility
open Table

/-- `CC_SUCCESS` and `CC_ERROR`, which are declared nowhere, as the tables need them. Where 0
stands for success, as among the validation codes, they take different keys for equal. -/
structure CompareCodes where
  ccSuccess : UInt32
  ccError : UInt32
  success : ccSuccess ≠ 0
  error : ccError = 0

theorem one_ne_zero_uint32 : (1 : UInt32) ≠ 0 := by decide

def trueAndFalse : CompareCodes := ⟨1,0,one_ne_zero_uint32,rfl⟩

/-- The characters in front of the NUL. -/
structure CString where
  bytes : List UInt8
  noNul : 0 ∉ bytes
  deriving DecidableEq

abbrev Mac := Fin 6 → UInt8

def fnvOffsetBasis : UInt32 := 0x811c9dc5

def fnvPrime : UInt32 := 0x01000193

def hashByte (hashValue : UInt32) (c : UInt8) : UInt32 := (hashValue ^^^ c.toUInt32)*fnvPrime

/-- FNV-1a over the bytes of a key. -/
def hashCore (key : List UInt8) : UInt32 := key.foldl hashByte fnvOffsetBasis

section Functions
variable (codes : CompareCodes)

def compareString (x y : CString) : UInt32 := if x = y then codes.ccSuccess else codes.ccError

def hashString (key : CString) : UInt32 := hashCore key.bytes

def compareMac (x y : Mac) : UInt32 := if x = y then codes.ccSuccess else codes.ccError

def hashMac (mac : Mac) : UInt32 := hashCore (List.ofFn mac)

def compareUint32 (x y : UInt32) : UInt32 := if x = y then codes.ccSuccess else codes.ccError

/-- The remainder by `UINT_MAX`, so that 0 and `UINT_MAX` share a value. -/
def hashUint32 (key : UInt32) : UInt32 := key%0xffffffff

def compareDatapathId (x y : UInt64) : UInt32 := if x = y then codes.ccSuccess else codes.ccError

/-- The bytes of the number as a little-endian host keeps it. -/
def hashDatapathId (key : UInt64) : UInt32 :=
  hashCore (List.ofFn (fun i : Fin 8 => UInt8.ofNat (key.toNat/256^i.val)))

end Functions

def macToUint64 (mac : Mac) : UInt64 :=
  ((mac 0).toUInt64 <<< 40)+((mac 1).toUInt64 <<< 32)+((mac 2).toUInt64 <<< 24)+((mac 3).toUInt64 <<< 16)+
    ((mac 4).toUInt64 <<< 8)+(mac 5).toUInt64

inductive KeyKind
  | string
  | mac
  | uint32
  | datapathId

namespace KeyKind

def Key : KeyKind → Type
  | string => CString
  | mac => Mac
  | uint32 => UInt32
  | datapathId => UInt64

instance (kind : KeyKind) : DecidableEq kind.Key :=
  match kind with
  | string => inferInstanceAs (DecidableEq CString)
  | mac => inferInstanceAs (DecidableEq Mac)
  | uint32 => inferInstanceAs (DecidableEq UInt32)
  | datapathId => inferInstanceAs (DecidableEq UInt64)

def compare (codes : CompareCodes) : (kind : KeyKind) → kind.Key → kind.Key → UInt32
  | string => compareString codes
  | mac => compareMac codes
  | uint32 => compareUint32 codes
  | datapathId => compareDatapathId codes

def hash : (kind : KeyKind) → kind.Key → UInt32
  | string => hashString
  | mac => hashMac
  | uint32 => hashUint32
  | datapathId => hashDatapathId

theorem compare_eq (codes : CompareCodes) (kind : KeyKind) (x y : kind.Key) :
    kind.compare codes x y = if x = y then codes.ccSuccess else codes.ccError := by
  cases kind <;> rfl

theorem compare_ne_zero_iff (codes : CompareCodes) (kind : KeyKind) (x y : kind.Key) :
    kind.compare codes x y ≠ 0 ↔ x = y := by
  rw [compare_eq]
  split
  · exact iff_of_true codes.success (by assumption)
  · exact iff_of_false (fun h => h codes.error) (by assumption)

/-- The functions as a table uses them, for pointers to keys of this kind. -/
def ops {P : Type} (codes : CompareCodes) (kind : KeyKind) (content : P → kind.Key) : KeyOps P where
  compare x y := kind.compare codes (content x) (content y) ≠ 0
  hash x := kind.hash (content x)
  compare_refl x := decide_eq_true ((compare_ne_zero_iff codes kind _ _).mpr rfl)
  compare_symm h := by
    simp only [decide_eq_true_eq,compare_ne_zero_iff] at h ⊢
    exact h.symm
  compare_trans hxy hyz := by
    simp only [decide_eq_true_eq,compare_ne_zero_iff] at hxy hyz ⊢
    exact hxy.trans hyz
  hash_eq h := by
    simp only [decide_eq_true_eq,compare_ne_zero_iff] at h
    rw [h]

theorem ops_seesContents {P : Type} (codes : CompareCodes) (kind : KeyKind) (content : P → kind.Key) :
    SeesContents content (kind.ops codes content) where
  compare _ _ := decide_eq_true_iff.trans (compare_ne_zero_iff codes kind _ _)

end KeyKind

theorem macToUint64_toNat (mac : Mac) : (macToUint64 mac).toNat =
    (((((mac 0).toNat*256+(mac 1).toNat)*256+(mac 2).toNat)*256+(mac 3).toNat)*256+(mac 4).toNat)*256+
      (mac 5).toNat := by
  have h := fun i => (mac i).toNat_lt
  have h0 := h 0
  have h1 := h 1
  have h2 := h 2
  have h3 := h 3
  have h4 := h 4
  have h5 := h 5
  simp only [macToUint64,UInt64.toNat_add,UInt64.toNat_shiftLeft,UInt8.toNat_toUInt64,Nat.shiftLeft_eq,
    UInt64.reduceToNat,Nat.reduceMod,Nat.reducePow] at h0 h1 h2 h3 h4 h5 ⊢
  omega

theorem lastByte_inj {a b : ℕ} {c d : UInt8} (h : a*256+c.toNat = b*256+d.toNat) : a = b ∧ c = d := by
  have hc := c.toNat_lt
  have hd := d.toNat_lt
  exact ⟨by omega,UInt8.toNat_inj.mp (by omega)⟩

/-- The number of an address says which one it is. -/
theorem macToUint64_injective : Function.Injective macToUint64 := by
  intro x y h
  have h5 := congrArg UInt64.toNat h
  rw [macToUint64_toNat,macToUint64_toNat] at h5
  obtain ⟨h4,e5⟩ := lastByte_inj h5
  obtain ⟨h3,e4⟩ := lastByte_inj h4
  obtain ⟨h2,e3⟩ := lastByte_inj h3
  obtain ⟨h1,e2⟩ := lastByte_inj h2
  obtain ⟨h0,e1⟩ := lastByte_inj h1
  have e0 := UInt8.toNat_inj.mp h0
  funext i
  match i with
  | 0 => exact e0
  | 1 => exact e1
  | 2 => exact e2
  | 3 => exact e3
  | 4 => exact e4
  | 5 => exact e5

/-- It makes no difference whether addresses or their numbers are the keys. -/
theorem macTable_agrees {P V : Type} (codes : CompareCodes) (mac : P → Mac) (size : ℕ+) (calls : List (TableCall P V)) :
    ∃ byMac byNumber, runCalls (KeyKind.mac.ops codes mac) (createHashWithSize P V size) calls = some byMac ∧
      runCalls (KeyKind.datapathId.ops codes (macToUint64 ∘ mac)) (createHashWithSize P V size) calls = some byNumber ∧
      ∀ key, lookupHashEntry (KeyKind.mac.ops codes mac) byMac key =
        lookupHashEntry (KeyKind.datapathId.ops codes (macToUint64 ∘ mac)) byNumber key := by
  obtain ⟨byMac,hmac,hm⟩ := runCalls_showsMap (KeyKind.mac.ops_seesContents codes mac) size calls
  obtain ⟨byNumber,hnumber,hn⟩ :=
    runCalls_showsMap (KeyKind.datapathId.ops_seesContents codes (macToUint64 ∘ mac)) size calls
  refine ⟨byMac,byNumber,hmac,hnumber,fun key => ?_⟩
  rw [hm.lookups,hn.lookups]
  exact congrArg (fun bound => some bound.join) (contentsBound_comp macToUint64_injective calls (mac key)).symm

/-- A table for keys of any of the four kinds is a map on what its keys point to, whatever pointers
are passed. -/
theorem keyTable_showsMap {P V : Type} (codes : CompareCodes) (size : ℕ+) (calls : List (TableCall P V)) :
    (∀ (kind : KeyKind) (content : P → kind.Key),
      ∃ table, runCalls (kind.ops codes content) (createHashWithSize P V size) calls = some table ∧
        ShowsMap content (kind.ops codes content) table (contentsBound content calls)) ∧
    ∀ mac : P → Mac,
      ∃ byMac byNumber, runCalls (KeyKind.mac.ops codes mac) (createHashWithSize P V size) calls = some byMac ∧
        runCalls (KeyKind.datapathId.ops codes (macToUint64 ∘ mac)) (createHashWithSize P V size) calls = some byNumber ∧
        ∀ key, lookupHashEntry (KeyKind.mac.ops codes mac) byMac key =
          lookupHashEntry (KeyKind.datapathId.ops codes (macToUint64 ∘ mac)) byNumber key :=
  ⟨fun kind content => runCalls_showsMap (kind.ops_seesContents codes content) size calls,
    fun mac => macTable_agrees codes mac size calls⟩

/-- Keys with the same hash value behind the first two pointers; the second is deleted through a third. -/
def sharedHashCalls : List (TableCall ℕ ℕ) := [.insert 0 (some 10),.insert 1 (some 11),.delete 2]

def largestThenZero (p : ℕ) : UInt32 := if p = 0 then 0xffffffff else 0

theorem keyTable_showsMap_sharedHash :
    ∃ table, runCalls (KeyKind.uint32.ops trueAndFalse largestThenZero) (createHashWithSize ℕ ℕ 2) sharedHashCalls =
        some table ∧
      ShowsMap largestThenZero (KeyKind.uint32.ops trueAndFalse largestThenZero) table
        (contentsBound largestThenZero sharedHashCalls) :=
  (keyTable_showsMap trueAndFalse 2 sharedHashCalls).1 .uint32 largestThenZero

/-! ## Hash values that differ -/

theorem fnvPrime_cancel {a b : UInt32} (h : a*fnvPrime = b*fnvPrime) : a = b := by
  have hinverse : fnvPrime*0x359c449b = 1 := by decide
  have hmul := congrArg (·*0x359c449b) h
  simp only [UInt32.mul_assoc,hinverse,UInt32.mul_one] at hmul
  exact hmul

theorem hashByte_left_inj {a b : UInt32} {c : UInt8} : hashByte a c = hashByte b c ↔ a = b := by
  refine ⟨fun h => ?_,fun h => h ▸ rfl⟩
  exact (UInt32.xor_left_inj _).mp (fnvPrime_cancel h)

theorem hashByte_right_inj {a : UInt32} {c d : UInt8} : hashByte a c = hashByte a d ↔ c = d := by
  refine ⟨fun h => ?_,fun h => h ▸ rfl⟩
  exact UInt8.toUInt32_inj.mp ((UInt32.xor_right_inj _).mp (fnvPrime_cancel h))

/-- Every byte permutes the states, so a difference is never lost again. -/
theorem foldl_hashByte_inj {a b : UInt32} (after : List UInt8) :
    after.foldl hashByte a = after.foldl hashByte b ↔ a = b := by
  induction after generalizing a b with
  | nil => rfl
  | cons c after ih => exact ih.trans hashByte_left_inj

/-- Keys that differ in exactly one byte never collide. -/
theorem hashCore_ne_of_one_byte (before after : List UInt8) {c d : UInt8} (h : c ≠ d) :
    hashCore (before++c :: after) ≠ hashCore (before++d :: after) := by
  simp only [hashCore,List.foldl_append,List.foldl_cons]
  rw [Ne,foldl_hashByte_inj,hashByte_right_inj]
  exact h

theorem hashCore_ne_lastByte : hashCore [10,0,0,1] ≠ hashCore [10,0,0,2] :=
  hashCore_ne_of_one_byte [10,0,0] [] (by decide)

end OpenFlowController.Utility
