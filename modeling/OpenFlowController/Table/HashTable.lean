import Mathlib.Data.PNat.Basic
import OpenFlowController.Table.DoubleLink
import OpenFlowController.Table.KeyHistory

/-! # The hash table

A bucket is a list of elements behind a sentinel, created with its first entry
and deleted with its last one. The buckets in use are threaded on a second list,
and the sentinel of a bucket points back to its node there. All elements live in
one heap, the entries in another.
-/
namespace OpenFlowController.Table
open Memory

inductive TableData (numberOfBuckets : ℕ+)
  | bucketIndex (i : Fin numberOfBuckets)
  | indexNode (element : ℕ)
  | hashEntry (entry : ℕ)

structure HashEntry (K V : Type) where
  key : K
  value : Option V

structure HashTable (K V : Type) (numberOfBuckets : ℕ+) where
  length : UInt32
  buckets : Fin numberOfBuckets → Option ℕ
  nonemptyBucketIndex : ℕ
  elements : Heap (DlistElement (TableData numberOfBuckets))
  entries : Heap (HashEntry K V)

section Operations
variable {K V : Type} {numberOfBuckets : ℕ+} (ops : KeyOps K)

def createHashWithSize (K V : Type) (size : ℕ+) : HashTable K V size where
  length := 0
  buckets _ := none
  nonemptyBucketIndex := (createDlist (Heap.empty : Heap (DlistElement (TableData size)))).1
  elements := (createDlist Heap.empty).2
  entries := Heap.empty

def getBucketIndex (numberOfBuckets : ℕ+) (key : K) : Fin numberOfBuckets :=
  ⟨(ops.hash key).toNat % numberOfBuckets,Nat.mod_lt _ numberOfBuckets.pos⟩

/-- The walk shared by the three operations: the element, the address and the
contents of the first entry with an equal key. -/
def findEntry (elements : Heap (DlistElement (TableData numberOfBuckets)))
    (entries : Heap (HashEntry K V)) (key : K) : ℕ → Option ℕ → Option (Option (ℕ × ℕ × HashEntry K V))
  | _, none => some none
  | 0, some _ => none
  | fuel+1, some e => do
    let element ← elements.load e
    match element.data with
    | some (.hashEntry a) => do
      let entry ← entries.load a
      if ops.compare key entry.key then return some (e,a,entry)
      findEntry elements entries key fuel element.next
    | _ => none

def searchBucket (table : HashTable K V numberOfBuckets) (key : K) :
    Option (Option (ℕ × ℕ × HashEntry K V)) :=
  match table.buckets (getBucketIndex ops numberOfBuckets key) with
  | none => some none
  | some bucket => do
    let sentinel ← table.elements.load bucket
    findEntry ops table.elements table.entries key table.elements.next sentinel.next

def newBucket (table : HashTable K V numberOfBuckets) (i : Fin numberOfBuckets) :
    Option (HashTable K V numberOfBuckets) := do
  let bucket := (createDlist table.elements).1
  let elements := (createDlist table.elements).2
  let (node,elements) ← insertAfterDlist elements table.nonemptyBucketIndex (some (.bucketIndex i))
  let elements ← elements.modify bucket (fun c => { c with data := some (.indexNode node) })
  return { table with buckets := Function.update table.buckets i (some bucket), elements }

def deleteBucket (table : HashTable K V numberOfBuckets) (i : Fin numberOfBuckets) :
    Option (HashTable K V numberOfBuckets) := do
  let bucket ← table.buckets i
  let sentinel ← table.elements.load bucket
  let elements ← match sentinel.data with
    | none => pure table.elements
    | some (.indexNode node) => do
      let elements ← deleteDlistElement table.elements node
      elements.modify bucket (fun c => { c with data := none })
    | some _ => none
  let elements ← deleteDlist elements bucket
  return { table with buckets := Function.update table.buckets i none, elements }

def lookupHashEntry (table : HashTable K V numberOfBuckets) (key : K) : Option (Option V) := do
  let found ← searchBucket ops table key
  match found with
  | none => return none
  | some (_,_,entry) => return entry.value

def deleteHashEntry (table : HashTable K V numberOfBuckets) (key : K) :
    Option (Option V × HashTable K V numberOfBuckets) :=
  let i := getBucketIndex ops numberOfBuckets key
  match table.buckets i with
  | none => some (none,table)
  | some bucket => do
    let found ← searchBucket ops table key
    let (deleted,table) ← match found with
      | none => pure (none,table)
      | some (e,deleteMe,entry) => do
        let elements ← deleteDlistElement table.elements e
        let entries ← table.entries.free deleteMe
        pure (entry.value,{ table with elements, entries, length := table.length-1 })
    let sentinel ← table.elements.load bucket
    match sentinel.next with
    | none => do
      let table ← deleteBucket table i
      return (deleted,table)
    | some _ => return (deleted,table)

/-- The second half of an insert: the key is in no entry of the table. -/
def addEntry (table : HashTable K V numberOfBuckets) (key : K) (value : Option V) :
    Option (HashTable K V numberOfBuckets) := do
  let i := getBucketIndex ops numberOfBuckets key
  let table ← match table.buckets i with
    | none => newBucket table i
    | some _ => pure table
  let bucket ← table.buckets i
  let newEntry := table.entries.next
  let entries := table.entries.alloc ⟨key,value⟩
  let (_,elements) ← insertAfterDlist table.elements bucket (some (.hashEntry newEntry))
  return { table with elements, entries, length := table.length+1 }

/-- An equal key is deleted first, possibly together with its bucket. -/
def insertHashEntry (table : HashTable K V numberOfBuckets) (key : K) (value : Option V) :
    Option (Option V × HashTable K V numberOfBuckets) := do
  let found ← searchBucket ops table key
  match found with
  | none => do
    let table ← addEntry ops table key value
    return (none,table)
  | some (_,_,entry) => do
    let (_,table) ← deleteHashEntry ops table key
    let table ← addEntry ops table key value
    return (entry.value,table)

end Operations

def compareAtom {P : Type} [DecidableEq P] (x y : P) : Bool := decide (x = y)

def hashAtom (key : ℕ) : UInt32 := UInt32.ofNat (key >>> 2)

/-- `create_hash( NULL, NULL )` for pointers at the given addresses. -/
def atomOps {P : Type} [DecidableEq P] (addressOf : P → ℕ) : KeyOps P where
  compare := compareAtom
  hash key := hashAtom (addressOf key)
  compare_refl x := by simp [compareAtom]
  compare_symm h := by simpa [compareAtom,eq_comm] using h
  compare_trans hxy hyz := by
    simp only [compareAtom,decide_eq_true_eq] at hxy hyz ⊢
    exact hxy.trans hyz
  hash_eq h := by
    simp only [compareAtom,decide_eq_true_eq] at h
    rw [h]

@[simp] theorem atomOps_compare {P : Type} [DecidableEq P] (addressOf : P → ℕ) (x y : P) :
    (atomOps addressOf).compare x y = decide (x = y) := rfl

def defaultHashSize : ℕ+ := 1024

end OpenFlowController.Table
