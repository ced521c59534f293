import OpenFlowController.Queue.MessageQueue
import OpenFlowController.Table.TableRuns

/-! # The table of outstanding transaction ids

Entries are kept in a hash table whose keys are pointers to the xid field, and
once more in a list of pointers. The address of an entry is that of its xid
field. Where the entries lie in memory is a parameter: only `hash_atom` asks.
-/
namespace OpenFlowController.Xid
open Memory Table Queue

def uint32Max : UInt32 := 4294967295

structure XidEntry where
  xid : UInt32

inductive XidPointer
  | entry (a : ℕ)
  | stack
  deriving DecidableEq

structure XidTable where
  xidHash : HashTable XidPointer ℕ defaultHashSize
  xidEntryList : List ℕ
  entries : Heap XidEntry

variable (place : XidPointer → ℕ)

def ccInitXidTable : XidTable where
  xidHash := createHashWithSize XidPointer ℕ defaultHashSize
  xidEntryList := []
  entries := Heap.empty

/-- The key is the address of the argument, and a found entry is answered with NULL. -/
def ccLookupXidEntry (table : XidTable) (_xid : UInt32) : Option (Option ℕ) := do
  let findEntry ← lookupHashEntry (atomOps place) table.xidHash .stack
  match findEntry with
  | none => return findEntry
  | some _ => return none

/-- `while ( cc_lookup_xid_entry( xid_table_, initial_value ) != NULL )`, over any lookup. -/
def generateLoop (lookup : UInt32 → Option (Option ℕ)) (initialValue : UInt32) : ℕ → UInt32 → Option UInt32
  | 0, _ => none
  | fuel+1, xidLatest => do
    match ← lookup initialValue with
    | none => return xidLatest
    | some _ =>
      let xidLatest := if xidLatest ≠ uint32Max then xidLatest+1 else 0
      if initialValue = xidLatest then return 0
      generateLoop lookup initialValue fuel xidLatest

/-- At the greatest value only `initial_value` starts over, not the counter. The
new counter is also what is returned. -/
def generateXid (lookup : UInt32 → Option (Option ℕ)) (xidLatest : UInt32) : Option UInt32 :=
  if xidLatest ≠ uint32Max then generateLoop lookup (xidLatest+1) UInt32.size (xidLatest+1)
  else generateLoop lookup 0 UInt32.size xidLatest

def ccGenerateXid (table : XidTable) (xidLatest : UInt32) : Option UInt32 :=
  generateXid (ccLookupXidEntry place table) xidLatest

/-- The list cell that is allocated beforehand is only used for an empty list. -/
def appendToTail (list : List ℕ) (data : ℕ) : List ℕ := list++[data]

def ccInsertXidEntry (table : XidTable) (xidLatest : UInt32) : Option (UInt32 × XidTable × UInt32) := do
  let xid ← ccGenerateXid place table xidLatest
  let newEntry := table.entries.next
  let entries := table.entries.alloc ⟨xid⟩
  let xidEntryList := if table.xidEntryList = [] then [newEntry] else appendToTail table.xidEntryList newEntry
  let (_,xidHash) ← insertHashEntry (atomOps place) table.xidHash (.entry newEntry) (some newEntry)
  return (xid,⟨xidHash,xidEntryList,entries⟩,xid)

/-- Answers `CC_E_NONE`, which is 0, for entries with the same xid. -/
def compareXidEntry (entries : Heap XidEntry) (entry findEntry : ℕ) : Option ErrorCode := do
  let e ← entries.load entry
  let f ← entries.load findEntry
  if e.xid ≠ f.xid then return .ccEErr
  return .ccENone

/-- The first element for which `function` does not answer 0. -/
def findListCustom (function : ℕ → Option ErrorCode) : List ℕ → Option (Option ℕ)
  | [] => some none
  | e :: rest => do
    if (← function e).value ≠ 0 then return some e
    findListCustom function rest

/-- The list head is read before it is compared. -/
def deleteElement (list : List ℕ) (data : Option ℕ) : Option (List ℕ) :=
  match list with
  | [] => none
  | list => some (match data with
    | none => list
    | some data => list.erase data)

def ccFreeXidEntry (entries : Heap XidEntry) : Option ℕ → Option (Heap XidEntry)
  | none => some entries
  | some freeEntry => entries.free freeEntry

def ccDeleteXidEntry (table : XidTable) (deleteEntry : ℕ) : Option (ErrorCode × XidTable) := do
  let (deleted,xidHash) ← deleteHashEntry (atomOps place) table.xidHash (.entry deleteEntry)
  match deleted with
  | none => do
    let entries ← ccFreeXidEntry table.entries (some deleteEntry)
    return (.ccEErr,{ table with xidHash, entries })
  | some _ => do
    let found ← findListCustom (fun e => compareXidEntry table.entries e deleteEntry) table.xidEntryList
    let xidEntryList ← deleteElement table.xidEntryList found
    let entries ← ccFreeXidEntry table.entries found
    return (.ccENone,⟨xidHash,xidEntryList,entries⟩)

end OpenFlowController.Xid
