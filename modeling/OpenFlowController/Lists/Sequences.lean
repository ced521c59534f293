import OpenFlowController.Lists.Deletion
import OpenFlowController.Memory.LiveCells

/-! # Singly linked lists as sequences

All operations of a list in one run, also those that walk over it and the one that
deletes it whole. A list that a second `create_list` gives up stays in memory, so a run
also counts the elements that nothing leads to any more.
-/
namespace OpenFlowController.Lists
open Memory Memory.Heap Queue

variable {D U : Type}

/-- `for ( e = head->next; e; e = e->next, length++ );` -/
def countElements (elements : Heap (ListElement D)) : ℕ → Option ℕ → UInt32 → Option UInt32
  | _, none, length => some length
  | 0, some _, _ => none
  | fuel+1, some e, length => do
    let element ← elements.load e
    countElements elements fuel element.next (length+1)

def listLengthOf (list : SingleList D) : Option UInt32 :=
  match list.head with
  | none => some 0
  | some head => do
    let element ← list.elements.load head
    countElements list.elements list.elements.next element.next 1

/-- The function may fail on what `data` points to, and leaves the list alone. -/
def iterateElements (elements : Heap (ListElement D)) (function : D → U → Option U) :
    ℕ → Option ℕ → U → Option U
  | _, none, userData => some userData
  | 0, some _, _ => none
  | fuel+1, some e, userData => do
    let element ← elements.load e
    let userData ← function element.data userData
    iterateElements elements function fuel element.next userData

def iterateList (list : SingleList D) (function : D → U → Option U) (userData : U) : Option U :=
  iterateElements list.elements function list.elements.next list.head userData

/-- An answer other than 0 ends the search. -/
def searchElements (elements : Heap (ListElement D)) (function : D → Option UInt32) : ℕ → Option ℕ → Option (Option D)
  | _, none => some none
  | 0, some _ => none
  | fuel+1, some e => do
    let element ← elements.load e
    if (← function element.data) ≠ 0 then return some element.data
    searchElements elements function fuel element.next

def findListCustom (list : SingleList D) (function : D → Option UInt32) : Option (Option D) :=
  searchElements list.elements function list.elements.next list.head

/-- The next pointer is read before the element is freed. -/
def deleteElements : ℕ → Option ℕ → Heap (ListElement D) → Option (Heap (ListElement D))
  | _, none, elements => some elements
  | 0, some _, _ => none
  | fuel+1, some deleteMe, elements => do
    let element ← elements.load deleteMe
    let elements ← elements.free deleteMe
    deleteElements fuel element.next elements

def deleteList (list : SingleList D) : Option (Heap (ListElement D)) :=
  deleteElements list.elements.next list.head list.elements

/-! ## Sequences -/

/-- The contents, and how many elements were given up with their lists. -/
structure Sequence (D : Type) where
  contents : List D
  lost : ℕ

inductive SequenceCall (D : Type)
  | createList
  | insertInFront (data : D)
  | insertBefore (sibling data : D)
  | appendToTail (data : D)
  | deleteElement (data : D)

def searchFirst (function : D → Option UInt32) : List D → Option (Option D)
  | [] => some none
  | data :: rest => do
    if (← function data) ≠ 0 then return some data
    searchFirst function rest

/-- What a run of calls leaves shows in every operation that only reads, and what deleting
the list leaves is what was lost. -/
structure Shows (list : SingleList D) (s : Sequence D) : Prop where
  length : listLengthOf list = some (UInt32.ofNat s.contents.length)
  iterate : ∀ {U : Type} (function : D → U → Option U) (userData : U),
    iterateList list function userData = s.contents.foldlM (fun userData data => function data userData) userData
  find : ∀ function, findListCustom list function = searchFirst function s.contents
  memory : list.elements.live.card = s.contents.length+s.lost
  delete : ∃ elements, deleteList list = some elements ∧ elements.live.card = s.lost

section Walks
variable {elements : Heap (ListElement D)} {p : Option ℕ} {cells : List (ℕ × ListElement D)} {fuel : ℕ}

theorem countElements_eq (hs : elements.Segment ListElement.next p cells none) (hf : cells.length ≤ fuel)
    (length : UInt32) : countElements elements fuel p length = some (length+UInt32.ofNat cells.length) := by
  induction cells generalizing p fuel length with
  | nil =>
    obtain rfl : p = none := hs
    cases fuel <;> simp [countElements]
  | cons x cells ih =>
    obtain ⟨a,c⟩ := x
    obtain ⟨rfl,hc,hrest⟩ := hs
    rw [List.length_cons] at hf ⊢
    obtain ⟨fuel,rfl⟩ : ∃ k, fuel = k+1 := ⟨fuel-1,by omega⟩
    rw [countElements,hc,Option.bind_eq_bind,Option.bind_some,ih hrest (Nat.le_of_succ_le_succ hf),UInt32.ofNat_add,
      UInt32.add_assoc,UInt32.add_comm 1]
    rfl

theorem iterateElements_eq (hs : elements.Segment ListElement.next p cells none) (hf : cells.length ≤ fuel)
    (function : D → U → Option U) (userData : U) : iterateElements elements function fuel p userData =
      (cells.map (fun x => x.2.data)).foldlM (fun userData data => function data userData) userData := by
  induction cells generalizing p fuel userData with
  | nil =>
    obtain rfl : p = none := hs
    cases fuel <;> rfl
  | cons x cells ih =>
    obtain ⟨a,c⟩ := x
    obtain ⟨rfl,hc,hrest⟩ := hs
    rw [List.length_cons] at hf
    obtain ⟨fuel,rfl⟩ : ∃ k, fuel = k+1 := ⟨fuel-1,by omega⟩
    rw [iterateElements,hc,Option.bind_eq_bind,Option.bind_some,List.map_cons,List.foldlM_cons]
    exact congrArg _ (funext fun userData => ih hrest (Nat.le_of_succ_le_succ hf) userData)

theorem searchElements_eq (hs : elements.Segment ListElement.next p cells none) (hf : cells.length ≤ fuel)
    (function : D → Option UInt32) :
    searchElements elements function fuel p = searchFirst function (cells.map (fun x => x.2.data)) := by
  induction cells generalizing p fuel with
  | nil =>
    obtain rfl : p = none := hs
    cases fuel <;> rfl
  | cons x cells ih =>
    obtain ⟨a,c⟩ := x
    obtain ⟨rfl,hc,hrest⟩ := hs
    rw [List.length_cons] at hf
    obtain ⟨fuel,rfl⟩ : ∃ k, fuel = k+1 := ⟨fuel-1,by omega⟩
    rw [searchElements,hc,Option.bind_eq_bind,Option.bind_some,List.map_cons,searchFirst,
      ih hrest (Nat.le_of_succ_le_succ hf)]

theorem deleteElements_eq (hs : elements.Segment ListElement.next p cells none) (hf : cells.length ≤ fuel) :
    ∃ elements', deleteElements fuel p elements = some elements' ∧
      elements'.live.card+cells.length = elements.live.card := by
  induction cells generalizing p fuel elements with
  | nil =>
    obtain rfl : p = none := hs
    exact ⟨elements,by cases fuel <;> rfl,rfl⟩
  | cons x cells ih =>
    obtain ⟨a,c⟩ := x
    have hnd := hs.nodup
    rw [List.map_cons,List.nodup_cons] at hnd
    obtain ⟨rfl,hc,hrest⟩ := hs
    rw [List.length_cons] at hf ⊢
    obtain ⟨fuel,rfl⟩ : ∃ k, fuel = k+1 := ⟨fuel-1,by omega⟩
    have hfree := free_eq hc
    obtain ⟨elements',hrun,hcard⟩ := ih (hrest.put hnd.1 none) (Nat.le_of_succ_le_succ hf)
    refine ⟨elements',?_,?_⟩
    · rw [deleteElements,hc,Option.bind_eq_bind,Option.bind_some,hfree]
      exact hrun
    · have hone : (elements.put a none).live.card+1 = elements.live.card := card_live_of_free hfree
      have hcard : elements'.live.card+cells.length = (elements.put a none).live.card := hcard
      omega

end Walks

theorem Holds.shows {list : SingleList D} {items : List (ℕ × D)} (hl : Holds list items) {lost : ℕ}
    (hm : list.elements.live.card = items.length+lost) : Shows list ⟨items.map Prod.snd,lost⟩ := by
  obtain ⟨cells,hs,rfl⟩ := hl
  have hf := length_le_next hs
  have hdata : (cells.map itemOf).map Prod.snd = cells.map (fun x => x.2.data) := List.map_map
  rw [hdata]
  rw [List.length_map] at hm
  refine ⟨?_,?_,?_,?_,?_⟩
  · rw [listLengthOf,List.length_map]
    cases cells with
    | nil =>
      have hhead : list.head = none := hs
      rw [hhead]
      rfl
    | cons x cells =>
      obtain ⟨a,c⟩ := x
      obtain ⟨hhead,hc,hrest⟩ := hs
      simp only [hhead,hc,Option.bind_eq_bind,Option.bind_some]
      rw [countElements_eq hrest (Nat.le_of_succ_le hf),List.length_cons,UInt32.ofNat_add,UInt32.add_comm]
      rfl
  · exact fun function userData => iterateElements_eq hs hf function userData
  · exact searchElements_eq hs hf
  · rwa [List.length_map]
  · obtain ⟨elements,hrun,hcard⟩ := deleteElements_eq hs hf
    have hlost : elements.live.card = lost := by omega
    exact ⟨elements,hrun,hlost⟩

/-! ## Runs -/

/-- The list is the sequence, and its elements and the lost ones are all there are. -/
structure Represents (list : SingleList D) (s : Sequence D) : Prop where
  holds : ∃ items, Holds list items ∧ items.map Prod.snd = s.contents
  memory : list.elements.live.card = s.contents.length+s.lost

theorem Represents.shows {list : SingleList D} {s : Sequence D} (h : Represents list s) : Shows list s := by
  obtain ⟨contents,lost⟩ := s
  obtain ⟨⟨items,hl,hitems⟩,hm⟩ := h
  obtain rfl : items.map Prod.snd = contents := hitems
  have hm : list.elements.live.card = (items.map Prod.snd).length+lost := hm
  rw [List.length_map] at hm
  exact hl.shows hm

/-- An element that is allocated and not linked is lost. -/
theorem Represents.allocated {list : SingleList D} {s : Sequence D} (h : Represents list s) (element : ListElement D) :
    Represents { list with elements := list.elements.alloc element } { s with lost := s.lost+1 } := by
  obtain ⟨⟨items,⟨cells,hs,rfl⟩,hitems⟩,hm⟩ := h
  refine ⟨⟨_,⟨cells,hs.alloc element,rfl⟩,hitems⟩,?_⟩
  rw [card_live_alloc,hm,Nat.add_assoc]

theorem Represents.contents_nil {list : SingleList D} {s : Sequence D} (h : Represents list s)
    (hhead : list.head = none) : s.contents = [] := by
  obtain ⟨⟨items,⟨cells,hs,rfl⟩,hitems⟩,-⟩ := h
  rw [hhead] at hs
  cases cells with
  | nil => exact hitems.symm
  | cons x cells => cases hs.1

theorem card_live_appendToTail {list list' : SingleList D} {data : D} {ret : ErrorCode}
    (h : appendToTail list data = some (ret,list')) :
    list'.elements.live.card = list.elements.live.card+1 := by
  rw [appendToTail] at h
  cases hhead : list.head with
  | none =>
    rw [hhead] at h
    cases h
    exact card_live_alloc _ _
  | some e =>
    rw [hhead] at h
    simp only [Option.bind_eq_bind,Option.bind_eq_some_iff] at h
    obtain ⟨_,-,elements,hmodify,h⟩ := h
    cases h
    rw [live_of_modify hmodify,card_live_alloc]

variable [DecidableEq D]

def runSequenceCall (list : SingleList D) : SequenceCall D → Option (ErrorCode × SingleList D)
  | .createList => some (createList list)
  | .insertInFront data => some (insertInFront list data)
  | .insertBefore sibling data => insertBefore list sibling data
  | .appendToTail data => appendToTail list data
  | .deleteElement data => deleteElement list data

/-- In front of the first `sibling`, if there is one. -/
def placeBefore (sibling data : D) : List D → Option (List D)
  | [] => none
  | first :: rest =>
    if first = sibling then some (data :: first :: rest)
    else (placeBefore sibling data rest).map (first :: ·)

/-- The first element is never taken for the sibling, and an empty list is only provided
for by the calls that add to it. -/
def sequenceStep (s : Sequence D) : SequenceCall D → Option (ErrorCode × Sequence D)
  | .createList => some (.ccENone,⟨[],s.contents.length+s.lost⟩)
  | .insertInFront data => some (.ccENone,{ s with contents := data :: s.contents })
  | .insertBefore sibling data =>
    match s.contents with
    | [] => none
    | first :: rest =>
      match placeBefore sibling data rest with
      | none => some (.ccEErr,s)
      | some rest => some (.ccENone,{ s with contents := first :: rest })
  | .appendToTail data => some (.ccENone,{ s with contents := s.contents++[data] })
  | .deleteElement data =>
    if s.contents = [] then none
    else if data ∈ s.contents then some (.ccENone,{ s with contents := s.contents.erase data })
    else some (.ccEErr,s)

/-- The answers of the calls are collected. -/
def runSequence (list : SingleList D) : List (SequenceCall D) → Option (List ErrorCode × SingleList D)
  | [] => some ([],list)
  | call :: calls => do
    let (ret,list) ← runSequenceCall list call
    let (rets,list) ← runSequence list calls
    return (ret :: rets,list)

def sequenceOf (s : Sequence D) : List (SequenceCall D) → Option (List ErrorCode × Sequence D)
  | [] => some ([],s)
  | call :: calls => do
    let (ret,s) ← sequenceStep s call
    let (rets,s) ← sequenceOf s calls
    return (ret :: rets,s)

section Runs
variable {list list' : SingleList D} {s : Sequence D} {sibling data : D}

theorem card_live_insertBefore (h : insertBefore list sibling data = some (.ccENone,list')) :
    list'.elements.live.card = list.elements.live.card+1 := by
  simp only [insertBefore,Option.bind_eq_bind,Option.bind_eq_some_iff] at h
  obtain ⟨_,-,found,-,h⟩ := h
  cases found with
  | none => cases h
  | some e =>
    simp only [Option.bind_eq_some_iff] at h
    obtain ⟨_,-,elements,hmodify,h⟩ := h
    cases h
    rw [live_of_modify hmodify,card_live_alloc]

theorem card_live_deleteElement (h : deleteElement list data = some (.ccENone,list')) :
    list'.elements.live.card+1 = list.elements.live.card := by
  simp only [deleteElement,Option.bind_eq_bind,Option.bind_eq_some_iff] at h
  obtain ⟨e,-,element,-,h⟩ := h
  split at h
  · obtain ⟨elements,hfree,h⟩ := Option.bind_eq_some_iff.mp h
    cases h
    exact card_live_of_free hfree
  · obtain ⟨found,-,h⟩ := Option.bind_eq_some_iff.mp h
    cases found with
    | none => cases h
    | some e =>
      simp only [Option.bind_eq_some_iff] at h
      obtain ⟨_,-,_,-,_,-,elements,hmodify,elements',hfree,h⟩ := h
      cases h
      rw [← live_of_modify hmodify]
      exact card_live_of_free hfree

/-- From any first element the search stops in front of the first match behind it. -/
theorem lookAhead_behind {elements : Heap (ListElement D)} {e : ℕ} {c : ListElement D}
    {rest : List (ℕ × ListElement D)} (hs : elements.Segment ListElement.next (some e) ((e,c) :: rest) none)
    {fuel : ℕ} (hf : rest.length < fuel) (sibling : D) :
    (∃ xs a ca b d zs, (e,c) :: rest = xs++(a,ca) :: (b,d) :: zs ∧ d.data = sibling ∧
      (∀ x ∈ (xs++[(a,ca)]).tail, x.2.data ≠ sibling) ∧ lookAhead elements sibling fuel e = some (some a)) ∨
    (∀ x ∈ rest, x.2.data ≠ sibling) ∧ lookAhead elements sibling fuel e = some none := by
  obtain ⟨fuel,rfl⟩ : ∃ k, fuel = k+1 := ⟨fuel-1,by omega⟩
  cases rest with
  | nil =>
    obtain ⟨-,hc,hnext⟩ := hs
    replace hnext : c.next = none := hnext
    right
    simp [lookAhead,hc,hnext]
  | cons y rest =>
    obtain ⟨b,d⟩ := y
    obtain ⟨-,hc,hnext,hd,hrest⟩ := hs
    rw [lookAhead,hc,Option.bind_eq_bind,Option.bind_some]
    simp only [hnext,hd,Option.bind_some]
    by_cases hdata : d.data = sibling
    · rw [if_pos hdata]
      exact .inl ⟨[],e,c,b,d,rest,rfl,hdata,by simp,rfl⟩
    · rw [if_neg hdata]
      rw [List.length_cons] at hf
      -- the second element does not match, so the search from there is known
      rcases lookAhead_spec ⟨rfl,hd,hrest⟩ hdata (Nat.lt_of_succ_lt_succ hf) with
        ⟨xs,a,ca,b',d',zs,hcells,hd',hxs,hrun⟩ | ⟨habsent,hrun⟩
      · refine .inl ⟨(e,c) :: xs,a,ca,b',d',zs,by rw [hcells,List.cons_append],hd',?_,hrun⟩
        exact hxs
      · exact .inr ⟨habsent,hrun⟩

theorem placeBefore_none {contents : List D} (h : ∀ x ∈ contents, x ≠ sibling) :
    placeBefore sibling data contents = none := by
  induction contents with
  | nil => rfl
  | cons first rest ih =>
    obtain ⟨hfirst,hrest⟩ := List.forall_mem_cons.mp h
    rw [placeBefore,if_neg hfirst,ih hrest]
    rfl

theorem placeBefore_split {before after : List D} (h : ∀ x ∈ before, x ≠ sibling) :
    placeBefore sibling data (before++sibling :: after) = some (before++data :: sibling :: after) := by
  induction before with
  | nil => exact if_pos rfl
  | cons first before ih =>
    obtain ⟨hfirst,hbefore⟩ := List.forall_mem_cons.mp h
    rw [List.cons_append,placeBefore,if_neg hfirst,ih hbefore]
    rfl

theorem length_of_placeBefore {contents contents' : List D} (h : placeBefore sibling data contents = some contents') :
    contents'.length = contents.length+1 := by
  induction contents generalizing contents' with
  | nil => cases h
  | cons first rest ih =>
    rw [placeBefore] at h
    split at h
    · cases h
      rfl
    · obtain ⟨rest',hrest,rfl⟩ := Option.map_eq_some_iff.mp h
      exact congrArg (·+1) (ih hrest)

theorem insertBefore_contents {first : ℕ × D} {rest : List (ℕ × D)} (hl : Holds list (first :: rest))
    (sibling data : D) :
    (placeBefore sibling data (rest.map Prod.snd) = none ∧ insertBefore list sibling data = some (.ccEErr,list)) ∨
    ∃ list' items', insertBefore list sibling data = some (.ccENone,list') ∧ Holds list' (first :: items') ∧
      placeBefore sibling data (rest.map Prod.snd) = some (items'.map Prod.snd) := by
  obtain ⟨cells,hs,hcells⟩ := hl
  obtain ⟨⟨e,c⟩,cells,rfl,rfl,rfl⟩ := List.map_eq_cons_iff.mp hcells
  have hhead : list.head = some e := hs.1
  have hlen := length_le_next hs
  rcases lookAhead_behind (hhead ▸ hs) (Nat.lt_of_succ_le hlen) sibling with
    ⟨xs,a,ca,b,d,zs,hsplit,rfl,hxs,hrun⟩ | ⟨habsent,hrun⟩
  · right
    rw [hsplit] at hs
    have hca := hs.load_of_mem (x := (a,ca)) (by simp)
    have hne := Heap.ne_next hca
    have hs' := hs.alloc ⟨ca.next,data⟩
    obtain ⟨hto,hback⟩ := Heap.Segment.relink hs' { ca with next := some list.elements.next }
    have hnew :=
      list.elements.load_put_alloc_next ⟨ca.next,data⟩ hne (some { ca with next := some list.elements.next })
    have hitems : ∃ before, (xs++[(a,ca)]).map itemOf = itemOf (e,c) :: before.map itemOf ∧
        cells = before++(b,d) :: zs ∧ ∀ x ∈ before, x.2.data ≠ d.data := by
      cases xs with
      | nil =>
        obtain ⟨hfirst,hrest⟩ := List.cons.inj hsplit
        exact ⟨[],by rw [← hfirst]; rfl,hrest,nofun⟩
      | cons x xs =>
        obtain ⟨hfirst,hrest⟩ := List.cons.inj hsplit
        refine ⟨xs++[(a,ca)],by rw [← hfirst]; rfl,by rw [hrest]; simp,hxs⟩
    obtain ⟨before,hfront,hcells,hbefore⟩ := hitems
    refine ⟨⟨list.head,_⟩,before.map itemOf++(list.elements.next,data) :: (b,d.data) :: zs.map itemOf,?_,
      ⟨xs++[(a,_)]++(list.elements.next,_) :: (b,d) :: zs,
        Heap.Segment.append_iff.mpr ⟨_,hto,rfl,hnew,hback⟩,?_⟩,?_⟩
    · rw [insertBefore,hhead,Option.bind_eq_bind,Option.bind_some,hrun]
      simp only [Option.bind_eq_bind,Option.bind_some,hca]
      rw [Heap.modify_eq ((Heap.load_alloc_of_ne _ _ hne).trans hca)]
      rfl
    · rw [← List.cons_append,← hfront]
      simp
    · rw [hcells]
      simp only [List.map_append,List.map_cons]
      refine placeBefore_split (fun x hx => ?_)
      obtain ⟨y,hy,rfl⟩ := List.mem_map.mp hx
      obtain ⟨z,hz,rfl⟩ := List.mem_map.mp hy
      exact hbefore z hz
  · left
    refine ⟨placeBefore_none (fun x hx => ?_),?_⟩
    · obtain ⟨y,hy,rfl⟩ := List.mem_map.mp hx
      obtain ⟨z,hz,rfl⟩ := List.mem_map.mp hy
      exact habsent z hz
    · rw [insertBefore,hhead,Option.bind_eq_bind,Option.bind_some,hrun]
      rfl

/-- Step lemma: a call has a result exactly if the sequence has one, the same answer, and
leaves the list that the sequence says. -/
theorem Represents.call (h : Represents list s) (call : SequenceCall D) :
    match sequenceStep s call with
    | some (ret,s') => ∃ list', runSequenceCall list call = some (ret,list') ∧ Represents list' s'
    | none => runSequenceCall list call = none := by
  obtain ⟨contents,lost⟩ := s
  obtain ⟨⟨items,hl,hitems⟩,hm⟩ := h
  obtain rfl : items.map Prod.snd = contents := hitems
  have hm : list.elements.live.card = (items.map Prod.snd).length+lost := hm
  cases call with
  | createList =>
    refine ⟨_,rfl,⟨[],holds_createList list,rfl⟩,?_⟩
    exact hm.trans (Nat.zero_add _).symm
  | insertInFront data =>
    refine ⟨_,rfl,⟨_,holds_insertInFront hl data,rfl⟩,?_⟩
    have hcard := card_live_alloc list.elements (⟨list.head,data⟩ : ListElement D)
    simp only [List.length_cons]
    omega
  | insertBefore sibling data =>
    cases items with
    | nil =>
      rw [sequenceStep,List.map_nil,runSequenceCall,insertBefore,Holds.nil_iff.mp hl]
      rfl
    | cons first rest =>
      simp only [sequenceStep,List.map_cons,runSequenceCall]
      rcases insertBefore_contents hl sibling data with ⟨hplace,hrun⟩ | ⟨list',items',hrun,hl',hplace⟩
      · rw [hplace]
        exact ⟨list,hrun,⟨_,hl,rfl⟩,hm⟩
      · rw [hplace]
        refine ⟨list',hrun,⟨_,hl',rfl⟩,?_⟩
        have hcard := card_live_insertBefore hrun
        have hlength := length_of_placeBefore hplace
        simp only [List.map_cons,List.length_cons] at hm ⊢
        omega
  | appendToTail data =>
    obtain ⟨list',hrun,hl'⟩ := appendToTail_spec hl data
    refine ⟨list',hrun,⟨_,hl',List.map_append⟩,?_⟩
    have hcard := card_live_appendToTail hrun
    simp only [List.length_append,List.length_singleton]
    omega
  | deleteElement data =>
    rw [sequenceStep]
    by_cases hempty : items = []
    · subst hempty
      exact deleteElement_nil hl data
    · rw [if_neg (by simpa using hempty)]
      rcases (removesFirst_iff hl data).mpr hempty with ⟨xs,a,ys,list',rfl,hxs,hrun,hl',-⟩ | ⟨habsent,hrun⟩
      · have hout : data ∉ xs.map Prod.snd := fun hmem => by
          obtain ⟨x,hx,hdata⟩ := List.mem_map.mp hmem
          exact hxs x hx hdata
        have hcontents : (xs++(a,data) :: ys).map Prod.snd = xs.map Prod.snd++data :: ys.map Prod.snd := List.map_append
        have hcard := card_live_deleteElement hrun
        rw [hcontents] at hm ⊢
        rw [if_pos (List.mem_append_right _ List.mem_cons_self),List.erase_append_right _ hout,List.erase_cons_head]
        refine ⟨list',hrun,⟨_,hl',List.map_append⟩,?_⟩
        simp only [List.length_append,List.length_cons] at hm ⊢
        omega
      · rw [if_neg (fun hmem => by
          obtain ⟨x,hx,hdata⟩ := List.mem_map.mp hmem
          exact habsent x hx hdata)]
        exact ⟨list,hrun,⟨_,hl,rfl⟩,hm⟩

theorem Represents.run (h : Represents list s) (calls : List (SequenceCall D)) :
    match sequenceOf s calls with
    | some (rets,s') => ∃ list', runSequence list calls = some (rets,list') ∧ Represents list' s'
    | none => runSequence list calls = none := by
  induction calls generalizing list s with
  | nil => exact ⟨list,rfl,h⟩
  | cons call calls ih =>
    have hcall := h.call call
    rw [sequenceOf,runSequence]
    cases hstep : sequenceStep s call with
    | none =>
      rw [hstep] at hcall
      rw [hcall]
      rfl
    | some next =>
      obtain ⟨ret,s₁⟩ := next
      rw [hstep] at hcall
      obtain ⟨list₁,hrun,h₁⟩ := hcall
      have hrest := ih h₁
      simp only [hrun,Option.bind_eq_bind,Option.bind_some]
      cases hcalls : sequenceOf s₁ calls with
      | none =>
        rw [hcalls] at hrest
        rw [hrest]
        rfl
      | some last =>
        obtain ⟨rets,s'⟩ := last
        rw [hcalls] at hrest
        obtain ⟨list',hruns,h'⟩ := hrest
        rw [hruns]
        exact ⟨list',rfl,h'⟩

end Runs

/-- A run on a created list is a run on a sequence: it comes back exactly if no call looks
for a place in an empty list, every call answers as it does on the sequence, and in
the end all that reads the list, counts its memory or deletes it agrees with the sequence. -/
theorem runSequence_refines (before : SingleList D) (calls : List (SequenceCall D)) :
    match sequenceOf ⟨[],before.elements.live.card⟩ calls with
    | some (rets,s) => ∃ list, runSequence (createList before).2 calls = some (rets,list) ∧ Shows list s
    | none => runSequence (createList before).2 calls = none := by
  have hcreated : Represents (createList before).2 ⟨[],before.elements.live.card⟩ :=
    ⟨⟨[],holds_createList before,rfl⟩,(Nat.zero_add _).symm⟩
  have hrun := hcreated.run calls
  cases hs : sequenceOf ⟨[],before.elements.live.card⟩ calls with
  | none =>
    rw [hs] at hrun
    exact hrun
  | some last =>
    obtain ⟨rets,s⟩ := last
    rw [hs] at hrun
    obtain ⟨list,hlist,hr⟩ := hrun
    exact ⟨list,hlist,hr.shows⟩

end OpenFlowController.Lists
