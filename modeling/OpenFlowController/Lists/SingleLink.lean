import OpenFlowController.Queue.MessageQueue

/-! # Singly linked lists

The head pointer is kept beside the elements. `malloc` is taken to succeed. An
operation without a result has followed a NULL pointer or one to a reclaimed
element, or runs on along links that never end.
-/
namespace OpenFlowController.Lists
open Memory Queue

structure ListElement (D : Type) where
  next : Option ℕ
  data : D

structure SingleList (D : Type) where
  head : Option ℕ
  elements : Heap (ListElement D)

variable {D : Type}

/-- The elements of an earlier list stay allocated. -/
def createList (list : SingleList D) : ErrorCode × SingleList D := (.ccENone,{ list with head := none })

def insertInFront (list : SingleList D) (data : D) : ErrorCode × SingleList D :=
  (.ccENone,⟨some list.elements.next,list.elements.alloc ⟨list.head,data⟩⟩)

/-- `for ( e = *head; e->next != NULL; e = e->next );` -/
def lastElement (elements : Heap (ListElement D)) : ℕ → ℕ → Option ℕ
  | 0, _ => none
  | fuel+1, e => do
    let element ← elements.load e
    match element.next with
    | none => return e
    | some next => lastElement elements fuel next

def appendToTail (list : SingleList D) (data : D) : Option (ErrorCode × SingleList D) := do
  let newTail := list.elements.next
  let elements := list.elements.alloc ⟨none,data⟩
  match list.head with
  | none => return (.ccENone,⟨some newTail,elements⟩)
  | some e =>
    let e ← lastElement elements elements.next e
    let elements ← elements.modify e (fun element => { element with next := some newTail })
    return (.ccENone,{ list with elements })

abbrev itemOf (cell : ℕ × ListElement D) : ℕ × D := (cell.1,cell.2.data)

/-- The list is made of the listed elements, given by address and data, and ends. -/
def Holds (list : SingleList D) (items : List (ℕ × D)) : Prop :=
  ∃ cells, list.elements.Segment ListElement.next list.head cells none ∧ cells.map itemOf = items

theorem Holds.nil_iff {list : SingleList D} : Holds list [] ↔ list.head = none := by
  constructor
  · rintro ⟨cells,hs,hcells⟩
    obtain rfl := List.map_eq_nil_iff.mp hcells
    exact hs
  · intro h
    exact ⟨[],h,rfl⟩

theorem Holds.unique {list : SingleList D} {items items' : List (ℕ × D)} (h : Holds list items)
    (h' : Holds list items') : items = items' := by
  obtain ⟨cells,hs,rfl⟩ := h
  obtain ⟨cells',hs',rfl⟩ := h'
  rw [hs.unique hs']

/-- As many steps as there were allocations reach the end of a list. -/
theorem length_le_next {elements : Heap (ListElement D)} {p : Option ℕ} {cells : List (ℕ × ListElement D)}
    (hs : elements.Segment ListElement.next p cells none) : cells.length ≤ elements.next := by
  rw [← List.length_map]
  refine Heap.length_le_next hs.nodup (fun a ha => ?_)
  obtain ⟨x,hx,rfl⟩ := List.mem_map.mp ha
  exact ⟨x.2,hs.load_of_mem hx⟩

theorem lastElement_eq {elements : Heap (ListElement D)} {e : ℕ} {xs : List (ℕ × ListElement D)}
    {last : ℕ × ListElement D} (hs : elements.Segment ListElement.next (some e) (xs++[last]) none)
    {fuel : ℕ} (hf : xs.length < fuel) : lastElement elements fuel e = some last.1 := by
  obtain ⟨fuel,rfl⟩ : ∃ k, fuel = k+1 := ⟨fuel-1,by omega⟩
  induction xs generalizing e fuel with
  | nil =>
    obtain ⟨a,c⟩ := last
    obtain ⟨he,hc,hnext⟩ := hs
    obtain rfl : e = a := Option.some.inj he
    replace hnext : c.next = none := hnext
    simp [lastElement,hc,hnext]
  | cons x xs ih =>
    obtain ⟨a,c⟩ := x
    obtain ⟨he,hc,hrest⟩ := hs
    obtain rfl : e = a := Option.some.inj he
    obtain ⟨b,hb⟩ : ∃ b, c.next = some b := by
      cases xs with
      | nil => exact ⟨_,hrest.1⟩
      | cons y xs => exact ⟨_,hrest.1⟩
    rw [hb] at hrest
    rw [List.length_cons] at hf
    obtain ⟨k,rfl⟩ : ∃ k, fuel = k+1 := ⟨fuel-1,by omega⟩
    rw [lastElement,hc,Option.bind_eq_bind,Option.bind_some]
    simp only [hb]
    exact ih hrest k (by omega)

theorem holds_createList (list : SingleList D) : Holds (createList list).2 [] := Holds.nil_iff.mpr rfl

theorem holds_insertInFront {list : SingleList D} {items : List (ℕ × D)} (hl : Holds list items) (data : D) :
    Holds (insertInFront list data).2 ((list.elements.next,data) :: items) := by
  obtain ⟨cells,hs,rfl⟩ := hl
  exact ⟨(_,⟨list.head,data⟩) :: cells,⟨rfl,list.elements.load_alloc_next _,hs.alloc _⟩,rfl⟩

theorem appendToTail_spec {list : SingleList D} {items : List (ℕ × D)} (hl : Holds list items) (data : D) :
    ∃ list', appendToTail list data = some (.ccENone,list') ∧
      Holds list' (items++[(list.elements.next,data)]) := by
  obtain ⟨cells,hs,rfl⟩ := hl
  rcases List.eq_nil_or_concat cells with rfl | ⟨xs,⟨a,c⟩,rfl⟩
  · have hhead : list.head = none := hs
    refine ⟨_,by rw [appendToTail,hhead]; rfl,[(_,⟨none,data⟩)],⟨rfl,?_,rfl⟩,rfl⟩
    exact list.elements.load_alloc_next _
  · rw [List.concat_eq_append] at hs ⊢
    have hs' := hs.alloc ⟨none,data⟩
    obtain ⟨e,hhead⟩ : ∃ e, list.head = some e := by
      cases xs with
      | nil => exact ⟨_,hs.1⟩
      | cons x xs => exact ⟨_,hs.1⟩
    have hlast : lastElement (list.elements.alloc ⟨none,data⟩) (list.elements.next+1) e = some a := by
      rw [hhead] at hs'
      have hlen := length_le_next hs
      rw [List.length_append,List.length_singleton] at hlen
      exact lastElement_eq hs' (by omega)
    have hmem : (a,c) ∈ xs++[(a,c)] := by simp
    have hc := hs'.load_of_mem hmem
    have hne := Heap.ne_next (hs.load_of_mem hmem)
    obtain ⟨hto,-⟩ := Heap.Segment.relink hs' { c with next := some list.elements.next }
    have hnew := list.elements.load_put_alloc_next ⟨none,data⟩ hne (some { c with next := some list.elements.next })
    refine ⟨⟨list.head,_⟩,?_,xs++[(a,_)]++[(list.elements.next,_)],
      Heap.Segment.append_iff.mpr ⟨_,hto,rfl,hnew,rfl⟩,?_⟩
    · rw [appendToTail,hhead]
      simp only [Heap.next_alloc,hlast,Heap.modify_eq hc,Option.bind_eq_bind,Option.bind_some]
      rfl
    · simp [itemOf]

variable [DecidableEq D]

/-- `for ( ; e->next != NULL; e = e->next )` up to an `e` with `e->next->data == data`. -/
def lookAhead (elements : Heap (ListElement D)) (data : D) : ℕ → ℕ → Option (Option ℕ)
  | 0, _ => none
  | fuel+1, e => do
    let element ← elements.load e
    match element.next with
    | none => return none
    | some next =>
      let following ← elements.load next
      if following.data = data then return some e
      lookAhead elements data fuel next

/-- The first element is never compared, and `*head` is followed without a test. -/
def insertBefore (list : SingleList D) (sibling data : D) : Option (ErrorCode × SingleList D) := do
  let e ← list.head
  match ← lookAhead list.elements sibling list.elements.next e with
  | none => return (.ccEErr,list)
  | some e =>
    let element ← list.elements.load e
    let newElement := list.elements.next
    let elements := list.elements.alloc ⟨element.next,data⟩
    let elements ← elements.modify e (fun element => { element with next := some newElement })
    return (.ccENone,{ list with elements })

/-- `*head` is followed without a test here as well. -/
def deleteElement (list : SingleList D) (data : D) : Option (ErrorCode × SingleList D) := do
  let e ← list.head
  let element ← list.elements.load e
  if element.data = data then
    let elements ← list.elements.free e
    return (.ccENone,⟨element.next,elements⟩)
  match ← lookAhead list.elements data list.elements.next e with
  | none => return (.ccEErr,list)
  | some e =>
    let element ← list.elements.load e
    let deleteMe ← element.next
    let following ← list.elements.load deleteMe
    let elements ← list.elements.modify e (fun element => { element with next := following.next })
    let elements ← elements.free deleteMe
    return (.ccENone,{ list with elements })

/-- From an element that does not match the search stops in front of the first match, if there is one. -/
theorem lookAhead_spec {elements : Heap (ListElement D)} {data : D} {e : ℕ} {c : ListElement D}
    {rest : List (ℕ × ListElement D)} (hs : elements.Segment ListElement.next (some e) ((e,c) :: rest) none)
    (hfirst : c.data ≠ data) {fuel : ℕ} (hf : rest.length < fuel) :
    (∃ xs a ca b d zs, (e,c) :: rest = xs++(a,ca) :: (b,d) :: zs ∧ d.data = data ∧
      (∀ x ∈ xs++[(a,ca)], x.2.data ≠ data) ∧ lookAhead elements data fuel e = some (some a)) ∨
    (∀ x ∈ (e,c) :: rest, x.2.data ≠ data) ∧ lookAhead elements data fuel e = some none := by
  obtain ⟨fuel,rfl⟩ : ∃ k, fuel = k+1 := ⟨fuel-1,by omega⟩
  induction rest generalizing e c fuel with
  | nil =>
    obtain ⟨-,hc,hnext⟩ := hs
    replace hnext : c.next = none := hnext
    right
    simp [lookAhead,hc,hnext,hfirst]
  | cons y rest ih =>
    obtain ⟨b,d⟩ := y
    obtain ⟨-,hc,hnext,hd,hrest⟩ := hs
    rw [lookAhead,hc,Option.bind_eq_bind,Option.bind_some]
    simp only [hnext,hd,Option.bind_some]
    by_cases hdata : d.data = data
    · rw [if_pos hdata]
      exact .inl ⟨[],e,c,b,d,rest,rfl,hdata,by simpa using hfirst,rfl⟩
    · rw [if_neg hdata]
      rw [List.length_cons] at hf
      obtain ⟨k,rfl⟩ : ∃ k, fuel = k+1 := ⟨fuel-1,by omega⟩
      rcases ih ⟨rfl,hd,hrest⟩ hdata k (by omega) with
        ⟨xs,a,ca,b',d',zs,hcells,hd',hxs,hrun⟩ | ⟨hrest',hrun⟩
      · refine .inl ⟨(e,c) :: xs,a,ca,b',d',zs,by rw [hcells,List.cons_append],hd',?_,hrun⟩
        exact List.forall_mem_cons.mpr ⟨hfirst,hxs⟩
      · exact .inr ⟨List.forall_mem_cons.mpr ⟨hfirst,hrest'⟩,hrun⟩

/-- Both callers start the search at a first element that does not match. -/
theorem Holds.lookAhead_head {list : SingleList D} {first : ℕ × D} {rest : List (ℕ × D)}
    (hl : Holds list (first :: rest)) {data : D} (hfirst : first.2 ≠ data) :
    ∃ e c, list.head = some e ∧ list.elements.load e = some c ∧ c.data ≠ data ∧
      ((∃ xs a ca b d zs, list.elements.Segment ListElement.next list.head (xs++(a,ca) :: (b,d) :: zs) none ∧
        first :: rest = (xs++(a,ca) :: (b,d) :: zs).map itemOf ∧ d.data = data ∧
        (∀ x ∈ xs++[(a,ca)], x.2.data ≠ data) ∧
        lookAhead list.elements data list.elements.next e = some (some a)) ∨
      (∀ x ∈ first :: rest, x.2 ≠ data) ∧ lookAhead list.elements data list.elements.next e = some none) := by
  obtain ⟨cells,hs,hcells⟩ := hl
  obtain ⟨⟨e,c⟩,cells,rfl,rfl,rfl⟩ := List.map_eq_cons_iff.mp hcells
  have hhead : list.head = some e := hs.1
  have hlen := length_le_next hs
  refine ⟨e,c,hhead,hs.2.1,hfirst,?_⟩
  rw [← List.map_cons]
  rcases lookAhead_spec (hhead ▸ hs) hfirst (Nat.lt_of_succ_le hlen) with
    ⟨xs,a,ca,b,d,zs,hsplit,hd,hxs,hrun⟩ | ⟨habsent,hrun⟩
  · exact .inl ⟨xs,a,ca,b,d,zs,hsplit ▸ hs,congrArg _ hsplit,hd,hxs,hrun⟩
  · exact .inr ⟨List.forall_mem_map.mpr habsent,hrun⟩

theorem insertBefore_head {list list' : SingleList D} {sibling data : D} {ret : ErrorCode}
    (hrun : insertBefore list sibling data = some (ret,list')) : list'.head = list.head := by
  simp only [insertBefore,Option.bind_eq_bind,Option.bind_eq_some_iff] at hrun
  obtain ⟨e,-,found,-,hrun⟩ := hrun
  cases found with
  | none => cases hrun; rfl
  | some e =>
    simp only [Option.bind_eq_some_iff] at hrun
    obtain ⟨_,-,_,-,hrun⟩ := hrun
    cases hrun
    rfl

/-- What inserting in front of the first element with data `sibling` comes to. -/
def InsertsBefore (list : SingleList D) (items : List (ℕ × D)) (sibling data : D) : Prop :=
  (∃ xs a ys list', items = xs++(a,sibling) :: ys ∧ (∀ x ∈ xs, x.2 ≠ sibling) ∧
    insertBefore list sibling data = some (.ccENone,list') ∧
    Holds list' (xs++(list.elements.next,data) :: (a,sibling) :: ys)) ∨
  (∀ x ∈ items, x.2 ≠ sibling) ∧ insertBefore list sibling data = some (.ccEErr,list)

theorem insertsBefore_of_first_ne {list : SingleList D} {first : ℕ × D} {rest : List (ℕ × D)}
    (hl : Holds list (first :: rest)) {sibling : D} (hfirst : first.2 ≠ sibling) (data : D) :
    InsertsBefore list (first :: rest) sibling data := by
  obtain ⟨e,c,hhead,-,-,hcases⟩ := hl.lookAhead_head hfirst
  rcases hcases with ⟨xs,a,ca,b,d,zs,hs,hitems,rfl,hxs,hrun⟩ | ⟨habsent,hrun⟩
  · left
    have hca := hs.load_of_mem (x := (a,ca)) (by simp)
    have hne := Heap.ne_next hca
    have hs' := hs.alloc ⟨ca.next,data⟩
    obtain ⟨hto,hback⟩ := Heap.Segment.relink hs' { ca with next := some list.elements.next }
    have hnew :=
      list.elements.load_put_alloc_next ⟨ca.next,data⟩ hne (some { ca with next := some list.elements.next })
    refine ⟨(xs++[(a,ca)]).map itemOf,b,zs.map itemOf,⟨list.head,_⟩,by simp [hitems],List.forall_mem_map.mpr hxs,?_,
      xs++[(a,_)]++(list.elements.next,_) :: (b,d) :: zs,
      Heap.Segment.append_iff.mpr ⟨_,hto,rfl,hnew,hback⟩,by simp⟩
    rw [insertBefore,hhead,Option.bind_eq_bind,Option.bind_some,hrun]
    simp only [Option.bind_eq_bind,Option.bind_some,hca]
    rw [Heap.modify_eq ((Heap.load_alloc_of_ne _ _ hne).trans hca)]
    rfl
  · right
    refine ⟨habsent,?_⟩
    rw [insertBefore,hhead,Option.bind_eq_bind,Option.bind_some,hrun]
    rfl

theorem not_insertsBefore_nil {list : SingleList D} (hl : Holds list []) (sibling data : D) :
    ¬InsertsBefore list [] sibling data := by
  have hrun : insertBefore list sibling data = none := by
    rw [insertBefore,Holds.nil_iff.mp hl]
    rfl
  rintro (⟨xs,a,ys,list',hitems,-⟩ | ⟨-,hret⟩)
  · simp at hitems
  · rw [hrun] at hret
    cases hret

/-- The new element would have to become the head, which is never assigned. -/
theorem not_insertsBefore_first {list : SingleList D} {a : ℕ} {sibling : D} {rest : List (ℕ × D)}
    (hl : Holds list ((a,sibling) :: rest)) (data : D) :
    ¬InsertsBefore list ((a,sibling) :: rest) sibling data := by
  rintro (⟨xs,b,ys,list',hitems,hxs,hrun,hl'⟩ | ⟨habsent,-⟩)
  · cases xs with
    | cons x xs =>
      obtain ⟨rfl,-⟩ := List.cons.inj hitems
      exact hxs _ List.mem_cons_self rfl
    | nil =>
      obtain ⟨cells,hs,hcells⟩ := hl
      obtain ⟨⟨p,c⟩,cells,rfl,hp,-⟩ := List.map_eq_cons_iff.mp hcells
      obtain ⟨cells',hs',hcells'⟩ := hl'
      obtain ⟨⟨q,c'⟩,cells',rfl,hq,-⟩ := List.map_eq_cons_iff.mp hcells'
      obtain rfl : q = list.elements.next := congrArg Prod.fst hq
      have hhead := insertBefore_head hrun
      rw [hs.1,hs'.1] at hhead
      exact Heap.ne_next hs.2.1 (Option.some.inj hhead).symm
  · exact habsent _ List.mem_cons_self rfl

/-- Neither an empty list nor a first element holding `sibling` is provided for. -/
theorem insertBefore_inserts_iff {list : SingleList D} {items : List (ℕ × D)} (hl : Holds list items)
    (sibling data : D) :
    InsertsBefore list items sibling data ↔ ∃ first rest, items = first :: rest ∧ first.2 ≠ sibling := by
  constructor
  · intro hins
    cases items with
    | nil => exact absurd hins (not_insertsBefore_nil hl sibling data)
    | cons first rest =>
      refine ⟨first,rest,rfl,?_⟩
      rintro rfl
      exact not_insertsBefore_first hl data hins
  · rintro ⟨first,rest,rfl,hfirst⟩
    exact insertsBefore_of_first_ne hl hfirst data

omit [DecidableEq D] in
theorem holds_push (list : SingleList D) (data following : D) :
    Holds (insertInFront (insertInFront (createList list).2 following).2 data).2
      [(list.elements.next+1,data),(list.elements.next,following)] :=
  holds_insertInFront (holds_insertInFront (holds_createList list) following) data

theorem insertBefore_inserts_iff_second :
    InsertsBefore (insertInFront (insertInFront (createList ⟨none,Heap.empty⟩).2 8).2 7).2 [(1,7),(0,8)] 8 5 :=
  (insertBefore_inserts_iff (holds_push ⟨none,Heap.empty⟩ 7 8) 8 5).mpr ⟨_,_,rfl,by decide⟩

/-- Asked to insert before the head, it answers that there is no such sibling. -/
theorem firstSibling_not_found :
    Holds (insertInFront (createList ⟨none,Heap.empty⟩).2 7).2 [(0,7)] ∧
      insertBefore (insertInFront (createList ⟨none,Heap.empty⟩).2 7).2 7 5 =
        some (.ccEErr,(insertInFront (createList ⟨none,Heap.empty⟩).2 7).2) ∧
      ¬InsertsBefore (insertInFront (createList ⟨none,Heap.empty⟩).2 7).2 [(0,7)] 7 5 := by
  have hl := holds_insertInFront (holds_createList ⟨none,Heap.empty⟩) 7
  exact ⟨hl,rfl,not_insertsBefore_first hl 5⟩

end OpenFlowController.Lists
