import OpenFlowController.Lists.SingleLink

/-! # Deletion from singly linked lists

A run of list calls is followed by the data it leaves in the list. Deleting from
an empty list, also one emptied by earlier deletions, follows the NULL head.
-/
namespace OpenFlowController.Lists
open Memory Queue

variable {D : Type} [DecidableEq D]

/-- What deleting the first element with the data comes to. The element is reclaimed. -/
def RemovesFirst (list : SingleList D) (items : List (ℕ × D)) (data : D) : Prop :=
  (∃ xs a ys list', items = xs++(a,data) :: ys ∧ (∀ x ∈ xs, x.2 ≠ data) ∧
    deleteElement list data = some (.ccENone,list') ∧ Holds list' (xs++ys) ∧
    list'.elements.load a = none) ∨
  (∀ x ∈ items, x.2 ≠ data) ∧ deleteElement list data = some (.ccEErr,list)

theorem deleteElement_nil {list : SingleList D} (hl : Holds list []) (data : D) :
    deleteElement list data = none := by
  rw [deleteElement,Holds.nil_iff.mp hl]
  rfl

theorem removesFirst_head {list : SingleList D} {a : ℕ} {data : D} {rest : List (ℕ × D)}
    (hl : Holds list ((a,data) :: rest)) : RemovesFirst list ((a,data) :: rest) data := by
  obtain ⟨cells,hs,hcells⟩ := hl
  obtain ⟨⟨e,c⟩,cells,rfl,hitem,rfl⟩ := List.map_eq_cons_iff.mp hcells
  obtain ⟨rfl,hdata⟩ := Prod.mk.inj hitem
  have hnd := hs.nodup
  rw [List.map_cons,List.nodup_cons] at hnd
  obtain ⟨hhead,hc,hrest⟩ := hs
  refine .inl ⟨[],e,cells.map itemOf,⟨c.next,_⟩,rfl,by simp,?_,⟨cells,hrest.put hnd.1 none,rfl⟩,
    Heap.load_put_self hc none⟩
  rw [deleteElement,hhead,Option.bind_eq_bind,Option.bind_some,hc,Option.bind_eq_bind,Option.bind_some,
    if_pos hdata,Heap.free_eq hc]
  rfl

theorem removesFirst_of_first_ne {list : SingleList D} {first : ℕ × D} {rest : List (ℕ × D)}
    (hl : Holds list (first :: rest)) {data : D} (hfirst : first.2 ≠ data) :
    RemovesFirst list (first :: rest) data := by
  obtain ⟨e,c,hhead,hc,hfirst',hcases⟩ := hl.lookAhead_head hfirst
  rcases hcases with ⟨xs,a,ca,b,d,zs,hs,hitems,rfl,hxs,hrun⟩ | ⟨habsent,hrun⟩
  · left
    have hca := hs.load_of_mem (x := (a,ca)) (by simp)
    have hcb := hs.load_of_mem (x := (b,d)) (by simp)
    have hnd := hs.nodup
    rw [List.append_cons,List.map_append,List.map_cons,List.nodup_middle,List.nodup_cons] at hnd
    have hout : b ∉ (xs++[(a,{ ca with next := d.next })]++zs).map Prod.fst := by
      simpa using hnd.1
    have hne : b ≠ a := by
      rintro rfl
      simp at hout
    obtain ⟨hto,hb,-,hback⟩ := Heap.Segment.relink hs { ca with next := d.next }
    have hlinked := Heap.Segment.append_iff.mpr ⟨_,hto,hback⟩
    have hcb' := (Heap.load_put_of_ne hne (some { ca with next := d.next })).trans hcb
    refine ⟨(xs++[(a,ca)]).map itemOf,b,zs.map itemOf,⟨list.head,_⟩,by simp [hitems],List.forall_mem_map.mpr hxs,?_,
      ⟨_,hlinked.put hout none,by simp⟩,Heap.load_put_self hcb' none⟩
    rw [deleteElement,hhead,Option.bind_eq_bind,Option.bind_some,hc,Option.bind_eq_bind,Option.bind_some,
      if_neg hfirst',hrun]
    simp only [Option.bind_eq_bind,Option.bind_some,hca,hb,hcb,Heap.modify_eq hca,Heap.free_eq hcb']
    rfl
  · right
    refine ⟨habsent,?_⟩
    rw [deleteElement,hhead,Option.bind_eq_bind,Option.bind_some,hc,Option.bind_eq_bind,Option.bind_some,
      if_neg hfirst',hrun]
    rfl

theorem removesFirst_iff {list : SingleList D} {items : List (ℕ × D)} (hl : Holds list items) (data : D) :
    RemovesFirst list items data ↔ items ≠ [] := by
  cases items with
  | nil =>
    refine iff_of_false ?_ (fun hne => hne rfl)
    rintro (⟨xs,a,ys,list',hitems,-⟩ | ⟨-,hret⟩)
    · simp at hitems
    · rw [deleteElement_nil hl] at hret
      cases hret
  | cons first rest =>
    refine iff_of_true ?_ (List.cons_ne_nil _ _)
    by_cases hfirst : first.2 = data
    · obtain ⟨a,data'⟩ := first
      obtain rfl : data' = data := hfirst
      exact removesFirst_head hl
    · exact removesFirst_of_first_ne hl hfirst

inductive ListCall (D : Type)
  | createList
  | insertInFront (data : D)
  | appendToTail (data : D)
  | deleteElement (data : D)

def runCall (list : SingleList D) : ListCall D → Option (SingleList D)
  | .createList => some (createList list).2
  | .insertInFront data => some (insertInFront list data).2
  | .appendToTail data => (appendToTail list data).map Prod.snd
  | .deleteElement data => (deleteElement list data).map Prod.snd

/-- A caller starts with `create_list`, whatever was there before. -/
def runCalls (before : SingleList D) (calls : List (ListCall D)) : Option (SingleList D) :=
  calls.foldlM runCall (createList before).2

/-- The data a call leaves, where it does not delete from nothing. -/
def contentsStep (contents : List D) : ListCall D → Option (List D)
  | .createList => some []
  | .insertInFront data => some (data :: contents)
  | .appendToTail data => some (contents++[data])
  | .deleteElement data => if contents = [] then none else some (contents.erase data)

def contentsAfter (calls : List (ListCall D)) : Option (List D) := calls.foldlM contentsStep []

theorem RemovesFirst.contents {list : SingleList D} {items : List (ℕ × D)} {data : D}
    (hl : Holds list items) (hr : RemovesFirst list items data) :
    ∃ ret list' items', deleteElement list data = some (ret,list') ∧ Holds list' items' ∧
      items'.map Prod.snd = (items.map Prod.snd).erase data := by
  rcases hr with ⟨xs,a,ys,list',rfl,hxs,hrun,hl',-⟩ | ⟨habsent,hrun⟩
  · refine ⟨_,list',xs++ys,hrun,hl',?_⟩
    have hout : data ∉ xs.map Prod.snd := by
      intro hmem
      obtain ⟨x,hx,hdata⟩ := List.mem_map.mp hmem
      exact hxs x hx hdata
    rw [List.map_append,List.map_append,List.map_cons,List.erase_append_right _ hout,List.erase_cons_head]
  · refine ⟨_,list,items,hrun,hl,?_⟩
    rw [List.erase_of_not_mem]
    intro hmem
    obtain ⟨x,hx,hdata⟩ := List.mem_map.mp hmem
    exact habsent x hx hdata

/-- One call does to the linked elements what it does to the data. -/
theorem runCall_contents {list : SingleList D} {items : List (ℕ × D)} (hl : Holds list items)
    (call : ListCall D) :
    (contentsStep (items.map Prod.snd) call = none ∧ runCall list call = none) ∨
    ∃ list' items', contentsStep (items.map Prod.snd) call = some (items'.map Prod.snd) ∧
      runCall list call = some list' ∧ Holds list' items' := by
  cases call with
  | createList => exact .inr ⟨_,[],rfl,rfl,holds_createList list⟩
  | insertInFront data => exact .inr ⟨_,_,rfl,rfl,holds_insertInFront hl data⟩
  | appendToTail data =>
    obtain ⟨list',hrun,hl'⟩ := appendToTail_spec hl data
    refine .inr ⟨list',_,?_,?_,hl'⟩
    · simp [contentsStep]
    · rw [runCall,hrun]
      rfl
  | deleteElement data =>
    by_cases hempty : items = []
    · subst hempty
      refine .inl ⟨rfl,?_⟩
      rw [runCall,deleteElement_nil hl]
      rfl
    · obtain ⟨ret,list',items',hrun,hl',hcontents⟩ := ((removesFirst_iff hl data).mpr hempty).contents hl
      refine .inr ⟨list',items',?_,?_,hl'⟩
      · rw [contentsStep,if_neg (by simpa using hempty),hcontents]
      · rw [runCall,hrun]
        rfl

theorem foldlM_contents {list : SingleList D} {items : List (ℕ × D)} (hl : Holds list items)
    (calls : List (ListCall D)) :
    (calls.foldlM contentsStep (items.map Prod.snd) = none ∧ calls.foldlM runCall list = none) ∨
    ∃ list' items', calls.foldlM contentsStep (items.map Prod.snd) = some (items'.map Prod.snd) ∧
      calls.foldlM runCall list = some list' ∧ Holds list' items' := by
  induction calls generalizing list items with
  | nil => exact .inr ⟨list,items,rfl,rfl,hl⟩
  | cons call calls ih =>
    simp only [List.foldlM_cons]
    rcases runCall_contents hl call with ⟨hc,hr⟩ | ⟨list',items',hc,hr,hl'⟩
    · exact .inl ⟨by rw [hc]; rfl,by rw [hr]; rfl⟩
    · rw [hc,hr]
      exact ih hl'

/-- A run comes back unless it deletes from an empty list, and what it comes back with
a deletion handles unless it is empty. -/
theorem runCalls_removesFirst (before : SingleList D) (calls : List (ListCall D)) :
    match runCalls before calls with
    | none => contentsAfter calls = none
    | some list => ∃ items, Holds list items ∧ contentsAfter calls = some (items.map Prod.snd) ∧
        ∀ data, RemovesFirst list items data ↔ items ≠ [] := by
  rw [runCalls,contentsAfter]
  rcases foldlM_contents (holds_createList before) calls with ⟨hc,hr⟩ | ⟨list,items,hc,hr,hl⟩
  · rw [hr]
    exact hc
  · rw [hr]
    exact ⟨items,hl,hc,removesFirst_iff hl⟩

/-- Deleting the only element leaves a list that the next deletion does not survive. -/
theorem emptiedList_not_survived :
    ∃ list, runCalls ⟨none,Heap.empty⟩ [.insertInFront 3,.deleteElement 3] = some list ∧ Holds list [] ∧
      deleteElement list 3 = none ∧ ¬RemovesFirst list [] 3 := by
  have hl : Holds (D := ℕ) ⟨none,(Heap.empty.alloc ⟨none,3⟩).put 0 none⟩ [] := Holds.nil_iff.mpr rfl
  exact ⟨_,rfl,hl,deleteElement_nil hl 3,fun hr => (removesFirst_iff hl 3).mp hr rfl⟩

end OpenFlowController.Lists
