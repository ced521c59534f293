import Mathlib.Logic.Relation
import OpenFlowController.Table.DoubleLink

/-! # Doubly linked lists as sequences

Whatever is inserted and deleted, the elements stay one sequence. The operations that
look the other way are those of the mirrored heap, where each element has its two
pointers exchanged.
-/
namespace OpenFlowController.Table
open Memory
variable {D : Type}

def insertBeforeDlist (h : Heap (DlistElement D)) (element : ℕ) (data : Option D) :
    Option (ℕ × Heap (DlistElement D)) := do
  let newPrev := h.next
  let h := h.alloc ⟨none,none,none⟩
  let e ← h.load element
  let h ← match e.prev with
    | none => pure h
    | some oldPrev => do
      let h ← h.modify newPrev (fun c => { c with prev := some oldPrev })
      h.modify oldPrev (fun c => { c with next := some newPrev })
  let h ← h.modify element (fun c => { c with prev := some newPrev })
  let h ← h.modify newPrev (fun c => { c with next := some element, data })
  return (newPrev,h)

/-- `while ( element->next != NULL ) element = element->next;` -/
def wind (h : Heap (DlistElement D)) : ℕ → ℕ → Option ℕ
  | 0, _ => none
  | fuel+1, element => do
    let e ← h.load element
    match e.next with
    | none => return element
    | some next => wind h fuel next

def getFirstElement (h : Heap (DlistElement D)) (element : ℕ) : Option ℕ := rewind h h.next element

def getLastElement (h : Heap (DlistElement D)) (element : ℕ) : Option ℕ := wind h h.next element

/-- `for ( ; e; e = e->next )` with a return at the first element that holds the data,
or the same along the other pointer. -/
def scan [DecidableEq D] (link : DlistElement D → Option ℕ) (h : Heap (DlistElement D)) (data : Option D) :
    ℕ → Option ℕ → Option (Option ℕ)
  | _, none => some none
  | 0, some _ => none
  | fuel+1, some e => do
    let c ← h.load e
    if c.data = data then return some e
    scan link h data fuel (link c)

def findElement [DecidableEq D] (h : Heap (DlistElement D)) (element : ℕ) (data : Option D) : Option (Option ℕ) := do
  match ← scan DlistElement.next h data h.next (some element) with
  | some e => return some e
  | none => do
    let e ← h.load element
    scan DlistElement.prev h data h.next e.prev

def mirror (e : DlistElement D) : DlistElement D := ⟨e.data,e.next,e.prev⟩

section Mirror
variable {h : Heap (DlistElement D)} {before after : Option ℕ} {cells : List (ℕ × Option D)} {a : ℕ}

theorem map_mirror_mirror (h : Heap (DlistElement D)) : (h.map mirror).map mirror = h := by
  refine Heap.ext_load (fun p => ?_) rfl
  rw [Heap.load_map,Heap.load_map]
  cases h.load p <;> rfl

theorem Linked.mirrored (hl : Linked h before cells after) :
    Linked (h.map mirror) after cells.reverse before := by
  induction cells generalizing before with
  | nil => trivial
  | cons x cells ih =>
    obtain ⟨a,d⟩ := x
    obtain ⟨ha,hrest⟩ := hl
    rw [List.reverse_cons]
    refine append_iff.mpr ⟨ih hrest,?_,trivial⟩
    rw [Heap.load_map,ha]
    simp [mirror,addresses]

theorem Dlist.mirrored (hl : Dlist h cells) : Dlist (h.map mirror) cells.reverse where
  linked := hl.linked.mirrored
  distinct := by
    simpa [addresses] using hl.distinct

theorem Dlist.of_mirrored (hl : Dlist (h.map mirror) cells.reverse) : Dlist h cells := by
  have hback := hl.mirrored
  rwa [map_mirror_mirror,List.reverse_reverse] at hback

theorem map_modify {f f' : DlistElement D → DlistElement D} (hf : ∀ c, mirror (f c) = f' (mirror c)) (h : Heap (DlistElement D))
    (p : ℕ) : (h.modify p f).map (Heap.map mirror) = (h.map mirror).modify p f' := by
  cases hload : h.load p with
  | none => simp [Heap.modify,hload]
  | some c =>
    have hmirror : (h.map mirror).load p = some (mirror c) := by rw [Heap.load_map,hload,Option.map_some]
    rw [Heap.modify_eq hload,Heap.modify_eq hmirror,Option.map_some,Heap.map_put,Option.map_some,hf]

/-- A step that mirrors another one, and what follows each. -/
theorem map_modify_bind {β γ : Type} {f f' : DlistElement D → DlistElement D} (hf : ∀ c, mirror (f c) = f' (mirror c))
    {g : β → γ} {k : Heap (DlistElement D) → Option β} {k' : Heap (DlistElement D) → Option γ}
    (hk : ∀ h, (k h).map g = k' (h.map mirror)) (h : Heap (DlistElement D)) (p : ℕ) :
    ((h.modify p f).bind k).map g = ((h.map mirror).modify p f').bind k' := by
  rw [← map_modify hf]
  cases h.modify p f with
  | none => rfl
  | some next => exact hk next

theorem insertBeforeDlist_mirrored (h : Heap (DlistElement D)) (a : ℕ) (data : Option D) :
    (insertBeforeDlist h a data).map (fun r => (r.1,r.2.map mirror)) = insertAfterDlist (h.map mirror) a data := by
  have halloc : (h.map mirror).alloc (⟨none,none,none⟩ : DlistElement D) = (h.alloc ⟨none,none,none⟩).map mirror :=
    (Heap.map_alloc mirror h ⟨none,none,none⟩).symm
  simp only [insertBeforeDlist,insertAfterDlist,halloc,Heap.load_map,Heap.next_map,Option.bind_eq_bind]
  cases (h.alloc ⟨none,none,none⟩).load a with
  | none => rfl
  | some e =>
    have hlast : ∀ h₁ : Heap (DlistElement D), Option.map (fun r => (r.1,r.2.map mirror))
        ((h₁.modify a (fun c => { c with prev := some h.next })).bind fun h₂ =>
          (h₂.modify h.next (fun c => { c with next := some a, data })).bind fun h₃ => some (h.next,h₃)) =
        ((h₁.map mirror).modify a (fun c => { c with next := some h.next })).bind fun h₂ =>
          (h₂.modify h.next (fun c => { c with prev := some a, data })).bind fun h₃ => some (h.next,h₃) := by
      intro h₁
      refine map_modify_bind ?_ (fun h₂ => ?_) h₁ a
      · exact fun c => rfl
      · refine map_modify_bind ?_ (fun h₃ => rfl) h₂ h.next
        exact fun c => rfl
    cases hprev : e.prev with
    | none =>
      simp only [Option.bind_some,Option.map_some,mirror,hprev,Option.pure_def]
      exact hlast (h.alloc ⟨none,none,none⟩)
    | some old =>
      simp only [Option.bind_some,Option.map_some,mirror,hprev,Option.pure_def]
      refine map_modify_bind ?_ (fun h₁ => ?_) _ h.next
      · exact fun c => rfl
      · refine map_modify_bind ?_ hlast h₁ old
        exact fun c => rfl

theorem wind_mirrored (h : Heap (DlistElement D)) (fuel a : ℕ) : wind h fuel a = rewind (h.map mirror) fuel a := by
  induction fuel generalizing a with
  | zero => rfl
  | succ fuel ih =>
    simp only [wind,rewind,Heap.load_map]
    cases h.load a with
    | none => rfl
    | some e =>
      simp only [Option.bind_eq_bind,Option.bind_some,Option.map_some,mirror]
      cases e.next with
      | none => rfl
      | some next => exact ih next

theorem scan_mirrored [DecidableEq D] (h : Heap (DlistElement D)) (data : Option D) (fuel : ℕ) (p : Option ℕ) :
    scan DlistElement.prev h data fuel p = scan DlistElement.next (h.map mirror) data fuel p := by
  induction fuel generalizing p with
  | zero => cases p <;> rfl
  | succ fuel ih =>
    cases p with
    | none => rfl
    | some a =>
      simp only [scan,Heap.load_map]
      cases h.load a with
      | none => rfl
      | some e =>
        simp only [Option.bind_eq_bind,Option.bind_some,Option.map_some,mirror]
        split
        · rfl
        · exact ih e.prev

end Mirror

/-- The elements joined by a pointer. -/
def NextTo (h : Heap (DlistElement D)) (a b : ℕ) : Prop := ∃ e, h.load a = some e ∧ e.next = some b

def PrevTo (h : Heap (DlistElement D)) (a b : ℕ) : Prop := ∃ e, h.load a = some e ∧ e.prev = some b

/-- The elements are the listed ones in their order, each operation finds what is
there, whichever element it is given. -/
structure IsSequence [DecidableEq D] (h : Heap (DlistElement D)) (cells : List (ℕ × Option D)) : Prop where
  ordered : Dlist h cells
  inverse : ∀ a ∈ addresses cells, ∀ b, (NextTo h a b → b ∈ addresses cells ∧ PrevTo h b a) ∧
    (PrevTo h a b → b ∈ addresses cells ∧ NextTo h b a)
  acyclic : ∀ a ∈ addresses cells, ¬ Relation.TransGen (NextTo h) a a
  first : ∀ a ∈ addresses cells, getFirstElement h a = (addresses cells).head?
  last : ∀ a ∈ addresses cells, getLastElement h a = (addresses cells).getLast?
  find : ∀ a ∈ addresses cells, ∀ data, ∃ found, findElement h a data = some found ∧
    (∀ p, found = some p → (p,data) ∈ cells) ∧ (found = none → ∀ x ∈ cells, x.2 ≠ data)

namespace Dlist
variable {h : Heap (DlistElement D)} {cells xs ys : List (ℕ × Option D)} {a b : ℕ} {d : Option D}

theorem split_of_mem (ha : a ∈ addresses cells) : ∃ xs d ys, cells = xs++(a,d) :: ys := by
  obtain ⟨⟨b,d⟩,hx,rfl⟩ := List.mem_map.mp ha
  obtain ⟨xs,ys,rfl⟩ := List.append_of_mem hx
  exact ⟨xs,d,ys,rfl⟩

theorem insertBeforeDlist_spec (hl : Dlist h (xs++(a,d) :: ys)) (data : Option D) :
    ∃ h', insertBeforeDlist h a data = some (h.next,h') ∧ Dlist h' (xs++(h.next,data) :: (a,d) :: ys) := by
  have hmirrored : Dlist (h.map mirror) (ys.reverse++(a,d) :: xs.reverse) := by
    simpa using hl.mirrored
  obtain ⟨back,heq,hback,-⟩ := hmirrored.insertAfterDlist_spec data
  rw [← insertBeforeDlist_mirrored,Option.map_eq_some_iff] at heq
  obtain ⟨⟨p,h'⟩,hinsert,hpair⟩ := heq
  cases hpair
  refine ⟨h',hinsert,Dlist.of_mirrored ?_⟩
  simpa using hback

theorem next_of_nextTo (hl : Dlist h (xs++(a,d) :: ys)) (hab : NextTo h a b) : ∃ d' zs, ys = (b,d') :: zs := by
  obtain ⟨e,he,hnext⟩ := hab
  obtain rfl := Option.some.inj (he.symm.trans hl.load_at)
  cases ys with
  | nil => cases hnext
  | cons y ys =>
    obtain ⟨p,d'⟩ := y
    cases hnext
    exact ⟨d',ys,rfl⟩

theorem prevTo_of_nextTo (hl : Dlist h cells) (ha : a ∈ addresses cells) (hab : NextTo h a b) :
    b ∈ addresses cells ∧ PrevTo h b a := by
  obtain ⟨xs,d,ys,rfl⟩ := split_of_mem ha
  obtain ⟨d',zs,rfl⟩ := hl.next_of_nextTo hab
  have hl' : Dlist h ((xs++[(a,d)])++(b,d') :: zs) := by simpa using hl
  refine ⟨by simp [addresses],_,hl'.load_at,?_⟩
  simp [addresses]

theorem prevTo_iff : PrevTo h a b ↔ NextTo (h.map mirror) a b := by
  simp only [PrevTo,NextTo,Heap.load_map]
  cases h.load a with
  | none => simp
  | some e => simp [mirror]

theorem nextTo_of_prevTo (hl : Dlist h cells) (ha : a ∈ addresses cells) (hab : PrevTo h a b) :
    b ∈ addresses cells ∧ NextTo h b a := by
  have hmem {p : ℕ} : p ∈ addresses cells.reverse ↔ p ∈ addresses cells := by simp [addresses]
  obtain ⟨hb,hback⟩ := hl.mirrored.prevTo_of_nextTo (hmem.mpr ha) (prevTo_iff.mp hab)
  rw [prevTo_iff,map_mirror_mirror] at hback
  exact ⟨hmem.mp hb,hback⟩

/-- Following the pointers leads to the elements behind. -/
theorem behind (hl : Dlist h (xs++(a,d) :: ys)) (hab : Relation.TransGen (NextTo h) a b) : b ∈ addresses ys := by
  induction hab with
  | single hab =>
    obtain ⟨d',zs,rfl⟩ := hl.next_of_nextTo hab
    exact List.mem_cons_self
  | tail _ hbc ih =>
    obtain ⟨us,d',vs,rfl⟩ := split_of_mem ih
    rename_i b c _
    have hl' : Dlist h ((xs++(a,d) :: us)++(b,d') :: vs) := by simpa using hl
    obtain ⟨d'',zs,rfl⟩ := hl'.next_of_nextTo hbc
    simp [addresses]

theorem scan_spec [DecidableEq D] {fuel : ℕ} (hl : Dlist h (xs++ys)) (hlen : ys.length ≤ fuel) (data : Option D) :
    ∃ found, scan DlistElement.next h data fuel (addresses ys).head? = some found ∧
      (∀ p, found = some p → (p,data) ∈ ys) ∧ (found = none → ∀ x ∈ ys, x.2 ≠ data) := by
  induction ys generalizing xs fuel with
  | nil => exact ⟨none,by cases fuel <;> rfl,by simp,by simp⟩
  | cons y ys ih =>
    obtain ⟨a,d⟩ := y
    obtain ⟨fuel,rfl⟩ := Nat.exists_eq_succ_of_ne_zero (Nat.ne_zero_of_lt hlen)
    have hl' : Dlist h ((xs++[(a,d)])++ys) := by simpa using hl
    obtain ⟨found,hscan,hsome,hnone⟩ := ih hl' (Nat.le_of_succ_le_succ hlen)
    have ha := hl.load_at
    by_cases hdata : d = data
    · subst hdata
      refine ⟨some a,?_,fun p hp => ?_,by simp⟩
      · simp [scan,ha]
      · obtain rfl := Option.some.inj hp
        exact List.mem_cons_self
    · refine ⟨found,?_,fun p hp => List.mem_cons_of_mem _ (hsome p hp),fun hn => ?_⟩
      · simpa [scan,ha,hdata] using hscan
      · exact List.forall_mem_cons.mpr ⟨hdata,hnone hn⟩

theorem findElement_spec [DecidableEq D] (hl : Dlist h (xs++(a,d) :: ys)) (data : Option D) :
    ∃ found, findElement h a data = some found ∧ (∀ p, found = some p → (p,data) ∈ xs++(a,d) :: ys) ∧
      (found = none → ∀ x ∈ xs++(a,d) :: ys, x.2 ≠ data) := by
  have hlen := hl.length_le_next
  rw [List.length_append] at hlen
  obtain ⟨found,hscan,hsome,hnone⟩ := hl.scan_spec (show ((a,d) :: ys).length ≤ h.next by omega) data
  have hmirrored : Dlist (h.map mirror) (((a,d) :: ys).reverse++xs.reverse) := by simpa using hl.mirrored
  obtain ⟨back,hback,hsome',hnone'⟩ := hmirrored.scan_spec (show xs.reverse.length ≤ h.next by simp; omega) data
  have hprev : (addresses xs.reverse).head? = (addresses xs).getLast? := by simp [addresses]
  rw [← scan_mirrored,hprev] at hback
  have hstart : (addresses ((a,d) :: ys)).head? = some a := rfl
  rw [hstart] at hscan
  cases found with
  | some p =>
    refine ⟨some p,?_,fun q hq => ?_,by simp⟩
    · simp only [findElement,hscan,Option.bind_eq_bind,Option.bind_some]
      rfl
    · exact List.mem_append_right _ (hsome q hq)
  | none =>
    refine ⟨back,?_,fun q hq => ?_,fun hn => ?_⟩
    · simp only [findElement,hscan,hl.load_at,hback,Option.bind_eq_bind,Option.bind_some]
    · exact List.mem_append_left _ (List.mem_reverse.mp (hsome' q hq))
    · refine List.forall_mem_append.mpr ⟨fun x hx => ?_,hnone rfl⟩
      exact hnone' hn x (List.mem_reverse.mpr hx)

theorem getFirstElement_spec (hl : Dlist h cells) (ha : a ∈ addresses cells) :
    getFirstElement h a = (addresses cells).head? := by
  obtain ⟨xs,d,ys,rfl⟩ := split_of_mem ha
  obtain ⟨first,hf⟩ : ∃ first, (addresses (xs++(a,d) :: ys)).head? = some first := by
    cases xs <;> simp
  have hlen := hl.length_le_next
  simp only [List.length_append,List.length_cons] at hlen
  rw [hf]
  exact hl.rewind_spec hf rfl (by omega)

theorem getLastElement_spec (hl : Dlist h cells) (ha : a ∈ addresses cells) :
    getLastElement h a = (addresses cells).getLast? := by
  have ha' : a ∈ addresses cells.reverse := by simpa [addresses] using ha
  have hfirst := hl.mirrored.getFirstElement_spec ha'
  have hlast : (addresses cells.reverse).head? = (addresses cells).getLast? := by simp [addresses]
  rw [getLastElement,wind_mirrored,← hlast]
  exact hfirst

theorem isSequence [DecidableEq D] (hl : Dlist h cells) : IsSequence h cells where
  ordered := hl
  inverse a ha b := ⟨hl.prevTo_of_nextTo ha,hl.nextTo_of_prevTo ha⟩
  acyclic a ha hcycle := by
    obtain ⟨xs,d,ys,rfl⟩ := split_of_mem ha
    obtain ⟨-,-,-,hay,-⟩ := hl.distinct_at
    exact hay (hl.behind hcycle)
  first _ ha := hl.getFirstElement_spec ha
  last _ ha := hl.getLastElement_spec ha
  find a ha data := by
    obtain ⟨xs,d,ys,rfl⟩ := split_of_mem ha
    exact hl.findElement_spec data

end Dlist

inductive DlistCall (D : Type)
  | insertBefore (element : ℕ) (data : Option D)
  | insertAfter (element : ℕ) (data : Option D)
  | delete (element : ℕ)

def DlistCall.element : DlistCall D → ℕ
  | .insertBefore element _ => element
  | .insertAfter element _ => element
  | .delete element => element

/-- The element returned, if any, and the heap. -/
def DlistCall.run (h : Heap (DlistElement D)) : DlistCall D → Option (Option ℕ × Heap (DlistElement D))
  | .insertBefore element data => (insertBeforeDlist h element data).map (fun r => (some r.1,r.2))
  | .insertAfter element data => (insertAfterDlist h element data).map (fun r => (some r.1,r.2))
  | .delete element => (deleteDlistElement h element).map (fun h => (none,h))

/-- One new element next to the given one, or the given one gone. -/
def DlistCall.Edits (out : Option ℕ) (cells cells' : List (ℕ × Option D)) : DlistCall D → Prop
  | .insertBefore element data => ∃ xs d ys new, cells = xs++(element,d) :: ys ∧ out = some new ∧
      cells' = xs++(new,data) :: (element,d) :: ys
  | .insertAfter element data => ∃ xs d ys new, cells = xs++(element,d) :: ys ∧ out = some new ∧
      cells' = xs++(element,d) :: (new,data) :: ys
  | .delete element => ∃ xs d ys, cells = xs++(element,d) :: ys ∧ out = none ∧ cells' = xs++ys

/-- Calls on elements of the list come back, edit it as they should, and there is a
sequence after each. -/
def StaysSequence [DecidableEq D] : Heap (DlistElement D) → List (ℕ × Option D) → List (DlistCall D) → Prop
  | h, cells, [] => IsSequence h cells
  | h, cells, call :: calls => IsSequence h cells ∧ (call.element ∈ addresses cells →
      ∃ out h' cells', call.run h = some (out,h') ∧ call.Edits out cells cells' ∧ StaysSequence h' cells' calls)

/-- Step lemma. -/
theorem Dlist.call {h : Heap (DlistElement D)} {cells : List (ℕ × Option D)} (hl : Dlist h cells) (call : DlistCall D)
    (hmem : call.element ∈ addresses cells) :
    ∃ out h' cells', call.run h = some (out,h') ∧ call.Edits out cells cells' ∧ Dlist h' cells' := by
  obtain ⟨xs,d,ys,rfl⟩ := Dlist.split_of_mem hmem
  cases call with
  | insertBefore element data =>
    obtain ⟨h',heq,hl'⟩ := hl.insertBeforeDlist_spec data
    exact ⟨some h.next,h',_,congrArg (Option.map _) heq,⟨xs,d,ys,h.next,rfl,rfl,rfl⟩,hl'⟩
  | insertAfter element data =>
    obtain ⟨h',heq,hl',-⟩ := hl.insertAfterDlist_spec data
    exact ⟨some h.next,h',_,congrArg (Option.map _) heq,⟨xs,d,ys,h.next,rfl,rfl,rfl⟩,hl'⟩
  | delete element =>
    obtain ⟨h',heq,hl',-⟩ := hl.deleteDlistElement_spec
    exact ⟨none,h',_,congrArg (Option.map _) heq,⟨xs,d,ys,rfl,rfl,rfl⟩,hl'⟩

theorem Dlist.staysSequence [DecidableEq D] {h : Heap (DlistElement D)} {cells : List (ℕ × Option D)} (hl : Dlist h cells)
    (calls : List (DlistCall D)) : StaysSequence h cells calls := by
  induction calls generalizing h cells with
  | nil => exact hl.isSequence
  | cons call calls ih =>
    refine ⟨hl.isSequence,fun hmem => ?_⟩
    obtain ⟨out,h',cells',hrun,hedits,hl'⟩ := hl.call call hmem
    exact ⟨out,h',cells',hrun,hedits,ih hl'⟩

/-- Every run that starts with `create_dlist`, in whatever heap. -/
theorem createDlist_staysSequence [DecidableEq D] (h : Heap (DlistElement D)) (calls : List (DlistCall D)) :
    StaysSequence (createDlist h).2 [((createDlist h).1,none)] calls :=
  (Dlist.createDlist_spec h).1.staysSequence calls

end OpenFlowController.Table
