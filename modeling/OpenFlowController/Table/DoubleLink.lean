import OpenFlowController.Memory.Heap

/-! # Doubly linked lists

Elements are passed by address. The NULL arguments that every function answers
with an error are never passed by its callers and have no counterpart here, and
the lock shared by the elements of a list is left out.
-/
namespace OpenFlowController.Table
open Memory

structure DlistElement (D : Type) where
  data : Option D
  prev : Option ℕ
  next : Option ℕ

variable {D : Type}

def createDlist (h : Heap (DlistElement D)) : ℕ × Heap (DlistElement D) :=
  (h.next,h.alloc ⟨none,none,none⟩)

def insertAfterDlist (h : Heap (DlistElement D)) (element : ℕ) (data : Option D) :
    Option (ℕ × Heap (DlistElement D)) := do
  let newNext := h.next
  let h := h.alloc ⟨none,none,none⟩
  let e ← h.load element
  let h ← match e.next with
    | none => pure h
    | some oldNext => do
      let h ← h.modify newNext (fun c => { c with next := some oldNext })
      h.modify oldNext (fun c => { c with prev := some newNext })
  let h ← h.modify element (fun c => { c with next := some newNext })
  let h ← h.modify newNext (fun c => { c with prev := some element, data })
  return (newNext,h)

def deleteDlistElement (h : Heap (DlistElement D)) (element : ℕ) : Option (Heap (DlistElement D)) := do
  let e ← h.load element
  let h ← h.modifyIf e.prev (fun c => { c with next := e.next })
  let h ← h.modifyIf e.next (fun c => { c with prev := e.prev })
  h.free element

/-- `while ( element->prev != NULL ) element = element->prev;` -/
def rewind (h : Heap (DlistElement D)) : ℕ → ℕ → Option ℕ
  | 0, _ => none
  | fuel+1, element => do
    let e ← h.load element
    match e.prev with
    | none => return element
    | some prev => rewind h fuel prev

/-- The next pointer is read before its element is freed. -/
def freeFrom : ℕ → Heap (DlistElement D) → Option ℕ → Option (Heap (DlistElement D))
  | _, h, none => some h
  | 0, _, some _ => none
  | fuel+1, h, some deleteMe => do
    let e ← h.load deleteMe
    let h ← h.free deleteMe
    freeFrom fuel h e.next

/-- Neither walk can need more passes than there have been elements. -/
def deleteDlist (h : Heap (DlistElement D)) (element : ℕ) : Option (Heap (DlistElement D)) := do
  let first ← rewind h h.next element
  freeFrom h.next h (some first)

@[simp] theorem createDlist_fst (h : Heap (DlistElement D)) : (createDlist h).1 = h.next := rfl
@[simp] theorem next_createDlist (h : Heap (DlistElement D)) : (createDlist h).2.next = h.next+1 := rfl

abbrev addresses (cells : List (ℕ × Option D)) : List ℕ := cells.map Prod.fst

/-- The listed elements follow one another, with `before` in front and `after` behind. -/
def Linked (h : Heap (DlistElement D)) : Option ℕ → List (ℕ × Option D) → Option ℕ → Prop
  | _, [], _ => True
  | before, (a,d) :: cells, after =>
    h.load a = some ⟨d,before,(addresses cells).head?.or after⟩ ∧ Linked h (some a) cells after

namespace Linked
variable {h h' : Heap (DlistElement D)} {before before' after after' : Option ℕ}
  {cells xs ys : List (ℕ × Option D)} {a : ℕ} {d : Option D}

@[simp] theorem nil : Linked h before [] after := trivial

@[simp] theorem cons_iff : Linked h before ((a,d) :: cells) after ↔
    h.load a = some ⟨d,before,(addresses cells).head?.or after⟩ ∧ Linked h (some a) cells after := Iff.rfl

theorem append_iff : Linked h before (xs++ys) after ↔
    Linked h before xs ((addresses ys).head?.or after) ∧
      Linked h ((addresses xs).getLast?.or before) ys after := by
  induction xs generalizing before with
  | nil => simp
  | cons x xs ih =>
    obtain ⟨a,d⟩ := x
    have hlast : (addresses ((a,d) :: xs)).getLast?.or before = (addresses xs).getLast?.or (some a) := by
      cases xs <;> simp [List.getLast?_cons]
    rw [List.cons_append,cons_iff,ih,cons_iff,hlast]
    simp [List.head?_append,Option.or_assoc,and_assoc]

theorem load_of_mem (hs : Linked h before cells after) {x : ℕ × Option D} (hx : x ∈ cells) :
    ∃ e, h.load x.1 = some e ∧ e.data = x.2 := by
  induction cells generalizing before with
  | nil => simp at hx
  | cons y cells ih =>
    obtain ⟨hc,hr⟩ := hs
    rcases List.mem_cons.mp hx with rfl | hx
    · exact ⟨_,hc,rfl⟩
    · exact ih hr hx

theorem congr (hs : Linked h before cells after)
    (he : ∀ p ∈ addresses cells, h'.load p = h.load p) : Linked h' before cells after := by
  induction cells generalizing before with
  | nil => trivial
  | cons y cells ih =>
    obtain ⟨hc,hr⟩ := hs
    have hhead := he y.1 List.mem_cons_self
    exact ⟨hhead.trans hc,ih hr (fun p hp => he p (List.mem_cons_of_mem _ hp))⟩

theorem relinkBefore (hs : Linked h before cells after)
    (he : ∀ p ∈ addresses cells, h'.load p =
      if (addresses cells).head? = some p then (h.load p).map (fun c => { c with prev := before' })
      else h.load p) (hd : (addresses cells).Nodup) : Linked h' before' cells after := by
  cases cells with
  | nil => trivial
  | cons y cells =>
    obtain ⟨hc,hr⟩ := hs
    obtain ⟨hy,-⟩ := List.nodup_cons.mp hd
    refine ⟨?_,hr.congr ?_⟩
    · have hhead := he y.1 List.mem_cons_self
      simpa [hc] using hhead
    · intro p hp
      have hne : y.1 ≠ p := by
        intro hyp
        exact hy (hyp ▸ hp)
      have htail := he p (List.mem_cons_of_mem _ hp)
      simpa [hne] using htail

theorem relinkAfter (hs : Linked h before cells after)
    (he : ∀ p ∈ addresses cells, h'.load p =
      if (addresses cells).getLast? = some p then (h.load p).map (fun c => { c with next := after' })
      else h.load p) (hd : (addresses cells).Nodup) : Linked h' before cells after' := by
  induction cells generalizing before with
  | nil => trivial
  | cons y cells ih =>
    obtain ⟨hc,hr⟩ := hs
    obtain ⟨hy,hd⟩ := List.nodup_cons.mp hd
    have hhead := he y.1 List.mem_cons_self
    cases cells with
    | nil =>
      refine ⟨?_,trivial⟩
      simpa [hc] using hhead
    | cons z cells =>
      have hlast : (addresses (y :: z :: cells)).getLast? = (addresses (z :: cells)).getLast? := by
        simp [List.getLast?_cons]
      refine ⟨?_,ih hr (fun p hp => ?_) hd⟩
      · have hne : (addresses (z :: cells)).getLast? ≠ some y.1 := by
          intro hl
          exact hy (List.mem_of_getLast? hl)
        rw [hlast,if_neg hne] at hhead
        rw [hhead,hc]
        simp
      · rw [← hlast]
        exact he p (List.mem_cons_of_mem _ hp)

end Linked

section Cells
variable {h : Heap (DlistElement D)} {a : ℕ} {e : DlistElement D}

theorem insertAfterDlist_load (ha : h.load a = some e)
    (ho : ∀ o, e.next = some o → o ≠ a ∧ ∃ c, h.load o = some c) (data : Option D) :
    ∃ h', insertAfterDlist h a data = some (h.next,h') ∧ h'.next = h.next+1 ∧
      ∀ p, h'.load p = if p = h.next then some ⟨data,some a,e.next⟩
        else if p = a then some { e with next := some h.next }
        else if e.next = some p then (h.load p).map (fun c => { c with prev := some h.next })
        else h.load p := by
  have hne := Heap.ne_next ha
  have ha₁ : (h.alloc ⟨none,none,none⟩).load a = some e := (Heap.load_alloc_of_ne _ _ hne).trans ha
  have hn₁ := Heap.load_alloc_next h (⟨none,none,none⟩ : DlistElement D)
  cases hnext : e.next with
  | none =>
    have hn₂ := (Heap.load_put_of_ne hne.symm (some { e with next := some h.next })).trans hn₁
    simp only [insertAfterDlist,ha₁,hnext,Option.bind_eq_bind,Option.bind_some,Option.pure_def,
      Heap.modify_eq ha₁,Heap.modify_eq hn₂]
    refine ⟨_,rfl,by simp,fun p => ?_⟩
    rw [Heap.load_put hn₂,Heap.load_put ha₁,Heap.load_alloc]
    by_cases hp : p = h.next
    · simp [hp]
    · simp [hp]
  | some o =>
    obtain ⟨hoa,c,hc⟩ := ho o hnext
    have hon := Heap.ne_next hc
    have ho₁ := (Heap.load_alloc_of_ne h (⟨none,none,none⟩ : DlistElement D) hon).trans hc
    have ho₂ := (Heap.load_put_of_ne hon (some ⟨none,none,some o⟩)).trans ho₁
    have ha₂ := (Heap.load_put_of_ne hne (some ⟨none,none,some o⟩)).trans ha₁
    have ha₃ := (Heap.load_put_of_ne hoa.symm (some { c with prev := some h.next })).trans ha₂
    have hn₂ := Heap.load_put_self hn₁ (some ⟨none,none,some o⟩)
    have hn₃ := (Heap.load_put_of_ne hon.symm (some { c with prev := some h.next })).trans hn₂
    have hn₄ := (Heap.load_put_of_ne hne.symm (some { e with next := some h.next })).trans hn₃
    simp only [insertAfterDlist,ha₁,hnext,Option.bind_eq_bind,Option.bind_some,Option.pure_def,
      Heap.modify_eq hn₁,Heap.modify_eq ho₂,Heap.modify_eq ha₃,Heap.modify_eq hn₄]
    refine ⟨_,rfl,by simp,fun p => ?_⟩
    rw [Heap.load_put hn₄,Heap.load_put ha₃,Heap.load_put ho₂,Heap.load_put hn₁,Heap.load_alloc]
    by_cases hp : p = h.next
    · simp [hp]
    · by_cases hpo : p = o
      · simp [hpo,hc]
      · simp [hp,hpo,Ne.symm hpo]

theorem deleteDlistElement_load (ha : h.load a = some e)
    (hp : ∀ p, e.prev = some p → p ≠ a ∧ e.next ≠ some p ∧ ∃ c, h.load p = some c)
    (hn : ∀ p, e.next = some p → p ≠ a ∧ ∃ c, h.load p = some c) :
    ∃ h', deleteDlistElement h a = some h' ∧ h'.next = h.next ∧
      ∀ p, h'.load p = if p = a then none
        else if e.prev = some p then (h.load p).map (fun c => { c with next := e.next })
        else if e.next = some p then (h.load p).map (fun c => { c with prev := e.prev })
        else h.load p := by
  obtain ⟨h₁,heq₁,hnext₁,hload₁⟩ := Heap.modifyIf_load (fun p h => (hp p h).2.2)
    (fun c => { c with next := e.next })
  have hlive : ∀ p, e.next = some p → ∃ c, h₁.load p = some c := by
    intro p hep
    have hne : e.prev ≠ some p := by
      intro hprev
      exact (hp p hprev).2.1 hep
    rw [hload₁,if_neg hne]
    exact (hn p hep).2
  obtain ⟨h₂,heq₂,hnext₂,hload₂⟩ := Heap.modifyIf_load hlive (fun c => { c with prev := e.prev })
  have hprev : e.prev ≠ some a := by
    intro h
    exact (hp a h).1 rfl
  have hnext : e.next ≠ some a := by
    intro h
    exact (hn a h).1 rfl
  have ha₂ : h₂.load a = some e := by
    rw [hload₂,if_neg hnext,hload₁,if_neg hprev,ha]
  refine ⟨h₂.put a none,?_,hnext₂.trans hnext₁,fun p => ?_⟩
  · simp [deleteDlistElement,ha,heq₁,heq₂,Heap.free_eq ha₂]
  · rw [Heap.load_put ha₂,hload₂,hload₁]
    by_cases hep : e.prev = some p
    · simp [hep,(hp p hep).2.1]
    · simp [hep]

end Cells

structure Dlist (h : Heap (DlistElement D)) (cells : List (ℕ × Option D)) : Prop where
  linked : Linked h none cells none
  distinct : (addresses cells).Nodup

/-- Of what was allocated before, only the given addresses are written. -/
def Keeps (h h' : Heap (DlistElement D)) (ps : List ℕ) : Prop :=
  ∀ p, p ∉ ps → p < h.next → h'.load p = h.load p

namespace Dlist
variable {h h' : Heap (DlistElement D)} {before : Option ℕ} {cells xs ys zs : List (ℕ × Option D)} {a : ℕ} {d : Option D}

theorem lt_next (hl : Dlist h cells) {p : ℕ} (hp : p ∈ addresses cells) : p < h.next := by
  obtain ⟨x,hx,rfl⟩ := List.mem_map.mp hp
  obtain ⟨e,he,-⟩ := hl.linked.load_of_mem hx
  exact Heap.lt_next he

theorem length_le_next (hl : Dlist h cells) : cells.length ≤ h.next := by
  have hle : (addresses cells).length ≤ h.next := by
    apply Heap.length_le_next hl.distinct
    intro p hp
    obtain ⟨x,hx,rfl⟩ := List.mem_map.mp hp
    obtain ⟨e,he,-⟩ := hl.linked.load_of_mem hx
    exact ⟨e,he⟩
  rwa [List.length_map] at hle

theorem frame (hl : Dlist h zs) {ps : List ℕ} (hk : Keeps h h' ps)
    (hd : ∀ p ∈ addresses zs, p ∉ ps) : Dlist h' zs where
  linked := hl.linked.congr (fun p hp => hk p (hd p hp) (hl.lt_next hp))
  distinct := hl.distinct

theorem createDlist_spec (h : Heap (DlistElement D)) :
    Dlist (createDlist h).2 [(h.next,none)] ∧ Keeps h (createDlist h).2 [] := by
  refine ⟨⟨⟨Heap.load_alloc_next _ _,trivial⟩,by simp⟩,fun p _ hp => ?_⟩
  exact Heap.load_alloc_of_ne _ _ (Nat.ne_of_lt hp)

theorem load_at (hl : Dlist h (xs++(a,d) :: ys)) :
    h.load a = some ⟨d,(addresses xs).getLast?,(addresses ys).head?⟩ := by
  obtain ⟨-,hc,-⟩ := Linked.append_iff.mp hl.linked
  simpa using hc

theorem distinct_at (hl : Dlist h (xs++(a,d) :: ys)) :
    (addresses xs).Nodup ∧ (addresses ys).Nodup ∧ a ∉ addresses xs ∧ a ∉ addresses ys ∧
      ∀ p ∈ addresses xs, p ∉ addresses ys := by
  have hd := hl.distinct
  simp only [addresses,List.map_append,List.map_cons,List.nodup_append,List.nodup_cons] at hd
  obtain ⟨hx,⟨hay,hy⟩,hxy⟩ := hd
  refine ⟨hx,hy,?_,hay,?_⟩
  · intro ha
    exact hxy a ha a List.mem_cons_self rfl
  · intro p hpx hpy
    exact hxy p hpx p (List.mem_cons_of_mem _ hpy) rfl

theorem live (hl : Dlist h cells) {p : ℕ} (hp : p ∈ addresses cells) : ∃ c, h.load p = some c := by
  obtain ⟨x,hx,rfl⟩ := List.mem_map.mp hp
  obtain ⟨e,he,-⟩ := hl.linked.load_of_mem hx
  exact ⟨e,he⟩

theorem mem_at {p : ℕ} :
    p ∈ addresses (xs++(a,d) :: ys) ↔ p ∈ addresses xs ∨ p = a ∨ p ∈ addresses ys := by
  simp only [addresses,List.map_append,List.map_cons,List.mem_append,List.mem_cons]

theorem insertAfterDlist_spec (hl : Dlist h (xs++(a,d) :: ys)) (data : Option D) :
    ∃ h', insertAfterDlist h a data = some (h.next,h') ∧
      Dlist h' (xs++(a,d) :: (h.next,data) :: ys) ∧ h'.next = h.next+1 ∧
      Keeps h h' (addresses (xs++(a,d) :: ys)) := by
  obtain ⟨hdx,hdy,hax,hay,hxy⟩ := hl.distinct_at
  have hfresh : ∀ p ∈ addresses (xs++(a,d) :: ys), p ≠ h.next := by
    intro p hp
    exact Nat.ne_of_lt (hl.lt_next hp)
  have hsucc : ∀ o, (addresses ys).head? = some o → o ≠ a ∧ ∃ c, h.load o = some c := by
    intro o ho
    have hoy := List.mem_of_head? ho
    exact ⟨ne_of_mem_of_not_mem hoy hay,hl.live (mem_at.mpr (Or.inr (Or.inr hoy)))⟩
  obtain ⟨h',heq,hnext,hload⟩ := insertAfterDlist_load hl.load_at hsucc data
  have hkeep : ∀ p, p ≠ h.next → p ≠ a → p ∉ addresses ys → h'.load p = h.load p := by
    intro p hn hpa hpy
    have hhead : (addresses ys).head? ≠ some p := by
      intro hp
      exact hpy (List.mem_of_head? hp)
    rw [hload,if_neg hn,if_neg hpa,if_neg hhead]
  refine ⟨h',heq,⟨?_,?_⟩,hnext,?_⟩
  · obtain ⟨hx,-,hy⟩ := Linked.append_iff.mp hl.linked
    apply Linked.append_iff.mpr
    refine ⟨hx.congr ?_,?_,?_,hy.relinkBefore ?_ hdy⟩
    · intro p hp
      exact hkeep p (hfresh p (mem_at.mpr (Or.inl hp))) (ne_of_mem_of_not_mem hp hax) (hxy p hp)
    · rw [hload,if_neg (hfresh a (mem_at.mpr (Or.inr (Or.inl rfl)))),if_pos rfl]
      simp
    · rw [hload,if_pos rfl]
      simp
    · intro p hp
      rw [hload,if_neg (hfresh p (mem_at.mpr (Or.inr (Or.inr hp)))),if_neg (ne_of_mem_of_not_mem hp hay)]
  · have hn : h.next ∉ addresses (xs++(a,d) :: ys) := fun hp => hfresh _ hp rfl
    have hperm : (xs++(a,d) :: (h.next,data) :: ys).Perm ((h.next,data) :: (xs++(a,d) :: ys)) := by
      have hmid := @List.perm_middle _ (h.next,data) (xs++[(a,d)]) ys
      simpa using hmid
    exact (hperm.map Prod.fst).nodup_iff.mpr (List.nodup_cons.mpr ⟨hn,hl.distinct⟩)
  · intro p hp hpn
    rw [mem_at,not_or,not_or] at hp
    exact hkeep p (Nat.ne_of_lt hpn) hp.2.1 hp.2.2

theorem deleteDlistElement_spec (hl : Dlist h (xs++(a,d) :: ys)) :
    ∃ h', deleteDlistElement h a = some h' ∧ Dlist h' (xs++ys) ∧ h'.next = h.next ∧
      h'.load a = none ∧ Keeps h h' (addresses (xs++(a,d) :: ys)) := by
  obtain ⟨hdx,hdy,hax,hay,hxy⟩ := hl.distinct_at
  have hpred : ∀ p, (addresses xs).getLast? = some p →
      p ≠ a ∧ (addresses ys).head? ≠ some p ∧ ∃ c, h.load p = some c := by
    intro p hp
    have hpx := List.mem_of_getLast? hp
    refine ⟨ne_of_mem_of_not_mem hpx hax,?_,hl.live (mem_at.mpr (Or.inl hpx))⟩
    intro hpy
    exact hxy p hpx (List.mem_of_head? hpy)
  have hsucc : ∀ o, (addresses ys).head? = some o → o ≠ a ∧ ∃ c, h.load o = some c := by
    intro o ho
    have hoy := List.mem_of_head? ho
    exact ⟨ne_of_mem_of_not_mem hoy hay,hl.live (mem_at.mpr (Or.inr (Or.inr hoy)))⟩
  obtain ⟨h',heq,hnext,hload⟩ := deleteDlistElement_load hl.load_at hpred hsucc
  obtain ⟨hx,-,hy⟩ := Linked.append_iff.mp hl.linked
  refine ⟨h',heq,⟨Linked.append_iff.mpr ⟨hx.relinkAfter ?_ hdx,hy.relinkBefore ?_ hdy⟩,?_⟩,hnext,?_,?_⟩
  · intro p hp
    have hhead : (addresses ys).head? ≠ some p := by
      intro hpy
      exact hxy p hp (List.mem_of_head? hpy)
    rw [hload,if_neg (ne_of_mem_of_not_mem hp hax),if_neg hhead]
    simp
  · intro p hp
    have hlast : (addresses xs).getLast? ≠ some p := by
      intro hpx
      exact hxy p (List.mem_of_getLast? hpx) hp
    rw [hload,if_neg (ne_of_mem_of_not_mem hp hay),if_neg hlast]
    simp
  · simp only [addresses,List.map_append]
    exact List.nodup_append.mpr ⟨hdx,hdy,fun p hp q hq hpq => hxy p hp (hpq ▸ hq)⟩
  · rw [hload,if_pos rfl]
  · intro p hp _
    rw [mem_at,not_or,not_or] at hp
    have hlast : (addresses xs).getLast? ≠ some p := fun h => hp.1 (List.mem_of_getLast? h)
    have hhead : (addresses ys).head? ≠ some p := fun h => hp.2.2 (List.mem_of_head? h)
    rw [hload,if_neg hp.2.1,if_neg hlast,if_neg hhead]

theorem setData (hl : Dlist h (xs++(a,d) :: ys)) (data : Option D) :
    ∃ h', h.modify a (fun c => { c with data }) = some h' ∧ Dlist h' (xs++(a,data) :: ys) ∧
      h'.next = h.next ∧ Keeps h h' [a] := by
  obtain ⟨hdx,hdy,hax,hay,hxy⟩ := hl.distinct_at
  have ha := hl.load_at
  obtain ⟨hx,-,hy⟩ := Linked.append_iff.mp hl.linked
  refine ⟨_,Heap.modify_eq ha _,⟨Linked.append_iff.mpr ⟨hx.congr ?_,?_,hy.congr ?_⟩,?_⟩,rfl,?_⟩
  · intro p hp
    exact Heap.load_put_of_ne (ne_of_mem_of_not_mem hp hax) _
  · rw [Heap.load_put_self ha]
    simp
  · intro p hp
    exact Heap.load_put_of_ne (ne_of_mem_of_not_mem hp hay) _
  · simpa [addresses] using hl.distinct
  · intro p hp _
    exact Heap.load_put_of_ne (by simpa using hp) _

theorem rewind_spec {first : ℕ} {fuel : ℕ} (hl : Dlist h cells)
    (hf : (addresses cells).head? = some first) (hc : cells = xs++(a,d) :: ys) (hlen : xs.length < fuel) :
    rewind h fuel a = some first := by
  induction fuel generalizing xs ys a d with
  | zero => omega
  | succ fuel ih =>
    subst hc
    have ha := hl.load_at
    rcases List.eq_nil_or_concat xs with rfl | ⟨init,⟨p,dp⟩,rfl⟩
    · have hfa : a = first := by simpa using hf
      subst hfa
      simp [rewind,ha]
    · have hlt : init.length < fuel := by
        simp only [List.concat_eq_append,List.length_append,List.length_singleton] at hlen
        omega
      have hprev := @ih init ((a,d) :: ys) p dp (by simp) hlt
      simp [rewind,ha,hprev]

theorem freeFrom_spec {fuel : ℕ} (hl : Linked h before cells none)
    (hd : (addresses cells).Nodup) (hlen : cells.length ≤ fuel) :
    ∃ h', freeFrom fuel h (addresses cells).head? = some h' ∧ h'.next = h.next ∧
      ∀ p, h'.load p = if p ∈ addresses cells then none else h.load p := by
  induction cells generalizing h fuel before with
  | nil => exact ⟨h,by cases fuel <;> rfl,rfl,by simp⟩
  | cons x cells ih =>
    obtain ⟨hc,hr⟩ := hl
    obtain ⟨hx,hd⟩ := List.nodup_cons.mp hd
    cases fuel with
    | zero => simp at hlen
    | succ fuel =>
      have hr' : Linked (h.put x.1 none) (some x.1) cells none := by
        apply hr.congr
        intro p hp
        exact Heap.load_put_of_ne (ne_of_mem_of_not_mem hp hx) _
      obtain ⟨h',heq,hnext,hload⟩ := ih hr' hd (Nat.le_of_succ_le_succ hlen)
      refine ⟨h',?_,hnext,fun p => ?_⟩
      · simpa [freeFrom,hc,Heap.free_eq hc] using heq
      · rw [hload,Heap.load_put hc]
        by_cases hp : p ∈ addresses cells
        · simp [hp]
        · by_cases hpx : p = x.1
          · simp [hpx]
          · simp [hp,hpx]

/-- `delete_dlist` frees every element, whichever one it is given. -/
theorem deleteDlist_spec (hl : Dlist h (xs++(a,d) :: ys)) :
    ∃ h', deleteDlist h a = some h' ∧ h'.next = h.next ∧
      ∀ p, h'.load p = if p ∈ addresses (xs++(a,d) :: ys) then none else h.load p := by
  have hlen := hl.length_le_next
  obtain ⟨first,hf⟩ : ∃ first, (addresses (xs++(a,d) :: ys)).head? = some first := by
    cases xs <;> simp
  have hrewind : rewind h h.next a = some first := by
    apply hl.rewind_spec hf rfl
    simp at hlen
    omega
  obtain ⟨h',heq,hnext,hload⟩ := freeFrom_spec hl.linked hl.distinct hlen
  refine ⟨h',?_,hnext,hload⟩
  rw [hf] at heq
  simpa [deleteDlist,hrewind] using heq

end Dlist
end OpenFlowController.Table
