import Mathlib.Logic.Function.Basic
import Mathlib.Data.List.Basic
import Mathlib.Data.List.Nodup
import Mathlib.Data.List.Perm.Subperm

/-! # Heaps of allocation identities

An address is the identity of one allocation and is never handed out again. A
reclaimed or never allocated address has no cell, so an access that a pointer
program is not allowed to make is literally the absence of a result.
-/
namespace OpenFlowController.Memory

structure Heap (α : Type*) where
  cell : ℕ → Option α
  next : ℕ
  fresh : ∀ p, next ≤ p → cell p = none

namespace Heap
variable {α : Type*}

def empty : Heap α := ⟨fun _ => none,0,fun _ _ => rfl⟩

def load (h : Heap α) (p : ℕ) : Option α := h.cell p

def alloc (h : Heap α) (a : α) : Heap α where
  cell := Function.update h.cell h.next (some a)
  next := h.next+1
  fresh p hp := by
    rw [Function.update_of_ne (by omega)]
    exact h.fresh p (by omega)

def put (h : Heap α) (p : ℕ) (c : Option α) : Heap α where
  cell q := if q = p ∧ p < h.next then c else h.cell q
  next := h.next
  fresh q hq := by
    rw [if_neg (by omega)]
    exact h.fresh q hq

def store (h : Heap α) (p : ℕ) (a : α) : Option (Heap α) :=
  if (h.load p).isSome then some (h.put p (some a)) else none

def free (h : Heap α) (p : ℕ) : Option (Heap α) :=
  if (h.load p).isSome then some (h.put p none) else none

/-- Assign through a pointer: read the cell, write it back changed. -/
def modify (h : Heap α) (p : ℕ) (f : α → α) : Option (Heap α) := do
  let c ← h.load p
  h.store p (f c)

/-- `if ( p != NULL )` in front of an assignment through `p`. -/
def modifyIf (h : Heap α) (p : Option ℕ) (f : α → α) : Option (Heap α) :=
  match p with
  | none => some h
  | some p => h.modify p f

theorem load_eq_none_of_le {h : Heap α} {p : ℕ} (hp : h.next ≤ p) : h.load p = none := h.fresh p hp

theorem lt_next {h : Heap α} {p : ℕ} {a : α} (hp : h.load p = some a) : p < h.next := by
  by_contra hn
  rw [load_eq_none_of_le (by omega)] at hp
  cases hp

theorem ne_next {h : Heap α} {p : ℕ} {a : α} (hp : h.load p = some a) : p ≠ h.next :=
  Nat.ne_of_lt (lt_next hp)

@[simp] theorem next_empty : (empty : Heap α).next = 0 := rfl
@[simp] theorem next_alloc (h : Heap α) (a : α) : (h.alloc a).next = h.next+1 := rfl
@[simp] theorem next_put (h : Heap α) (p : ℕ) (c : Option α) : (h.put p c).next = h.next := rfl

theorem load_alloc (h : Heap α) (a : α) (q : ℕ) :
    (h.alloc a).load q = if q = h.next then some a else h.load q := by
  simp only [load,alloc,Function.update_apply]

@[simp] theorem load_alloc_next (h : Heap α) (a : α) : (h.alloc a).load h.next = some a := by
  simp [load_alloc]

theorem load_alloc_of_ne (h : Heap α) (a : α) {q : ℕ} (hq : q ≠ h.next) :
    (h.alloc a).load q = h.load q := by
  rw [load_alloc,if_neg hq]

theorem load_put {h : Heap α} {p : ℕ} {b : α} (hp : h.load p = some b) (c : Option α) (q : ℕ) :
    (h.put p c).load q = if q = p then c else h.load q := by
  have hlt := lt_next hp
  simp [load,put,hlt]

theorem load_put_self {h : Heap α} {p : ℕ} {b : α} (hp : h.load p = some b) (c : Option α) :
    (h.put p c).load p = c := by
  rw [load_put hp,if_pos rfl]

theorem load_put_of_ne {h : Heap α} {p q : ℕ} (hq : q ≠ p) (c : Option α) :
    (h.put p c).load q = h.load q := by
  simp [load,put,hq]

/-- A new cell stays what it is while another one is assigned to. -/
theorem load_put_alloc_next (h : Heap α) (a : α) {p : ℕ} (hp : p ≠ h.next) (c : Option α) :
    ((h.alloc a).put p c).load h.next = some a := by
  rw [load_put_of_ne hp.symm,load_alloc_next]

theorem store_eq {h : Heap α} {p : ℕ} {b : α} (hp : h.load p = some b) (a : α) :
    h.store p a = some (h.put p (some a)) := by
  simp [store,hp]

theorem free_eq {h : Heap α} {p : ℕ} {b : α} (hp : h.load p = some b) :
    h.free p = some (h.put p none) := by
  simp [free,hp]

theorem free_cases {h h' : Heap α} {p : ℕ} (hf : h.free p = some h') :
    (∃ b, h.load p = some b) ∧ h' = h.put p none := by
  unfold free at hf
  split at hf
  · rename_i hlive
    cases hf
    exact ⟨Option.isSome_iff_exists.mp hlive,rfl⟩
  · cases hf

theorem next_of_free {h h' : Heap α} {p : ℕ} (hf : h.free p = some h') : h'.next = h.next := by
  rw [(free_cases hf).2]
  rfl

/-- A heap is what can be loaded from it, and where it goes on. -/
theorem ext_load {h h' : Heap α} (hload : ∀ p, h.load p = h'.load p) (hnext : h.next = h'.next) : h = h' := by
  obtain ⟨cell,next,_⟩ := h
  obtain ⟨cell',next',_⟩ := h'
  obtain rfl : cell = cell' := funext hload
  obtain rfl : next = next' := hnext
  rfl

theorem put_of_load {h : Heap α} {p : ℕ} {a : α} (hp : h.load p = some a) : h.put p (some a) = h := by
  refine ext_load (fun q => ?_) rfl
  rw [load_put hp]
  split
  · rename_i hq
    rw [hq,hp]
  · rfl

theorem put_put (h : Heap α) (p : ℕ) (c c' : Option α) : (h.put p c).put p c' = h.put p c' := by
  refine ext_load (fun q => ?_) rfl
  simp only [load,put]
  split <;> rfl

/-- The same allocations with what `f` keeps of them. -/
def map {β : Type*} (f : α → β) (h : Heap α) : Heap β where
  cell p := (h.cell p).map f
  next := h.next
  fresh p hp := by rw [h.fresh p hp,Option.map_none]

section Map
variable {β : Type*} (f : α → β) (h : Heap α)

@[simp] theorem load_map (p : ℕ) : (h.map f).load p = (h.load p).map f := rfl

@[simp] theorem next_map : (h.map f).next = h.next := rfl

theorem map_alloc (a : α) : (h.alloc a).map f = (h.map f).alloc (f a) := by
  refine ext_load (fun p => ?_) rfl
  rw [load_map,load_alloc,load_alloc,next_map,apply_ite (Option.map f)]
  rfl

theorem map_put (p : ℕ) (c : Option α) : (h.put p c).map f = (h.map f).put p (c.map f) := by
  refine ext_load (fun q => ?_) rfl
  by_cases hq : q = p ∧ p < h.next <;> simp [load,map,put,hq]

theorem map_free (p : ℕ) : (h.free p).map (map f) = (h.map f).free p := by
  simp only [free,load_map,Option.isSome_map]
  split
  · rw [Option.map_some,map_put]
    rfl
  · rfl

end Map

theorem modify_eq {h : Heap α} {p : ℕ} {b : α} (hp : h.load p = some b) (f : α → α) :
    h.modify p f = some (h.put p (some (f b))) := by
  simp [modify,hp,store_eq hp]

theorem modifyIf_load {h : Heap α} {p : Option ℕ} (hp : ∀ q, p = some q → ∃ c, h.load q = some c)
    (f : α → α) : ∃ h', h.modifyIf p f = some h' ∧ h'.next = h.next ∧
      ∀ q, h'.load q = if p = some q then (h.load q).map f else h.load q := by
  cases p with
  | none => exact ⟨h,rfl,rfl,by simp⟩
  | some p =>
    obtain ⟨c,hc⟩ := hp p rfl
    refine ⟨_,modify_eq hc f,rfl,fun q => ?_⟩
    rw [load_put hc]
    by_cases hq : q = p
    · simp [hq,hc]
    · simp [hq,Ne.symm hq]

theorem length_le_next {h : Heap α} {ps : List ℕ} (hd : ps.Nodup)
    (hl : ∀ p ∈ ps, ∃ c, h.load p = some c) : ps.length ≤ h.next := by
  have hsub : ps ⊆ List.range h.next := by
    intro p hp
    obtain ⟨c,hc⟩ := hl p hp
    exact List.mem_range.mpr (lt_next hc)
  have hle := (List.subperm_of_subset hd hsub).length_le
  rwa [List.length_range] at hle

/-- Following `link` from `p` visits exactly the listed cells and arrives at `q`. -/
def Segment (h : Heap α) (link : α → Option ℕ) : Option ℕ → List (ℕ × α) → Option ℕ → Prop
  | p, [], q => p = q
  | p, (a,c) :: cells, q => p = some a ∧ h.load a = some c ∧ Segment h link (link c) cells q

namespace Segment
variable {h h' : Heap α} {link : α → Option ℕ}

@[simp] theorem nil_iff {p q : Option ℕ} : Segment h link p [] q ↔ p = q := Iff.rfl

@[simp] theorem cons_iff {p q : Option ℕ} {a : ℕ} {c : α} {cells : List (ℕ × α)} :
    Segment h link p ((a,c) :: cells) q ↔
      p = some a ∧ h.load a = some c ∧ Segment h link (link c) cells q := Iff.rfl

theorem append_iff {p q : Option ℕ} {xs ys : List (ℕ × α)} :
    Segment h link p (xs++ys) q ↔ ∃ r, Segment h link p xs r ∧ Segment h link r ys q := by
  induction xs generalizing p with
  | nil => simp
  | cons x xs ih =>
    obtain ⟨a,c⟩ := x
    simp only [List.cons_append,cons_iff,ih]
    constructor
    · rintro ⟨hp,hc,r,hx,hy⟩
      exact ⟨r,⟨hp,hc,hx⟩,hy⟩
    · rintro ⟨r,⟨hp,hc,hx⟩,hy⟩
      exact ⟨hp,hc,r,hx,hy⟩

theorem load_of_mem {p q : Option ℕ} {cells : List (ℕ × α)} (hs : Segment h link p cells q)
    {x : ℕ × α} (hx : x ∈ cells) : h.load x.1 = some x.2 := by
  induction cells generalizing p with
  | nil => simp at hx
  | cons y cells ih =>
    obtain ⟨_,hc,hr⟩ := hs
    rcases List.mem_cons.mp hx with rfl | hx
    · exact hc
    · exact ih hr hx

/-- A list that ends is determined by where it begins. -/
theorem unique {p : Option ℕ} {xs ys : List (ℕ × α)} (hx : Segment h link p xs none)
    (hy : Segment h link p ys none) : xs = ys := by
  induction xs generalizing p ys with
  | nil =>
    obtain rfl : p = none := hx
    cases ys with
    | nil => rfl
    | cons y ys => cases hy.1
  | cons x xs ih =>
    obtain ⟨a,c⟩ := x
    obtain ⟨rfl,hc,hrest⟩ := hx
    cases ys with
    | nil => cases hy
    | cons y ys =>
      obtain ⟨b,d⟩ := y
      obtain ⟨hab,hd,hrest'⟩ := hy
      cases hab
      obtain rfl : c = d := Option.some.inj (hc.symm.trans hd)
      rw [ih hrest hrest']

/-- A list that ends passes no cell twice: from a cell met again it would not end. -/
theorem nodup {p : Option ℕ} {cells : List (ℕ × α)} (hs : Segment h link p cells none) :
    (cells.map Prod.fst).Nodup := by
  induction cells generalizing p with
  | nil => exact List.nodup_nil
  | cons x cells ih =>
    obtain ⟨a,c⟩ := x
    have hrest := hs.2.2
    refine List.nodup_cons.mpr ⟨fun ha => ?_,ih hrest⟩
    obtain ⟨⟨a',c'⟩,hmem,rfl⟩ := List.mem_map.mp ha
    obtain ⟨pre,post,rfl⟩ := List.append_of_mem hmem
    obtain ⟨_,_,hback⟩ := append_iff.mp hrest
    have hfrom : Segment h link (some a') ((a',c') :: post) none := ⟨rfl,hback.2.1,hback.2.2⟩
    have hthere : Segment h link (some a') ((a',c) :: (pre++(a',c') :: post)) none := ⟨rfl,hs.2.1,hrest⟩
    have hlen := congrArg List.length (unique hthere hfrom)
    simp only [List.length_cons,List.length_append] at hlen
    omega

theorem congr {p q : Option ℕ} {cells : List (ℕ × α)} (hs : Segment h link p cells q)
    (he : ∀ x ∈ cells, h'.load x.1 = h.load x.1) : Segment h' link p cells q := by
  induction cells generalizing p with
  | nil => exact hs
  | cons y cells ih =>
    obtain ⟨hp,hc,hr⟩ := hs
    refine ⟨hp,?_,ih hr (fun x hx => he x (List.mem_cons_of_mem _ hx))⟩
    exact (he y List.mem_cons_self).trans hc

theorem alloc {p q : Option ℕ} {cells : List (ℕ × α)} (hs : Segment h link p cells q) (a : α) :
    Segment (h.alloc a) link p cells q :=
  hs.congr (fun _ hx => load_alloc_of_ne h a (ne_next (hs.load_of_mem hx)))

theorem put {p q : Option ℕ} {cells : List (ℕ × α)} (hs : Segment h link p cells q)
    {r : ℕ} (hr : r ∉ cells.map Prod.fst) (c : Option α) : Segment (h.put r c) link p cells q := by
  refine hs.congr (fun x hx => load_put_of_ne ?_ c)
  rintro rfl
  exact hr (List.mem_map_of_mem hx)

/-- Rewriting one cell of a list that ends: the cells up to it now lead where its new link
leads, and the cells behind it are still linked. -/
theorem relink {p : Option ℕ} {xs ys : List (ℕ × α)} {a : ℕ} {c : α}
    (hs : Segment h link p (xs++(a,c) :: ys) none) (c' : α) :
    Segment (h.put a (some c')) link p (xs++[(a,c')]) (link c') ∧
      Segment (h.put a (some c')) link (link c) ys none := by
  have hnd := hs.nodup
  rw [List.map_append,List.map_cons,List.nodup_middle,List.nodup_cons,List.mem_append,not_or] at hnd
  obtain ⟨⟨hxs,hys⟩,-⟩ := hnd
  obtain ⟨r,hfront,hp,hc,hback⟩ := append_iff.mp hs
  refine ⟨append_iff.mpr ⟨r,hfront.put hxs _,hp,?_,rfl⟩,hback.put hys _⟩
  rw [load_put hc,if_pos rfl]

end Segment
end Heap
end OpenFlowController.Memory
