import Mathlib.Data.Finset.Card
import OpenFlowController.Memory.Heap

/-! # The cells still allocated

An address is never handed out twice, so the live cells of a heap are a finite set.
Allocation adds one address to it, `free` takes one away, and no assignment changes it:
an operation's whole effect on the memory in use is read off its allocations and frees.
-/
namespace OpenFlowController.Memory
namespace Heap
variable {α : Type*} {h h' : Heap α} {p q : ℕ}

def live (h : Heap α) : Finset ℕ := (Finset.range h.next).filter (fun p => (h.load p).isSome)

theorem mem_live : p ∈ h.live ↔ ∃ a, h.load p = some a := by
  rw [live,Finset.mem_filter,Finset.mem_range,Option.isSome_iff_exists]
  constructor
  · exact fun hp => hp.2
  · intro hp
    obtain ⟨a,ha⟩ := hp
    exact ⟨lt_next ha,a,ha⟩

theorem notMem_live : p ∉ h.live ↔ h.load p = none := by
  rw [mem_live,← Option.isSome_iff_exists,Option.not_isSome_iff_eq_none]

theorem next_notMem_live (h : Heap α) : h.next ∉ h.live :=
  notMem_live.mpr (load_eq_none_of_le (Nat.le_refl _))

/-- The live cells depend only on where there is something to load. -/
theorem live_congr (hl : ∀ p, (h'.load p).isSome = (h.load p).isSome) : h'.live = h.live := by
  ext p
  rw [mem_live,mem_live,← Option.isSome_iff_exists,← Option.isSome_iff_exists,hl]

@[simp] theorem live_empty : (empty : Heap α).live = ∅ := rfl

@[simp] theorem live_alloc (h : Heap α) (a : α) : (h.alloc a).live = insert h.next h.live := by
  ext p
  rw [mem_live,Finset.mem_insert,mem_live,load_alloc]
  by_cases hp : p = h.next <;> simp [hp]

theorem card_live_alloc (h : Heap α) (a : α) : (h.alloc a).live.card = h.live.card+1 := by
  rw [live_alloc,Finset.card_insert_of_notMem (next_notMem_live h)]

theorem live_put_some {b : α} (hp : h.load p = some b) (a : α) : (h.put p (some a)).live = h.live := by
  apply live_congr
  intro q
  rw [load_put hp]
  by_cases hq : q = p <;> simp [hq,hp]

theorem live_put_none {b : α} (hp : h.load p = some b) : (h.put p none).live = h.live.erase p := by
  ext q
  rw [mem_live,Finset.mem_erase,mem_live,load_put hp]
  by_cases hq : q = p <;> simp [hq]

theorem live_of_modify {f : α → α} (hm : h.modify p f = some h') : h'.live = h.live := by
  obtain ⟨c,hc,-⟩ := Option.bind_eq_some_iff.mp hm
  rw [modify_eq hc,Option.some.injEq] at hm
  rw [← hm,live_put_some hc]

theorem live_of_modifyIf {p : Option ℕ} {f : α → α} (hm : h.modifyIf p f = some h') : h'.live = h.live := by
  cases p with
  | none => rw [Option.some.inj hm]
  | some p => exact live_of_modify hm

theorem live_of_free (hf : h.free p = some h') : h'.live = h.live.erase p := by
  obtain ⟨⟨b,hb⟩,rfl⟩ := free_cases hf
  exact live_put_none hb

theorem mem_live_of_free (hf : h.free p = some h') : p ∈ h.live :=
  mem_live.mpr (free_cases hf).1

theorem card_live_of_free (hf : h.free p = some h') : h'.live.card+1 = h.live.card := by
  rw [live_of_free hf,Finset.card_erase_add_one (mem_live_of_free hf)]

/-- Freeing exactly the listed cells, each once. -/
theorem card_live_of_freed {ps : List ℕ} (hd : ps.Nodup) (hl : ∀ p ∈ ps, p ∈ h.live)
    (hload : ∀ q, h'.load q = if q ∈ ps then none else h.load q) :
    h'.live.card+ps.length = h.live.card := by
  have hset : h'.live = h.live \ ps.toFinset := by
    ext q
    rw [Finset.mem_sdiff,List.mem_toFinset,mem_live,mem_live,hload]
    by_cases hq : q ∈ ps <;> simp [hq]
  have hsub : ps.toFinset ⊆ h.live := by
    intro p hp
    exact hl p (List.mem_toFinset.mp hp)
  have hcard := Finset.card_sdiff_add_card_eq_card hsub
  rwa [List.toFinset_card_of_nodup hd,← hset] at hcard

theorem length_le_card_live {ps : List ℕ} (hd : ps.Nodup) (hl : ∀ p ∈ ps, p ∈ h.live) :
    ps.length ≤ h.live.card := by
  rw [← List.toFinset_card_of_nodup hd]
  apply Finset.card_le_card
  intro p hp
  exact hl p (List.mem_toFinset.mp hp)

end Heap
end OpenFlowController.Memory
