import OpenFlowController.Check.Control

/-! # Items that fill a stretch

A stretch is tiled when well-formed items follow one another from an offset to its
end. A walk comes to the end of a tiled stretch, and what it has come through tiles
the stretch when no item reaches past the end.
-/
namespace OpenFlowController.Check

/-- The items from an offset on, each as long as its step, come to `stop` exactly. -/
inductive Tiled (formed : ℕ → Prop) (step : ℕ → ℕ) (stop : ℕ) : ℕ → Prop
  | done : Tiled formed step stop stop
  | item {o : ℕ} : formed o → Tiled formed step stop (o+step o) → Tiled formed step stop o

/-- The states inside a stretch stand at offsets of it. Where there is more the end
is not reached, and an item that ends in the stretch leads right behind itself. -/
structure Cursor {σ : Type} (more : σ → Bool) (next : σ → σ) (inside : σ → Prop) (pos : σ → ℕ)
    (step : ℕ → ℕ) (stop : ℕ) : Prop where
  before : ∀ s, inside s → more s → pos s < stop
  moves : ∀ s, inside s → more s → pos s+step (pos s) ≤ stop →
    inside (next s) ∧ pos (next s) = pos s+step (pos s)

section Rules
variable {formed : ℕ → Prop} {step : ℕ → ℕ} {stop o : ℕ}

theorem Tiled.le (h : Tiled formed step stop o) : o ≤ stop := by
  induction h with
  | done => exact Nat.le_refl stop
  | item _ _ ih => omega

theorem Tiled.first (h : Tiled formed step stop o) (ho : o < stop) :
    formed o ∧ Tiled formed step stop (o+step o) := by
  cases h with
  | done => omega
  | item hf hrest => exact ⟨hf,hrest⟩

namespace Cursor
variable {σ : Type} {more : σ → Bool} {accepted inside : σ → Prop} {next : σ → σ} {pos : σ → ℕ} {s t : σ}

/-- A walk over a tiled stretch stays on the bounds of its items. -/
theorem tiled_of_visits (c : Cursor more next inside pos step stop) (hs : inside s)
    (h : Tiled formed step stop (pos s)) (ht : Visits more accepted next s t) :
    inside t ∧ Tiled formed step stop (pos t) := by
  induction ht with
  | refl => exact ⟨hs,h⟩
  | @tail t u _ hstep ih =>
    obtain ⟨hin,htiled⟩ := ih
    obtain ⟨hm,-,rfl⟩ := hstep
    obtain ⟨-,hrest⟩ := htiled.first (c.before t hin hm)
    obtain ⟨hin',hpos⟩ := c.moves t hin hm hrest.le
    exact ⟨hin',hpos ▸ hrest⟩

/-- The items of a tiled stretch are well formed and end inside it, where the walk
comes to them. -/
theorem item_of_tiled (c : Cursor more next inside pos step stop) (hs : inside s)
    (h : Tiled formed step stop (pos s)) (ht : Visits more accepted next s t) (hm : more t) :
    inside t ∧ formed (pos t) ∧ pos t+step (pos t) ≤ stop := by
  obtain ⟨hin,htiled⟩ := c.tiled_of_visits hs h ht
  obtain ⟨hf,hrest⟩ := htiled.first (c.before t hin hm)
  exact ⟨hin,hf,hrest.le⟩

theorem tiled_of_items (c : Cursor more next inside pos step stop) (hs : inside s)
    (ht : Visits more accepted next s t) (hend : inside t → pos t = stop)
    (hitem : ∀ u, Visits more accepted next s u → inside u → more u →
      formed (pos u) ∧ pos u+step (pos u) ≤ stop) : Tiled formed step stop (pos s) := by
  induction ht using Relation.ReflTransGen.head_induction_on with
  | refl =>
    rw [hend hs]
    exact .done
  | @head s s' hstep _ ih =>
    obtain ⟨hm,ha,rfl⟩ := hstep
    obtain ⟨hf,hle⟩ := hitem s .refl hs hm
    obtain ⟨hin,hpos⟩ := c.moves s hs hm hle
    have hrest := ih hin (fun u hu => hitem u (Visits.head hm ha hu))
    exact .item hf (hpos ▸ hrest)

/-- A walk that accepts well-formed items comes to the end of a tiled stretch. -/
theorem ends_of_tiled (c : Cursor more next inside pos step stop) (hs : inside s)
    (hformed : ∀ u, inside u → more u → formed (pos u) → accepted u)
    (h : Tiled formed step stop (pos s)) : ∃ t, Visits more accepted next s t ∧ more t = false := by
  generalize hp : pos s = o at h
  induction h generalizing s with
  | done =>
    refine ⟨s,.refl,?_⟩
    by_contra hm
    have hlt := c.before s hs (by simpa using hm)
    omega
  | @item o hf hrest ih =>
    subst hp
    cases hm : more s with
    | false => exact ⟨s,.refl,hm⟩
    | true =>
      obtain ⟨hin,hpos⟩ := c.moves s hs hm hrest.le
      obtain ⟨t,ht,hend⟩ := ih hin hpos
      exact ⟨t,Visits.head hm (hformed s hs hm hf) ht,hend⟩

end Cursor

/-- A 16-bit offset walks over a list of fewer than 2^16 bytes. -/
theorem offsetCursor (step : ℕ → ℕ) {length : ℕ} (hlength : length < 65536) :
    Cursor (fun offset => decide (offset < length)) (fun offset => (offset+step offset)%65536)
      (fun offset => offset ≤ length) id step length where
  before offset _ hm := by simpa using hm
  moves offset _ _ hle := by
    simp only [id] at hle ⊢
    rw [Nat.mod_eq_of_lt (Nat.lt_of_le_of_lt hle hlength)]
    exact ⟨hle,rfl⟩

/-- So does a pair of the bytes left in 16 bits and the offset, up to `least` bytes
before the end. -/
theorem leftCursor (step : ℕ → ℕ) (least : ℕ) {stop : ℕ} (hstop : stop < 65536) :
    Cursor (fun s : ℕ × ℕ => decide (least < s.1)) (fun s => (Memory.sub16 s.1 (step s.2),s.2+step s.2))
      (fun s => s.2+s.1 = stop) Prod.snd step stop where
  before s hin hm := by
    simp only [decide_eq_true_eq] at hm
    omega
  moves s hin _ hle := by
    have hleft : Memory.sub16 s.1 (step s.2) = s.1-step s.2 := Memory.sub16_of_le (by omega) (by omega)
    simp only [hleft,and_true]
    omega

/-- A list that the 16-bit offset has walked over is tiled when no item reaches past
its end. -/
theorem tiled_iff_contained {accepted : ℕ → Prop} {length : ℕ} (hlength : length < 65536)
    (hend : ∃ offset, Visits (fun offset => offset < length) accepted
      (fun offset => (offset+step offset)%65536) 0 offset ∧ length ≤ offset) :
    Tiled accepted step length 0 ↔ ∀ offset, Visits (fun offset => offset < length) accepted
      (fun offset => (offset+step offset)%65536) 0 offset → offset < length → offset+step offset ≤ length := by
  have cursor := offsetCursor step hlength
  obtain ⟨last,hlast,hle⟩ := hend
  have hstop : decide (last < length) = false := by simpa using hle
  constructor
  · intro h offset ho hl
    exact (cursor.item_of_tiled (Nat.zero_le length) h ho (by simpa using hl)).2.2
  · intro hcontained
    refine cursor.tiled_of_items (Nat.zero_le length) hlast (fun hin => Nat.le_antisymm hin hle) ?_
    intro offset ho _ hm
    exact ⟨Visits.accepted ho hlast hstop hm,hcontained offset ho (by simpa using hm)⟩

end Rules
end OpenFlowController.Check
