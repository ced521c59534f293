import Mathlib.Data.Nat.Notation
import Mathlib.Logic.Function.Basic

/-! # Tables of open files

What the descriptors of a process lead to. A descriptor that is the only one for its
file stays so while others are opened and closed, and can be moved.
-/
namespace OpenFlowController.Serving

def FileTable (F : Type*) := ℕ → Option F

namespace FileTable
variable {F : Type*}

def opened (table : FileTable F) (fd : ℕ) (file : F) : FileTable F := Function.update table fd (some file)

/-- Without effect on a descriptor that is not open. -/
def close (table : FileTable F) (fd : ℕ) : FileTable F := Function.update table fd none

def dup2 (table : FileTable F) (oldfd newfd : ℕ) : FileTable F :=
  match table oldfd with
  | none => table
  | some file => table.opened newfd file

def Solely (table : FileTable F) (fd : ℕ) (file : F) : Prop := ∀ fd', table fd' = some file ↔ fd' = fd

def Without (table : FileTable F) (file : F) : Prop := ∀ fd, table fd ≠ some file

variable {table : FileTable F} {fd newfd : ℕ} {file other : F}

theorem opened_apply (fd' : ℕ) : table.opened fd file fd' = if fd' = fd then some file else table fd' :=
  Function.update_apply ..

theorem close_apply (fd' : ℕ) : table.close fd fd' = if fd' = fd then none else table fd' :=
  Function.update_apply ..

theorem dup2_of_open (h : table fd = some file) (newfd : ℕ) : table.dup2 fd newfd = table.opened newfd file := by
  simp only [dup2,h]

theorem close_self (table : FileTable F) (fd : ℕ) : table.close fd fd = none := (close_apply fd).trans (if_pos rfl)

/-- Opened where nothing was and closed again. -/
theorem close_opened (h : table fd = none) (file : F) : (table.opened fd file).close fd = table := by
  funext fd'
  rw [close_apply,opened_apply]
  by_cases hfd : fd' = fd
  · rw [if_pos hfd,hfd,h]
  · rw [if_neg hfd,if_neg hfd]

theorem Without.solely_opened (h : table.Without file) (fd : ℕ) : (table.opened fd file).Solely fd file := by
  intro fd'
  rw [opened_apply]
  by_cases hfd : fd' = fd
  · simp [hfd]
  · simp [hfd,h fd']

theorem Solely.opened_other (h : table.Solely fd file) (hfree : table newfd = none) (hne : other ≠ file) :
    (table.opened newfd other).Solely fd file := by
  intro fd'
  rw [opened_apply]
  by_cases hfd : fd' = newfd
  · have hnot : newfd ≠ fd := by
      rintro rfl
      rw [(h newfd).mpr rfl] at hfree
      cases hfree
    simp [hfd,hne,hnot]
  · rw [if_neg hfd]
    exact h fd'

theorem Solely.without_close (h : table.Solely fd file) : (table.close fd).Without file := by
  intro fd' hfd'
  rw [close_apply] at hfd'
  split at hfd'
  · cases hfd'
  · exact absurd ((h fd').mp hfd') ‹_›

theorem Without.close (h : table.Without file) (fd : ℕ) : (table.close fd).Without file := by
  intro fd' hfd'
  rw [close_apply] at hfd'
  split at hfd'
  · cases hfd'
  · exact h fd' hfd'

theorem Without.opened_other (h : table.Without file) (fd : ℕ) (hne : other ≠ file) :
    (table.opened fd other).Without file := by
  intro fd' hfd'
  rw [opened_apply] at hfd'
  split at hfd'
  · exact hne (Option.some.inj hfd')
  · exact h fd' hfd'

theorem Solely.close_other (h : table.Solely fd file) (hne : newfd ≠ fd) : (table.close newfd).Solely fd file := by
  intro fd'
  rw [close_apply]
  by_cases hfd : fd' = newfd
  · simp [hfd,hne]
  · rw [if_neg hfd]
    exact h fd'

/-- The file is moved, and what the new descriptor led to before is gone. -/
theorem Solely.move (h : table.Solely fd file) (hne : fd ≠ newfd) :
    ((table.dup2 fd newfd).close fd).Solely newfd file := by
  intro fd'
  have hold : table fd = some file := (h fd).mpr rfl
  rw [close_apply,dup2_of_open hold]
  by_cases hfd : fd' = fd
  · simp [hfd,hne]
  · rw [if_neg hfd,opened_apply]
    by_cases hnew : fd' = newfd
    · simp [hnew]
    · simp [hnew,h fd',hfd]

theorem Solely.without_move (h : table.Solely fd file) (hother : table.Without other) (hne : file ≠ other) :
    ((table.dup2 fd newfd).close fd).Without other := by
  have hold : table fd = some file := (h fd).mpr rfl
  rw [dup2_of_open hold]
  exact (hother.opened_other newfd hne).close fd

end FileTable
end OpenFlowController.Serving
