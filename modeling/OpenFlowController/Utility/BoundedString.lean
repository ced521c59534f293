import Mathlib.Data.List.Basic
import Mathlib.Data.List.TakeDrop
import Mathlib.Tactic.Set

/-! # Strings in buffers of a fixed size

A buffer spells the characters in front of its first NUL. A write without a result has
left the buffer, and so has a search for a NUL that is not there.
-/
namespace OpenFlowController.BoundedString

abbrev nul : Char := '\x00'

def strlen (buf : List Char) : Option ℕ := buf.findIdx? (· = nul)

/-- At most `size` characters, the last of them NUL, are written from `o` on. -/
def snprintf (buf : List Char) (o size : ℕ) (text : List Char) : Option (List Char) :=
  if size = 0 then some buf
  else
    let written := text.take (size-1)++[nul]
    if o+written.length ≤ buf.length then some (buf.take o++written++buf.drop (o+written.length))
    else none

def poke (buf : List Char) (o : ℕ) (c : Char) : Option (List Char) :=
  if o < buf.length then some (buf.set o c) else none

def Spells (buf text : List Char) : Prop := nul ∉ text ∧ ∃ rest, buf = text++nul :: rest

variable {buf text : List Char}

theorem spells_replicate {size : ℕ} (hsize : 0 < size) : Spells (List.replicate size nul) [] := by
  obtain ⟨k,rfl⟩ : ∃ k, size = k+1 := ⟨size-1,by omega⟩
  exact ⟨List.not_mem_nil,List.replicate k nul,List.replicate_succ⟩

namespace Spells

theorem length_lt (h : Spells buf text) : text.length < buf.length := by
  obtain ⟨_,rest,rfl⟩ := h
  simp

theorem strlen_eq (h : Spells buf text) : strlen buf = some text.length := by
  obtain ⟨hnul,rest,rfl⟩ := h
  induction text with
  | nil => rfl
  | cons c text ih =>
    rw [List.mem_cons,not_or] at hnul
    rw [strlen,List.cons_append,List.findIdx?_cons,if_neg (by simpa using Ne.symm hnul.1)]
    rw [strlen] at ih
    rw [ih hnul.2]
    rfl

/-- Printing behind what is spelled, into all the space that is left, adds what fits. -/
theorem snprintf_eq (h : Spells buf text) {more : List Char} (hmore : nul ∉ more) :
    ∃ buf', snprintf buf text.length (buf.length-text.length) more = some buf' ∧ buf'.length = buf.length ∧
      Spells buf' (text++more.take (buf.length-text.length-1)) := by
  have hlt := h.length_lt
  obtain ⟨hnul,rest,hbuf⟩ := h
  have htake : buf.take text.length = text := by rw [hbuf,List.take_left]
  set fitting := more.take (buf.length-text.length-1) with hfitting
  have hfits : text.length+(fitting++[nul]).length ≤ buf.length := by
    rw [List.length_append,hfitting,List.length_take,List.length_singleton]
    omega
  refine ⟨text++(fitting++[nul])++buf.drop (text.length+(fitting++[nul]).length),
    ?_,?_,?_,buf.drop (text.length+(fitting++[nul]).length),?_⟩
  · rw [snprintf,if_neg (by omega),← hfitting]
    simp only [hfits,if_true,htake]
  · rw [List.length_append,List.length_append,List.length_drop]
    omega
  · rw [List.mem_append,not_or]
    exact ⟨hnul,fun hmem => hmore (List.mem_of_mem_take hmem)⟩
  · simp only [List.append_assoc,List.singleton_append]

end Spells
end OpenFlowController.BoundedString
