import OpenFlowController.Table.TableRuns

/-! # Tables keyed by contents

The keys of a table are pointers. Where `compare` looks at what they point to, the
table is a map on these contents, whichever pointers its entries were made with.
-/
namespace OpenFlowController.Table
variable {P C V : Type} [DecidableEq C] (content : P → C)

/-- What is bound to each content, after one more call. -/
def bindContent (map : C → Option (Option V)) : TableCall P V → C → Option (Option V)
  | .insert key value => Function.update map (content key) (some value)
  | .delete key => Function.update map (content key) none
  | .lookup _ => map

def contentsBound (calls : List (TableCall P V)) : C → Option (Option V) :=
  calls.foldl (bindContent content) (fun _ => none)

/-- A comparison and a hash function that see the contents only. -/
structure SeesContents (ops : KeyOps P) : Prop where
  compare x y : ops.compare x y = true ↔ content x = content y

/-- What the table shows is a map on contents: in its answers, for the next call as well,
and in its length as far as 32 bits go. -/
structure ShowsMap (ops : KeyOps P) {size : ℕ+} (table : HashTable P V size) (map : C → Option (Option V)) : Prop where
  lookups : ∀ key, lookupHashEntry ops table key = some (map (content key)).join
  answers : ∀ call : TableCall P V, ∃ table', call.run ops table = some ((map (content call.key)).join,table')
  length : table.length.toNat = {c | (map c).isSome}.ncard%UInt32.size

section Rules
variable {content} {ops : KeyOps P}

theorem bindContent_apply (h : SeesContents content ops) (map : C → Option (Option V)) (call : TableCall P V) (k : P) :
    bindContent content map call (content k) =
      match call with
      | .insert key value => if ops.compare k key then some value else map (content k)
      | .delete key => if ops.compare k key then none else map (content k)
      | .lookup _ => map (content k) := by
  cases call with
  | insert key value =>
    simp only [bindContent,Function.update_apply,h.compare]
  | delete key =>
    simp only [bindContent,Function.update_apply,h.compare]
  | lookup key => rfl

theorem latest_eq (h : SeesContents content ops) (past : List (TableCall P V)) (k : P) :
    latest ops past k = contentsBound content past.reverse (content k) := by
  induction past with
  | nil => rfl
  | cons call past ih =>
    rw [contentsBound,List.reverse_cons,List.foldl_append,List.foldl_cons,List.foldl_nil,bindContent_apply h,
      ← contentsBound,← ih]
    cases call <;> rfl

/-- Only what some key points to is ever bound. -/
theorem exists_key_of_bound {calls : List (TableCall P V)} {c : C} (h : (contentsBound content calls c).isSome) :
    ∃ key, content key = c := by
  induction calls using List.reverseRecOn with
  | nil => cases h
  | append_singleton calls call ih =>
    rw [contentsBound,List.foldl_append,← contentsBound] at h
    by_cases hc : ∃ key, content key = c
    · exact hc
    · apply ih
      have hne : ∀ key, c ≠ content key := fun key he => hc ⟨key,he.symm⟩
      cases call with
      | insert key value | delete key =>
        simpa only [List.foldl_cons,List.foldl_nil,bindContent,Function.update_of_ne (hne key)] using h
      | lookup key => exact h

/-- Two keys are one class exactly if their contents agree. -/
theorem ncard_boundKeys_eq (h : SeesContents content ops) (past : List (TableCall P V)) :
    (boundKeys ops past).ncard = {c | (contentsBound content past.reverse c).isSome}.ncard := by
  let contentOf : Quotient ops.setoid → C := Quotient.lift content (fun x y hxy => (h.compare x y).mp hxy)
  have hinj : Function.Injective contentOf := by
    rintro ⟨x⟩ ⟨y⟩ hxy
    exact Quotient.sound ((h.compare x y).mpr hxy)
  rw [← Set.ncard_image_of_injective _ hinj,boundKeys,Set.image_image]
  congr 1
  ext c
  constructor
  · rintro ⟨k,hk,rfl⟩
    rw [Set.mem_ofPred_eq,latest_eq h] at hk
    exact hk
  · intro hc
    obtain ⟨k,rfl⟩ := exists_key_of_bound hc
    refine ⟨k,?_,rfl⟩
    rw [Set.mem_ofPred_eq,latest_eq h]
    exact hc

/-- Every run from an empty table comes back with the map of its calls. -/
theorem runCalls_showsMap (h : SeesContents content ops) (size : ℕ+) (calls : List (TableCall P V)) :
    ∃ table, runCalls ops (createHashWithSize P V size) calls = some table ∧
      ShowsMap content ops table (contentsBound content calls) := by
  obtain ⟨table,hrun,hfollows⟩ := runCalls_follows ops size calls
  have hshows := hfollows.showsHistory
  refine ⟨table,hrun,?_,?_,?_⟩
  · intro key
    rw [hshows.lookups,latest_eq h,List.reverse_reverse]
  · intro call
    obtain ⟨table',hcall,-⟩ := hfollows.step call
    refine ⟨table',?_⟩
    rw [hcall,latest_eq h,List.reverse_reverse]
  · rw [hshows.length,ncard_boundKeys_eq h,List.reverse_reverse]

/-- A renaming of the contents that keeps them apart changes nothing. -/
theorem contentsBound_comp {D : Type} [DecidableEq D] {rename : C → D} (hr : Function.Injective rename)
    (calls : List (TableCall P V)) (c : C) :
    contentsBound (rename ∘ content) calls (rename c) = contentsBound content calls c := by
  induction calls using List.reverseRecOn with
  | nil => rfl
  | append_singleton calls call ih =>
    have happend : ∀ {E : Type} [DecidableEq E] (f : P → E),
        contentsBound f (calls++[call]) = bindContent f (contentsBound f calls) call := fun f =>
      List.foldl_append.trans rfl
    rw [happend,happend]
    cases call with
    | insert key value | delete key =>
      simp only [bindContent,Function.update_apply,Function.comp_apply,hr.eq_iff,ih]
    | lookup key => exact ih

end Rules
end OpenFlowController.Table
