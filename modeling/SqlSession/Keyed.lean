/-!
# Finite maps in key order

A map from keys to values is a list of pairs with ascending keys.  Two maps with the same entries
are then the same list, and the list is the order in which the entries are shown.
-/

namespace SqlSession
namespace Keyed

variable {κ : Type u} {β : Type v} [LT κ] [DecidableRel fun a b : κ => a < b] [DecidableEq κ]

/-- Puts `value` under `key`, in place of an earlier value. -/
def insert (key : κ) (value : β) : List (κ × β) → List (κ × β)
  | [] => [(key, value)]
  | (k, v) :: rest =>
    if key < k then (key, value) :: (k, v) :: rest
    else if key = k then (key, value) :: rest
    else (k, v) :: insert key value rest

/-- The map of the entries of a list, a later entry replacing an earlier one of the same key. -/
def ofList (entries : List (κ × β)) : List (κ × β) :=
  entries.foldl (fun m entry => insert entry.1 entry.2 m) []

omit [LT κ] [DecidableRel fun a b : κ => a < b] in
/-- The value under `key`. -/
def find? (key : κ) : List (κ × β) → Option β
  | [] => none
  | (k, v) :: rest => if key = k then some v else find? key rest

theorem find?_insert_self (key : κ) (value : β) (m : List (κ × β)) :
    find? key (insert key value m) = some value := by
  induction m with
  | nil => simp [insert, find?]
  | cons entry rest ih =>
    obtain ⟨k, v⟩ := entry
    simp only [insert]
    split
    · simp [find?]
    · split
      · simp [find?]
      · next hne => simpa [find?, hne] using ih

theorem find?_insert_of_ne {key other : κ} (h : other ≠ key) (value : β) (m : List (κ × β)) :
    find? other (insert key value m) = find? other m := by
  induction m with
  | nil => simp [insert, find?, h]
  | cons entry rest ih =>
    obtain ⟨k, v⟩ := entry
    simp only [insert]
    split
    · simp [find?, h]
    · split
      · next heq => subst heq; simp [find?, h]
      · simp only [find?, ih]

end Keyed
end SqlSession
