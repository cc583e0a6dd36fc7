import Mathlib.Data.List.Sort
import SqlSession.Keyed

/-!
# Maps with the same entries

To put a value under a key keeps the keys of a map in ascending order (`Keyed.Ascending.insert`).  In that
order a map is determined by what it has under each key (`Keyed.Ascending.ext`).
-/

namespace SqlSession
namespace Keyed

variable {κ : Type u} {β : Type v} [LE κ] [LT κ] [Std.IsLinearOrder κ] [Std.LawfulOrderLT κ]
  [DecidableRel fun a b : κ => a < b] [DecidableEq κ] {key : κ} {value : β} {m m' : List (κ × β)}

def Ascending (m : List (κ × β)) : Prop := m.Pairwise fun a b => a.1 < b.1

omit [LE κ] [Std.IsLinearOrder κ] [Std.LawfulOrderLT κ] in
theorem mem_insert {entry : κ × β} (h : entry ∈ insert key value m) :
    entry = (key, value) ∨ entry ∈ m := by
  induction m with
  | nil => exact .inl (List.mem_singleton.mp h)
  | cons first rest ih =>
    unfold insert at h
    split at h
    · exact List.mem_cons.mp h
    · split at h
      · exact (List.mem_cons.mp h).imp_right (List.mem_cons_of_mem _)
      · obtain rfl | h := List.mem_cons.mp h
        · exact .inr List.mem_cons_self
        · exact (ih h).imp_right (List.mem_cons_of_mem _)

theorem Ascending.insert (h : Ascending m) (key : κ) (value : β) :
    Ascending (insert key value m) := by
  induction m with
  | nil => exact List.pairwise_singleton _ _
  | cons first rest ih =>
    obtain ⟨hfirst, hrest⟩ := List.pairwise_cons.mp h
    unfold Keyed.insert
    split
    · next hlt =>
      refine List.pairwise_cons.mpr ⟨fun entry hentry => ?_, h⟩
      obtain rfl | hentry := List.mem_cons.mp hentry
      · exact hlt
      · exact Std.lt_trans hlt (hfirst entry hentry)
    · next hnot =>
      split
      · next heq =>
        subst heq
        exact List.pairwise_cons.mpr ⟨hfirst, hrest⟩
      · next hne =>
        have hlt : first.1 < key :=
          ((Std.lt_trichotomy key first.1).resolve_left hnot).resolve_left hne
        refine List.pairwise_cons.mpr ⟨fun entry hentry => ?_, ih hrest⟩
        obtain rfl | hentry := mem_insert hentry
        · exact hlt
        · exact hfirst entry hentry

omit [Std.IsLinearOrder κ] [DecidableRel fun a b : κ => a < b] in
/-- What a map has under a key is what stands in it with that key. -/
theorem Ascending.find?_eq_some_iff (h : Ascending m) :
    find? key m = some value ↔ (key, value) ∈ m := by
  induction m with
  | nil => exact ⟨nofun, nofun⟩
  | cons first rest ih =>
    obtain ⟨k, v⟩ := first
    obtain ⟨hfirst, hrest⟩ := List.pairwise_cons.mp h
    unfold find?
    rw [List.mem_cons]
    by_cases hkey : key = k
    · subst hkey
      rw [if_pos rfl]
      constructor
      · rintro hvalue
        cases hvalue
        exact .inl rfl
      · rintro (heq | hmem)
        · cases heq
          rfl
        · exact absurd (hfirst _ hmem) Std.lt_irrefl
    · rw [if_neg hkey, ih hrest, or_iff_right]
      exact fun heq => hkey (congrArg Prod.fst heq)

omit [DecidableRel fun a b : κ => a < b] in
theorem Ascending.ext (h : Ascending m) (h' : Ascending m')
    (hsame : ∀ key, find? key m = find? key m') : m = m' := by
  have hirrefl : Std.Irrefl fun a b : κ × β => a.1 < b.1 := ⟨fun _ => Std.lt_irrefl⟩
  have hantisymm : Std.Antisymm fun a b : κ × β => a.1 < b.1 :=
    ⟨fun _ _ hab hba => absurd (Std.lt_trans hab hba) Std.lt_irrefl⟩
  refine List.Pairwise.eq_of_mem_iff h h' fun entry => ?_
  rw [← h.find?_eq_some_iff, ← h'.find?_eq_some_iff, hsame]

end Keyed
end SqlSession
