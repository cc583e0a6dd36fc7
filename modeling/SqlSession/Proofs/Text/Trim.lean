import Mathlib.Data.List.Basic
import Mathlib.Data.List.TakeWhile
import SqlSession.Text.Blank

/-!
# Trimming

`trimBlanks` takes off what it can at both ends of a list of characters.  The lemmas are about any
list and any predicate, because the pieces of a statement are trimmed the same way.
-/

namespace SqlSession
namespace Text

variable {α : Type}

def trimEnds (p : α → Bool) (xs : List α) : List α :=
  ((xs.dropWhile p).reverse.dropWhile p).reverse

theorem trimBlanks_eq (cs : List Char) : trimBlanks cs = trimEnds isBlank cs := rfl

/-- Nothing can be taken off at the ends of the list. -/
def Bare (p : α → Bool) (xs : List α) : Prop :=
  xs.head?.any p = false ∧ xs.getLast?.any p = false

theorem head?_dropWhile (p : α → Bool) (xs : List α) : (xs.dropWhile p).head?.any p = false := by
  have hnot := List.head?_dropWhile_not p xs
  cases hhead : (xs.dropWhile p).head? with
  | none => rfl
  | some x =>
    rw [hhead] at hnot
    exact hnot

theorem dropWhile_eq_self {p : α → Bool} {xs : List α} (h : xs.head?.any p = false) :
    xs.dropWhile p = xs := by
  cases xs with
  | nil => rfl
  | cons x xs =>
    have hneg : ¬ p x = true := by
      intro hx
      rw [List.head?_cons, Option.any_some, hx] at h
      cases h
    exact List.dropWhile_cons_of_neg hneg

theorem dropWhile_append {p : α → Bool} {lead xs : List α} (hlead : ∀ x ∈ lead, p x = true)
    (h : xs.head?.any p = false) : (lead ++ xs).dropWhile p = xs := by
  rw [List.dropWhile_append_of_pos hlead, dropWhile_eq_self h]

/-- What is between elements that are taken off is left. -/
theorem trimEnds_append {p : α → Bool} {lead xs trail : List α} (hlead : ∀ x ∈ lead, p x = true)
    (htrail : ∀ x ∈ trail, p x = true) (h : Bare p xs) : trimEnds p (lead ++ xs ++ trail) = xs := by
  have hback : ∀ x ∈ trail.reverse, p x = true := fun x hx => htrail x (List.mem_reverse.mp hx)
  obtain ⟨hhead, hlast⟩ := h
  unfold trimEnds
  by_cases hxs : xs = []
  · subst hxs
    have hall : ∀ x ∈ lead ++ [] ++ trail, p x = true := by
      intro x hx
      rw [List.append_nil] at hx
      rcases List.mem_append.mp hx with hx | hx
      · exact hlead x hx
      · exact htrail x hx
    rw [List.dropWhile_eq_nil_iff.mpr hall]
    rfl
  · have hfront : (xs ++ trail).head?.any p = false := by
      rw [List.head?_append_of_ne_nil _ hxs]
      exact hhead
    rw [List.append_assoc, dropWhile_append hlead hfront, List.reverse_append,
      dropWhile_append hback, List.reverse_reverse]
    rw [List.head?_reverse]
    exact hlast

/-! ## What is taken off -/

def leading (p : α → Bool) (xs : List α) : List α := xs.takeWhile p

def trailing (p : α → Bool) (xs : List α) : List α :=
  ((xs.dropWhile p).reverse.takeWhile p).reverse

theorem of_mem_leading {p : α → Bool} {xs : List α} {x : α} (h : x ∈ leading p xs) : p x = true :=
  List.mem_takeWhile_imp h

theorem of_mem_trailing {p : α → Bool} {xs : List α} {x : α} (h : x ∈ trailing p xs) :
    p x = true :=
  List.mem_takeWhile_imp (List.mem_reverse.mp h)

theorem trimEnds_trailing (p : α → Bool) (xs : List α) :
    trimEnds p xs ++ trailing p xs = xs.dropWhile p := by
  unfold trimEnds trailing
  rw [← List.reverse_append, List.takeWhile_append_dropWhile, List.reverse_reverse]

theorem leading_trimEnds_trailing (p : α → Bool) (xs : List α) :
    leading p xs ++ trimEnds p xs ++ trailing p xs = xs := by
  rw [List.append_assoc, trimEnds_trailing]
  exact List.takeWhile_append_dropWhile

theorem bare_trimEnds (p : α → Bool) (xs : List α) : Bare p (trimEnds p xs) := by
  constructor
  · have hhead := head?_dropWhile p xs
    rw [← trimEnds_trailing] at hhead
    by_cases hnil : trimEnds p xs = []
    · rw [hnil]
      rfl
    · rw [List.head?_append_of_ne_nil _ hnil] at hhead
      exact hhead
  · unfold trimEnds
    rw [List.getLast?_reverse]
    exact head?_dropWhile p (xs.dropWhile p).reverse

theorem takeWhile_append_cons {p : α → Bool} {x : α} (hx : p x = false) (xs ys : List α) :
    (xs ++ x :: ys).takeWhile p = xs.takeWhile p ∧
      (xs ++ x :: ys).dropWhile p = xs.dropWhile p ++ x :: ys := by
  have hneg : ∀ {z : α}, p z = false → ¬ p z = true := by
    intro z hz
    rw [hz]
    exact Bool.false_ne_true
  induction xs with
  | nil => exact ⟨List.takeWhile_cons_of_neg (hneg hx), List.dropWhile_cons_of_neg (hneg hx)⟩
  | cons z xs ih =>
    obtain ⟨htake, hdrop⟩ := ih
    cases hz : p z with
    | true =>
      rw [List.cons_append, List.takeWhile_cons_of_pos hz, List.takeWhile_cons_of_pos hz,
        List.dropWhile_cons_of_pos hz, List.dropWhile_cons_of_pos hz, htake, hdrop]
      exact ⟨rfl, rfl⟩
    | false =>
      rw [List.cons_append, List.takeWhile_cons_of_neg (hneg hz),
        List.takeWhile_cons_of_neg (hneg hz), List.dropWhile_cons_of_neg (hneg hz),
        List.dropWhile_cons_of_neg (hneg hz)]
      exact ⟨rfl, rfl⟩

/-- What stands around an element that is not taken off is trimmed at its outer end only. -/
theorem trimEnds_append_cons {p : α → Bool} {x : α} (hx : p x = false) (xs ys : List α) :
    trimEnds p (xs ++ x :: ys) = xs.dropWhile p ++ x :: (ys.reverse.dropWhile p).reverse := by
  have hback : ((xs.dropWhile p) ++ x :: ys).reverse =
      ys.reverse ++ x :: (xs.dropWhile p).reverse := by
    rw [List.reverse_append, List.reverse_cons, List.append_assoc]
    rfl
  unfold trimEnds
  rw [(takeWhile_append_cons hx xs ys).2, hback, (takeWhile_append_cons hx ys.reverse _).2,
    List.reverse_append, List.reverse_cons, List.reverse_reverse, List.append_assoc]
  rfl

theorem trimBlanks_of_bare {cs : List Char} (h : Bare isBlank cs) : trimBlanks cs = cs := by
  have hsame := @trimEnds_append Char isBlank [] cs [] nofun nofun h
  rw [List.nil_append, List.append_nil] at hsame
  exact hsame

theorem trimBlanks_trimBlanks (cs : List Char) : trimBlanks (trimBlanks cs) = trimBlanks cs :=
  trimBlanks_of_bare (bare_trimEnds isBlank cs)

theorem trimBlanks_eq_nil {cs : List Char} : trimBlanks cs = [] ↔ ∀ c ∈ cs, isBlank c = true := by
  constructor
  · intro h
    have hcs := leading_trimEnds_trailing isBlank cs
    rw [← trimBlanks_eq, h, List.append_nil] at hcs
    intro c hc
    rw [← hcs] at hc
    rcases List.mem_append.mp hc with hc | hc
    · exact of_mem_leading hc
    · exact of_mem_trailing hc
  · intro h
    have hnil := @trimEnds_append Char isBlank cs [] [] h nofun ⟨rfl, rfl⟩
    rw [List.append_nil, List.append_nil] at hnil
    exact hnil

end Text
end SqlSession
