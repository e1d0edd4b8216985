import Mathlib.Data.List.Basic
import Mathlib.Tactic.Common

/-!
This module contains vectors that are moved to a larger container when they are full. What a container is
replaced by is up to the user, it only has to have room for the items.
-/

namespace Util

structure Growable (α : Type) where
  capacity : Nat
  items : List α
  fits : items.length ≤ capacity

namespace Growable

variable {α : Type}

def empty (α : Type) (capacity : Nat) : Growable α :=
  ⟨capacity, [], Nat.zero_le _⟩

def size (v : Growable α) : Nat :=
  v.items.length

-- `none` if there is no room for the items
def ofList (items : List α) (capacity : Nat) : Option (Growable α) :=
  if fits : items.length ≤ capacity then
    some ⟨capacity, items, fits⟩
  else
    none

def resize (v : Growable α) (capacity : Nat) : Option (Growable α) :=
  ofList v.items capacity

def push (v : Growable α) (a : α) : Option (Growable α) :=
  ofList (v.items ++ [a]) v.capacity

def take (v : Growable α) (n : Nat) : Growable α :=
  ⟨v.capacity, v.items.take n, Nat.le_trans (List.length_take_le' _ _) v.fits⟩

def pop (v : Growable α) : Growable α :=
  v.take (v.size - 1)

@[simp]
theorem items_empty (capacity : Nat) : (empty α capacity).items = [] := by
  rfl

@[simp]
theorem size_empty (capacity : Nat) : (empty α capacity).size = 0 := by
  rfl

@[simp]
theorem capacity_empty (capacity : Nat) : (empty α capacity).capacity = capacity := by
  rfl

@[simp]
theorem items_take (v : Growable α) (n : Nat) : (v.take n).items = v.items.take n := by
  rfl

@[simp]
theorem items_pop (v : Growable α) : v.pop.items = v.items.dropLast := by
  rw [List.dropLast_eq_take]
  rfl

theorem ofList_eq_some {items : List α} {capacity : Nat} {w : Growable α}
    : ofList items capacity = some w ↔ w.items = items ∧ w.capacity = capacity := by
  unfold ofList
  split
  . rw [Option.some.injEq]
    constructor
    . rintro rfl
      exact ⟨rfl, rfl⟩
    . intro h
      cases w with
      | mk c items fits =>
        obtain ⟨rfl, rfl⟩ := h
        rfl
  . next hfits =>
    refine iff_of_false (by simp) ?_
    rintro ⟨rfl, rfl⟩
    exact hfits w.fits

theorem resize_eq_some {v w : Growable α} {capacity : Nat}
    : v.resize capacity = some w ↔ w.items = v.items ∧ w.capacity = capacity := by
  apply ofList_eq_some

theorem push_eq_some {v w : Growable α} {a : α}
    : v.push a = some w ↔ w.items = v.items ++ [a] ∧ w.capacity = v.capacity := by
  apply ofList_eq_some

theorem exists_ofList {items : List α} {capacity : Nat} (h : items.length ≤ capacity)
    : ∃ w, ofList items capacity = some w := by
  simp [ofList, h]

theorem exists_resize {v : Growable α} {capacity : Nat} (h : v.capacity ≤ capacity)
    : ∃ w, v.resize capacity = some w := by
  apply exists_ofList
  exact Nat.le_trans v.fits h

theorem exists_push {v : Growable α} (h : v.size < v.capacity) (a : α) : ∃ w, v.push a = some w := by
  apply exists_ofList
  rw [List.length_append]
  exact h

end Growable

end Util
