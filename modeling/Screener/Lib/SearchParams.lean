import Mathlib.Data.List.Basic

/-!
# Query parameters

The pairs of a query in their order. The first pair of a key is read; writing a key replaces its
first pair and drops the others, and deleting it drops all of them.
-/

namespace Screener.Lib

structure SearchParams where
  pairs : List (String × String)
deriving DecidableEq, Repr

namespace SearchParams

def find (key : String) : List (String × String) → Option String
  | [] => none
  | (name, value) :: rest => if name = key then some value else find key rest

def replace (key value : String) : List (String × String) → List (String × String)
  | [] => [(key, value)]
  | pair :: rest =>
    if pair.1 = key then (key, value) :: rest.filter (·.1 ≠ key) else pair :: replace key value rest

def get (query : SearchParams) (key : String) : Option String := find key query.pairs

def delete (query : SearchParams) (key : String) : SearchParams := ⟨query.pairs.filter (·.1 ≠ key)⟩

def set (query : SearchParams) (key value : String) : SearchParams :=
  ⟨replace key value query.pairs⟩

theorem find_filter (key other : String) (pairs : List (String × String)) :
    find other (pairs.filter (·.1 ≠ key)) = if other = key then none else find other pairs := by
  induction pairs with
  | nil => simp [find]
  | cons pair rest ih =>
    by_cases hpair : pair.1 = key
    · rw [List.filter_cons_of_neg (by simpa using hpair), ih]
      by_cases hother : other = key
      · rw [if_pos hother, if_pos hother]
      · rw [if_neg hother, if_neg hother, find, if_neg fun h => hother (h.symm.trans hpair)]
    · rw [List.filter_cons_of_pos (by simpa using hpair), find, ih, find]
      by_cases hother : other = key
      · rw [if_pos hother, if_pos hother, if_neg fun h => hpair (h.trans hother)]
      · rw [if_neg hother, if_neg hother]

theorem find_replace (key other value : String) (pairs : List (String × String)) :
    find other (replace key value pairs) =
      if other = key then some value else find other pairs := by
  induction pairs with
  | nil =>
    rw [replace, find, find]
    exact if_congr eq_comm rfl rfl
  | cons pair rest ih =>
    rw [replace]
    by_cases hpair : pair.1 = key
    · rw [if_pos hpair, find, find_filter]
      by_cases hother : other = key
      · rw [if_pos hother.symm, if_pos hother]
      · rw [if_neg fun h => hother h.symm, if_neg hother, if_neg hother, find,
          if_neg fun h => hother (h.symm.trans hpair)]
    · rw [if_neg hpair, find, ih, find]
      by_cases hother : other = key
      · rw [if_pos hother, if_pos hother, if_neg fun h => hpair (h.trans hother)]
      · rw [if_neg hother, if_neg hother]

@[simp] theorem get_delete (query : SearchParams) (key other : String) :
    (query.delete key).get other = if other = key then none else query.get other :=
  find_filter key other query.pairs

@[simp] theorem get_set (query : SearchParams) (key other value : String) :
    (query.set key value).get other = if other = key then some value else query.get other :=
  find_replace key other value query.pairs

end SearchParams

end Screener.Lib
