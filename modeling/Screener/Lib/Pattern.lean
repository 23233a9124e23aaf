import Mathlib.Data.List.DropRight
import Mathlib.Data.List.Infix
import Mathlib.Data.List.TakeWhile
import Mathlib.Tactic.SplitIfs

/-!
# Regular expressions that backtrack

Patterns with one capture, matched from left to right: an alternative and each length of
a repetition are tried in order until the rest of the pattern matches. `search` tells
whether there is a match; `replace` rewrites the first match, as
`String.prototype.replace` does without the global flag.
-/

namespace Screener.Lib

inductive Pattern where
  | one (test : Char → Bool)
  | many (test : Char → Bool)
  | manyLazy (test : Char → Bool)
  | seq (p q : Pattern)
  | alt (p q : Pattern)
  | group (p : Pattern)
  | start
  | finish
  | ahead (p : Pattern)

namespace Pattern

/-- Whether the match has come past the first character, what is left and what the group
has captured. -/
structure Cursor where
  moved : Bool
  rest : List Char
  captured : Option (List Char)
deriving DecidableEq, Repr

/-- As many characters as there are first, then fewer. -/
def greedy (test : Char → Bool) (captured : Option (List Char))
    (next : Cursor → Option Cursor) : Bool → List Char → Option Cursor
  | moved, [] => next ⟨moved, [], captured⟩
  | moved, c :: rest =>
    (if test c then greedy test captured next true rest else none).or
      (next ⟨moved, c :: rest, captured⟩)

/-- No character first, then more. -/
def lazy (test : Char → Bool) (captured : Option (List Char))
    (next : Cursor → Option Cursor) : Bool → List Char → Option Cursor
  | moved, [] => next ⟨moved, [], captured⟩
  | moved, c :: rest =>
    (next ⟨moved, c :: rest, captured⟩).or
      (if test c then lazy test captured next true rest else none)

/-- Match at the cursor and go on with `next`. -/
def run : Pattern → (Cursor → Option Cursor) → Cursor → Option Cursor
  | one test, next, c =>
    match c.rest with
    | [] => none
    | x :: rest => if test x then next ⟨true, rest, c.captured⟩ else none
  | many test, next, c => greedy test c.captured next c.moved c.rest
  | manyLazy test, next, c => lazy test c.captured next c.moved c.rest
  | seq p q, next, c => p.run (q.run next) c
  | alt p q, next, c => (p.run next c).or (q.run next c)
  | group p, next, c => p.run (fun d =>
      next { d with captured := some (c.rest.take (c.rest.length - d.rest.length)) }) c
  | start, next, c => if c.moved then none else next c
  | finish, next, c => if c.rest = [] then next c else none
  | ahead p, next, c => if (p.run some c).isSome then next c else none

/-- One or more. -/
def plus (test : Char → Bool) : Pattern := seq (one test) (many test)

/-- The characters of a text; there is nothing of an empty one to repeat. -/
def literal : List Char → Pattern
  | [] => many fun _ => false
  | c :: rest => seq (one (· == c)) (literal rest)

/-- A character from A to Z in either case. -/
def anyCase (c : Char) : Pattern := one (·.toUpper == c)

/-- Whether there is a match at some place. -/
def searchFrom (p : Pattern) : Bool → List Char → Bool
  | moved, [] => (p.run some ⟨moved, [], none⟩).isSome
  | moved, c :: rest => (p.run some ⟨moved, c :: rest, none⟩).isSome || searchFrom p true rest

def search (p : Pattern) (text : List Char) : Bool := searchFrom p false text

def replaceFrom (p : Pattern) (substitute : Option (List Char) → List Char) :
    Bool → List Char → List Char
  | moved, [] =>
    match p.run some ⟨moved, [], none⟩ with
    | some found => substitute found.captured ++ found.rest
    | none => []
  | moved, c :: rest =>
    match p.run some ⟨moved, c :: rest, none⟩ with
    | some found => substitute found.captured ++ found.rest
    | none => c :: replaceFrom p substitute true rest

/-- The first match is replaced. -/
def replace (p : Pattern) (substitute : Option (List Char) → List Char) (text : List Char) :
    List Char :=
  replaceFrom p substitute false text

/-- The length of the match at a place, given what is before and after it. -/
def matchLength (p : Pattern) (before after : List Char) : Option Nat :=
  (p.run some ⟨!before.isEmpty, after, none⟩).map fun found => after.length - found.rest.length

/-- `(?<=p)`, for a pattern that does not ask where the text starts. -/
def endsAt (p : Pattern) (before : List Char) : Bool :=
  before.tails.any fun text => ((seq p finish).run some ⟨true, text, none⟩).isSome

/-- Every match is left out, as `replace` with the global flag and an empty substitute
does; `skip` characters of a match are still to come. -/
def removeAll (found : List Char → List Char → Option Nat) :
    List Char → Nat → List Char → List Char
  | _, _, [] => []
  | before, skip + 1, c :: after => removeAll found (before ++ [c]) skip after
  | before, 0, c :: after =>
    match found before (c :: after) with
    | some (n + 1) => removeAll found (before ++ [c]) n after
    | _ => c :: removeAll found (before ++ [c]) 0 after

/-! ## Repetitions -/

variable {test : Char → Bool} {captured : Option (List Char)} {moved : Bool}

/-- With nothing to follow, a repetition takes all that it can. -/
theorem greedy_some (test : Char → Bool) (captured : Option (List Char)) (moved : Bool)
    (rest : List Char) : ∃ moved',
      greedy test captured some moved rest = some ⟨moved', rest.dropWhile test, captured⟩ := by
  induction rest generalizing moved with
  | nil => exact ⟨moved, rfl⟩
  | cons c rest ih =>
    cases hc : test c with
    | true =>
      obtain ⟨moved', h⟩ := ih true
      exact ⟨moved', by simp [greedy, hc, h]⟩
    | false => exact ⟨moved, by simp [greedy, hc]⟩

/-- Up to the end of the text. -/
theorem greedy_finish (test : Char → Bool) (captured : Option (List Char))
    (next : Cursor → Option Cursor) (rest : List Char) :
    greedy test captured (finish.run next) true rest =
      if rest.all test then next ⟨true, [], captured⟩ else none := by
  induction rest with
  | nil => simp [greedy, run]
  | cons c rest ih =>
    rw [greedy, ih]
    cases hc : test c with
    | true => simp [run, hc]
    | false => simp [run, hc]

theorem run_plus_finish (test : Char → Bool) (captured : Option (List Char)) (moved : Bool)
    (next : Cursor → Option Cursor) (rest : List Char)
    [Decidable (rest ≠ [] ∧ ∀ c ∈ rest, test c = true)] :
    (seq (plus test) finish).run next ⟨moved, rest, captured⟩ =
      if rest ≠ [] ∧ ∀ c ∈ rest, test c = true then next ⟨true, [], captured⟩ else none := by
  cases rest with
  | nil => simp [run, plus]
  | cons c rest =>
    have hmany := greedy_finish test captured next rest
    cases hc : test c with
    | true =>
      simp only [run, plus, hc, if_true] at hmany ⊢
      simp [hmany, hc]
    | false => simp [run, plus, hc]

/-! ## Replacements -/

/-- No character of the text begins a match. -/
theorem replaceFrom_of_no_match {p : Pattern} (substitute : Option (List Char) → List Char)
    {before : List Char} (hno : ∀ c ∈ before, ∀ moved rest,
      p.run some ⟨moved, c :: rest, none⟩ = none)
    (moved : Bool) (rest : List Char) :
    replaceFrom p substitute moved (before ++ rest) =
      before ++ replaceFrom p substitute (moved || !before.isEmpty) rest := by
  induction before generalizing moved with
  | nil => simp
  | cons c before ih =>
    rw [List.forall_mem_cons] at hno
    simp [replaceFrom, hno.1, ih hno.2]

/-- A pattern for the start of the text is tried there only. -/
theorem replaceFrom_start {p : Pattern} {substitute : Option (List Char) → List Char}
    (text : List Char) : replaceFrom (seq start p) substitute true text = text := by
  induction text with
  | nil => simp [replaceFrom, run]
  | cons c text ih => simp [replaceFrom, run, ih]

/-- `replace(/^x+/, "")`. -/
theorem replace_start_plus (text : List Char) :
    replace (seq start (plus test)) (fun _ => []) text = text.dropWhile test := by
  cases text with
  | nil => simp [replace, replaceFrom, run, plus]
  | cons c text =>
    cases hc : test c with
    | true =>
      obtain ⟨moved', h⟩ := greedy_some test none true text
      simp [replace, replaceFrom, run, plus, hc, h]
    | false => simp [replace, replaceFrom, run, plus, hc, replaceFrom_start]

theorem rdropWhile_cons (test : Char → Bool) (c : Char) (text : List Char)
    [Decidable (∀ d ∈ c :: text, test d = true)] :
    (c :: text).rdropWhile test =
      if ∀ d ∈ c :: text, test d = true then [] else c :: text.rdropWhile test := by
  rw [List.rdropWhile, List.reverse_cons, List.dropWhile_append]
  by_cases hall : ∀ d ∈ text, test d = true
  · have hempty : text.reverse.dropWhile test = [] :=
      List.dropWhile_eq_nil_iff.mpr fun d hd => hall d (List.mem_reverse.mp hd)
    cases hc : test c with
    | true =>
      have hboth : ∀ d ∈ c :: text, test d = true := List.forall_mem_cons.mpr ⟨hc, hall⟩
      rw [if_pos hboth]
      simp [hempty, hc]
    | false => simp [hempty, hc, List.rdropWhile]
  · have hsome : text.reverse.dropWhile test ≠ [] := by
      intro hempty
      exact hall fun d hd => List.dropWhile_eq_nil_iff.mp hempty d (List.mem_reverse.mpr hd)
    have hnot : ¬ ∀ d ∈ c :: text, test d = true :=
      fun hboth => hall (List.forall_mem_cons.mp hboth).2
    rw [if_neg hnot]
    simp [hsome, List.rdropWhile]

/-- `replace(/x+$/, "")`. -/
theorem replace_plus_finish (text : List Char) :
    replace (seq (plus test) finish) (fun _ => []) text = text.rdropWhile test := by
  suffices hfrom : ∀ moved, replaceFrom (seq (plus test) finish) (fun _ => []) moved text =
      text.rdropWhile test from hfrom false
  induction text with
  | nil => intro moved; simp [replaceFrom, run_plus_finish]
  | cons c text ih =>
    intro moved
    rw [replaceFrom, run_plus_finish, ih, rdropWhile_cons]
    split_ifs with hall hboth hboth
    · rfl
    · exact absurd hall.2 hboth
    · exact absurd ⟨List.cons_ne_nil c text, hboth⟩ hall
    · rfl

/-! ## Matches left out -/

section Removal

variable {found : List Char → List Char → Option Nat}

/-- A match up to the end of the text. -/
theorem removeAll_skip (before after : List Char) {skip : Nat} (h : after.length ≤ skip) :
    removeAll found before skip after = [] := by
  induction after generalizing before skip with
  | nil => cases skip <;> rfl
  | cons c after ih =>
    cases skip with
    | zero => simp at h
    | succ skip => exact ih _ (by simpa using h)

theorem removeAll_of_none {before after : List Char} {c : Char}
    (h : found before (c :: after) = none) :
    removeAll found before 0 (c :: after) = c :: removeAll found (before ++ [c]) 0 after := by
  rw [removeAll, h]

theorem removeAll_of_whole {before after : List Char} {c : Char}
    (h : found before (c :: after) = some (after.length + 1)) :
    removeAll found before 0 (c :: after) = [] := by
  rw [removeAll, h]
  exact removeAll_skip _ _ le_rfl

/-- Up to a place before which nothing matches. -/
theorem removeAll_append {before kept : List Char} (after : List Char)
    (h : ∀ pre c post, kept = pre ++ c :: post →
      found (before ++ pre) (c :: post ++ after) = none) :
    removeAll found before 0 (kept ++ after) =
      kept ++ removeAll found (before ++ kept) 0 after := by
  induction kept generalizing before with
  | nil => simp
  | cons c kept ih =>
    have hfirst : found before (c :: (kept ++ after)) = none := by
      simpa using h [] c kept rfl
    rw [List.cons_append, removeAll_of_none hfirst, ih]
    · simp
    · intro pre d post heq
      simpa using h (c :: pre) d post (by rw [heq, List.cons_append])

theorem matchLength_plus_finish (before after : List Char)
    [Decidable (after ≠ [] ∧ ∀ c ∈ after, test c = true)] :
    (seq (plus test) finish).matchLength before after =
      if after ≠ [] ∧ ∀ c ∈ after, test c = true then some after.length else none := by
  rw [matchLength, run_plus_finish]
  split_ifs
  · rfl
  · rfl

end Removal

end Pattern

end Screener.Lib
