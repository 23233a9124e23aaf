import Screener.Frontend.ScreenerFilters

/-!
# What the address of the screener keeps

Every effect writes its own key, and what it writes is read back up to the default. So the address
gives the states of the page at every moment, whatever has been changed and wherever the browser
has gone.
-/

namespace Screener.Frontend

open Screener.Lib

/-! ## What an effect writes -/

/-- Two values of a state that filter and sort alike: no text and the default are the same. -/
def QueryField.Alike (field : QueryField) (x y : String) : Prop :=
  x = y ∨ ((x = "" ∨ x = field.defaultValue) ∧ (y = "" ∨ y = field.defaultValue))

/-- What the effect of a field leaves at its key. -/
def QueryField.written (field : QueryField) (value : String) : Option String :=
  if value = "" ∨ value = field.defaultValue then none else some value

/-- What is written is read back, up to the default. -/
def QueryField.Lawful (field : QueryField) (value : String) : Prop :=
  field.Alike (field.read (field.written value)) value

theorem get_setQuery (query : SearchParams) (field : QueryField) (key value : String) :
    (setQuery query field.key value field.defaultValue).get key =
      if key = field.key then field.written value else query.get key := by
  rw [setQuery, QueryField.written]
  split_ifs with hdefault hkey hkey
  · rw [SearchParams.get_delete, if_pos hkey]
  · rw [SearchParams.get_delete, if_neg hkey]
  · rw [SearchParams.get_set, if_pos hkey]
  · rw [SearchParams.get_set, if_neg hkey]

theorem get_writeField (query : SearchParams) (field : QueryField) (old : Option String)
    (key value : String) : (writeField query field old value).get key =
      if key = field.key ∧ old ≠ some value then field.written value else query.get key := by
  rw [writeField]
  by_cases hold : old = some value
  · rw [if_pos hold, if_neg fun h => h.2 hold]
  · rw [if_neg hold, get_setQuery]
    exact if_congr (iff_self_and.mpr fun _ => hold) rfl rfl

theorem get_writeFields_other {fields : List (QueryField × Option String × String)} {key : String}
    (h : ∀ field ∈ fields, field.1.key ≠ key) (query : SearchParams) :
    (writeFields query fields).get key = query.get key := by
  induction fields generalizing query with
  | nil => rfl
  | cons field rest ih =>
    obtain ⟨hfield, hrest⟩ := List.forall_mem_cons.mp h
    show (writeFields (writeField query field.1 field.2.1 field.2.2) rest).get key = _
    rw [ih hrest, get_writeField, if_neg fun h => hfield h.1.symm]

/-- Each effect writes its own key. -/
theorem get_writeFields {fields : List (QueryField × Option String × String)}
    (hkeys : (fields.map (·.1.key)).Nodup) {field : QueryField × Option String × String}
    (hfield : field ∈ fields) (query : SearchParams) :
    (writeFields query fields).get field.1.key =
      if field.2.1 ≠ some field.2.2 then field.1.written field.2.2 else query.get field.1.key := by
  induction fields generalizing query with
  | nil => cases hfield
  | cons first rest ih =>
    obtain ⟨hfirst, hrest⟩ := List.nodup_cons.mp hkeys
    show (writeFields (writeField query first.1 first.2.1 first.2.2) rest).get _ = _
    rcases List.mem_cons.mp hfield with rfl | hin
    · rw [get_writeFields_other fun other hother hsame =>
        hfirst (List.mem_map.mpr ⟨other, hother, hsame⟩), get_writeField]
      exact if_congr (and_iff_right rfl) rfl rfl
    · have hother : field.1.key ≠ first.1.key := fun hsame =>
        hfirst (List.mem_map.mpr ⟨field, hin, hsame⟩)
      have hkept : (writeField query first.1 first.2.1 first.2.2).get field.1.key =
          query.get field.1.key := by
        rw [get_writeField, if_neg fun h => hother h.1]
      rw [ih hrest hin, hkept]

theorem lawful_of_getD {field : QueryField} (hread : field.read = fun value => value.getD "")
    (value : String) : field.Lawful value := by
  rw [QueryField.Lawful, QueryField.written, hread]
  split_ifs with hdefault
  · exact .inr ⟨.inl rfl, hdefault⟩
  · exact .inl rfl

theorem lawful_warningFree (flag : Bool) :
    QueryField.warningFree.Lawful (if flag then "1" else "") := by
  cases flag
  · exact .inl (by decide)
  · exact .inl (by decide)

theorem lawful_sort {value : String} (h : value ≠ "") : QueryField.sort.Lawful value := by
  rw [QueryField.Lawful, QueryField.written]
  split_ifs with hdefault
  · rcases hdefault with hempty | hrank
    · exact absurd hempty h
    · exact .inl hrank.symm
  · exact .inl (if_neg h)

namespace ScreenerQuery

theorem effects_lawful (s : ScreenerQuery) : ∀ e ∈ s.effects, e.1.Lawful e.2 := by
  simp only [effects, List.forall_mem_cons, List.not_mem_nil, false_implies, implies_true, and_true]
  exact ⟨lawful_of_getD rfl _, lawful_of_getD rfl _, lawful_of_getD rfl _, lawful_of_getD rfl _,
    lawful_of_getD rfl _, lawful_warningFree _, lawful_sort s.sorted⟩

end ScreenerQuery

/-! ## The address follows the page -/

/-- What the address gives at the keys of the page is what the page has, up to the defaults. -/
def ScreenerAddress.Synced (s : ScreenerAddress) : Prop :=
  ∀ e ∈ s.page.effects, e.1.Alike (e.1.read (s.query.get e.1.key)) e.2

theorem effects_keys (s : ScreenerQuery) : (s.effects.map (·.1.key)).Nodup := by
  show ["date", "setup", "q", "minScore", "minValue", "warningFree", "sort"].Nodup
  decide

theorem restore_effects (query : SearchParams) :
    ∀ e ∈ (ScreenerQuery.restore query).effects, e.2 = e.1.read (query.get e.1.key) := by
  simp only [ScreenerQuery.effects, List.forall_mem_cons, List.not_mem_nil, false_implies,
    implies_true, and_true]
  refine ⟨rfl, rfl, rfl, rfl, rfl, ?_, rfl⟩
  show (if decide (query.get "warningFree" = some "1") = true then "1" else "") =
    if query.get "warningFree" = some "1" then "1" else ""
  exact if_congr decide_eq_true_iff rfl rfl

/-- The value that a key had in the render before. -/
theorem exists_mem_zip {α β : Type} {xs ys : List (α × β)} (h : xs.map (·.1) = ys.map (·.1))
    {y : α × β} (hy : y ∈ ys) : ∃ v, (y.1, v) ∈ xs ∧ ((y.1, v), y) ∈ xs.zip ys := by
  induction ys generalizing xs with
  | nil => cases hy
  | cons first rest ih =>
    cases xs with
    | nil => cases h
    | cons x xs =>
      obtain ⟨hfirst, hrest⟩ := List.cons.inj h
      rcases List.mem_cons.mp hy with rfl | hin
      · have hx : (y.1, x.2) = x := Prod.ext hfirst.symm rfl
        refine ⟨x.2, ?_, ?_⟩
        · rw [hx]
          exact List.mem_cons_self
        · rw [hx]
          exact List.mem_cons_self
      · obtain ⟨v, hv, hzip⟩ := ih hrest hin
        exact ⟨v, List.mem_cons_of_mem _ hv, List.mem_cons_of_mem _ hzip⟩

/-- What a render leaves at a key of the page: what its effect writes, where it has one. -/
theorem get_rendered (old page : ScreenerQuery) (query : SearchParams) {e : QueryField × String}
    (he : e ∈ page.effects) : ∃ v, (e.1, v) ∈ old.effects ∧
      (ScreenerAddress.rendered old page query).query.get e.1.key =
        if some v ≠ some e.2 then e.1.written e.2 else query.get e.1.key := by
  have hfields : old.effects.map (·.1) = page.effects.map (·.1) := rfl
  obtain ⟨v, hold, hzip⟩ := exists_mem_zip hfields he
  have hin : (e.1, some v, e.2) ∈ (old.effects.zip page.effects).map fun field =>
      (field.2.1, some field.1.2, field.2.2) := List.mem_map.mpr ⟨_, hzip, rfl⟩
  have hkeys : (((old.effects.zip page.effects).map fun field =>
      (field.2.1, some field.1.2, field.2.2)).map (·.1.key)).Nodup := effects_keys page
  exact ⟨v, hold, get_writeFields hkeys hin query⟩

theorem synced_opened (query : SearchParams) : (ScreenerAddress.opened query).Synced := by
  intro e he
  have hkeys : (((ScreenerQuery.restore query).effects.map fun field =>
      (field.1, (none : Option String), field.2)).map (·.1.key)).Nodup :=
    effects_keys (.restore query)
  have hget := get_writeFields hkeys (List.mem_map.mpr ⟨e, he, rfl⟩) query
  rw [if_pos (Option.some_ne_none _).symm] at hget
  show e.1.Alike (e.1.read ((writeFields query _).get e.1.key)) e.2
  rw [hget]
  exact ScreenerQuery.effects_lawful _ e he

theorem ScreenerAddress.Synced.change {s : ScreenerAddress} (h : s.Synced) (page : ScreenerQuery) :
    (ScreenerAddress.rendered s.page page s.query).Synced := by
  intro e he
  obtain ⟨v, hold, hget⟩ := get_rendered s.page page s.query he
  rw [hget]
  split_ifs with hchanged
  · exact ScreenerQuery.effects_lawful _ e he
  · have hsame : v = e.2 := Option.some.inj (not_not.mp hchanged)
    exact hsame ▸ h (e.1, v) hold

theorem synced_popstate (old : ScreenerQuery) (query : SearchParams) :
    (ScreenerAddress.rendered old (.restore query) query).Synced := by
  intro e he
  obtain ⟨v, -, hget⟩ := get_rendered old (.restore query) query he
  rw [hget]
  split_ifs with hchanged
  · exact ScreenerQuery.effects_lawful _ e he
  · exact .inl (restore_effects query e he).symm

theorem synced_of_reachable {s : ScreenerAddress} (h : ScreenerAddress.machine.Reachable s) :
    s.Synced := by
  refine h.invariant ?_ ?_
  · rintro s ⟨query, rfl⟩
    exact synced_opened query
  · intro s event t _ hs hst
    rw [show t = s.next event from hst]
    cases event with
    | change page => exact hs.change page
    | popstate query => exact synced_popstate s.page query

end Screener.Frontend
