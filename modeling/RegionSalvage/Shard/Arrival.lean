/-! # The order in which workers report

Workers finish when they are done, so their reports come in in any order.  All that is promised is
that each of them reports exactly once; that promise is the field `perm_range`.
-/

namespace RegionSalvage

/-- An order in which the reports of any number of workers come in. -/
structure ArrivalOrder where
  /-- The workers, from `0` to `count - 1`, in the order in which they report. -/
  order : (count : Nat) → List Nat
  /-- Every worker reports exactly once. -/
  perm_range : ∀ count, (order count).Perm (List.range count)

namespace ArrivalOrder

/-- The workers report in turn. -/
def inTurn : ArrivalOrder := ⟨List.range, fun _ => .refl _⟩

/-- Puts what the workers report in the order in which it comes in. -/
def arrange {α : Type} (o : ArrivalOrder) (reports : List α) : List α :=
  (o.order reports.length).filterMap (reports[·]?)

theorem filterMap_range_getElem? {α : Type} (l : List α) :
    (List.range l.length).filterMap (l[·]?) = l := by
  induction l with
  | nil => rfl
  | cons a l ih =>
    rw [List.length_cons, List.range_succ_eq_map, List.filterMap_cons, List.filterMap_map]
    simpa [Function.comp_def] using ih

/-- Nothing is lost on the way, and nothing comes in twice. -/
theorem arrange_perm {α : Type} (o : ArrivalOrder) (reports : List α) :
    (o.arrange reports).Perm reports := by
  have hperm := (o.perm_range reports.length).filterMap (reports[·]?)
  rwa [filterMap_range_getElem?] at hperm

end ArrivalOrder

end RegionSalvage
