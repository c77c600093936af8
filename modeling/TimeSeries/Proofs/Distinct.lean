import Mathlib.Data.List.Dedup

/-!
# Lists without repetitions

`List.eraseDups` keeps the first of equal members: nothing is left twice (`nodup_eraseDups`), and
something is left if there was anything. As many are left as `List.dedup` leaves, which keeps the
last of equal members instead.
-/

namespace TimeSeries

variable {α : Type} [DecidableEq α]

theorem isEmpty_eraseDups (l : List α) : l.eraseDups.isEmpty = l.isEmpty := by
  cases l with
  | nil => rfl
  | cons a l =>
    rw [List.eraseDups_cons]
    rfl

/-- Nothing is left twice. -/
theorem nodup_eraseDups (l : List α) : l.eraseDups.Nodup := by
  cases l with
  | nil => exact List.nodup_nil
  | cons a l =>
    rw [List.eraseDups_cons, List.nodup_cons]
    refine ⟨?_, nodup_eraseDups (l.filter fun b => !b == a)⟩
    simp
termination_by l.length
decreasing_by exact Nat.lt_succ_of_le (List.length_filter_le _ _)

theorem length_eraseDups (l : List α) : l.eraseDups.length = l.dedup.length := by
  refine List.Perm.length_eq ((List.perm_ext_iff_of_nodup (nodup_eraseDups l)
    (List.nodup_dedup l)).mpr fun a => ?_)
  rw [List.mem_eraseDups, List.mem_dedup]

end TimeSeries
