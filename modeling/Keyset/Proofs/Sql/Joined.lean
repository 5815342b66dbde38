import Keyset.Proofs.Condition.Joined
import Keyset.Proofs.Sql.Truth

/-! # The truth of joined conditions

In SQL a conjunction is unknown if a part is unknown and none is false, and a
disjunction if a part is unknown and none is true. So flattening must not lose
an unknown part, and leaving parts out must not decide what was unknown. The
three truth values are joined by associative operations with units, and false
decides every conjunction; so what `all` and `any` build has the truth value of
the plain conjunction and disjunction (`all_any_exact`). -/

namespace Keyset.Condition

open Sql Database

/-- The truth value of the expression of a condition. -/
def sqlTruth (db : Database) (table : String) (qualifier : Option String) (row : Row)
    (c : Condition) : Truth :=
  db.verdict table row (c.expr qualifier)

variable {db : Database} {table : String} {qualifier : Option String} {row : Row}

theorem exprs_eq_map (parts : List Condition) :
    exprs qualifier parts = parts.map (·.expr qualifier) := by
  induction parts with
  | nil => rw [exprs, List.map_nil]
  | cons p ps ih => rw [exprs, List.map_cons, ih]

theorem sqlTruth_never : sqlTruth db table qualifier row .never = some false := by
  rw [sqlTruth, expr, verdict_truth]

theorem sqlTruth_and (parts : List Condition) : sqlTruth db table qualifier row (.and parts) =
    joined (sqlTruth db table qualifier row) Truth.and (some true) parts := by
  rw [sqlTruth, expr, verdict_join verdict_and, exprs_eq_map, List.foldr_map]
  rfl

theorem sqlTruth_or (parts : List Condition) : sqlTruth db table qualifier row (.or parts) =
    joined (sqlTruth db table qualifier row) Truth.or (some false) parts := by
  rw [sqlTruth, expr, verdict_join verdict_or, exprs_eq_map, List.foldr_map]
  rfl

theorem sqlTruth_all (parts : List Condition) : sqlTruth db table qualifier row (all parts) =
    sqlTruth db table qualifier row (.and parts) := by
  rw [sqlTruth_and]
  refine read_all sqlTruth_and (fun t => ?_) parts
  rw [sqlTruth_never]
  rcases t with _ | _ | _ <;> exact ⟨rfl, rfl⟩

theorem sqlTruth_any (parts : List Condition) : sqlTruth db table qualifier row (any parts) =
    sqlTruth db table qualifier row (.or parts) := by
  rw [sqlTruth_or]
  exact read_any sqlTruth_or sqlTruth_never parts

/-- **Simplifying keeps the meaning.** Whatever the parts are, `all` holds of a row if all of them
do, and `any` if any of them does. In any database, and under whatever names the table and its
columns go, their expressions are true, false or unknown as those of the plain conjunction and
disjunction are, which join the truth values of the parts as SQL does. -/
theorem all_any_exact (parts : List Condition) (row : Row) :
    (all parts).holds row = parts.all (·.holds row) ∧
    (any parts).holds row = parts.any (·.holds row) ∧
    ∀ (db : Database) (table : String) (qualifier : Option String),
      let truth := sqlTruth db table qualifier row
      truth (all parts) = truth (.and parts) ∧
      truth (.and parts) = (parts.map truth).foldr Truth.and (some true) ∧
      truth (any parts) = truth (.or parts) ∧
      truth (.or parts) = (parts.map truth).foldr Truth.or (some false) := by
  refine ⟨by rw [holds_all, allHold_eq], by rw [holds_any, anyHolds_eq], ?_⟩
  intro db table qualifier truth
  refine ⟨sqlTruth_all parts, ?_, sqlTruth_any parts, ?_⟩
  · rw [List.foldr_map]
    exact sqlTruth_and parts
  · rw [List.foldr_map]
    exact sqlTruth_or parts

end Keyset.Condition
