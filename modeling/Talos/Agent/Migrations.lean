import Mathlib.Algebra.Order.Group.Unbundled.Int
import Mathlib.Data.List.Basic

/-!
# Schema migrations of the agent

`run_migrations` (`packages/prime-agent/src/talos_agent/db/migrations.py`). A database carries the
version of the last migration it has seen, and an agent applies all migrations of its release that
are above it, in one transaction. A database that meets the releases one after the other should
come to be as one that meets the last of them only: `upgrades_iff` says when it does.

What the statements of a migration do to the tables is a parameter, which may fail.
-/

namespace Talos.Agent.Migrations

/-- A database file: `PRAGMA user_version` and the tables. -/
structure Database (σ : Type) where
  userVersion : ℤ
  tables : σ
  deriving DecidableEq

variable {σ sql : Type}

/-- The migrations above the version of the database. -/
def pending (migrations : List (ℤ × sql)) (version : ℤ) : List (ℤ × sql) :=
  migrations.filter fun m => version < m.1

/-- All statements, or none of them. -/
def executeAll (execute : sql → σ → Option σ) (migrations : List (ℤ × sql)) (tables : σ) :
    Option σ :=
  migrations.foldlM (fun tables m => execute m.2 tables) tables

/-- `none` where a statement raises: the transaction is rolled back. -/
def runMigrations (execute : sql → σ → Option σ) (migrations : List (ℤ × sql))
    (db : Database σ) : Option (Database σ) :=
  match (pending migrations db.userVersion).getLast? with
  | none => some db
  | some latest =>
      (executeAll execute (pending migrations db.userVersion) db.tables).map
        fun tables => ⟨latest.1, tables⟩

/-- Versions do not go down. -/
def Ordered (migrations : List (ℤ × sql)) : Prop := migrations.Pairwise fun m n => m.1 ≤ n.1

/-- A database that an earlier release has upgraded is upgraded to what it would have become
without it. -/
def Upgrades (earlier added : List (ℤ × sql)) : Prop :=
  ∀ (σ : Type) (execute : sql → σ → Option σ) (db : Database σ),
    (runMigrations execute earlier db).bind (runMigrations execute (earlier ++ added)) =
      runMigrations execute (earlier ++ added) db

variable {earlier added migrations : List (ℤ × sql)} {execute : sql → σ → Option σ}
  {db : Database σ} {version : ℤ}

theorem pending_append : pending (earlier ++ added) version =
    pending earlier version ++ pending added version :=
  List.filter_append ..

theorem pending_pending {higher : ℤ} (le : version ≤ higher) :
    pending migrations higher = (pending migrations version).filter fun m => higher < m.1 := by
  unfold pending
  rw [List.filter_filter]
  refine List.filter_congr fun m _ => ?_
  by_cases above : higher < m.1
  · simp [above, le.trans_lt above]
  · simp [above]

theorem executeAll_append (tables : σ) : executeAll execute (earlier ++ added) tables =
    (executeAll execute earlier tables).bind (executeAll execute added) := by
  unfold executeAll
  rw [List.foldlM_append]
  rfl

theorem runMigrations_of_nil (empty : pending migrations db.userVersion = []) :
    runMigrations execute migrations db = some db := by
  unfold runMigrations
  rw [empty]
  rfl

theorem runMigrations_of_ne_nil (found : pending migrations db.userVersion ≠ []) :
    runMigrations execute migrations db =
      (executeAll execute (pending migrations db.userVersion) db.tables).map
        fun tables => ⟨((pending migrations db.userVersion).getLast found).1, tables⟩ := by
  unfold runMigrations
  rw [List.getLast?_eq_getLast_of_ne_nil found]

/-- The last migration that is applied has the highest version. -/
theorem le_getLast (ordered : Ordered migrations) (found : pending migrations version ≠ [])
    {m : ℤ × sql} (mem : m ∈ migrations) :
    m.1 ≤ ((pending migrations version).getLast found).1 := by
  have applied : (pending migrations version).Pairwise fun m n => m.1 ≤ n.1 := ordered.filter _
  have above : version < ((pending migrations version).getLast found).1 := by
    simpa using (List.mem_filter.mp (List.getLast_mem found)).2
  by_cases high : version < m.1
  · have here : m ∈ pending migrations version :=
      List.mem_filter.mpr ⟨mem, by simpa using high⟩
    rcases eq_or_ne m ((pending migrations version).getLast found) with same | other
    · exact same ▸ le_refl _
    · rw [← List.dropLast_append_getLast found] at here applied
      rcases List.mem_append.mp here with before | last
      · exact (List.pairwise_append.mp applied).2.2 m before _ List.mem_cons_self
      · exact absurd (List.mem_singleton.mp last) other
  · exact (not_lt.mp high).trans above.le

/-- After an upgrade, the migrations of the release are behind, and those of the next are ahead. -/
theorem pending_after (ordered : Ordered (earlier ++ added))
    (apart : ∀ m ∈ earlier, ∀ n ∈ added, m.1 < n.1) (found : pending earlier version ≠ []) :
    pending (earlier ++ added) ((pending earlier version).getLast found).1 = added ∧
      pending added version = added := by
  have last := List.mem_of_mem_filter (List.getLast_mem found)
  have above : version < ((pending earlier version).getLast found).1 := by
    simpa using (List.mem_filter.mp (List.getLast_mem found)).2
  rw [pending_append]
  constructor
  · have behind : pending earlier ((pending earlier version).getLast found).1 = [] := by
      refine List.filter_eq_nil_iff.mpr fun m mem => ?_
      simpa using le_getLast (List.pairwise_append.mp ordered).1 found mem
    have ahead : pending added ((pending earlier version).getLast found).1 = added :=
      List.filter_eq_self.mpr fun n mem => by simpa using apart _ last n mem
    rw [behind, ahead, List.nil_append]
  · exact List.filter_eq_self.mpr fun n mem => by
      simpa using above.trans (apart _ last n mem)

/-- Two releases in turn, where all versions that were added are above the earlier ones. -/
theorem upgrades_of_apart (ordered : Ordered (earlier ++ added))
    (apart : ∀ m ∈ earlier, ∀ n ∈ added, m.1 < n.1) : Upgrades earlier added := by
  intro σ execute db
  by_cases empty : pending earlier db.userVersion = []
  · rw [runMigrations_of_nil empty]
    rfl
  · obtain ⟨after, ahead⟩ := pending_after ordered apart empty
    have all : pending (earlier ++ added) db.userVersion =
        pending earlier db.userVersion ++ added := by rw [pending_append, ahead]
    have any : pending (earlier ++ added) db.userVersion ≠ [] := by
      rw [all]
      exact List.append_ne_nil_of_left_ne_nil empty _
    rw [runMigrations_of_ne_nil empty, runMigrations_of_ne_nil any]
    simp only [all, executeAll_append]
    cases first : executeAll execute (pending earlier db.userVersion) db.tables with
    | none => rfl
    | some tables =>
        simp only [Option.map_some, Option.bind_some]
        rcases eq_or_ne added [] with rfl | more
        · rw [runMigrations_of_nil after]
          simp [executeAll]
        · have pendingAfter : pending (earlier ++ added)
              (⟨((pending earlier db.userVersion).getLast empty).1, tables⟩ :
                Database σ).userVersion ≠ [] := by
            rw [after]
            exact more
          rw [runMigrations_of_ne_nil pendingAfter]
          simp only [after]
          rw [List.getLast_append_of_ne_nil _ more]

/-! ### A version that two releases share -/

/-- Tables that count the migrations. -/
def counted (_ : sql) (applied : Nat) : Option Nat := some (applied + 1)

theorem executeAll_counted (applied : Nat) :
    executeAll counted migrations applied = some (applied + migrations.length) := by
  induction migrations generalizing applied with
  | nil => rfl
  | cons m rest ih =>
      change executeAll counted rest (applied + 1) = _
      rw [ih, List.length_cons]
      congr 1
      omega

theorem runMigrations_counted (db : Database Nat) :
    ((runMigrations counted migrations db).map Database.tables) =
      some (db.tables + (pending migrations db.userVersion).length) := by
  by_cases empty : pending migrations db.userVersion = []
  · rw [runMigrations_of_nil empty, empty]
    rfl
  · rw [runMigrations_of_ne_nil empty, executeAll_counted]
    rfl

/-- A migration with the version of an earlier one is left out. -/
theorem apart_of_upgrades (ordered : Ordered (earlier ++ added))
    (upgrades : Upgrades earlier added) : ∀ m ∈ earlier, ∀ n ∈ added, m.1 < n.1 := by
  intro m mem n added'
  by_contra low
  have same : n.1 ≤ m.1 := not_lt.mp low
  let db : Database Nat := ⟨m.1 - 1, 0⟩
  have below : db.userVersion < m.1 := Int.sub_one_lt_of_le (le_refl m.1)
  have found : pending earlier db.userVersion ≠ [] :=
    List.ne_nil_of_mem (List.mem_filter.mpr ⟨mem, by simpa using below⟩)
  have ordered' := (List.pairwise_append.mp ordered).1
  have both := congrArg (Option.map Database.tables) (upgrades Nat counted db)
  rw [runMigrations_counted, runMigrations_of_ne_nil found, executeAll_counted, Option.map_some,
    Option.bind_some, runMigrations_counted, Option.some.injEq, pending_append,
    List.length_append] at both
  have behind : pending earlier ((pending earlier db.userVersion).getLast found).1 = [] := by
    refine List.filter_eq_nil_iff.mpr fun other mem => ?_
    simpa using le_getLast ordered' found mem
  have fewer : (pending added ((pending earlier db.userVersion).getLast found).1).length <
      (pending added db.userVersion).length := by
    have last := le_getLast ordered' found mem
    have reached : m.1 ≤ n.1 := (List.pairwise_append.mp ordered).2.2 m mem n added'
    rw [pending_pending (below.le.trans last)]
    refine List.length_filter_lt_length_iff_exists.mpr ⟨n, List.mem_filter.mpr ⟨added', ?_⟩, ?_⟩
    · simpa using below.trans_le reached
    · simpa using same.trans last
  simp only [pending_append, List.length_append, behind, List.length_nil] at both
  omega

/-- The versions of `_MIGRATIONS`. -/
def versions : List ℤ := [1, 2, 3, 4, 5, 6, 7, 8, 9, 10, 11, 11, 12, 13]

def released : List (ℤ × Unit) := versions.map fun version => (version, ())

end Talos.Agent.Migrations
