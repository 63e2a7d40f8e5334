import Mathlib.Algebra.Order.Ring.Int
import Mathlib.Data.List.Nodup
import Mathlib.Logic.Function.Basic

/-!
# CrownFi.Lib.Sql

**A fragment of SQL, over tables whose columns have names.** A catalog says which columns a table has
and which constraints it keeps, and a query is data: the tables that it joins, each under a name of its
own, and the columns that it speaks of. Before a query runs, all of them are looked up in the catalog,
and one that its table does not have is an error, whatever is in the tables (`Query.run`). What a query
finds is computed as the standard says: joins in their order, then the condition, the groups and the
order of the result; a comparison with `NULL` is not true.
-/

namespace Lib.Sql

universe u v

variable {τ : Type u} {δ : Type v}

/-! ### Catalogs -/

/-- A row, by the names of its columns; `none` is `NULL`. -/
abbrev Row (δ : Type v) := String → Option δ

structure Column (δ : Type v) where
  name : String
  nullable : Bool
  /-- The type of the column, with the checks on its value. -/
  admits : δ → Bool

/-- What a column may hold. -/
def Column.Fits (c : Column δ) (d : Option δ) : Prop :=
  match d with
  | none => c.nullable = true
  | some d => c.admits d = true

/-- `name .. REFERENCES table (target)`. -/
structure Reference (τ : Type u) where
  name : String
  table : τ
  target : String

structure TableDefinition (τ : Type u) (δ : Type v) where
  columns : List (Column δ)
  /-- The checks on several columns at once. -/
  checks : List (Row δ → Bool)
  /-- The values under a unique key; rows that the key does not cover have none. -/
  keys : List (Row δ → Option (List δ))
  references : List (Reference τ)

abbrev Catalog (τ : Type u) (δ : Type v) := τ → TableDefinition τ δ

abbrev Tables (τ : Type u) (δ : Type v) := τ → List (Row δ)

/-- The values of some columns, unless one of them is `NULL`: a unique key over these columns. -/
def unique (names : List String) (r : Row δ) : Option (List δ) := names.mapM r

/-- A database that the catalog allows. -/
structure Conforms (catalog : Catalog τ δ) (db : Tables τ δ) : Prop where
  columns : ∀ t, ∀ r ∈ db t, ∀ c ∈ (catalog t).columns, c.Fits (r c.name)
  checks : ∀ t, ∀ r ∈ db t, ∀ check ∈ (catalog t).checks, check r = true
  keys : ∀ t, ∀ key ∈ (catalog t).keys, ((db t).filterMap key).Nodup
  references : ∀ t, ∀ ref ∈ (catalog t).references, ∀ r ∈ db t, ∀ d, r ref.name = some d →
    ∃ r' ∈ db ref.table, r' ref.target = some d

section Conforming

variable {catalog : Catalog τ δ} {db : Tables τ δ} {t : τ}

instance (c : Column δ) (d : Option δ) : Decidable (c.Fits d) :=
  match d with
  | none => inferInstanceAs (Decidable (_ = true))
  | some _ => inferInstanceAs (Decidable (_ = true))

/-- The constraints of one table, computed. -/
def TableDefinition.check [DecidableEq δ] (definition : TableDefinition τ δ) (db : Tables τ δ)
    (rows : List (Row δ)) : Bool :=
  (rows.all fun r => definition.columns.all fun c => c.Fits (r c.name)) &&
    (rows.all fun r => definition.checks.all (· r)) &&
    (definition.keys.all fun key => (rows.filterMap key).Nodup) &&
    definition.references.all fun ref => rows.all fun r =>
      (r ref.name).all fun d => (db ref.table).any (· ref.target = some d)

theorem conforms_of_check [DecidableEq δ] (h : ∀ t, (catalog t).check db (db t) = true) :
    Conforms catalog db := by
  simp only [TableDefinition.check, Bool.and_eq_true, List.all_eq_true, decide_eq_true_eq] at h
  refine ⟨fun t => (h t).1.1.1, fun t => (h t).1.1.2, fun t => (h t).1.2, fun t ref href r hr d hd => ?_⟩
  have hall := (h t).2 ref href r hr
  rw [hd, Option.all_some, List.any_eq_true] at hall
  obtain ⟨r', hr', heq⟩ := hall
  exact ⟨r', hr', of_decide_eq_true heq⟩

/-- A column that may not be `NULL` has a value. -/
theorem Conforms.isSome (h : Conforms catalog db) {r : Row δ} (hr : r ∈ db t) {c : Column δ}
    (hc : c ∈ (catalog t).columns) (hnull : c.nullable = false) : (r c.name).isSome := by
  have hfits := h.columns t r hr c hc
  cases hd : r c.name with
  | some d => rfl
  | none =>
      rw [hd] at hfits
      exact absurd (hnull.symm.trans hfits) Bool.false_ne_true

/-- A unique column, in the rows that have a value in it. -/
theorem nodup_of_unique {rows : List (Row δ)} {name : String}
    (h : (rows.filterMap (unique [name])).Nodup) (hname : ∀ r ∈ rows, (r name).isSome) :
    (rows.map (· name)).Nodup := by
  have hvalues : rows.filterMap (unique [name]) = (rows.filterMap (· name)).map ([·]) := by
    rw [List.map_filterMap]
    refine List.filterMap_congr fun r _ => ?_
    cases hr : r name <;> simp [unique, hr]
  have hmap : rows.map (· name) = (rows.filterMap (· name)).map some := by
    clear h hvalues
    induction rows with
    | nil => rfl
    | cons r rest ih =>
        obtain ⟨d, hd⟩ := Option.isSome_iff_exists.mp (hname r List.mem_cons_self)
        have hrest := ih fun r' hr' => hname r' (List.mem_cons_of_mem _ hr')
        have hcons : (r :: rest).filterMap (· name) = d :: rest.filterMap (· name) :=
          List.filterMap_cons_some hd
        rw [List.map_cons, hrest, hcons, List.map_cons, hd]
  rw [hmap]
  rw [hvalues] at h
  exact (List.Nodup.of_map _ h).map fun _ _ => Option.some.inj

end Conforming

/-! ### Queries -/

/-- A column is named with the source that it is of. -/
inductive Expr (δ : Type v)
  | column (source name : String)
  | value (d : δ)
  /-- `CASE source.name WHEN .. THEN .. ELSE .. END`. -/
  | switch (source name : String) (branches : List (δ × δ)) (otherwise : δ)

inductive Condition (δ : Type v)
  | eq (l r : Expr δ)
  | isIn (e : Expr δ) (ds : List δ)
  | and (l r : Condition δ)

inductive Output (δ : Type v)
  | expr (e : Expr δ)
  | count (e : Expr δ)

inductive JoinKind
  | inner
  | left
  deriving DecidableEq, Repr

structure Join (τ : Type u) (δ : Type v) where
  kind : JoinKind
  table : τ
  source : String
  condition : Condition δ

inductive Direction
  | ascending
  | descending
  deriving DecidableEq, Repr

structure Query (τ : Type u) (δ : Type v) where
  table : τ
  source : String
  joins : List (Join τ δ)
  outputs : List (String × Output δ)
  filter : Condition δ
  groupBy : Option (Expr δ)
  orderBy : List (Expr δ × Direction)

/-! ### The columns of a query -/

def Expr.columns : Expr δ → List (String × String)
  | column source name => [(source, name)]
  | value _ => []
  | switch source name _ _ => [(source, name)]

def Condition.columns : Condition δ → List (String × String)
  | eq l r => l.columns ++ r.columns
  | isIn e _ => e.columns
  | and l r => l.columns ++ r.columns

def Output.columns : Output δ → List (String × String)
  | expr e => e.columns
  | count e => e.columns

namespace Query

/-- All columns that the query speaks of, in the order in which they are looked up. -/
def columns (q : Query τ δ) : List (String × String) :=
  q.joins.flatMap (·.condition.columns) ++ q.outputs.flatMap (·.2.columns) ++ q.filter.columns ++
    (q.groupBy.toList.flatMap (·.columns)) ++ q.orderBy.flatMap (·.1.columns)

def sources (q : Query τ δ) : List (String × τ) :=
  (q.source, q.table) :: q.joins.map fun j => (j.source, j.table)

/-- The query has such a source, and its table has such a column. -/
def resolves (catalog : Catalog τ δ) (q : Query τ δ) (column : String × String) : Bool :=
  (q.sources.find? (·.1 = column.1)).any fun s => (catalog s.2).columns.any (·.name = column.2)

/-- The first column that is not there. -/
def undefined? (catalog : Catalog τ δ) (q : Query τ δ) : Option (String × String) :=
  q.columns.find? fun column => !q.resolves catalog column

end Query

/-! ### What a query finds -/

/-- A joined row: the row of each source. A source that a left join found nothing for has none, and
all its columns are `NULL`. -/
abbrev Tuple (δ : Type v) := String → Option (Row δ)

/-- What an implementation knows of its values: how they compare, and how it writes a number. -/
structure Values (δ : Type v) where
  le : δ → δ → Bool
  number : Nat → δ

section Evaluation

variable [DecidableEq δ] (values : Values δ)

def Expr.eval : Expr δ → Tuple δ → Option δ
  | column source name, t => (t source).bind (· name)
  | value d, _ => some d
  | switch source name branches otherwise, t =>
      some (((branches.find? fun b => (t source).bind (· name) = some b.1).map (·.2)).getD otherwise)

/-- Whether the condition is true. -/
def Condition.holds : Condition δ → Tuple δ → Bool
  | eq l r, t => (l.eval t).any fun d => r.eval t = some d
  | isIn e ds, t => (e.eval t).any (· ∈ ds)
  | and l r, t => l.holds t && r.holds t

/-- The row of the first source, alone. -/
def start (source : String) (r : Row δ) : Tuple δ := Function.update (fun _ => none) source (some r)

/-- The rows that a tuple is joined with. -/
def Join.found (j : Join τ δ) (db : Tables τ δ) (t : Tuple δ) : List (Tuple δ) :=
  ((db j.table).map fun r => Function.update t j.source (some r)).filter j.condition.holds

def Join.apply (j : Join τ δ) (db : Tables τ δ) (t : Tuple δ) : List (Tuple δ) :=
  if j.kind = .left ∧ (j.found db t).isEmpty then [Function.update t j.source none] else j.found db t

/-- The joins, one after the other. -/
def joined (db : Tables τ δ) : List (Join τ δ) → List (Tuple δ) → List (Tuple δ)
  | [], ts => ts
  | j :: rest, ts => joined db rest (ts.flatMap (j.apply db))

namespace Query

def tuples (q : Query τ δ) (db : Tables τ δ) : List (Tuple δ) :=
  (joined db q.joins ((db q.table).map (start q.source))).filter q.filter.holds

/-- The tuples with the same key, in the order in which the keys come first; without a key each tuple
is by itself. -/
def groups (q : Query τ δ) (db : Tables τ δ) : List (List (Tuple δ)) :=
  match q.groupBy with
  | none => (q.tuples db).map fun t => [t]
  | some e => ((q.tuples db).map e.eval).eraseDups.map fun key => (q.tuples db).filter (e.eval · = key)

end Query

/-- A value of a group is that of its first tuple. -/
def evalGroup (e : Expr δ) (group : List (Tuple δ)) : Option δ := group.head?.bind e.eval

/-- `NULL` comes last, from the other end first. -/
def comesBefore (direction : Direction) (a b : Option δ) : Bool :=
  match direction, a, b with
  | .ascending, _, none => true
  | .ascending, none, some _ => false
  | .ascending, some a, some b => values.le a b
  | .descending, none, _ => true
  | .descending, some _, none => false
  | .descending, some a, some b => values.le b a

/-- The order of the groups: where the first expressions are the same, the others decide. -/
def ordered : List (Expr δ × Direction) → List (Tuple δ) → List (Tuple δ) → Bool
  | [], _, _ => true
  | (e, direction) :: rest, g, g' =>
      if evalGroup e g = evalGroup e g' then ordered rest g g'
      else comesBefore values direction (evalGroup e g) (evalGroup e g')

def Output.eval : Output δ → List (Tuple δ) → Option δ
  | expr e, g => evalGroup e g
  | count e, g => some (values.number (g.countP fun t => (e.eval t).isSome))

namespace Query

/-- The row that a group is returned as. -/
def output (q : Query τ δ) (g : List (Tuple δ)) : Row δ := fun name =>
  (q.outputs.find? (·.1 = name)).bind fun o => o.2.eval values g

def rows (q : Query τ δ) (db : Tables τ δ) : List (Row δ) :=
  ((q.groups db).mergeSort (ordered values q.orderBy)).map (q.output values)

/-- **A query runs if all its columns are there.** -/
def run (catalog : Catalog τ δ) (q : Query τ δ) (db : Tables τ δ) :
    Except (String × String) (List (Row δ)) :=
  match q.undefined? catalog with
  | some column => .error column
  | none => .ok (q.rows values db)

end Query

end Evaluation

/-! ### Errors -/

section Run

variable [DecidableEq δ] {values : Values δ} {catalog : Catalog τ δ} {q : Query τ δ} {db : Tables τ δ}

theorem run_undefined {column : String × String} (h : q.undefined? catalog = some column) :
    q.run values catalog db = .error column := by
  rw [Query.run, h]

theorem run_defined (h : q.undefined? catalog = none) : q.run values catalog db = .ok (q.rows values db) := by
  rw [Query.run, h]

end Run

/-! ### Conditions -/

section Conditions

variable [DecidableEq δ] {t t' : Tuple δ}

theorem Expr.eval_congr {e : Expr δ} (h : ∀ c ∈ e.columns, t c.1 = t' c.1) : e.eval t = e.eval t' := by
  cases e with
  | column source name => rw [eval, eval, h (source, name) (List.mem_singleton_self _)]
  | value d => rfl
  | switch source name branches otherwise =>
      rw [eval, eval, h (source, name) (List.mem_singleton_self _)]

/-- A condition depends on the rows of its sources. -/
theorem Condition.holds_congr {c : Condition δ} (h : ∀ column ∈ c.columns, t column.1 = t' column.1) :
    c.holds t = c.holds t' := by
  induction c with
  | eq l r =>
      rw [holds, holds, Expr.eval_congr (fun c hc => h c (List.mem_append_left _ hc)),
        Expr.eval_congr (fun c hc => h c (List.mem_append_right _ hc))]
  | isIn e ds => rw [holds, holds, Expr.eval_congr h]
  | and l r ihl ihr =>
      rw [holds, holds, ihl fun c hc => h c (List.mem_append_left _ hc),
        ihr fun c hc => h c (List.mem_append_right _ hc)]

end Conditions

/-! ### Joins -/

section Joins

variable [DecidableEq δ] {db : Tables τ δ} {j : Join τ δ} {joins : List (Join τ δ)} {t t' : Tuple δ}
  {ts : List (Tuple δ)} {source : String}

/-- A join leaves the other sources as they are. -/
theorem source_of_mem_apply (h : t' ∈ j.apply db t) (hsource : j.source ≠ source) : t' source = t source := by
  have hfound (hmem : t' ∈ j.found db t) : t' source = t source := by
    obtain ⟨r, -, rfl⟩ := List.mem_map.mp (List.mem_of_mem_filter hmem)
    exact Function.update_of_ne hsource.symm _ _
  unfold Join.apply at h
  split at h
  · rw [List.mem_singleton.mp h]
    exact Function.update_of_ne hsource.symm _ _
  · exact hfound h

theorem source_of_mem_joined (h : t' ∈ joined db joins ts) (hsource : ∀ j ∈ joins, j.source ≠ source) :
    ∃ t ∈ ts, t' source = t source := by
  induction joins generalizing ts with
  | nil => exact ⟨t', h, rfl⟩
  | cons j rest ih =>
      obtain ⟨t₁, ht₁, heq₁⟩ := ih h fun j hj => hsource j (List.mem_cons_of_mem _ hj)
      obtain ⟨t, ht, hmem⟩ := List.mem_flatMap.mp ht₁
      exact ⟨t, ht, heq₁.trans (source_of_mem_apply hmem (hsource j List.mem_cons_self))⟩

/-- A left join drops nothing. -/
theorem apply_ne_nil (db : Tables τ δ) (t : Tuple δ) (h : j.kind = .left) : j.apply db t ≠ [] := by
  unfold Join.apply
  split
  · exact List.cons_ne_nil _ _
  · rename_i hnot
    intro hnil
    exact hnot ⟨h, List.isEmpty_iff.mpr hnil⟩

theorem exists_mem_joined (db : Tables τ δ) (ht : t ∈ ts) (hleft : ∀ j ∈ joins, j.kind = .left)
    (hsource : ∀ j ∈ joins, j.source ≠ source) : ∃ t' ∈ joined db joins ts, t' source = t source := by
  induction joins generalizing ts t with
  | nil => exact ⟨t, ht, rfl⟩
  | cons j rest ih =>
      obtain ⟨t₁, ht₁⟩ := List.exists_mem_of_ne_nil _ (apply_ne_nil db t (hleft j List.mem_cons_self))
      obtain ⟨t', ht', heq⟩ := ih (List.mem_flatMap.mpr ⟨t, ht, ht₁⟩)
        (fun j hj => hleft j (List.mem_cons_of_mem _ hj)) fun j hj => hsource j (List.mem_cons_of_mem _ hj)
      exact ⟨t', ht', heq.trans (source_of_mem_apply ht₁ (hsource j List.mem_cons_self))⟩

end Joins

/-! ### Queries on one table, with others to the left -/

section LeftJoins

variable [DecidableEq δ] {values : Values δ} {q : Query τ δ} {db : Tables τ δ}

/-- All joins are left joins, and the condition is one on the first table. -/
structure Query.Extends (q : Query τ δ) : Prop where
  joins : ∀ j ∈ q.joins, j.kind = .left ∧ j.source ≠ q.source
  filter : ∀ column ∈ q.filter.columns, column.1 = q.source

/-- The rows of the first table that the condition admits. -/
def Query.selected (q : Query τ δ) (db : Tables τ δ) : List (Row δ) :=
  (db q.table).filter fun r => q.filter.holds (start q.source r)

omit [DecidableEq δ] in
theorem start_source (source : String) (r : Row δ) : start source r source = some r :=
  Function.update_self _ _ _

theorem tuples_eq_nil_iff (h : q.Extends) : q.tuples db = [] ↔ q.selected db = [] := by
  have hholds {t t' : Tuple δ} (heq : t q.source = t' q.source) : q.filter.holds t = q.filter.holds t' :=
    Condition.holds_congr fun column hcolumn => by rw [h.filter column hcolumn, heq]
  unfold Query.tuples Query.selected
  rw [List.filter_eq_nil_iff, List.filter_eq_nil_iff]
  constructor
  · intro hnone r hr hadmits
    obtain ⟨t, ht, heq⟩ := exists_mem_joined db (List.mem_map_of_mem (f := start q.source) hr)
      (fun j hj => (h.joins j hj).1) fun j hj => (h.joins j hj).2
    exact hnone t ht ((hholds heq).trans hadmits)
  · intro hnone t ht hadmits
    obtain ⟨t₀, ht₀, heq⟩ := source_of_mem_joined ht fun j hj => (h.joins j hj).2
    obtain ⟨r, hr, rfl⟩ := List.mem_map.mp ht₀
    exact hnone r hr ((hholds heq).symm.trans hadmits)

theorem groups_eq_nil_iff : q.groups db = [] ↔ q.tuples db = [] := by
  unfold Query.groups
  cases q.groupBy with
  | none => exact List.map_eq_nil_iff
  | some e =>
      rw [List.map_eq_nil_iff]
      constructor
      · intro hnil
        rw [List.eq_nil_iff_forall_not_mem] at hnil ⊢
        intro t ht
        exact hnil _ (List.mem_eraseDups.mpr (List.mem_map_of_mem ht))
      · intro hnil
        rw [hnil]
        rfl

/-- **The query returns a row if the condition admits one.** -/
theorem rows_eq_nil_iff (h : q.Extends) : q.rows values db = [] ↔ q.selected db = [] := by
  rw [Query.rows, List.map_eq_nil_iff, ← tuples_eq_nil_iff h, ← groups_eq_nil_iff]
  constructor
  · intro hnil
    have hperm := List.mergeSort_perm (q.groups db) (ordered values q.orderBy)
    exact (hnil ▸ hperm).symm.eq_nil
  · intro hnil
    rw [hnil, List.mergeSort_nil]

end LeftJoins

/-! ### Groups of one row -/

section Blocks

variable {α β κ : Type*} [DecidableEq κ] [BEq κ] [LawfulBEq κ] {key : β → κ} {block : α → List β} {k : α → κ} {as : List α}

omit [DecidableEq κ] in
/-- Blocks with a key each, none of them empty: their keys come in their order. -/
theorem eraseDups_blocks (hkey : ∀ a ∈ as, ∀ b ∈ block a, key b = k a) (hblock : ∀ a ∈ as, block a ≠ [])
    (hnodup : (as.map k).Nodup) : ((as.flatMap block).map key).eraseDups = as.map k := by
  induction as with
  | nil => rfl
  | cons a rest ih =>
      obtain ⟨hnew, hrest⟩ := List.nodup_cons.mp (List.map_cons ▸ hnodup)
      have htail := ih (fun a' ha' => hkey a' (List.mem_cons_of_mem _ ha'))
        (fun a' ha' => hblock a' (List.mem_cons_of_mem _ ha')) hrest
      have hown : (block a).map key = List.replicate (block a).length (k a) :=
        List.eq_replicate_iff.mpr ⟨List.length_map _, fun x hx => by
          obtain ⟨b, hb, rfl⟩ := List.mem_map.mp hx
          exact hkey a List.mem_cons_self b hb⟩
      obtain ⟨n, hn⟩ := Nat.exists_eq_succ_of_ne_zero
        (Nat.ne_of_gt (List.length_pos_iff.mpr (hblock a List.mem_cons_self)))
      -- the key of the first block is not among the others
      have hothers : ∀ x ∈ (rest.flatMap block).map key, x ≠ k a := by
        intro x hx heq
        obtain ⟨b, hb, rfl⟩ := List.mem_map.mp hx
        obtain ⟨a', ha', hmem⟩ := List.mem_flatMap.mp hb
        refine hnew (List.mem_map.mpr ⟨a', ha', ?_⟩)
        rw [← heq, hkey a' (List.mem_cons_of_mem _ ha') b hmem]
      have hdrop (n : Nat) : ((List.replicate n (k a) ++ (rest.flatMap block).map key).filter
          fun x => !x == k a) = (rest.flatMap block).map key := by
        rw [List.filter_append, List.filter_eq_nil_iff.mpr, List.nil_append, List.filter_eq_self.mpr]
        · intro x hx
          simpa using hothers x hx
        · intro x hx
          simp [List.eq_of_mem_replicate hx]
      rw [List.flatMap_cons, List.map_append, hown, hn, List.replicate_succ, List.cons_append,
        List.eraseDups_cons, hdrop, htail, List.map_cons]

omit [BEq κ] [LawfulBEq κ] in
/-- The block of a key. -/
theorem filter_blocks (hkey : ∀ a ∈ as, ∀ b ∈ block a, key b = k a) (hnodup : (as.map k).Nodup) {a : α}
    (ha : a ∈ as) : (as.flatMap block).filter (key · = k a) = block a := by
  have hfilter (a' : α) (ha' : a' ∈ as) : (block a').filter (key · = k a) = if k a' = k a then block a' else [] := by
    split
    · rename_i heq
      exact List.filter_eq_self.mpr fun b hb => decide_eq_true ((hkey a' ha' b hb).trans heq)
    · rename_i hne
      exact List.filter_eq_nil_iff.mpr fun b hb heq => hne ((hkey a' ha' b hb).symm.trans (of_decide_eq_true heq))
  clear hkey
  induction as with
  | nil => cases ha
  | cons a' rest ih =>
      obtain ⟨hnew, hrest⟩ := List.nodup_cons.mp (List.map_cons ▸ hnodup)
      rw [List.flatMap_cons, List.filter_append, hfilter a' List.mem_cons_self]
      rcases List.mem_cons.mp ha with rfl | hmem
      · rw [if_pos rfl, List.filter_eq_nil_iff.mpr, List.append_nil]
        intro b hb heq
        obtain ⟨a₁, ha₁, hmem⟩ := List.mem_flatMap.mp hb
        have hnone := hfilter a₁ (List.mem_cons_of_mem _ ha₁)
        rw [if_neg fun heq' : k a₁ = k a => hnew (heq' ▸ List.mem_map_of_mem ha₁), List.filter_eq_nil_iff] at hnone
        exact hnone b hmem heq
      · rw [if_neg fun heq : k a' = k a => hnew (heq ▸ List.mem_map_of_mem hmem), List.nil_append]
        exact ih hrest hmem fun a₁ ha₁ => hfilter a₁ (List.mem_cons_of_mem _ ha₁)

/-- **The groups are the blocks.** -/
theorem groups_of_blocks (hkey : ∀ a ∈ as, ∀ b ∈ block a, key b = k a) (hblock : ∀ a ∈ as, block a ≠ [])
    (hnodup : (as.map k).Nodup) :
    ((as.flatMap block).map key).eraseDups.map (fun k' => (as.flatMap block).filter (key · = k')) =
      as.map block := by
  rw [eraseDups_blocks hkey hblock hnodup, List.map_map]
  exact List.map_congr_left fun a ha => filter_blocks hkey hnodup ha

end Blocks

section Groups

variable [DecidableEq δ] {values : Values δ} {q : Query τ δ} {db : Tables τ δ} {j : Join τ δ}
  {key : String}

theorem source_of_mem_block {r : Row δ} {t : Tuple δ} {source : String} (h : t ∈ j.apply db (start source r))
    (hsource : j.source ≠ source) : t source = some r :=
  (source_of_mem_apply h hsource).trans (start_source source r)

/-- **A left join grouped by a key of the first table**: each row that is selected is a group, with the
rows that it is joined with. -/
theorem groups_extending (h : q.Extends) (hjoins : q.joins = [j])
    (hgroup : q.groupBy = some (.column q.source key)) (hkey : ((q.selected db).map (· key)).Nodup) :
    q.groups db = (q.selected db).map fun r => j.apply db (start q.source r) := by
  obtain ⟨hleft, hsource⟩ := h.joins j (by rw [hjoins]; exact List.mem_singleton_self _)
  -- the condition on the first table drops whole blocks
  have htuples : q.tuples db = (q.selected db).flatMap fun r => j.apply db (start q.source r) := by
    unfold Query.tuples Query.selected
    rw [hjoins, joined, joined, List.flatMap_map, List.filter_flatMap]
    induction db q.table with
    | nil => rfl
    | cons r rest ih =>
        have hblock (t : Tuple δ) (ht : t ∈ j.apply db (start q.source r)) :
            q.filter.holds t = q.filter.holds (start q.source r) :=
          Condition.holds_congr fun column hcolumn => by
            rw [h.filter column hcolumn, source_of_mem_apply ht hsource]
        rw [List.flatMap_cons, List.filter_cons, ih]
        split
        · rename_i hadmits
          rw [List.flatMap_cons, List.filter_eq_self.mpr fun t ht => (hblock t ht).trans hadmits]
        · rename_i hrefuses
          rw [List.filter_eq_nil_iff.mpr fun t ht hadmits => hrefuses ((hblock t ht).symm.trans hadmits),
            List.nil_append]
  unfold Query.groups
  rw [hgroup, htuples]
  have hblock (r : Row δ) (t : Tuple δ) (ht : t ∈ j.apply db (start q.source r)) :
      (Expr.column q.source key).eval t = r key := by
    rw [Expr.eval, source_of_mem_block ht hsource, Option.bind_some]
  exact groups_of_blocks (fun r _ => hblock r) (fun r _ => apply_ne_nil db _ hleft) hkey

/-- What is returned then, up to the order. -/
theorem rows_extending (h : q.Extends) (hjoins : q.joins = [j])
    (hgroup : q.groupBy = some (.column q.source key)) (hkey : ((q.selected db).map (· key)).Nodup) :
    (q.rows values db).Perm
      ((q.selected db).map fun r => q.output values (j.apply db (start q.source r))) := by
  rw [Query.rows, groups_extending h hjoins hgroup hkey]
  refine (List.Perm.map _ (List.mergeSort_perm _ _)).trans ?_
  rw [List.map_map]
  exact .refl _

/-- A column of the first table in a group. -/
theorem evalGroup_block {r : Row δ} {source name : String} (hleft : j.kind = .left) (hsource : j.source ≠ source) :
    evalGroup (.column source name) (j.apply db (start source r)) = r name := by
  obtain ⟨t, rest, hblock⟩ := List.exists_cons_of_ne_nil (apply_ne_nil db (start source r) hleft)
  have ht : t source = some r := source_of_mem_block (hblock ▸ List.mem_cons_self) hsource
  rw [hblock]
  show (t source).bind (· name) = r name
  rw [ht, Option.bind_some]

/-- The number of rows that were found: a count of a column that is never `NULL`. -/
theorem countP_block {t : Tuple δ} {name : String} (hname : ∀ r ∈ db j.table, (r name).isSome) :
    (j.apply db t).countP (fun t => ((Expr.column j.source name).eval t).isSome) = (j.found db t).length := by
  unfold Join.apply
  split
  · rename_i hnone
    rw [List.isEmpty_iff.mp hnone.2, List.countP_singleton]
    simp [Expr.eval]
  · refine List.countP_eq_length.mpr fun t' ht' => ?_
    obtain ⟨r, hr, rfl⟩ := List.mem_map.mp (List.mem_of_mem_filter ht')
    simpa [Expr.eval] using hname r hr

end Groups

end Lib.Sql
