import CrownFi.Lib.Outline
import CrownFi.Lib.Tables

/-!
# CrownFi.Lib.Statements

**Tables of a database, the statements that write them, and what locks protect.**

An `UPDATE` locks the rows that match when it runs and changes those rows; an
`INSERT` locks the keys of its row. So a transaction changes a row only under a
write lock on it. `Framed` says this of a commit, for a database whose locks are
laid out over its tables (`Layout`); from it the row of a locked key is stable.
-/

namespace Lib

variable {σ κ ℓ ρ ι α P : Type}

/-- The modes that a change of a row needs. -/
def LockMode.writes : LockMode → Bool
  | .noKeyUpdate | .update => true
  | .keyShare | .share => false

/-- The modes that exclude every write. -/
def LockMode.protects : LockMode → Bool
  | .keyShare => false
  | .share | .noKeyUpdate | .update => true

theorem LockMode.conflicts_of_protects {m n : LockMode} (hm : m.protects = true)
    (hn : n.writes = true) : m.conflicts n = true := by
  revert hm hn
  cases m <;> cases n <;> decide

/-! ### Tables -/

/-- A table of the state: its rows, how they are replaced, the key of a row, and the
lock key of that key. -/
structure Table (σ κ ι α : Type) where
  rows : σ → List α
  put : σ → List α → σ
  key : α → ι
  row : ι → κ
  rows_put : ∀ db l, rows (put db l) = l

namespace Table

variable [DecidableEq ι] (T : Table σ κ ι α)

/-- The row with this key. -/
def find (db : σ) (i : ι) : Option α := (T.rows db).find? (T.key · = i)

/-- The rows an `UPDATE` matches. -/
def matching (p : α → Bool) (db : σ) : List α := (T.rows db).filter p

/-- The change of an `UPDATE`: of the rows it matched when it saw `view`. -/
def modify (p : α → Bool) (f : α → α) (view db : σ) : σ :=
  T.put db (updateWhere (fun r => p r && decide (T.key r ∈ (T.matching p view).map T.key)) f (T.rows db))

def add (r : α) (db : σ) : σ := T.put db (T.rows db ++ [r])

variable {T}

omit [DecidableEq ι] in
@[simp] theorem rows_add {r : α} {db : σ} : T.rows (T.add r db) = T.rows db ++ [r] := T.rows_put _ _

@[simp] theorem rows_modify {p : α → Bool} {f : α → α} {view db : σ} :
    T.rows (T.modify p f view db) =
      updateWhere (fun r => p r && decide (T.key r ∈ (T.matching p view).map T.key)) f (T.rows db) :=
  T.rows_put _ _

omit [DecidableEq ι] in
theorem mem_matching {p : α → Bool} {db : σ} {r : α} :
    r ∈ T.matching p db ↔ r ∈ T.rows db ∧ p r = true := List.mem_filter

theorem mem_rows_modify {p : α → Bool} {f : α → α} {view db : σ} {r : α} :
    r ∈ T.rows (T.modify p f view db) ↔ ∃ r₀ ∈ T.rows db,
      r = if (p r₀ && decide (T.key r₀ ∈ (T.matching p view).map T.key)) = true then f r₀ else r₀ := by
  rw [rows_modify, mem_updateWhere]

/-- A row after an `UPDATE` is an old row, or a changed one that matched. -/
theorem mem_modify {p : α → Bool} {f : α → α} {view db : σ} {r : α}
    (h : r ∈ T.rows (T.modify p f view db)) :
    r ∈ T.rows db ∨ ∃ r₀ ∈ T.rows db, p r₀ = true ∧ r = f r₀ := by
  obtain ⟨r₀, hr₀, rfl⟩ := mem_rows_modify.mp h
  split
  · rename_i hcond
    exact .inr ⟨r₀, hr₀, (Bool.and_eq_true_iff.mp hcond).1, rfl⟩
  · exact .inl hr₀

/-- A row that does not match stays. -/
theorem mem_modify_of_not {p : α → Bool} {f : α → α} {view db : σ} {r : α} (hr : r ∈ T.rows db)
    (hp : p r = false) : r ∈ T.rows (T.modify p f view db) :=
  mem_rows_modify.mpr ⟨r, hr, by simp [hp]⟩

/-- A row that matched before and still does is changed. -/
theorem mem_modify_of_matching {p : α → Bool} {f : α → α} {view db : σ} {r r' : α}
    (hr : r ∈ T.rows db) (hp : p r = true) (hr' : r' ∈ T.matching p view) (hkey : T.key r = T.key r') :
    f r ∈ T.rows (T.modify p f view db) := by
  have hmem : T.key r ∈ (T.matching p view).map T.key := List.mem_map.mpr ⟨r', hr', hkey.symm⟩
  refine mem_rows_modify.mpr ⟨r, hr, ?_⟩
  rw [if_pos (by simp only [hp, hmem, decide_true, Bool.and_self])]

theorem keys_modify {p : α → Bool} {f : α → α} {view db : σ} (hf : ∀ r, T.key (f r) = T.key r) :
    (T.rows (T.modify p f view db)).map T.key = (T.rows db).map T.key := by
  rw [rows_modify]
  exact map_updateWhere hf

theorem find_modify {p : α → Bool} {f : α → α} {view db : σ} (hf : ∀ r, T.key (f r) = T.key r) (i : ι) :
    T.find (T.modify p f view db) i = (T.find db i).map fun r =>
      if (p r && decide (T.key r ∈ (T.matching p view).map T.key)) = true then f r else r := by
  rw [find, rows_modify, find?_updateWhere fun r => by simp only [hf r]]
  rfl

theorem find_modify_of_not_mem {p : α → Bool} {f : α → α} {view db : σ}
    (hf : ∀ r, T.key (f r) = T.key r) {i : ι} (hi : i ∉ (T.matching p view).map T.key) :
    T.find (T.modify p f view db) i = T.find db i := by
  rw [find_modify hf]
  cases hr : T.find db i with
  | none => rfl
  | some r =>
      have hkey : T.key r = i := by simpa using List.find?_some hr
      simp only [Option.map_some, hkey, hi, decide_false, Bool.and_false, Bool.false_eq_true, if_false]

/-- An `UPDATE` of one key changes no other. -/
theorem find_modify_of_ne {p : α → Bool} {f : α → α} {view db : σ} (hf : ∀ r, T.key (f r) = T.key r)
    {i j : ι} (hp : ∀ r, p r = true → T.key r = j) (hne : i ≠ j) :
    T.find (T.modify p f view db) i = T.find db i := by
  refine find_modify_of_not_mem hf fun hmem => ?_
  obtain ⟨r, hr, rfl⟩ := List.mem_map.mp hmem
  exact hne (hp r (mem_matching.mp hr).2)

/-- A row that the `UPDATE` saw as it is, and admits, is changed. -/
theorem find_modify_of_find {p : α → Bool} {f : α → α} {view db : σ} (hf : ∀ r, T.key (f r) = T.key r)
    {i : ι} {r : α} (hr : T.find db i = some r) (hview : T.find view i = some r) (hp : p r = true) :
    T.find (T.modify p f view db) i = some (f r) := by
  have hmem : T.key r ∈ (T.matching p view).map T.key :=
    List.mem_map.mpr ⟨r, List.mem_filter.mpr ⟨List.mem_of_find?_eq_some hview, hp⟩, rfl⟩
  rw [find_modify hf, hr, Option.map_some, if_pos]
  exact Bool.and_eq_true_iff.mpr ⟨hp, decide_eq_true hmem⟩

/-- An `UPDATE` that saw every row which matches now. -/
theorem modify_eq {p : α → Bool} {f : α → α} {view db : σ}
    (h : ∀ r ∈ T.rows db, p r = true → T.key r ∈ (T.matching p view).map T.key) :
    T.modify p f view db = T.put db (updateWhere p f (T.rows db)) := by
  rw [modify, updateWhere, updateWhere]
  congr 1
  refine List.map_congr_left fun r hr => ?_
  by_cases hp : p r = true
  · simp only [hp, h r hr hp, decide_true, Bool.and_self, if_true]
  · simp only [hp, Bool.false_and, Bool.false_eq_true, if_false]

/-- An `UPDATE` that sees the rows as they are. -/
theorem modify_self {p : α → Bool} {f : α → α} {db : σ} :
    T.modify p f db db = T.put db (updateWhere p f (T.rows db)) :=
  modify_eq fun r hr hp => List.mem_map_of_mem (mem_matching.mpr ⟨hr, hp⟩)

/-- An `UPDATE` that touches one row, found by any unique key. -/
theorem modify_eq_replaceRow {γ : Type} [DecidableEq γ] {p : α → Bool} {f : α → α} {view db : σ}
    {g : α → γ} {r : α} (hnodup : ((T.rows db).map g).Nodup) (hr : r ∈ T.rows db)
    (honly : ∀ s ∈ T.rows db, p s = true → g s = g r) (hkey : g (f r) = g r)
    (hview : p r = true → T.key r ∈ (T.matching p view).map T.key) :
    T.modify p f view db = T.put db (replaceRow g (if p r then f r else r) (T.rows db)) := by
  rw [modify_eq fun s hs hp => ?_, updateWhere_eq_replaceRow hnodup hr honly hkey]
  obtain rfl := List.inj_on_of_nodup_map hnodup hs hr (honly s hs hp)
  exact hview hp

/-- An `UPDATE` that matched nothing. -/
theorem modify_none {p : α → Bool} {f : α → α} {view db : σ} (h : T.matching p view = []) :
    T.modify p f view db = T.put db (T.rows db) := by
  rw [modify, updateWhere_eq_self fun r _ => by simp [h]]

/-- A lookup after an `UPDATE` that saw the rows as they are. -/
theorem find?_modify_self {p q : α → Bool} {f : α → α} {db : σ} (hf : ∀ r, q (f r) = q r) :
    (T.rows (T.modify p f db db)).find? q =
      ((T.rows db).find? q).map fun r => if p r = true then f r else r := by
  rw [rows_modify, find?_updateWhere hf]
  cases hr : (T.rows db).find? q with
  | none => rfl
  | some r =>
      have hmem : p r = true → T.key r ∈ (T.matching p db).map T.key := fun hp =>
        List.mem_map.mpr ⟨r, List.mem_filter.mpr ⟨List.mem_of_find?_eq_some hr, hp⟩, rfl⟩
      by_cases hp : p r = true
      · simp only [Option.map_some, hp, decide_eq_true (hmem hp), Bool.and_self, if_true]
      · simp only [Option.map_some, hp, Bool.false_and, Bool.false_eq_true, if_false]

/-- A row after an `UPDATE`, by its key. -/
theorem of_find_modify {p : α → Bool} {f : α → α} {view db : σ} (hf : ∀ r, T.key (f r) = T.key r)
    {i : ι} {r' : α} (h : T.find (T.modify p f view db) i = some r') :
    ∃ r, T.find db i = some r ∧
      (r' = r ∨ (p r = true ∧ i ∈ (T.matching p view).map T.key ∧ r' = f r)) := by
  rw [find_modify hf] at h
  obtain ⟨r, hr, rfl⟩ := Option.map_eq_some_iff.mp h
  refine ⟨r, hr, ?_⟩
  split
  · rename_i hcond
    obtain ⟨hp, hmem⟩ := Bool.and_eq_true_iff.mp hcond
    have hkey : T.key r = i := by simpa using List.find?_some hr
    exact .inr ⟨hp, hkey ▸ of_decide_eq_true hmem, rfl⟩
  · exact .inl rfl

theorem find_add {r : α} {db : σ} (i : ι) :
    T.find (T.add r db) i = (T.find db i).or (if T.key r = i then some r else none) := by
  rw [find, rows_add, List.find?_append, List.find?_singleton]
  simp only [find, decide_eq_true_eq]

theorem find_add_of_ne {r : α} {db : σ} {i : ι} (hi : T.key r ≠ i) :
    T.find (T.add r db) i = T.find db i := by
  rw [find_add, if_neg hi, Option.or_none]

/-- A row after an `INSERT` was there, or is the new one. -/
theorem of_find_add {r r' : α} {db : σ} {i : ι} (h : T.find (T.add r db) i = some r') :
    T.find db i = some r' ∨ (T.find db i = none ∧ T.key r = i ∧ r' = r) := by
  rw [find_add] at h
  cases hfind : T.find db i with
  | some s =>
      rw [hfind, Option.some_or] at h
      exact .inl h
  | none =>
      rw [hfind, Option.none_or] at h
      split at h
      · rename_i hkey
        exact .inr ⟨rfl, hkey, (Option.some.inj h).symm⟩
      · cases h

/-- A row that is there stays. -/
theorem find_add_of_some {r s : α} {db : σ} {i : ι} (hi : T.find db i = some s) :
    T.find (T.add r db) i = some s := by
  rw [find_add, hi, Option.some_or]

theorem find_mem {db : σ} {i : ι} {r : α} (h : T.find db i = some r) :
    r ∈ T.rows db ∧ T.key r = i :=
  ⟨List.mem_of_find?_eq_some h, by simpa using List.find?_some h⟩

/-- An `UPDATE` of the row with a unique key changes one row. -/
theorem length_matching_key {p : α → Bool} {db : σ} {r : α}
    (hnodup : ((T.rows db).map T.key).Nodup) (hr : T.find db (T.key r) = some r) (hp : p r = true) :
    (T.matching (fun s => decide (T.key s = T.key r) && p s) db).length = 1 := by
  have hmem := (find_mem hr).1
  have hall : ∀ s ∈ T.matching (fun s => decide (T.key s = T.key r) && p s) db, s = r := by
    intro s hs
    obtain ⟨hs, hkey⟩ := mem_matching.mp hs
    exact List.inj_on_of_nodup_map hnodup hs hmem
      (of_decide_eq_true (Bool.and_eq_true_iff.mp hkey).1)
  have hin : r ∈ T.matching (fun s => decide (T.key s = T.key r) && p s) db :=
    mem_matching.mpr ⟨hmem, by simp [hp]⟩
  have hone : (T.matching (fun s => decide (T.key s = T.key r) && p s) db).Nodup :=
    (hnodup.of_map _).filter _
  rw [List.eq_replicate_iff.mpr ⟨rfl, hall⟩] at hone hin
  rw [List.nodup_replicate] at hone
  have hpos := List.length_pos_of_mem hin
  rw [List.length_replicate] at hpos
  omega

theorem find_none {db : σ} {i : ι} (h : T.find db i = none) : ∀ r ∈ T.rows db, T.key r ≠ i := by
  intro r hr heq
  simpa [heq] using List.find?_eq_none.mp h r hr

/-- A unique key that is not violated is new. -/
theorem find_none_of_any {q : α → Bool} {db : σ} {i : ι} (h : (T.rows db).any q = false)
    (hq : ∀ r, T.key r = i → q r = true) : T.find db i = none := by
  refine List.find?_eq_none.mpr fun r hr hkey => ?_
  exact List.any_eq_false.mp h r hr (hq r (of_decide_eq_true hkey))

theorem find_of_mem {db : σ} (hnodup : ((T.rows db).map T.key).Nodup) {r : α} (hr : r ∈ T.rows db) :
    T.find db (T.key r) = some r := find?_key hnodup hr

omit [DecidableEq ι] in
theorem nodup_add {r : α} {db : σ} (hnodup : ((T.rows db).map T.key).Nodup)
    (hnew : ∀ r' ∈ T.rows db, T.key r' ≠ T.key r) : ((T.rows (T.add r db)).map T.key).Nodup := by
  rw [rows_add, List.map_append, List.nodup_append]
  refine ⟨hnodup, by simp, ?_⟩
  intro k hk k' hk' heq
  obtain ⟨r', hr', rfl⟩ := List.mem_map.mp hk
  simp only [List.map_cons, List.map_nil, List.mem_singleton] at hk'
  exact hnew r' hr' (heq.trans hk')

end Table

/-! ### Writing statements -/

namespace Tx

variable [DecidableEq ι]

/-- `UPDATE .. SET .. WHERE ..`: the number of rows changed. `locks` lists what a matching
row's change locks, `check` the error that its new row raises. -/
def update (label : ℓ) (T : Table σ κ ι α) (locks : α → List (Lock κ)) (p : α → Bool) (f : α → α)
    (check : σ → α → Option ρ) : Tx σ κ ℓ ρ Nat := fun k =>
  .stmt label (fun view => (T.matching p view).flatMap locks) (T.modify p f) fun view =>
    match (T.matching p view).findSome? fun r => check view (f r) with
    | some r => .ret r
    | none => k (T.matching p view).length

/-- `INSERT INTO .. VALUES ..`. -/
def insertRow (label : ℓ) (T : Table σ κ ι α) (locks : List (Lock κ)) (violation : σ → Option ρ)
    (r : α) : Tx σ κ ℓ ρ PUnit :=
  insert label (fun _ => locks) violation (T.add r)

end Tx

section Rules

variable [DecidableEq κ] [DecidableEq ι] {I : σ → Prop} {R G : List (Lock κ) → σ → σ → Prop}
  {ok must : ℓ → σ → Prop} {label : ℓ} {held : List (Lock κ)} {pending : σ → σ} {A : σ → Prop}

/-- An update that goes on only if no changed row violates a constraint. -/
theorem safe_updateChecked {T : Table σ κ ι α} {locks : α → List (Lock κ)} {p : α → Bool} {f : α → α}
    {check : σ → α → Option ρ} {k : Nat → Prog σ κ ℓ ρ}
    (h : ∀ db, I db → A db → ok label (pending db) →
      (∀ r ∈ T.matching p (pending db), check (pending db) (f r) = none) →
      ∃ A', A' db ∧ Stable I R (held ++ (T.matching p (pending db)).flatMap locks) A' ∧
        Outlined I R G ok must (k (T.matching p (pending db)).length)
          (held ++ (T.matching p (pending db)).flatMap locks)
          (fun d => T.modify p f (pending db) (pending d)) A')
    [hmust : Evident (∀ db, I db → A db → ok label (pending db) → must label (pending db))] :
    Outlined I R G ok must (Tx.update label T locks p f check k) held pending A := by
  refine safe_step (fun db hI hA hok => ?_)
  cases hcheck : (T.matching p (pending db)).findSome? fun r => check (pending db) (f r) with
  | some r => exact ⟨fun _ => True, trivial, stable_true, by simp⟩
  | none =>
      obtain ⟨A', hA', hstable, hk⟩ := h db hI hA hok (List.findSome?_eq_none_iff.mp hcheck)
      refine ⟨A', hA', hstable, ?_⟩
      simpa only [hcheck] using hk

theorem safe_update {T : Table σ κ ι α} {locks : α → List (Lock κ)} {p : α → Bool} {f : α → α}
    {check : σ → α → Option ρ} {k : Nat → Prog σ κ ℓ ρ}
    (h : ∀ db, I db → A db → ok label (pending db) →
      ∃ A', A' db ∧ Stable I R (held ++ (T.matching p (pending db)).flatMap locks) A' ∧
        Outlined I R G ok must (k (T.matching p (pending db)).length)
          (held ++ (T.matching p (pending db)).flatMap locks)
          (fun d => T.modify p f (pending db) (pending d)) A')
    [hmust : Evident (∀ db, I db → A db → ok label (pending db) → must label (pending db))] :
    Outlined I R G ok must (Tx.update label T locks p f check k) held pending A :=
  safe_updateChecked (fun db hI hA hok _ => h db hI hA hok)

omit [DecidableEq ι] in
theorem safe_insertRow {T : Table σ κ ι α} {locks : List (Lock κ)} {violation : σ → Option ρ} {r : α}
    {k : PUnit → Prog σ κ ℓ ρ}
    (h : ∀ db, I db → A db → ok label (pending db) → violation (pending db) = none →
      ∃ A', A' db ∧ Stable I R (held ++ locks) A' ∧
        Outlined I R G ok must (k ⟨⟩) (held ++ locks) (fun d => T.add r (pending d)) A')
    [hmust : Evident (∀ db, I db → A db → ok label (pending db) → must label (pending db))] :
    Outlined I R G ok must (Tx.insertRow label T locks violation r k) held pending A :=
  safe_insert h

end Rules

/-! ### Frames -/

/-- No write lock on `k` among these. -/
def NotWritten (L : List (Lock κ)) (k : κ) : Prop := ∀ l ∈ L, l.key = k → l.mode.writes = false

theorem NotWritten.mono {L L' : List (Lock κ)} {k : κ} (hsub : L ⊆ L') (h : NotWritten L' k) :
    NotWritten L k := fun l hl => h l (hsub hl)

/-- A write lock on `k` is among these. -/
def Written (L : List (Lock κ)) (k : κ) : Prop := ∃ l ∈ L, l.key = k ∧ l.mode.writes = true

theorem NotWritten.not_written {L : List (Lock κ)} {k : κ} (h : NotWritten L k) : ¬ Written L k := by
  rintro ⟨l, hl, hkey, hwrites⟩
  rw [h l hl hkey] at hwrites
  cases hwrites

theorem written_of_mem {L : List (Lock κ)} {k : κ} {m : LockMode} (h : ⟨k, m⟩ ∈ L)
    (hm : m.writes = true) : Written L k := ⟨_, h, rfl, hm⟩

theorem Written.mono {L L' : List (Lock κ)} {k : κ} (h : Written L k) (hsub : L ⊆ L') :
    Written L' k := by
  obtain ⟨l, hl, hkey, hwrites⟩ := h
  exact ⟨l, hsub hl, hkey, hwrites⟩

/-- A write lock excludes every lock that protects the same key. -/
theorem Compatible.not_writes [DecidableEq κ] {held L : List (Lock κ)} {l : Lock κ}
    (h : Compatible held L) (hl : l ∈ held) (hmode : l.mode.protects = true) :
    NotWritten L l.key := by
  intro l' hl' hkey
  cases hwrites : l'.mode.writes with
  | false => rfl
  | true => exact absurd hl' (h.not_mem hl hkey.symm (LockMode.conflicts_of_protects hmode hwrites))

/-- The change leaves every part of the state alone that is not write-locked by `L`. -/
def Framed (part : σ → κ → P) (L : List (Lock κ)) (db db' : σ) : Prop :=
  ∀ k, NotWritten L k → part db' k = part db k

namespace Framed

variable {part : σ → κ → P} {L L' : List (Lock κ)} {db db' db'' : σ}

theorem refl : Framed part L db db := fun _ _ => rfl

theorem trans (h : Framed part L db db') (h' : Framed part L db' db'') : Framed part L db db'' :=
  fun k hk => (h' k hk).trans (h k hk)

theorem mono (hsub : L ⊆ L') (h : Framed part L db db') : Framed part L' db db' :=
  fun k hk => h k (hk.mono hsub)

/-- What is locked against writes stays. -/
theorem locked [DecidableEq κ] {held : List (Lock κ)} {l : Lock κ} (h : Framed part L db db')
    (hcompat : Compatible held L) (hl : l ∈ held) (hmode : l.mode.protects = true) :
    part db' l.key = part db l.key :=
  h _ (hcompat.not_writes hl hmode)

end Framed

/-- A change that acts on each part of the state by itself: what a part becomes depends on
what it was, and on no other part. -/
def Rowwise (part : σ → κ → P) (change : σ → σ) : Prop :=
  ∀ k db db', part db k = part db' k → part (change db) k = part (change db') k

theorem Rowwise.id {part : σ → κ → P} : Rowwise part id := fun _ _ _ h => h

theorem Rowwise.comp {part : σ → κ → P} {f g : σ → σ} (hg : Rowwise part g) (hf : Rowwise part f) :
    Rowwise part fun db => g (f db) :=
  fun k db db' h => hg k _ _ (hf k db db' h)

/-- How the locked parts of the state are laid out over a table: the part of a row's lock is
the row with its key, and a change of the table reaches no other part. -/
structure Layout [DecidableEq ι] (part : σ → κ → P) (T : Table σ κ ι α) (embed : Option α → P) :
    Prop where
  row : ∀ db i, part db (T.row i) = embed (T.find db i)
  injective : Function.Injective embed
  other : ∀ db l k, (∀ i, T.row i ≠ k) → part (T.put db l) k = part db k

namespace Layout

variable [DecidableEq ι] {part : σ → κ → P} {T : Table σ κ ι α} {embed : Option α → P}
  {L : List (Lock κ)} {db db' : σ}

/-- Equal parts are equal rows. -/
theorem find_eq (h : Layout part T embed) {i : ι} (heq : part db (T.row i) = part db' (T.row i)) :
    T.find db i = T.find db' i := by
  rw [h.row, h.row] at heq
  exact h.injective heq

theorem framed_put (h : Layout part T embed) {l : List α}
    (hl : ∀ i, NotWritten L (T.row i) → T.find (T.put db l) i = T.find db i) :
    Framed part L db (T.put db l) := by
  intro k hk
  by_cases hrow : ∃ i, T.row i = k
  · obtain ⟨i, rfl⟩ := hrow
    rw [h.row, h.row, hl i hk]
  · exact h.other db l k fun i hi => hrow ⟨i, hi⟩

/-- An `INSERT` under the lock of its key. -/
theorem framed_add (h : Layout part T embed) {r : α} (hlock : ⟨T.row (T.key r), .update⟩ ∈ L) :
    Framed part L db (T.add r db) := by
  refine h.framed_put fun i hi => ?_
  have hne : T.key r ≠ i := by
    intro heq
    have := hi _ hlock (by rw [heq])
    cases this
  exact T.find_add_of_ne hne

/-- An `UPDATE` under the locks of the rows it matched. -/
theorem framed_modify (h : Layout part T embed) {p : α → Bool} {f : α → α} {view : σ}
    (hf : ∀ r, T.key (f r) = T.key r)
    (hlocks : ∀ r ∈ T.matching p view, ∃ l ∈ L, l.key = T.row (T.key r) ∧ l.mode.writes = true) :
    Framed part L db (T.modify p f view db) := by
  refine h.framed_put fun i hi => ?_
  have hnot : i ∉ (T.matching p view).map T.key := by
    intro hmem
    obtain ⟨r, hr, rfl⟩ := List.mem_map.mp hmem
    obtain ⟨l, hl, hkey, hwrites⟩ := hlocks r hr
    rw [hi l hl hkey] at hwrites
    cases hwrites
  exact T.find_modify_of_not_mem hf hnot

/-- A change of the table that acts on each row by itself. -/
theorem rowwise (h : Layout part T embed) {f : σ → List α}
    (hfind : ∀ i db db', T.find db i = T.find db' i →
      T.find (T.put db (f db)) i = T.find (T.put db' (f db')) i) :
    Rowwise part fun db => T.put db (f db) := by
  intro k db db' heq
  by_cases hrow : ∃ i, T.row i = k
  · obtain ⟨i, rfl⟩ := hrow
    rw [h.row, h.row, hfind i db db' (h.find_eq heq)]
  · have hother : ∀ i, T.row i ≠ k := fun i hi => hrow ⟨i, hi⟩
    rw [h.other _ _ _ hother, h.other _ _ _ hother, heq]

theorem rowwise_add (h : Layout part T embed) {r : α} : Rowwise part (T.add r) := by
  refine h.rowwise fun i db db' heq => ?_
  change T.find (T.add r db) i = T.find (T.add r db') i
  rw [T.find_add, T.find_add, heq]

theorem rowwise_modify (h : Layout part T embed) {p : α → Bool} {f : α → α} {view : σ}
    (hf : ∀ r, T.key (f r) = T.key r) : Rowwise part (T.modify p f view) := by
  refine h.rowwise fun i db db' heq => ?_
  change T.find (T.modify p f view db) i = T.find (T.modify p f view db') i
  rw [T.find_modify hf, T.find_modify hf, heq]

end Layout

/-! ### What stays of a table -/

namespace Table

variable [DecidableEq ι]

/-- The rows of the table stay, and each moves along `lead`. -/
def Grows (T : Table σ κ ι α) (lead : α → α → Prop) (db db' : σ) : Prop :=
  ∀ i r, T.find db i = some r → ∃ r', T.find db' i = some r' ∧ lead r r'

section Grows

variable {T : Table σ κ ι α} {lead : α → α → Prop} {db db' db'' : σ} [IsPreorder α lead]

/-- A change that keeps the rows. -/
theorem Grows.of_find (h : ∀ i, T.find db' i = T.find db i) : T.Grows lead db db' :=
  fun i r hr => ⟨r, (h i).trans hr, refl_of lead r⟩

theorem Grows.refl : T.Grows lead db db := .of_find fun _ => rfl

theorem Grows.trans (h : T.Grows lead db db') (h' : T.Grows lead db' db'') : T.Grows lead db db'' := by
  intro i r hr
  obtain ⟨r', hr', hlead⟩ := h i r hr
  obtain ⟨r'', hr'', hlead'⟩ := h' i r' hr'
  exact ⟨r'', hr'', trans_of lead hlead hlead'⟩

theorem Grows.add {r : α} : T.Grows lead db (T.add r db) :=
  fun _ s hs => ⟨s, T.find_add_of_some hs, refl_of lead s⟩

theorem Grows.modify {p : α → Bool} {f : α → α} {view : σ} (hf : ∀ r, T.key (f r) = T.key r)
    (hlead : ∀ r, p r = true → lead r (f r)) : T.Grows lead db (T.modify p f view db) := by
  intro i r hr
  rw [find_modify hf, hr, Option.map_some]
  refine ⟨_, rfl, ?_⟩
  split
  · rename_i hcond
    exact hlead r (Bool.and_eq_true_iff.mp hcond).1
  · exact refl_of lead r

end Grows

end Table

end Lib
