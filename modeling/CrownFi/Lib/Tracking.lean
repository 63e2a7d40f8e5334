import CrownFi.Lib.Statements

/-!
# CrownFi.Lib.Tracking

**Proof outlines for transactions that change rows.** The guarantee of a commit has two
halves here (`Forward`): it changes only the parts that it holds write locks on, and it moves
the state along a relation `Q` of the locks it holds, for all that is not a matter of single
parts. A transaction in progress is tracked by two facts: its changes so far are rowwise and
write-locked and its assertion is stable (`Track`), and they would keep the invariant and move
the state along a preorder `R` of the transaction's own, within `Q` (`Keeps`). Each statement
has a rule that carries both on; after a statement everything locked is as the statement saw
it (`Seen`).
-/

namespace Lib

variable {σ κ ℓ ρ ι α P : Type}

/-- What a commit under the locks `L` may do. -/
structure Forward (part : σ → κ → P) (Q : List (Lock κ) → σ → σ → Prop) (L : List (Lock κ))
    (db db' : σ) : Prop where
  framed : Framed part L db db'
  moved : Q L db db'

/-- What is locked is still as it was seen. -/
def Seen (part : σ → κ → P) (L : List (Lock κ)) (view now : σ) : Prop :=
  ∀ l ∈ L, l.mode.protects = true → part now l.key = part view l.key

theorem Seen.refl {part : σ → κ → P} {L : List (Lock κ)} {db : σ} : Seen part L db db :=
  fun _ _ _ => rfl

theorem Seen.mono {part : σ → κ → P} {L L' : List (Lock κ)} {view now : σ} (h : Seen part L' view now)
    (hsub : L ⊆ L') : Seen part L view now := fun l hl => h l (hsub hl)

/-- The row of a locked key, seen again. -/
theorem Seen.find [DecidableEq ι] {part : σ → κ → P} {T : Table σ κ ι α} {embed : Option α → P}
    {L : List (Lock κ)} {view now : σ} (h : Seen part L view now) (hT : Layout part T embed) {i : ι}
    {m : LockMode} (hlock : ⟨T.row i, m⟩ ∈ L) (hmode : m.protects = true) :
    T.find now i = T.find view i :=
  hT.find_eq (h _ hlock hmode)

/-- The changes of a transaction so far, with an assertion about the committed state. -/
structure Track [DecidableEq κ] (part : σ → κ → P) (I : σ → Prop)
    (Q : List (Lock κ) → σ → σ → Prop) (held : List (Lock κ)) (pending : σ → σ) (A : σ → Prop) :
    Prop where
  framed : ∀ db, Framed part held db (pending db)
  rowwise : Rowwise part pending
  stable : Stable I (Forward part Q) held A

/-- To commit now would keep the invariant. -/
def Keeps (I : σ → Prop) (R : σ → σ → Prop) (pending : σ → σ) (A : σ → Prop) : Prop :=
  ∀ db, I db → A db → I (pending db) ∧ R db (pending db)

/-- A table that neither the locked parts nor the invariant nor the preorder speak of. -/
structure Hidden (part : σ → κ → P) (I : σ → Prop) (R : σ → σ → Prop) (T : Table σ κ ι α) : Prop where
  part_put : ∀ db l k, part (T.put db l) k = part db k
  keeps : ∀ db l, I db → I (T.put db l) ∧ R db (T.put db l)

section Keeps

variable {I : σ → Prop} {R : σ → σ → Prop} {pending : σ → σ} {A B : σ → Prop}

theorem Keeps.start [IsPreorder σ R] : Keeps I R id A := fun db hI _ => ⟨hI, refl_of R db⟩

theorem Keeps.mono (h : Keeps I R pending A) (hBA : ∀ db, B db → A db) : Keeps I R pending B :=
  fun db hI hB => h db hI (hBA db hB)

/-- One more change. -/
theorem Keeps.change [IsPreorder σ R] {f : σ → σ} (h : Keeps I R pending A)
    (hchange : ∀ db, I db → A db → I (pending db) →
      I (f (pending db)) ∧ R (pending db) (f (pending db))) :
    Keeps I R (fun db => f (pending db)) A := by
  intro db hI hA
  obtain ⟨hIp, hRp⟩ := h db hI hA
  obtain ⟨hIc, hRc⟩ := hchange db hI hA hIp
  exact ⟨hIc, trans_of R hRp hRc⟩

end Keeps

namespace Track

variable [DecidableEq κ] [DecidableEq ι] {part : σ → κ → P} {I : σ → Prop}
  {Q : List (Lock κ) → σ → σ → Prop} {R : σ → σ → Prop}
  {held L : List (Lock κ)} {pending : σ → σ} {A B : σ → Prop} {ok must : ℓ → σ → Prop} {label : ℓ}
  {G : List (Lock κ) → σ → σ → Prop} {T : Table σ κ ι α} {embed : Option α → P}

/-! ### Locks and changes -/

theorem start : Track part I Q [] id fun _ => True where
  framed _ := .refl
  rowwise := .id
  stable := stable_true

theorem lock (h : Track part I Q held pending A) : Track part I Q (held ++ L) pending A where
  framed db := (h.framed db).mono (List.subset_append_left _ _)
  rowwise := h.rowwise
  stable := h.stable.weaken

theorem and (h : Track part I Q held pending A) (hB : Stable I (Forward part Q) held B) :
    Track part I Q held pending fun db => A db ∧ B db where
  framed := h.framed
  rowwise := h.rowwise
  stable := h.stable.and hB

/-- What the transaction has locked stays as it saw it, its own changes included. -/
theorem stable_seen (h : Track part I Q held pending A) (view : σ) :
    Stable I (Forward part Q) held fun db => Seen part held view (pending db) := by
  intro L db db' hcompat _ _ hseen hG l hl hmode
  rw [← hseen l hl hmode]
  exact h.rowwise _ _ _ (hG.framed.locked hcompat hl hmode)

theorem see (h : Track part I Q held pending A) (view : σ) :
    Track part I Q held pending fun db => A db ∧ Seen part held view (pending db) :=
  h.and (h.stable_seen view)

theorem change {f : σ → σ} (h : Track part I Q held pending A)
    (hframed : ∀ db, Framed part held db (f db)) (hrow : Rowwise part f) :
    Track part I Q held (fun db => f (pending db)) A where
  framed db := (h.framed db).trans (hframed (pending db))
  rowwise := hrow.comp h.rowwise
  stable := h.stable

/-- A change of nothing that is locked or spoken of. -/
theorem hide {f : σ → σ} (h : Track part I Q held pending A)
    (hpart : ∀ db k, part (f db) k = part db k) :
    Track part I Q held (fun db => f (pending db)) A :=
  h.change (fun db k _ => hpart db k) fun k db db' heq => by rw [hpart, hpart, heq]

theorem modify (h : Track part I Q held pending A) (hT : Layout part T embed) {p : α → Bool}
    {f : α → α} {view : σ} (hf : ∀ r, T.key (f r) = T.key r)
    (hlocks : ∀ r ∈ T.matching p view, ∃ l ∈ held, l.key = T.row (T.key r) ∧ l.mode.writes = true) :
    Track part I Q held (fun db => T.modify p f view (pending db)) A :=
  h.change (fun _ => hT.framed_modify hf hlocks) (hT.rowwise_modify hf)

/-- The change of an update that locked what it matched. -/
theorem modifyLocked {p : α → Bool} {f : α → α} {view : σ} {lock : α → List (Lock κ)}
    (h : Track part I Q (held ++ (T.matching p view).flatMap lock) pending A)
    (hT : Layout part T embed) (hf : ∀ r, T.key (f r) = T.key r)
    (hlock : ∀ r, ∃ l ∈ lock r, l.key = T.row (T.key r) ∧ l.mode.writes = true) :
    Track part I Q (held ++ (T.matching p view).flatMap lock)
      (fun db => T.modify p f view (pending db)) A := by
  refine h.modify hT hf fun r hr => ?_
  obtain ⟨l, hl, hkey, hwrites⟩ := hlock r
  exact ⟨l, List.mem_append_right _ (List.mem_flatMap.mpr ⟨r, hr, hl⟩), hkey, hwrites⟩

theorem add (h : Track part I Q held pending A) (hT : Layout part T embed) {r : α}
    (hlock : ⟨T.row (T.key r), .update⟩ ∈ held) :
    Track part I Q held (fun db => T.add r (pending db)) A :=
  h.change (fun _ => hT.framed_add hlock) hT.rowwise_add

/-! ### Rules for the statements -/

/-- After a statement that saw `view` and took the locks `L`, before its change: a tracked
transaction with an assertion `B` that knows what is locked. -/
structure After (part : σ → κ → P) (I : σ → Prop) (Q : List (Lock κ) → σ → σ → Prop)
    (held : List (Lock κ)) (pending : σ → σ) (A : σ → Prop) (L : List (Lock κ)) (view : σ)
    (B : σ → Prop) : Prop where
  track : Track part I Q (held ++ L) pending B
  before : ∀ db, B db → A db
  seen : ∀ db, B db → Seen part (held ++ L) view (pending db)

theorem after (h : Track part I Q held pending A) {db : σ} (hA : A db) :
    ∃ B, B db ∧ After part I Q held pending A L (pending db) B :=
  ⟨_, ⟨hA, .refl⟩, h.lock.see _, fun _ hd => hd.1, fun _ hd => hd.2⟩

/-- The same, remembering one more thing that the locks keep. -/
theorem afterKnowing (h : Track part I Q held pending A) {db : σ} (hA : A db) {C : σ → Prop}
    (hC : C db) (hstable : Stable I (Forward part Q) (held ++ L) C) :
    ∃ B, B db ∧ After part I Q held pending A L (pending db) B ∧ ∀ d, B d → C d := by
  obtain ⟨B, hB, hafter⟩ := h.after (L := L) hA
  exact ⟨_, ⟨hB, hC⟩, ⟨hafter.track.and hstable, fun d hd => hafter.before d hd.1,
    fun d hd => hafter.seen d hd.1⟩, fun _ hd => hd.2⟩

section Rules

variable {β : Type} {locks : σ → List (Lock κ)}

/-- A statement in general. -/
theorem safe_stmt {effect : σ → σ → σ} {answer : σ → β} {k : β → Prog σ κ ℓ ρ}
    (h : Track part I Q held pending A)
    (next : ∀ db B, I db → A db → ok label (pending db) →
      After part I Q held pending A (locks (pending db)) (pending db) B →
      Outlined I (Forward part Q) G ok must (k (answer (pending db))) (held ++ locks (pending db))
        (fun d => effect (pending db) (pending d)) B)
    [hmust : Evident (∀ db, I db → A db → ok label (pending db) → must label (pending db))] :
    Outlined I (Forward part Q) G ok must (Tx.stmt label locks effect answer k) held pending A := by
  refine Lib.safe_stmt (fun db hI hA hok => ?_)
  obtain ⟨B, hB, hafter⟩ := h.after (L := locks (pending db)) hA
  exact ⟨B, hB, hafter.track.stable, next db B hI hA hok hafter⟩

/-- A statement, as a program, before which something was known that the locks so far keep. -/
theorem safe_stepKnowing {effect : σ → σ → σ} {rest : σ → Prog σ κ ℓ ρ}
    (h : Track part I Q held pending A) (C : σ → σ → Prop)
    (hC : ∀ db, I db → A db → ok label (pending db) → C db db)
    (hstable : ∀ db, Stable I (Forward part Q) held (C db))
    (next : ∀ db B, I db → A db → ok label (pending db) →
      After part I Q held pending A (locks (pending db)) (pending db) B → (∀ d, B d → C db d) →
      Outlined I (Forward part Q) G ok must (rest (pending db)) (held ++ locks (pending db))
        (fun d => effect (pending db) (pending d)) B)
    [hmust : Evident (∀ db, I db → A db → ok label (pending db) → must label (pending db))] :
    Outlined I (Forward part Q) G ok must (.stmt label locks effect rest) held pending A := by
  refine Lib.safe_step (fun db hI hA hok => ?_)
  obtain ⟨B, hB, hafter, hknown⟩ := h.afterKnowing (L := locks (pending db)) hA (hC db hI hA hok)
    (hstable db).weaken
  exact ⟨B, hB, hafter.track.stable, next db B hI hA hok hafter hknown⟩

/-- A locking read: what it locks is known from now on. -/
theorem safe_selectFor {answer : σ → β} {k : β → Prog σ κ ℓ ρ} (h : Track part I Q held pending A)
    (next : ∀ db B a, I db → A db → answer (pending db) = a →
      After part I Q held pending A (locks (pending db)) (pending db) B →
      Outlined I (Forward part Q) G ok must (k a) (held ++ locks (pending db)) pending B)
    [hmust : Evident (∀ db, I db → A db → ok label (pending db) → must label (pending db))] :
    Outlined I (Forward part Q) G ok must (Tx.selectFor label locks answer k) held pending A :=
  h.safe_stmt (fun db B hI hA _ => next db B _ hI hA rfl)

/-- A locking read before which something was known that the locks so far keep. -/
theorem safe_selectForKnowing {answer : σ → β} {k : β → Prog σ κ ℓ ρ}
    (h : Track part I Q held pending A) (C : σ → σ → Prop)
    (hC : ∀ db, I db → A db → ok label (pending db) → C db db)
    (hstable : ∀ db, Stable I (Forward part Q) held (C db))
    (next : ∀ db B a, I db → A db → answer (pending db) = a →
      After part I Q held pending A (locks (pending db)) (pending db) B → (∀ d, B d → C db d) →
      Outlined I (Forward part Q) G ok must (k a) (held ++ locks (pending db)) pending B)
    [hmust : Evident (∀ db, I db → A db → ok label (pending db) → must label (pending db))] :
    Outlined I (Forward part Q) G ok must (Tx.selectFor label locks answer k) held pending A :=
  h.safe_stepKnowing C hC hstable (fun db B hI hA _ => next db B _ hI hA rfl)

/-- An update of rows that must see something: the rows that it matched are known from now on. -/
theorem safe_updateSeeing {lock : α → List (Lock κ)} {p : α → Bool} {f : α → α} {check : σ → α → Option ρ}
    {k : Nat → Prog σ κ ℓ ρ} (h : Track part I Q held pending A)
    (next : ∀ db B, I db → A db → ok label (pending db) →
      After part I Q held pending A ((T.matching p (pending db)).flatMap lock) (pending db) B →
      Outlined I (Forward part Q) G ok must (k (T.matching p (pending db)).length)
        (held ++ (T.matching p (pending db)).flatMap lock)
        (fun d => T.modify p f (pending db) (pending d)) B)
    (hmust : ∀ db, I db → A db → ok label (pending db) → must label (pending db)) :
    Outlined I (Forward part Q) G ok must (Tx.update label T lock p f check k) held pending A := by
  have : Evident (∀ db, I db → A db → ok label (pending db) → must label (pending db)) := ⟨hmust⟩
  refine Lib.safe_update (fun db hI hA hok => ?_)
  obtain ⟨B, hB, hafter⟩ := h.after (L := (T.matching p (pending db)).flatMap lock) hA
  exact ⟨B, hB, hafter.track.stable, next db B hI hA hok hafter⟩

/-- The same, where nothing must be seen. -/
theorem safe_update {lock : α → List (Lock κ)} {p : α → Bool} {f : α → α} {check : σ → α → Option ρ}
    {k : Nat → Prog σ κ ℓ ρ} (h : Track part I Q held pending A)
    (next : ∀ db B, I db → A db → ok label (pending db) →
      After part I Q held pending A ((T.matching p (pending db)).flatMap lock) (pending db) B →
      Outlined I (Forward part Q) G ok must (k (T.matching p (pending db)).length)
        (held ++ (T.matching p (pending db)).flatMap lock)
        (fun d => T.modify p f (pending db) (pending d)) B)
    [hmust : Evident (∀ db, I db → A db → ok label (pending db) → must label (pending db))] :
    Outlined I (Forward part Q) G ok must (Tx.update label T lock p f check k) held pending A :=
  h.safe_updateSeeing next hmust.holds

/-- The same, with what the constraints say of the changed rows. -/
theorem safe_updateChecked {lock : α → List (Lock κ)} {p : α → Bool} {f : α → α}
    {check : σ → α → Option ρ} {k : Nat → Prog σ κ ℓ ρ} (h : Track part I Q held pending A)
    (next : ∀ db B, I db → A db → (∀ r ∈ T.matching p (pending db), check (pending db) (f r) = none) →
      After part I Q held pending A ((T.matching p (pending db)).flatMap lock) (pending db) B →
      Outlined I (Forward part Q) G ok must (k (T.matching p (pending db)).length)
        (held ++ (T.matching p (pending db)).flatMap lock)
        (fun d => T.modify p f (pending db) (pending d)) B)
    [hmust : Evident (∀ db, I db → A db → ok label (pending db) → must label (pending db))] :
    Outlined I (Forward part Q) G ok must (Tx.update label T lock p f check k) held pending A := by
  refine Lib.safe_updateChecked (fun db hI hA _ hcheck => ?_)
  obtain ⟨B, hB, hafter⟩ := h.after (L := (T.matching p (pending db)).flatMap lock) hA
  exact ⟨B, hB, hafter.track.stable, next db B hI hA hcheck hafter⟩

/-- An update under whose condition something is known that the locks keep, those of the update
included. -/
theorem safe_updateLocking {lock : α → List (Lock κ)} {p : α → Bool} {f : α → α} {check : σ → α → Option ρ}
    {k : Nat → Prog σ κ ℓ ρ} (h : Track part I Q held pending A)
    (C : σ → σ → Prop) (hC : ∀ db, I db → A db → ok label (pending db) → C db db)
    (hstable : ∀ db, Stable I (Forward part Q) (held ++ (T.matching p (pending db)).flatMap lock) (C db))
    (next : ∀ db B, I db → A db →
      After part I Q held pending A ((T.matching p (pending db)).flatMap lock) (pending db) B →
      (∀ d, B d → C db d) →
      Outlined I (Forward part Q) G ok must (k (T.matching p (pending db)).length)
        (held ++ (T.matching p (pending db)).flatMap lock)
        (fun d => T.modify p f (pending db) (pending d)) B)
    [hmust : Evident (∀ db, I db → A db → ok label (pending db) → must label (pending db))] :
    Outlined I (Forward part Q) G ok must (Tx.update label T lock p f check k) held pending A := by
  refine Lib.safe_update (fun db hI hA hok => ?_)
  obtain ⟨B, hB, hafter, hknown⟩ := h.afterKnowing
    (L := (T.matching p (pending db)).flatMap lock) hA (hC db hI hA hok) (hstable db)
  exact ⟨B, hB, hafter.track.stable, next db B hI hA hafter hknown⟩

/-- The same, where the locks so far keep what was known before the update. -/
theorem safe_updateKnowing {lock : α → List (Lock κ)} {p : α → Bool} {f : α → α}
    {check : σ → α → Option ρ} {k : Nat → Prog σ κ ℓ ρ} (h : Track part I Q held pending A)
    (C : σ → σ → Prop) (hC : ∀ db, I db → A db → C db db)
    (hstable : ∀ db, Stable I (Forward part Q) held (C db))
    (next : ∀ db B, I db → A db →
      After part I Q held pending A ((T.matching p (pending db)).flatMap lock) (pending db) B →
      (∀ d, B d → C db d) →
      Outlined I (Forward part Q) G ok must (k (T.matching p (pending db)).length)
        (held ++ (T.matching p (pending db)).flatMap lock)
        (fun d => T.modify p f (pending db) (pending d)) B)
    [hmust : Evident (∀ db, I db → A db → ok label (pending db) → must label (pending db))] :
    Outlined I (Forward part Q) G ok must (Tx.update label T lock p f check k) held pending A :=
  h.safe_updateLocking C (fun db hI hA _ => hC db hI hA) (fun db => (hstable db).weaken) next

omit [DecidableEq ι] in
theorem safe_insertRow {violation : σ → Option ρ} {r : α} {k : PUnit → Prog σ κ ℓ ρ}
    (h : Track part I Q held pending A)
    (next : ∀ db B, I db → A db → violation (pending db) = none →
      After part I Q held pending A L (pending db) B →
      Outlined I (Forward part Q) G ok must (k ⟨⟩) (held ++ L) (fun d => T.add r (pending d)) B)
    [hmust : Evident (∀ db, I db → A db → ok label (pending db) → must label (pending db))] :
    Outlined I (Forward part Q) G ok must (Tx.insertRow label T L violation r k) held pending A := by
  refine Lib.safe_insertRow (fun db hI hA _ hv => ?_)
  obtain ⟨B, hB, hafter⟩ := h.after (L := L) hA
  exact ⟨B, hB, hafter.track.stable, next db B hI hA hv hafter⟩

omit [DecidableEq ι] in
/-- An insertion whose constraints say something that its locks keep. -/
theorem safe_insertRowLocking {violation : σ → Option ρ} {r : α} {k : PUnit → Prog σ κ ℓ ρ}
    (h : Track part I Q held pending A) (C : σ → σ → Prop)
    (hC : ∀ db, I db → A db → violation (pending db) = none → C db db)
    (hstable : ∀ db, Stable I (Forward part Q) (held ++ L) (C db))
    (next : ∀ db B, I db → A db → violation (pending db) = none →
      After part I Q held pending A L (pending db) B → (∀ d, B d → C db d) →
      Outlined I (Forward part Q) G ok must (k ⟨⟩) (held ++ L) (fun d => T.add r (pending d)) B)
    [hmust : Evident (∀ db, I db → A db → ok label (pending db) → must label (pending db))] :
    Outlined I (Forward part Q) G ok must (Tx.insertRow label T L violation r k) held pending A := by
  refine Lib.safe_insertRow (fun db hI hA _ hv => ?_)
  obtain ⟨B, hB, hafter, hknown⟩ := h.afterKnowing (L := L) hA (hC db hI hA hv) (hstable db)
  exact ⟨B, hB, hafter.track.stable, next db B hI hA hv hafter hknown⟩

/-- The end of the transaction. -/
theorem safe_commitWithin {k : PUnit → Prog σ κ ℓ ρ} (h : Track part I Q held pending A)
    (hkeeps : Keeps I R pending A) (hRQ : ∀ db db', R db db' → Q held db db')
    (next : Outlined I (Forward part Q) (Forward part Q) ok must (k ⟨⟩) [] id fun _ => True) :
    Outlined I (Forward part Q) (Forward part Q) ok must (Tx.commit k) held pending A := by
  refine Lib.safe_commit (fun db hI hA => ?_) next
  obtain ⟨hI', hR⟩ := hkeeps db hI hA
  exact ⟨hI', h.framed db, hRQ _ _ hR⟩

/-- The end of a transaction whose own guarantee is everybody's. -/
theorem safe_commit {k : PUnit → Prog σ κ ℓ ρ} (h : Track part I (fun _ => R) held pending A)
    (hkeeps : Keeps I R pending A)
    (next : Outlined I (Forward part fun _ => R) (Forward part fun _ => R) ok must (k ⟨⟩) [] id fun _ => True) :
    Outlined I (Forward part fun _ => R) (Forward part fun _ => R) ok must (Tx.commit k) held pending A :=
  h.safe_commitWithin hkeeps (fun _ _ h => h) next

/-! ### Rules for hidden tables -/

/-- A transaction after a change of a hidden table: more locks, the same parts. -/
structure Hides (part : σ → κ → P) (I : σ → Prop) (Q : List (Lock κ) → σ → σ → Prop)
    (R : σ → σ → Prop) (held : List (Lock κ)) (pending : σ → σ) (A : σ → Prop)
    (held' : List (Lock κ)) (pending' : σ → σ) (B : σ → Prop) : Prop where
  track : Track part I Q held' pending' B
  keeps : Keeps I R pending' B
  locks : held ⊆ held'
  before : ∀ db, B db → A db
  same : ∀ db k, part (pending' db) k = part (pending db) k
  moved : ∀ db, I db → B db → R (pending db) (pending' db)

/-- No change at all. -/
theorem hides_refl [IsPreorder σ R] (h : Track part I Q held pending A) (hkeeps : Keeps I R pending A) :
    Hides part I Q R held pending A held pending A where
  track := h
  keeps := hkeeps
  locks := List.Subset.refl _
  before _ h := h
  same _ _ := rfl
  moved _ _ _ := refl_of R _

theorem After.hides [IsPreorder σ R] {view : σ} {change : σ → σ}
    (h : After part I Q held pending A L view B) (hkeeps : Keeps I R pending A)
    (hpart : ∀ db k, part (change db) k = part db k)
    (hchange : ∀ db, I db → I (change db) ∧ R db (change db)) :
    Hides part I Q R held pending A (held ++ L) (fun db => change (pending db)) B where
  track := h.track.hide hpart
  keeps := (hkeeps.mono h.before).change fun _ _ _ hI => hchange _ hI
  locks := List.subset_append_left _ _
  before := h.before
  same db k := hpart (pending db) k
  moved db hI hB := (hchange _ (hkeeps db hI (h.before db hB)).1).2

theorem Hides.trans [IsPreorder σ R] {held₁ held₂ : List (Lock κ)} {pending₁ pending₂ : σ → σ} {A₁ A₂ : σ → Prop}
    (h : Hides part I Q R held pending A held₁ pending₁ A₁)
    (h' : Hides part I Q R held₁ pending₁ A₁ held₂ pending₂ A₂) :
    Hides part I Q R held pending A held₂ pending₂ A₂ where
  track := h'.track
  keeps := h'.keeps
  locks := fun _ hl => h'.locks (h.locks hl)
  before db hdb := h.before db (h'.before db hdb)
  same db k := (h'.same db k).trans (h.same db k)
  moved db hI hB := trans_of R (h.moved db hI (h'.before db hB)) (h'.moved db hI hB)

/-- Facts about a row survive. -/
theorem Hides.find {held' : List (Lock κ)} {pending' : σ → σ}
    (h : Hides part I Q R held pending A held' pending' B) (hT : Layout part T embed) (db : σ) (i : ι) :
    T.find (pending' db) i = T.find (pending db) i :=
  hT.find_eq (h.same db _)

variable [IsPreorder σ R]

theorem safe_updateHidden {lock : α → List (Lock κ)} {p : α → Bool} {f : α → α}
    {check : σ → α → Option ρ} {k : Nat → Prog σ κ ℓ ρ} (h : Track part I Q held pending A)
    (hkeeps : Keeps I R pending A) (hT : Hidden part I R T)
    (next : ∀ n held' pending' B, Hides part I Q R held pending A held' pending' B →
      Outlined I (Forward part Q) G ok must (k n) held' pending' B)
    [hmust : Evident (∀ db, I db → A db → ok label (pending db) → must label (pending db))] :
    Outlined I (Forward part Q) G ok must (Tx.update label T lock p f check k) held pending A := by
  refine h.safe_update (fun db B _ _ _ hafter => next _ _ _ _ (hafter.hides hkeeps ?_ ?_))
  · exact fun _ k => hT.part_put _ _ k
  · exact fun _ hI => hT.keeps _ _ hI

omit [DecidableEq ι] in
theorem safe_insertHidden {violation : σ → Option ρ} {r : α} {k : PUnit → Prog σ κ ℓ ρ}
    (h : Track part I Q held pending A) (hkeeps : Keeps I R pending A) (hT : Hidden part I R T)
    (next : ∀ held' pending' B, Hides part I Q R held pending A held' pending' B →
      Outlined I (Forward part Q) G ok must (k ⟨⟩) held' pending' B)
    [hmust : Evident (∀ db, I db → A db → ok label (pending db) → must label (pending db))] :
    Outlined I (Forward part Q) G ok must (Tx.insertRow label T L violation r k) held pending A := by
  refine h.safe_insertRow (fun db B _ _ _ hafter => next _ _ _ (hafter.hides hkeeps ?_ ?_))
  · exact fun _ k => hT.part_put _ _ k
  · exact fun _ hI => hT.keeps _ _ hI

omit [DecidableEq ι] in
theorem safe_writeHidden {change : σ → σ} {k : PUnit → Prog σ κ ℓ ρ}
    (h : Track part I Q held pending A) (hkeeps : Keeps I R pending A)
    (hpart : ∀ db k, part (change db) k = part db k)
    (hchange : ∀ db, I db → I (change db) ∧ R db (change db))
    (next : ∀ held' pending' B, Hides part I Q R held pending A held' pending' B →
      Outlined I (Forward part Q) G ok must (k ⟨⟩) held' pending' B)
    [hmust : Evident (∀ db, I db → A db → ok label (pending db) → must label (pending db))] :
    Outlined I (Forward part Q) G ok must (Tx.write label locks change k) held pending A := by
  exact h.safe_stmt (fun db B _ _ _ hafter => next _ _ _ (hafter.hides hkeeps hpart hchange))

end Rules

end Track

end Lib
