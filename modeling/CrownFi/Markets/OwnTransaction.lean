import CrownFi.Markets.UserCap

/-!
# CrownFi.Markets.OwnTransaction

**A stake intent and its transaction.** A submission reads the intent, and writes it later without
looking again; evidence locks the intent, but is not compared with the transaction that was
submitted for it. So what an intent says of its transaction lasts exactly as far as neither matters:
a submission is only written while the intent is unconfirmed and names no other transaction, and
evidence is only accepted about the transaction that the intent names. Then the transaction of an
intent never changes, a confirmed intent stays confirmed, and all evidence names the transaction of
its intent.
-/

namespace CrownFi.Markets

open Lib CrownFi.Api Positions

variable {ext : External}

/-! ### What stays of an intent -/

/-- The transaction of an intent stays, and so does its confirmation. -/
structure StakeIntent.Settles (i i' : StakeIntent) : Prop where
  transaction : ∀ txHash, i.submittedTxHash = some txHash → i'.submittedTxHash = some txHash
  confirmed : i.status = .confirmed → i'.status = .confirmed

instance : IsPreorder StakeIntent StakeIntent.Settles where
  refl _ := ⟨fun _ h => h, fun h => h⟩
  trans _ _ _ h h' := ⟨fun txHash hi => h'.transaction txHash (h.transaction txHash hi),
    fun hi => h'.confirmed (h.confirmed hi)⟩

abbrev IntentsSettle : Database → Database → Prop := stakeIntentTable.Grows StakeIntent.Settles

/-- All evidence names the transaction of its intent. -/
def Agreed (db : Database) : Prop :=
  ∀ e ∈ db.positionEvidence, ∃ i, stakeIntentTable.find db e.stakeIntentId = some i ∧
    i.submittedTxHash = some e.txHash

/-- Exact books of stakes, with every stake accepted from its own transaction. -/
structure OwnBooks (db : Database) : Prop where
  books : StakeBooks db
  agreed : Agreed db

/-! ### The condition -/

/-- The intent is unconfirmed, and names no other transaction. -/
def Submittable (txHash : String) (i : StakeIntent) : Bool :=
  i.status ≠ .confirmed && i.submittedTxHash.all (· = txHash)

/-- A submission is written to an intent that is unconfirmed and names no other transaction, and
evidence is accepted about the transaction that its intent names. -/
def OwnTransaction : Site → Database → Prop
  | .submit intentId txHash, db => (stakeIntentTable.find db intentId).all (Submittable txHash) = true
  | .accept stakeIntentId txHash, db =>
      (stakeIntentTable.find db stakeIntentId).all (·.submittedTxHash = some txHash) = true
  | _, _ => True

instance (site : Site) (db : Database) : Decidable (OwnTransaction site db) :=
  match site with
  | .submit _ _ => inferInstanceAs (Decidable (_ = true))
  | .accept _ _ => inferInstanceAs (Decidable (_ = true))
  | .transition _ _ _ | .closePositions _ | .finalize _ | .activate _ | .userExposure _ _ | .passes
  | .other => inferInstanceAs (Decidable True)

/-- What the others leave alone besides locked rows. -/
structure OwnRely (L : List (Lock Row)) (db db' : Database) : Prop where
  stakes : StakeRely L db db'
  intents : IntentsSettle db db'

abbrev OwnGuarantee : List (Lock Row) → Database → Database → Prop := Forward stakePart OwnRely

abbrev OwnOutline : Prog Database Row Site Result → List (Lock Row) → (Database → Database) →
    (Database → Prop) → Prop :=
  Safe OwnBooks OwnGuarantee OwnTransaction

/-- A request that keeps intents and their transactions together. -/
abbrev KeepsTransactions (p : Prog Database Row Site Result) : Prop :=
  SafeRequest OwnBooks OwnGuarantee OwnTransaction p

/-! ### Requests that submit and accept nothing -/

section Beside

variable {L : List (Lock Row)} {db db' : Database}

/-- Without new evidence it is enough that intents settle. -/
theorem Agreed.settle (h : Agreed db) (hintents : IntentsSettle db db')
    (hevidence : db'.positionEvidence = db.positionEvidence) : Agreed db' := by
  intro e he
  obtain ⟨i, hi, hhash⟩ := h e (hevidence ▸ he)
  obtain ⟨i', hi', hsettles⟩ := hintents _ _ hi
  exact ⟨i', hi', hsettles.transaction _ hhash⟩

/-- What a request that neither submits nor confirms an intent does. -/
structure OwnAside (L : List (Lock Row)) (db db' : Database) : Prop where
  aside : Aside Closes L db db'
  intents : IntentsSettle db db'

instance : Widening OwnAside where
  refl L db := ⟨Widening.refl L db, .refl⟩
  trans L _ _ _ h h' := ⟨Widening.trans L _ _ _ h.aside h'.aside, h.intents.trans h'.intents⟩
  mono L L' db db' hsub h := { h with aside := Widening.mono L L' db db' hsub h.aside }

theorem OwnBooks.aside (h : OwnBooks db) (ha : OwnAside L db db') : OwnBooks db' where
  books := h.books.aside ha.aside fun _ _ hcloses => hcloses.same
  agreed := h.agreed.settle ha.intents ha.aside.evidence

theorem OwnBooks.guarantee_aside (h : OwnBooks db) (ha : OwnAside L db db') : OwnGuarantee L db db' where
  framed := ha.aside.framed
  moved :=
    { stakes := ⟨fun id _ => activeTotal_aside h.books ha.aside id, congrArg _ ha.aside.outcomes⟩
      intents := ha.intents }

theorem spares_ownAside : Spares OwnAside where
  decisions L db l := ⟨spares_aside.decisions L db l, .of_find fun _ => rfl⟩
  governance L db l := ⟨spares_aside.governance L db l, .of_find fun _ => rfl⟩
  runs L db l := ⟨spares_aside.runs L db l, .of_find fun _ => rfl⟩
  items L db l := ⟨spares_aside.items L db l, .of_find fun _ => rfl⟩
  settlementEvidence L db l := ⟨spares_aside.settlementEvidence L db l, .of_find fun _ => rfl⟩
  markets L view db p f hf := ⟨spares_aside.markets L view db p f hf, .of_find fun _ => rfl⟩

theorem sparesClosing_ownAside {ok : Site → Database → Prop} : SparesClosing ok OwnAside :=
  fun marketId kind L view db hok => ⟨sparesClosing_aside marketId kind L view db hok, .of_find fun _ => rfl⟩

/-- An intent that expires was not confirmed. -/
theorem sparesExpiry_ownAside : SparesExpiry OwnAside := by
  intro view db p hp
  refine ⟨sparesIntents_aside.expired view db p hp, .modify (fun _ => rfl) fun i hi => ?_⟩
  refine ⟨fun _ hhash => hhash, fun hconfirmed => ?_⟩
  rcases hp i hi with hstatus | hstatus
  · exact absurd (hstatus.symm.trans hconfirmed) (by decide)
  · exact absurd (hstatus.symm.trans hconfirmed) (by decide)

theorem sparesIntents_ownAside : SparesIntents OwnAside where
  created L db i hlock := ⟨sparesIntents_aside.created L db i hlock, .add⟩
  expired := sparesExpiry_ownAside
  surroundings L db directory organizations pageants :=
    ⟨sparesIntents_aside.surroundings L db directory organizations pageants, .of_find fun _ => rfl⟩

/-- A request whose writes are aside. -/
theorem keepsTransactions_confined {p : Prog Database Row Site Result}
    (h : p.Confined OwnTransaction OwnAside) : KeepsTransactions p :=
  h.safeRequest (fun _ _ _ ha hI => hI.aside ha) fun _ _ _ ha hI => hI.guarantee_aside ha

end Beside

/-! ### Submissions -/

section Submit

variable {view db : Database} {intentId : Uuid} {txHash : String}

/-- A submission of an intent as the condition has it. -/
theorem settles_submit
    (hok : ∀ i ∈ stakeIntentTable.matching (·.id = intentId) view, OwnTransaction (.submit i.id txHash) db) :
    IntentsSettle db (stakeIntentTable.modify (·.id = intentId) (submitted txHash) view db) := by
  intro id i hi
  have hkey (i : StakeIntent) : stakeIntentTable.key (submitted txHash i) = stakeIntentTable.key i := rfl
  rw [stakeIntentTable.find_modify hkey, hi, Option.map_some]
  refine ⟨_, rfl, ?_⟩
  split
  · rename_i hcond
    obtain ⟨j, hj, hsame⟩ := List.mem_map.mp (of_decide_eq_true (Bool.and_eq_true_iff.mp hcond).2)
    have hid : i.id = id := (stakeIntentTable.find_mem hi).2
    have hok : (stakeIntentTable.find db j.id).all (Submittable txHash) = true := hok j hj
    rw [show j.id = id from hsame.trans hid, hi, Option.all_some, Submittable, Bool.and_eq_true,
      decide_eq_true_eq] at hok
    refine ⟨fun hash hhash => ?_, fun hconfirmed => absurd hconfirmed hok.1⟩
    have hsame := hok.2
    rw [hhash, Option.all_some, decide_eq_true_eq] at hsame
    rw [hsame]
    rfl
  · exact refl_of StakeIntent.Settles i

/-- The update of a submission, with the row of the intent locked. -/
theorem submitIntent_settles {r : Response} :
    OwnOutline ((do
      Stakes.submitIntent intentId txHash
      return r : Handler Response) fun r => .ret (.ok r)) [] id fun _ => True := by
  refine safe_bind (safe_bind (Track.start.safe_update fun view A _ _ hok h₁ => ?_))
  have hmodified := h₁.track.modifyLocked intentLayout (f := submitted txHash) (fun _ => rfl)
    fun i => ⟨_, List.mem_cons_self, rfl, rfl⟩
  refine Lib.safe_commit (fun d hI hd => ?_) safe_ret
  have hintents : IntentsSettle d (stakeIntentTable.modify (·.id = intentId) (submitted txHash) view d) := by
    refine settles_submit fun i hi => ?_
    -- the row that was matched is still as the update saw it
    have hid : i.id = intentId := of_decide_eq_true (stakeIntentTable.mem_matching.mp hi).2
    have hlock : (⟨.stakeIntent i.id, .noKeyUpdate⟩ : Lock Row) ∈
        [] ++ (stakeIntentTable.matching (·.id = intentId) view).flatMap
          fun i => [⟨.stakeIntent i.id, .noKeyUpdate⟩, ⟨.stakeTransaction txHash, .update⟩] :=
      List.mem_flatMap.mpr ⟨i, hi, List.mem_cons_self⟩
    have hrow := (h₁.seen d hd).find intentLayout hlock rfl
    show (stakeIntentTable.find d i.id).all (Submittable txHash) = true
    rw [show stakeIntentTable.find d i.id = stakeIntentTable.find view i.id from hrow, hid]
    exact hok
  refine ⟨⟨⟨hI.books.evidenceIds, hI.books.evidenceIntents, hI.books.evidenceHashes,
    hI.books.evidenceEvents, hI.books.positionIntents, hI.books.backed, hI.books.amounts⟩,
    hI.agreed.settle hintents rfl⟩, hmodified.framed d, ⟨⟨fun _ _ => le_refl _, rfl⟩, hintents⟩⟩

theorem recordSubmission_keepsTransactions (actorUserId intentId : Uuid) (txHash : String) :
    KeepsTransactions (Stakes.recordSubmission actorUserId intentId txHash).request := by
  unfold KeepsTransactions SafeRequest OutlinedRequest Handler.request Stakes.recordSubmission
  refine safe_bind (safe_expiry sparesExpiry_ownAside (fun _ _ _ ha hI => hI.aside ha)
    (fun _ _ _ ha hI => hI.guarantee_aside ha) ?_)
  refine safe_bind (safe_bind (safe_select stable_true fun _ _ _ _ _ => safe_orElse fun intent _ => ?_))
  refine safe_bind (Tx.Reads.check.safe stable_true fun _ _ => ?_)
  refine safe_bind (safe_require fun _ => ?_)
  refine safe_bind (safe_require fun _ => ?_)
  refine safe_bind (safe_ofExcept fun hash _ => ?_)
  cases intent.submittedTxHash with
  | some existing => exact safe_bind (safe_require fun _ => safe_ret)
  | none => exact submitIntent_settles

end Submit

/-! ### Accepted stakes -/

section Accept

variable {db db' : Database}

/-- The evidence is about the transaction that the intent names. -/
def SameTransaction (i : StakeIntent) (e : PositionEvidence) : Prop := i.submittedTxHash = some e.txHash

theorem owns_transaction : Owns OwnTransaction SameTransaction := by
  intro db i e hi hintent hok
  have hok : (stakeIntentTable.find db e.stakeIntentId).all (·.submittedTxHash = some e.txHash) = true := hok
  rw [hintent, hi, Option.all_some, decide_eq_true_eq] at hok
  exact hok

/-- An accepted stake confirms its intent, and leaves the transaction as it is. -/
theorem settles_accepted {i : StakeIntent} {e : PositionEvidence} {p : Position} {acceptedAt : Int} :
    IntentsSettle db (accepted i e p acceptedAt db) := by
  intro id j hj
  have hfound : stakeIntentTable.find (accepted i e p acceptedAt db) id =
      (stakeIntentTable.find db id).map fun j => if (j.id = i.id && true : Bool) then
        { j with status := .confirmed, confirmedAt := some acceptedAt } else j :=
    find?_updateWhere fun _ => rfl
  rw [hfound, hj, Option.map_some]
  refine ⟨_, rfl, ?_⟩
  split
  · exact ⟨fun _ hhash => hhash, fun _ => rfl⟩
  · exact refl_of StakeIntent.Settles j

theorem settles_accepts (ha : AcceptsStake SameTransaction db db') : IntentsSettle db db' := by
  rcases ha with rfl | ⟨i, limit, e, p, acceptedAt, -, -, rfl⟩
  · exact .refl
  · exact settles_accepted

theorem OwnBooks.accepts (h : OwnBooks db) (hbooks : StakeBooks db')
    (ha : AcceptsStake SameTransaction db db') : OwnBooks db' where
  books := hbooks
  agreed := by
    have hintents := settles_accepts ha
    rcases ha with rfl | ⟨i, limit, e, p, acceptedAt, ha, hown, rfl⟩
    · exact h.agreed
    · intro f hf
      rcases List.mem_append.mp hf with hf | hf
      · obtain ⟨j, hj, hhash⟩ := h.agreed f hf
        obtain ⟨j', hj', hsettles⟩ := hintents _ _ hj
        exact ⟨j', hj', hsettles.transaction _ hhash⟩
      · obtain rfl := List.mem_singleton.mp hf
        rw [ha.evidenceOf]
        obtain ⟨i', hi', hsettles⟩ := hintents _ _ ha.intent
        exact ⟨i', hi', hsettles.transaction _ hown⟩

theorem acceptPositionEvidence_keepsTransactions (marketId : Uuid)
    (body : AcceptPositionEvidenceRequest) (ids : PositionIds) :
    KeepsTransactions (acceptPositionEvidence marketId body ids).request := by
  refine (acceptPositionEvidence_outline owns_transaction marketId body ids).refine
    (fun _ h => h.books) (fun _ _ _ hG => ⟨hG.framed, hG.moved.stakes⟩) ?_
  intro L db db' hI hbooks hG
  exact ⟨hI.accepts hbooks hG.2, hG.1.framed, ⟨hG.1.moved, settles_accepts hG.2⟩⟩

end Accept

/-! ### Every run -/

theorem keepsTransactions {p : Prog Database Row Site Result} (hp : Requests ext stakeOperations p) :
    KeepsTransactions p := by
  obtain ⟨operation, hmem, hp⟩ := hp
  cases hp with
  | recordStakeSubmission actorUserId intentId txHash =>
      exact recordSubmission_keepsTransactions actorUserId intentId txHash
  | acceptPositionEvidence marketId body ids =>
      exact acceptPositionEvidence_keepsTransactions marketId body ids
  | createStakeIntent userId marketId idempotencyHeader body intentId =>
      exact keepsTransactions_confined
        (confined_createStakeIntent sparesIntents_ownAside _ userId marketId idempotencyHeader body intentId)
  | getMarketIntent actorUserId intentId =>
      exact keepsTransactions_confined (confined_getMarketIntent sparesIntents_ownAside actorUserId intentId)
  | environment directory organizations pageants =>
      exact keepsTransactions_confined
        (confined_environment sparesIntents_ownAside directory organizations pageants)
  | recordPolicyDecision actorUserId marketId body decisionId =>
      exact keepsTransactions_confined
        (confined_recordPolicyDecision spares_ownAside actorUserId marketId body decisionId)
  | transitionMarket actorUserId marketId body eventId =>
      exact keepsTransactions_confined
        (confined_transitionMarket spares_ownAside actorUserId marketId body eventId)
  | createSettlementPlan actorUserId marketId body ids =>
      exact keepsTransactions_confined
        (confined_createSettlementPlan spares_ownAside actorUserId marketId body ids)
  | recordSettlementSubmission itemId transactionHash =>
      exact keepsTransactions_confined (confined_recordSubmission spares_ownAside itemId transactionHash)
  | acceptSettlementEvidence itemId body ids =>
      exact keepsTransactions_confined
        (confined_acceptSettlementEvidence spares_ownAside sparesClosing_ownAside itemId body ids)
  | createMarket => simp [stakeOperations, asides, bystanders] at hmem

/-- **A stake intent is confirmed once, and by its own transaction**, in every run whose submissions
and evidence meet the condition: its transaction never changes, it stays confirmed, and all evidence
names its transaction. -/
theorem own_transactions_kept {db₀ : Database} (h₀ : OwnBooks db₀)
    {pool pool' : Pool Database Row Site Result}
    {actions later : List (Action Database Row Site Result)}
    (hrun : Run (Pool.Step (Requests ext stakeOperations) OwnTransaction) (Pool.idle db₀) actions pool)
    (hlater : Run (Pool.Step (Requests ext stakeOperations) OwnTransaction) pool later pool') :
    Agreed pool'.db ∧ IntentsSettle pool.db pool'.db := by
  have hsafe (p : Prog Database Row Site Result) (hp : Requests ext stakeOperations p) :
      KeepsTransactions p := keepsTransactions hp
  have hhealthy := run_healthy hsafe hrun (healthy_idle h₀)
  refine ⟨(run_healthy hsafe hlater hhealthy).inv.agreed, ?_⟩
  exact run_moved hsafe (fun _ => .refl) (fun _ _ _ => .trans) (fun _ _ _ _ _ hG => hG.moved.intents)
    hlater hhealthy

theorem openMarket_own : OwnBooks openMarket where
  books := openMarket_books.books
  agreed _ he := by cases he

/-- The stake of user `2` until it is submitted. -/
def stakedUnconfirmed : List (Action Database Row Site Result) :=
  alone (stakeAnew "k" 41) 12 ++ alone submitAnew 8

theorem stakedUnconfirmed_outcome :
    ((Pool.idle openMarket).replay OwnTransaction stakedUnconfirmed).any (fun pool =>
      pool.db.stakeIntents.map (·.submittedTxHash) = [some (stakeHash 'd')] &&
        (pool.replay OwnTransaction (alone acceptAnew 11)).any fun pool' =>
          pool'.db.positionEvidence.map (·.txHash) = [stakeHash 'd']) = true := by
  decide +kernel

/-- A request in the place `k` of the pool, for so many steps. -/
theorem spawned_at {p q : Prog Database Row Site Result} {n k : Nat}
    (h : .spawn q ∈ (.spawn p :: List.replicate n (.step k) : List (Action Database Row Site Result))) :
    q = p := by
  simpa [List.mem_replicate] using h

theorem requests_stakeAnew : Requests marketExternal stakeOperations (stakeAnew "k" 41) :=
  ⟨_, by decide, .createStakeIntent 2 20 _ _ 41⟩

theorem requests_submit (txHash : String) :
    Requests marketExternal stakeOperations (Stakes.recordSubmission 2 41 txHash).request :=
  ⟨_, by decide, .recordStakeSubmission 2 41 txHash⟩

theorem requests_acceptAnew : Requests marketExternal stakeOperations acceptAnew :=
  ⟨_, by decide, .acceptPositionEvidence 20 _ ⟨61, 51⟩⟩

theorem spawned_accept {p : Prog Database Row Site Result} (h : .spawn p ∈ alone acceptAnew 11) :
    Requests marketExternal stakeOperations p :=
  spawned_at h ▸ requests_acceptAnew

/-- A stake that is created, submitted and accepted. -/
theorem stakedAnew_own :
    ∃ (pool pool' : Pool Database Row Site Result)
      (actions later : List (Action Database Row Site Result)),
      Run (Pool.Step (Requests marketExternal stakeOperations) OwnTransaction) (Pool.idle openMarket)
        actions pool ∧
      Run (Pool.Step (Requests marketExternal stakeOperations) OwnTransaction) pool later pool' ∧
      pool.db.stakeIntents.map (·.submittedTxHash) = [some (stakeHash 'd')] ∧
      pool'.db.positionEvidence.map (·.txHash) = [stakeHash 'd'] ∧
      Agreed pool'.db ∧ IntentsSettle pool.db pool'.db := by
  obtain ⟨pool, hpool, hall⟩ := (Option.any_eq_true _ _).mp stakedUnconfirmed_outcome
  simp only [Bool.and_eq_true, decide_eq_true_eq] at hall
  obtain ⟨hsubmitted, hlater⟩ := hall
  obtain ⟨pool', hpool', haccepted⟩ := (Option.any_eq_true _ _).mp hlater
  have hspawned (p : Prog Database Row Site Result) (hp : .spawn p ∈ stakedUnconfirmed) :
      Requests marketExternal stakeOperations p := by
    rcases List.mem_append.mp hp with hp | hp
    · exact spawned_at hp ▸ requests_stakeAnew
    · exact spawned_at hp ▸ requests_submit _
  have hrun := Pool.run_of_replay hspawned hpool
  have hlater := Pool.run_of_replay (fun _ => spawned_accept) hpool'
  exact ⟨pool, pool', _, _, hrun, hlater, hsubmitted, of_decide_eq_true haccepted,
    own_transactions_kept openMarket_own hrun hlater⟩

/-! ### Without the condition -/

/-- Two submissions have read the intent; the first is written and confirmed, and the other is not
written yet. -/
def submittedTwice : List (Action Database Row Site Result) :=
  alone (stakeAnew "k" 41) 12 ++ alone (Stakes.recordSubmission 2 41 (stakeHash 'e')).request 5 ++
    (.spawn submitAnew :: List.replicate 8 (.step 1)) ++
    (.spawn acceptAnew :: List.replicate 11 (.step 1))

/-- The intent is submitted, and evidence comes about another transaction. -/
def acceptedOther : List (Action Database Row Site Result) :=
  alone (stakeAnew "k" 41) 12 ++ alone (Stakes.recordSubmission 2 41 (stakeHash 'e')).request 8 ++
    alone acceptAnew 11

theorem submittedTwice_outcome :
    ((Pool.idle openMarket).replay (fun _ _ => True) submittedTwice).any (fun pool =>
      (stakeIntentTable.find pool.db 41).any (fun i =>
        i.status = .confirmed && i.submittedTxHash = some (stakeHash 'd')) &&
        (pool.replay (fun _ _ => True) (List.replicate 3 (.step 0))).any fun pool' =>
          (stakeIntentTable.find pool'.db 41).all fun i =>
            i.status = .submitted && i.submittedTxHash = some (stakeHash 'e')) = true := by
  decide +kernel

theorem acceptedOther_outcome :
    ((Pool.idle openMarket).replay (fun _ _ => True) acceptedOther).any (fun pool =>
      pool.db.stakeIntents.map (·.submittedTxHash) = [some (stakeHash 'e')] &&
        pool.db.positionEvidence.map (·.txHash) = [stakeHash 'd']) = true := by
  decide +kernel

/-- A submission that is written late takes a confirmed intent back and replaces its transaction;
and evidence about another transaction confirms an intent, even if requests come one by one. -/
theorem transaction_replaced :
    (¬ ∀ (ext : External) (db₀ : Database), OwnBooks db₀ →
      ∀ (pool pool' : Pool Database Row Site Result)
        (actions later : List (Action Database Row Site Result)),
        Run (Pool.Step (Requests ext stakeOperations) fun _ _ => True) (Pool.idle db₀) actions pool →
        Run (Pool.Step (Requests ext stakeOperations) fun _ _ => True) pool later pool' →
        IntentsSettle pool.db pool'.db) ∧
    ¬ ∀ (ext : External) (db₀ : Database), OwnBooks db₀ →
      ∀ (pool : Pool Database Row Site Result) (actions : List (Action Database Row Site Result)),
        Run (Pool.Step (Requests ext stakeOperations) fun _ _ => True) (Pool.idle db₀) actions pool →
        Agreed pool.db := by
  constructor
  · intro h
    obtain ⟨pool, hpool, hall⟩ := (Option.any_eq_true _ _).mp submittedTwice_outcome
    obtain ⟨hconfirmed, hlater⟩ := Bool.and_eq_true_iff.mp hall
    obtain ⟨i, hi, hstatus⟩ := (Option.any_eq_true _ _).mp hconfirmed
    obtain ⟨pool', hpool', hreplaced⟩ := (Option.any_eq_true _ _).mp hlater
    have hspawned (p : Prog Database Row Site Result) (hp : .spawn p ∈ submittedTwice) :
        Requests marketExternal stakeOperations p := by
      rcases List.mem_append.mp hp with hp | hp
      · rcases List.mem_append.mp hp with hp | hp
        · rcases List.mem_append.mp hp with hp | hp
          · exact spawned_at hp ▸ requests_stakeAnew
          · exact spawned_at hp ▸ requests_submit _
        · exact spawned_at hp ▸ requests_submit _
      · exact spawned_at hp ▸ requests_acceptAnew
    have hnone (p : Prog Database Row Site Result)
        (hp : .spawn p ∈ List.replicate 3 (.step 0 : Action Database Row Site Result)) :
        Requests marketExternal stakeOperations p := by simp at hp
    have hsettle := h marketExternal _ openMarket_own pool pool' _ _
      (Pool.run_of_replay hspawned hpool) (Pool.run_of_replay hnone hpool')
    obtain ⟨i', hi', hsettles⟩ := hsettle 41 i hi
    rw [hi'] at hreplaced
    simp only [Option.all_some, Bool.and_eq_true, decide_eq_true_eq] at hreplaced hstatus
    have hkept := hsettles.confirmed hstatus.1
    exact absurd (hkept.symm.trans hreplaced.1) (by decide)
  · intro h
    obtain ⟨pool, hpool, hall⟩ := (Option.any_eq_true _ _).mp acceptedOther_outcome
    simp only [Bool.and_eq_true, decide_eq_true_eq] at hall
    obtain ⟨hintents, hevidence⟩ := hall
    have hspawned (p : Prog Database Row Site Result) (hp : .spawn p ∈ acceptedOther) :
        Requests marketExternal stakeOperations p := by
      rcases List.mem_append.mp hp with hp | hp
      · rcases List.mem_append.mp hp with hp | hp
        · exact spawned_at hp ▸ requests_stakeAnew
        · exact spawned_at hp ▸ requests_submit _
      · exact spawned_at hp ▸ requests_acceptAnew
    have hagreed := h marketExternal _ openMarket_own pool _ (Pool.run_of_replay hspawned hpool)
    obtain ⟨e, he⟩ : ∃ e, pool.db.positionEvidence = [e] := List.length_eq_one_iff.mp (by
      rw [← List.length_map (·.txHash), hevidence]
      rfl)
    obtain ⟨i, hi, hhash⟩ := hagreed e (he ▸ List.mem_singleton_self e)
    have hother : i.submittedTxHash ∈ [some (stakeHash 'e')] :=
      hintents ▸ List.mem_map_of_mem (stakeIntentTable.find_mem hi).1
    rw [he, List.map_singleton, List.singleton_inj] at hevidence
    rw [hhash, hevidence] at hother
    exact absurd hother (by decide)

end CrownFi.Markets
