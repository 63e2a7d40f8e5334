import CrownFi.Transfers.Steps

/-!
# CrownFi.Transfers.Outlines

**The outlines of the requests on transfers and check-ins.** Whatever changes a ticket, asks for a
transfer of it or checks it in locks the ticket first, and whatever changes a transfer locks the
transfer. So at its commit each request finds the ticket and the transfer as it read them, and makes
one step.
-/

namespace CrownFi.Transfers

open Lib CrownFi.Api
open CrownFi.Commerce (Response Result TicketIssuance OwnershipEvidence IssuanceStatus)
open CrownFi.Commerce.Issuance (ownershipViolation)

/-! ### What locks protect -/

inductive Part
  | shop (p : Commerce.Tickets.Part)
  | transfer (t : Option TransferRequest)
  | other

def part (db : Database) : Row → Part
  | .shop row => .shop (Commerce.Tickets.part db.shop row)
  | .transfer transferId => .transfer (transferTable.find db transferId)
  | _ => .other

theorem part_shop_injective : Function.Injective Part.shop := fun _ _ h => Part.shop.inj h

theorem part_put (db : Database) (shop : Commerce.Database) (k' : Row) (hk' : ∀ k, Row.shop k ≠ k') :
    part (shopView.put db shop) k' = part db k' := by
  cases k' with
  | shop k => exact absurd rfl (hk' k)
  | _ => rfl

theorem issuanceLayout : Layout part issuanceTable fun i => .shop (.issuance i) :=
  Commerce.Tickets.issuanceLayout.within part_shop_injective (fun _ _ => rfl) part_put

theorem ownershipLayout : Layout part ownershipTable fun e => .shop (.ownership e) :=
  Commerce.Tickets.ownershipLayout.within part_shop_injective (fun _ _ => rfl) part_put

theorem transferLayout : Layout part transferTable Part.transfer where
  row _ _ := rfl
  injective _ _ h := Part.transfer.inj h
  other db l k hk := by
    cases k with
    | transfer transferId => exact absurd rfl (hk transferId)
    | _ => rfl

abbrev Outline : Prog Database Row Site Result → List (Lock Row) → (Database → Database) →
    (Database → Prop) → Prop :=
  Outlined Ticketed (Forward part Step) (Forward part Step) (fun _ _ => True) fun _ _ => True

abbrev Tracks : List (Lock Row) → (Database → Database) → (Database → Prop) → Prop :=
  Track part Ticketed Step

abbrev SafeHandler (h : Handler Response) : Prop :=
  OutlinedRequest Ticketed (Forward part Step) (Forward part Step) (fun _ _ => True) (fun _ _ => True)
    h.request

variable {L : List (Lock Row)} {pending : Database → Database} {A : Database → Prop}
  {issuanceId transferId : Uuid} {i : TicketIssuance} {t : TransferRequest}

/-! ### The shop -/

/-- The locks of the shop among these. -/
def shopLocks (L : List (Lock Row)) : List (Lock Commerce.Row) := L.filterMap fun l =>
  match l.key with
  | .shop row => some ⟨row, l.mode⟩
  | _ => none

theorem mem_shopLocks {l : Lock Commerce.Row} : l ∈ shopLocks L ↔ l.within Row.shop ∈ L := by
  rw [shopLocks, List.mem_filterMap]
  constructor
  · rintro ⟨⟨key, mode⟩, hl, hsome⟩
    cases key with
    | shop row =>
        obtain rfl := Option.some.inj hsome
        exact hl
    | _ => cases hsome
  · intro hl
    exact ⟨_, hl, rfl⟩

theorem not_written_shop {row : Commerce.Row} (h : ¬ Written (shopLocks L) row) :
    ¬ Written L (.shop row) := by
  rintro ⟨⟨key, mode⟩, hl, rfl, hwrites⟩
  exact h ⟨⟨row, mode⟩, mem_shopLocks.mpr hl, rfl, hwrites⟩

theorem notWritten_shop {row : Commerce.Row} (h : NotWritten (shopLocks L) row) :
    NotWritten L (.shop row) := by
  rintro ⟨key, mode⟩ hl rfl
  exact h ⟨row, mode⟩ (mem_shopLocks.mpr hl) rfl

/-- **The shop may rely** on what every request here does. -/
theorem allows_shop : Allows shopView Row.shop (Forward Commerce.Tickets.part Commerce.Tickets.Rely)
    (Forward part Step) := by
  intro L db db' h
  refine ⟨shopLocks L, fun l hl => mem_shopLocks.mp hl, fun k hk => ?_, h.moved.buyers, fun id hnot => ?_,
    fun token hnot => h.moved.tokens token (not_written_shop hnot)⟩
  · exact Part.shop.inj (h.framed (.shop k) (notWritten_shop hk))
  · exact (h.moved.quiet id (not_written_shop hnot)).evidence

theorem safe_shop {ext : Commerce.Reconciliation.External} {operation : Commerce.Operation}
    {p : Prog Commerce.Database Commerce.Row Commerce.Site Result} (h : Commerce.Request ext operation p) :
    OutlinedRequest Ticketed (Forward part Step) (Forward part Step) (fun _ _ => True) (fun _ _ => True)
      (p.within shopView Row.shop Site.shop) := by
  refine OutlinedRequest.within (fun _ _ heq => Row.shop.inj heq) (fun _ hI => hI.keyed) allows_shop
    (fun L db shop hI hkeyed hG => ?_) (fun _ _ _ => trivial) (fun _ _ _ => trivial)
    (Commerce.Tickets.shop_outline h)
  obtain ⟨hI', hstep⟩ := Step.of_shop hI hkeyed hG.moved
  refine ⟨hI', fun k hk => ?_, hstep⟩
  cases k with
  | shop row =>
      refine congrArg Part.shop (hG.framed row fun l hl hkey => ?_)
      exact hk _ (List.mem_map_of_mem hl) (congrArg Row.shop hkey)
  | _ => rfl

/-! ### Statements -/

/-- The end of a transaction that changed nothing. -/
theorem safe_commitNothing {k : PUnit → Prog Database Row Site Result} (ht : Tracks L id A)
    (next : Outline (k ⟨⟩) [] id fun _ => True) : Outline (Tx.commit k) L id A :=
  safe_commit (fun d hI _ => ⟨hI, ht.framed d, (Step.of_same rfl rfl rfl hI).2⟩) next

theorem safe_requireEditor {organizationId userId : Uuid} {k : PUnit → Prog Database Row Site Result}
    (hA : Stable Ticketed (Forward part Step) L A) (next : Outline (k ⟨⟩) L pending A) :
    Outline (requireEditor organizationId userId k) L pending A :=
  safe_bind (safe_select hA fun _ _ _ _ _ => safe_require fun _ => next)

theorem safe_loadTransfer {k : PUnit → Prog Database Row Site Result}
    (hA : Stable Ticketed (Forward part Step) L A) (next : Outline (k ⟨⟩) L pending A) :
    Outline (loadTransfer transferId k) L pending A :=
  safe_bind (safe_select hA fun _ _ _ _ _ => safe_require fun _ => next)

/-- What is read of a ticket. -/
structure OfTicket (c : TransferIssuanceContext) (i : TicketIssuance) : Prop where
  userId : c.ownerUserId = i.ownerUserId
  accountId : c.ownerStellarAccountId = i.ownerStellarAccountId
  token : c.tokenId = i.tokenId
  status : c.issuanceStatus = i.status
  accepted : c.acceptedEvidenceId = i.acceptedEvidenceId

theorem issuanceContext_eq {db : Database} {c : TransferIssuanceContext}
    (h : issuanceContext issuanceId db = some c) :
    ∃ i, issuanceTable.find db issuanceId = some i ∧ OfTicket c i := by
  simp only [issuanceContext, Option.bind_eq_bind, Option.bind_eq_some_iff] at h
  obtain ⟨i, hi, tp, -, policy, -, sa, -, heq⟩ := h
  obtain rfl := Option.some.inj heq
  exact ⟨i, hi, rfl, rfl, rfl, rfl, rfl⟩

/-- From here on the ticket is locked. -/
theorem safe_loadIssuanceContext {k : TransferIssuanceContext → Prog Database Row Site Result}
    (ht : Tracks L id A)
    (next : ∀ c i B, OfTicket c i → i.id = issuanceId →
      Tracks (L ++ [⟨.shop (.issuance issuanceId), .update⟩]) id B →
      (∀ d, B d → A d ∧ issuanceTable.find d issuanceId = some i) →
      Outline (k c) (L ++ [⟨.shop (.issuance issuanceId), .update⟩]) id B) :
    Outline (loadIssuanceContext issuanceId k) L id A := by
  refine safe_bind (ht.safe_selectFor fun db B row _ _ hrow h => ?_)
  have hrow : issuanceContext issuanceId db = row := hrow
  have htrack := h.track
  have hseen := h.seen
  rw [show issuanceContext issuanceId (id db) = row from hrow] at htrack hseen ⊢
  refine safe_orElse fun c hc => ?_
  subst hc
  obtain ⟨i, hi, hof⟩ := issuanceContext_eq hrow
  refine next c i B hof (issuanceTable.find_mem hi).2 htrack fun d hd => ⟨h.before d hd, ?_⟩
  exact ((hseen d hd).find issuanceLayout (List.mem_append_right _ (List.mem_singleton_self _)) rfl).trans hi

/-- What is read of a transfer. -/
structure OfTransfer (c : TransferContext) (t : TransferRequest) : Prop where
  ticket : c.ticketIssuanceId = t.ticketIssuanceId
  token : c.tokenId = t.tokenId
  fromUserId : c.fromUserId = t.fromUserId
  fromAccountId : c.fromStellarAccountId = t.fromStellarAccountId
  toUserId : c.toUserId = t.toUserId
  toAccountId : c.toStellarAccountId = t.toStellarAccountId
  status : c.status = t.status
  hash : c.submittedTxHash = t.submittedTxHash

theorem transferContext_eq {db : Database} {c : TransferContext}
    (h : transferContext transferId db = some c) :
    ∃ t, transferTable.find db transferId = some t ∧ OfTransfer c t := by
  simp only [transferContext, Option.bind_eq_bind, Option.bind_eq_some_iff] at h
  obtain ⟨t, ht, sender, -, receiver, -, heq⟩ := h
  obtain rfl := Option.some.inj heq
  exact ⟨t, ht, rfl, rfl, rfl, rfl, rfl, rfl, rfl, rfl⟩

/-- From here on the transfer is locked. -/
theorem safe_loadTransferContext {k : TransferContext → Prog Database Row Site Result}
    (next : ∀ c t B, OfTransfer c t → t.id = transferId →
      Tracks [⟨.transfer transferId, .update⟩] id B →
      (∀ d, B d → transferTable.find d transferId = some t) →
      Outline (k c) [⟨.transfer transferId, .update⟩] id B) :
    Outline (loadTransferContext transferId k) [] id fun _ => True := by
  refine safe_bind (Track.start.safe_selectFor fun db B row _ _ hrow h => ?_)
  have hrow : transferContext transferId db = row := hrow
  have htrack := h.track
  have hseen := h.seen
  rw [show transferContext transferId (id db) = row from hrow] at htrack hseen ⊢
  refine safe_orElse fun c hc => ?_
  subst hc
  obtain ⟨t, ht, hof⟩ := transferContext_eq hrow
  refine next c t B hof (transferTable.find_mem ht).2 htrack fun d hd => ?_
  exact ((hseen d hd).find transferLayout (List.mem_singleton_self _) rfl).trans ht

/-- The update of the transfer that was read. -/
theorem modify_transfer {p : TransferRequest → Bool} {f : TransferRequest → TransferRequest}
    {view d : Database} (hids : (d.transfers.map (·.id)).Nodup)
    (hview : transferTable.find view transferId = some t) (hd : transferTable.find d transferId = some t)
    (hp : ∀ u, p u = true → u.id = transferId) (hpt : p t = true) (hf : (f t).id = t.id) :
    transferTable.modify p f view d =
      { d with transfers := replaceRow (·.id) (f t) d.transfers } := by
  obtain ⟨hmem, hid⟩ := transferTable.find_mem hd
  have hid : t.id = transferId := hid
  refine (transferTable.modify_eq_replaceRow hids hmem (fun u _ hu => (hp u hu).trans hid.symm) hf
    fun _ => ?_).trans (by rw [if_pos hpt]; rfl)
  exact List.mem_map_of_mem (Table.mem_matching.mpr ⟨(transferTable.find_mem hview).1, hpt⟩)

/-- The end of a request that answers with its transfer. -/
theorem safe_endTransfer {r : Response} (ht : Tracks L pending A)
    (hcommit : ∀ d, Ticketed d → A d → Ticketed (pending d) ∧ Step L d (pending d)) :
    Outline ((do loadTransfer transferId; Tx.commit; return r : Handler Response).request) L pending A := by
  refine safe_bind (safe_loadTransfer ht.stable (safe_bind (safe_commit (fun d hI hd => ?_) safe_ret)))
  obtain ⟨hI', hstep⟩ := hcommit d hI hd
  exact ⟨hI', ht.framed d, hstep⟩

/-- The end of a request that had nothing to do. -/
theorem safe_answer {r : Response} (ht : Tracks L id A) :
    Outline ((do Tx.commit; loadTransfer transferId; return r : Handler Response).request) L id A :=
  safe_bind (safe_commitNothing ht (safe_bind (safe_loadTransfer stable_true safe_ret)))

/-- What only a request with the ticket locked changes. -/
theorem stable_quiet (hlock : ⟨.shop (.issuance issuanceId), .update⟩ ∈ L) {C : TicketFile → Prop}
    (hC : ∀ f f', Quiet f f' → C f → C f') :
    Stable Ticketed (Forward part Step) L fun d => C (fileOf issuanceId d) := by
  intro L' db db' hcompat _ _ hholds hG
  exact hC _ _ (hG.moved.quiet issuanceId (hcompat.not_writes hlock rfl).not_written) hholds

/-- Who has the lock of a key is the only one to bring a transfer with it. -/
theorem stable_key (hlock : ⟨.transferKey t.organizationId t.fromUserId t.idempotencyKey, .update⟩ ∈ L) :
    Stable Ticketed (Forward part Step) L fun d => t.key ∉ d.transfers.map (·.key) := by
  intro L' db db' hcompat _ _ hfree hG hmem
  exact hfree (hG.moved.keys _ _ _ (hcompat.not_writes hlock rfl).not_written hmem)

/-! ### Asking for a transfer -/

theorem transferViolation_none {db : Database} (h : transferViolation t db = none) :
    transferTable.find db t.id = none ∧ t.checked = true ∧
      t.key ∉ db.transfers.map (·.key) ∧ (t.active = true → (fileOf t.ticketIssuanceId db).Idle) := by
  unfold transferViolation at h
  split at h
  · cases h
  rename_i hnone
  split at h
  · rename_i hchecked
    refine ⟨transferTable.find_none_of_any (eq_false_of_ne_true hnone) fun u hu => ?_, hchecked,
      fun hkey => ?_, fun hactive u hu => ?_⟩
    · simp only [show u.id = t.id from hu, decide_true, Bool.true_or]
    · obtain ⟨u, hu, hkey⟩ := List.mem_map.mp hkey
      obtain ⟨horganization, huser, hkey⟩ : u.organizationId = t.organizationId ∧
          u.fromUserId = t.fromUserId ∧ u.idempotencyKey = t.idempotencyKey := by
        simpa [TransferRequest.key] using hkey
      refine hnone (List.any_eq_true.mpr ⟨u, hu, ?_⟩)
      simp only [TransferRequest.collides, horganization, huser, hkey, decide_true, Bool.and_true,
        Bool.true_or, Bool.or_true]
    · obtain ⟨hu, hticket⟩ := List.mem_filter.mp hu
      refine eq_false_of_ne_true fun hopen => hnone (List.any_eq_true.mpr ⟨u, hu, ?_⟩)
      simp only [TransferRequest.collides, hticket, hopen, hactive, Bool.and_true, Bool.or_true]
  · cases h

theorem active_newTransfer {issuanceId actorUserId : Uuid} {c : TransferIssuanceContext}
    {receiver : StellarAccount} {tokenId requestSha256 : String} {ask : Ask} {now : Int} :
    (newTransfer transferId issuanceId actorUserId c receiver tokenId requestSha256 ask now).active = true := by
  by_cases hopen : c.transferPolicy = .openPolicy <;> simp [newTransfer, TransferRequest.active, hopen]

theorem createTransfer_outline (sha256 : Sha256) (actorUserId issuanceId : Uuid)
    (body : CreateTransferRequest) (transferId : Uuid) :
    SafeHandler (createTransfer sha256 actorUserId issuanceId body transferId) := by
  refine safe_bind (safe_ofExcept fun ask _ => ?_)
  refine safe_bind (safe_loadIssuanceContext Track.start fun c i B₁ hof hid ht₁ hknown₁ => ?_)
  refine safe_bind (safe_require fun howner => safe_bind (safe_require fun hissued => ?_))
  refine safe_bind (safe_require fun _ => ?_)
  have howner : c.ownerUserId = actorUserId := of_decide_eq_true howner
  simp only [Bool.and_eq_true, decide_eq_true_eq] at hissued
  have hlock : (⟨.shop (.issuance issuanceId), .update⟩ : Lock Row) ∈
      ([] ++ [⟨.shop (.issuance issuanceId), .update⟩] : List (Lock Row)) := List.mem_singleton_self _
  -- nobody was checked in with the ticket, and nobody is while it is locked
  refine safe_bind (safe_selectFor fun db₂ checkedIn _ hd₂ hchecked => ?_)
  cases checkedIn with
  | true => exact ⟨fun _ => True, trivial, stable_true, safe_bind (safe_require fun h => nomatch h)⟩
  | false =>
  have hnone : checkInsOf issuanceId db₂ = [] := by
    refine List.filter_eq_nil_iff.mpr fun k hk => ?_
    exact List.any_eq_false.mp hchecked k hk
  have ht₂ := (ht₁.and (stable_quiet (C := fun f => f.checkIns = []) hlock
    fun f f' h hf => h.checkIns.trans hf)).lock (L := [])
  refine ⟨_, ⟨hd₂, hnone⟩, ht₂.stable, safe_bind (safe_require fun _ => safe_bind (safe_require fun _ => ?_))⟩
  refine safe_bind (safe_select ht₂.stable fun _ receiver _ _ _ => safe_bind (safe_orElse fun receiver _ => ?_))
  refine safe_bind (safe_require fun _ => safe_bind (ht₂.safe_selectFor fun db₃ B₃ existing _ _ _ h₃ => ?_))
  cases existing with
  | some existing =>
      exact safe_bind (safe_require fun _ => safe_bind (safe_commitNothing h₃.track safe_ret))
  | none =>
      refine safe_bind (safe_orElse fun tokenId htoken => ?_)
      refine safe_bind (safe_select h₃.track.stable fun _ now _ _ _ => ?_)
      obtain ⟨t, htransfer⟩ : ∃ t, t = newTransfer transferId issuanceId actorUserId c receiver tokenId
        (hashText sha256 (requestText issuanceId actorUserId c.ownerAddress ask.toAddress
          ask.idempotencyKey)) ask now := ⟨_, rfl⟩
      have hticket : t.ticketIssuanceId = issuanceId := htransfer ▸ rfl
      have hopen : t.active = true := htransfer ▸ active_newTransfer
      rw [← htransfer]
      refine safe_bind (h₃.track.safe_insertRowLocking
        (fun _ d => (fileOf issuanceId d).Idle ∧ t.key ∉ d.transfers.map (·.key))
        (fun db _ _ hunique => ?_) (fun _ => ?_) fun db₄ B₄ _ _ hunique h₄ hfree => ?_)
      · obtain ⟨-, -, hkey, hidle⟩ := transferViolation_none (raise_none hunique)
        exact ⟨hticket ▸ hidle hopen, hkey⟩
      · refine (stable_quiet ?_ fun f f' h => h.idle).and (stable_key ?_)
        · exact List.mem_append_left _ (List.mem_append_left _ (List.mem_append_left _ hlock))
        · exact List.mem_append_right _ (List.mem_cons_of_mem _ List.mem_cons_self)
      obtain ⟨hnew, hchecked, -⟩ := transferViolation_none (raise_none hunique)
      have ht₄ := h₄.track.add transferLayout (r := t) (List.mem_append_right _ List.mem_cons_self)
      refine safe_endTransfer ht₄ fun d hI hd => ?_
      obtain ⟨hd₁, hnone⟩ := h₃.before d (h₄.before d hd)
      obtain ⟨-, hi⟩ := hknown₁ d hd₁
      have hproper : t.Proper t.tokenId := by
        have hparties := hchecked
        simp only [TransferRequest.checked, Bool.and_eq_true, decide_eq_true_eq] at hparties
        exact ⟨rfl, hparties.1.2, hparties.1.1.2⟩
      refine Step.asked (i := i) hI ?_ (hfree d hd).2 ?_ (hof.status ▸ hissued.1) ?_ hproper
        hchecked ?_ hopen ?_ ?_
        ?_ (written_of_mem (List.mem_append_right _ (List.mem_cons_of_mem _ List.mem_cons_self)) rfl)
      · exact ((h₄.seen d hd).find transferLayout (List.mem_append_right _ List.mem_cons_self) rfl).trans hnew
      · rw [hticket]
        exact hi
      · rw [← hof.token, htoken, htransfer]
        rfl
      · rw [htransfer, holderOf, ← hof.userId, ← hof.accountId, howner]
        rfl
      · rw [hticket]
        exact (hfree d hd).1
      · rw [hticket]
        exact hnone
      · rw [hticket]
        exact written_of_mem (List.mem_append_left _ (List.mem_append_left _ (List.mem_append_left _ hlock))) rfl

/-! ### Review and submission -/

/-- The end of a request that took its transfer a step further. -/
theorem safe_follow {p : TransferRequest → Bool} {f : TransferRequest → TransferRequest} {r : Response}
    (ht : Tracks [⟨.transfer transferId, .update⟩] id A) (hid : t.id = transferId)
    (hknown : ∀ d, A d → transferTable.find d transferId = some t)
    (hp : ∀ u, p u = true → u.id = transferId) (hpt : p t = true) (hf : ∀ u, (f u).id = u.id)
    (h : TransferStep t (f t)) :
    Outline ((do let _ ← updateTransfer p f; loadTransfer transferId; Tx.commit; return r :
      Handler Response).request) [⟨.transfer transferId, .update⟩] id A := by
  refine safe_bind (ht.safe_update fun db₁ B₁ _ hd₁ _ h₁ => ?_)
  have ht₁ := h₁.track.modifyLocked transferLayout (f := f) hf
    fun u => ⟨_, List.mem_singleton_self _, rfl, rfl⟩
  refine safe_endTransfer ht₁ fun d hI hd => ?_
  have hmine := hknown d (h₁.before d hd)
  show Ticketed (transferTable.modify p f db₁ d) ∧ Step _ d (transferTable.modify p f db₁ d)
  rw [modify_transfer hI.transferIds (hknown db₁ hd₁) hmine hp hpt (hf t)]
  exact Step.followed hI (hid ▸ hmine) h

theorem reviewTransfer_outline (actorUserId transferId : Uuid) (body : ReviewTransferRequest) :
    SafeHandler (reviewTransfer actorUserId transferId body) := by
  refine safe_bind (safe_ofExcept fun review _ => ?_)
  refine safe_bind (safe_select stable_true fun _ began _ _ _ => ?_)
  refine safe_bind (safe_loadTransferContext fun c t B hof hid ht hknown => ?_)
  refine safe_bind (safe_requireEditor ht.stable (safe_bind (safe_require fun hready => ?_)))
  simp only [Bool.and_eq_true, decide_eq_true_eq] at hready
  have hstatus : t.status = .requested := hof.status.symm.trans hready.1
  refine safe_follow ht hid hknown (fun u hu => ?_) ?_ (fun _ => rfl) (.reviewed t actorUserId review began hstatus)
  · simp only [Bool.and_eq_true, decide_eq_true_eq] at hu
    exact hu.1
  · simp [hid, hstatus]

theorem recordTransferSubmission_outline (transferId : Uuid) (transactionHash : String) :
    SafeHandler (recordTransferSubmission transferId transactionHash) := by
  refine safe_bind (safe_ofExcept fun transactionHash _ => ?_)
  refine safe_bind (safe_select stable_true fun _ began _ _ _ => ?_)
  refine safe_bind (safe_loadTransferContext fun c t B hof hid ht hknown => ?_)
  refine safe_ite (fun _ => safe_bind (safe_require fun _ => safe_answer ht)) fun _ => ?_
  refine safe_bind (safe_require fun hready => ?_)
  have hstatus : t.status = .approved := hof.status.symm.trans (of_decide_eq_true hready)
  refine safe_follow ht hid hknown (fun u hu => ?_) ?_ (fun _ => rfl) (.submitted t transactionHash began hstatus)
  · simp only [Bool.and_eq_true, decide_eq_true_eq] at hu
    exact hu.1
  · simp [hid, hstatus]

/-! ### Evidence -/

/-- The three changes that the evidence of a transfer makes. -/
theorem modify_handed {e : OwnershipEvidence} {f : TicketIssuance → TicketIssuance}
    {g : TransferRequest → TransferRequest} {view view' d : Database} (hI : Ticketed d)
    (hviewI : issuanceTable.find view issuanceId = some i)
    (hviewT : transferTable.find view' transferId = some t)
    (hi : issuanceTable.find d issuanceId = some i) (ht : transferTable.find d transferId = some t)
    (hf : (f i).id = i.id) (hg : (g t).id = t.id) :
    transferTable.modify (·.id = transferId) g view'
        (issuanceTable.modify (·.id = issuanceId) f view (ownershipTable.add e d)) =
      handed (f i) e (g t) d := by
  obtain ⟨hmem, hid⟩ := issuanceTable.find_mem hi
  have hid : i.id = issuanceId := hid
  have hissuances : issuanceTable.modify (·.id = issuanceId) f view (ownershipTable.add e d) =
      issuanceTable.put (ownershipTable.add e d) (replaceRow (·.id) (f i) d.shop.issuances) := by
    have honly : ∀ j ∈ issuanceTable.rows (ownershipTable.add e d), decide (j.id = issuanceId) = true →
        j.id = i.id := fun j _ hj => (of_decide_eq_true hj).trans hid.symm
    have hids : ((issuanceTable.rows (ownershipTable.add e d)).map (·.id)).Nodup := hI.keyed.issuanceIds
    have hrow : i ∈ issuanceTable.rows (ownershipTable.add e d) := hmem
    refine (issuanceTable.modify_eq_replaceRow hids hrow honly hf fun _ => ?_).trans ?_
    · exact List.mem_map_of_mem
        (Table.mem_matching.mpr ⟨(issuanceTable.find_mem hviewI).1, decide_eq_true hid⟩)
    · rw [if_pos (decide_eq_true hid)]
      rfl
  rw [hissuances]
  exact modify_transfer
    (d := issuanceTable.put (ownershipTable.add e d) (replaceRow (·.id) (f i) d.shop.issuances))
    hI.transferIds hviewT ht (fun u hu => of_decide_eq_true hu)
    (decide_eq_true (transferTable.find_mem ht).2) hg

theorem ownershipViolation_none {e : OwnershipEvidence} {db : Database}
    (h : ownershipViolation e db.shop = none) : ownershipTable.find db e.id = none :=
  Commerce.Tickets.ownershipViolation_eq h

theorem acceptTransferEvidence_outline (transferId : Uuid) (body : TransferEvidenceRequest)
    (evidenceId : Uuid) : SafeHandler (acceptTransferEvidence transferId body evidenceId) := by
  refine safe_bind (safe_ofExcept fun observed _ => ?_)
  refine safe_bind (safe_loadTransferContext fun c t B hof hid ht hknown => ?_)
  refine safe_ite (fun _ => safe_answer ht) fun _ => ?_
  refine safe_bind (safe_require fun hready => safe_bind (safe_require fun hmatches => ?_))
  simp only [Bool.and_eq_true, decide_eq_true_eq] at hready hmatches
  obtain ⟨hstatus, hhash⟩ := hready
  refine safe_bind (safe_loadIssuanceContext ht fun c₁ i B₁ hof₁ hid₁ ht₁ hknown₁ => ?_)
  refine safe_bind (safe_require fun _ => safe_bind (safe_select ht₁.stable fun _ now _ _ _ => ?_))
  obtain ⟨e, hevidence⟩ : ∃ e, e = evidenceRow c observed evidenceId := ⟨_, rfl⟩
  obtain rfl : e.id = evidenceId := hevidence ▸ rfl
  rw [← hevidence]
  refine safe_bind (ht₁.safe_insertRow fun db₂ B₂ _ hd₂ hunique h₂ => ?_)
  have ht₂ := h₂.track.add ownershipLayout (r := e) (List.mem_append_right _ List.mem_cons_self)
  refine safe_bind (ht₂.safe_update fun db₃ B₃ _ hd₃ _ h₃ => ?_)
  have ht₃ := h₃.track.modifyLocked issuanceLayout (f := hand c e.id) (fun _ => rfl)
    fun j => ⟨_, List.mem_singleton_self _, rfl, rfl⟩
  refine safe_bind (ht₃.safe_update fun db₄ B₄ _ hd₄ _ h₄ => ?_)
  have ht₄ := h₄.track.modifyLocked transferLayout (f := (·.confirm e.id now)) (fun _ => rfl)
    fun u => ⟨_, List.mem_singleton_self _, rfl, rfl⟩
  refine safe_endTransfer ht₄ fun d hI hd => ?_
  have hnow (d : Database) (hd : B₂ d) : transferTable.find d transferId = some t ∧
      issuanceTable.find d c.ticketIssuanceId = some i := by
    obtain ⟨hd, hi⟩ := hknown₁ d (h₂.before d hd)
    exact ⟨hknown d hd, hi⟩
  obtain ⟨ht', hi'⟩ := hnow d (h₃.before d (h₄.before d hd))
  have hticket : t.ticketIssuanceId = i.id := hof.ticket.symm.trans hid₁.symm
  have hhand : hand c e.id i = t.handOver e.id i := by
    rw [hand, TransferRequest.handOver, hof.toUserId, hof.toAccountId]
  have hlock : (⟨.shop (.issuance i.id), .update⟩ : Lock Row) ∈
      [⟨.transfer transferId, .update⟩] ++ [⟨.shop (.issuance c.ticketIssuanceId), .update⟩] := by
    rw [hid₁]
    exact List.mem_append_right _ (List.mem_singleton_self _)
  have hview : issuanceTable.find (ownershipTable.add e db₃) c.ticketIssuanceId = some i := (hnow db₃ hd₃).2
  have hview' : transferTable.find (issuanceTable.modify (·.id = c.ticketIssuanceId) (hand c e.id)
      (ownershipTable.add e db₃) (ownershipTable.add e db₄)) transferId = some t :=
    (hnow db₄ (h₃.before db₄ hd₄)).1
  have hchanged := modify_handed (e := e) (f := hand c e.id) (g := (·.confirm e.id now)) hI hview hview'
    hi' ht' rfl rfl
  rw [hhand] at hchanged
  simp only [id]
  rw [hchanged]
  refine Step.handed hI (hid ▸ ht') (hid₁ ▸ hi') hticket (hof.status ▸ hstatus) ?_ ?_ ?_ ?_ ?_ now
    (written_of_mem (List.mem_append_left _ (List.mem_append_left _ (List.mem_append_left _ hlock))) rfl)
  · rw [← hof.hash, hhash, hevidence]
    rfl
  · rw [hevidence, ← hof.token, hmatches.1.1]
    rfl
  · rw [hevidence, ← hof.toAccountId]
    rfl
  · rw [hevidence]
    exact hid₁.symm
  · exact ((h₂.seen d (h₃.before d (h₄.before d hd))).find ownershipLayout
      (List.mem_append_right _ List.mem_cons_self) rfl).trans (ownershipViolation_none (raise_none hunique))

/-! ### Check-in -/

theorem checkInTicket_outline (sha256 : Sha256) (actorUserId issuanceId : Uuid) (body : CheckInRequest)
    (checkInId : Uuid) : SafeHandler (checkInTicket sha256 actorUserId issuanceId body checkInId) := by
  refine safe_bind (safe_ofExcept fun entry _ => ?_)
  refine safe_bind (Track.start.safe_selectFor fun db₁ B₁ row _ _ hrow h₁ => ?_)
  refine safe_bind (safe_orElse fun i hi => ?_)
  have hfound : issuanceTable.find db₁ issuanceId = some i := hrow.trans hi
  have hlock : (⟨.shop (.issuance issuanceId), .update⟩ : Lock Row) ∈
      [] ++ (issuanceTable.find (id db₁) issuanceId).toList.map fun i => ⟨.shop (.issuance i.id), .update⟩ := by
    rw [show issuanceTable.find (id db₁) issuanceId = some i from hfound,
      show issuanceId = i.id from (issuanceTable.find_mem hfound).2.symm]
    exact List.mem_singleton_self _
  have hknown (d : Database) (hd : B₁ d) : issuanceTable.find d issuanceId = some i :=
    ((h₁.seen d hd).find issuanceLayout hlock rfl).trans hfound
  refine safe_bind (safe_requireEditor h₁.track.stable (safe_bind (safe_require fun hissued => ?_)))
  simp only [Bool.and_eq_true, decide_eq_true_eq] at hissued
  refine safe_bind (safe_select h₁.track.stable fun _ _ _ _ _ => safe_bind (safe_require fun _ => ?_))
  refine safe_bind (h₁.track.safe_selectFor fun db₂ B₂ existing _ _ _ h₂ => ?_)
  cases existing with
  | some existing => exact safe_exit
  | none =>
      refine safe_bind (h₂.track.safe_insertRowLocking (fun _ d => checkInsOf issuanceId d = [])
        (fun db _ _ hunique => ?_) (fun _ => ?_) fun db₃ B₃ _ _ _ h₃ hnone => ?_)
      · have hfree := raise_none hunique
        unfold checkInViolation at hfree
        split at hfree
        · cases hfree
        rename_i hnot
        refine List.filter_eq_nil_iff.mpr fun k hk hticket => hnot (List.any_eq_true.mpr ⟨k, hk, ?_⟩)
        simp only [hticket, Bool.or_true, Bool.true_or]
      · refine stable_quiet (C := fun f => f.checkIns = []) ?_ fun f f' h hf => h.checkIns.trans hf
        exact List.mem_append_left _ (List.mem_append_left _ hlock)
      refine safe_bind (safe_commit (fun d hI hd => ?_) safe_ret)
      obtain ⟨hI', hstep⟩ := Step.checkedIn (L := _ ++ _) hI
        (c := ⟨checkInId, issuanceId, i.ticketEventId, actorUserId,
          hashText sha256 (nonceText issuanceId entry.nonce), entry.deviceReference⟩)
        (hknown d (h₂.before d (h₃.before d hd))) hissued.1 (hnone d hd)
        (written_of_mem (List.mem_append_left _ (List.mem_append_left _ hlock)) rfl)
      exact ⟨hI', fun k _ => by cases k <;> rfl, hstep⟩

/-! ### Every request -/

variable {ext : Commerce.Reconciliation.External} {p : Prog Database Row Site Result}

theorem setPolicies_outline (policies : List PolicyOfProduct) : SafeHandler (setPolicies policies) := by
  refine safe_bind (safe_write fun db _ _ _ => ⟨fun _ => True, trivial, stable_true, ?_⟩)
  refine safe_bind (safe_commit (fun d hI _ => ?_) safe_ret)
  have hsame : Ticketed { d with policies } ∧ Step ([] ++ []) d { d with policies } :=
    Step.of_same rfl rfl rfl hI
  exact ⟨hsame.1, fun k _ => by cases k <;> rfl, hsame.2⟩

/-- **Each request makes steps.** -/
theorem requests_outline (h : Requests ext p) :
    OutlinedRequest Ticketed (Forward part Step) (Forward part Step) (fun _ _ => True)
      (fun _ _ => True) p := by
  cases h with
  | shop h => exact safe_shop h
  | createTransfer actor issuance body transfer =>
      exact createTransfer_outline ext.sha256 actor issuance body transfer
  | reviewTransfer actor transfer body => exact reviewTransfer_outline actor transfer body
  | recordTransferSubmission transfer hash => exact recordTransferSubmission_outline transfer hash
  | acceptTransferEvidence transfer body evidence =>
      exact acceptTransferEvidence_outline transfer body evidence
  | checkInTicket actor issuance body checkIn =>
      exact checkInTicket_outline ext.sha256 actor issuance body checkIn
  | setPolicies policies => exact setPolicies_outline policies

end CrownFi.Transfers
