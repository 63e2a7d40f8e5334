import CrownFi.Transfers.Ownership

/-!
# CrownFi.Transfers.Acceptance

**Evidence is accepted, and accepted once.** Since a transfer on its way comes from the present owner
of its ticket, the evidence of the transaction that it was submitted with is never refused for an
owner who drifted: in every reachable state it makes the ticket change hands. Evidence that comes
after it leaves everything as it is.
-/

namespace CrownFi.Transfers

open Lib CrownFi.Api
open CrownFi.Commerce (Response Result TicketIssuance OwnershipEvidence)
open CrownFi.Commerce.Issuance (ownershipViolation)

variable {ext : Commerce.Reconciliation.External} {db₀ db : Database}
  {pool : Pool Database Row Site Result} {actions : List (Action Database Row Site Result)}
  {t : TransferRequest} {c : TransferContext} {ic : TransferIssuanceContext} {o : Observed}
  {transferId issuanceId evidenceId : Uuid} {body : TransferEvidenceRequest}

/-- The evidence of the transaction that a transfer was submitted with. -/
structure Attests (o : Observed) (t : TransferRequest) (c : TransferContext) : Prop where
  hash : t.submittedTxHash = some o.transactionHash
  token : t.tokenId = o.tokenId
  sender : c.fromAddress = o.fromAddress
  receiver : c.toAddress = o.toAddress

/-! ### What is read -/

theorem ends_loadTransferContext {k : TransferContext → Prog Database Row Site Result}
    (hc : transferContext transferId db = some c) :
    Prog.ends (loadTransferContext transferId k) db db₀ = (k c).ends db db₀ := by
  rw [loadTransferContext, ends_bind, ends_selectFor, ends_orElse hc]

theorem ends_loadIssuanceContext {k : TransferIssuanceContext → Prog Database Row Site Result}
    (hic : issuanceContext issuanceId db = some ic) :
    Prog.ends (loadIssuanceContext issuanceId k) db db₀ = (k ic).ends db db₀ := by
  rw [loadIssuanceContext, ends_bind, ends_selectFor, ends_orElse hic]

theorem ends_loadTransfer {k : PUnit → Prog Database Row Site Result}
    (ht : transferTable.find db transferId = some t) :
    Prog.ends (loadTransfer transferId k) db db₀ = (k ⟨⟩).ends db db₀ := by
  rw [loadTransfer, ends_bind, ends_select, ends_require]
  rw [ht, Option.isSome_some]

/-! ### The constraints -/

theorem ownershipViolation_free {e : OwnershipEvidence}
    (h : ∀ f ∈ db.shop.ownership, f.id ≠ e.id ∧ f.contractEventId ≠ e.contractEventId) :
    ownershipViolation e db.shop = none := by
  refine if_neg fun hany => ?_
  obtain ⟨f, hf, hclash⟩ := List.any_eq_true.mp hany
  obtain ⟨hid, hevent⟩ := h f hf
  simp [hid, hevent] at hclash

/-- A transfer that ends meets the constraints, whatever other transfers there are. -/
theorem changedTransferViolation_confirm {view : Database} {now : Int}
    (hkeys : (view.transfers.map (·.key)).Nodup)
    (ht : t ∈ view.transfers) (hchecked : t.checked = true) (hstatus : t.status = .submitted) :
    changedTransferViolation view (t.confirm evidenceId now) = none := by
  unfold changedTransferViolation
  rw [if_neg, if_pos (TransferRequest.checked_confirm hchecked hstatus)]
  intro hany
  obtain ⟨u, hu, hclash⟩ := List.any_eq_true.mp hany
  simp only [TransferRequest.collides, TransferRequest.active_confirm, Bool.and_false, Bool.or_false,
    Bool.and_eq_true, decide_eq_true_eq] at hclash
  obtain ⟨hne, ⟨horganization, huser⟩, hkey⟩ := hclash
  obtain rfl : u = t := List.inj_on_of_nodup_map hkeys hu ht (Prod.ext horganization (Prod.ext huser hkey))
  exact hne rfl

/-! ### The evidence -/

/-- The transfer after its evidence. -/
theorem find_handed_transfer {t' : TransferRequest} {i' : TicketIssuance} {e : OwnershipEvidence}
    (ht : transferTable.find db t.id = some t) (hid : t'.id = t.id) :
    transferTable.find (handed i' e t' db) t.id = some t' := by
  have ht : db.transfers.find? (·.id = t.id) = some t := ht
  exact find?_replaceRow_self TransferRequest.id hid ht

/-- **The evidence of a submitted transfer** is accepted. -/
theorem ends_acceptTransferEvidence (hI : Ticketed db) (ht : transferTable.find db t.id = some t)
    (hstatus : t.status = .submitted) (hc : transferContext t.id db = some c)
    (hic : issuanceContext t.ticketIssuanceId db = some ic) (hbody : body.validate = .ok o)
    (ho : Attests o t c)
    (hnew : ∀ e ∈ db.shop.ownership, e.id ≠ evidenceId ∧ e.contractEventId ≠ o.eventReference) :
    ∃ i, issuanceTable.find db t.ticketIssuanceId = some i ∧
      (acceptTransferEvidence t.id body evidenceId).request.ends db db = some (.ok ⟨.created, t.id⟩,
        handed (t.handOver evidenceId i) (evidenceRow c o evidenceId)
          (t.confirm evidenceId db.shop.directory.clock) db) := by
  obtain ⟨hmem, -⟩ := transferTable.find_mem ht
  obtain ⟨i, hi, hissued, htoken, hchecked, hsource⟩ := hI.open hmem
  refine ⟨i, hi, ?_⟩
  obtain ⟨t₀, ht₀, hof⟩ := transferContext_eq hc
  obtain rfl := Option.some.inj (ht₀.symm.trans ht)
  obtain ⟨i₀, hi₀, hof'⟩ := issuanceContext_eq hic
  obtain rfl := Option.some.inj (hi₀.symm.trans hi)
  have howner := hsource (TransferRequest.active_of_submitted hstatus)
  have hhand : hand c evidenceId i₀ = t₀.handOver evidenceId i₀ := by
    rw [hand, TransferRequest.handOver, hof.toUserId, hof.toAccountId]
  unfold Handler.request acceptTransferEvidence
  refine ends_bind.trans ((ends_ofExcept hbody).trans ?_)
  refine ends_bind.trans ((ends_loadTransferContext hc).trans ?_)
  rw [if_neg (by rw [hof.status, hstatus]; exact TransferStatus.noConfusion)]
  refine ends_bind.trans ((ends_require (by simp [hof.status, hstatus, hof.hash, ho.hash])).trans ?_)
  refine ends_bind.trans ((ends_require (by simp [hof.token, ho.token, ho.sender, ho.receiver])).trans ?_)
  refine ends_bind.trans ((ends_loadIssuanceContext (hof.ticket ▸ hic)).trans ?_)
  -- the owner has not drifted
  have hdrift : (ic.ownerStellarAccountId = c.fromStellarAccountId && ic.ownerUserId = c.fromUserId &&
      ic.tokenId = some o.tokenId) = true := by
    have huser := congrArg Holder.userId howner
    have haccount := congrArg Holder.stellarAccountId howner
    simp only [hof'.accountId, hof'.userId, hof'.token, hof.fromUserId, hof.fromAccountId, htoken, ho.token,
      Bool.and_eq_true, decide_eq_true_eq, and_true]
    exact ⟨haccount.symm, huser.symm⟩
  refine ends_bind.trans ((ends_require hdrift).trans ?_)
  refine ends_bind.trans (ends_select.trans ?_)
  refine ends_bind.trans ((ends_insertRow ?_).trans ?_)
  · rw [ownershipViolation_free hnew]
    rfl
  refine ends_bind.trans ((ends_update fun _ _ => rfl).trans ?_)
  have hviewT : transferTable.find (issuanceTable.modify (·.id = c.ticketIssuanceId) (hand c evidenceId)
      (ownershipTable.add (evidenceRow c o evidenceId) db)
      (ownershipTable.add (evidenceRow c o evidenceId) db)) t₀.id = some t₀ := ht
  have hchanged := modify_handed (e := evidenceRow c o evidenceId) (f := hand c evidenceId)
    (g := (·.confirm evidenceId db.shop.directory.clock)) hI
    (show issuanceTable.find (ownershipTable.add (evidenceRow c o evidenceId) db) c.ticketIssuanceId = some i₀
      from hof.ticket ▸ hi) hviewT (hof.ticket ▸ hi) ht rfl rfl
  rw [hhand] at hchanged
  refine ends_bind.trans ((ends_update fun u hu => ?_).trans ?_)
  · obtain ⟨hu, hid⟩ := Table.mem_matching.mp hu
    obtain rfl : u = t₀ := List.inj_on_of_nodup_map hI.transferIds hu hmem (of_decide_eq_true hid)
    refine congrArg (raise mapDatabaseError) (changedTransferViolation_confirm ?_ ?_ hchecked hstatus)
    · exact hI.transferKeys
    · exact hmem
  · rw [hchanged]
    exact ends_bind.trans (ends_loadTransfer (find_handed_transfer ht rfl))

/-- Evidence for a transfer that is confirmed changes nothing. -/
theorem ends_redelivery (ht : transferTable.find db transferId = some t) (hstatus : t.status = .confirmed)
    (hc : transferContext transferId db = some c) (hbody : body.validate = .ok o) :
    (acceptTransferEvidence transferId body evidenceId).request.ends db db =
      some (.ok ⟨.ok, transferId⟩, db) := by
  obtain ⟨t₀, ht₀, hof⟩ := transferContext_eq hc
  obtain rfl := Option.some.inj (ht₀.symm.trans ht)
  unfold Handler.request acceptTransferEvidence
  refine ends_bind.trans ((ends_ofExcept hbody).trans ?_)
  refine ends_bind.trans ((ends_loadTransferContext hc).trans ?_)
  rw [if_pos (hof.status.trans hstatus)]
  exact ends_bind.trans (ends_commit.trans (ends_bind.trans (ends_loadTransfer ht)))

/-- The parties of a transfer are found after its evidence as before. -/
theorem transferContext_handed {i' : TicketIssuance} {e : OwnershipEvidence} {now : Int}
    (hc : transferContext t.id db = some c) (ht : transferTable.find db t.id = some t) :
    ∃ c', transferContext t.id (handed i' e (t.confirm evidenceId now) db) = some c' := by
  simp only [transferContext, ht, Option.bind_eq_bind, Option.bind_some, Option.bind_eq_some_iff] at hc
  obtain ⟨sender, hsender, receiver, hreceiver, -⟩ := hc
  have ht' : transferTable.find (handed i' e (t.confirm evidenceId now) db) t.id =
      some (t.confirm evidenceId now) := find_handed_transfer ht rfl
  have hsender' : (handed i' e (t.confirm evidenceId now) db).shop.directory.stellarAccounts.find?
      (·.id = (t.confirm evidenceId now).fromStellarAccountId) = some sender := hsender
  have hreceiver' : (handed i' e (t.confirm evidenceId now) db).shop.directory.stellarAccounts.find?
      (·.id = (t.confirm evidenceId now).toStellarAccountId) = some receiver := hreceiver
  simp only [transferContext, ht', Option.bind_eq_bind, Option.bind_some, hsender', hreceiver']
  exact ⟨_, rfl⟩

/-- **In every reachable state the evidence of a submitted transfer is accepted**: the ticket is its
receiver's, and whatever evidence comes for this transfer after it changes nothing. -/
theorem evidence_accepted (h₀ : Fresh db₀)
    (hrun : Run (Pool.Step (Requests ext) fun _ _ => True) (Pool.idle db₀) actions pool)
    (ht : t ∈ pool.db.transfers) (hstatus : t.status = .submitted)
    (hc : transferContext t.id pool.db = some c)
    (hic : issuanceContext t.ticketIssuanceId pool.db = some ic) (hbody : body.validate = .ok o)
    (ho : Attests o t c)
    (hnew : ∀ e ∈ pool.db.shop.ownership, e.id ≠ evidenceId ∧ e.contractEventId ≠ o.eventReference) :
    ∃ db' i', (acceptTransferEvidence t.id body evidenceId).request.ends pool.db pool.db =
        some (.ok ⟨.created, t.id⟩, db') ∧
      issuanceTable.find db' t.ticketIssuanceId = some i' ∧ holderOf i' = t.target ∧
      i'.acceptedEvidenceId = some evidenceId ∧
      ∀ body' o' evidenceId', TransferEvidenceRequest.validate body' = .ok o' →
        (acceptTransferEvidence t.id body' evidenceId').request.ends db' db' =
          some (.ok ⟨.ok, t.id⟩, db') := by
  have hI := (h₀.running hrun).inv
  have hfind := hI.transfer ht
  obtain ⟨i, hi, hends⟩ := ends_acceptTransferEvidence hI hfind hstatus hc hic hbody ho hnew
  refine ⟨_, t.handOver evidenceId i, hends, ?_, rfl, rfl, fun body' o' evidenceId' hbody' => ?_⟩
  · rw [find_handed, hi, Option.map_some, if_pos]
    exact (issuanceTable.find_mem hi).2
  · have hfind' : transferTable.find (handed (t.handOver evidenceId i) (evidenceRow c o evidenceId)
        (t.confirm evidenceId pool.db.shop.directory.clock) pool.db) t.id =
        some (t.confirm evidenceId pool.db.shop.directory.clock) := find_handed_transfer hfind rfl
    obtain ⟨c', hc'⟩ : ∃ c', transferContext t.id (handed (t.handOver evidenceId i)
        (evidenceRow c o evidenceId) (t.confirm evidenceId pool.db.shop.directory.clock) pool.db) = some c' :=
      transferContext_handed hc hfind
    exact ends_redelivery hfind' rfl hc' hbody'

/-! ### The evidence that is to come -/

/-- A submitted transfer whose evidence is still to come. -/
def awaiting (db _ : Database) : Bool :=
  db.transfers.map (fun t => (t.id, t.ticketIssuanceId, t.status)) = [(71, 51, .submitted)] ∧
    db.transfers.map (fun t => (t.tokenId, t.submittedTxHash)) = [("seat-1", some transferHash)] ∧
    (transferContext 71 db).map (fun c => (c.fromAddress, c.toAddress)) =
      some (Commerce.payerAddress, Commerce.shopAddress) ∧
    (issuanceContext 51 db).isSome ∧
    db.shop.ownership.map (fun e => (e.id, e.contractEventId)) = [(61, "mint-1")]

theorem entering_awaiting : (Pool.serveAll (fun _ _ => True) doorDatabase entering).any (fun all =>
    (Pool.serveAll (fun _ _ => True) all.2 handing).any fun all' => awaiting all.2 all'.2) = true := by
  decide +kernel

theorem entering_accepted : ∃ (pool : Pool Database Row Site Result)
    (actions : List (Action Database Row Site Result)), ∃ t ∈ pool.db.transfers,
      Run (Pool.Step (Requests doorExternal) fun _ _ => True) (Pool.idle doorDatabase) actions pool ∧
      t.status = .submitted ∧ ∃ db' i',
        (acceptTransferEvidence t.id handingEvidence 62).request.ends pool.db pool.db =
          some (.ok ⟨.created, t.id⟩, db') ∧
        issuanceTable.find db' t.ticketIssuanceId = some i' ∧ holderOf i' = t.target := by
  obtain ⟨db, db', actions, more, hrun, -, htest⟩ :=
    Pool.runs_of_serveAll awaiting entering_requests handing_requests entering_awaiting
  simp only [awaiting, decide_eq_true_eq] at htest
  obtain ⟨htransfers, htokens, haddresses, hissuance, hevidence⟩ := htest
  obtain ⟨t, hsingle, ht⟩ := List.map_eq_singleton_iff.mp htransfers
  simp only [Prod.mk.injEq] at ht
  obtain ⟨hid, hticket, hstatus⟩ := ht
  have hmem : t ∈ db.transfers := hsingle ▸ List.mem_singleton_self t
  rw [hsingle, List.map_singleton, List.singleton_inj, Prod.mk.injEq] at htokens
  obtain ⟨c, hc, haddresses⟩ := Option.map_eq_some_iff.mp haddresses
  rw [Prod.mk.injEq] at haddresses
  obtain ⟨ic, hic⟩ := Option.isSome_iff_exists.mp hissuance
  obtain ⟨e, hownership, he⟩ := List.map_eq_singleton_iff.mp hevidence
  rw [Prod.mk.injEq] at he
  have hbody : handingEvidence.validate = .ok ⟨transferHash, "transfer-1", "seat-1", Commerce.payerAddress,
    Commerce.shopAddress, 7⟩ := by decide +kernel
  have hnew : ∀ f ∈ db.shop.ownership, f.id ≠ 62 ∧ f.contractEventId ≠ "transfer-1" := by
    rw [hownership, List.forall_mem_singleton, he.1, he.2]
    decide
  obtain ⟨db', i', hends, hi', hholder, -⟩ := evidence_accepted doorDatabase_fresh hrun hmem hstatus
    (hid ▸ hc) (hticket ▸ hic) hbody ⟨htokens.2, htokens.1, haddresses.1, haddresses.2⟩ hnew
  exact ⟨_, actions, t, hmem, hrun, hstatus, db', i', hends, hi', hholder⟩

end CrownFi.Transfers
