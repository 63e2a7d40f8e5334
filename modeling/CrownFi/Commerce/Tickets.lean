import CrownFi.Commerce.Bystanders
import CrownFi.Commerce.Completion

/-!
# CrownFi.Commerce.Tickets

**What the shop does to tickets.** Of all the requests of the shop, one prepares tickets for an
order and one takes the evidence of a mint; the others leave tickets and evidence alone. Each commit
of a request is one of these (`TicketMove`), whatever runs beside it, as long as the others change a
ticket and its evidence only with the ticket locked (`shop_outline`). What is built on tickets needs
to know no more of the shop.
-/

namespace CrownFi.Commerce.Tickets

open Lib CrownFi.Api Ticketing Issuance
open Completion (minted)

/-! ### Tickets and their evidence -/

/-- The evidence about a ticket, in the order in which it was accepted. -/
def evidenceOf (issuanceId : Uuid) (db : Database) : List OwnershipEvidence :=
  db.ownership.filter (·.ticketIssuanceId = issuanceId)

/-- A ticket that is not minted yet. -/
structure Unminted (i : TicketIssuance) : Prop where
  status : i.status = .pending
  token : i.tokenId = none
  evidence : i.acceptedEvidenceId = none

/-- The unique keys of tickets and of their evidence. -/
structure Keyed (db : Database) : Prop where
  issuanceIds : (db.issuances.map (·.id)).Nodup
  ownershipIds : (db.ownership.map (·.id)).Nodup
  tokens : ∀ i ∈ db.issuances, ∀ j ∈ db.issuances, i.tokenId.isSome → i.tokenId = j.tokenId → i = j

/-- The order of the ticket is of the user who owns it. -/
def Bought (i : TicketIssuance) (db : Database) : Prop :=
  ∃ o, orderTable.find db i.orderId = some o ∧ o.buyerUserId = i.ownerUserId

/-- What one request of the shop does to tickets. -/
inductive TicketMove (db db' : Database) : Prop
  | same (hissuances : db'.issuances = db.issuances) (hownership : db'.ownership = db.ownership)
  | prepared (tickets : List TicketIssuance) (hissuances : db'.issuances = db.issuances ++ tickets)
      (hownership : db'.ownership = db.ownership)
      (hnew : ∀ i ∈ tickets, issuanceTable.find db i.id = none) (hunminted : ∀ i ∈ tickets, Unminted i)
      (hbought : ∀ i ∈ tickets, Bought i db)
  | minted (i : TicketIssuance) (claim : OwnershipClaim) (e : OwnershipEvidence)
      (hi : issuanceTable.find db i.id = some i) (hstatus : i.status = .pending ∨ i.status = .submitted)
      (hissuances : db'.issuances = replaceRow (·.id) (minted claim e.id i) db.issuances)
      (hownership : db'.ownership = db.ownership ++ [e]) (hticket : e.ticketIssuanceId = i.id)
      (howner : e.ownerStellarAccountId = i.ownerStellarAccountId) (htoken : e.tokenId = claim.tokenId)
      (hhash : e.transactionHash = claim.transactionHash)

/-! ### What locks protect -/

inductive Part
  | issuance (i : Option TicketIssuance)
  | ownership (e : Option OwnershipEvidence)
  | other

def part (db : Database) : Row → Part
  | .issuance id => .issuance (issuanceTable.find db id)
  | .ownership id => .ownership (ownershipTable.find db id)
  | _ => .other

theorem issuanceLayout : Layout part issuanceTable Part.issuance where
  row _ _ := rfl
  injective _ _ h := Part.issuance.inj h
  other db l k hk := by
    cases k with
    | issuance id => exact absurd rfl (hk id)
    | _ => rfl

theorem ownershipLayout : Layout part ownershipTable Part.ownership where
  row _ _ := rfl
  injective _ _ h := Part.ownership.inj h
  other db l k hk := by
    cases k with
    | ownership id => exact absurd rfl (hk id)
    | _ => rfl

/-- An order stays with its buyer. -/
instance : IsPreorder Order fun o o' => o'.buyerUserId = o.buyerUserId where
  refl _ := rfl
  trans _ _ _ h h' := h'.trans h

abbrev KeepsBuyers : Database → Database → Prop :=
  orderTable.Grows fun o o' => o'.buyerUserId = o.buyerUserId

/-- What a commit may do, of which the requests of the shop rely: orders keep their buyers, the
evidence about a ticket changes only under a write lock on the ticket, and who has a token only under
one on the token. -/
structure Rely (L : List (Lock Row)) (db db' : Database) : Prop where
  buyers : KeepsBuyers db db'
  evidence : ∀ id, ¬ Written L (.issuance id) → evidenceOf id db' = evidenceOf id db
  tokens : ∀ token, ¬ Written L (.token token) → ∀ j ∈ db'.issuances, j.tokenId = some token →
    ∃ i ∈ db.issuances, i.id = j.id ∧ i.tokenId = some token

/-- What a request of the shop guarantees: the same, and to be one of the moves. -/
structure Handles (L : List (Lock Row)) (db db' : Database) : Prop where
  rely : Rely L db db'
  move : TicketMove db db'

abbrev Outline : Prog Database Row Site Result → List (Lock Row) → (Database → Database) →
    (Database → Prop) → Prop :=
  Outlined Keyed (Forward part Rely) (Forward part Handles) (fun _ _ => True) fun _ _ => True

variable {db db' d view : Database} {L : List (Lock Row)} {pending : Database → Database}
  {A : Database → Prop}

/-! ### Requests that leave tickets alone -/

/-- Tickets and evidence are the same. -/
structure Aside (db db' : Database) : Prop where
  issuances : db'.issuances = db.issuances
  ownership : db'.ownership = db.ownership
  buyers : KeepsBuyers db db'

instance : IsPreorder Database Aside where
  refl _ := ⟨rfl, rfl, .refl⟩
  trans _ _ _ h h' := ⟨h'.issuances.trans h.issuances, h'.ownership.trans h.ownership,
    h.buyers.trans h'.buyers⟩

theorem Aside.keyed (h : Aside db db') (hI : Keyed db) : Keyed db' where
  issuanceIds := h.issuances ▸ hI.issuanceIds
  ownershipIds := h.ownership ▸ hI.ownershipIds
  tokens := h.issuances ▸ hI.tokens

theorem Aside.rely (h : Aside db db') : Rely L db db' where
  buyers := h.buyers
  evidence id _ := by rw [evidenceOf, h.ownership, evidenceOf]
  tokens token _ j hj htoken := ⟨j, h.issuances ▸ hj, rfl, htoken⟩

theorem Aside.part (h : Aside db db') (k : Row) : part db' k = part db k := by
  cases k with
  | issuance id => exact congrArg Part.issuance (congrArg (List.find? _) h.issuances)
  | ownership id => exact congrArg Part.ownership (congrArg (List.find? _) h.ownership)
  | _ => rfl

theorem aside_outline {p : Prog Database Row Site Result}
    (h : p.Confined (fun _ _ => True) fun _ => Aside) : Outline p [] id fun _ => True :=
  h.safeRequest (fun _ _ _ ha hI => ha.keyed hI) fun _ _ _ ha _ =>
    ⟨fun k _ => ha.part k, ha.rely, .same ha.issuances ha.ownership⟩

/-- A change of other tables than the orders. -/
theorem aside_of_same (hissuances : db'.issuances = db.issuances) (hownership : db'.ownership = db.ownership)
    (horders : db'.orders = db.orders) : Aside db db' :=
  ⟨hissuances, hownership, .of_find fun _ => congrArg (List.find? _) horders⟩

theorem aside_orders {p : Order → Bool} {f : Order → Order} (hid : ∀ o, (f o).id = o.id)
    (hbuyer : ∀ o, (f o).buyerUserId = o.buyerUserId) : Aside db (orderTable.modify p f view db) :=
  ⟨rfl, rfl, .modify (T := orderTable) hid fun o _ => hbuyer o⟩

theorem spares_aside : Spares (fun _ _ => True) fun _ => Aside where
  other _ := trivial
  event _ _ := trivial
  attempts _ _ _ := aside_of_same rfl rfl rfl
  events _ _ _ := aside_of_same rfl rfl rfl
  intents _ _ _ := aside_of_same rfl rfl rfl
  transactions _ _ _ := aside_of_same rfl rfl rfl
  evidence _ _ _ := aside_of_same rfl rfl rfl
  results _ _ _ := aside_of_same rfl rfl rfl
  cursors _ _ _ := aside_of_same rfl rfl rfl
  pays _ _ _ := aside_orders (fun _ => rfl) fun _ => rfl

theorem sells_aside : Sells fun _ => Aside where
  inventory _ _ _ := aside_of_same rfl rfl rfl
  orderItems _ _ _ := aside_of_same rfl rfl rfl
  opens _ _ _ := ⟨rfl, rfl, .add (T := orderTable)⟩
  environment _ _ _ _ := aside_of_same rfl rfl rfl
  releases _ _ _ _ := aside_of_same rfl rfl rfl
  reserves _ _ _ := aside_of_same rfl rfl rfl
  expires _ _ _ := aside_orders (fun _ => rfl) fun _ => rfl

/-! ### The evidence of a mint -/

section Mint

variable {issuanceId evidenceId : Uuid} {issuance : TicketIssuance} {claim : OwnershipClaim}
  {evidence : OwnershipEvidence}

/-- The evidence as a mint records it. -/
structure Records (issuance : TicketIssuance) (claim : OwnershipClaim) (evidence : OwnershipEvidence) :
    Prop where
  ticket : evidence.ticketIssuanceId = issuance.id
  owner : evidence.ownerStellarAccountId = issuance.ownerStellarAccountId
  token : evidence.tokenId = claim.tokenId
  hash : evidence.transactionHash = claim.transactionHash

/-- Nobody else has the token. -/
def Free (issuanceId : Uuid) (token : String) (db : Database) : Prop :=
  ∀ j ∈ db.issuances, j.tokenId = some token → j.id = issuanceId

theorem stable_free {token : String} (hlock : ⟨.token token, .update⟩ ∈ L) :
    Stable Keyed (Forward part Rely) L (Free issuanceId token) := by
  intro L' db db' hcompat _ _ hfree hG j hj htoken
  obtain ⟨i, hi, hid, hi'⟩ :=
    hG.moved.tokens token (hcompat.not_writes hlock rfl).not_written j hj htoken
  exact hid.symm.trans (hfree i hi hi')

/-- A checked mint. -/
theorem free_of_mintViolation {i : TicketIssuance} {token : String} (htoken : i.tokenId = some token)
    (h : mintViolation i db = none) : Free i.id token db := by
  intro j hj hjtoken
  unfold mintViolation at h
  split at h
  · cases h
  · rename_i hnone
    by_contra hne
    refine hnone (List.any_eq_true.mpr ⟨j, hj, ?_⟩)
    simp only [ne_eq, hne, not_false_eq_true, decide_true, hjtoken, htoken, Option.isSome_some,
      Bool.true_and, Bool.true_or]

theorem ownershipViolation_eq (h : ownershipViolation evidence db = none) :
    ownershipTable.find db evidence.id = none := by
  unfold ownershipViolation at h
  split at h
  · cases h
  · rename_i hnone
    refine ownershipTable.find_none_of_any (eq_false_of_ne_true hnone) fun f hf => ?_
    simp only [show f.id = evidence.id from hf, decide_true, Bool.true_or]

/-- **A mint** of a ticket whose evidence and whose token are new. -/
theorem Records.handles (h : Records issuance claim evidence) (hI : Keyed db)
    (hi : issuanceTable.find db issuance.id = some issuance)
    (hstatus : issuance.status = .pending ∨ issuance.status = .submitted)
    (hnew : ownershipTable.find db evidence.id = none) (hfree : Free issuance.id claim.tokenId db)
    (hissuances : db'.issuances =
      updateWhere (·.id = issuance.id) (minted claim evidence.id) db.issuances)
    (hownership : db'.ownership = db.ownership ++ [evidence]) (hbuyers : KeepsBuyers db db')
    (hticket : Written L (.issuance issuance.id)) (htoken : Written L (.token claim.tokenId)) :
    Keyed db' ∧ Handles L db db' := by
  obtain ⟨hmem, -⟩ := issuanceTable.find_mem hi
  have hreplaced : db'.issuances = replaceRow (·.id) (minted claim evidence.id issuance) db.issuances := by
    rw [hissuances, updateWhere_eq_replaceRow hI.issuanceIds hmem
      (fun j _ hj => of_decide_eq_true hj) rfl, if_pos (decide_eq_true rfl)]
  -- a ticket of this state is the minted one, or was there before
  have hbefore {j : TicketIssuance} (hj : j ∈ db'.issuances) :
      j = minted claim evidence.id issuance ∨ (j ∈ db.issuances ∧ j.id ≠ issuance.id) := by
    rw [hreplaced] at hj
    exact mem_replaceRow hj
  refine ⟨⟨?_, ?_, fun i hi' j hj hsome heq => ?_⟩, ⟨hbuyers, fun id hid => ?_, fun token hnot j hj hhas => ?_⟩,
    .minted issuance claim evidence hi hstatus hreplaced hownership h.ticket h.owner h.token h.hash⟩
  · have hids : (replaceRow (·.id) (minted claim evidence.id issuance) db.issuances).map (·.id) =
        db.issuances.map (·.id) := map_replaceRow hI.issuanceIds hmem rfl rfl
    rw [hreplaced, hids]
    exact hI.issuanceIds
  · rw [hownership]
    exact ownershipTable.nodup_add hI.ownershipIds (ownershipTable.find_none hnew)
  · rcases hbefore hi' with rfl | ⟨hi', hne⟩ <;> rcases hbefore hj with rfl | ⟨hj, hne'⟩
    · rfl
    · exact absurd (hfree j hj heq.symm) hne'
    · exact absurd (hfree i hi' heq) hne
    · exact hI.tokens i hi' j hj hsome heq
  · rw [evidenceOf, hownership, List.filter_append, evidenceOf]
    have hother : evidence.ticketIssuanceId ≠ id := by
      rintro rfl
      exact hid (h.ticket ▸ hticket)
    simp [hother]
  · rcases hbefore hj with rfl | ⟨hj, -⟩
    · obtain rfl : claim.tokenId = token := Option.some.inj hhas
      exact absurd htoken hnot
    · exact ⟨j, hj, rfl, hhas⟩

/-- The end of a request that took the evidence of a mint. -/
theorem safe_endMint {r : Response} (h : Records issuance claim evidence)
    (ht : Track part Keyed Rely L pending A)
    (hstatus : issuance.status = .pending ∨ issuance.status = .submitted)
    (hticket : Written L (.issuance issuance.id)) (htoken : Written L (.token claim.tokenId))
    (hknown : ∀ d, A d → issuanceTable.find d issuance.id = some issuance ∧
      ownershipTable.find d evidence.id = none ∧ Free issuance.id claim.tokenId d)
    (hissuances : ∀ d, Keyed d → A d → (pending d).issuances =
      updateWhere (·.id = issuance.id) (minted claim evidence.id) d.issuances)
    (hownership : ∀ d, (pending d).ownership = d.ownership ++ [evidence])
    (hbuyers : ∀ d, KeepsBuyers d (pending d)) :
    Outline ((do
      let view ← Tx.select .other (loadOwnership issuanceId)
      Tx.require view.isSome (.error .notFound)
      Tx.commit
      return r : Handler Response) fun r => .ret (.ok r)) L pending A := by
  refine safe_bind (safe_select ht.stable fun _ _ _ _ _ => ?_)
  refine safe_bind (safe_require fun _ => safe_bind (safe_commit (fun d hI hd => ?_) safe_ret))
  obtain ⟨hi, hnew, hfree⟩ := hknown d hd
  obtain ⟨hkeyed, hhandles⟩ := h.handles hI hi hstatus hnew hfree (hissuances d hI hd) (hownership d)
    (hbuyers d) hticket htoken
  exact ⟨hkeyed, ht.framed d, hhandles⟩

theorem acceptOwnershipEvidence_outline (issuanceId : Uuid) (body : OwnershipEvidenceRequest)
    (evidenceId : Uuid) :
    Outline (acceptOwnershipEvidence issuanceId body evidenceId).request [] id fun _ => True := by
  unfold Handler.request acceptOwnershipEvidence
  refine safe_bind (safe_ofExcept fun claim _ => ?_)
  refine safe_bind (Track.start.safe_selectFor fun db₁ A₁ row _ _ hrow h₁ => ?_)
  refine safe_bind (safe_orElse fun issuance hissuance => ?_)
  have hfound : issuanceTable.find db₁ issuanceId = some issuance := hrow.trans hissuance
  obtain rfl : issuance.id = issuanceId := (issuanceTable.find_mem hfound).2
  have hlock : (⟨.issuance issuance.id, .update⟩ : Lock Row) ∈
      [] ++ (issuanceTable.find (id db₁) issuance.id).toList.map fun i => ⟨.issuance i.id, .update⟩ := by
    rw [show issuanceTable.find (id db₁) issuance.id = some issuance from hfound]
    exact List.mem_singleton_self _
  have hknown (d : Database) (hd : A₁ d) : issuanceTable.find d issuance.id = some issuance :=
    ((h₁.seen d hd).find issuanceLayout hlock rfl).trans hfound
  refine safe_bind (safe_select h₁.track.stable fun _ existing _ _ _ => ?_)
  cases existing with
  | some existing =>
      refine safe_bind (safe_require fun _ => safe_bind (safe_commit (fun d hI _ => ?_) safe_ret))
      exact ⟨hI, .refl, ⟨.refl, fun _ _ => rfl, fun _ _ j hj hhas => ⟨j, hj, rfl, hhas⟩⟩, .same rfl rfl⟩
  | none =>
      refine safe_bind (safe_require fun hready => ?_)
      have hstatus : issuance.status = .pending ∨ issuance.status = .submitted := by simpa using hready
      refine safe_bind (safe_select h₁.track.stable fun _ owner _ _ _ => ?_)
      refine safe_bind (safe_orElse fun owner _ => safe_bind (safe_require fun _ => ?_))
      refine safe_bind ?_
      obtain ⟨evidence, hevidence⟩ : ∃ e : OwnershipEvidence, e = ⟨evidenceId, issuance.organizationId,
        issuance.id, issuance.ownerStellarAccountId, claim.tokenId, claim.transactionHash,
        claim.ledgerSequence, claim.contractEventId⟩ := ⟨_, rfl⟩
      have hrecords : Records issuance claim evidence := by
        subst hevidence
        exact ⟨rfl, rfl, rfl, rfl⟩
      obtain rfl : evidence.id = evidenceId := by rw [hevidence]
      rw [← hevidence]
      refine h₁.track.safe_insertRow fun db₂ A₂ _ _ hunique h₂ => ?_
      have ht₂ := h₂.track.add ownershipLayout (r := evidence)
        (List.mem_append_right _ List.mem_cons_self)
      have hnew (d : Database) (hd : A₂ d) : ownershipTable.find d evidence.id = none :=
        ((h₂.seen d hd).find ownershipLayout (i := evidence.id)
          (List.mem_append_right _ List.mem_cons_self) rfl).trans
            (ownershipViolation_eq (raise_none hunique))
      refine safe_bind (safe_updateChecked (fun db₃ hI₃ hA₃ _ hcheck => ?_))
      have hmatching : issuance ∈ issuanceTable.matching (·.id = issuance.id)
          (ownershipTable.add evidence (id db₃)) :=
        Table.mem_matching.mpr ⟨(issuanceTable.find_mem (hknown db₃ (h₂.before db₃ hA₃))).1,
          decide_eq_true rfl⟩
      -- nobody else has the token, and nobody else gets it meanwhile
      have htokenLock {held : List (Lock Row)} : (⟨.token claim.tokenId, .update⟩ : Lock Row) ∈ held ++
          (issuanceTable.matching (·.id = issuance.id) (ownershipTable.add evidence (id db₃))).flatMap
            fun i => [⟨.issuance i.id, .noKeyUpdate⟩, ⟨.token claim.tokenId, .update⟩,
              ⟨.issuanceTx claim.transactionHash, .update⟩] :=
        List.mem_append_right _ (List.mem_flatMap.mpr
          ⟨issuance, hmatching, List.mem_cons_of_mem _ List.mem_cons_self⟩)
      obtain ⟨A₃, hA₃', h₃, hfree⟩ := ht₂.afterKnowing hA₃ (C := Free issuance.id claim.tokenId)
        (free_of_mintViolation (i := minted claim evidence.id issuance) rfl
          (raise_none (hcheck issuance hmatching))) (stable_free htokenLock)
      refine ⟨A₃, hA₃', h₃.track.stable, ?_⟩
      have ht₃ := h₃.track.modifyLocked issuanceLayout (f := minted claim evidence.id) (fun _ => rfl)
        fun i => ⟨_, List.mem_cons_self, rfl, rfl⟩
      have hall (d : Database) (hd : A₃ d) : issuanceTable.find d issuance.id = some issuance ∧
          ownershipTable.find d evidence.id = none ∧ Free issuance.id claim.tokenId d :=
        ⟨hknown d (h₂.before d (h₃.before d hd)), hnew d (h₃.before d hd), hfree d hd⟩
      have hissuances (d : Database) : (issuanceTable.modify (·.id = issuance.id)
          (minted claim evidence.id) (ownershipTable.add evidence db₃)
            (ownershipTable.add evidence d)).issuances =
          updateWhere (·.id = issuance.id) (minted claim evidence.id) d.issuances :=
        Completion.issuances_issue (hknown db₃ (h₂.before db₃ hA₃))
      have hticketLock {held : List (Lock Row)} : (⟨.issuance issuance.id, .update⟩ : Lock Row) ∈
          ([] ++ (issuanceTable.find (id db₁) issuance.id).toList.map fun i => ⟨.issuance i.id, .update⟩) ++
            held := List.mem_append_left _ hlock
      refine safe_bind (safe_select ht₃.stable fun _ remaining _ _ _ => ?_)
      refine safe_ite (fun _ => ?_) fun _ => ?_
      · refine safe_bind (ht₃.safe_update fun db₄ A₄ _ _ _ h₄ => ?_)
        have ht₄ := h₄.track.hide
          (f := orderTable.modify (fun o => o.id = issuance.orderId && o.status = .fulfilling)
            ({ · with status := .fulfilled })
            (issuanceTable.modify (·.id = issuance.id) (minted claim evidence.id)
              (ownershipTable.add evidence (id db₃)) (ownershipTable.add evidence (id db₄))))
          fun _ k => by cases k <;> rfl
        refine safe_endMint hrecords ht₄ hstatus ?_ ?_ (fun d hd => hall d (h₄.before d hd))
          (fun d _ _ => hissuances d) (fun d => rfl) fun d => ?_
        · refine written_of_mem (m := .update) ?_ rfl
          simp only [List.mem_append, hlock, true_or]
        · refine written_of_mem (m := .update) (List.mem_append_left _ htokenLock) rfl
        · exact .modify (T := orderTable) (fun _ => rfl) fun _ _ => rfl
      · refine safe_endMint hrecords ht₃ hstatus ?_ ?_ hall (fun d _ _ => hissuances d) (fun d => rfl)
          fun d => .of_find fun _ => rfl
        · refine written_of_mem (m := .update) ?_ rfl
          simp only [List.mem_append, hlock, true_or]
        · exact written_of_mem (m := .update) htokenLock rfl

end Mint

/-! ### New tickets -/

section Prepare

/-- New tickets of one order, of a user who bought them. -/
structure Batch (orderId buyerUserId : Uuid) (tickets : List TicketIssuance) (db : Database) : Prop where
  new : ∀ i ∈ tickets, issuanceTable.find db i.id = none
  apart : (tickets.map (·.id)).Nodup
  unminted : ∀ i ∈ tickets, Unminted i
  order : ∀ i ∈ tickets, i.orderId = orderId
  owner : ∀ i ∈ tickets, i.ownerUserId = buyerUserId

variable {orderId buyerUserId : Uuid} {tickets : List TicketIssuance}

/-- New rows after the tickets there are. -/
def addTickets (tickets : List TicketIssuance) (db : Database) : Database :=
  { db with issuances := db.issuances ++ tickets }

theorem Batch.nil : Batch orderId buyerUserId [] db where
  new _ hi := absurd hi List.not_mem_nil
  apart := List.nodup_nil
  unminted _ hi := absurd hi List.not_mem_nil
  order _ hi := absurd hi List.not_mem_nil
  owner _ hi := absurd hi List.not_mem_nil

/-- One more ticket in front of those that are new after it. -/
theorem Batch.cons {i : TicketIssuance} (h : Batch orderId buyerUserId tickets (issuanceTable.add i db))
    (hnew : issuanceTable.find db i.id = none) (hunminted : Unminted i) (horder : i.orderId = orderId)
    (howner : i.ownerUserId = buyerUserId) : Batch orderId buyerUserId (i :: tickets) db where
  new := by
    refine List.forall_mem_cons.mpr ⟨hnew, fun j hj => ?_⟩
    have hfree := h.new j hj
    rw [Table.find_add, Option.or_eq_none_iff] at hfree
    exact hfree.1
  apart := by
    rw [List.map_cons, List.nodup_cons]
    refine ⟨fun hmem => ?_, h.apart⟩
    obtain ⟨j, hj, hid⟩ := List.mem_map.mp hmem
    have hfree := h.new j hj
    rw [Table.find_add, Option.or_eq_none_iff,
      if_pos (show issuanceTable.key i = j.id from hid.symm)] at hfree
    cases hfree.2
  unminted := List.forall_mem_cons.mpr ⟨hunminted, h.unminted⟩
  order := List.forall_mem_cons.mpr ⟨horder, h.order⟩
  owner := List.forall_mem_cons.mpr ⟨howner, h.owner⟩

/-- **New tickets** of an order. -/
theorem Batch.handles (h : Batch orderId buyerUserId tickets db) (hI : Keyed db)
    (hissuances : db'.issuances = db.issuances ++ tickets) (hownership : db'.ownership = db.ownership)
    (hbuyers : KeepsBuyers db db') {o : Order} (ho : orderTable.find db orderId = some o)
    (hbuyer : o.buyerUserId = buyerUserId) : Keyed db' ∧ Handles L db db' := by
  refine ⟨⟨?_, hownership ▸ hI.ownershipIds, fun i hi j hj hsome heq => ?_⟩,
    ⟨hbuyers, fun id _ => by rw [evidenceOf, hownership, evidenceOf], fun token _ j hj hhas => ?_⟩,
    .prepared tickets hissuances hownership h.new h.unminted fun i hi => ?_⟩
  · rw [hissuances, List.map_append]
    refine List.nodup_append.mpr ⟨hI.issuanceIds, h.apart, fun a ha b hb heq => ?_⟩
    obtain ⟨j, hj, rfl⟩ := List.mem_map.mp ha
    obtain ⟨i, hi, rfl⟩ := List.mem_map.mp hb
    exact issuanceTable.find_none (h.new i hi) j hj heq
  · -- a ticket without a token shares it with none
    have hold {k : TicketIssuance} (hk : k ∈ db'.issuances) (hk' : k.tokenId.isSome) : k ∈ db.issuances := by
      rw [hissuances] at hk
      refine (List.mem_append.mp hk).resolve_right fun hk => ?_
      rw [(h.unminted k hk).token] at hk'
      cases hk'
    exact hI.tokens i (hold hi hsome) j (hold hj (heq ▸ hsome)) hsome heq
  · rw [hissuances] at hj
    rcases List.mem_append.mp hj with hj | hj
    · exact ⟨j, hj, rfl, hhas⟩
    · rw [(h.unminted j hj).token] at hhas
      cases hhas
  · exact ⟨o, (h.order i hi).symm ▸ ho, hbuyer.trans (h.owner i hi).symm⟩

theorem issuanceViolation_eq {i : TicketIssuance} (h : issuanceViolation i db = none) :
    issuanceTable.find db i.id = none := by
  unfold issuanceViolation at h
  split at h
  · cases h
  · rename_i hnone
    refine issuanceTable.find_none_of_any (eq_false_of_ne_true hnone) fun j hj => ?_
    simp only [show j.id = i.id from hj, decide_true, Bool.true_or]

/-- **The loop** adds new tickets. -/
theorem safe_insertIssuances {context : PaidOrderContext} {orderId owner : Uuid} {serial : Int}
    {idOf : Int → Uuid} {offset : Int} {count : Nat} {k : PUnit → Prog Database Row Site Result}
    (ht : Track part Keyed Rely L pending A)
    (next : ∀ L' pending' B tickets, Track part Keyed Rely L' pending' B → (∀ d, B d → A d) →
      (∀ d, pending' d = addTickets tickets (pending d)) →
      (∀ d, B d → Batch orderId context.buyerUserId tickets (pending d)) →
      Outline (k ⟨⟩) L' pending' B) :
    Outline (insertIssuances context orderId owner serial idOf offset count k) L pending A := by
  induction count generalizing L pending A offset with
  | zero =>
      refine next L pending A [] ht (fun _ h => h) (fun d => ?_) fun _ _ => .nil
      simp [addTickets]
  | succ count ih =>
      refine safe_bind (safe_orElse fun serialNumber _ => safe_bind ?_)
      refine ht.safe_insertRow fun db₁ A₁ _ _ hunique h₁ => ?_
      have ht₁ := h₁.track.add issuanceLayout
        (r := ⟨idOf offset, context.organizationId, context.ticketEventId, context.ticketProductId,
          orderId, context.buyerUserId, owner, serialNumber, .pending, none, none, none⟩)
        (List.mem_append_right _ List.mem_cons_self)
      refine ih ht₁ fun L' pending' B tickets ht' hbefore hpending hbatch => ?_
      refine next L' pending' B _ ht' (fun d hd => h₁.before d (hbefore d hd)) (fun d => ?_) fun d hd =>
        (hbatch d hd).cons ?_ ⟨rfl, rfl, rfl⟩ rfl rfl
      · rw [hpending]
        simp [addTickets, Table.add, issuanceTable]
      · exact ((h₁.seen d (hbefore d hd)).find issuanceLayout (i := idOf offset)
          (List.mem_append_right _ List.mem_cons_self) rfl).trans
            (issuanceViolation_eq (raise_none hunique))

/-- An update that leaves tickets alone. -/
theorem safe_updateAside {ι α : Type} [DecidableEq ι] {T : Table Database Row ι α}
    {lock : α → List (Lock Row)} {p : α → Bool} {f : α → α} {check : Database → α → Option Result}
    {k : Nat → Prog Database Row Site Result} (ht : Track part Keyed Rely L pending A)
    (haside : ∀ view d, Aside d (T.modify p f view d))
    (next : ∀ n L' pending' B, Track part Keyed Rely L' pending' B → (∀ d, B d → A d) →
      (∀ d, Aside (pending d) (pending' d)) → Outline (k n) L' pending' B) :
    Outline (Tx.update .other T lock p f check k) L pending A := by
  refine ht.safe_update fun db B _ _ _ h => ?_
  have ht' := h.track.hide (f := T.modify p f (pending db)) fun d k => (haside _ d).part k
  exact next _ _ _ B ht' h.before fun d => haside _ _

/-- The buyer of an order that is read. -/
theorem buyer_of_paidOrderContext {c : PaidOrderContext} (h : paidOrderContext orderId db = some c) :
    ∃ o, orderTable.find db orderId = some o ∧ o.buyerUserId = c.buyerUserId := by
  simp only [paidOrderContext, Option.bind_eq_bind, Option.bind_eq_some_iff] at h
  obtain ⟨o, ho, r, -, tp, -, heq⟩ := h
  obtain rfl := Option.some.inj heq
  exact ⟨o, ho, rfl⟩

theorem stable_buyer : Stable Keyed (Forward part Rely) L fun d =>
    ∃ o, orderTable.find d orderId = some o ∧ o.buyerUserId = buyerUserId := by
  rintro L' db db' - - - ⟨o, ho, hbuyer⟩ hG
  obtain ⟨o', ho', hsame⟩ := hG.moved.buyers orderId o ho
  exact ⟨o', ho', hsame.trans hbuyer⟩

theorem prepareIssuance_outline (orderId : Uuid) (ids : Int → Uuid) :
    Outline (prepareIssuance orderId ids).request [] id fun _ => True := by
  unfold Handler.request prepareIssuance
  refine safe_bind (safe_selectFor fun db₁ row _ _ hrow => ?_)
  cases row with
  | none => exact ⟨fun _ => True, trivial, stable_true, safe_bind (safe_orElse fun _ ho => nomatch ho)⟩
  | some context =>
  refine ⟨_, buyer_of_paidOrderContext hrow, stable_buyer, safe_bind (safe_orElse fun c hc => ?_)⟩
  obtain rfl := Option.some.inj hc
  have ht₁ {held : List (Lock Row)} : Track part Keyed Rely held id fun d =>
      ∃ o, orderTable.find d orderId = some o ∧ o.buyerUserId = context.buyerUserId :=
    ⟨fun _ => .refl, .id, stable_buyer⟩
  refine safe_bind (safe_select ht₁.stable fun _ existing _ _ _ => ?_)
  refine safe_ite (fun _ => ?_) fun _ => safe_bind (safe_commit (fun d hI _ => ?_) safe_ret)
  · refine safe_bind (safe_require fun _ => safe_bind (safe_select ht₁.stable fun _ _ _ _ _ => ?_))
    refine safe_bind (safe_require fun _ => safe_bind (safe_select ht₁.stable fun _ _ _ _ _ => ?_))
    refine safe_bind (safe_orElse fun owner _ => ?_)
    refine safe_bind (ht₁.safe_selectFor fun db₂ A₂ _ _ _ _ h₂ => ?_)
    refine safe_bind (safe_select h₂.track.stable fun _ serial _ _ _ => ?_)
    refine safe_bind (safe_insertIssuances h₂.track fun L₃ p₃ A₃ tickets ht₃ hbefore₃ hpending hbatch => ?_)
    unfold updateInventory updateInventoryAt
    refine safe_bind (safe_updateAside ht₃ (fun _ _ => aside_of_same rfl rfl rfl)
      fun _ L₄ p₄ A₄ ht₄ hbefore₄ haside₄ => safe_bind (safe_require fun _ => ?_))
    refine safe_bind (safe_updateAside ht₄ (fun _ _ => aside_of_same rfl rfl rfl)
      fun _ L₅ p₅ A₅ ht₅ hbefore₅ haside₅ => ?_)
    refine safe_bind (safe_updateAside ht₅ (fun _ _ => aside_orders (fun _ => rfl) fun _ => rfl)
      fun _ L₆ p₆ A₆ ht₆ hbefore₆ haside₆ => ?_)
    refine safe_bind (safe_commit (fun d hI hd => ?_) safe_ret)
    have hd₃ := hbefore₄ d (hbefore₅ d (hbefore₆ d hd))
    obtain ⟨o, ho, hbuyer⟩ := h₂.before d (hbefore₃ d hd₃)
    have haside := trans_of Aside (trans_of Aside (haside₄ d) (haside₅ d)) (haside₆ d)
    rw [hpending] at haside
    obtain ⟨hkeyed, hhandles⟩ :=
      (hbatch d hd₃).handles hI haside.issuances haside.ownership haside.buyers ho hbuyer
    exact ⟨hkeyed, ht₆.framed d, hhandles⟩
  · exact ⟨hI, .refl, ⟨.refl, fun _ _ => rfl, fun _ _ j hj hhas => ⟨j, hj, rfl, hhas⟩⟩, .same rfl rfl⟩

end Prepare

/-! ### Every request -/

variable {ext : Reconciliation.External}

/-- **What a request of the shop does to tickets** is one of the moves. -/
theorem shop_outline {operation : Operation} {p : Prog Database Row Site Result}
    (h : Request ext operation p) : Outline p [] id fun _ => True := by
  cases h with
  | createReservation buyer product body ids =>
      exact aside_outline (confined_createReservation sells_aside buyer product body ids)
  | createOrder actor organization body order item =>
      exact aside_outline (confined_createOrder sells_aside.toPlaces actor organization body order item)
  | prepareIssuance order ids => exact prepareIssuance_outline order ids
  | acceptOwnershipEvidence issuance body evidence =>
      exact acceptOwnershipEvidence_outline issuance body evidence
  | environment directory catalogue =>
      exact aside_outline (confined_environment sells_aside directory catalogue)
  | setSupplyLimit product limit =>
      exact aside_outline (confined_setSupplyLimit sells_aside.toPlaces product limit)
  | createPaymentAttempt actor order body attempt =>
      exact aside_outline (bounded_createPaymentAttempt spares_aside actor order body attempt)
  | recordPaymentEvent actor attempt body event =>
      exact aside_outline (bounded_recordPaymentEvent spares_aside.toPays actor attempt body event)
  | createTransactionIntent actor order body intent =>
      exact aside_outline (bounded_createTransactionIntent spares_aside.toPays actor order body intent)
  | acceptSignedEnvelope actor intent xdr transaction =>
      exact aside_outline (bounded_acceptSignedEnvelope spares_aside.toPays actor intent xdr transaction)
  | recordSubmissionReceipt actor intent body =>
      exact aside_outline (bounded_recordSubmissionReceipt spares_aside.toPays actor intent body)
  | recordChainEvidence actor intent body ids =>
      exact aside_outline (bounded_recordChainEvidence spares_aside.toPays actor intent body ids)

end CrownFi.Commerce.Tickets
