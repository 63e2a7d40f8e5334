import CrownFi.Commerce.Tickets
import CrownFi.Transfers.Handlers

/-!
# CrownFi.Transfers.Lives

**The life of one ticket**, apart from all others: it is prepared for who bought it, minted, handed
on from owner to owner, and checked in at the door. What is on file about a ticket moves in few ways
(`Move`), and these keep its history a chain (`History`): one mint, and then one transfer after the
other, each from who had the ticket before. No transfer but the last can be active (`Sound.move`).
-/

namespace CrownFi.Transfers

open Lib CrownFi.Api
open CrownFi.Commerce (TicketIssuance OwnershipEvidence)
open CrownFi.Commerce.Issuance (OwnershipClaim)
open CrownFi.Commerce.Tickets (Unminted)
open CrownFi.Commerce.Completion (minted)

/-! ### Holders -/

/-- Who has a ticket, and on which account. -/
structure Holder where
  userId : Uuid
  stellarAccountId : Uuid
  deriving DecidableEq, Repr

def holderOf (i : TicketIssuance) : Holder := ⟨i.ownerUserId, i.ownerStellarAccountId⟩

namespace TransferRequest

def source (t : TransferRequest) : Holder := ⟨t.fromUserId, t.fromStellarAccountId⟩

def target (t : TransferRequest) : Holder := ⟨t.toUserId, t.toStellarAccountId⟩

def confirmed (t : TransferRequest) : Bool := t.status = .confirmed

/-- What a user makes a request known by. -/
def key (t : TransferRequest) : Uuid × Uuid × String := (t.organizationId, t.fromUserId, t.idempotencyKey)

/-- The ticket after this transfer. -/
def handOver (t : TransferRequest) (evidenceId : Uuid) (i : TicketIssuance) : TicketIssuance :=
  { i with ownerUserId := t.toUserId, ownerStellarAccountId := t.toStellarAccountId
           acceptedEvidenceId := some evidenceId, status := .issued }

/-- A transfer of this token, between two users. -/
structure Proper (token : String) (t : TransferRequest) : Prop where
  token : t.tokenId = token
  users : t.fromUserId ≠ t.toUserId
  accounts : t.fromStellarAccountId ≠ t.toStellarAccountId

theorem active_of_submitted {t : TransferRequest} (h : t.status = .submitted) : t.active = true := by
  simp [active, h]

theorem not_confirmed_of_active {t : TransferRequest} (h : t.active = true) : t.confirmed = false := by
  unfold active at h
  unfold confirmed
  cases hstatus : t.status <;> simp_all

theorem active_confirm {t : TransferRequest} {evidenceId : Uuid} {now : Int} :
    (t.confirm evidenceId now).active = false := by
  simp [active, confirm]

/-- The constraints of a transfer are met when its evidence comes. -/
theorem checked_confirm {t : TransferRequest} {evidenceId : Uuid} {now : Int} (h : t.checked = true)
    (hstatus : t.status = .submitted) : (t.confirm evidenceId now).checked = true := by
  simp only [checked, timed, hstatus, Bool.and_eq_true] at h
  simp only [checked, timed, confirm, Bool.and_eq_true, Option.isSome_some, and_true]
  exact ⟨h.1, h.2.1⟩

theorem confirmed_confirm {t : TransferRequest} {evidenceId : Uuid} {now : Int} :
    (t.confirm evidenceId now).confirmed = true := by
  simp [confirmed, confirm]

end TransferRequest

/-- What becomes of a transfer before its evidence. -/
inductive TransferStep : TransferRequest → TransferRequest → Prop
  | reviewed (t : TransferRequest) (actorUserId : Uuid) (review : Review) (now : Int)
      (h : t.status = .requested) : TransferStep t (t.review actorUserId review now)
  | submitted (t : TransferRequest) (transactionHash : String) (now : Int) (h : t.status = .approved) :
      TransferStep t (t.submit transactionHash now)

/-- What a transfer always was: its ticket and its parties, and the request it came with. -/
structure SameRequest (t t' : TransferRequest) : Prop where
  id : t'.id = t.id
  organization : t'.organizationId = t.organizationId
  ticket : t'.ticketIssuanceId = t.ticketIssuanceId
  token : t'.tokenId = t.tokenId
  source : t'.source = t.source
  target : t'.target = t.target
  policy : t'.policy = t.policy
  key : t'.idempotencyKey = t.idempotencyKey
  hash : t'.requestSha256 = t.requestSha256

instance : IsPreorder TransferRequest SameRequest where
  refl _ := ⟨rfl, rfl, rfl, rfl, rfl, rfl, rfl, rfl, rfl⟩
  trans _ _ _ h h' := ⟨h'.id.trans h.id, h'.organization.trans h.organization,
    h'.ticket.trans h.ticket, h'.token.trans h.token, h'.source.trans h.source,
    h'.target.trans h.target, h'.policy.trans h.policy, h'.key.trans h.key, h'.hash.trans h.hash⟩

theorem SameRequest.keys {t t' : TransferRequest} (h : SameRequest t t') :
    TransferRequest.key t' = TransferRequest.key t := by
  have huser := congrArg Holder.userId h.source
  exact Prod.ext h.organization (Prod.ext huser h.key)

theorem TransferRequest.Proper.same {t t' : TransferRequest} {token : String} (h : t.Proper token)
    (hsame : SameRequest t t') : t'.Proper token where
  token := hsame.token.trans h.token
  users := by
    have hsource := congrArg Holder.userId hsame.source
    have htarget := congrArg Holder.userId hsame.target
    exact fun heq => h.users (hsource.symm.trans (heq.trans htarget))
  accounts := by
    have hsource := congrArg Holder.stellarAccountId hsame.source
    have htarget := congrArg Holder.stellarAccountId hsame.target
    exact fun heq => h.accounts (hsource.symm.trans (heq.trans htarget))

theorem sameRequest_confirm {t : TransferRequest} {evidenceId : Uuid} {now : Int} :
    SameRequest t (t.confirm evidenceId now) :=
  ⟨rfl, rfl, rfl, rfl, rfl, rfl, rfl, rfl, rfl⟩

namespace TransferStep

variable {t t' : TransferRequest}

theorem same (h : TransferStep t t') : SameRequest t t' := by
  cases h with
  | reviewed => exact ⟨rfl, rfl, rfl, rfl, rfl, rfl, rfl, rfl, rfl⟩
  | submitted => exact ⟨rfl, rfl, rfl, rfl, rfl, rfl, rfl, rfl, rfl⟩

theorem active (h : TransferStep t t') : t.active = true := by
  cases h with
  | reviewed _ _ _ h => simp [TransferRequest.active, h]
  | submitted _ _ h => simp [TransferRequest.active, h]

theorem checked (h : TransferStep t t') (hchecked : t.checked = true) : t'.checked = true := by
  cases h with
  | reviewed _ review _ hstatus =>
      simp only [TransferRequest.checked, TransferRequest.timed, hstatus, Bool.and_eq_true,
        Option.isNone_iff_eq_none] at hchecked
      simp only [TransferRequest.checked, TransferRequest.timed, TransferRequest.review, Bool.and_eq_true]
      refine ⟨hchecked.1, ?_⟩
      cases review.approve <;> simp [hchecked.2.1.2, hchecked.2.2]
  | submitted _ _ hstatus =>
      simp only [TransferRequest.checked, TransferRequest.timed, hstatus, Bool.and_eq_true,
        Option.isNone_iff_eq_none] at hchecked
      simp only [TransferRequest.checked, TransferRequest.timed, TransferRequest.submit, Bool.and_eq_true,
        Option.isNone_iff_eq_none, Option.isSome_some, and_true]
      exact ⟨hchecked.1, hchecked.2.1.1, hchecked.2.2⟩

theorem not_confirmed (h : TransferStep t t') : t'.confirmed = false := by
  cases h with
  | reviewed _ review _ _ => cases hreview : review.approve <;>
      simp [TransferRequest.confirmed, TransferRequest.review, hreview]
  | submitted _ _ _ => simp [TransferRequest.confirmed, TransferRequest.submit]

end TransferStep

/-! ### What is on file about a ticket -/

/-- The ticket with who bought it, its evidence, its transfers and its check-ins. -/
structure TicketFile where
  buyerUserId : Option Uuid
  issuance : Option TicketIssuance
  evidence : List OwnershipEvidence
  transfers : List TransferRequest
  checkIns : List CheckIn

namespace TicketFile

/-- The transfers that happened, in order. -/
def confirmed (f : TicketFile) : List TransferRequest := f.transfers.filter (·.confirmed)

/-- No transfer is on its way. -/
def Idle (f : TicketFile) : Prop := ∀ t ∈ f.transfers, t.active = false

end TicketFile

/-- **The history of a ticket**: a mint to its first holder, and transfers, each from who had the
ticket before and each with evidence of its own. -/
inductive History (first : Holder) (token : String) :
    List OwnershipEvidence → List TransferRequest → Holder → Uuid → Prop
  | minted (e : OwnershipEvidence) (howner : e.ownerStellarAccountId = first.stellarAccountId)
      (htoken : e.tokenId = token) : History first token [e] [] first e.id
  | handed {evidence : List OwnershipEvidence} {transfers : List TransferRequest} {holder : Holder}
      {last : Uuid} (h : History first token evidence transfers holder last) (e : OwnershipEvidence)
      (t : TransferRequest) (hproper : t.Proper token) (hsource : t.source = holder)
      (howner : e.ownerStellarAccountId = t.toStellarAccountId) (htoken : e.tokenId = token)
      (hhash : t.submittedTxHash = some e.transactionHash)
      (haccepted : t.acceptedEvidenceId = some e.id) :
      History first token (evidence ++ [e]) (transfers ++ [t]) t.target e.id

namespace History

variable {first holder : Holder} {token : String} {last : Uuid} {evidence : List OwnershipEvidence}
  {transfers : List TransferRequest}

/-- All evidence is about one token. -/
theorem tokens (h : History first token evidence transfers holder last) :
    ∀ e ∈ evidence, e.tokenId = token := by
  induction h with
  | minted e _ htoken => exact List.forall_mem_singleton.mpr htoken
  | handed _ e t _ _ _ htoken _ _ ih =>
      exact List.forall_mem_append.mpr ⟨ih, List.forall_mem_singleton.mpr htoken⟩

/-- The last evidence is of who has the ticket. -/
theorem present (h : History first token evidence transfers holder last) :
    ∃ e ∈ evidence, e.id = last ∧ e.ownerStellarAccountId = holder.stellarAccountId := by
  cases h with
  | minted e howner => exact ⟨e, List.mem_singleton_self e, rfl, howner⟩
  | handed _ e t _ _ howner =>
      exact ⟨e, List.mem_append_right _ (List.mem_singleton_self e), rfl, howner⟩

end History

/-- A ticket that was minted: its owner, its evidence and its token are those of its history. -/
structure Issued (f : TicketFile) (i : TicketIssuance) (first : Holder) (token : String) (last : Uuid) :
    Prop where
  issuance : f.issuance = some i
  status : i.status = .issued
  hasToken : i.tokenId = some token
  accepted : i.acceptedEvidenceId = some last
  buyer : f.buyerUserId = some first.userId
  history : History first token f.evidence f.confirmed (holderOf i) last
  proper : ∀ t ∈ f.transfers, t.Proper token
  checked : ∀ t ∈ f.transfers, t.checked = true
  active : ∀ t ∈ f.transfers, t.active = true → t.source = holderOf i
  checkIns : f.checkIns.length ≤ 1

/-- The three ages of a ticket. -/
inductive Standing (f : TicketFile) : Prop
  | unknown (hissuance : f.issuance = none) (hevidence : f.evidence = []) (htransfers : f.transfers = [])
      (hcheckIns : f.checkIns = [])
  | waiting (i : TicketIssuance) (hissuance : f.issuance = some i) (hunminted : Unminted i)
      (hbuyer : f.buyerUserId = some i.ownerUserId) (hevidence : f.evidence = [])
      (htransfers : f.transfers = []) (hcheckIns : f.checkIns = [])
  | issued (i : TicketIssuance) (first : Holder) (token : String) (last : Uuid)
      (h : Issued f i first token last)

/-- The invariant of a ticket: a transfer was asked for when those before had ended. -/
structure Sound (f : TicketFile) : Prop where
  apart : f.transfers.Pairwise fun t _ => t.active = false
  standing : Standing f

/-- **What can happen to a ticket.** -/
inductive Move : TicketFile → TicketFile → Prop
  | rest (f : TicketFile) : Move f f
  | prepared (f : TicketFile) (i : TicketIssuance) (hissuance : f.issuance = none)
      (hunminted : Unminted i) :
      Move f { f with issuance := some i, buyerUserId := some i.ownerUserId }
  | minted (f : TicketFile) (i : TicketIssuance) (claim : OwnershipClaim) (e : OwnershipEvidence)
      (hissuance : f.issuance = some i) (hstatus : i.status = .pending ∨ i.status = .submitted)
      (howner : e.ownerStellarAccountId = i.ownerStellarAccountId) (htoken : e.tokenId = claim.tokenId) :
      Move f { f with issuance := some (minted claim e.id i), evidence := f.evidence ++ [e] }
  | asked (f : TicketFile) (i : TicketIssuance) (t : TransferRequest) (hissuance : f.issuance = some i)
      (hstatus : i.status = .issued) (htoken : i.tokenId = some t.tokenId)
      (hproper : t.Proper t.tokenId) (hchecked : t.checked = true) (hsource : t.source = holderOf i)
      (hopen : t.active = true)
      (hidle : f.Idle) (hcheckIns : f.checkIns = []) :
      Move f { f with transfers := f.transfers ++ [t] }
  | followed (f : TicketFile) (earlier : List TransferRequest) (t t' : TransferRequest)
      (htransfers : f.transfers = earlier ++ [t]) (h : TransferStep t t') :
      Move f { f with transfers := earlier ++ [t'] }
  | handed (f : TicketFile) (i : TicketIssuance) (earlier : List TransferRequest) (t : TransferRequest)
      (e : OwnershipEvidence) (now : Int) (hissuance : f.issuance = some i)
      (htransfers : f.transfers = earlier ++ [t]) (hstatus : t.status = .submitted)
      (hhash : t.submittedTxHash = some e.transactionHash) (htoken : e.tokenId = t.tokenId)
      (howner : e.ownerStellarAccountId = t.toStellarAccountId) :
      Move f { f with issuance := some (t.handOver e.id i), evidence := f.evidence ++ [e]
                      transfers := earlier ++ [t.confirm e.id now] }
  | checkedIn (f : TicketFile) (i : TicketIssuance) (c : CheckIn) (hissuance : f.issuance = some i)
      (hstatus : i.status = .issued) (hcheckIns : f.checkIns = []) :
      Move f { f with checkIns := [c] }

variable {f f' : TicketFile} {i : TicketIssuance}

/-! ### Transfers one after the other -/

theorem apart_concat {earlier : List TransferRequest} {t : TransferRequest} :
    (earlier ++ [t]).Pairwise (fun t _ => t.active = false) ↔ ∀ u ∈ earlier, u.active = false := by
  rw [List.pairwise_append]
  constructor
  · rintro ⟨-, -, h⟩ u hu
    exact h u hu t (List.mem_singleton_self t)
  · intro h
    exact ⟨List.pairwise_iff_forall_sublist.mpr fun hsub => h _ (hsub.subset List.mem_cons_self),
      List.pairwise_singleton _ _, fun u hu _ _ => h u hu⟩

/-- An active transfer is the last one. -/
theorem Sound.last_of_active {t : TransferRequest} (h : Sound f) (ht : t ∈ f.transfers)
    (hactive : t.active = true) : ∃ earlier, f.transfers = earlier ++ [t] := by
  obtain ⟨earlier, later, hsplit⟩ := List.append_of_mem ht
  cases later with
  | nil => exact ⟨earlier, hsplit⟩
  | cons u later =>
      have hapart := h.apart
      rw [hsplit, List.pairwise_append] at hapart
      have hended := List.rel_of_pairwise_cons hapart.2.1 List.mem_cons_self
      rw [hactive] at hended
      cases hended

namespace Sound

/-- A ticket that says so is issued. -/
theorem issued (h : Sound f) (hi : f.issuance = some i) (hstatus : i.status = .issued) :
    ∃ first token last, Issued f i first token last := by
  cases h.standing with
  | unknown hnone =>
      rw [hi] at hnone
      cases hnone
  | waiting j hj hunminted =>
      obtain rfl := Option.some.inj (hi.symm.trans hj)
      rw [hunminted.status] at hstatus
      cases hstatus
  | issued _ _ _ _ hissued =>
      obtain rfl := Option.some.inj (hi.symm.trans hissued.issuance)
      exact ⟨_, _, _, hissued⟩

/-- Only tickets that are issued have transfers. -/
theorem issued_of_transfer {t : TransferRequest} (h : Sound f) (ht : t ∈ f.transfers) :
    ∃ i first token last, Issued f i first token last := by
  cases h.standing with
  | unknown _ _ hnone =>
      rw [hnone] at ht
      cases ht
  | waiting _ _ _ _ _ hnone =>
      rw [hnone] at ht
      cases ht
  | issued _ _ _ _ hissued => exact ⟨_, _, _, _, hissued⟩

/-- Only tickets that are issued are checked in. -/
theorem issued_of_checkIn (h : Sound f) (hchecked : f.checkIns ≠ []) :
    ∃ i first token last, Issued f i first token last := by
  cases h.standing with
  | unknown _ _ _ hnone => exact absurd hnone hchecked
  | waiting _ _ _ _ _ _ hnone => exact absurd hnone hchecked
  | issued _ _ _ _ hissued => exact ⟨_, _, _, _, hissued⟩

/-- The last transfer of a ticket, and those before it. -/
theorem last {earlier : List TransferRequest} {t : TransferRequest} (h : Sound f)
    (htransfers : f.transfers = earlier ++ [t]) :
    (∀ u ∈ earlier, u.active = false) ∧ ∃ i first token last, Issued f i first token last ∧
      (∀ u ∈ earlier, u.Proper token ∧ u.checked = true) ∧ t.Proper token ∧ t.checked = true ∧
      (t.active = true → t.source = holderOf i) := by
  have hlast : t ∈ f.transfers := htransfers ▸ List.mem_append_right _ (List.mem_singleton_self t)
  obtain ⟨i, first, token, last, hissued⟩ := h.issued_of_transfer hlast
  refine ⟨apart_concat.mp (htransfers ▸ h.apart), i, first, token, last, hissued, fun u hu => ?_,
    hissued.proper t hlast, hissued.checked t hlast, hissued.active t hlast⟩
  have hmem : u ∈ f.transfers := htransfers ▸ List.mem_append_left _ hu
  exact ⟨hissued.proper u hmem, hissued.checked u hmem⟩

/-- The ticket, before its mint. -/
theorem waiting (h : Sound f) (hi : f.issuance = some i) (hstatus : i.status ≠ .issued) :
    Unminted i ∧ f.buyerUserId = some i.ownerUserId ∧ f.evidence = [] ∧ f.transfers = [] ∧
      f.checkIns = [] := by
  cases h.standing with
  | unknown hnone =>
      rw [hi] at hnone
      cases hnone
  | waiting j hj hunminted hbuyer hevidence htransfers hcheckIns =>
      obtain rfl := Option.some.inj (hi.symm.trans hj)
      exact ⟨hunminted, hbuyer, hevidence, htransfers, hcheckIns⟩
  | issued _ _ _ _ hissued =>
      obtain rfl := Option.some.inj (hi.symm.trans hissued.issuance)
      exact absurd hissued.status hstatus

/-- What is known of a ticket that was never prepared. -/
theorem unknown (h : Sound f) (hnone : f.issuance = none) :
    f.evidence = [] ∧ f.transfers = [] ∧ f.checkIns = [] := by
  cases h.standing with
  | unknown _ hevidence htransfers hcheckIns => exact ⟨hevidence, htransfers, hcheckIns⟩
  | waiting j hj =>
      rw [hnone] at hj
      cases hj
  | issued _ _ _ _ hissued =>
      have hi := hissued.issuance
      rw [hnone] at hi
      cases hi

/-- **Every move keeps the history a chain.** -/
theorem move (h : Sound f) (hmove : Move f f') : Sound f' := by
  cases hmove with
  | rest => exact h
  | prepared i hissuance hunminted =>
      obtain ⟨hevidence, htransfers, hcheckIns⟩ := h.unknown hissuance
      exact ⟨h.apart, .waiting i rfl hunminted rfl hevidence htransfers hcheckIns⟩
  | minted i claim e hissuance hstatus howner htoken =>
      have hopen : i.status ≠ .issued := by
        rcases hstatus with hstatus | hstatus <;> simp [hstatus]
      obtain ⟨-, hbuyer, hevidence, htransfers, hcheckIns⟩ := h.waiting hissuance hopen
      refine ⟨h.apart, .issued _ (holderOf i) claim.tokenId e.id
        ⟨rfl, rfl, rfl, rfl, hbuyer, ?_, ?_, ?_, ?_, ?_⟩⟩
      · rw [hevidence, TicketFile.confirmed, htransfers]
        exact .minted e howner htoken
      · exact htransfers ▸ List.forall_mem_nil _
      · exact htransfers ▸ List.forall_mem_nil _
      · exact htransfers ▸ fun _ ht => absurd ht List.not_mem_nil
      · exact hcheckIns ▸ Nat.zero_le 1
  | asked i t hissuance hstatus htoken hproper hchecked hsource hopen hidle hcheckIns =>
      obtain ⟨first, token, last, hissued⟩ := h.issued hissuance hstatus
      obtain rfl : token = t.tokenId := Option.some.inj (hissued.hasToken.symm.trans htoken)
      refine ⟨apart_concat.mpr hidle, .issued _ _ _ _
        { hissued with history := ?_, proper := ?_, checked := ?_, active := ?_ }⟩
      · rw [TicketFile.confirmed, List.filter_append, List.filter_singleton,
          TransferRequest.not_confirmed_of_active hopen, cond_false, List.append_nil]
        exact hissued.history
      · exact List.forall_mem_append.mpr ⟨hissued.proper, List.forall_mem_singleton.mpr hproper⟩
      · exact List.forall_mem_append.mpr ⟨hissued.checked, List.forall_mem_singleton.mpr hchecked⟩
      · exact List.forall_mem_append.mpr ⟨hissued.active, List.forall_mem_singleton.mpr fun _ => hsource⟩
  | followed earlier t t' htransfers hstep =>
      obtain ⟨hended, i, first, token, last, hissued, hearlier, ht, hchecked, hsource⟩ := h.last htransfers
      refine ⟨apart_concat.mpr hended, .issued _ _ _ _
        { hissued with history := ?_, proper := ?_, checked := ?_, active := ?_ }⟩
      · have hhistory := hissued.history
        rw [TicketFile.confirmed, htransfers, List.filter_append, List.filter_singleton,
          TransferRequest.not_confirmed_of_active hstep.active, cond_false] at hhistory
        rw [TicketFile.confirmed, List.filter_append, List.filter_singleton, hstep.not_confirmed,
          cond_false]
        exact hhistory
      · exact List.forall_mem_append.mpr ⟨fun u hu => (hearlier u hu).1,
          List.forall_mem_singleton.mpr (ht.same hstep.same)⟩
      · exact List.forall_mem_append.mpr ⟨fun u hu => (hearlier u hu).2,
          List.forall_mem_singleton.mpr (hstep.checked hchecked)⟩
      · refine List.forall_mem_append.mpr ⟨fun u hu hu' => ?_, List.forall_mem_singleton.mpr fun _ => ?_⟩
        · rw [hended u hu] at hu'
          cases hu'
        · exact hstep.same.source.trans (hsource hstep.active)
  | handed i earlier t e now hissuance htransfers hsubmitted hhash htoken howner =>
      obtain ⟨hended, j, first, token, last, hissued, hearlier, ht, hchecked, hsource⟩ := h.last htransfers
      obtain rfl := Option.some.inj (hissuance.symm.trans hissued.issuance)
      have hlive := TransferRequest.active_of_submitted hsubmitted
      refine ⟨apart_concat.mpr hended, .issued _ first token e.id
        ⟨rfl, rfl, hissued.hasToken, rfl, hissued.buyer, ?_, ?_, ?_, ?_, hissued.checkIns⟩⟩
      · have hhistory := hissued.history
        rw [TicketFile.confirmed, htransfers, List.filter_append, List.filter_singleton,
          TransferRequest.not_confirmed_of_active hlive, cond_false, List.append_nil] at hhistory
        rw [TicketFile.confirmed, List.filter_append, List.filter_singleton,
          TransferRequest.confirmed_confirm, cond_true]
        exact .handed hhistory e _ (ht.same sameRequest_confirm) (hsource hlive) howner
          (htoken.trans ht.token) hhash rfl
      · exact List.forall_mem_append.mpr ⟨fun u hu => (hearlier u hu).1,
          List.forall_mem_singleton.mpr (ht.same sameRequest_confirm)⟩
      · exact List.forall_mem_append.mpr ⟨fun u hu => (hearlier u hu).2,
          List.forall_mem_singleton.mpr (TransferRequest.checked_confirm hchecked hsubmitted)⟩
      · -- no transfer is active any more
        refine List.forall_mem_append.mpr ⟨fun u hu hu' => ?_, List.forall_mem_singleton.mpr ?_⟩
        · rw [hended u hu] at hu'
          cases hu'
        · rw [TransferRequest.active_confirm]
          exact fun hu' => nomatch hu'
  | checkedIn i c hissuance hstatus hcheckIns =>
      obtain ⟨first, token, last, hissued⟩ := h.issued hissuance hstatus
      exact ⟨h.apart, .issued _ _ _ _ { hissued with checkIns := Nat.le_refl 1 }⟩

end Sound

/-! ### Later -/

/-- What becomes of a transfer in the end. -/
structure Follows (t t' : TransferRequest) : Prop where
  same : SameRequest t t'
  ended : t.active = false → t' = t
  approved : t.status = .approved →
    t'.status = .approved ∨ t'.status = .submitted ∨ t'.status = .confirmed
  submitted : t.status = .submitted →
    t'.submittedTxHash = t.submittedTxHash ∧ (t'.status = .submitted ∨ t'.status = .confirmed)

namespace Follows

variable {t t' t'' : TransferRequest}

theorem refl : Follows t t :=
  ⟨refl_of SameRequest t, fun _ => rfl, fun h => .inl h, fun h => ⟨rfl, .inl h⟩⟩

/-- A confirmed transfer stays. -/
theorem of_confirmed (h : Follows t t') (ht : t.status = .confirmed) : t' = t := by
  refine h.ended ?_
  simp [TransferRequest.active, ht]

theorem trans (h : Follows t t') (h' : Follows t' t'') : Follows t t'' where
  same := trans_of SameRequest h.same h'.same
  ended hended := by
    obtain rfl := h.ended hended
    exact h'.ended hended
  approved happroved := by
    rcases h.approved happroved with hstatus | hstatus | hstatus
    · exact h'.approved hstatus
    · exact .inr (h'.submitted hstatus).2
    · rw [h'.of_confirmed hstatus]
      exact .inr (.inr hstatus)
  submitted hsubmitted := by
    obtain ⟨hhash, hstatus | hstatus⟩ := h.submitted hsubmitted
    · obtain ⟨hhash', hstatus'⟩ := h'.submitted hstatus
      exact ⟨hhash'.trans hhash, hstatus'⟩
    · rw [h'.of_confirmed hstatus]
      exact ⟨hhash, .inr hstatus⟩

theorem of_step (h : TransferStep t t') : Follows t t' := by
  refine ⟨h.same, fun hended => ?_, fun happroved => ?_, fun hsubmitted => ?_⟩
  · rw [h.active] at hended
    cases hended
  · cases h with
    | reviewed _ _ _ hstatus =>
        rw [happroved] at hstatus
        cases hstatus
    | submitted => exact .inr (.inl rfl)
  · cases h with
    | reviewed _ _ _ hstatus =>
        rw [hsubmitted] at hstatus
        cases hstatus
    | submitted _ _ hstatus =>
        rw [hsubmitted] at hstatus
        cases hstatus

theorem of_confirm {evidenceId : Uuid} {now : Int} (h : t.status = .submitted) :
    Follows t (t.confirm evidenceId now) := by
  refine ⟨sameRequest_confirm, fun hended => ?_, fun happroved => ?_, fun _ => ⟨rfl, .inr rfl⟩⟩
  · rw [TransferRequest.active_of_submitted h] at hended
    cases hended
  · rw [h] at happroved
    cases happroved

end Follows

/-- What is so of a ticket from now on. -/
structure Later (f f' : TicketFile) : Prop where
  token : ∀ i token, f.issuance = some i → i.tokenId = some token →
    ∃ i', f'.issuance = some i' ∧ i'.tokenId = some token
  evidence : f.evidence <+: f'.evidence
  confirmed : f.confirmed <+: f'.confirmed
  transfers : ∀ (n : Nat) t, f.transfers[n]? = some t → ∃ t', f'.transfers[n]? = some t' ∧ Follows t t'
  checkIns : f.checkIns <+: f'.checkIns
  closed : f.checkIns ≠ [] → f'.transfers.length = f.transfers.length
  handedOn : f.checkIns ≠ [] → ∀ i, f.issuance = some i → ∃ i', f'.issuance = some i' ∧
    (i' = i ∨ ∃ t ∈ f.transfers, t.active = true ∧ holderOf i' = t.target ∧ f'.Idle)

namespace Later

variable {f'' : TicketFile}

theorem refl : Later f f where
  token i _ hi htoken := ⟨i, hi, htoken⟩
  evidence := List.prefix_refl _
  confirmed := List.prefix_refl _
  transfers _ t ht := ⟨t, ht, .refl⟩
  checkIns := List.prefix_refl _
  closed _ := rfl
  handedOn _ i hi := ⟨i, hi, .inl rfl⟩

/-- Every transfer of a ticket that was checked in was there before. -/
theorem before (h : Later f f') (hchecked : f.checkIns ≠ []) {t' : TransferRequest}
    (ht' : t' ∈ f'.transfers) : ∃ t ∈ f.transfers, Follows t t' := by
  obtain ⟨n, hn, hget⟩ := List.getElem_of_mem ht'
  have hbound : n < f.transfers.length := h.closed hchecked ▸ hn
  obtain ⟨u, hu, hfollows⟩ := h.transfers n _ (List.getElem?_eq_getElem hbound)
  rw [List.getElem?_eq_getElem hn, hget] at hu
  obtain rfl := Option.some.inj hu
  exact ⟨_, List.getElem_mem hbound, hfollows⟩

/-- A ticket that was checked in when none of its transfers was on its way. -/
theorem idle (h : Later f f') (hchecked : f.checkIns ≠ []) (hidle : f.Idle) : f'.Idle := by
  intro t' ht'
  obtain ⟨t, ht, hfollows⟩ := h.before hchecked ht'
  rw [hfollows.ended (hidle t ht)]
  exact hidle t ht

theorem checked (h : Later f f') (hchecked : f.checkIns ≠ []) : f'.checkIns ≠ [] := by
  intro hnone
  have hprefix := h.checkIns
  rw [hnone, List.prefix_nil] at hprefix
  exact hchecked hprefix

theorem trans (h : Later f f') (h' : Later f' f'') : Later f f'' where
  token i token hi htoken := by
    obtain ⟨i', hi', htoken'⟩ := h.token i token hi htoken
    exact h'.token i' token hi' htoken'
  evidence := h.evidence.trans h'.evidence
  confirmed := h.confirmed.trans h'.confirmed
  transfers n t ht := by
    obtain ⟨t', ht', hfollows⟩ := h.transfers n t ht
    obtain ⟨t'', ht'', hfollows'⟩ := h'.transfers n t' ht'
    exact ⟨t'', ht'', hfollows.trans hfollows'⟩
  checkIns := h.checkIns.trans h'.checkIns
  closed hchecked := (h'.closed (h.checked hchecked)).trans (h.closed hchecked)
  handedOn hchecked i hi := by
    obtain ⟨i', hi', hsame | ⟨t, ht, hactive, hholder, hidle⟩⟩ := h.handedOn hchecked i hi
    · obtain ⟨i'', hi'', hsame' | ⟨t', ht', hactive, hholder, hidle⟩⟩ :=
        h'.handedOn (h.checked hchecked) i' hi'
      · exact ⟨i'', hi'', .inl (hsame'.trans hsame)⟩
      · -- the transfer that was on its way then was so before
        obtain ⟨t, ht, hfollows⟩ := h.before hchecked ht'
        refine ⟨i'', hi'', .inr ⟨t, ht, ?_, hholder.trans hfollows.same.target, hidle⟩⟩
        cases hwas : t.active with
        | true => rfl
        | false =>
            rw [hfollows.ended hwas, hwas] at hactive
            cases hactive
    · obtain ⟨i'', hi'', hsame | ⟨t', ht', hactive', -⟩⟩ := h'.handedOn (h.checked hchecked) i' hi'
      · exact ⟨i'', hi'', .inr ⟨t, ht, hactive, hsame ▸ hholder, h'.idle (h.checked hchecked) hidle⟩⟩
      · rw [hidle t' ht'] at hactive'
        cases hactive'

/-- The last transfer becomes another. -/
theorem getElem?_concat {earlier : List TransferRequest} {t t' : TransferRequest} (h : Follows t t') (n : Nat)
    (u : TransferRequest) (hu : (earlier ++ [t])[n]? = some u) :
    ∃ u', (earlier ++ [t'])[n]? = some u' ∧ Follows u u' := by
  rw [List.getElem?_append] at hu ⊢
  split at hu
  · rename_i hn
    rw [if_pos hn]
    exact ⟨u, hu, .refl⟩
  · rename_i hn
    rw [if_neg hn]
    cases hk : n - earlier.length with
    | zero =>
        rw [hk] at hu
        obtain rfl := Option.some.inj hu
        exact ⟨t', rfl, h⟩
    | succ k =>
        rw [hk] at hu
        cases hu

/-- **A move** of a ticket. -/
theorem of_move (h : Sound f) (hmove : Move f f') : Later f f' := by
  cases hmove with
  | rest => exact .refl
  | prepared i hissuance hunminted =>
      obtain ⟨-, -, hcheckIns⟩ := h.unknown hissuance
      refine { (refl : Later f f) with token := fun j token hj _ => ?_, handedOn := fun hchecked => ?_ }
      · rw [hissuance] at hj
        cases hj
      · exact absurd hcheckIns hchecked
  | minted i claim e hissuance hstatus howner htoken =>
      have hopen : i.status ≠ .issued := by
        rcases hstatus with hstatus | hstatus <;> simp [hstatus]
      obtain ⟨hunminted, -, -, -, hcheckIns⟩ := h.waiting hissuance hopen
      refine { (refl : Later f f) with
        token := fun j token hj hhas => ?_, evidence := List.prefix_append _ _
        handedOn := fun hchecked => absurd hcheckIns hchecked }
      obtain rfl := Option.some.inj (hissuance.symm.trans hj)
      rw [hunminted.token] at hhas
      cases hhas
  | asked i t hissuance hstatus htoken hproper hchecked hsource hopen hidle hcheckIns =>
      refine { (refl : Later f f) with
        confirmed := ?_
        transfers := fun n u hu => ⟨u, ?_, .refl⟩
        closed := fun hchecked => absurd hcheckIns hchecked
        handedOn := fun hchecked => absurd hcheckIns hchecked }
      · rw [TicketFile.confirmed, TicketFile.confirmed, List.filter_append]
        exact List.prefix_append _ _
      · exact (List.getElem?_append_left (List.getElem?_eq_some_iff.mp hu).1).trans hu
  | followed earlier t t' htransfers hstep =>
      refine { (refl : Later f f) with
        confirmed := ?_
        transfers := htransfers ▸ getElem?_concat (.of_step hstep)
        closed := fun _ => by simp [htransfers]
        handedOn := fun _ i hi => ⟨i, hi, .inl rfl⟩ }
      rw [TicketFile.confirmed, htransfers, List.filter_append, List.filter_singleton,
        TransferRequest.not_confirmed_of_active hstep.active, cond_false, List.append_nil,
        TicketFile.confirmed, List.filter_append]
      exact List.prefix_append _ _
  | handed i earlier t e now hissuance htransfers hsubmitted hhash htoken howner =>
      have hlive := TransferRequest.active_of_submitted hsubmitted
      have hended := (h.last htransfers).1
      refine { (refl : Later f f) with
        token := fun j token hj hhas => ⟨_, rfl, ?_⟩, evidence := List.prefix_append _ _
        confirmed := ?_
        transfers := htransfers ▸ getElem?_concat (.of_confirm hsubmitted)
        closed := fun _ => by simp [htransfers]
        handedOn := fun _ _ _ => ⟨_, rfl, .inr ⟨t, ?_, hlive, rfl, ?_⟩⟩ }
      · obtain rfl := Option.some.inj (hissuance.symm.trans hj)
        exact hhas
      · rw [TicketFile.confirmed, htransfers, List.filter_append, List.filter_singleton,
          TransferRequest.not_confirmed_of_active hlive, cond_false, List.append_nil,
          TicketFile.confirmed, List.filter_append]
        exact List.prefix_append _ _
      · exact htransfers ▸ List.mem_append_right _ (List.mem_singleton_self t)
      · exact List.forall_mem_append.mpr ⟨hended,
          List.forall_mem_singleton.mpr TransferRequest.active_confirm⟩
  | checkedIn i c hissuance hstatus hcheckIns =>
      refine { (refl : Later f f) with
        checkIns := hcheckIns ▸ List.nil_prefix
        closed := fun hchecked => absurd hcheckIns hchecked
        handedOn := fun hchecked => absurd hcheckIns hchecked }

end Later

end CrownFi.Transfers
