import CrownFi.Commerce.Amounts
import CrownFi.Commerce.Deliveries
import CrownFi.Commerce.Payments
import CrownFi.Lib.HighWater
import Mathlib.Data.Prod.Lex

/-!
# CrownFi.Commerce.Cursor

**The cursor of the reconciliation.** Each accepted evidence moves the cursor to its ledger and
paging token, unless the cursor is already there or further. Ledgers are compared as numbers,
tokens of one ledger as texts. A paging token is a number without a fixed width, and as a text
`10` stands before `9`: so the cursor is the highest position, in every order of the evidence,
exactly when the tokens of each ledger stand in the same order as texts and as numbers.
-/

namespace CrownFi.Commerce.Deliveries

open Lib CrownFi.Api Reconciliation

/-- Where a record stands: its ledger and its paging token. -/
def position (o : Observed) : Int × String := (o.ledgerSequence, o.pagingToken)

/-- Positions by ledger, and then by the number of the token. -/
def positionRank (p : Int × String) : Int ×ₗ Nat := toLex (p.1, digitsValue p.2.toList)

def rank (o : Observed) : Int ×ₗ Nat := positionRank (position o)

/-- The guard of the update. -/
def Newer (o o' : Observed) : Prop :=
  o.ledgerSequence < o'.ledgerSequence ∨
    (o.ledgerSequence = o'.ledgerSequence ∧ o.pagingToken < o'.pagingToken)

instance : DecidableRel Newer := fun _ _ => inferInstanceAs (Decidable (_ ∨ _))

/-- The stored cursor of the payments. -/
def cursor (db : Database) : Option (Int × String) :=
  (db.cursors.find? (·.consumerName = paymentCursor)).map fun c => (c.ledgerSequence, c.cursorValue)

/-- The cursor after these records were accepted, one after the other. -/
def acceptAll (db : Database) (records : List Observed) : Database :=
  records.foldl (fun db o => moveCursor o db) db

/-! ### One record -/

/-- The first record puts the cursor where it stands. -/
theorem cursor_moveCursor_none {db : Database} (hdb : cursor db = none) (o : Observed) :
    cursor (moveCursor o db) = some (position o) := by
  have hfind : db.cursors.find? (·.consumerName = paymentCursor) = none := Option.map_eq_none_iff.mp hdb
  have hany : db.cursors.any (·.consumerName = paymentCursor) = false :=
    List.any_eq_false.mpr (List.find?_eq_none.mp hfind)
  unfold cursor
  show ((if db.cursors.any (·.consumerName = paymentCursor) then _ else _ : List ChainCursor).find? _).map _ = _
  rw [hany, if_neg (by decide), List.find?_append, hfind]
  rfl

/-- A later record moves the cursor where it is newer. -/
theorem cursor_moveCursor {db : Database} {kept : Observed} (hdb : cursor db = some (position kept))
    (o : Observed) : cursor (moveCursor o db) = some (position (HighWater.keep Newer kept o)) := by
  have hkeeps : ∀ c : ChainCursor,
      decide ((ChainCursor.advance o.pagingToken o.ledgerSequence c).consumerName = paymentCursor) =
        decide (c.consumerName = paymentCursor) := by
    intro c
    unfold ChainCursor.advance
    split <;> rfl
  obtain ⟨c, hfind, hc⟩ := Option.map_eq_some_iff.mp hdb
  obtain ⟨hledger, htoken⟩ := Prod.mk.inj hc
  have hname : decide (c.consumerName = paymentCursor) = true := by
    simpa using List.find?_some hfind
  have hany : db.cursors.any (·.consumerName = paymentCursor) = true :=
    List.any_eq_true.mpr ⟨c, List.mem_of_find?_eq_some hfind, hname⟩
  unfold cursor
  show ((if db.cursors.any (·.consumerName = paymentCursor) then _ else _ : List ChainCursor).find? _).map _ = _
  rw [hany, if_pos rfl, find?_updateWhere hkeeps, hfind, Option.map_some, if_pos hname, Option.map_some]
  unfold ChainCursor.advance HighWater.keep
  rw [hledger, htoken]
  by_cases hnewer : Newer kept o
  · rw [if_pos hnewer, if_pos (show _ ∨ _ from hnewer)]
    rfl
  · rw [if_neg hnewer, if_neg (show ¬ (_ ∨ _) from hnewer), hledger, htoken]
    rfl

/-- **The stored cursor is a mark** that every accepted record moves. -/
theorem cursor_acceptAll {db : Database} (hdb : cursor db = none) (records : List Observed) :
    cursor (acceptAll db records) = (HighWater.mark Newer records).map position := by
  cases records with
  | nil => exact hdb
  | cons first records =>
      show cursor (acceptAll db (first :: records)) = some (position _)
      induction records using List.reverseRecOn with
      | nil => exact cursor_moveCursor_none hdb first
      | append_singleton records o ih =>
          rw [← List.cons_append, acceptAll, List.foldl_append, List.foldl_append]
          exact cursor_moveCursor ih o

/-! ### Texts and numbers -/

/-- The tokens of each ledger stand in the same order as texts and as numbers. -/
def TextOrder (records : List Observed) : Prop :=
  ∀ o ∈ records, ∀ o' ∈ records, o.ledgerSequence = o'.ledgerSequence → o.pagingToken < o'.pagingToken →
    digitsValue o.pagingToken.toList ≤ digitsValue o'.pagingToken.toList

theorem rank_le {o o' : Observed} : rank o ≤ rank o' ↔ o.ledgerSequence < o'.ledgerSequence ∨
    (o.ledgerSequence = o'.ledgerSequence ∧
      digitsValue o.pagingToken.toList ≤ digitsValue o'.pagingToken.toList) :=
  Prod.Lex.toLex_le_toLex

theorem textOrder_iff {records : List Observed} :
    TextOrder records ↔ ∀ o ∈ records, ∀ o' ∈ records, HighWater.Agrees rank Newer o o' := by
  constructor
  · intro h o ho o' ho'
    constructor
    · intro hnewer
      rcases hnewer with hless | ⟨hsame, hless⟩
      · exact rank_le.mpr (.inl hless)
      · exact rank_le.mpr (.inr ⟨hsame, h o ho o' ho' hsame hless⟩)
    · intro holder
      obtain ⟨hnotless, holder⟩ := not_or.mp holder
      rcases lt_or_eq_of_le (not_lt.mp hnotless) with hless | hsame
      · exact rank_le.mpr (.inl hless)
      · have hnotbefore : ¬ o.pagingToken < o'.pagingToken := fun hless => holder ⟨hsame.symm, hless⟩
        by_cases hless : o'.pagingToken < o.pagingToken
        · exact rank_le.mpr (.inr ⟨hsame, h o' ho' o ho hsame hless⟩)
        · have heq : o'.pagingToken = o.pagingToken :=
            String.le_antisymm (String.not_lt.mp hnotbefore) (String.not_lt.mp hless)
          exact rank_le.mpr (.inr ⟨hsame, by rw [heq]⟩)
  · intro h o ho o' ho' hsame hless
    rcases rank_le.mp ((h o ho o' ho').later (.inr ⟨hsame, hless⟩)) with hledger | hvalue
    · exact absurd hsame hledger.ne
    · exact hvalue.2

/-- Among digits of one length the texts stand in the order of the numbers. -/
theorem digitsValue_le_of_lt {cs ds : List Char} (hcs : cs.all isDigit = true) (hds : ds.all isDigit = true)
    (hlength : cs.length = ds.length) (h : cs < ds) : digitsValue cs ≤ digitsValue ds := by
  induction cs generalizing ds with
  | nil =>
      cases ds with
      | nil => exact absurd h (List.lt_irrefl _)
      | cons d ds => cases hlength
  | cons c cs ih =>
      cases ds with
      | nil => cases hlength
      | cons d ds =>
          have hshort : cs.length = ds.length := Nat.succ.inj hlength
          rw [List.all_cons, Bool.and_eq_true] at hcs hds
          have hhead : ∀ (e : Char) (es : List Char),
              digitsValue (e :: es) = (e.toNat - 48) * 10 ^ es.length + digitsValue es := by
            intro e es
            have hone : digitsValue [e] = e.toNat - 48 := by simp [digitsValue]
            rw [← List.singleton_append, digitsValue_append, hone]
          have hbelow : digitsValue cs < 10 ^ ds.length := hshort ▸ digitsValue_lt hcs.2
          rw [hhead, hhead, hshort]
          rcases List.cons_lt_cons_iff.mp h with hless | ⟨rfl, hless⟩
          · have hchars : c.toNat < d.toNat := hless
            have hdigit : 48 ≤ c.toNat := by
              have hdigit := hcs.1
              simp only [isDigit, Bool.and_eq_true, decide_eq_true_eq, Char.le_def,
                UInt32.le_iff_toNat_le] at hdigit
              exact hdigit.1
            calc (c.toNat - 48) * 10 ^ ds.length + digitsValue cs
                ≤ (c.toNat - 48) * 10 ^ ds.length + 10 ^ ds.length := by omega
              _ = (c.toNat - 48 + 1) * 10 ^ ds.length := by rw [Nat.add_mul, Nat.one_mul]
              _ ≤ (d.toNat - 48) * 10 ^ ds.length := Nat.mul_le_mul_right _ (by omega)
              _ ≤ (d.toNat - 48) * 10 ^ ds.length + digitsValue ds := Nat.le_add_right _ _
          · exact Nat.add_le_add_left (ih hcs.2 hds.2 hshort hless) _

/-- Tokens of as many digits in each ledger stand in one order. -/
theorem TextOrder.of_length {records : List Observed}
    (hdigits : ∀ o ∈ records, o.pagingToken.toList.all isDigit = true)
    (hlength : ∀ o ∈ records, ∀ o' ∈ records, o.ledgerSequence = o'.ledgerSequence →
      o.pagingToken.toList.length = o'.pagingToken.toList.length) : TextOrder records := by
  intro o ho o' ho' hsame hless
  exact digitsValue_le_of_lt (hdigits o ho) (hdigits o' ho') (hlength o ho o' ho' hsame)
    (String.lt_iff.mp hless)

/-! ### All orders -/

/-- The stored cursor is where the highest of these records stands. -/
def AtHighest (records : List Observed) (db : Database) : Prop :=
  ∃ o, HighWater.Highest rank records o ∧ cursor db = some (position o)

theorem atHighest_iff {db : Database} (hdb : cursor db = none) {records : List Observed} {o : Observed}
    (ho : HighWater.mark Newer records = some o) :
    AtHighest records (acceptAll db records) ↔ HighWater.Highest rank records o := by
  have hcursor : cursor (acceptAll db records) = some (position o) := by
    rw [cursor_acceptAll hdb, ho, Option.map_some]
  constructor
  · intro ⟨o', hhighest, ho'⟩
    have hsame : position o' = position o := Option.some.inj (ho'.symm.trans hcursor)
    refine ⟨HighWater.mark_mem ho, fun x hx => ?_⟩
    calc rank x ≤ rank o' := hhighest.le x hx
      _ = rank o := congrArg positionRank hsame
  · intro hhighest
    exact ⟨o, hhighest, hcursor⟩

/-- **The cursor is at the highest position after every record, in every order of them**, exactly
where the tokens of each ledger stand in the same order as texts and as numbers; and then the last
cursor has the same rank in every order. -/
theorem cursor_highest_iff {db : Database} (hdb : cursor db = none) (records : List Observed) :
    ((∀ order : List Observed, order.Perm records → ∀ accepted, accepted <+: order → accepted ≠ [] →
      AtHighest accepted (acceptAll db accepted)) ↔ TextOrder records) ∧
    (TextOrder records → ∀ order order' : List Observed, order.Perm records → order'.Perm records →
      (cursor (acceptAll db order)).map positionRank = (cursor (acceptAll db order')).map positionRank) := by
  have hsome : ∀ {accepted : List Observed}, accepted ≠ [] → ∃ o, HighWater.mark Newer accepted = some o := by
    intro accepted hne
    cases accepted with
    | nil => exact absurd rfl hne
    | cons o rest => exact ⟨_, rfl⟩
  have hall : TextOrder records → ∀ order : List Observed, order.Perm records → ∀ accepted,
      accepted <+: order → accepted ≠ [] → AtHighest accepted (acceptAll db accepted) := by
    intro h order horder accepted haccepted hne
    obtain ⟨o, ho⟩ := hsome hne
    rw [atHighest_iff hdb ho]
    exact HighWater.highest_iff.mpr (textOrder_iff.mp h) order horder accepted haccepted o ho
  refine ⟨⟨fun h => ?_, hall⟩, ?_⟩
  · rw [textOrder_iff, ← HighWater.highest_iff]
    intro order horder first hfirst o ho
    have hne : first ≠ [] := by
      rintro rfl
      cases ho
    exact (atHighest_iff hdb ho).mp (h order horder first hfirst hne)
  · intro h order order' horder horder'
    by_cases hne : records = []
    · rw [hne] at horder horder'
      rw [horder.eq_nil, horder'.eq_nil]
    · obtain ⟨o, ho, hcursor⟩ := hall h order horder order (List.prefix_refl _) fun hnil =>
        hne (List.nil_perm.mp (hnil ▸ horder))
      obtain ⟨o', ho', hcursor'⟩ := hall h order' horder' order' (List.prefix_refl _) fun hnil =>
        hne (List.nil_perm.mp (hnil ▸ horder'))
      have hrank : rank o = rank o' := ho.rank_eq ho' fun x =>
        (horder.mem_iff.trans horder'.mem_iff.symm)
      rw [hcursor, hcursor']
      exact congrArg some hrank

/-- Evidence at this position. -/
def evidenceAt (ledger : Int) (token : String) : Observed where
  txHash := ""
  ledgerSequence := ledger
  operationIndex := 0
  pagingToken := token
  source := ""
  destination := ""
  amountMinor := 1
  asset := ⟨"XLM", 7, none⟩
  memo := ""
  successful := true
  closedAt := 0

/-- The tokens of two payments in one ledger, of as many digits. -/
theorem cursor_highest_same_length :
    (∀ order : List Observed, order.Perm [evidenceAt 2 "8589938689", evidenceAt 2 "8589942785"] →
      ∀ accepted, accepted <+: order → accepted ≠ [] → AtHighest accepted (acceptAll shopDatabase accepted)) ↔
    TextOrder [evidenceAt 2 "8589938689", evidenceAt 2 "8589942785"] :=
  (cursor_highest_iff (by decide) _).1

/-- The token has one digit more than the token before it in the same ledger: the cursor stays
behind, and in the other order it moves back. -/
theorem cursor_text_order : ¬ ∀ (db : Database) (records : List Observed), cursor db = none →
    ∀ accepted, accepted <+: records → accepted ≠ [] → AtHighest accepted (acceptAll db accepted) := by
  intro h
  have hpast := h shopDatabase [evidenceAt 2 "9999998977", evidenceAt 2 "10000003073"] (by decide) _
    (List.prefix_refl _) (by decide)
  obtain ⟨o, hhighest, hcursor⟩ := hpast
  have hstays : cursor (acceptAll shopDatabase [evidenceAt 2 "9999998977", evidenceAt 2 "10000003073"]) =
      some (2, "9999998977") := by decide +kernel
  have hposition : position o = (2, "9999998977") := Option.some.inj (hcursor.symm.trans hstays)
  have hle := hhighest.le (evidenceAt 2 "10000003073") (by simp)
  rw [rank, rank, hposition] at hle
  exact absurd hle (by decide +kernel)

end CrownFi.Commerce.Deliveries
