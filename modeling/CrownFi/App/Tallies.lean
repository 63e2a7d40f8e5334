import CrownFi.App.Votes
import CrownFi.Lib.Histories
import CrownFi.Lib.Text
import Mathlib

/-!
# CrownFi.App.Tallies

**What the tally says about the votes.** A run of the system is told by its moves: the votes that were
accepted, and those that were counted. In every state of every run the two differ by the votes that
are between the two critical sections of their request (`Accounted`). So a tally never has a vote too
many, and lacks exactly the votes that are on their way (`tally_exact`); and no two accepted votes have
the same receipt (`receipts_distinct`).
-/

namespace CrownFi.App

open Lib Api

variable {config : Config} {sha256 : Sha256} {cat : Catalogue} {w w' : World} {m : Move} {moves : List Move}

/-! ### The votes of a run -/

def Move.accepted : Move → Option Vote
  | .accept eventId body => some (body.vote eventId)
  | _ => none

def Move.counted : Move → Option Vote
  | .count v => some v
  | _ => none

/-- The votes that were accepted, in order. -/
def accepted (moves : List Move) : List Vote := moves.filterMap Move.accepted

def counted (moves : List Move) : List Vote := moves.filterMap Move.counted

/-- Those of one event and category. -/
def inBucket (eventId categoryId : String) (votes : List Vote) : List Vote :=
  votes.filter (·.bucket = (eventId, categoryId))

/-- A vote for a contestant of an open category of the event. -/
def Eligible (cat : Catalogue) (v : Vote) : Prop :=
  ∃ category contestant, cat.category v.categoryId = some category ∧ category.eventId = v.eventId ∧
    category.votingStatus = "open" ∧ cat.contestant v.contestantId = some contestant ∧
    contestant.eventId = v.eventId ∧ contestant.categoryId = v.categoryId

theorem admitVote_ok {eventId : String} {body : VoteRequest} {votes votes' : List VoteKey}
    (h : admitVote cat eventId body votes = .ok votes') :
    Eligible cat (body.vote eventId) ∧ (body.vote eventId).key ∉ votes ∧
      votes' = votes ++ [(body.vote eventId).key] := by
  simp only [admitVote, bind_eq_ok, okOr_eq_ok, failIf_eq_ok, pure_eq_ok, not_not, not_or] at h
  obtain ⟨category, hcategory, _, hevent, _, hopen, contestant, hcontestant, _, ⟨hevent', hcategory'⟩, _, hnew,
    rfl⟩ := h
  exact ⟨⟨category, contestant, hcategory, hevent, hopen, hcontestant, hevent', hcategory'⟩, hnew, rfl⟩

/-! ### What is accounted for -/

/-- The memory agrees with the moves. -/
structure Accounted (cat : Catalogue) (moves : List Move) (w : World) : Prop where
  eligible : ∀ v ∈ accepted moves, Eligible cat v
  votes : w.votes = (accepted moves).map Vote.key
  nodup : w.votes.Nodup
  split : (accepted moves).Perm (counted moves ++ w.pending)
  counts : ∀ eventId categoryId, Counts (w.tally (eventId, categoryId))
    ((inBucket eventId categoryId (counted moves)).map Vote.contestantId)

theorem accounted_empty : Accounted cat [] World.empty where
  eligible _ h := absurd h List.not_mem_nil
  votes := rfl
  nodup := List.nodup_nil
  split := .refl _
  counts _ _ := .nil

/-- A move that neither accepts nor counts a vote. -/
theorem Accounted.same (h : Accounted cat moves w) (haccepted : m.accepted = none) (hcounted : m.counted = none)
    (hvotes : w'.votes = w.votes) (htally : w'.tally = w.tally) (hpending : w'.pending = w.pending) :
    Accounted cat (moves ++ [m]) w' := by
  have hsame : accepted (moves ++ [m]) = accepted moves := by simp [accepted, haccepted]
  have hsame' : counted (moves ++ [m]) = counted moves := by simp [counted, hcounted]
  constructor
  · exact hsame ▸ h.eligible
  · rw [hsame, hvotes, h.votes]
  · exact hvotes ▸ h.nodup
  · rw [hsame, hsame', hpending]
    exact h.split
  · rw [hsame', htally]
    exact h.counts

/-- **Every critical section keeps the accounts.** -/
theorem Accounted.step (h : Accounted cat moves w) (hstep : Step config sha256 cat w m w') :
    Accounted cat (moves ++ [m]) w' := by
  cases hstep with
  | @accept eventId body votes hadmit =>
      obtain ⟨heligible, hnew, rfl⟩ := admitVote_ok hadmit
      have haccepted : accepted (moves ++ [.accept eventId body]) = accepted moves ++ [body.vote eventId] := by
        simp [accepted, Move.accepted]
      have hcounted : counted (moves ++ [.accept eventId body]) = counted moves := by
        simp [counted, Move.counted]
      constructor
      · intro v hv
        rw [haccepted] at hv
        rcases List.mem_append.mp hv with hv | hv
        · exact h.eligible v hv
        · exact List.mem_singleton.mp hv ▸ heligible
      · rw [haccepted, List.map_append, ← h.votes]
        rfl
      · exact List.concat_eq_append ▸ h.nodup.concat hnew
      · rw [haccepted, hcounted, ← List.append_assoc]
        exact h.split.append_right _
      · rw [hcounted]
        exact h.counts
  | @count v hv =>
      have haccepted : accepted (moves ++ [.count v]) = accepted moves := by simp [accepted, Move.accepted]
      have hcounted : counted (moves ++ [.count v]) = counted moves ++ [v] := by simp [counted, Move.counted]
      constructor
      · exact haccepted ▸ h.eligible
      · rw [haccepted, h.votes]
      · exact h.nodup
      · rw [haccepted, hcounted, List.append_assoc]
        exact h.split.trans ((List.perm_cons_erase hv).append_left _)
      · intro eventId categoryId
        rw [hcounted, inBucket, List.filter_append, List.map_append, ← inBucket]
        by_cases hbucket : v.bucket = (eventId, categoryId)
        · simp only [countVote, hbucket, if_true, List.filter_cons, decide_true, List.filter_nil, List.map_cons,
            List.map_nil]
          exact (h.counts eventId categoryId).bump v.contestantId
        · simp only [countVote, Ne.symm hbucket, if_false, List.filter_cons, hbucket, decide_false,
            Bool.false_eq_true, List.filter_nil, List.map_nil, List.append_nil]
          exact h.counts eventId categoryId
  | draft _ _ => exact h.same rfl rfl rfl rfl rfl
  | store _ => exact h.same rfl rfl rfl rfl rfl
  | anchor _ => exact h.same rfl rfl rfl rfl rfl

theorem run_accounted (h : Run (Step config sha256 cat) .empty moves w) : Accounted cat moves w :=
  h.history accounted_empty fun _ _ _ _ _ haccounted hstep => haccounted.step hstep

/-! ### The answer -/

theorem before_total (a b : TallyEntry) : a.Before b ∨ b.Before a := by
  rcases lt_trichotomy a.votes b.votes with hlt | heq | hgt
  · exact .inr (.inl hlt)
  · rcases le_total a.contestantId b.contestantId with hle | hle
    · exact .inl (.inr ⟨heq, hle⟩)
    · exact .inr (.inr ⟨heq.symm, hle⟩)
  · exact .inl (.inl hgt)

theorem before_trans {a b c : TallyEntry} (hab : a.Before b) (hbc : b.Before c) : a.Before c := by
  rcases hab with hab | ⟨hab, hle⟩ <;> rcases hbc with hbc | ⟨hbc, hle'⟩
  · exact .inl (hbc.trans hab)
  · exact .inl (hbc ▸ hab)
  · exact .inl (hab.symm ▸ hbc)
  · exact .inr ⟨hab.trans hbc, hle.trans hle'⟩

theorem before_antisymm {a b : TallyEntry} (hab : a.Before b) (hba : b.Before a) : a = b := by
  rcases hab with hab | ⟨hvotes, hle⟩ <;> rcases hba with hba | ⟨hvotes', hle'⟩
  · exact absurd hab hba.asymm
  · exact absurd hvotes' hab.ne
  · exact absurd hvotes hba.ne
  · obtain ⟨id, votes⟩ := a
    exact congrArg₂ TallyEntry.mk (le_antisymm hle hle') hvotes

instance : Std.Total TallyEntry.Before := ⟨before_total⟩

instance : IsTrans TallyEntry TallyEntry.Before := ⟨fun _ _ _ => before_trans⟩

theorem tallyEntries_perm (bucket : List (String × Nat)) :
    (tallyEntries bucket).Perm (bucket.map fun c => (⟨c.1, c.2⟩ : TallyEntry)) :=
  List.perm_insertionSort _ _

theorem tallyEntries_sorted (bucket : List (String × Nat)) : (tallyEntries bucket).Pairwise TallyEntry.Before :=
  List.pairwise_insertionSort _ _

theorem mem_tallyEntries {bucket : List (String × Nat)} {entry : TallyEntry} :
    entry ∈ tallyEntries bucket ↔ (entry.contestantId, entry.votes) ∈ bucket := by
  rw [(tallyEntries_perm bucket).mem_iff, List.mem_map]
  constructor
  · rintro ⟨c, hc, rfl⟩
    exact hc
  · exact fun hentry => ⟨_, hentry, rfl⟩

/-- The order in which a bucket is walked has no effect. -/
theorem buildTally_perm {tally tally' : Tally} {eventId categoryId : String}
    (h : (tally (eventId, categoryId)).Perm (tally' (eventId, categoryId))) :
    buildTally tally eventId categoryId = buildTally tally' eventId categoryId := by
  have hperm : (tallyEntries (tally (eventId, categoryId))).Perm (tallyEntries (tally' (eventId, categoryId))) :=
    (tallyEntries_perm _).trans ((h.map _).trans (tallyEntries_perm _).symm)
  have hentries := hperm.eq_of_pairwise (fun _ _ _ _ => before_antisymm) (tallyEntries_sorted _)
    (tallyEntries_sorted _)
  rw [buildTally, buildTally, hentries]

/-- The answer tells these votes, but for those that wait: an entry for each contestant who has one that
does not wait, with their number, the most first. -/
structure TallyResponse.Tells (tally : TallyResponse) (votes waiting : List Vote) : Prop where
  total : tally.totalVotes + waiting.length = votes.length
  entry_iff : ∀ entry : TallyEntry, entry ∈ tally.entries ↔ 0 < entry.votes ∧
    entry.votes + (waiting.map Vote.contestantId).count entry.contestantId =
      (votes.map Vote.contestantId).count entry.contestantId
  sorted : tally.entries.Pairwise TallyEntry.Before
  nodup : (tally.entries.map TallyEntry.contestantId).Nodup

theorem Accounted.tells (h : Accounted cat moves w) (eventId categoryId : String) :
    (buildTally w.tally eventId categoryId).Tells (inBucket eventId categoryId (accepted moves))
      (inBucket eventId categoryId w.pending) := by
  have hcounts := h.counts eventId categoryId
  have hsplit : (inBucket eventId categoryId (accepted moves)).Perm
      (inBucket eventId categoryId (counted moves) ++ inBucket eventId categoryId w.pending) := by
    rw [inBucket, inBucket, inBucket, ← List.filter_append]
    exact h.split.filter _
  constructor
  · have htotal : (buildTally w.tally eventId categoryId).totalVotes =
        (inBucket eventId categoryId (counted moves)).length := by
      calc (buildTally w.tally eventId categoryId).totalVotes
          = (((w.tally (eventId, categoryId)).map fun c => (⟨c.1, c.2⟩ : TallyEntry)).map (·.votes)).sum :=
            ((tallyEntries_perm _).map _).sum_nat
        _ = ((w.tally (eventId, categoryId)).map Prod.snd).sum := by rw [List.map_map]; rfl
        _ = (inBucket eventId categoryId (counted moves)).length := by rw [hcounts.sum, List.length_map]
    rw [htotal, hsplit.length_eq, List.length_append]
  · intro entry
    have hcount := (hsplit.map Vote.contestantId).count_eq entry.contestantId
    rw [List.map_append, List.count_append] at hcount
    rw [hcount, Nat.add_right_cancel_iff]
    exact mem_tallyEntries.trans hcounts.mem_entry_iff
  · exact tallyEntries_sorted _
  · have hkeys := (tallyEntries_perm (w.tally (eventId, categoryId))).map TallyEntry.contestantId
    rw [List.map_map] at hkeys
    exact hkeys.nodup_iff.mpr hcounts.nodup

/-- **The tally is exact** but for the votes on their way, and the votes it tells are those of people who
were allowed to cast them, each one a category. -/
theorem tally_exact (hrun : Run (Step config sha256 cat) .empty moves w) (eventId categoryId : String) :
    (buildTally w.tally eventId categoryId).Tells (inBucket eventId categoryId (accepted moves))
        (inBucket eventId categoryId w.pending) ∧
      (∀ v ∈ accepted moves, Eligible cat v) ∧ ((accepted moves).map Vote.key).Nodup := by
  have haccounted := run_accounted hrun
  exact ⟨haccounted.tells eventId categoryId, haccounted.eligible, haccounted.votes ▸ haccounted.nodup⟩

/-! ### Receipts -/

/-- The text that is hashed for a receipt. -/
def Vote.text (v : Vote) : String := "|".intercalate v.parts

theorem Vote.text_toList (v : Vote) :
    v.text.toList = v.eventId.toList ++ '|' :: (v.categoryId.toList ++ '|' ::
      (v.voterId.toList ++ '|' :: v.contestantId.toList)) := by
  change (v.eventId ++ "|" ++ v.categoryId ++ "|" ++ v.voterId ++ "|" ++ v.contestantId).toList = _
  simp

/-- No id of the catalogue has a bar. -/
structure Catalogue.Plain (cat : Catalogue) : Prop where
  categories : ∀ c ∈ cat.categories, '|' ∉ c.id.toList ∧ '|' ∉ c.eventId.toList
  contestants : ∀ c ∈ cat.contestants, '|' ∉ c.id.toList

/-- Where a bar in a vote's text can be. -/
theorem Eligible.plain {v : Vote} (h : Eligible cat v) (hplain : cat.Plain) :
    '|' ∉ v.eventId.toList ∧ '|' ∉ v.categoryId.toList ∧ '|' ∉ v.contestantId.toList := by
  obtain ⟨category, contestant, hcategory, hevent, -, hcontestant, -, -⟩ := h
  have hid : category.id = v.categoryId := by simpa using List.find?_some hcategory
  have hid' : contestant.id = v.contestantId := by simpa using List.find?_some hcontestant
  obtain ⟨hbar, hbar'⟩ := hplain.categories category (List.mem_of_find?_eq_some hcategory)
  exact ⟨hevent ▸ hbar', hid ▸ hbar, hid' ▸ hplain.contestants contestant (List.mem_of_find?_eq_some hcontestant)⟩

/-- The text gives the vote back, whatever the voter is called. -/
theorem Vote.text_inj {u v : Vote} (hplain : cat.Plain) (hu : Eligible cat u) (hv : Eligible cat v)
    (h : u.text = v.text) : u = v := by
  obtain ⟨hevent, hcategory, hcontestant⟩ := hu.plain hplain
  obtain ⟨hevent', hcategory', hcontestant'⟩ := hv.plain hplain
  have hlist := congrArg String.toList h
  rw [Vote.text_toList, Vote.text_toList] at hlist
  obtain ⟨heq, hlist⟩ := append_cons_inj hevent hevent' hlist
  obtain ⟨heq', hlist⟩ := append_cons_inj hcategory hcategory' hlist
  obtain ⟨heq'', heq'''⟩ := append_cons_inj_right hcontestant hcontestant' hlist
  obtain ⟨eventId, categoryId, voterId, contestantId⟩ := u
  rw [String.toList_inj] at heq heq' heq'' heq'''
  subst heq heq' heq'' heq'''
  rfl

/-- **No two accepted votes have one receipt**: their leaf hashes differ. -/
theorem receipts_distinct (hrun : Run (Step config sha256 cat) .empty moves w) (hplain : cat.Plain)
    (hcollision : CollisionFree sha256 {t | ∃ v ∈ accepted moves, t = v.text}) :
    ((accepted moves).map (Vote.leafHash sha256)).Nodup := by
  have haccounted := run_accounted hrun
  have hkeys : ((accepted moves).map Vote.key).Nodup := haccounted.votes ▸ haccounted.nodup
  refine (hkeys.of_map Vote.key).map_on fun u hu v hv heq => ?_
  have htext : u.text = v.text := hcollision.hashText_injOn ⟨u, hu, rfl⟩ ⟨v, hv, rfl⟩ heq
  exact Vote.text_inj hplain (haccounted.eligible u hu) (haccounted.eligible v hv) htext

/-! ### Two votes of the seeded event -/

/-- What `AppState::new` fills in. -/
def seeded : Catalogue where
  events := ["coronation-night-2026"]
  categories := [⟨"fan-choice", "coronation-night-2026", "open"⟩]
  contestants := ["phl", "jpn", "tha"].map fun id => ⟨id, "coronation-night-2026", "fan-choice"⟩

theorem seeded_plain : seeded.Plain where
  categories := by decide
  contestants := by decide

def seededConfig : Config where
  apiMode := "mock"
  stellarMode := "mock"
  adminDemoToken := "demo-admin"

def ballot (voterId : String) : VoteRequest := ⟨"fan-choice", voterId, "phl"⟩

def ballotVote (voterId : String) : Vote := (ballot voterId).vote "coronation-night-2026"

/-- SHA-256, as far as the two votes need it. -/
def ballotSha256 : Sha256 := fun value =>
  if value = (ballotVote "ana").text.toUTF8 then
    bytesOf 0xc46ddbeefb39ab391e46d2df76fd9bca71e6a80953830017f3a8fa0ca7289ce3
  else bytesOf 0x037ea538a9a677dd47d1eb3b381814ca42e80fd54c81791241cc6a423cc33884

/-- Both are accepted, and one has been counted. -/
def ballotMoves : List Move :=
  [.accept "coronation-night-2026" (ballot "ana"), .accept "coronation-night-2026" (ballot "ben"),
    .count (ballotVote "ana")]

def ballotWorld : World where
  votes := [(ballotVote "ana").key, (ballotVote "ben").key]
  tally := countVote (ballotVote "ana") fun _ => []
  snapshots := []
  pending := [ballotVote "ben"]
  drafts := []

theorem ballots_run (sha256 : Sha256) : Run (Step seededConfig sha256 seeded) .empty ballotMoves ballotWorld := by
  have hana : Step seededConfig sha256 seeded .empty (.accept "coronation-night-2026" (ballot "ana"))
      ⟨[(ballotVote "ana").key], fun _ => [], [], [ballotVote "ana"], []⟩ := .accept rfl
  have hben : Step seededConfig sha256 seeded
      ⟨[(ballotVote "ana").key], fun _ => [], [], [ballotVote "ana"], []⟩
      (.accept "coronation-night-2026" (ballot "ben"))
      ⟨[(ballotVote "ana").key, (ballotVote "ben").key], fun _ => [], [],
        [ballotVote "ana", ballotVote "ben"], []⟩ := .accept rfl
  have hcount : Step seededConfig sha256 seeded
      ⟨[(ballotVote "ana").key, (ballotVote "ben").key], fun _ => [], [],
        [ballotVote "ana", ballotVote "ben"], []⟩ (.count (ballotVote "ana")) ballotWorld :=
    .count List.mem_cons_self
  exact ((Run.single hana).tail hben).tail hcount

theorem ballotSha256_collisionFree :
    CollisionFree ballotSha256 {t | ∃ v ∈ accepted ballotMoves, t = v.text} := by
  have hbytes : (ballotVote "ben").text.toUTF8 ≠ (ballotVote "ana").text.toUTF8 := fun heq =>
    absurd (String.toByteArray_inj.mp heq) (by decide +kernel)
  have hana : ballotSha256 (ballotVote "ana").text.toUTF8 = _ := if_pos rfl
  have hben : ballotSha256 (ballotVote "ben").text.toUTF8 = _ := if_neg hbytes
  have htexts : ∀ t, (∃ v ∈ accepted ballotMoves, t = v.text) →
      t = (ballotVote "ana").text ∨ t = (ballotVote "ben").text := by
    rintro t ⟨v, hv, rfl⟩
    rcases List.mem_cons.mp hv with rfl | hv
    · exact .inl rfl
    · exact .inr (congrArg Vote.text (List.mem_singleton.mp hv))
  rintro _ ⟨s, hs, rfl⟩ _ ⟨t, ht, rfl⟩ heq
  rcases htexts s hs with rfl | rfl <;> rcases htexts t ht with rfl | rfl
  · rfl
  · rw [hana, hben] at heq
    exact absurd heq (by decide +kernel)
  · rw [hana, hben] at heq
    exact absurd heq (by decide +kernel)
  · rfl

theorem ballots_told :
    (buildTally ballotWorld.tally "coronation-night-2026" "fan-choice").Tells
        (inBucket "coronation-night-2026" "fan-choice" (accepted ballotMoves))
        (inBucket "coronation-night-2026" "fan-choice" ballotWorld.pending) ∧
      (∀ v ∈ accepted ballotMoves, Eligible seeded v) ∧ ((accepted ballotMoves).map Vote.key).Nodup :=
  tally_exact (ballots_run ballotSha256) "coronation-night-2026" "fan-choice"

theorem ballots_distinct : ((accepted ballotMoves).map (Vote.leafHash ballotSha256)).Nodup :=
  receipts_distinct (ballots_run ballotSha256) seeded_plain ballotSha256_collisionFree

end CrownFi.App
