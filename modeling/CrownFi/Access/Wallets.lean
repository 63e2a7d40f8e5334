import CrownFi.Access.Challenges

/-!
# CrownFi.Access.Wallets

**Whose wallet it is**, in every interleaving of the requests.

Three things keep the tables in order. The update of a consumption locks the challenge, so whoever comes
second finds it consumed. A wallet is registered under the lock of its address, and a primary one also
under that of its user and network: the unique indexes. And what is refused is rolled back, the consumption
included. So an address stays with the user that it was registered for, everybody who has wallets on a
network has one primary wallet there, and a challenge is good for one consumption (`wallets_kept`).
-/

namespace CrownFi.Access.Wallets

open Api Lib

variable {site : Access.Site} {rfc3339 : Int → Option String} {db db' db'' : Database} {L held held' : List (Lock Row)}

/-! ### The tables in order -/

/-- The accounts are in order: an address is there once, and whoever has accounts has a primary one. -/
structure Registry (accounts : List StellarAccount) : Prop where
  addresses : (accounts.map accountTable.key).Nodup
  primary : ∀ a ∈ accounts, accounts.countP
    (fun b => b.userId = a.userId && b.network = a.network && b.isPrimary) = 1

structure Consistent (db : Database) : Prop where
  challengeIds : (db.challenges.map (·.id)).Nodup
  registry : Registry db.stellarAccounts

/-- What becomes of a challenge: it is consumed, at most once and before it expires. -/
def Ages (c c' : WalletAuthChallenge) : Prop :=
  c' = c ∨ (c.consumedAt = none ∧ ∃ now < c.expiresAt, c' = { c with consumedAt := some now })

instance : IsPreorder WalletAuthChallenge Ages where
  refl _ := .inl rfl
  trans := by
    rintro c c' c'' (rfl | ⟨hnone, now, hnow, rfl⟩) h'
    · exact h'
    · rcases h' with rfl | ⟨hsome, -⟩
      · exact .inr ⟨hnone, now, hnow, rfl⟩
      · cases hsome

/-- What becomes of an account: it is verified. -/
def Stays (a a' : StellarAccount) : Prop := a' = { a with verified := a'.verified }

instance : IsPreorder StellarAccount Stays where
  refl _ := rfl
  trans := by
    intro a a' a'' h h'
    rw [Stays] at *
    rw [h', h]

/-! ### What a commit may do -/

/-- A commit under the locks `L`, as far as it is about accounts. -/
structure Registers (L : List (Lock Row)) (db db' : Database) : Prop where
  addresses : ∀ network address, NotWritten L (.address network address) →
    accountTable.find db' (network, address) = accountTable.find db (network, address)
  stays : accountTable.Grows Stays db db'
  primaries : ∀ userId network, NotWritten L (.primary userId network) →
    db'.primaries userId network = db.primaries userId network
  kept : ∀ userId network, db.primaries userId network ≤ db'.primaries userId network

structure Guarantee (L : List (Lock Row)) (db db' : Database) : Prop where
  challenges : ∀ id, NotWritten L (.challenge id) → challengeTable.find db' id = challengeTable.find db id
  ages : challengeTable.Grows Ages db db'
  registers : Registers L db db'

/-- A consumption: of a challenge that nobody has consumed, before it expires, with exactly what it was
issued for. -/
structure Consumes (site : Access.Site) (challengeId : Uuid) (body : ConsumeChallengeRequest)
    (db db' : Database) : Prop where
  challenge : ∃ c, challengeTable.find db challengeId = some c ∧ c.consumedAt = none ∧
    validateAddress body.address = .ok c.address ∧ site.validateNetwork body.network = .ok c.network ∧
    body.message = c.message ∧ body.requestedUserId = c.requestedUserId ∧
    ∃ now < c.expiresAt, challengeTable.find db' challengeId = some { c with consumedAt := some now }
  others : ∀ id ≠ challengeId, challengeTable.find db' id = challengeTable.find db id

/-- What the commit of a call may do. -/
def Call.Commits (site : Access.Site) (call : Call) (L : List (Lock Row)) (db db' : Database) : Prop :=
  Guarantee L db db' ∧
    match call with
    | .consumeWalletChallenge challengeId body _ _ => Consumes site challengeId body db db'
    | _ => True

theorem Registers.of_same (h : db'.stellarAccounts = db.stellarAccounts) : Registers L db db' := by
  have hfind (key : Network × String) : accountTable.find db' key = accountTable.find db key := by
    show db'.stellarAccounts.find? _ = db.stellarAccounts.find? _
    rw [h]
  have hcount (userId : Uuid) (network : Network) : db'.primaries userId network = db.primaries userId network := by
    rw [Database.primaries, h, Database.primaries]
  exact ⟨fun _ _ _ => hfind _, .of_find hfind, fun _ _ _ => hcount _ _, fun _ _ => (hcount _ _).ge⟩

theorem Registers.congr {d d' : Database} (h : Registers L d d') (hbefore : d.stellarAccounts = db.stellarAccounts)
    (hafter : d'.stellarAccounts = db'.stellarAccounts) : Registers L db db' := by
  have hfind {x y : Database} (hxy : x.stellarAccounts = y.stellarAccounts) (key : Network × String) :
      accountTable.find x key = accountTable.find y key := by
    show x.stellarAccounts.find? _ = y.stellarAccounts.find? _
    rw [hxy]
  have hcount {x y : Database} (hxy : x.stellarAccounts = y.stellarAccounts) (userId : Uuid) (network : Network) :
      x.primaries userId network = y.primaries userId network := by
    rw [Database.primaries, hxy, Database.primaries]
  constructor
  · intro network address hfree
    rw [← hfind hafter, ← hfind hbefore]
    exact h.addresses network address hfree
  · intro key a ha
    obtain ⟨a', ha', hstays⟩ := h.stays key a ((hfind hbefore key).trans ha)
    exact ⟨a', (hfind hafter key).symm.trans ha', hstays⟩
  · intro userId network hfree
    rw [← hcount hafter, ← hcount hbefore]
    exact h.primaries userId network hfree
  · intro userId network
    rw [← hcount hafter, ← hcount hbefore]
    exact h.kept userId network

/-! ### What locks keep -/

theorem stable_challenge {id : Uuid} {m : LockMode} {r : Option WalletAuthChallenge}
    (hlock : ⟨.challenge id, m⟩ ∈ held) (hmode : m.protects = true) :
    Stable Consistent Guarantee held fun db => challengeTable.find db id = r :=
  fun _ _ _ hcompat _ _ h hG => (hG.challenges id (hcompat.not_writes hlock hmode)).trans h

theorem stable_address {network : Network} {address : String} {r : Option StellarAccount}
    (hlock : ⟨.address network address, .update⟩ ∈ held) :
    Stable Consistent Guarantee held fun db => accountTable.find db (network, address) = r :=
  fun _ _ _ hcompat _ _ h hG =>
    (hG.registers.addresses network address (hcompat.not_writes hlock rfl)).trans h

theorem stable_primaries {userId : Uuid} {network : Network} {n : Nat}
    (hlock : ⟨.primary userId network, .update⟩ ∈ held) :
    Stable Consistent Guarantee held fun db => db.primaries userId network = n :=
  fun _ _ _ hcompat _ _ h hG =>
    (hG.registers.primaries userId network (hcompat.not_writes hlock rfl)).trans h

theorem stable_primary {userId : Uuid} {network : Network} :
    Stable Consistent Guarantee held fun db => 0 < db.primaries userId network :=
  fun _ _ _ _ _ _ h hG => lt_of_lt_of_le h (hG.registers.kept userId network)

/-! ### Registering -/

/-- The row of a verification. -/
def verify (a : StellarAccount) : StellarAccount := { a with verified := true }

theorem Registry.verify {p : StellarAccount → Bool} {accounts : List StellarAccount} (h : Registry accounts) :
    Registry (updateWhere p Wallets.verify accounts) := by
  have hcount (q : StellarAccount → Bool) (hq : ∀ a, q (Wallets.verify a) = q a) :
      (updateWhere p Wallets.verify accounts).countP q = accounts.countP q := by
    rw [updateWhere, List.countP_map]
    refine List.countP_congr fun a _ => ?_
    rw [Function.comp_apply]
    split
    · rw [hq]
    · rfl
  constructor
  · have hkeys : (updateWhere p Wallets.verify accounts).map accountTable.key = accounts.map accountTable.key :=
      map_updateWhere fun _ => rfl
    rw [hkeys]
    exact h.addresses
  · intro a' ha'
    obtain ⟨a, ha, rfl⟩ := mem_updateWhere.mp ha'
    rw [hcount _ fun _ => rfl]
    split <;> exact h.primary a ha

theorem registers_verify {p : StellarAccount → Bool} {view : Database}
    (hlocks : ∀ a ∈ accountTable.matching p view, ⟨.address a.network a.address, .noKeyUpdate⟩ ∈ L) :
    Registers L db (accountTable.modify p verify view db) := by
  have hcount (userId : Uuid) (network : Network) :
      (accountTable.modify p verify view db).primaries userId network = db.primaries userId network := by
    show List.countP _ (updateWhere _ verify db.stellarAccounts) = _
    rw [updateWhere, List.countP_map]
    refine List.countP_congr fun a _ => ?_
    rw [Function.comp_apply]
    split <;> exact Iff.rfl
  refine ⟨fun network address hfree => ?_, .modify (fun _ => rfl) fun _ _ => rfl,
    fun _ _ _ => hcount _ _, fun _ _ => (hcount _ _).ge⟩
  refine accountTable.find_modify_of_not_mem (f := verify) (fun _ => rfl) fun hmem => ?_
  obtain ⟨a, ha, hkey⟩ := List.mem_map.mp hmem
  obtain ⟨rfl, rfl⟩ := Prod.mk.inj hkey
  cases hfree _ (hlocks a ha) rfl

/-- A new account in order: its address is new, and it is the primary one exactly if its user has none. -/
structure Fresh (a : StellarAccount) (db : Database) : Prop where
  address : accountTable.find db (accountTable.key a) = none
  primary : db.primaries a.userId a.network = if a.isPrimary then 0 else 1

theorem Registry.add {a : StellarAccount} (h : Registry db.stellarAccounts) (ha : Fresh a db) :
    Registry (db.stellarAccounts ++ [a]) := by
  have hnone := accountTable.find_none ha.address
  have hprimary := ha.primary
  rw [Database.primaries] at hprimary
  constructor
  · exact accountTable.nodup_add h.addresses hnone
  · intro b hb
    rw [List.countP_append, List.countP_singleton]
    rcases List.mem_append.mp hb with hb | hb
    · rw [h.primary b hb]
      by_cases hsame : a.userId = b.userId ∧ a.network = b.network
      · -- its user has a primary account already
        obtain ⟨huser, hnetwork⟩ := hsame
        have hone := h.primary b hb
        rw [huser, hnetwork, hone] at hprimary
        cases hp : a.isPrimary with
        | true => simp [hp] at hprimary
        | false => simp
      · have hother : (a.userId = b.userId && a.network = b.network) = false := by
          simpa using hsame
        simp [hother]
    · obtain rfl := List.mem_singleton.mp hb
      rw [hprimary]
      cases b.isPrimary <;> simp

theorem registers_add {a : StellarAccount} (haddress : ⟨.address a.network a.address, .update⟩ ∈ L)
    (hprimary : a.isPrimary = true → ⟨.primary a.userId a.network, .update⟩ ∈ L) :
    Registers L db (accountTable.add a db) := by
  have hcount (userId : Uuid) (network : Network) : (accountTable.add a db).primaries userId network =
      db.primaries userId network +
        if (a.userId = userId && a.network = network && a.isPrimary) = true then 1 else 0 := by
    show List.countP _ (db.stellarAccounts ++ [a]) = _
    rw [List.countP_append, List.countP_singleton]
    rfl
  refine ⟨fun network address hfree => ?_, .add, fun userId network hfree => ?_, fun userId network => ?_⟩
  · refine accountTable.find_add_of_ne fun hkey => ?_
    obtain ⟨rfl, rfl⟩ := Prod.mk.inj hkey
    cases hfree _ haddress rfl
  · rw [hcount, if_neg, Nat.add_zero]
    intro hmine
    simp only [Bool.and_eq_true, decide_eq_true_eq] at hmine
    obtain ⟨⟨rfl, rfl⟩, hp⟩ := hmine
    cases hfree _ (hprimary hp) rfl
  · rw [hcount]
    exact Nat.le_add_right _ _

/-! ### The outline of a consumption -/

section Outline

variable {challengeId : Uuid} {body : ConsumeChallengeRequest} {pending : Database → Database}
  {A B C : Database → Prop} {G : List (Lock Row) → Database → Database → Prop} {ok must : Site → Database → Prop}

/-- To commit now is in order, and is a consumption of the challenge. -/
structure Ready (site : Access.Site) (challengeId : Uuid) (body : ConsumeChallengeRequest)
    (held : List (Lock Row)) (pending : Database → Database) (A : Database → Prop) : Prop where
  stable : Stable Consistent Guarantee held A
  commits : ∀ db, Consistent db → A db → Consistent (pending db) ∧ Guarantee held db (pending db) ∧
    Consumes site challengeId body db (pending db)

theorem Guarantee.mono (h : Guarantee L db db') (hsub : L ⊆ held) : Guarantee held db db' where
  challenges id hfree := h.challenges id (hfree.mono hsub)
  ages := h.ages
  registers :=
    { addresses := fun network address hfree => h.registers.addresses network address (hfree.mono hsub)
      stays := h.registers.stays
      primaries := fun userId network hfree => h.registers.primaries userId network (hfree.mono hsub)
      kept := h.registers.kept }

/-- More is known. -/
theorem Ready.know (h : Ready site challengeId body held pending A) (hC : Stable Consistent Guarantee held C) :
    Ready site challengeId body held pending fun db => A db ∧ C db where
  stable := h.stable.and hC
  commits db hI hA := h.commits db hI hA.1

/-- A change of the accounts, the first one of the transaction. -/
theorem Ready.enter (change : Database → Database) (h : Ready site challengeId body held pending A)
    (hsame : ∀ db, (pending db).stellarAccounts = db.stellarAccounts)
    (hchallenges : ∀ db, (change db).challenges = db.challenges) (hsub : held ⊆ held')
    (hBA : ∀ db, B db → A db) (hstable : Stable Consistent Guarantee held' B)
    (hchange : ∀ db, Consistent db → B db → Registry (change (pending db)).stellarAccounts ∧
      Registers held' (pending db) (change (pending db))) :
    Ready site challengeId body held' (fun db => change (pending db)) B where
  stable := hstable
  commits db hI hB := by
    obtain ⟨hIp, hG, hconsumes⟩ := h.commits db hI (hBA db hB)
    obtain ⟨hregistry, hregisters⟩ := hchange db hI hB
    have hfind (id : Uuid) : challengeTable.find (change (pending db)) id = challengeTable.find (pending db) id := by
      show (change (pending db)).challenges.find? _ = (pending db).challenges.find? _
      rw [hchallenges]
    refine ⟨⟨?_, hregistry⟩, ⟨fun id hfree => ?_, fun id c hc => ?_, hregisters.congr (hsame db) rfl⟩, ?_, ?_⟩
    · rw [hchallenges]
      exact hIp.challengeIds
    · rw [hfind]
      exact (hG.mono hsub).challenges id hfree
    · rw [hfind]
      exact hG.ages id c hc
    · rw [hfind]
      exact hconsumes.challenge
    · intro id hid
      rw [hfind]
      exact hconsumes.others id hid

/-- What the constraints of an insertion say of the accounts. -/
theorem accountViolation_none {a : StellarAccount} (h : accountViolation a db = none) :
    accountTable.find db (accountTable.key a) = none ∧
      (a.isPrimary = true → db.primaries a.userId a.network = 0) := by
  unfold accountViolation at h
  split at h
  · cases h
  · rename_i hnew
    rw [Bool.not_eq_true] at hnew
    have hnone := List.any_eq_false.mp hnew
    constructor
    · refine List.find?_eq_none.mpr fun b hb hkey => hnone b hb ?_
      obtain ⟨hnetwork, haddress⟩ := Prod.mk.inj (of_decide_eq_true hkey)
      simp [hnetwork, haddress]
    · intro hp
      refine List.countP_eq_zero.mpr fun b hb hmine => hnone b hb ?_
      simp only [Bool.and_eq_true, decide_eq_true_eq] at hmine
      obtain ⟨⟨huser, hnetwork⟩, hprimary⟩ := hmine
      simp [hp, huser, hnetwork, hprimary]

/-- Who has an account on a network has one primary account there. -/
theorem Registry.primaries_eq_one (h : Registry db.stellarAccounts) {userId : Uuid} {network : Network}
    (hpos : 0 < db.primaries userId network) : db.primaries userId network = 1 := by
  obtain ⟨b, hb, hmine⟩ := List.countP_pos_iff.mp hpos
  simp only [Bool.and_eq_true, decide_eq_true_eq] at hmine
  obtain ⟨⟨rfl, rfl⟩, -⟩ := hmine
  exact h.primary b hb

theorem safe_insertAccount {a : StellarAccount} {k : PUnit → Prog Database Row Site Result}
    (h : Ready site challengeId body held pending A)
    (hsame : ∀ db, (pending db).stellarAccounts = db.stellarAccounts)
    (hsecond : ∀ db, A db → a.isPrimary = false → 0 < db.primaries a.userId a.network)
    (hk : ∀ held' pending' B, Ready site challengeId body held' pending' B →
      Outlined Consistent Guarantee G ok (fun _ _ => True) (k ⟨⟩) held' pending' B) :
    Outlined Consistent Guarantee G ok (fun _ _ => True) (insertAccount a k) held pending A := by
  refine safe_insertRow fun db hI hA _ hviolation => ?_
  obtain ⟨hnew, hfirst⟩ := accountViolation_none hviolation
  have hfind : accountTable.find (pending db) (accountTable.key a) = accountTable.find db (accountTable.key a) := by
    show (pending db).stellarAccounts.find? _ = db.stellarAccounts.find? _
    rw [hsame]
  have hcount (d : Database) : (pending d).primaries a.userId a.network = d.primaries a.userId a.network := by
    rw [Database.primaries, hsame, Database.primaries]
  generalize hlocks : held ++ _ = held'
  have hsub : held ⊆ held' := hlocks ▸ List.subset_append_left _ _
  have haddress : ⟨.address a.network a.address, .update⟩ ∈ held' := by
    rw [← hlocks]
    simp
  have hprimary (hp : a.isPrimary = true) : ⟨.primary a.userId a.network, .update⟩ ∈ held' := by
    rw [← hlocks]
    simp [hp]
  -- the keys are locked, so the account stays new until the commit
  have hB : Stable Consistent Guarantee held' fun d => (A d ∧
      accountTable.find d (accountTable.key a) = none) ∧
        if a.isPrimary then d.primaries a.userId a.network = 0 else 0 < d.primaries a.userId a.network := by
    refine ((h.stable.mono hsub).and (stable_address haddress)).and ?_
    cases hp : a.isPrimary with
    | true => exact stable_primaries (hprimary hp)
    | false => exact stable_primary
  have hseen : if a.isPrimary then db.primaries a.userId a.network = 0
      else 0 < db.primaries a.userId a.network := by
    cases hp : a.isPrimary with
    | true =>
        rw [if_pos rfl, ← hcount]
        exact hfirst hp
    | false => exact hsecond db hA hp
  refine ⟨_, ⟨⟨hA, hfind.symm.trans hnew⟩, hseen⟩, hB, hk _ _ _ ?_⟩
  refine h.enter _ hsame (fun _ => rfl) hsub (fun _ hd => hd.1.1) hB fun d hId hd => ?_
  obtain ⟨⟨-, hnone⟩, hone⟩ := hd
  have hfresh : Fresh a (pending d) := by
    constructor
    · show (pending d).stellarAccounts.find? _ = none
      rw [hsame]
      exact hnone
    · rw [hcount]
      cases hp : a.isPrimary with
      | true =>
          rw [hp] at hone
          exact hone
      | false =>
          rw [hp] at hone
          exact hId.registry.primaries_eq_one hone
  refine ⟨?_, registers_add haddress hprimary⟩
  refine Registry.add ?_ hfresh
  rw [hsame]
  exact hId.registry

theorem safe_loginOrCreateAccount {network : Network} {address : String} {now : Int} {userId walletId : Uuid}
    {k : Uuid → Prog Database Row Site Result} (h : Ready site challengeId body held pending A)
    (hsame : ∀ db, (pending db).stellarAccounts = db.stellarAccounts)
    (hk : ∀ userId held' pending' B, Ready site challengeId body held' pending' B →
      Outlined Consistent Guarantee G ok (fun _ _ => True) (k userId) held' pending' B) :
    Outlined Consistent Guarantee G ok (fun _ _ => True)
      (loginOrCreateAccount network address now userId walletId k) held pending A := by
  unfold loginOrCreateAccount
  refine safe_bind (safe_select h.stable fun _ registered _ _ _ => ?_)
  cases registered with
  | some owner =>
      refine safe_bind (safe_update fun db hI hA _ => ?_)
      generalize hlocks : held ++ _ = held'
      have hsub : held ⊆ held' := hlocks ▸ List.subset_append_left _ _
      have hB := h.stable.mono hsub
      refine ⟨A, hA, hB, hk _ _ _ _ (h.enter _ hsame (fun _ => rfl) hsub (fun _ hd => hd) hB fun d hId _ => ?_)⟩
      refine ⟨?_, registers_verify fun a ha => ?_⟩
      · refine Registry.verify ?_
        show Registry (pending d).stellarAccounts
        rw [hsame]
        exact hId.registry
      · rw [← hlocks]
        exact List.mem_append_right _ (List.mem_flatMap.mpr ⟨a, ha, List.mem_singleton_self _⟩)
  | none =>
      refine safe_bind (safe_insert fun db hI hA _ _ => ?_)
      let user : User := { id := userId, displayName := "CrownFi user " ++ suffix address, email := none }
      have hB : Stable Consistent Guarantee (held ++ [⟨.user userId, .update⟩]) A := h.stable.weaken
      have husers : Ready site challengeId body (held ++ [⟨.user userId, .update⟩])
          (fun db => { pending db with users := (pending db).users ++ [user] }) A := by
        refine h.enter (fun db => { db with users := db.users ++ [user] }) hsame (fun _ => rfl)
          (List.subset_append_left _ _) (fun _ hd => hd) hB fun d hId _ => ⟨?_, .of_same rfl⟩
        show Registry (pending d).stellarAccounts
        rw [hsame]
        exact hId.registry
      refine ⟨A, hA, hB, ?_⟩
      exact safe_bind (safe_insertAccount husers (fun d => hsame d) (fun _ _ hp => by cases hp)
        fun held' pending' B hready => hk _ held' pending' B hready)

theorem safe_linkWallet {network : Network} {address : String} {now : Int} {userId walletId : Uuid}
    {k : PUnit → Prog Database Row Site Result} (h : Ready site challengeId body held pending A)
    (hsame : ∀ db, (pending db).stellarAccounts = db.stellarAccounts)
    (hk : ∀ held' pending' B, Ready site challengeId body held' pending' B →
      Outlined Consistent Guarantee G ok (fun _ _ => True) (k ⟨⟩) held' pending' B) :
    Outlined Consistent Guarantee G ok (fun _ _ => True)
      (linkWallet userId network address now walletId k) held pending A := by
  unfold linkWallet ensureUserExists
  refine safe_bind (safe_bind (safe_select h.stable fun _ _ _ _ _ => ?_))
  refine safe_require fun _ => ?_
  refine safe_bind (safe_select h.stable fun _ registered _ _ _ => ?_)
  cases registered with
  | some owner => exact safe_require fun _ => hk _ _ _ h
  | none =>
      refine safe_bind (safe_stmt fun db hI hA _ => ?_)
      have hcount : (pending db).primaries userId network = db.primaries userId network := by
        rw [Database.primaries, hsame, Database.primaries]
      rw [hcount, List.append_nil]
      -- a primary account that was seen stays
      have hC : Stable Consistent Guarantee held fun d =>
          db.primaries userId network ≠ 0 → 0 < d.primaries userId network := by
        intro L d d' hcompat hI' hI'' hd hG hne
        exact stable_primary L d d' hcompat hI' hI'' (hd hne) hG
      refine ⟨_, ⟨hA, Nat.pos_of_ne_zero⟩, h.stable.and hC, ?_⟩
      refine safe_insertAccount (h.know hC) hsame (fun d hd hp => hd.2 ?_) hk
      exact of_decide_eq_false hp

/-- The update of a consumption: the challenge that it has matched is locked. -/
theorem safe_consumeMatching {p : WalletAuthChallenge → Bool} {now : Int}
    {k : Option WalletAuthChallenge → Prog Database Row Site Result}
    (hnone : ∀ held pending, Outlined Consistent Guarantee G ok (fun _ _ => True) (k none) held pending
      fun _ => True)
    (hsome : ∀ view c held, c ∈ challengeTable.matching p view → challengeTable.find view c.id = some c →
      (∀ c ∈ challengeTable.matching p view, ⟨.challenge c.id, .noKeyUpdate⟩ ∈ held) →
      Outlined Consistent Guarantee G ok (fun _ _ => True) (k (some c)) held
        (challengeTable.modify p ({ · with consumedAt := some now }) view)
        fun db => challengeTable.find db c.id = some c) :
    Outlined Consistent Guarantee G ok (fun _ _ => True) (consumeMatching p now k) [] id fun _ => True := by
  refine safe_stmt fun view hI _ _ => ?_
  rw [List.nil_append]
  show ∃ A', _ ∧ _ ∧ Outlined _ _ _ _ _ (k (challengeTable.matching p view).head?) _ _ _
  cases hhead : (challengeTable.matching p view).head? with
  | none => exact ⟨_, trivial, stable_true, hnone _ _⟩
  | some c =>
      have hmem : c ∈ challengeTable.matching p view := List.mem_of_head? hhead
      have hfind : challengeTable.find view c.id = some c :=
        challengeTable.find_of_mem hI.challengeIds (challengeTable.mem_matching.mp hmem).1
      exact ⟨_, hfind, stable_challenge (List.mem_map_of_mem hmem) rfl,
        hsome view c _ hmem hfind fun c' hc' => List.mem_map_of_mem hc'⟩

/-- The consumption of the challenge that was matched. -/
theorem ready_consume {p : WalletAuthChallenge → Bool} {now : Int} {c : WalletAuthChallenge} {view : Database}
    (hview : c ∈ challengeTable.matching p view) (hfind : challengeTable.find view c.id = some c)
    (hlocks : ∀ c ∈ challengeTable.matching p view, ⟨.challenge c.id, .noKeyUpdate⟩ ∈ held)
    (hp : ∀ c', p c' = true → c'.id = c.id ∧ c'.consumedAt = none ∧ now < c'.expiresAt)
    (haddress : validateAddress body.address = .ok c.address)
    (hnetwork : site.validateNetwork body.network = .ok c.network) (hmessage : body.message = c.message)
    (huser : body.requestedUserId = c.requestedUserId) :
    Ready site c.id body held (challengeTable.modify p ({ · with consumedAt := some now }) view)
      fun db => challengeTable.find db c.id = some c := by
  have hmatches := (challengeTable.mem_matching.mp hview).2
  have hkey (c' : WalletAuthChallenge) :
      challengeTable.key { c' with consumedAt := some now } = challengeTable.key c' := rfl
  obtain ⟨-, hnone, hnow⟩ := hp c hmatches
  refine ⟨stable_challenge (hlocks c hview) rfl, fun db hI hdb => ⟨⟨?_, hI.registry⟩, ⟨fun id hfree => ?_, ?_,
    .of_same rfl⟩, ?_, fun id hid => ?_⟩⟩
  · have hids : (challengeTable.modify p ({ · with consumedAt := some now }) view db).challenges.map (·.id) =
        db.challenges.map (·.id) := challengeTable.keys_modify hkey
    exact hids.symm ▸ hI.challengeIds
  · refine challengeTable.find_modify_of_not_mem hkey fun hmem => ?_
    obtain ⟨c', hc', rfl⟩ := List.mem_map.mp hmem
    cases hfree _ (hlocks c' hc') rfl
  · exact .modify hkey fun c' hc' => .inr ⟨(hp c' hc').2.1, now, (hp c' hc').2.2, rfl⟩
  · exact ⟨c, hdb, hnone, haddress, hnetwork, hmessage, huser, now, hnow,
      challengeTable.find_modify_of_find hkey hdb hfind hmatches⟩
  · exact challengeTable.find_modify_of_ne hkey (fun c' hc' => (hp c' hc').1) hid

theorem matches_iff {address : String} {network : Network} {message : String} {now : Int}
    {c : WalletAuthChallenge} :
    ConsumeChallengeRequest.matches challengeId address network message now c = true ↔
      c.id = challengeId ∧ c.address = address ∧ c.network = network ∧ c.message = message ∧
        c.consumedAt = none ∧ now < c.expiresAt := by
  simp only [ConsumeChallengeRequest.matches, Bool.and_eq_true, decide_eq_true_eq, and_assoc]

theorem outlined_consumeWalletChallenge (userId walletId : Uuid) :
    OutlinedRequest Consistent Guarantee
      ((Call.consumeWalletChallenge challengeId body userId walletId).Commits site) ok (fun _ _ => True)
      (consumeWalletChallenge site challengeId body userId walletId).request := by
  unfold OutlinedRequest Handler.request consumeWalletChallenge valid
  refine safe_bind (safe_ofExcept fun address haddress => ?_)
  refine safe_bind (safe_ofExcept fun network hnetwork => ?_)
  refine safe_bind (safe_select stable_true fun _ now _ _ _ => ?_)
  refine safe_bind (safe_consumeMatching (fun _ _ => safe_bind (safe_orElse fun c hc => by cases hc)) ?_)
  intro view c held hmem hfind hlocks
  refine safe_bind (safe_orElse fun _ hc => ?_)
  obtain rfl := Option.some.inj hc
  refine safe_bind (safe_require fun huser => ?_)
  obtain ⟨rfl, rfl, rfl, hmessage, -⟩ := matches_iff.mp (challengeTable.mem_matching.mp hmem).2
  have hready : Ready site c.id body held _ _ := ready_consume hmem hfind hlocks
    (fun c' hc' => by
      obtain ⟨hid, -, -, -, hrest⟩ := matches_iff.mp hc'
      exact ⟨hid, hrest⟩) haddress hnetwork hmessage.symm (of_decide_eq_true huser).symm
  have hend (signedIn : Uuid) (held' : List (Lock Row)) (pending' : Database → Database) (B : Database → Prop)
      (hready' : Ready site c.id body held' pending' B) :
      Outlined Consistent Guarantee
        ((Call.consumeWalletChallenge c.id body userId walletId).Commits site) ok (fun _ _ => True)
        ((do
          Tx.commit
          return .walletAuth signedIn c.address : Handler Response) fun r => .ret (.ok r)) held' pending' B :=
    safe_bind (safe_commit (fun db hI hB => hready'.commits db hI hB) safe_ret)
  cases c.purpose with
  | login => exact safe_bind (safe_loginOrCreateAccount hready (fun _ => rfl) hend)
  | setup => exact safe_bind (safe_loginOrCreateAccount hready (fun _ => rfl) hend)
  | link =>
      refine safe_bind (safe_bind (safe_orElse fun requestedUserId _ => ?_))
      exact safe_bind (safe_linkWallet hready (fun _ => rfl) fun held' pending' B hready' => hend _ _ _ _ hready')

/-- A new challenge, under the lock of its id. -/
theorem guarantee_add {c : WalletAuthChallenge} (hlock : ⟨.challenge c.id, .update⟩ ∈ L) :
    Guarantee L db (challengeTable.add c db) where
  challenges id hfree := by
    refine challengeTable.find_add_of_ne ?_
    rintro rfl
    cases hfree _ hlock rfl
  ages := .add
  registers := .of_same rfl

theorem challengeViolation_none {c : WalletAuthChallenge} (h : challengeViolation c db = none) :
    challengeTable.find db c.id = none := by
  unfold challengeViolation at h
  split at h
  · cases h
  · split at h
    · cases h
    · rename_i hnew
      rw [Bool.not_eq_true] at hnew
      exact challengeTable.find_none_of_any hnew fun _ hid => decide_eq_true hid

theorem outlined_storeChallenge {address : String} {network : Network} {purpose : Purpose}
    {body : CreateChallengeRequest} (hA : Stable Consistent Guarantee [] A) :
    Outlined Consistent Guarantee ((Call.createWalletChallenge body challengeId).Commits site) ok
      (fun _ _ => True) (storeChallenge rfc3339 address network purpose body challengeId fun r => .ret (.ok r))
      [] id A := by
  unfold storeChallenge
  refine safe_bind (safe_select hA fun _ now _ _ _ => ?_)
  refine safe_bind (safe_orElse fun issued _ => ?_)
  refine safe_bind (safe_orElse fun expires _ => ?_)
  refine safe_bind (safe_insertRow fun db _ _ _ hviolation => ?_)
  have hnew : challengeTable.find db challengeId = none := challengeViolation_none hviolation
  generalize hlocks : [] ++ _ = held
  have hlock : ⟨.challenge challengeId, .update⟩ ∈ held := hlocks ▸ List.mem_cons_self
  refine ⟨_, hnew, stable_challenge hlock rfl, safe_bind (safe_commit (fun d hI hd => ⟨⟨?_, hI.registry⟩,
    guarantee_add hlock, trivial⟩) safe_ret)⟩
  exact challengeTable.nodup_add hI.challengeIds (challengeTable.find_none hd)

theorem outlined_createWalletChallenge (body : CreateChallengeRequest) (challengeId : Uuid) :
    OutlinedRequest Consistent Guarantee ((Call.createWalletChallenge body challengeId).Commits site) ok
      (fun _ _ => True) (createWalletChallenge site rfc3339 body challengeId).request := by
  unfold OutlinedRequest Handler.request createWalletChallenge valid
  refine safe_bind (safe_ofExcept fun address _ => ?_)
  refine safe_bind (safe_ofExcept fun network _ => ?_)
  refine safe_bind (safe_ofExcept fun purpose _ => ?_)
  refine safe_bind (safe_require fun _ => ?_)
  cases body.requestedUserId with
  | none => exact outlined_storeChallenge stable_true
  | some userId =>
      unfold ensureUserExists
      refine safe_bind (safe_bind (safe_select stable_true fun _ _ _ _ _ => ?_))
      exact safe_require fun _ => outlined_storeChallenge stable_true

theorem outlined_passTime (clock : Int) :
    OutlinedRequest Consistent Guarantee ((Call.passTime clock).Commits site) ok (fun _ _ => True)
      (passTime clock).request := by
  unfold OutlinedRequest Handler.request passTime
  refine safe_bind (safe_write fun _ _ _ _ => ⟨fun _ => True, trivial, stable_true, ?_⟩)
  refine safe_bind (safe_commit (fun db hI _ => ⟨⟨hI.challengeIds, hI.registry⟩, ?_, trivial⟩) safe_ret)
  exact ⟨fun _ _ => rfl, .of_find fun _ => rfl, .of_same rfl⟩

end Outline

theorem outlined_request (call : Call) :
    OutlinedRequest Consistent Guarantee (call.Commits site) ok (fun _ _ => True) (call.request site rfc3339) := by
  cases call with
  | createWalletChallenge body challengeId => exact outlined_createWalletChallenge body challengeId
  | consumeWalletChallenge challengeId body userId walletId => exact outlined_consumeWalletChallenge userId walletId
  | passTime clock => exact outlined_passTime clock

/-! ### What is refused is rolled back -/

/-- The answer is not an error. -/
def Answered (r : Result) : Prop := ∃ response, r = .ok response

theorem not_answered (e : ApiError) : ¬ Answered (.error e) := by
  rintro ⟨response, h⟩
  cases h

theorem decisive_valid {α : Type} {e : Except ApiError α} : (valid e).Decisive Answered :=
  .ofExcept fun e => not_answered e

theorem decisive_ensureUserExists {userId : Uuid} : (ensureUserExists userId).Decisive Answered :=
  .bind .stmt fun _ => .require (not_answered _)

theorem decisive_insertAccount {a : StellarAccount} : (insertAccount a).Decisive Answered := by
  refine .insert fun view r hr => ?_
  unfold accountViolation at hr
  split at hr
  · cases hr
    exact not_answered _
  · split at hr
    · cases hr
      exact not_answered _
    · cases hr

theorem decisive_loginOrCreateAccount {network : Network} {address : String} {now : Int}
    {userId walletId : Uuid} : (loginOrCreateAccount network address now userId walletId).Decisive Answered := by
  refine .bind .stmt fun registered => ?_
  cases registered with
  | some owner => exact .bind (.update nofun) fun _ => .pure
  | none =>
      refine .bind (.insert fun view r hr => ?_) fun _ => .bind decisive_insertAccount fun _ => .pure
      split at hr
      · cases hr
        exact not_answered _
      · cases hr

theorem decisive_linkWallet {network : Network} {address : String} {now : Int} {userId walletId : Uuid} :
    (linkWallet userId network address now walletId).Decisive Answered := by
  refine .bind decisive_ensureUserExists fun _ => .bind .stmt fun registered => ?_
  cases registered with
  | some owner => exact .require (not_answered _)
  | none => exact .bind .stmt fun _ => decisive_insertAccount

theorem decisive_storeChallenge {address : String} {network : Network} {purpose : Purpose}
    {body : CreateChallengeRequest} {challengeId : Uuid} :
    (storeChallenge rfc3339 address network purpose body challengeId).request.Decisive Answered := by
  unfold Handler.request storeChallenge
  refine Tx.decisive_bind .stmt fun now => ?_
  refine Tx.decisive_bind (.orElse (not_answered _)) fun issued => ?_
  refine Tx.decisive_bind (.orElse (not_answered _)) fun expires => ?_
  refine Tx.decisive_bind (.insert fun view r hr => ?_) fun _ => Tx.decisive_commit rfl ⟨_, rfl⟩
  unfold challengeViolation at hr
  split at hr
  · cases hr
    exact not_answered _
  · split at hr
    · cases hr
      exact not_answered _
    · split at hr
      · cases hr
        exact not_answered _
      · cases hr

theorem decisive_request (call : Call) : (call.request site rfc3339).Decisive Answered := by
  cases call with
  | createWalletChallenge body challengeId =>
      unfold Call.request Handler.request createWalletChallenge
      refine Tx.decisive_bind decisive_valid fun address => ?_
      refine Tx.decisive_bind decisive_valid fun network => ?_
      refine Tx.decisive_bind decisive_valid fun purpose => ?_
      refine Tx.decisive_bind (.require (not_answered _)) fun _ => ?_
      cases body.requestedUserId with
      | none => exact decisive_storeChallenge
      | some userId => exact Tx.decisive_bind decisive_ensureUserExists fun _ => decisive_storeChallenge
  | consumeWalletChallenge challengeId body userId walletId =>
      unfold Call.request Handler.request consumeWalletChallenge
      refine Tx.decisive_bind decisive_valid fun address => ?_
      refine Tx.decisive_bind decisive_valid fun network => ?_
      refine Tx.decisive_bind .stmt fun now => ?_
      refine Tx.decisive_bind .stmt fun consumed => ?_
      refine Tx.decisive_bind (.orElse (not_answered _)) fun challenge => ?_
      refine Tx.decisive_bind (.require (not_answered _)) fun _ => ?_
      have hend (signedIn : Uuid) : Prog.Decisive Answered ((do
          Tx.commit
          return .walletAuth signedIn address : Handler Response) fun r => .ret (.ok r)) :=
        Tx.decisive_commit rfl ⟨_, rfl⟩
      cases challenge.purpose with
      | login => exact Tx.decisive_bind decisive_loginOrCreateAccount hend
      | setup => exact Tx.decisive_bind decisive_loginOrCreateAccount hend
      | link =>
          refine Tx.decisive_bind (.orElse (not_answered _)) fun requestedUserId => ?_
          exact Tx.decisive_bind decisive_linkWallet fun _ => hend requestedUserId
  | passTime clock =>
      unfold Call.request Handler.request passTime
      exact Tx.decisive_bind .stmt fun _ => Tx.decisive_commit rfl ⟨_, rfl⟩

/-! ### Runs -/

/-- A step of the system, with records of what the requests answer. -/
abbrev WalletStep (site : Access.Site) (rfc3339 : Int → Option String) :=
  Pool.Step (Recording fun (call : Call) p => p = call.request site rfc3339) fun _ _ => True

abbrev WalletPool := Pool Database Row Site (Record Call Result Database)

abbrev WalletAction := Action Database Row Site (Record Call Result Database)

/-- An address stays with its user, and a challenge that was consumed stays so. -/
structure Kept (db db' : Database) : Prop where
  stays : accountTable.Grows Stays db db'
  ages : challengeTable.Grows Ages db db'

instance : IsPreorder Database Kept where
  refl _ := ⟨.refl, .refl⟩
  trans _ _ _ h h' := ⟨h.stays.trans h'.stays, h.ages.trans h'.ages⟩

theorem Kept.registered (h : Kept db db') {network : Network} {address : String} {userId : Uuid}
    (howner : db.registered network address = some userId) : db'.registered network address = some userId := by
  obtain ⟨a, ha, rfl⟩ := Option.map_eq_some_iff.mp howner
  obtain ⟨a', ha', hstays⟩ := h.stays _ a ha
  rw [Database.registered, ha', Option.map_some, hstays]

/-- A consumed challenge is not consumed again. -/
theorem Kept.not_consumes {challengeId : Uuid} {body body' : ConsumeChallengeRequest}
    (h : Consumes site challengeId body db db') {later last : Database} (hkept : Kept db' later) :
    ¬ Consumes site challengeId body' later last := by
  intro hagain
  obtain ⟨c, -, -, -, -, -, -, now, -, hconsumed⟩ := h.challenge
  obtain ⟨c', hc', hnone, -⟩ := hagain.challenge
  obtain ⟨c'', hc'', hages⟩ := hkept.ages _ _ hconsumed
  obtain rfl := Option.some.inj (hc'.symm.trans hc'')
  rcases hages with rfl | ⟨hsome, -⟩
  · cases hnone
  · cases hsome

/-- What a step of a run does. -/
structure Served (site : Access.Site) (rfc3339 : Int → Option String) (pool : WalletPool) (a : WalletAction)
    (pool' : WalletPool) : Prop where
  /-- What is refused changes nothing: whatever changes the tables is the commit of a request that is
  answered without an error. -/
  refused : pool'.db ≠ pool.db → ∃ r, pool.commits a = some r ∧ Answered r.answer
  consumes : ∀ r challengeId body userId walletId, pool.commits a = some r →
    r.request = .consumeWalletChallenge challengeId body userId walletId →
      Consumes site challengeId body pool.db pool'.db
  /-- A challenge that is consumed now is not consumed again. -/
  once : ∀ r challengeId body userId walletId, pool.commits a = some r →
    r.request = .consumeWalletChallenge challengeId body userId walletId →
      ∀ actions later, Run (WalletStep site rfc3339) pool' actions later → ∀ b last,
        WalletStep site rfc3339 later b last → ∀ r' body' userId' walletId', later.commits b = some r' →
          r'.request ≠ .consumeWalletChallenge challengeId body' userId' walletId'

variable {pool pool' : WalletPool} {actions : List WalletAction} {a : WalletAction}

theorem requests_outlined (call : Call) (p : Prog Database Row Site Result) (hp : p = call.request site rfc3339) :
    OutlinedRequest Consistent Guarantee (call.Commits site) (fun _ _ => True) (fun _ _ => True) p ∧
      p.Decisive Answered :=
  hp ▸ ⟨outlined_request call, decisive_request call⟩

/-- The commit of a consumption. -/
theorem consumes_of_committed {challengeId : Uuid} {body : ConsumeChallengeRequest} {userId walletId : Uuid}
    {r : Record Call Result Database} (h : Committed (Call.Commits site) Answered db db' (some r))
    (hr : r.request = .consumeWalletChallenge challengeId body userId walletId) :
    Consumes site challengeId body db db' := by
  obtain ⟨⟩ | ⟨-, -, hcommits⟩ := h
  rw [hr] at hcommits
  exact hcommits

abbrev Sound (site : Access.Site) : WalletPool → Prop :=
  Attributed Consistent Guarantee (Call.Commits site) (fun _ _ => True) (fun _ _ => True) Answered

theorem Sound.kept (h : Sound site pool) (hrun : Run (WalletStep site rfc3339) pool actions pool') :
    Sound site pool' ∧ Kept pool.db pool'.db :=
  ⟨run_attributed requests_outlined (fun _ _ _ _ h => h.1) hrun h,
    attributed_moved requests_outlined (fun _ _ _ _ h => h.1)
      (fun _ _ _ _ _ hG => ⟨hG.1.registers.stays, hG.1.ages⟩) hrun h⟩

theorem Sound.served (h : Sound site pool) (hstep : WalletStep site rfc3339 pool a pool') :
    Served site rfc3339 pool a pool' := by
  obtain ⟨h', hcommitted⟩ := h.step requests_outlined (fun _ _ _ _ h => h.1) hstep
  refine ⟨fun hchanged => ?_, fun r challengeId body userId walletId hr hrequest => ?_,
    fun r challengeId body userId walletId hr hrequest actions later hrun b last hlast r' body' userId' walletId' hr'
      hrequest' => ?_⟩
  · cases hcommits : pool.commits a with
    | none =>
        rw [hcommits] at hcommitted
        obtain ⟨hsame⟩ := hcommitted
        exact absurd hsame hchanged
    | some r =>
        rw [hcommits] at hcommitted
        obtain ⟨⟩ | ⟨hanswered, -⟩ := hcommitted
        exact ⟨r, rfl, hanswered⟩
  · exact consumes_of_committed (hr ▸ hcommitted) hrequest
  · obtain ⟨hlater, hkept⟩ := Sound.kept h' hrun
    obtain ⟨-, hagain⟩ := hlater.step requests_outlined (fun _ _ _ _ h => h.1) hlast
    exact hkept.not_consumes (consumes_of_committed (hr ▸ hcommitted) hrequest)
      (consumes_of_committed (hr' ▸ hagain) hrequest')

/-- **Wallets and challenges are kept**, in every interleaving: an address is registered once and stays with
its user, who has one primary account on its network; and a challenge is consumed once, before it expires and
with what it was issued for, or nothing is changed. -/
theorem wallets_kept (site : Access.Site) (rfc3339 : Int → Option String) {db₀ : Database}
    (h₀ : Consistent db₀) {pool : WalletPool} {actions : List WalletAction}
    (hrun : Run (WalletStep site rfc3339) (Pool.idle db₀) actions pool) :
    Registry pool.db.stellarAccounts ∧
      (∀ actions' later, Run (WalletStep site rfc3339) pool actions' later → ∀ network address userId,
        pool.db.registered network address = some userId →
          later.db.registered network address = some userId) ∧
      ∀ a pool', WalletStep site rfc3339 pool a pool' → Served site rfc3339 pool a pool' := by
  have hsound : Sound site pool := (Sound.kept (attributed_idle h₀) hrun).1
  refine ⟨hsound.inv.registry, fun actions' later hlater network address userId howner => ?_,
    fun a pool' hstep => hsound.served hstep⟩
  exact (hsound.kept hlater).2.registered howner

/-! A wallet signs in. -/

def emptyDatabase : Database := ⟨0, [], [], []⟩

def walletSite : Access.Site := ⟨"", false, id⟩

def walletAddress : String := "GAAAAAAAAAAAAAAAAAAAAAAAAAAAAAAAAAAAAAAAAAAAAAAAAAAAAAAA"

def issueCall : Call := .createWalletChallenge ⟨walletAddress, "testnet", "login", none, none⟩ 1

def signInCall : Call :=
  .consumeWalletChallenge 1
    ⟨walletAddress, "testnet", challengeText walletAddress .testnet .login 1 "CrownFi" "now" "now", none⟩ 2 3

def walletTime (_ : Int) : Option String := some "now"

/-- A call runs alone, for a number of steps. -/
def callAlone (call : Call) (steps : Nat) : List WalletAction :=
  .spawn ((call.request walletSite walletTime).recorded call []) :: List.replicate steps (.step 0)

def signIn : List WalletAction := callAlone issueCall 4 ++ callAlone signInCall 7

theorem signIn_outcome : ((Pool.idle emptyDatabase).replay (fun _ _ => True) signIn).any
    (fun pool => decide (pool.db.registered .testnet walletAddress = some 2)) = true := by
  decide +kernel

/-- The wallet stays with the user it has signed in for. -/
theorem signIn_kept : ∃ actions, ∃ pool : WalletPool,
    Run (WalletStep walletSite walletTime) (Pool.idle emptyDatabase) actions pool ∧
      ∀ actions' later, Run (WalletStep walletSite walletTime) pool actions' later →
        later.db.registered .testnet walletAddress = some 2 := by
  obtain ⟨pool, hreplay, houtcome⟩ := (Option.any_eq_true _ _).mp signIn_outcome
  have hrun : Run (WalletStep walletSite walletTime) (Pool.idle emptyDatabase) signIn pool := by
    refine Pool.run_of_replay (fun p hp => ?_) hreplay
    have hcalls : p = (issueCall.request walletSite walletTime).recorded issueCall [] ∨
        p = (signInCall.request walletSite walletTime).recorded signInCall [] := by
      simpa [signIn, callAlone, List.mem_replicate] using hp
    rcases hcalls with rfl | rfl
    · exact ⟨issueCall, _, rfl, rfl⟩
    · exact ⟨signInCall, _, rfl, rfl⟩
  refine ⟨_, pool, hrun, fun actions' later hlater => ?_⟩
  have hempty : Consistent emptyDatabase := ⟨.nil, .nil, nofun⟩
  exact (wallets_kept walletSite walletTime hempty hrun).2.1 actions' later hlater _ _ _
    (of_decide_eq_true houtcome)

end CrownFi.Access.Wallets
