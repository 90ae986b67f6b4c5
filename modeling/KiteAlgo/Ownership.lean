import KiteAlgo.Lib.Run
import KiteAlgo.Repository

/-!
# KiteAlgo.Ownership

The evaluation fence over whole runs: any number of owners claim and check one
(subscription, instrument) in any order, each call with a time and a lease of its
own.  A claim either sees the row from the start, or its first read found none and
its INSERT may then meet the row of another first claimer.

`FenceMove` says once what a call can do to the stored row; the epochs that are
handed out, and the checks they pass, are read off it.
-/

namespace KiteAlgo

open List
variable {F : Type}

/-! ## calls -/

/-- The rest of `_claim_evaluation` after a first read that found no row.  When
another claimer's row got in, the INSERT fails and the row is read again; `visible`
tells whether the winner has committed by then. -/
def claimAfterMiss (db : Db F) (subId instrumentKey ownerId : String) (lease now : Int)
    (visible : Bool) : Option (Int × Db F) :=
  match db.ownership.get? (subId, instrumentKey) with
  | none =>
    let row : OwnershipRow := ⟨ownerId, 1, now + max microsPerSecond lease⟩
    some (1, { db with ownership := db.ownership.upsert (subId, instrumentKey) row })
  | some _ => if visible then claimEvaluation db subId instrumentKey ownerId lease now else none

inductive FenceCall where
  | claim (ownerId : String) (lease now : Int)
  | claimMissed (ownerId : String) (lease now : Int) (visible : Bool)
  | check (ownerId : String) (ownerEpoch now : Int)
  deriving DecidableEq, Repr

/-- What a call returns; `leaseConflict` is the exception of a failed check. -/
inductive FenceReply where
  | granted (ownerEpoch : Int)
  | refused
  | owner
  | leaseConflict
  deriving DecidableEq, Repr

def FenceCall.claimant : FenceCall → Option String
  | .claim ownerId _ _ => some ownerId
  | .claimMissed ownerId _ _ _ => some ownerId
  | .check _ _ _ => none

def FenceCall.now : FenceCall → Int
  | .claim _ _ now => now
  | .claimMissed _ _ now _ => now
  | .check _ _ now => now

/-- A claim that returned none changes nothing. -/
def claimReply (db : Db F) : Option (Int × Db F) → FenceReply × Db F
  | some (ownerEpoch, db') => (.granted ownerEpoch, db')
  | none => (.refused, db)

/-- One call: what it returns, and the database after it. -/
def fenceCall (subId instrumentKey : String) (db : Db F) : FenceCall → FenceReply × Db F
  | .claim ownerId lease now =>
    claimReply db (claimEvaluation db subId instrumentKey ownerId lease now)
  | .claimMissed ownerId lease now visible =>
    claimReply db (claimAfterMiss db subId instrumentKey ownerId lease now visible)
  | .check ownerId ownerEpoch now =>
    if assertEvaluationOwner db subId instrumentKey ownerId ownerEpoch now then (.owner, db)
    else (.leaseConflict, db)

def fenceRow (subId instrumentKey : String) (db : Db F) : Option OwnershipRow :=
  db.ownership.get? (subId, instrumentKey)

/-- Everything a call can do to the stored row. -/
inductive FenceMove (call : FenceCall) : Option OwnershipRow → FenceReply → Option OwnershipRow → Prop
  | first {ownerId : String} {leaseUntil : Int} (hclaim : call.claimant = some ownerId) :
      FenceMove call none (.granted 1) (some ⟨ownerId, 1, leaseUntil⟩)
  | renew {row : OwnershipRow} {leaseUntil : Int} (hclaim : call.claimant = some row.ownerId) :
      FenceMove call (some row) (.granted row.ownerEpoch)
        (some ⟨row.ownerId, row.ownerEpoch, leaseUntil⟩)
  | takeOver {row : OwnershipRow} {ownerId : String} {leaseUntil : Int}
      (hclaim : call.claimant = some ownerId) (hother : row.ownerId ≠ ownerId)
      (hexpired : row.leaseUntil ≤ call.now) :
      FenceMove call (some row) (.granted (row.ownerEpoch + 1))
        (some ⟨ownerId, row.ownerEpoch + 1, leaseUntil⟩)
  | refused {stored : Option OwnershipRow} {ownerId : String}
      (hclaim : call.claimant = some ownerId) : FenceMove call stored .refused stored
  | owner {row : OwnershipRow} {now : Int} (hcheck : call = .check row.ownerId row.ownerEpoch now)
      (hlease : now < row.leaseUntil) : FenceMove call (some row) .owner (some row)
  | conflict {stored : Option OwnershipRow} : FenceMove call stored .leaseConflict stored

section Calls

variable {subId instrumentKey : String} {db : Db F}

variable {lease now : Int} {ownerId : String}

theorem claimEvaluation_move {call : FenceCall} (hclaim : call.claimant = some ownerId)
    (hnow : call.now = now) :
    FenceMove call (fenceRow subId instrumentKey db)
      (claimReply db (claimEvaluation db subId instrumentKey ownerId lease now)).1
      (fenceRow subId instrumentKey
        (claimReply db (claimEvaluation db subId instrumentKey ownerId lease now)).2) := by
  unfold claimEvaluation fenceRow
  cases hrow : db.ownership.get? (subId, instrumentKey) with
  | none =>
    simp only [claimReply, Table.get?_upsert_self]
    exact .first hclaim
  | some row =>
    by_cases hown : row.ownerId = ownerId
    · subst hown
      simp only [claimReply, if_pos, Table.get?_upsert_self]
      exact .renew hclaim
    · by_cases hheld : now < row.leaseUntil
      · simp only [claimReply, if_neg hown, if_pos hheld, hrow]
        exact .refused hclaim
      · simp only [claimReply, if_neg hown, if_neg hheld, Table.get?_upsert_self]
        exact .takeOver hclaim hown (by omega)

theorem claimAfterMiss_move {visible : Bool} :
    FenceMove (.claimMissed ownerId lease now visible) (fenceRow subId instrumentKey db)
      (claimReply db (claimAfterMiss db subId instrumentKey ownerId lease now visible)).1
      (fenceRow subId instrumentKey
        (claimReply db (claimAfterMiss db subId instrumentKey ownerId lease now visible)).2) := by
  unfold claimAfterMiss
  cases hrow : db.ownership.get? (subId, instrumentKey) with
  | none =>
    simp only [claimReply, fenceRow, Table.get?_upsert_self, hrow]
    exact .first rfl
  | some row =>
    cases visible with
    | false => exact .refused rfl
    | true => exact claimEvaluation_move rfl rfl

theorem fenceCall_move (call : FenceCall) :
    FenceMove call (fenceRow subId instrumentKey db) (fenceCall subId instrumentKey db call).1
      (fenceRow subId instrumentKey (fenceCall subId instrumentKey db call).2) := by
  cases call with
  | claim ownerId lease now => exact claimEvaluation_move rfl rfl
  | claimMissed ownerId lease now visible => exact claimAfterMiss_move
  | check ownerId ownerEpoch now =>
    simp only [fenceCall]
    split
    · next hassert =>
        unfold assertEvaluationOwner at hassert
        obtain ⟨row, hrow, hholds⟩ := (Option.any_eq_true _ _).mp hassert
        simp only [Bool.and_eq_true, decide_eq_true_eq] at hholds
        obtain ⟨⟨rfl, rfl⟩, hlease⟩ := hholds
        rw [fenceRow, hrow]
        exact .owner rfl hlease
    · exact .conflict

end Calls

/-! ## runs -/

/-- One call of a run with the row it finds and the row it leaves. -/
structure FenceEvent where
  call : FenceCall
  stored : Option OwnershipRow
  reply : FenceReply
  left : Option OwnershipRow
  deriving DecidableEq, Repr

/-- A claim of this owner returned this epoch. -/
def FenceEvent.Grants (e : FenceEvent) (ownerId : String) (ownerEpoch : Int) : Prop :=
  e.call.claimant = some ownerId ∧ e.reply = .granted ownerEpoch

/-- The fence of a subscription and an instrument as a machine over the database. -/
def fence (subId instrumentKey : String) : Machine FenceCall (Db F) FenceEvent where
  step call db := (fenceCall subId instrumentKey db call).2
  out call db :=
    [{ call
       stored := fenceRow subId instrumentKey db
       reply := (fenceCall subId instrumentKey db call).1
       left := fenceRow subId instrumentKey (fenceCall subId instrumentKey db call).2 }]

/-- The row of an epoch that was held: a later row has a later epoch, or the same
epoch with the same owner. -/
def Succeeds (row : OwnershipRow) (stored : Option OwnershipRow) : Prop :=
  ∃ row', stored = some row' ∧ row.ownerEpoch ≤ row'.ownerEpoch ∧
    (row'.ownerEpoch = row.ownerEpoch → row'.ownerId = row.ownerId)

theorem Succeeds.refl (row : OwnershipRow) : Succeeds row (some row) :=
  ⟨row, rfl, Int.le_refl _, fun _ => rfl⟩

variable {call : FenceCall} {left stored : Option OwnershipRow} {reply : FenceReply}
  {row : OwnershipRow}

theorem Succeeds.move (h : Succeeds row stored) (hmove : FenceMove call stored reply left) :
    Succeeds row left := by
  obtain ⟨row', rfl, hle, hsame⟩ := h
  cases hmove with
  | renew hclaim => exact ⟨_, rfl, hle, hsame⟩
  | takeOver hclaim hother hexpired =>
    refine ⟨_, rfl, ?_, fun heq => ?_⟩
    · show row.ownerEpoch ≤ row'.ownerEpoch + 1
      omega
    · have heq : row'.ownerEpoch + 1 = row.ownerEpoch := heq
      omega
  | refused hclaim => exact ⟨_, rfl, hle, hsame⟩
  | owner hcheck hlease => exact ⟨_, rfl, hle, hsame⟩
  | conflict => exact ⟨_, rfl, hle, hsame⟩

theorem FenceMove.left_of_granted {ownerId : String} {ownerEpoch : Int}
    (hmove : FenceMove call stored (.granted ownerEpoch) left)
    (hclaim : call.claimant = some ownerId) :
    ∃ row, left = some row ∧ row.ownerId = ownerId ∧ row.ownerEpoch = ownerEpoch := by
  cases hmove with
  | first hfirst => exact ⟨_, rfl, Option.some.inj (hfirst.symm.trans hclaim), rfl⟩
  | renew hrenew => exact ⟨_, rfl, Option.some.inj (hrenew.symm.trans hclaim), rfl⟩
  | takeOver htake hother hexpired =>
    exact ⟨_, rfl, Option.some.inj (htake.symm.trans hclaim), rfl⟩

/-- What a call that finds a successor of a held row can return: a later epoch, or the
same epoch to the same owner, and no confirmation of an earlier epoch. -/
theorem FenceMove.of_succeeds (hmove : FenceMove call stored reply left) (h : Succeeds row stored) :
    (∀ ownerId ownerEpoch, call.claimant = some ownerId → reply = .granted ownerEpoch →
      row.ownerEpoch ≤ ownerEpoch ∧ (ownerId ≠ row.ownerId → row.ownerEpoch < ownerEpoch)) ∧
    (∀ ownerId ownerEpoch now, call = .check ownerId ownerEpoch now →
      ownerEpoch < row.ownerEpoch → reply = .leaseConflict) := by
  obtain ⟨row', hleft, hle, hsame⟩ := h.move hmove
  constructor
  · intro ownerId ownerEpoch hclaim hreply
    subst hreply
    obtain ⟨granted, hgranted, rfl, rfl⟩ := hmove.left_of_granted hclaim
    obtain rfl := Option.some.inj (hgranted.symm.trans hleft)
    refine ⟨hle, fun hne => ?_⟩
    have hdiffers : granted.ownerEpoch ≠ row.ownerEpoch := fun heq => hne (hsame heq)
    omega
  · intro ownerId ownerEpoch now hcall hlt
    subst hcall
    cases hmove with
    | renew hclaim => simp [FenceCall.claimant] at hclaim
    | first hclaim => simp [FenceCall.claimant] at hclaim
    | takeOver hclaim hother hexpired => simp [FenceCall.claimant] at hclaim
    | refused hclaim => simp [FenceCall.claimant] at hclaim
    | owner hcheck hlease =>
      obtain rfl := Option.some.inj hleft
      obtain ⟨-, rfl, -⟩ := FenceCall.check.inj hcheck
      omega
    | conflict => rfl

section Runs

variable (subId instrumentKey : String)

theorem fence_pairwise {Q : FenceEvent → FenceEvent → Prop}
    (hQ : ∀ a b, (∀ row, a.left = some row → Succeeds row b.stored) →
      FenceMove a.call a.stored a.reply a.left → FenceMove b.call b.stored b.reply b.left → Q a b)
    (calls : List FenceCall) (db : Db F) :
    ((fence subId instrumentKey).trace calls db).Pairwise Q := by
  refine Machine.pairwise_trace
    (K := fun a db => FenceMove a.call a.stored a.reply a.left ∧
      ∀ row, a.left = some row → Succeeds row (fenceRow subId instrumentKey db)) ?_ ?_ ?_ ?_ calls db
  · exact fun call db => pairwise_singleton _ _
  · intro call db a ha
    obtain rfl := mem_singleton.mp ha
    refine ⟨fenceCall_move call, fun row hrow => ?_⟩
    show Succeeds row (fenceRow subId instrumentKey (fenceCall subId instrumentKey db call).2)
    have hrow : fenceRow subId instrumentKey (fenceCall subId instrumentKey db call).2 = some row := hrow
    rw [hrow]
    exact .refl row
  · intro call db a ha
    exact ⟨ha.1, fun row hrow => (ha.2 row hrow).move (fenceCall_move call)⟩
  · intro call db a ha b hb
    obtain rfl := mem_singleton.mp hb
    exact hQ a _ ha.2 ha.1 (fenceCall_move call)

theorem fence_forall {Q : FenceEvent → Prop}
    (hQ : ∀ e, FenceMove e.call e.stored e.reply e.left → Q e) (calls : List FenceCall) (db : Db F) :
    ∀ e ∈ (fence subId instrumentKey).trace calls db, Q e := by
  refine (Machine.forall_trace_iff (I := fun _ => True) (C := fun _ => True) ?_ trivial).mpr
    fun _ _ => trivial
  intro call db _
  refine ⟨⟨fun _ => trivial, fun _ e he => ?_⟩, fun _ => trivial⟩
  obtain rfl := mem_singleton.mp he
  exact hQ _ (fenceCall_move call)

theorem grants_increase (calls : List FenceCall) (db : Db F) :
    ((fence subId instrumentKey).trace calls db).Pairwise fun a b =>
      ∀ ownerId ownerEpoch ownerId' ownerEpoch', a.Grants ownerId ownerEpoch →
        b.Grants ownerId' ownerEpoch' →
        ownerEpoch ≤ ownerEpoch' ∧ (ownerId' ≠ ownerId → ownerEpoch < ownerEpoch') := by
  refine fence_pairwise subId instrumentKey (fun a b hsucceeds hmoveA hmoveB => ?_) calls db
  intro ownerId ownerEpoch ownerId' ownerEpoch' ha hb
  rw [ha.2] at hmoveA
  obtain ⟨row, hleft, rfl, rfl⟩ := hmoveA.left_of_granted ha.1
  exact (hmoveB.of_succeeds (hsucceeds row hleft)).1 ownerId' ownerEpoch' hb.1 hb.2

theorem check_below_grant_conflicts (calls : List FenceCall) (db : Db F) :
    ((fence subId instrumentKey).trace calls db).Pairwise fun b c =>
      ∀ ownerId ownerEpoch ownerId' ownerEpoch' now, b.Grants ownerId ownerEpoch →
        c.call = .check ownerId' ownerEpoch' now → ownerEpoch' < ownerEpoch → c.reply = .leaseConflict := by
  refine fence_pairwise subId instrumentKey (fun b c hsucceeds hmoveB hmoveC => ?_) calls db
  intro ownerId ownerEpoch ownerId' ownerEpoch' now hb hcall hlt
  rw [hb.2] at hmoveB
  obtain ⟨row, hleft, rfl, rfl⟩ := hmoveB.left_of_granted hb.1
  exact (hmoveC.of_succeeds (hsucceeds row hleft)).2 ownerId' ownerEpoch' now hcall hlt

theorem FenceMove.takeOver_of_ne {call : FenceCall} {row : OwnershipRow}
    {left : Option OwnershipRow} {ownerId : String} {ownerEpoch : Int}
    (hmove : FenceMove call (some row) (.granted ownerEpoch) left)
    (hclaim : call.claimant = some ownerId) (hne : row.ownerId ≠ ownerId) :
    row.leaseUntil ≤ call.now ∧ ownerEpoch = row.ownerEpoch + 1 := by
  cases hmove with
  | renew hrenew => exact absurd (Option.some.inj (hrenew.symm.trans hclaim)) hne
  | takeOver htake hother hexpired => exact ⟨hexpired, rfl⟩

end Runs

/-- The epoch of the second row is not below that of the first. -/
def EpochLe (earlier later : Option OwnershipRow) : Prop :=
  ∀ row, earlier = some row → ∃ row', later = some row' ∧ row.ownerEpoch ≤ row'.ownerEpoch

structure Fenced (events : List FenceEvent) : Prop where
  /-- No call lowers the epoch, and none is lowered between calls. -/
  monotone : (∀ e ∈ events, EpochLe e.stored e.left) ∧ events.Pairwise fun a b => EpochLe a.left b.stored
  /-- No epoch goes to two owners. -/
  unique : events.Pairwise fun a b => ∀ ownerId ownerId' ownerEpoch,
    a.Grants ownerId ownerEpoch → b.Grants ownerId' ownerEpoch → ownerId = ownerId'
  /-- A claim against a stored holder succeeds only after the lease. -/
  expired : ∀ e ∈ events, ∀ ownerId ownerEpoch row, e.Grants ownerId ownerEpoch →
    e.stored = some row → row.ownerId ≠ ownerId → row.leaseUntil ≤ e.call.now
  /-- Once another owner has taken over, the epoch of the previous holder fails every
  check. -/
  previous : events.Pairwise fun b c => ∀ row ownerId ownerEpoch now, b.stored = some row →
    b.Grants ownerId ownerEpoch → row.ownerId ≠ ownerId →
    c.call = .check row.ownerId row.ownerEpoch now → c.reply = .leaseConflict
  /-- So does every epoch returned to an owner before another one held the row, however
  the row went on. -/
  fenced : ∀ a b c, [a, b, c].Sublist events → ∀ ownerId ownerEpoch ownerId' ownerEpoch' now,
    a.Grants ownerId ownerEpoch → b.Grants ownerId' ownerEpoch' → ownerId ≠ ownerId' →
    c.call = .check ownerId ownerEpoch now → c.reply = .leaseConflict

/-- The evaluation fence holds over every run of claims and checks. -/
theorem evaluation_fence (subId instrumentKey : String) (calls : List FenceCall) (db : Db F) :
    Fenced ((fence subId instrumentKey).trace calls db) where
  monotone := by
    constructor
    · refine fence_forall subId instrumentKey (fun e hmove row hrow => ?_) calls db
      rw [hrow] at hmove
      obtain ⟨row', hleft, hle, -⟩ := (Succeeds.refl row).move hmove
      exact ⟨row', hleft, hle⟩
    · refine fence_pairwise subId instrumentKey (fun a b hsucceeds _ _ row hrow => ?_) calls db
      obtain ⟨row', hstored, hle, -⟩ := hsucceeds row hrow
      exact ⟨row', hstored, hle⟩
  unique := by
    refine (grants_increase subId instrumentKey calls db).imp fun {a b} hincrease => ?_
    intro ownerId ownerId' ownerEpoch ha hb
    by_contra hne
    have hlt := (hincrease ownerId ownerEpoch ownerId' ownerEpoch ha hb).2 fun h => hne h.symm
    omega
  expired := by
    refine fence_forall subId instrumentKey (fun e hmove => ?_) calls db
    intro ownerId ownerEpoch row he hstored hne
    rw [hstored, he.2] at hmove
    exact (hmove.takeOver_of_ne he.1 hne).1
  previous := by
    refine fence_pairwise subId instrumentKey (fun b c hsucceeds hmoveB hmoveC => ?_) calls db
    intro row ownerId ownerEpoch now hstored hb hne hcall
    rw [hstored, hb.2] at hmoveB
    obtain ⟨row', hleft, -, hepoch⟩ := hmoveB.left_of_granted hb.1
    refine (hmoveC.of_succeeds (hsucceeds row' hleft)).2 row.ownerId row.ownerEpoch now hcall ?_
    rw [hepoch, (hmoveB.takeOver_of_ne hb.1 hne).2]
    omega
  fenced := by
    intro a b c hsub ownerId ownerEpoch ownerId' ownerEpoch' now ha hb hne hcall
    have hab := (List.pairwise_cons.mp ((grants_increase subId instrumentKey calls db).sublist hsub)).1
      b (by simp)
    have hrest := (List.pairwise_cons.mp
      ((check_below_grant_conflicts subId instrumentKey calls db).sublist hsub)).2
    have hbc := (List.pairwise_cons.mp hrest).1 c (by simp)
    have hlt := (hab ownerId ownerEpoch ownerId' ownerEpoch' ha hb).2 fun h => hne h.symm
    exact hbc ownerId' ownerEpoch' ownerId ownerEpoch now hb hcall hlt

/-- Two first claims race, the loser takes over after the lease, and the winner comes
back under a third epoch. -/
example :
    ((fence "s" "NSE:INFY").trace
      [.claimMissed "a" 5000000 0 true, .claimMissed "b" 5000000 1 true, .claim "b" 5000000 6000000,
        .claim "a" 5000000 12000000, .check "a" 1 12000001, .check "a" 3 12000001]
      ({} : Db Rat)).map FenceEvent.reply =
      [.granted 1, .refused, .granted 2, .granted 3, .leaseConflict, .owner] := by
  decide +kernel

end KiteAlgo
