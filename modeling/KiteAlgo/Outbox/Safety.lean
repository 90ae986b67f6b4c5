import KiteAlgo.Outbox

/-!
# KiteAlgo.Outbox.Safety

The outbox over every interleaving of its workers.  A lease identifies the claim that
holds a delivery: a new lease ends after the time it is given at, when every lease
given before has run out or its claim is over.  So at most one claim of a delivery is
current (`Claim.Current`), only it can record, and what the log holds can be read off
the row.

A record is fenced against the clock as its worker read it.  `Punctual` is exactly when
no lease runs out between that reading and the record.
-/

namespace KiteAlgo

open List Option DeliveryStatus Table
/-! ## what is safe -/

def Claim.live (c : Claim) : Bool := decide (c.phase ≠ .finished)

def Outbox.after (cfg : WorkerConfig) (s : Outbox) (steps : List OutboxStep) : Outbox :=
  steps.foldl (Outbox.step cfg) s

structure DeliverySafe (cfg : WorkerConfig) (s : Outbox) (id : String) (row : DeliveryRow) :
    Prop where
  /-- The counter is the number of logged attempts. -/
  counted : row.attempts = (s.db.logOf id).length
  acceptedOnce : s.db.countAttempts id .accepted ≤ 1
  attempts_le : (s.db.logOf id).length ≤ cfg.maxAttempts
  unknown_le : s.db.countAttempts id .unknown ≤ cfg.maxUnknownRetries + 1
  /-- The records of two claims cannot both be accepted. -/
  single : ∀ {i j : Nat} {c d : Claim} {now now' : Int}, s.claims[i]? = some c →
    s.claims[j]? = some d → c.live = true → d.live = true → c.deliveryId = id → d.deliveryId = id →
    recordGuard row c.row.leaseUntil now = true → recordGuard row d.row.leaseUntil now' = true → i = j

def Claim.leaseOver (c : Claim) (clock : Int) : Prop := ∃ t, c.row.leaseUntil = some t ∧ t ≤ clock

/-- The delivery of a claim was claimed again. -/
def Outbox.reclaimed (s : Outbox) (i : Nat) (c : Claim) : Prop :=
  ∃ j d, i < j ∧ s.claims[j]? = some d ∧ d.deliveryId = c.deliveryId

structure OutboxSafe (cfg : WorkerConfig) (s : Outbox) (steps : List OutboxStep) : Prop where
  always : ∀ past rest, steps = past ++ rest → ∀ id row,
    (s.after cfg past).db.deliveries.get? id = some row → DeliverySafe cfg (s.after cfg past) id row
  /-- A terminal row stays as it is. -/
  absorbing : ∀ past rest, steps = past ++ rest → ∀ id row,
    (s.after cfg past).db.deliveries.get? id = some row → row.status.terminal = true →
      (s.after cfg steps).db.deliveries.get? id = some row
  /-- A record without the lease is a conflict and changes nothing. -/
  fenced : AtEach (fun past step => ∀ (i : Nat) (c : Claim) (args : AttemptArgs), step = .record i →
    (s.after cfg past).claims[i]? = some c → c.pending = some args →
    c.leaseOver (s.after cfg past).clock ∨ (s.after cfg past).reclaimed i c →
      ((s.after cfg past).record i).1 = some (.error .leaseConflict) ∧
        ((s.after cfg past).record i).2.db = (s.after cfg past).db) steps

/-- No lease that still holds its delivery runs out between the clock a record uses and
the record. -/
def Punctual (cfg : WorkerConfig) (s : Outbox) (steps : List OutboxStep) : Prop :=
  AtEach (fun past step => ∀ (i : Nat) (c : Claim) (args : AttemptArgs) row lease, step = .record i →
    (s.after cfg past).claims[i]? = some c → c.pending = some args →
    (s.after cfg past).db.deliveries.get? c.deliveryId = some row →
    row.status = .delivering → row.leaseUntil = some lease → c.row.leaseUntil = some lease →
      args.now < lease → (s.after cfg past).clock < lease) steps

/-- Nothing has happened to the deliveries yet. -/
structure Outbox.Fresh (s : Outbox) : Prop where
  claims : s.claims = []
  attempts : s.db.attempts = []
  pending : ∀ {id row}, s.db.deliveries.get? id = some row → row.status = .pending ∧ row.attempts = 0

/-! ## the invariant -/

def Claim.Current (c : Claim) (row : DeliveryRow) : Prop :=
  row.status = .delivering ∧ row.leaseUntil = c.row.leaseUntil

structure AttemptReady (cfg : WorkerConfig) (db : OutboxDb) (c : Claim) (row : DeliveryRow)
    (args : AttemptArgs) : Prop where
  attemptNo : args.attemptNo = c.row.attempts + 1
  closes : args.newStatus = .retrying ∨ args.newStatus.terminal = true
  budget : args.newStatus = .retrying → args.attemptNo < cfg.maxAttempts
  open_ : args.newStatus = .retrying → args.outcome ≠ .accepted
  unknown : args.newStatus = .retrying → args.outcome = .unknown → c.Current row →
    db.countAttempts c.deliveryId .unknown < cfg.maxUnknownRetries

/-- A claim is current, or its lease is over. -/
structure ClaimInv (cfg : WorkerConfig) (s : Outbox) (c : Claim) (lease : Int)
    (row : DeliveryRow) : Prop where
  given : c.row.leaseUntil = some lease
  stored : s.db.deliveries.get? c.deliveryId = some row
  held : c.Current row ∧ row.attempts = c.row.attempts ∨ ¬ c.Current row ∧ lease ≤ s.clock
  ready : ∀ args, c.phase = .recording args → AttemptReady cfg s.db c row args

structure RowInv (cfg : WorkerConfig) (db : OutboxDb) (id : String) (row : DeliveryRow) : Prop where
  counted : row.attempts = (db.logOf id).length
  attempts_le : row.attempts ≤ cfg.maxAttempts
  accepted_le : db.countAttempts id .accepted ≤ 1
  unknown_le : db.countAttempts id .unknown ≤ cfg.maxUnknownRetries + 1
  attempts_lt : row.status.terminal = false → row.attempts < cfg.maxAttempts
  not_accepted : row.status.terminal = false → db.countAttempts id .accepted = 0
  unknown_open : row.status.terminal = false → db.countAttempts id .unknown ≤ cfg.maxUnknownRetries

structure OutboxInv (cfg : WorkerConfig) (s : Outbox) : Prop where
  rows : ∀ {id row}, s.db.deliveries.get? id = some row → RowInv cfg s.db id row
  claims : ∀ {i : Nat} {c : Claim}, s.claims[i]? = some c → c.live = true →
    ∃ lease row, ClaimInv cfg s c lease row
  /-- Only the last claim of a delivery can be current. -/
  latest : ∀ {i j : Nat} {c d : Claim} {row : DeliveryRow}, i < j → s.claims[i]? = some c →
    s.claims[j]? = some d → c.deliveryId = d.deliveryId → c.live = true →
      s.db.deliveries.get? c.deliveryId = some row → ¬ c.Current row

theorem Outbox.Fresh.inv {s : Outbox} (h : s.Fresh) (cfg : WorkerConfig) : OutboxInv cfg s where
  rows := by
    intro id row hrow
    obtain ⟨hstatus, hattempts⟩ := h.pending hrow
    have hlog : s.db.logOf id = [] := by simp [OutboxDb.logOf, h.attempts]
    have hcount : ∀ outcome, s.db.countAttempts id outcome = 0 := by
      simp [OutboxDb.countAttempts, hlog]
    have hmax : 0 < cfg.maxAttempts := by
      unfold WorkerConfig.maxAttempts
      omega
    constructor <;> simp [hlog, hcount, hattempts, hmax]
  claims := by simp [h.claims]
  latest := by simp [h.claims]

/-! ## steps that leave the tables -/

section Advance

variable {cfg : WorkerConfig} {s : Outbox}

theorem OutboxInv.tick (h : OutboxInv cfg s) (elapsed : Nat) :
    OutboxInv cfg { s with clock := s.clock + elapsed } where
  rows := h.rows
  claims := by
    intro i c hc hlive
    obtain ⟨lease, row, hinv⟩ := h.claims hc hlive
    refine ⟨lease, row, hinv.given, hinv.stored, ?_, hinv.ready⟩
    cases hinv.held with
    | inl hcurrent => exact .inl hcurrent
    | inr hstale =>
      refine .inr ⟨hstale.1, ?_⟩
      have hle := hstale.2
      show lease ≤ s.clock + elapsed
      omega
  latest := h.latest

variable {c : Claim} {i : Nat} {phase : ClaimPhase}

theorem getElem?_setPhase {j : Nat} (hc : (s.setPhase i phase).claims[j]? = some c) :
    ∃ c₀, s.claims[j]? = some c₀ ∧ c = if i = j then { c₀ with phase } else c₀ := by
  rw [Outbox.setPhase, getElem?_modify] at hc
  obtain ⟨c₀, hc₀, rfl⟩ := map_eq_some_iff.mp hc
  exact ⟨c₀, hc₀, rfl⟩

theorem OutboxInv.setPhase (h : OutboxInv cfg s)
    (hphase : ∀ c, s.claims[i]? = some c → phase ≠ .finished → c.live ∧
      ∀ args, phase = .recording args → ∀ row, s.db.deliveries.get? c.deliveryId = some row →
        AttemptReady cfg s.db c row args) : OutboxInv cfg (s.setPhase i phase) where
  rows := h.rows
  claims := by
    intro j c hc hlive
    obtain ⟨c₀, hc₀, rfl⟩ := getElem?_setPhase hc
    by_cases hij : i = j
    · subst hij
      rw [if_pos rfl] at hlive ⊢
      have hne : phase ≠ .finished := by simpa [Claim.live] using hlive
      obtain ⟨hlive₀, hready⟩ := hphase c₀ hc₀ hne
      obtain ⟨lease, row, hinv⟩ := h.claims hc₀ hlive₀
      refine ⟨lease, row, hinv.given, hinv.stored, hinv.held, fun args hargs => ?_⟩
      have := hready args hargs row hinv.stored
      exact ⟨this.attemptNo, this.closes, this.budget, this.open_, this.unknown⟩
    · rw [if_neg hij] at hlive ⊢
      obtain ⟨lease, row, hinv⟩ := h.claims hc₀ hlive
      exact ⟨lease, row, hinv.given, hinv.stored, hinv.held, hinv.ready⟩
  latest := by
    intro j k c d row hlt hc hd hsame hlive hrow
    obtain ⟨c₀, hc₀, rfl⟩ := getElem?_setPhase hc
    obtain ⟨d₀, hd₀, rfl⟩ := getElem?_setPhase hd
    have hd_id : (if i = k then { d₀ with phase } else d₀).deliveryId = d₀.deliveryId := by
      split <;> rfl
    by_cases hij : i = j
    · subst hij
      rw [if_pos rfl] at hsame hlive hrow ⊢
      have hne : phase ≠ .finished := by simpa [Claim.live] using hlive
      have hnot : ¬ c₀.Current row :=
        h.latest hlt hc₀ hd₀ (hsame.trans hd_id) (hphase c₀ hc₀ hne).1 hrow
      exact hnot
    · rw [if_neg hij] at hsame hlive hrow ⊢
      exact h.latest hlt hc₀ hd₀ (hsame.trans hd_id) hlive hrow

theorem ready_recordOutcome {row : DeliveryRow} (outcome : DeliveryOutcome)
    (jitter now : Int) : AttemptReady cfg s.db c row (recordOutcome cfg c.row outcome
      (s.db.countAttempts c.deliveryId .unknown) jitter now) := by
  unfold recordOutcome
  cases hstatus : outcome.status with
  | accepted => constructor <;> simp [terminal]
  | permanent => constructor <;> simp [terminal]
  | retryable =>
    by_cases hmax : cfg.maxAttempts ≤ c.row.attempts + 1
    · constructor <;> simp [hmax, terminal]
    · constructor <;> simp [hmax, OutcomeStatus.logged]
      omega
  | unknown =>
    by_cases hexhausted : cfg.maxUnknownRetries ≤ s.db.countAttempts c.deliveryId .unknown
    · constructor <;> simp [hexhausted, terminal]
    · by_cases hmax : cfg.maxAttempts ≤ c.row.attempts + 1
      · constructor <;> simp [hexhausted, hmax, terminal]
      · constructor <;> simp [hexhausted, hmax, OutcomeStatus.logged]
        · omega
        · omega

theorem AttemptReady.of_terminal {db : OutboxDb} {row : DeliveryRow} {args : AttemptArgs}
    (hno : args.attemptNo = c.row.attempts + 1) (hterminal : args.newStatus.terminal) :
    AttemptReady cfg db c row args := by
  have hne : args.newStatus ≠ .retrying := by
    intro hretrying
    simp [hretrying, terminal] at hterminal
  exact ⟨hno, .inr hterminal, fun h => absurd h hne, fun h => absurd h hne, fun h => absurd h hne⟩

theorem ready_resolved {itemNow clock : Int} {resolution : Resolution} {args : AttemptArgs}
    {db : OutboxDb} {row : DeliveryRow}
    (h : c.resolved db itemNow clock resolution = .recording args) :
    AttemptReady cfg db c row args := by
  unfold Claim.resolved at h
  split at h
  · obtain rfl := ClaimPhase.recording.inj h
    exact .of_terminal rfl rfl
  · split at h
    · obtain rfl := ClaimPhase.recording.inj h
      exact .of_terminal rfl rfl
    · split at h
      · cases h
      · split at h
        · cases h
        · split at h
          · obtain rfl := ClaimPhase.recording.inj h
            exact .of_terminal rfl rfl
          · cases h

theorem OutboxInv.advance (h : OutboxInv cfg s) (i : Nat) (step : OutboxStep) :
    OutboxInv cfg (s.advance cfg i step) := by
  unfold Outbox.advance
  cases hc : s.claims[i]? with
  | none => exact h
  | some c =>
    refine h.setPhase fun c' hc' hne => ?_
    obtain rfl := some.inj (hc.symm.trans hc')
    have hlive : c.live := by
      by_contra hdead
      have hfinished : c.phase = .finished := by simpa [Claim.live] using hdead
      apply hne
      cases step <;> simp [Claim.next, hfinished]
    refine ⟨hlive, fun args hargs row hrow => ?_⟩
    obtain ⟨lease, row', hinv⟩ := h.claims hc hlive
    obtain rfl := some.inj (hrow.symm.trans hinv.stored)
    -- either the record was pending before or this step makes it
    by_cases hsame : c.phase = .recording args
    · exact hinv.ready args hsame
    · unfold Claim.next at hargs
      cases step with
      | resolve _ resolution =>
        cases hphase : c.phase with
        | resolving itemNow =>
          simp only [hphase] at hargs
          exact ready_resolved hargs
        | claimed => simp [hphase] at hargs
        | sending => simp [hphase] at hargs
        | answered _ => simp [hphase] at hargs
        | recording args' => simp_all
        | finished => simp [hphase] at hargs
      | complete _ jitter =>
        cases hphase : c.phase with
        | answered outcome =>
          simp only [hphase, ClaimPhase.recording.injEq] at hargs
          rw [← hargs]
          exact ready_recordOutcome outcome jitter s.clock
        | claimed => simp [hphase] at hargs
        | resolving _ => simp [hphase] at hargs
        | sending => simp [hphase] at hargs
        | recording args' => simp_all
        | finished => simp [hphase] at hargs
      | start _ => cases hphase : c.phase <;> simp_all
      | answer _ _ => cases hphase : c.phase <;> simp_all
      | fail _ _ => cases hphase : c.phase <;> simp_all
      | crash _ => cases hargs
      | tick _ => exact absurd hargs hsame
      | claim _ _ _ _ => exact absurd hargs hsame
      | record _ => exact absurd hargs hsame

end Advance

/-! ## a record -/

variable {c : Claim}

theorem recordGuard_iff {row : DeliveryRow} {lease now : Int}
    (hgiven : c.row.leaseUntil = some lease) :
    recordGuard row c.row.leaseUntil now ↔ c.Current row ∧ now < lease := by
  unfold recordGuard Claim.Current
  rw [hgiven]
  simp only [Bool.and_eq_true, decide_eq_true_eq, isNone_some, Bool.false_or]
  constructor
  · intro h
    obtain ⟨⟨hstatus, hbefore⟩, hlease⟩ := h
    rw [hlease] at hbefore
    exact ⟨⟨hstatus, hlease⟩, by simpa using hbefore⟩
  · intro h
    obtain ⟨⟨hstatus, hlease⟩, hbefore⟩ := h
    rw [hlease]
    exact ⟨⟨hstatus, by simpa using hbefore⟩, rfl⟩

def OutboxDb.recorded (db : OutboxDb) (id : String) (args : AttemptArgs) (row : DeliveryRow) :
    OutboxDb where
  deliveries := db.deliveries.upsert id (args.apply row)
  attempts := db.attempts ++ [args.logged id]

theorem record_of_pending {s : Outbox} {i : Nat} {args : AttemptArgs} {row : DeliveryRow}
    (hc : s.claims[i]? = some c) (hargs : c.pending = some args)
    (hrow : s.db.deliveries.get? c.deliveryId = some row) :
    s.record i = if recordGuard row c.row.leaseUntil args.now then
        (some (.ok ()), { s with db := s.db.recorded c.deliveryId args row }.setPhase i .finished)
      else (some (.error .leaseConflict), s.setPhase i .finished) := by
  unfold Outbox.record
  simp only [hc, hargs, recordAttempt, hrow]
  by_cases hguard : recordGuard row c.row.leaseUntil args.now
  · simp only [hguard, if_true]
    rfl
  · simp only [hguard]
    rfl

theorem pending_iff {args : AttemptArgs} : c.pending = some args ↔ c.phase = .recording args := by
  unfold Claim.pending
  cases c.phase <;> simp

theorem record_cases (s : Outbox) (i : Nat) :
    s.record i = (none, s) ∨ ∃ c args, s.claims[i]? = some c ∧ c.phase = .recording args ∧
      match s.db.deliveries.get? c.deliveryId with
      | none => ∃ outcome, s.record i =
          (some (.error (.keyError c.deliveryId)), s.setPhase i (.answered outcome))
      | some row =>
        s.record i = if recordGuard row c.row.leaseUntil args.now then
            (some (.ok ()), { s with db := s.db.recorded c.deliveryId args row }.setPhase i .finished)
          else (some (.error .leaseConflict), s.setPhase i .finished) := by
  cases hc : s.claims[i]? with
  | none => exact .inl (by simp [Outbox.record, hc])
  | some c =>
    cases hpending : c.pending with
    | none => exact .inl (by simp [Outbox.record, hc, hpending])
    | some args =>
      refine .inr ⟨c, args, rfl, pending_iff.mp hpending, ?_⟩
      cases hrow : s.db.deliveries.get? c.deliveryId with
      | none => exact ⟨_, by simp [Outbox.record, hc, hpending, recordAttempt, hrow]; rfl⟩
      | some row => exact record_of_pending hc hpending hrow

section Record

variable {cfg : WorkerConfig} {s : Outbox} {db : OutboxDb} {args : AttemptArgs} {row : DeliveryRow}

theorem logOf_recorded (db : OutboxDb) (id id' : String) (args : AttemptArgs) (row : DeliveryRow) :
    (db.recorded id args row).logOf id' =
      if id = id' then db.logOf id' ++ [args.logged id] else db.logOf id' := by
  unfold OutboxDb.recorded OutboxDb.logOf
  rw [filter_append]
  by_cases hid : id = id'
  · simp [hid, AttemptArgs.logged]
  · simp [hid, AttemptArgs.logged]

theorem countAttempts_recorded (db : OutboxDb) (id id' : String) (args : AttemptArgs)
    (row : DeliveryRow) (outcome : AttemptOutcome) :
    (db.recorded id args row).countAttempts id' outcome =
      db.countAttempts id' outcome + if id = id' ∧ args.outcome = outcome then 1 else 0 := by
  unfold OutboxDb.countAttempts
  rw [logOf_recorded]
  by_cases hid : id = id'
  · by_cases houtcome : args.outcome = outcome
    · simp [hid, houtcome, AttemptArgs.logged]
    · simp [hid, houtcome, AttemptArgs.logged]
  · simp [hid]

theorem get?_recorded (db : OutboxDb) (id id' : String) (args : AttemptArgs) (row : DeliveryRow) :
    (db.recorded id args row).deliveries.get? id' =
      if id = id' then some (args.apply row) else db.deliveries.get? id' :=
  get?_upsert db.deliveries id id' (args.apply row)

variable {c : Claim}

theorem RowInv.recorded (h : RowInv cfg db c.deliveryId row)
    (hready : AttemptReady cfg db c row args) (hcurrent : c.Current row)
    (hattempts : row.attempts = c.row.attempts) :
    RowInv cfg (db.recorded c.deliveryId args row) c.deliveryId (args.apply row) := by
  have hopen : row.status.terminal = false := by rw [hcurrent.1]; rfl
  have hno := hready.attemptNo
  have hlt := h.attempts_lt hopen
  have haccepted := h.not_accepted hopen
  have hunknown := h.unknown_open hopen
  have hcounted := h.counted
  have hnext : (args.apply row).attempts = row.attempts + 1 := by
    show max row.attempts args.attemptNo = row.attempts + 1
    omega
  have hlength : ((db.recorded c.deliveryId args row).logOf c.deliveryId).length =
      (db.logOf c.deliveryId).length + 1 := by
    rw [logOf_recorded, if_pos rfl, length_append]
    rfl
  have hretrying : (args.apply row).status.terminal = false → args.newStatus = .retrying := by
    intro hstatus
    refine hready.closes.resolve_right fun hterminal => ?_
    have hstatus : args.newStatus.terminal = false := hstatus
    rw [hterminal] at hstatus
    cases hstatus
  constructor
  · omega
  · omega
  · rw [countAttempts_recorded]
    split <;> omega
  · rw [countAttempts_recorded]
    split <;> omega
  · intro hstatus
    have hbudget := hready.budget (hretrying hstatus)
    omega
  · intro hstatus
    rw [countAttempts_recorded, if_neg (fun hand => hready.open_ (hretrying hstatus) hand.2), haccepted]
  · intro hstatus
    rw [countAttempts_recorded]
    split
    · next hand =>
      have hbudget := hready.unknown (hretrying hstatus) hand.2 hcurrent
      omega
    · omega

theorem RowInv.recorded_of_ne {id id' : String} (h : RowInv cfg db id' row) (hne : id ≠ id')
    {row' : DeliveryRow} : RowInv cfg (db.recorded id args row') id' row := by
  have hlog : (db.recorded id args row').logOf id' = db.logOf id' := by
    rw [logOf_recorded, if_neg hne]
  have hcount : ∀ outcome, (db.recorded id args row').countAttempts id' outcome =
      db.countAttempts id' outcome := by
    intro outcome
    rw [OutboxDb.countAttempts, hlog]
    rfl
  exact ⟨by rw [hlog]; exact h.counted, h.attempts_le, by rw [hcount]; exact h.accepted_le,
    by rw [hcount]; exact h.unknown_le, h.attempts_lt, by rw [hcount]; exact h.not_accepted,
    by rw [hcount]; exact h.unknown_open⟩

theorem not_current_apply (hready : AttemptReady cfg db c row args) (c' : Claim) :
    ¬ c'.Current (args.apply row) := by
  intro hcurrent
  have hstatus : args.newStatus = .delivering := hcurrent.1
  cases hready.closes with
  | inl hretrying => simp [hretrying] at hstatus
  | inr hterminal => simp [hstatus, terminal] at hterminal

theorem OutboxInv.recorded (h : OutboxInv cfg s) {i : Nat} (hc : s.claims[i]? = some c)
    (hphase : c.phase = .recording args) (hrow : s.db.deliveries.get? c.deliveryId = some row)
    (hguard : recordGuard row c.row.leaseUntil args.now) :
    OutboxInv cfg ({ s with db := s.db.recorded c.deliveryId args row }.setPhase i .finished) := by
  have hlive : c.live := by simp [Claim.live, hphase]
  obtain ⟨lease, row', hinv⟩ := h.claims hc hlive
  obtain rfl := some.inj (hrow.symm.trans hinv.stored)
  have hcurrent := ((recordGuard_iff hinv.given).mp hguard).1
  have hattempts : row.attempts = c.row.attempts := by
    cases hinv.held with
    | inl hheld => exact hheld.2
    | inr hstale => exact absurd hcurrent hstale.1
  have hready := hinv.ready args hphase
  -- the other claims of the delivery are stale already
  have hstale : ∀ {j : Nat} {d : Claim}, s.claims[j]? = some d → d.live → i ≠ j →
      d.deliveryId = c.deliveryId → ¬ d.Current row := by
    intro j d hd hdlive hij hsame
    rcases Nat.lt_or_gt_of_ne hij with hlt | hgt
    · exact absurd hcurrent (h.latest hlt hc hd hsame.symm hlive hrow)
    · exact h.latest hgt hd hc hsame hdlive (hsame ▸ hrow)
  constructor
  · intro id row' hrow'
    have hget : (s.db.recorded c.deliveryId args row).deliveries.get? id = some row' := hrow'
    rw [get?_recorded] at hget
    by_cases hid : c.deliveryId = id
    · rw [if_pos hid] at hget
      obtain rfl := some.inj hget
      subst hid
      exact (h.rows hrow).recorded hready hcurrent hattempts
    · rw [if_neg hid] at hget
      exact (h.rows hget).recorded_of_ne hid
  · intro j d hd hdlive
    obtain ⟨d₀, hd₀, rfl⟩ := getElem?_setPhase hd
    by_cases hij : i = j
    · rw [if_pos hij] at hdlive
      simp [Claim.live] at hdlive
    · rw [if_neg hij] at hdlive ⊢
      have hd₀ : s.claims[j]? = some d₀ := hd₀
      obtain ⟨lease', row', hinv'⟩ := h.claims hd₀ hdlive
      by_cases hid : c.deliveryId = d₀.deliveryId
      · have hnot := hstale hd₀ hdlive hij hid.symm
        obtain rfl := some.inj (hrow.symm.trans (hid ▸ hinv'.stored))
        have hover : lease' ≤ s.clock := by
          cases hinv'.held with
          | inl hheld => exact absurd hheld.1 hnot
          | inr hheld => exact hheld.2
        refine ⟨lease', args.apply row, hinv'.given, ?_,
          .inr ⟨not_current_apply hready d₀, hover⟩, fun args' hargs' => ?_⟩
        · show (s.db.recorded c.deliveryId args row).deliveries.get? d₀.deliveryId = _
          rw [get?_recorded, if_pos hid]
        · have hold := hinv'.ready args' hargs'
          exact ⟨hold.attemptNo, hold.closes, hold.budget, hold.open_,
            fun _ _ hcur => absurd hcur (not_current_apply hready d₀)⟩
      · refine ⟨lease', row', hinv'.given, ?_, hinv'.held, fun args' hargs' => ?_⟩
        · show (s.db.recorded c.deliveryId args row).deliveries.get? d₀.deliveryId = _
          rw [get?_recorded, if_neg hid]
          exact hinv'.stored
        · have hold := hinv'.ready args' hargs'
          refine ⟨hold.attemptNo, hold.closes, hold.budget, hold.open_, fun hr hu hcur => ?_⟩
          show (s.db.recorded c.deliveryId args row).countAttempts d₀.deliveryId .unknown < _
          rw [countAttempts_recorded, if_neg (fun hand => hid hand.1)]
          exact hold.unknown hr hu hcur
  · intro j k d e row' hlt hd he hsame hdlive hrow'
    obtain ⟨d₀, hd₀, rfl⟩ := getElem?_setPhase hd
    obtain ⟨e₀, he₀, rfl⟩ := getElem?_setPhase he
    have he_id : (if i = k then { e₀ with phase := .finished } else e₀).deliveryId = e₀.deliveryId := by
      split <;> rfl
    by_cases hij : i = j
    · rw [if_pos hij] at hdlive
      simp [Claim.live] at hdlive
    · rw [if_neg hij] at hsame hdlive hrow' ⊢
      have hget : (s.db.recorded c.deliveryId args row).deliveries.get? d₀.deliveryId = some row' :=
        hrow'
      rw [get?_recorded] at hget
      by_cases hid : c.deliveryId = d₀.deliveryId
      · rw [if_pos hid] at hget
        obtain rfl := some.inj hget
        exact not_current_apply hready d₀
      · rw [if_neg hid] at hget
        exact h.latest hlt hd₀ he₀ (hsame.trans he_id) hdlive hget

theorem OutboxInv.record (h : OutboxInv cfg s) (i : Nat) : OutboxInv cfg (s.record i).2 := by
  rcases record_cases s i with hnone | ⟨c, args, hc, hphase, hrecord⟩
  · rw [hnone]
    exact h
  · have hlive : c.live := by simp [Claim.live, hphase]
    obtain ⟨lease, row, hinv⟩ := h.claims hc hlive
    simp only [hinv.stored] at hrecord
    rw [hrecord]
    by_cases hguard : recordGuard row c.row.leaseUntil args.now
    · rw [if_pos hguard]
      exact h.recorded hc hphase hinv.stored hguard
    · rw [if_neg hguard]
      exact h.setPhase fun c' hc' hne => absurd rfl hne

end Record

/-! ## a claim -/

section ClaimBatch

variable {cfg : WorkerConfig} {s : Outbox}

theorem nodup_claimCandidates (db : OutboxDb) (now : Int) (limit : Nat) (locked : List String) :
    ((claimCandidates db now limit locked).map Prod.fst).Nodup := by
  unfold claimCandidates
  have hselect := nodup_keys_select db.deliveries fun id row =>
    claimableGuard now row && !locked.contains id
  have hsorted := ((perm_sortBy claimOrder (db.deliveries.select fun id row =>
    claimableGuard now row && !locked.contains id)).map Prod.fst).nodup_iff.mpr hselect
  exact hsorted.sublist ((take_sublist _ _).map Prod.fst)

variable {now : Int}

theorem of_mem_claimCandidates {db : OutboxDb} {limit : Nat} {locked : List String}
    {e : String × DeliveryRow} (h : e ∈ claimCandidates db now limit locked) :
    db.deliveries.get? e.1 = some e.2 ∧ claimableGuard now e.2 := by
  have hmem := mem_sortBy.mp (mem_of_mem_take h)
  obtain ⟨hget, hguard⟩ := mem_select.mp hmem
  rw [Bool.and_eq_true] at hguard
  exact ⟨hget, hguard.1⟩

theorem claimableGuard_spec {row : DeliveryRow} (h : claimableGuard now row) :
    row.status.terminal = false ∧
      ∀ lease, row.status = .delivering → row.leaseUntil = some lease → lease ≤ now := by
  unfold claimableGuard at h
  cases hstatus : row.status with
  | pending => exact ⟨rfl, fun _ => nofun⟩
  | retrying => exact ⟨rfl, fun _ => nofun⟩
  | delivering =>
    simp only [hstatus] at h
    refine ⟨rfl, fun lease _ hlease => ?_⟩
    simpa [hlease] using h
  | delivered => simp [hstatus] at h
  | failed => simp [hstatus] at h
  | expired => simp [hstatus] at h

/-- The state after a batch was claimed under a lease. -/
def Outbox.claimed (s : Outbox) (worker : String) (leaseUntil : Int)
    (batch : List (String × DeliveryRow)) : Outbox :=
  { s with
    db := { s.db with
      deliveries := s.db.deliveries.mapRows fun id row =>
        if (batch.map Prod.fst).contains id then row.leased leaseUntil s.clock else row }
    claims := s.claims ++ batch.map fun e =>
      { worker, deliveryId := e.1, row := e.2.leased leaseUntil s.clock } }

structure Claimable (s : Outbox) (batch : List (String × DeliveryRow)) : Prop where
  nodup : (batch.map Prod.fst).Nodup
  stored : ∀ e ∈ batch, s.db.deliveries.get? e.1 = some e.2
  due : ∀ e ∈ batch, claimableGuard s.clock e.2 = true

theorem step_claim (cfg : WorkerConfig) (s : Outbox) (worker : String) (limit : Nat)
    (leaseSeconds : Int) (locked : List String) :
    s.step cfg (.claim worker limit leaseSeconds locked) = s ∨
      ∃ leaseUntil batch, s.clock < leaseUntil ∧ Claimable s batch ∧
        s.step cfg (.claim worker limit leaseSeconds locked) = s.claimed worker leaseUntil batch := by
  unfold Outbox.step claimDeliveries
  by_cases hlimit : limit < 1
  · left
    simp only [hlimit, if_true]
  · right
    refine ⟨s.clock + max 1 leaseSeconds * microsPerSecond,
      claimCandidates s.db s.clock limit locked, ?_, ?_, ?_⟩
    · unfold microsPerSecond
      omega
    · exact ⟨nodup_claimCandidates _ _ _ _, fun e he => (of_mem_claimCandidates he).1,
        fun e he => (of_mem_claimCandidates he).2⟩
    · simp only [hlimit, if_false, Outbox.claimed, List.map_map]
      rfl

theorem get?_claimed (s : Outbox) (worker : String) (leaseUntil : Int)
    (batch : List (String × DeliveryRow)) (id : String) :
    (s.claimed worker leaseUntil batch).db.deliveries.get? id = (s.db.deliveries.get? id).map fun row =>
        if id ∈ batch.map Prod.fst then row.leased leaseUntil s.clock else row := by
  unfold Outbox.claimed
  rw [get?_mapRows]
  simp only [contains_iff_mem]

variable {batch : List (String × DeliveryRow)}

theorem Claimable.row (h : Claimable s batch) {id : String} (hid : id ∈ batch.map Prod.fst)
    {row : DeliveryRow} (hrow : s.db.deliveries.get? id = some row) :
    claimableGuard s.clock row := by
  obtain ⟨e, he, rfl⟩ := mem_map.mp hid
  obtain rfl := some.inj (hrow.symm.trans (h.stored e he))
  exact h.due e he

variable {c : Claim} {lease : Int}

theorem ClaimInv.lease_le {row : DeliveryRow} (h : ClaimInv cfg s c lease row)
    (hbatch : Claimable s batch) (hid : c.deliveryId ∈ batch.map Prod.fst) : lease ≤ s.clock := by
  cases h.held with
  | inl hheld =>
    have hdue := (claimableGuard_spec (hbatch.row hid h.stored)).2
    exact hdue lease hheld.1.1 (hheld.1.2.trans h.given)
  | inr hstale => exact hstale.2

variable {leaseUntil : Int}

theorem not_current_leased {clock : Int} (hgiven : c.row.leaseUntil = some lease)
    (hle : lease ≤ clock) (hlt : clock < leaseUntil) (row : DeliveryRow) (now : Int) :
    ¬ c.Current (row.leased leaseUntil now) := by
  intro hcurrent
  have hlease : some leaseUntil = c.row.leaseUntil := hcurrent.2
  rw [hgiven, some.injEq] at hlease
  omega

theorem getElem?_claimed {worker : String} {i : Nat}
    (hc : (s.claimed worker leaseUntil batch).claims[i]? = some c) :
    s.claims[i]? = some c ∨ s.claims.length ≤ i ∧ ∃ e, batch[i - s.claims.length]? = some e ∧
      c = { worker, deliveryId := e.1, row := e.2.leased leaseUntil s.clock } := by
  have hget : (s.claims ++ batch.map fun e =>
      ({ worker, deliveryId := e.1, row := e.2.leased leaseUntil s.clock } : Claim))[i]? = some c := hc
  by_cases hi : i < s.claims.length
  · rw [getElem?_append_left hi] at hget
    exact .inl hget
  · rw [getElem?_append_right (by omega), getElem?_map] at hget
    obtain ⟨e, he, rfl⟩ := map_eq_some_iff.mp hget
    exact .inr ⟨by omega, e, he, rfl⟩

theorem OutboxInv.claimed (h : OutboxInv cfg s) (worker : String) (hlt : s.clock < leaseUntil)
    (hbatch : Claimable s batch) : OutboxInv cfg (s.claimed worker leaseUntil batch) := by
  constructor
  · intro id row hrow
    rw [get?_claimed] at hrow
    obtain ⟨row₀, hrow₀, rfl⟩ := map_eq_some_iff.mp hrow
    have hinv := h.rows hrow₀
    by_cases hid : id ∈ batch.map Prod.fst
    · rw [if_pos hid]
      have hopen := (claimableGuard_spec (hbatch.row hid hrow₀)).1
      exact ⟨hinv.counted, hinv.attempts_le, hinv.accepted_le, hinv.unknown_le,
        fun _ => hinv.attempts_lt hopen, fun _ => hinv.not_accepted hopen, fun _ => hinv.unknown_open hopen⟩
    · rw [if_neg hid]
      exact ⟨hinv.counted, hinv.attempts_le, hinv.accepted_le, hinv.unknown_le,
        hinv.attempts_lt, hinv.not_accepted, hinv.unknown_open⟩
  · intro i c hc hlive
    rcases getElem?_claimed hc with hold | ⟨-, e, he, rfl⟩
    · obtain ⟨lease, row, hinv⟩ := h.claims hold hlive
      have hstored := get?_claimed s worker leaseUntil batch c.deliveryId
      rw [hinv.stored, map_some] at hstored
      by_cases hid : c.deliveryId ∈ batch.map Prod.fst
      · rw [if_pos hid] at hstored
        have hle := hinv.lease_le hbatch hid
        have hnot := not_current_leased hinv.given hle hlt row s.clock
        refine ⟨lease, _, hinv.given, hstored, .inr ⟨hnot, hle⟩, fun args hargs => ?_⟩
        have hready := hinv.ready args hargs
        exact ⟨hready.attemptNo, hready.closes, hready.budget, hready.open_,
          fun _ _ hcurrent => absurd hcurrent hnot⟩
      · rw [if_neg hid] at hstored
        refine ⟨lease, row, hinv.given, hstored, hinv.held, fun args hargs => ?_⟩
        have hready := hinv.ready args hargs
        exact ⟨hready.attemptNo, hready.closes, hready.budget, hready.open_, hready.unknown⟩
    · have hmem := mem_of_getElem? he
      have hid : e.1 ∈ batch.map Prod.fst := mem_map_of_mem hmem
      refine ⟨leaseUntil, e.2.leased leaseUntil s.clock, rfl, ?_, .inl ⟨⟨rfl, rfl⟩, rfl⟩, ?_⟩
      · show (s.claimed worker leaseUntil batch).db.deliveries.get? e.1 = _
        rw [get?_claimed, hbatch.stored e hmem, map_some, if_pos hid]
      · intro args hargs
        cases hargs
  · intro i j c d row hij hc hd hsame hlive hrow
    rw [get?_claimed] at hrow
    obtain ⟨row₀, hrow₀, rfl⟩ := map_eq_some_iff.mp hrow
    rcases getElem?_claimed hc with hold | ⟨hi, e, he, rfl⟩
    · obtain ⟨lease, row, hinv⟩ := h.claims hold hlive
      by_cases hid : c.deliveryId ∈ batch.map Prod.fst
      · rw [if_pos hid]
        exact not_current_leased hinv.given (hinv.lease_le hbatch hid) hlt row₀ s.clock
      · rw [if_neg hid]
        rcases getElem?_claimed hd with hdold | ⟨-, e, he, rfl⟩
        · exact h.latest hij hold hdold hsame hlive hrow₀
        · exact absurd (hsame ▸ mem_map_of_mem (mem_of_getElem? he)) hid
    · -- two new claims are of different deliveries
      rcases getElem?_claimed hd with hdold | ⟨-, e', he', rfl⟩
      · have hj := List.getElem?_eq_some_iff.mp hdold
        obtain ⟨hj, -⟩ := hj
        omega
      · have hfst : (batch.map Prod.fst)[i - s.claims.length]? = some e.1 := by
          rw [getElem?_map, he]
          rfl
        have hfst' : (batch.map Prod.fst)[j - s.claims.length]? = some e.1 := by
          rw [getElem?_map, he']
          exact congrArg some hsame.symm
        have hlength : i - s.claims.length < (batch.map Prod.fst).length :=
          (List.getElem?_eq_some_iff.mp hfst).1
        have heq := (getElem?_inj hlength hbatch.nodup).mp (hfst.trans hfst'.symm)
        omega

end ClaimBatch

/-! ## interleavings -/

section Interleavings

variable {cfg : WorkerConfig} {s : Outbox}

theorem OutboxInv.step (h : OutboxInv cfg s) (step : OutboxStep) : OutboxInv cfg (s.step cfg step) := by
  cases step with
  | tick elapsed => exact h.tick elapsed
  | claim worker limit leaseSeconds locked =>
    rcases step_claim cfg s worker limit leaseSeconds locked with
      hsame | ⟨leaseUntil, batch, hlt, hbatch, hclaimed⟩
    · rw [hsame]
      exact h
    · rw [hclaimed]
      exact h.claimed worker hlt hbatch
  | record i => exact h.record i
  | start i => exact h.advance i _
  | resolve i resolution => exact h.advance i _
  | answer i outcome => exact h.advance i _
  | fail i detail => exact h.advance i _
  | complete i jitter => exact h.advance i _
  | crash i => exact h.advance i _

theorem OutboxInv.after (h : OutboxInv cfg s) (steps : List OutboxStep) :
    OutboxInv cfg (s.after cfg steps) := by
  induction steps generalizing s with
  | nil => exact h
  | cons step rest ih => exact ih (h.step step)

theorem advance_db (cfg : WorkerConfig) (s : Outbox) (i : Nat) (step : OutboxStep) :
    (s.advance cfg i step).db = s.db := by
  unfold Outbox.advance
  cases s.claims[i]? <;> rfl

variable {id : String}

theorem get?_step_of_terminal {row : DeliveryRow} (hrow : s.db.deliveries.get? id = some row)
    (hterminal : row.status.terminal) (step : OutboxStep) :
    (s.step cfg step).db.deliveries.get? id = some row := by
  cases step with
  | tick elapsed => exact hrow
  | claim worker limit leaseSeconds locked =>
    rcases step_claim cfg s worker limit leaseSeconds locked with
      hsame | ⟨leaseUntil, batch, hlt, hbatch, hclaimed⟩
    · rw [hsame]
      exact hrow
    · have hid : id ∉ batch.map Prod.fst := by
        intro hid
        have hopen := (claimableGuard_spec (hbatch.row hid hrow)).1
        rw [hterminal] at hopen
        cases hopen
      rw [hclaimed, get?_claimed, hrow, map_some, if_neg hid]
  | record i =>
    show (s.record i).2.db.deliveries.get? id = some row
    rcases record_cases s i with hnone | ⟨c, args, hc, hphase, hrecord⟩
    · rw [hnone]
      exact hrow
    · cases hstored : s.db.deliveries.get? c.deliveryId with
      | none =>
        simp only [hstored] at hrecord
        obtain ⟨outcome, hrecord⟩ := hrecord
        rw [hrecord]
        exact hrow
      | some row' =>
        simp only [hstored] at hrecord
        rw [hrecord]
        by_cases hguard : recordGuard row' c.row.leaseUntil args.now
        · have hne : c.deliveryId ≠ id := by
            intro hid
            obtain rfl := some.inj (hrow.symm.trans (hid ▸ hstored))
            have hstatus : row.status = .delivering := by
              simp only [recordGuard, Bool.and_eq_true, decide_eq_true_eq] at hguard
              exact hguard.1.1
            simp [hstatus, terminal] at hterminal
          rw [if_pos hguard]
          show (s.db.recorded c.deliveryId args row').deliveries.get? id = some row
          rw [get?_recorded, if_neg hne]
          exact hrow
        · rw [if_neg hguard]
          exact hrow
  | start i => exact advance_db cfg s i _ ▸ hrow
  | resolve i resolution => exact advance_db cfg s i _ ▸ hrow
  | answer i outcome => exact advance_db cfg s i _ ▸ hrow
  | fail i detail => exact advance_db cfg s i _ ▸ hrow
  | complete i jitter => exact advance_db cfg s i _ ▸ hrow
  | crash i => exact advance_db cfg s i _ ▸ hrow

theorem get?_after_of_terminal {row : DeliveryRow} (hrow : s.db.deliveries.get? id = some row)
    (hterminal : row.status.terminal) (steps : List OutboxStep) :
    (s.after cfg steps).db.deliveries.get? id = some row := by
  induction steps generalizing s with
  | nil => exact hrow
  | cons step rest ih => exact ih (get?_step_of_terminal hrow hterminal step)

theorem OutboxInv.safe (h : OutboxInv cfg s) {row : DeliveryRow}
    (hrow : s.db.deliveries.get? id = some row) : DeliverySafe cfg s id row where
  counted := (h.rows hrow).counted
  acceptedOnce := (h.rows hrow).accepted_le
  attempts_le := (h.rows hrow).counted ▸ (h.rows hrow).attempts_le
  unknown_le := (h.rows hrow).unknown_le
  single := by
    intro i j c d now now' hc hd hclive hdlive hcid hdid hguard hguard'
    obtain ⟨lease, _, hinv⟩ := h.claims hc hclive
    obtain ⟨lease', _, hinv'⟩ := h.claims hd hdlive
    have hcurrent := ((recordGuard_iff hinv.given).mp hguard).1
    have hcurrent' := ((recordGuard_iff hinv'.given).mp hguard').1
    rcases Nat.lt_trichotomy i j with hlt | heq | hgt
    · exact absurd hcurrent (h.latest hlt hc hd (hcid.trans hdid.symm) hclive (hcid ▸ hrow))
    · exact heq
    · exact absurd hcurrent' (h.latest hgt hd hc (hdid.trans hcid.symm) hdlive (hdid ▸ hrow))

/-- From fresh deliveries, the outbox is safe along an interleaving exactly when its
records are punctual. -/
theorem outbox_safe_iff_punctual (hfresh : s.Fresh) (steps : List OutboxStep) :
    OutboxSafe cfg s steps ↔ Punctual cfg s steps := by
  have hinv : ∀ past, OutboxInv cfg (s.after cfg past) := (hfresh.inv cfg).after
  constructor
  · intro hsafe past step rest hsteps i c args row lease hrecord hc hargs hrow hstatus hlease hgiven
      hnow
    by_contra hover
    have hguard : recordGuard row c.row.leaseUntil args.now = true :=
      (recordGuard_iff hgiven).mpr ⟨⟨hstatus, hlease.trans hgiven.symm⟩, hnow⟩
    have hconflict := (hsafe.fenced past step rest hsteps i c args hrecord hc hargs
      (.inl ⟨lease, hgiven, Int.not_lt.mp hover⟩)).1
    rw [record_of_pending hc hargs hrow, if_pos hguard] at hconflict
    cases hconflict
  · intro hpunctual
    constructor
    · intro past rest hsteps id row hrow
      exact (hinv past).safe hrow
    · intro past rest hsteps id row hrow hterminal
      rw [hsteps, Outbox.after, List.foldl_append]
      exact get?_after_of_terminal hrow hterminal rest
    · intro past step rest hsteps i c args hrecord hc hargs hlost
      have hlive : c.live = true := by simp [Claim.live, pending_iff.mp hargs]
      obtain ⟨lease, row, hclaim⟩ := (hinv past).claims hc hlive
      have hguard : ¬ recordGuard row c.row.leaseUntil args.now = true := by
        intro hguard
        obtain ⟨hcurrent, hnow⟩ := (recordGuard_iff hclaim.given).mp hguard
        cases hlost with
        | inl hover =>
          obtain ⟨t, ht, hle⟩ := hover
          obtain rfl := Option.some.inj (hclaim.given.symm.trans ht)
          have hlt := hpunctual past step rest hsteps i c args row lease hrecord hc hargs
            hclaim.stored hcurrent.1 (hcurrent.2.trans hclaim.given) hclaim.given hnow
          omega
        | inr hreclaimed =>
          obtain ⟨j, d, hij, hd, hsame⟩ := hreclaimed
          exact (hinv past).latest hij hc hd hsame.symm hlive hclaim.stored hcurrent
      rw [record_of_pending hc hargs hclaim.stored, if_neg hguard]
      exact ⟨rfl, rfl⟩

def oneDelivery : Outbox where
  clock := 0
  db :=
    { deliveries := Table.empty.upsert "d"
        { channelId := "c", nextAttemptAt := some 0, createdAt := 0, updatedAt := 0 } }

theorem oneDelivery_fresh : oneDelivery.Fresh where
  claims := rfl
  attempts := rfl
  pending := by
    intro id row hrow
    rw [oneDelivery, get?_upsert] at hrow
    by_cases hid : "d" = id
    · rw [if_pos hid] at hrow
      obtain rfl := some.inj hrow
      exact ⟨rfl, rfl⟩
    · rw [if_neg hid] at hrow
      cases hrow

/-- A delivery that is sent and recorded within its lease. -/
theorem sent_delivery_safe :
    OutboxSafe {} oneDelivery
        [.claim "w" 10 120 [], .start 0, .resolve 0 (.context none true),
          .answer 0 { status := .accepted }, .complete 0 0, .record 0] ↔
      Punctual {} oneDelivery
        [.claim "w" 10 120 [], .start 0, .resolve 0 (.context none true),
          .answer 0 { status := .accepted }, .complete 0 0, .record 0] :=
  outbox_safe_iff_punctual oneDelivery_fresh _

/-- A resolver that outlasts the lease: the record of the unresolvable context is
accepted although the lease is over. -/
theorem late_unresolvable_recorded :
    oneDelivery.Fresh ∧ ¬ OutboxSafe {} oneDelivery
        [.claim "w" 10 120 [], .start 0, .tick 130000000, .resolve 0 .unresolvable, .record 0] := by
  refine ⟨oneDelivery_fresh, fun hsafe => ?_⟩
  have hconflict := (hsafe.fenced
    [.claim "w" 10 120 [], .start 0, .tick 130000000, .resolve 0 .unresolvable] (.record 0) [] rfl 0
    ⟨"w", "d", ⟨"c", .delivering, 0, some 0, some 120000000, none, none, 0, 0⟩,
      .recording ⟨1, .permanent, "unresolvable_context", .failed, none, none,
        some "unresolvable_context", none, 0⟩⟩ _ rfl (by decide +kernel) rfl
    (.inl ⟨120000000, rfl, by decide +kernel⟩)).1
  revert hconflict
  decide +kernel

end Interleavings

/-! ## the log -/

/-- Attempts are numbered from one, and nothing is tried after an accepted one. -/
structure Numbered (log : List DeliveryAttempt) : Prop where
  numbers : log.map DeliveryAttempt.attemptNo = List.range' 1 log.length
  last : ∀ a ∈ log.dropLast, a.outcome ≠ .accepted

section Log

variable {cfg : WorkerConfig} {s : Outbox}

theorem Numbered.concat {log : List DeliveryAttempt} (h : Numbered log) {a : DeliveryAttempt}
    (hnumber : a.attemptNo = log.length + 1) (hopen : ∀ a ∈ log, a.outcome ≠ .accepted) :
    Numbered (log ++ [a]) := by
  refine ⟨?_, by rwa [List.dropLast_concat]⟩
  rw [List.map_append, h.numbers, List.length_append, List.length_singleton, ← List.range'_append_1]
  simp [hnumber, Nat.add_comm]

theorem numbered_step (h : OutboxInv cfg s) (hlog : ∀ id, Numbered (s.db.logOf id))
    (step : OutboxStep) (id : String) : Numbered ((s.step cfg step).db.logOf id) := by
  cases step with
  | tick elapsed => exact hlog id
  | claim worker limit leaseSeconds locked =>
    rcases step_claim cfg s worker limit leaseSeconds locked with hsame | ⟨leaseUntil, batch, -, -, hclaimed⟩
    · rw [hsame]
      exact hlog id
    · rw [hclaimed]
      exact hlog id
  | record i =>
    show Numbered ((s.record i).2.db.logOf id)
    rcases record_cases s i with hnone | ⟨c, args, hc, hphase, hrecord⟩
    · rw [hnone]
      exact hlog id
    · obtain ⟨lease, row, hinv⟩ := h.claims hc (by simp [Claim.live, hphase])
      simp only [hinv.stored] at hrecord
      rw [hrecord]
      by_cases hguard : recordGuard row c.row.leaseUntil args.now = true
      · rw [if_pos hguard]
        show Numbered ((s.db.recorded c.deliveryId args row).logOf id)
        rw [logOf_recorded]
        split
        · next hid =>
          subst hid
          have hcurrent := ((recordGuard_iff hinv.given).mp hguard).1
          have hrow := h.rows hinv.stored
          have hopen : row.status.terminal = false := by simp [hcurrent.1, DeliveryStatus.terminal]
          have hattempts := (hinv.held.resolve_right fun hstale => hstale.1 hcurrent).2
          refine (hlog _).concat ?_ fun a ha haccepted => ?_
          · rw [← hrow.counted, hattempts]
            exact (hinv.ready args hphase).attemptNo
          · have hnone := List.filter_eq_nil_iff.mp (List.length_eq_zero_iff.mp (hrow.not_accepted hopen))
            exact hnone a ha (decide_eq_true haccepted)
        · exact hlog id
      · rw [if_neg hguard]
        exact hlog id
  | start i => exact advance_db cfg s i _ ▸ hlog id
  | resolve i resolution => exact advance_db cfg s i _ ▸ hlog id
  | answer i outcome => exact advance_db cfg s i _ ▸ hlog id
  | fail i detail => exact advance_db cfg s i _ ▸ hlog id
  | complete i jitter => exact advance_db cfg s i _ ▸ hlog id
  | crash i => exact advance_db cfg s i _ ▸ hlog id

/-- Whenever leases run out: the attempts of a delivery are numbered, and an accepted one is the last. -/
theorem attempts_numbered (hfresh : s.Fresh) (steps : List OutboxStep) (id : String) :
    Numbered ((s.after cfg steps).db.logOf id) := by
  have hempty (id : String) : Numbered (s.db.logOf id) := by
    rw [OutboxDb.logOf, hfresh.attempts]
    exact ⟨rfl, fun _ => nofun⟩
  have hrun : ∀ {s : Outbox}, OutboxInv cfg s → (∀ id, Numbered (s.db.logOf id)) →
      Numbered ((s.after cfg steps).db.logOf id) := by
    induction steps with
    | nil => exact fun _ hlog => hlog id
    | cons step rest ih => exact fun h hlog => ih (h.step step) (numbered_step h hlog step)
  exact hrun (hfresh.inv cfg) hempty

theorem attempts_numbered_retry : Numbered ((oneDelivery.after {}
    [.claim "w" 10 120 [], .start 0, .resolve 0 (.context none true), .answer 0 { status := .accepted },
      .complete 0 0, .record 0]).db.logOf "d") :=
  attempts_numbered oneDelivery_fresh _ "d"

end Log

end KiteAlgo
