import KiteAlgo.Compiler.Accepted
import KiteAlgo.Subscriptions

/-!
# KiteAlgo.Subscriptions.Exact

When the materialized rows are exactly the members, over whole runs of
`ensure_subscriptions` followed by `sync_universe_members`.

The loop of the sync runs over the alerts and, for each of them, over the pairs of
every alert, and it counts only member rows as known.  So a second alert, or a
member that is also an explicit instrument, adds a row twice and rolls the call
back; `universe_materialization_iff` says that nothing else goes wrong.
-/

namespace KiteAlgo

open Table Compile
variable {F : Type}

/-! ## explicit rows -/

/-- What `ensure_subscriptions` keeps of a row. -/
structure SameMembership (row row' : SubscriptionRow F) : Prop where
  state : row'.state = row.state
  member : row'.config.universeMember = row.config.universeMember
  departed : row'.config.universeDeparted = row.config.universeDeparted

/-- The key belongs to an explicit instrument of the document. -/
def IsExplicit (revisionId : String) (document : WorkflowDocument F) (key : SubscriptionKey) : Prop :=
  ∃ alert ∈ document.alerts, ∃ i ∈ document.instruments, key = ⟨revisionId, alert.id, i.key⟩

/-- The rows while `ensure_subscriptions` runs: those from before, and explicit rows
that are no members. -/
def EnsureInv (revisionId : String) (document : WorkflowDocument F)
    (before rows : Table SubscriptionKey (SubscriptionRow F)) : Prop :=
  ∀ key row', rows.get? key = some row' → (∃ row, before.get? key = some row ∧ SameMembership row row') ∨
    (before.get? key = none ∧ row'.config.universeMember = false ∧ IsExplicit revisionId document key)

theorem ensureRow_inv {revisionId : String} {document : WorkflowDocument F}
    (binding : String → Option (Dict Key (PyVal F)))
    {before : Table SubscriptionKey (SubscriptionRow F)} {alert : AlertSpec F}
    {acc : Table SubscriptionKey (SubscriptionRow F) × Nat} {i : InstrumentRef}
    (halert : alert ∈ document.alerts) (hi : i ∈ document.instruments)
    (hinv : EnsureInv revisionId document before acc.1)
    (hkept : ∀ key row, before.get? key = some row → (acc.1.get? key).isSome = true) :
    EnsureInv revisionId document before (ensureRow revisionId binding before alert acc i).1 ∧
      (∀ key, (acc.1.get? key).isSome = true →
        ((ensureRow revisionId binding before alert acc i).1.get? key).isSome = true) ∧
      ((ensureRow revisionId binding before alert acc i).1.get?
        ⟨revisionId, alert.id, i.key⟩).isSome = true := by
  simp only [ensureRow]
  cases hrow : acc.1.get? ⟨revisionId, alert.id, i.key⟩ with
  | some row =>
    simp only
    split
    · refine ⟨fun key row' h => ?_, fun key h => ?_, by simp⟩
      · rw [get?_upsert] at h
        split at h
        · next hkey =>
            subst hkey
            obtain rfl := Option.some.inj h
            rcases hinv _ row hrow with ⟨old, hold, hsame⟩ | ⟨hnone, hmember, hexplicit⟩
            · exact .inl ⟨old, hold, hsame.1, hsame.2, hsame.3⟩
            · exact .inr ⟨hnone, hmember, hexplicit⟩
        · exact hinv key row' h
      · rw [get?_upsert]
        split
        · rfl
        · exact h
    · exact ⟨hinv, fun _ h => h, by simp [hrow]⟩
  | none =>
    simp only
    refine ⟨fun key row' h => ?_, fun key h => ?_, by simp⟩
    · rw [get?_upsert] at h
      split at h
      · next hkey =>
          subst hkey
          obtain rfl := Option.some.inj h
          refine .inr ⟨?_, rfl, alert, halert, i, hi, rfl⟩
          cases hold : before.get? ⟨revisionId, alert.id, i.key⟩ with
          | none => rfl
          | some old => simpa [hrow] using hkept _ old hold
      · exact hinv key row' h
    · rw [get?_upsert]
      split
      · rfl
      · exact h

theorem ensureRows_spec (revisionId : String) (document : WorkflowDocument F)
    (binding : String → Option (Dict Key (PyVal F)))
    (before : Table SubscriptionKey (SubscriptionRow F)) :
    EnsureInv revisionId document before (ensureRows revisionId document binding before).1 ∧
      (∀ key, (before.get? key).isSome = true →
        ((ensureRows revisionId document binding before).1.get? key).isSome = true) ∧
      ∀ key, IsExplicit revisionId document key →
        ((ensureRows revisionId document binding before).1.get? key).isSome = true := by
  have hloop : ∀ (pairs : List (AlertSpec F × InstrumentRef))
      (acc : Table SubscriptionKey (SubscriptionRow F) × Nat),
      (∀ p ∈ pairs, p.1 ∈ document.alerts ∧ p.2 ∈ document.instruments) →
      EnsureInv revisionId document before acc.1 →
      (∀ key, (before.get? key).isSome = true → (acc.1.get? key).isSome = true) →
      let out := pairs.foldl (fun acc p => ensureRow revisionId binding before p.1 acc p.2) acc
      EnsureInv revisionId document before out.1 ∧
        (∀ key, (acc.1.get? key).isSome = true → (out.1.get? key).isSome = true) ∧
        ∀ p ∈ pairs, (out.1.get? ⟨revisionId, p.1.id, p.2.key⟩).isSome = true := by
    intro pairs
    induction pairs with
    | nil => exact fun acc _ hinv _ => ⟨hinv, fun _ h => h, by simp⟩
    | cons p pairs ih =>
      intro acc hpairs hinv hkept
      obtain ⟨halert, hi⟩ := hpairs p (.head _)
      obtain ⟨hinv', hmono, hnew⟩ := ensureRow_inv binding halert hi hinv
        fun key row h => hkept key (by simp [h])
      obtain ⟨hout, hgrow, hall⟩ := ih (ensureRow revisionId binding before p.1 acc p.2)
        (fun q hq => hpairs q (List.mem_cons_of_mem p hq)) hinv' fun key h => hmono key (hkept key h)
      refine ⟨hout, fun key h => hgrow key (hmono key h), fun q hq => ?_⟩
      rcases List.mem_cons.mp hq with rfl | hq
      · exact hgrow _ hnew
      · exact hall q hq
  have hpairs : ∀ p ∈ document.alerts.flatMap fun alert => document.instruments.map fun i => (alert, i),
      p.1 ∈ document.alerts ∧ p.2 ∈ document.instruments := by
    intro p hp
    obtain ⟨alert, halert, hp⟩ := List.mem_flatMap.mp hp
    obtain ⟨i, hi, rfl⟩ := List.mem_map.mp hp
    exact ⟨halert, hi⟩
  obtain ⟨hinv, hmono, hall⟩ := hloop _ (before, 0) hpairs
    (fun key row' h => .inl ⟨row', h, rfl, rfl, rfl⟩) fun _ h => h
  refine ⟨hinv, hmono, ?_⟩
  rintro key ⟨alert, halert, i, hi, rfl⟩
  exact hall (alert, i) (List.mem_flatMap.mpr ⟨alert, halert, List.mem_map.mpr ⟨i, hi, rfl⟩⟩)

/-! ## the loop of a sync -/

theorem mem_keys_wantedMembers {alerts : List (AlertSpec F)} {args : SyncArgs F}
    {pair : String × String} :
    pair ∈ (wantedMembers alerts args).keys ↔
      ∃ alert ∈ alerts, ∃ m ∈ args.members, (alert.id, args.memberKey m) = pair := by
  have hkeys := mem_keys_foldl_set (fun p : String × String => p)
    (fun p => ((Text.partition p.2 ':').2, (Text.partition p.2 ':').1))
    (alerts.flatMap fun alert => args.members.map fun m => (alert.id, args.memberKey m)) [] pair
  refine hkeys.trans ?_
  simp only [Dict.keys, List.map_nil, List.not_mem_nil, false_or, List.mem_flatMap, List.mem_map,
    exists_eq_right]

theorem nodup_keys_wantedMembers (alerts : List (AlertSpec F)) (args : SyncArgs F) :
    (wantedMembers alerts args).keys.Nodup := by
  refine nodup_keys_foldl_set _ _ _ ?_
  simp [Dict.keys]

/-- An alert with an entry of `wanted`. -/
abbrev SyncPair (F : Type) := AlertSpec F × ((String × String) × (String × String))

def syncKey (revisionId : String) (pair : SyncPair F) : SubscriptionKey :=
  ⟨revisionId, pair.1.id, pair.2.1.2⟩

section Loop

variable {revisionId : String} {document : WorkflowDocument F} {args : SyncArgs F}
  {before : Table SubscriptionKey (SubscriptionRow F)}

variable {out progress : SyncProgress F} {pair : SyncPair F}

@[simp] theorem reset_rows (progress : SyncProgress F) (alert : AlertSpec F) (member : String) :
    (progress.reset document alert member).rows = progress.rows := by
  unfold SyncProgress.reset
  split <;> rfl

theorem syncItem_grows
    (h : syncItem revisionId document args before pair.1 progress pair.2 = .ok out) :
    (∀ key, (progress.rows.get? key).isSome = true → (out.rows.get? key).isSome = true) ∧
      (isMember (before.get? (syncKey revisionId pair)) = false →
        progress.rows.get? (syncKey revisionId pair) = none ∧
          (out.rows.get? (syncKey revisionId pair)).isSome = true) := by
  have hupsert : ∀ (key k : SubscriptionKey) (row : SubscriptionRow F),
      (progress.rows.get? k).isSome = true → ((progress.rows.upsert key row).get? k).isSome = true := by
    intro key k row hk
    rw [get?_upsert]
    split
    · rfl
    · exact hk
  simp only [syncItem] at h
  split at h
  · next hknown =>
      obtain rfl := Except.ok.inj h
      refine ⟨fun key hkey => ?_, fun hnew => ?_⟩
      · simp only [resumeMember]
        split
        · exact hkey
        · split
          · rw [reset_rows]
            exact hupsert _ _ _ hkey
          · exact hkey
      · rw [syncKey] at hnew
        simp [hnew] at hknown
  · simp only [addMember] at h
    split at h
    · simp at h
    · next hfree =>
        obtain rfl := Except.ok.inj h
        refine ⟨fun key hkey => ?_, fun _ => ⟨?_, ?_⟩⟩
        · rw [reset_rows]
          exact hupsert _ _ _ hkey
        · simpa [syncKey] using hfree
        · simp [syncKey]

variable {pairs : List (SyncPair F)}

theorem syncItems_free (h : pairs.foldlM (fun progress (pair : SyncPair F) =>
      syncItem revisionId document args before pair.1 progress pair.2) progress = .ok out) :
    (∀ p ∈ pairs, isMember (before.get? (syncKey revisionId p)) = false →
        progress.rows.get? (syncKey revisionId p) = none) ∧
      pairs.Pairwise fun p q => isMember (before.get? (syncKey revisionId p)) = false →
        syncKey revisionId p ≠ syncKey revisionId q := by
  induction pairs generalizing progress with
  | nil => exact ⟨by simp, List.Pairwise.nil⟩
  | cons p pairs ih =>
    simp only [List.foldlM_cons, bind_eq_ok] at h
    obtain ⟨mid, hmid, h⟩ := h
    obtain ⟨hgrow, hown⟩ := syncItem_grows hmid
    obtain ⟨hfree, hpairs⟩ := ih h
    have hnone : ∀ q ∈ pairs, isMember (before.get? (syncKey revisionId q)) = false →
        progress.rows.get? (syncKey revisionId q) = none := by
      intro q hq hnew
      cases hrow : progress.rows.get? (syncKey revisionId q) with
      | none => rfl
      | some row =>
        have hsome := hgrow (syncKey revisionId q) (by rw [hrow]; rfl)
        rw [hfree q hq hnew] at hsome
        simp at hsome
    refine ⟨fun q hq hnew => ?_, List.pairwise_cons.mpr ⟨fun q hq hnew heq => ?_, hpairs⟩⟩
    · rcases List.mem_cons.mp hq with rfl | hq
      · exact (hown hnew).1
      · exact hnone q hq hnew
    · have hsome := (hown hnew).2
      rw [heq] at hsome hnew
      simp [hfree q hq hnew] at hsome

variable {e : PyErr}

theorem syncItem_error
    (h : syncItem revisionId document args before pair.1 progress pair.2 = .error e) :
    e = .integrity := by
  simp only [syncItem] at h
  split at h
  · simp at h
  · simp only [addMember] at h
    split at h
    · exact (Except.error.inj h).symm
    · simp at h

theorem syncItems_error (h : pairs.foldlM (fun progress (pair : SyncPair F) =>
      syncItem revisionId document args before pair.1 progress pair.2) progress = .error e) :
    e = .integrity := by
  induction pairs generalizing progress with
  | nil => simp [pure, Except.pure] at h
  | cons p pairs ih =>
    rw [List.foldlM_cons] at h
    cases hmid : syncItem revisionId document args before p.1 progress p.2 with
    | error e' =>
      rw [hmid] at h
      obtain rfl := Except.error.inj h
      exact syncItem_error hmid
    | ok mid =>
      rw [hmid] at h
      exact ih h

structure Admitted (row : SubscriptionRow F) : Prop where
  member : row.config.universeMember = true
  present : row.config.universeDeparted = false
  active : row.state = .active

variable (document args) in
theorem syncItem_admits (hknown : isMember (before.get? (syncKey revisionId pair)) = true →
      ∃ row, progress.rows.get? (syncKey revisionId pair) = some row ∧ row.config.universeMember = true ∧
        (row.config.universeDeparted = false → row.state = .active))
    (hnew : isMember (before.get? (syncKey revisionId pair)) = false →
      progress.rows.get? (syncKey revisionId pair) = none) :
    ∃ out, syncItem revisionId document args before pair.1 progress pair.2 = .ok out ∧
      (∃ row, out.rows.get? (syncKey revisionId pair) = some row ∧ Admitted row) ∧
      ∀ key, key ≠ syncKey revisionId pair → out.rows.get? key = progress.rows.get? key := by
  have hkeydef : (⟨revisionId, pair.1.id, pair.2.1.2⟩ : SubscriptionKey) = syncKey revisionId pair := rfl
  simp only [syncItem, hkeydef]
  split
  · next hmember =>
      obtain ⟨row, hrow, hflag, hactive⟩ := hknown hmember
      refine ⟨_, rfl, ?_⟩
      simp only [resumeMember, hkeydef, hrow]
      split
      · refine ⟨?_, fun key hkey => ?_⟩
        · rw [reset_rows, get?_upsert_self]
          exact ⟨_, rfl, hflag, rfl, rfl⟩
        · rw [reset_rows, get?_upsert_of_ne (Ne.symm hkey)]
      · next hpresent =>
          have hpresent : row.config.universeDeparted = false := by simpa using hpresent
          exact ⟨⟨row, hrow, hflag, hpresent, hactive hpresent⟩, fun _ _ => rfl⟩
  · next hmember =>
      have hfree := hnew (by simpa using hmember)
      simp only [addMember, hkeydef, hfree, Option.isSome_none, Bool.false_eq_true, if_false]
      refine ⟨_, rfl, ?_, fun key hkey => ?_⟩
      · rw [reset_rows, get?_upsert_self]
        exact ⟨_, rfl, rfl, rfl, rfl⟩
      · rw [reset_rows, get?_upsert_of_ne (Ne.symm hkey)]

/-- A loop over different keys, each free or that of a known member, ends well: its
keys are admitted and all other rows are as before. -/
theorem syncItems_admits {pairs : List (SyncPair F)} {progress : SyncProgress F}
    (hnodup : (pairs.map (syncKey revisionId)).Nodup)
    (hknown : ∀ p ∈ pairs, isMember (before.get? (syncKey revisionId p)) = true →
      ∃ row, progress.rows.get? (syncKey revisionId p) = some row ∧ row.config.universeMember = true ∧
        (row.config.universeDeparted = false → row.state = .active))
    (hnew : ∀ p ∈ pairs, isMember (before.get? (syncKey revisionId p)) = false →
      progress.rows.get? (syncKey revisionId p) = none) :
    ∃ out, pairs.foldlM (fun progress (pair : SyncPair F) =>
        syncItem revisionId document args before pair.1 progress pair.2) progress = .ok out ∧
      (∀ p ∈ pairs, ∃ row, out.rows.get? (syncKey revisionId p) = some row ∧ Admitted row) ∧
      ∀ key, (∀ p ∈ pairs, key ≠ syncKey revisionId p) → out.rows.get? key = progress.rows.get? key := by
  induction pairs generalizing progress with
  | nil => exact ⟨progress, rfl, by simp, fun _ _ => rfl⟩
  | cons p pairs ih =>
    rw [List.map_cons, List.nodup_cons] at hnodup
    have hother : ∀ q ∈ pairs, syncKey revisionId q ≠ syncKey revisionId p :=
      fun q hq heq => hnodup.1 (heq ▸ List.mem_map_of_mem hq)
    obtain ⟨mid, hmid, hown, hframe⟩ := syncItem_admits document args
      (hknown p (.head _)) (hnew p (.head _))
    obtain ⟨out, hout, hall, hrest⟩ := @ih mid hnodup.2
      (fun q hq hm => by
        rw [hframe _ (hother q hq)]
        exact hknown q (List.mem_cons_of_mem p hq) hm)
      (fun q hq hm => by
        rw [hframe _ (hother q hq)]
        exact hnew q (List.mem_cons_of_mem p hq) hm)
    refine ⟨out, ?_, fun q hq => ?_, fun key hkey => ?_⟩
    · rw [List.foldlM_cons, hmid]
      exact hout
    · rcases List.mem_cons.mp hq with rfl | hq
      · rw [hrest _ fun q hq => Ne.symm (hother q hq)]
        exact hown
      · exact hall q hq
    · rw [hrest key fun q hq => hkey q (List.mem_cons_of_mem p hq)]
      exact hframe key (hkey p (.head _))

end Loop

/-! ## runs -/

section Runs

variable [PyFloat F]

/-- `ensure_subscriptions`, then `sync_universe_members`. -/
def applySync (revision : Revision F) (args : SyncArgs F) (db : SubscriptionDb F) :
    Except PyErr (SyncResult × SubscriptionDb F) := do
  let ensured ← ensureSubscriptions revision args.binding db
  syncUniverseMembers revision args ensured.2

/-- A call with its result and the rows it left. -/
structure SyncReport (F : Type) where
  args : SyncArgs F
  result : SyncResult
  rows : Table SubscriptionKey (SubscriptionRow F)

/-- The worker's repeated materialization of a revision. -/
def materialize (revision : Revision F) :
    Machine (SyncArgs F) (SubscriptionDb F) (SyncReport F) where
  step args db :=
    match applySync revision args db with
    | .ok out => out.2
    | .error _ => db
  out args db :=
    match applySync revision args db with
    | .ok out => [⟨args, out.1, out.2.rows⟩]
    | .error _ => []

/-- The rows are exactly the members: the call did not end in the `IntegrityError`
branch, every alert has an active row (and by its key only one) for every member,
and no other member row is active. -/
structure Materialized (revision : Revision F) (document : WorkflowDocument F)
    (report : SyncReport F) : Prop where
  committed : report.result.integrity = false
  present : ∀ alert ∈ document.alerts, ∀ m ∈ report.args.members,
    ∃ row, report.rows.get? ⟨revision.id, alert.id, report.args.memberKey m⟩ = some row ∧
      row.state = .active
  absent : ∀ key row, report.rows.get? key = some row → key.revisionId = revision.id →
    row.config.universeMember = true →
    key.instrumentKey ∉ report.args.members.map report.args.memberKey → row.state ≠ .active

variable {revision : Revision F} {document : WorkflowDocument F}

/-- The rows after the explicit instruments are ensured. -/
def ensuredRows (revision : Revision F) (document : WorkflowDocument F) (args : SyncArgs F)
    (db : SubscriptionDb F) : Table SubscriptionKey (SubscriptionRow F) :=
  (ensureRows revision.id document args.binding db.rows).1

/-- The rows after a sync whose loop ended well. -/
def syncedRows (revision : Revision F) (document : WorkflowDocument F) (args : SyncArgs F)
    (before after : Table SubscriptionKey (SubscriptionRow F)) :
    Table SubscriptionKey (SubscriptionRow F) :=
  after.mapRows fun key row =>
    if departs revision.id (wantedMembers document.alerts args) before key row then row.depart
    else row

variable {db : SubscriptionDb F}

theorem materialize_ok (hparse : revision.parsed = .ok (some document)) {args : SyncArgs F}
    {progress : SyncProgress F}
    (h : syncItems revision.id document args (ensuredRows revision document args db) = .ok progress) :
    ((materialize revision).step args db).rows =
        syncedRows revision document args (ensuredRows revision document args db) progress.rows ∧
      ∃ result : SyncResult, result.integrity = false ∧
        (materialize revision).out args db = [⟨args, result, syncedRows revision document args
          (ensuredRows revision document args db) progress.rows⟩] := by
  rw [ensuredRows] at h
  simp only [materialize, applySync, ensureSubscriptions, syncUniverseMembers, syncTransaction,
    hparse, ok_bind, h]
  exact ⟨rfl, _, rfl, rfl⟩

theorem materialize_error (hparse : revision.parsed = .ok (some document)) {args : SyncArgs F}
    {e : PyErr}
    (h : syncItems revision.id document args (ensuredRows revision document args db) = .error e) :
    ∃ report ∈ (materialize revision).out args db, report.result.integrity = true := by
  obtain rfl : e = .integrity := syncItems_error h
  rw [ensuredRows] at h
  simp only [materialize, applySync, ensureSubscriptions, syncUniverseMembers, syncTransaction,
    hparse, ok_bind, h, error_bind]
  exact ⟨_, List.mem_singleton.mpr rfl, rfl⟩

theorem syncItems_ok_of_materialized (hparse : revision.parsed = .ok (some document))
    {args : SyncArgs F}
    (h : ∀ report ∈ (materialize revision).out args db, Materialized revision document report) :
    ∃ progress, syncItems revision.id document args (ensuredRows revision document args db) =
      .ok progress := by
  cases hsync : syncItems revision.id document args (ensuredRows revision document args db) with
  | ok progress => exact ⟨progress, rfl⟩
  | error e =>
    obtain ⟨report, hreport, hfailed⟩ := materialize_error hparse hsync
    simp [(h report hreport).committed] at hfailed

omit [PyFloat F] in
theorem get?_syncedRows (args : SyncArgs F)
    (before after : Table SubscriptionKey (SubscriptionRow F)) (key : SubscriptionKey) :
    (syncedRows revision document args before after).get? key = (after.get? key).map fun row =>
        if departs revision.id (wantedMembers document.alerts args) before key row then row.depart
        else row :=
  get?_mapRows _ _ _

def NoMembers (revision : Revision F) (rows : Table SubscriptionKey (SubscriptionRow F)) : Prop :=
  ∀ key row, rows.get? key = some row → key.revisionId = revision.id → row.config.universeMember = false

variable {key : SubscriptionKey} {rows : Table SubscriptionKey (SubscriptionRow F)}

omit [PyFloat F] in
theorem NoMembers.isMember (h : NoMembers revision rows) (hkey : key.revisionId = revision.id) :
    isMember (rows.get? key) = false := by
  cases hrow : rows.get? key with
  | none => rfl
  | some row => simpa [KiteAlgo.isMember] using h key row hrow hkey

omit [PyFloat F] in
theorem NoMembers.ensured {args : SyncArgs F} (h : NoMembers revision db.rows) :
    NoMembers revision (ensuredRows revision document args db) := by
  intro key row hrow hkey
  rcases (ensureRows_spec revision.id document args.binding db.rows).1 key row hrow with
    ⟨old, hold, hsame⟩ | ⟨_, hmember, _⟩
  · rw [hsame.member]
    exact h key old hold hkey
  · exact hmember

theorem materialize_idle (hparse : revision.parsed = .ok (some document)) {args : SyncArgs F}
    (hnone : NoMembers revision db.rows) (hidle : document.alerts = [] ∨ args.members = []) :
    NoMembers revision ((materialize revision).step args db).rows ∧
      ∀ report ∈ (materialize revision).out args db, Materialized revision document report := by
  have hwanted : wantedMembers document.alerts args = [] := by
    have hflat : (document.alerts.flatMap fun alert =>
        args.members.map fun m => (alert.id, args.memberKey m)) = [] := by
      rcases hidle with h | h <;> simp [h]
    rw [wantedMembers, hflat]
    rfl
  have hloop : syncItems revision.id document args (ensuredRows revision document args db) =
      .ok { rows := ensuredRows revision document args db } := by
    have hpairs : (document.alerts.flatMap fun _ => ([] : List (SyncPair F))) = [] := by simp
    simp only [syncItems, hwanted, List.map_nil]
    rw [hpairs]
    rfl
  obtain ⟨hstep, result, hcommitted, hout⟩ := materialize_ok hparse hloop
  have hensured : NoMembers revision (ensuredRows revision document args db) := hnone.ensured
  have hrows : ∀ key row, (syncedRows revision document args (ensuredRows revision document args db)
      (ensuredRows revision document args db)).get? key = some row → key.revisionId = revision.id →
      row.config.universeMember = false := by
    intro key row hrow hkey
    rw [get?_syncedRows, Option.map_eq_some_iff] at hrow
    obtain ⟨old, hold, rfl⟩ := hrow
    simp only [departs, hensured.isMember hkey, Bool.and_false, Bool.false_and, Bool.false_eq_true,
      if_false]
    exact hensured key old hold hkey
  refine ⟨?_, fun report hreport => ?_⟩
  · rw [NoMembers, hstep]
    exact hrows
  · rw [hout, List.mem_singleton] at hreport
    subst hreport
    refine ⟨hcommitted, fun alert halert m hm => ?_, fun key row hrow hkey hmember => ?_⟩
    · rcases hidle with h | h
      · simp [h] at halert
      · have hm' : m ∈ args.members := hm
        simp [h] at hm'
    · simp [hrows key row hrow hkey] at hmember

variable {first second : AlertSpec F} {rest : List (AlertSpec F)}

omit [PyFloat F] in
theorem syncItems_twoAlerts {args : SyncArgs F} {before : Table SubscriptionKey (SubscriptionRow F)}
    (hnone : NoMembers revision before) (halerts : document.alerts = first :: second :: rest)
    (hmembers : args.members ≠ []) (progress : SyncProgress F) :
    syncItems revision.id document args before ≠ .ok progress := by
  intro h
  obtain ⟨m, hm⟩ := List.exists_mem_of_ne_nil _ hmembers
  have hitem : ∀ alert ∈ document.alerts, ∃ item ∈ wantedMembers document.alerts args,
      item.1 = (alert.id, args.memberKey m) := by
    intro alert halert
    exact List.mem_map.mp (mem_keys_wantedMembers.mpr ⟨alert, halert, m, hm, rfl⟩)
  obtain ⟨item, hmem, hkey⟩ := hitem first (by simp [halerts])
  obtain ⟨item', hmem', hkey'⟩ := hitem second (by simp [halerts])
  have hpairs := (syncItems_free h).2
  rw [List.pairwise_flatMap] at hpairs
  obtain ⟨hwithin, hacross⟩ := hpairs
  have hnew : ∀ pair : SyncPair F, isMember (before.get? (syncKey revision.id pair)) = false :=
    fun pair => hnone.isMember rfl
  by_cases hids : first.id = second.id
  · rw [halerts, List.pairwise_cons] at hacross
    refine hacross.1 second (.head _) (first, item) (List.mem_map_of_mem (halerts ▸ hmem))
      (second, item) (List.mem_map_of_mem (halerts ▸ hmem)) (hnew _) ?_
    simp [syncKey, hids]
  · have hdiff : item ≠ item' := by
      rintro rfl
      exact hids (congrArg Prod.fst (hkey.symm.trans hkey'))
    have hnodup : ((wantedMembers document.alerts args).map fun item =>
        syncKey revision.id (first, item)).Nodup := by
      have hblock := hwithin first (by simp [halerts])
      rw [List.pairwise_map] at hblock
      rw [List.Nodup, List.pairwise_map]
      exact hblock.imp fun hne => hne (hnew _)
    refine hdiff (List.inj_on_of_nodup_map hnodup hmem hmem' ?_)
    simp [syncKey, hkey, hkey']

/-! ## one alert -/

/-- The members of the call include an explicit instrument. -/
def Overlaps (document : WorkflowDocument F) (args : SyncArgs F) : Prop :=
  ∃ i ∈ document.instruments, i.key ∈ args.members.map args.memberKey

/-- The rows of a revision with one alert: the others are those of the explicit
instruments, and a member row is none of them and is active unless it departed. -/
structure OneAlertRows (revision : Revision F) (document : WorkflowDocument F)
    (alert : AlertSpec F) (rows : Table SubscriptionKey (SubscriptionRow F)) : Prop where
  others : ∀ key row, rows.get? key = some row → key.revisionId = revision.id →
    row.config.universeMember = false → key.instrumentKey ∈ document.instruments.map (·.key)
  members : ∀ key row, rows.get? key = some row → key.revisionId = revision.id →
    row.config.universeMember = true →
      key.alertId = alert.id ∧ key.instrumentKey ∉ document.instruments.map (·.key) ∧
        (row.config.universeDeparted = false → row.state = .active)

variable {alert : AlertSpec F}

omit [PyFloat F] in
theorem OneAlertRows.ensured {args : SyncArgs F}
    (h : OneAlertRows revision document alert db.rows) :
    OneAlertRows revision document alert (ensuredRows revision document args db) := by
  have hspec := (ensureRows_spec revision.id document args.binding db.rows).1
  constructor
  · intro key row hrow hkey hmember
    rcases hspec key row hrow with ⟨old, hold, hsame⟩ | ⟨_, _, _, _, i, hi, rfl⟩
    · exact h.others key old hold hkey (hsame.member ▸ hmember)
    · exact List.mem_map_of_mem hi
  · intro key row hrow hkey hmember
    rcases hspec key row hrow with ⟨old, hold, hsame⟩ | ⟨_, hno, _⟩
    · rw [hsame.state, hsame.departed]
      exact h.members key old hold hkey (hsame.member ▸ hmember)
    · simp [hno] at hmember

omit [PyFloat F] in
theorem syncItems_overlap {args : SyncArgs F} (halerts : document.alerts = [alert])
    (hinv : OneAlertRows revision document alert db.rows) (hoverlap : Overlaps document args)
    (progress : SyncProgress F) :
    syncItems revision.id document args (ensuredRows revision document args db) ≠ .ok progress := by
  intro h
  obtain ⟨i, hi, hmem⟩ := hoverlap
  obtain ⟨m, hm, hkey⟩ := List.mem_map.mp hmem
  have halert : alert ∈ document.alerts := by simp [halerts]
  obtain ⟨item, hitem, hitemKey⟩ := List.mem_map.mp
    (mem_keys_wantedMembers.mpr ⟨alert, halert, m, hm, rfl⟩)
  have hsyncKey : syncKey revision.id (alert, item) = ⟨revision.id, alert.id, i.key⟩ := by
    simp [syncKey, hitemKey, hkey]
  have hpair : (alert, item) ∈ document.alerts.flatMap fun alert =>
      (wantedMembers document.alerts args).map fun item => (alert, item) :=
    List.mem_flatMap.mpr ⟨alert, halert, List.mem_map_of_mem hitem⟩
  have hsome := (ensureRows_spec revision.id document args.binding db.rows).2.2
    ⟨revision.id, alert.id, i.key⟩ ⟨alert, halert, i, hi, rfl⟩
  obtain ⟨row, hrow⟩ := Option.isSome_iff_exists.mp hsome
  have hrow' : (ensuredRows revision document args db).get? ⟨revision.id, alert.id, i.key⟩ =
    some row := hrow
  have hnew : row.config.universeMember = false := by
    by_contra hmember
    exact (hinv.ensured.members _ row hrow rfl (by simpa using hmember)).2.1
      (List.mem_map_of_mem hi)
  have hfree := (syncItems_free h).1 _ hpair (by rw [hsyncKey, hrow']; simpa [isMember] using hnew)
  rw [hsyncKey, hrow'] at hfree
  simp at hfree

omit [PyFloat F] in
theorem syncItems_oneAlert {args : SyncArgs F} {before : Table SubscriptionKey (SubscriptionRow F)}
    (halerts : document.alerts = [alert]) (hinv : OneAlertRows revision document alert before)
    (hno : ¬ Overlaps document args) :
    ∃ progress, syncItems revision.id document args before = .ok progress ∧ (∀ m ∈ args.members, ∃ row,
        progress.rows.get? ⟨revision.id, alert.id, args.memberKey m⟩ = some row ∧ Admitted row) ∧
      ∀ key, (∀ m ∈ args.members, key ≠ ⟨revision.id, alert.id, args.memberKey m⟩) →
        progress.rows.get? key = before.get? key := by
  have hitems : ∀ item ∈ wantedMembers document.alerts args, ∃ m ∈ args.members,
      item.1 = (alert.id, args.memberKey m) := by
    intro item hitem
    obtain ⟨a, ha, m, hm, hkey⟩ := mem_keys_wantedMembers.mp (List.mem_map_of_mem hitem)
    rw [halerts, List.mem_singleton] at ha
    subst ha
    exact ⟨m, hm, hkey.symm⟩
  have hpairs : (document.alerts.flatMap fun alert =>
      (wantedMembers document.alerts args).map fun item => (alert, item)) =
      (wantedMembers document.alerts args).map fun item => (alert, item) := by
    rw [halerts]
    simp
  have hnodup : (((wantedMembers document.alerts args).map fun item => (alert, item)).map
      (syncKey revision.id)).Nodup := by
    rw [List.map_map]
    refine List.Nodup.map_on (fun x hx y hy hxy => ?_)
      (nodup_keys_wantedMembers document.alerts args).of_map
    obtain ⟨mx, _, hmx⟩ := hitems x hx
    obtain ⟨my, _, hmy⟩ := hitems y hy
    refine List.inj_on_of_nodup_map (nodup_keys_wantedMembers document.alerts args) hx hy ?_
    simpa [syncKey, hmx, hmy] using hxy
  have hfree : ∀ p ∈ (wantedMembers document.alerts args).map fun item => (alert, item),
      isMember (before.get? (syncKey revision.id p)) = false →
      before.get? (syncKey revision.id p) = none := by
    intro p hp hmember
    cases hrow : before.get? (syncKey revision.id p) with
    | none => rfl
    | some row =>
      rw [hrow] at hmember
      have hexplicit := hinv.others _ row hrow rfl (by simpa [isMember] using hmember)
      obtain ⟨item, hitem, rfl⟩ := List.mem_map.mp hp
      obtain ⟨m, hm, hitemKey⟩ := hitems item hitem
      obtain ⟨i, hi, hikey⟩ := List.mem_map.mp hexplicit
      refine absurd ⟨i, hi, List.mem_map.mpr ⟨m, hm, ?_⟩⟩ hno
      rw [hikey, syncKey, hitemKey]
  obtain ⟨progress, hprogress, hadmitted, hframe⟩ := @syncItems_admits F revision.id document args
    before _ { rows := before } hnodup
    (fun p _ hmember => by
      obtain ⟨row, hrow, hflag⟩ := (Option.any_eq_true _ _).mp hmember
      exact ⟨row, hrow, hflag, (hinv.members _ row hrow rfl hflag).2.2⟩)
    hfree
  refine ⟨progress, ?_, fun m hm => ?_, fun key hkey => hframe key fun p hp => ?_⟩
  · rw [syncItems, hpairs]
    exact hprogress
  · have hwanted : (alert.id, args.memberKey m) ∈ (wantedMembers document.alerts args).keys :=
      mem_keys_wantedMembers.mpr ⟨alert, by simp [halerts], m, hm, rfl⟩
    obtain ⟨item, hitem, hkey⟩ := List.mem_map.mp hwanted
    have hrow := hadmitted (alert, item) (List.mem_map_of_mem hitem)
    rwa [syncKey, hkey] at hrow
  · obtain ⟨item, hitem, rfl⟩ := List.mem_map.mp hp
    obtain ⟨m, hm, hitemKey⟩ := hitems item hitem
    rw [syncKey, hitemKey]
    exact hkey m hm

omit [PyFloat F] in
theorem contains_wantedMembers {args : SyncArgs F} (halerts : document.alerts = [alert])
    (k : String) :
    (wantedMembers document.alerts args).contains (alert.id, k) = true ↔
      k ∈ args.members.map args.memberKey := by
  rw [Dict.contains, Option.isSome_iff_ne_none, Ne, Dict.get?_eq_none_iff, not_not,
    mem_keys_wantedMembers, halerts]
  simp

omit [PyFloat F] in
theorem departs_iff {args : SyncArgs F} {before : Table SubscriptionKey (SubscriptionRow F)}
    (halerts : document.alerts = [alert]) (hinv : OneAlertRows revision document alert before)
    {row : SubscriptionRow F} (hkey : key.revisionId = revision.id) :
    departs revision.id (wantedMembers document.alerts args) before key row = true ↔
      isMember (before.get? key) = true ∧
        key.instrumentKey ∉ args.members.map args.memberKey ∧ row.state = .active := by
  simp only [departs, hkey, decide_true, Bool.true_and, Bool.and_eq_true, Bool.not_eq_true',
    decide_eq_true_eq, and_assoc]
  refine and_congr_right fun hmember => ?_
  obtain ⟨old, hold, hflag⟩ := (Option.any_eq_true _ _).mp hmember
  rw [(hinv.members key old hold hkey hflag).1, ← Bool.not_eq_true, contains_wantedMembers halerts]

omit [PyFloat F] in
theorem OneAlertRows.synced {args : SyncArgs F}
    {before after : Table SubscriptionKey (SubscriptionRow F)}
    (h : OneAlertRows revision document alert after) :
    OneAlertRows revision document alert (syncedRows revision document args before after) := by
  constructor
  · intro key row hrow hkey hmember
    rw [get?_syncedRows, Option.map_eq_some_iff] at hrow
    obtain ⟨old, hold, rfl⟩ := hrow
    refine h.others key old hold hkey ?_
    split at hmember <;> exact hmember
  · intro key row hrow hkey hmember
    rw [get?_syncedRows, Option.map_eq_some_iff] at hrow
    obtain ⟨old, hold, rfl⟩ := hrow
    split at hmember
    · next hleaves =>
        obtain ⟨halert, hexplicit, _⟩ := h.members key old hold hkey hmember
        rw [if_pos hleaves]
        exact ⟨halert, hexplicit, by simp [SubscriptionRow.depart]⟩
    · next hstays =>
        rw [if_neg hstays]
        exact h.members key old hold hkey hmember

theorem materialize_oneAlert (hparse : revision.parsed = .ok (some document))
    (halerts : document.alerts = [alert]) {args : SyncArgs F}
    (hinv : OneAlertRows revision document alert db.rows) (hno : ¬ Overlaps document args) :
    OneAlertRows revision document alert ((materialize revision).step args db).rows ∧
      ∀ report ∈ (materialize revision).out args db, Materialized revision document report := by
  have hensured : OneAlertRows revision document alert (ensuredRows revision document args db) :=
    hinv.ensured
  obtain ⟨progress, hsync, hadmitted, hframe⟩ := syncItems_oneAlert halerts hensured hno
  obtain ⟨hstep, result, hcommitted, hout⟩ := materialize_ok hparse hsync
  -- A row of the loop is a member the call admitted, or it is as it was before.
  have hrows : ∀ key row, progress.rows.get? key = some row →
      (∃ m ∈ args.members, key = ⟨revision.id, alert.id, args.memberKey m⟩ ∧ Admitted row) ∨
      (ensuredRows revision document args db).get? key = some row := by
    intro key row hrow
    by_cases hmem : ∃ m ∈ args.members, key = ⟨revision.id, alert.id, args.memberKey m⟩
    · obtain ⟨m, hm, rfl⟩ := hmem
      obtain ⟨row', hrow', hadm⟩ := hadmitted m hm
      obtain rfl := Option.some.inj (hrow.symm.trans hrow')
      exact .inl ⟨m, hm, rfl, hadm⟩
    · exact .inr (hframe key (fun m hm heq => hmem ⟨m, hm, heq⟩) ▸ hrow)
  have hloop : OneAlertRows revision document alert progress.rows := by
    constructor
    · intro key row hrow hkey hmember
      rcases hrows key row hrow with ⟨m, _, _, hadm⟩ | hold
      · simp [hadm.member] at hmember
      · exact hensured.others key row hold hkey hmember
    · intro key row hrow hkey hmember
      rcases hrows key row hrow with ⟨m, hm, rfl, hadm⟩ | hold
      · refine ⟨rfl, fun hexplicit => ?_, fun _ => hadm.active⟩
        obtain ⟨i, hi, hikey⟩ := List.mem_map.mp hexplicit
        exact hno ⟨i, hi, hikey ▸ List.mem_map_of_mem hm⟩
      · exact hensured.members key row hold hkey hmember
  refine ⟨hstep ▸ hloop.synced, fun report hreport => ?_⟩
  rw [hout, List.mem_singleton] at hreport
  subst hreport
  refine ⟨hcommitted, fun a ha m hm => ?_, fun key row hrow hkey hmember hgone => ?_⟩
  · rw [halerts, List.mem_singleton] at ha
    subst ha
    obtain ⟨row, hrow, hadm⟩ := hadmitted m hm
    refine ⟨row, ?_, hadm.active⟩
    rw [get?_syncedRows, hrow, Option.map_some, if_neg]
    rw [departs_iff halerts hensured rfl]
    exact fun hleaves => hleaves.2.1 (List.mem_map_of_mem hm)
  · rw [get?_syncedRows, Option.map_eq_some_iff] at hrow
    obtain ⟨old, hold, rfl⟩ := hrow
    rcases hrows key old hold with ⟨m, hm, rfl, _⟩ | hbefore
    · exact absurd (List.mem_map_of_mem hm) hgone
    · split at hmember
      · next hleaves =>
          rw [if_pos hleaves]
          simp [SubscriptionRow.depart]
      · next hstays =>
          rw [if_neg hstays]
          intro hactive
          refine hstays ((departs_iff halerts hensured hkey).mpr ⟨?_, hgone, hactive⟩)
          simpa [isMember, hbefore] using hmember

/-! ## exactness -/

def NoRows (revision : Revision F) (rows : Table SubscriptionKey (SubscriptionRow F)) : Prop :=
  ∀ key, key.revisionId = revision.id → rows.get? key = none

omit [PyFloat F] in
theorem NoRows.noMembers (h : NoRows revision rows) : NoMembers revision rows := by
  intro key row hrow hkey
  simp [h key hkey] at hrow

omit [PyFloat F] in
theorem NoRows.oneAlert (h : NoRows revision rows) : OneAlertRows revision document alert rows := by
  constructor <;> intro key row hrow hkey <;> simp [h key hkey] at hrow

theorem exact_noAlerts (hparse : revision.parsed = .ok (some document))
    (hfresh : NoRows revision db.rows) (halerts : document.alerts = [])
    (calls : List (SyncArgs F)) :
    ∀ report ∈ (materialize revision).trace calls db, Materialized revision document report := by
  refine (Machine.forall_trace_iff (I := fun db : SubscriptionDb F => NoMembers revision db.rows)
    (C := fun _ => True) (fun args db hnone => ?_) hfresh.noMembers).mpr fun _ _ => trivial
  obtain ⟨hkeep, hexact⟩ := materialize_idle hparse hnone (.inl halerts)
  exact ⟨⟨fun _ => trivial, fun _ => hexact⟩, fun _ => hkeep⟩

theorem exact_oneAlert (hparse : revision.parsed = .ok (some document))
    (hfresh : NoRows revision db.rows) (halerts : document.alerts = [alert])
    (calls : List (SyncArgs F)) :
    (∀ report ∈ (materialize revision).trace calls db, Materialized revision document report) ↔
      ∀ args ∈ calls, ¬ Overlaps document args := by
  refine Machine.forall_trace_iff
    (I := fun db : SubscriptionDb F => OneAlertRows revision document alert db.rows)
    (fun args db hinv => ⟨⟨fun hexact hoverlap => ?_, fun hno => ?_⟩, fun hno => ?_⟩) hfresh.oneAlert
  · obtain ⟨progress, hsync⟩ := syncItems_ok_of_materialized hparse hexact
    exact syncItems_overlap halerts hinv hoverlap progress hsync
  · exact (materialize_oneAlert hparse halerts hinv hno).2
  · exact (materialize_oneAlert hparse halerts hinv hno).1

theorem exact_twoAlerts (hparse : revision.parsed = .ok (some document))
    (hfresh : NoRows revision db.rows) (halerts : document.alerts = first :: second :: rest)
    (calls : List (SyncArgs F)) :
    (∀ report ∈ (materialize revision).trace calls db, Materialized revision document report) ↔
      ∀ args ∈ calls, args.members = [] := by
  refine Machine.forall_trace_iff (I := fun db : SubscriptionDb F => NoMembers revision db.rows)
    (fun args db hnone => ⟨⟨fun hexact => ?_, fun hno => ?_⟩, fun hno => ?_⟩) hfresh.noMembers
  · obtain ⟨progress, hsync⟩ := syncItems_ok_of_materialized hparse hexact
    by_contra hmembers
    exact syncItems_twoAlerts hnone.ensured halerts hmembers progress hsync
  · exact (materialize_idle hparse hnone (.inr hno)).2
  · exact (materialize_idle hparse hnone (.inr hno)).1

omit [PyFloat F] in
theorem not_overlaps_of_members_nil {args : SyncArgs F} (h : args.members = []) :
    ¬ Overlaps document args := by
  simp [Overlaps, h]

/-- Materialization is exact after every call exactly when there is nothing to
materialize, or there is a single alert and no call's members include an explicit
instrument. -/
theorem universe_materialization_iff (hparse : revision.parsed = .ok (some document))
    {db : SubscriptionDb F} (hfresh : NoRows revision db.rows) (calls : List (SyncArgs F)) :
    (∀ report ∈ (materialize revision).trace calls db, Materialized revision document report) ↔
      document.alerts = [] ∨ (∀ args ∈ calls, args.members = []) ∨
        ∃ alert, document.alerts = [alert] ∧ ∀ args ∈ calls, ¬ Overlaps document args := by
  rcases halerts : document.alerts with _ | ⟨first, _ | ⟨second, rest⟩⟩
  · exact ⟨fun _ => .inl rfl, fun _ => exact_noAlerts hparse hfresh halerts calls⟩
  · rw [exact_oneAlert hparse hfresh halerts calls]
    refine ⟨fun hno => .inr (.inr ⟨first, rfl, hno⟩), ?_⟩
    rintro (h | h | ⟨_, _, h⟩)
    · simp at h
    · exact fun args hargs => not_overlaps_of_members_nil (h args hargs)
    · exact h
  · rw [exact_twoAlerts hparse hfresh halerts calls]
    simp

end Runs

/-! ## an index with one alert and with two -/

/-- A revision that watches the close of an index's members and of the explicit
instruments. -/
def indexRevision (instruments alerts : List String) : Revision ℚ where
  id := "r1"
  workflowId := "w1"
  document := .ofPairs
    [("version", .int 1), ("name", .str "above"), ("instruments", .list (instruments.map .str)),
     ("universe", .ofPairs [("union", .list [.ofPairs [("index", .str "NIFTY 50")]])]), ("stages", .list
       [.ofPairs
         [("id", .str "above"), ("clock", .str "candle_close"), ("timeframe", .str "5m"),
          ("conditions", .list
            [.ofPairs [("field", .str "close"), ("op", .str "crosses_above"), ("value", .int 100)]])]]),
     ("alerts", .list (alerts.map fun id =>
       .ofPairs
         [("id", .str id), ("source", .str "above"), ("channels", .list [.str "telegram"])]))]

theorem exists_parsed (revision : Revision ℚ) (check : Parse.Parsed ℚ → Bool)
    (h : parsesWith revision.document check = true) :
    ∃ p, revision.parsed = .ok (some p.document) ∧ check p = true := by
  obtain ⟨p, hp, hcheck⟩ := exists_of_parsesWith revision.document check h
  exact ⟨p, by rw [Revision.parsed, hp], hcheck⟩

/-- One alert and no explicit instruments: members that leave and come back are
materialized exactly. -/
theorem index_members_exact :
    let calls : List (SyncArgs ℚ) :=
      [{ members := ["NSE:INFY", "NSE:TCS"] }, { members := ["NSE:TCS"] }, { members := ["nse:infy "] }]
    ∃ document, (indexRevision [] ["notify"]).parsed = .ok (some document) ∧
      ∀ report ∈ (materialize (indexRevision [] ["notify"])).trace calls {},
        Materialized (indexRevision [] ["notify"]) document report := by
  intro calls
  obtain ⟨p, hp, hcheck⟩ := exists_parsed (indexRevision [] ["notify"])
    (fun p => p.document.instruments.isEmpty && decide (p.document.alerts.length = 1))
    (by decide +kernel)
  simp only [Bool.and_eq_true, decide_eq_true_eq, List.isEmpty_iff] at hcheck
  obtain ⟨alert, halert⟩ := List.length_eq_one_iff.mp hcheck.2
  refine ⟨p.document, hp, (universe_materialization_iff hp (fun _ _ => rfl) calls).mpr
    (.inr (.inr ⟨alert, halert, fun args _ => ?_⟩))⟩
  simp [Overlaps, hcheck.1]

/-- The document with these explicit instruments and alerts is accepted, and its
first sync does not materialize the members. -/
def FirstSyncFails (explicit alerts : List String) : Prop :=
  ∃ p, Parse.parseWorkflowDict (indexRevision explicit alerts).document = .ok p ∧
    (∀ fromIso sha256, ∃ c, Compile.compileDocument fromIso sha256 p = .ok c) ∧
    ¬ ∀ report ∈ (materialize (indexRevision explicit alerts)).trace
        [{ members := ["NSE:INFY", "NSE:TCS"] }] {},
      Materialized (indexRevision explicit alerts) p.document report

theorem firstSyncFails_of_integrity {explicit alerts : List String}
    (hparses : parsesWith (indexRevision explicit alerts).document
      compilesPlainly = true)
    (htrace : ((materialize (indexRevision explicit alerts)).trace
      [{ members := ["NSE:INFY", "NSE:TCS"] }] {}).map (fun report => report.result.integrity) = [true]) :
    FirstSyncFails explicit alerts := by
  obtain ⟨p, hp, hcompiles⟩ := exists_of_parsesWith _ _ hparses
  refine ⟨p, hp, exists_compile_of_compilesPlainly hcompiles, fun hexact => ?_⟩
  obtain ⟨report, hreport, hfailed⟩ := List.mem_map.mp (htrace ▸ List.mem_singleton_self true)
  simp [(hexact report hreport).committed] at hfailed

/-- With a second alert, or with a member that is also an explicit instrument, the
first sync of an accepted document rolls back. -/
theorem index_sync_rolls_back :
    FirstSyncFails [] ["notify", "log"] ∧ FirstSyncFails ["NSE:INFY"] ["notify"] := by
  constructor
  · exact firstSyncFails_of_integrity (by decide +kernel) (by decide +kernel)
  · exact firstSyncFails_of_integrity (by decide +kernel) (by decide +kernel)

end KiteAlgo
