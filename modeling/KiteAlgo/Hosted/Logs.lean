import KiteAlgo.Hosted.Ledger
import KiteAlgo.Hosted.Lifecycle

/-!
# KiteAlgo.Hosted.Logs

The log of a child, from its file to the rows of its attempt (`_ship_logs` in `supervisor.py`,
`report_job_logs` in `hosted_lifecycle.py`, `append_job_log`).

The supervisor cuts the decoded text by characters; the API measures each chunk in bytes,
joins them, redacts the text and cuts it again, by bytes.  The rows that calls of
`append_job_log` leave are `LogsKept`: numbered without gaps, within the cap, and as many as
were sent unless the job says that something was discarded.
-/

namespace KiteAlgo.Hosted

open List Option Bool Utf8
/-! ## the request -/

def logChunkMaxBytes : Nat := 16 * 1024

def logTotalMaxBytes : Int := 256 * 1024

/-- `_ship_logs`: the chunks that are sent for the bytes of a log file, if there is any text. -/
def shipLogs (raw : List UInt8) : Option (List (List Char)) :=
  let text := Utf8.decode (raw.take (256 * 1024))
  let chunks := slices (8 * 1024) text
  if chunks.isEmpty then none else some chunks

/-- The constraints of the authority fields of a request. -/
def Lease.admitted (lease : Lease) : Bool :=
  decide (1 ≤ lease.owner.length ∧ lease.owner.length ≤ 120 ∧ 0 ≤ lease.epoch ∧ 1 ≤ lease.attempt)

/-- `ProcessLogsRequest`, with the job of its path. -/
structure ProcessLogsRequest where
  jobId : String
  lease : Lease
  chunks : List (List Char)
  deriving DecidableEq

def ProcessLogsRequest.admitted (request : ProcessLogsRequest) : Bool :=
  request.lease.admitted && decide (1 ≤ request.chunks.length ∧ request.chunks.length ≤ 64)

/-- What `report_job_logs` asks of the lease: logs are taken after an attempt has ended. -/
def logTerms : AuthorityTerms :=
  { allowStatuses := [.starting, .running, .fencing, .recoveryRequired, .stopped, .failed, .hung]
    requireLiveLease := false
    requireStarted := false }

/-- `_split_by_bytes(redact_text("".join(chunks)), LOG_CHUNK_MAX_BYTES)`. -/
def logPieces (redact : List Char → List Char) (chunks : List (List Char)) : List (List Char) :=
  cut Char.utf8Size logChunkMaxBytes (redact chunks.flatten)

structure ProcessLogsResponse where
  jobId : String
  attempt : Int
  stored : Nat
  truncated : Bool
  discarded : Bool
  nextSeq : Nat
  deriving DecidableEq

/-- Why logs are not taken: the request is malformed, the API refuses it, or the repository
raises. -/
inductive LogsError where
  | malformed
  | refused (e : HostedLifecycleError)
  | raised (e : StrategyError)
  deriving DecidableEq

def reportJobLogs (svc : Service) (redact : List Char → List Char) (now : Int)
    (request : ProcessLogsRequest) : Task (Except LogsError ProcessLogsResponse) :=
  if !request.admitted then return .error .malformed
  else if request.chunks.isEmpty then
    return .error (.refused { statusCode := 422, rejectionReason := "HOSTED_LOGS_EMPTY" })
  else if request.chunks.any fun chunk => decide (logChunkMaxBytes < Utf8.size chunk) then
    return .error (.refused { statusCode := 413, rejectionReason := "HOSTED_LOG_CHUNK_TOO_LARGE" })
  else do
    let job ← Prog.read () fun t => t.jobs.get? request.jobId
    match requireJobAuthority logTerms request.lease now job with
    | .error e => return .error (.refused e)
    | .ok job => do
      let result ← Prog.call () (appendJobLog svc.storable request.jobId request.lease.attempt
        (logPieces redact request.chunks) logTotalMaxBytes)
      match result with
      | .error e => return .error (.raised e)
      | .ok appended =>
        return .ok
          { jobId := job.id
            attempt := request.lease.attempt
            stored := appended.stored
            truncated := appended.discarded
            discarded := appended.discarded
            nextSeq := appended.nextSeq }

/-- Calls of `append_job_log` on one attempt, as long as they return. -/
def appendJobLogs (storable : Char → Bool) (jobId : String) (attempt maxTotalBytes : Int) :
    List (List (List Char)) → Tables → Option Tables
  | [], t => some t
  | chunks :: calls, t =>
    match appendJobLog storable jobId attempt chunks maxTotalBytes t with
    | (.ok _, t) => appendJobLogs storable jobId attempt maxTotalBytes calls t
    | (.error _, _) => none

/-! ## the rows of a call -/

def nonEmpty (chunks : List (List Char)) : List (List Char) := chunks.filter fun text => !text.isEmpty

section Rows

variable (jobId : String) (attempt : Int) (cap : Nat) (chunks : List (List Char))
  (currentBytes nextSeq : Nat)

theorem logRows_seq :
    (logRows jobId attempt cap chunks currentBytes nextSeq).1.map StrategyJobLog.seq =
      range' (nextSeq + 1) (logRows jobId attempt cap chunks currentBytes nextSeq).1.length := by
  induction chunks generalizing currentBytes nextSeq with
  | nil => rfl
  | cons text chunks ih =>
    rw [logRows]
    split
    · exact ih currentBytes nextSeq
    · split
      · rfl
      · dsimp only
        rw [map_cons, length_cons, range'_succ, ih]

theorem logRows_bytes (h : currentBytes ≤ cap) :
    currentBytes + ((logRows jobId attempt cap chunks currentBytes nextSeq).1.map
      StrategyJobLog.byteLen).sum ≤ cap := by
  induction chunks generalizing currentBytes nextSeq with
  | nil => exact h
  | cons text chunks ih =>
    rw [logRows]
    split
    · exact ih currentBytes nextSeq h
    · split
      · exact h
      · next hfits =>
        have hrest := ih (currentBytes + size text) (nextSeq + 1) (Nat.le_of_not_lt hfits)
        dsimp only
        rw [map_cons, sum_cons, ← Nat.add_assoc]
        exact hrest

theorem of_mem_logRows {row : StrategyJobLog}
    (h : row ∈ (logRows jobId attempt cap chunks currentBytes nextSeq).1) :
    (row.jobId = jobId ∧ row.attempt = attempt) ∧ row.byteLen = size row.content ∧
      row.content ∈ chunks := by
  induction chunks generalizing currentBytes nextSeq with
  | nil => exact absurd h not_mem_nil
  | cons text chunks ih =>
    rw [logRows] at h
    split at h
    · obtain ⟨hattempt, hlength, hcontent⟩ := ih currentBytes nextSeq h
      exact ⟨hattempt, hlength, mem_cons_of_mem text hcontent⟩
    · split at h
      · exact absurd h not_mem_nil
      · rcases mem_cons.mp h with rfl | hrest
        · exact ⟨⟨rfl, rfl⟩, rfl, (.head _)⟩
        · obtain ⟨hattempt, hlength, hcontent⟩ := ih _ _ hrest
          exact ⟨hattempt, hlength, mem_cons_of_mem text hcontent⟩

theorem logRows_content :
    ((logRows jobId attempt cap chunks currentBytes nextSeq).1.map StrategyJobLog.content).Sublist
      (nonEmpty chunks) ∧
    ((logRows jobId attempt cap chunks currentBytes nextSeq).2 ↔
      (logRows jobId attempt cap chunks currentBytes nextSeq).1.length < (nonEmpty chunks).length) := by
  induction chunks generalizing currentBytes nextSeq with
  | nil => exact ⟨.slnil, by simp [logRows, nonEmpty]⟩
  | cons text chunks ih =>
    rw [logRows]
    split
    · next hempty =>
      have hskip : nonEmpty (text :: chunks) = nonEmpty chunks := by simp [nonEmpty, hempty]
      rw [hskip]
      exact ih currentBytes nextSeq
    · next htext =>
      have hkeep : nonEmpty (text :: chunks) = text :: nonEmpty chunks := by
        simp [nonEmpty, htext]
      rw [hkeep]
      split
      · exact ⟨nil_sublist _, by simp⟩
      · obtain ⟨hsublist, hdiscarded⟩ := ih (currentBytes + size text) (nextSeq + 1)
        dsimp only
        rw [map_cons, length_cons, length_cons, Nat.add_lt_add_iff_right]
        exact ⟨hsublist.cons_cons text, hdiscarded⟩

end Rows

theorem appendJobLog_cases (storable : Char → Bool) {jobId : String} {job : StrategyJob}
    {t : Tables} (hjob : t.jobs.get? jobId = some job) (attempt : Int) (chunks : List (List Char))
    (maxTotalBytes : Int) :
    ((∀ row ∈ (t.logRows jobId attempt chunks maxTotalBytes).1, row.content.all storable) ∧
      ∃ answer, (appendJobLog storable jobId attempt chunks maxTotalBytes t).1 = .ok answer) ∨
    ((¬ ∀ row ∈ (t.logRows jobId attempt chunks maxTotalBytes).1, row.content.all storable) ∧
      (appendJobLog storable jobId attempt chunks maxTotalBytes t).1 = .error .data) := by
  have hall := all_eq_true (l := (t.logRows jobId attempt chunks maxTotalBytes).1)
    (p := fun row => row.content.all storable)
  rw [appendJobLog, hjob]
  dsimp only
  split
  · next hrefused =>
    rw [not_eq_true'] at hrefused
    exact .inr ⟨fun h => by simp [hall.mpr h] at hrefused, rfl⟩
  · next htaken =>
    rw [not_eq_true', not_eq_false] at htaken
    exact .inl ⟨hall.mp htaken, _, rfl⟩

/-! ## the rows of all calls -/

/-- The rows of an attempt to which `sent` was appended: numbered without gaps, within the cap,
and as many as `sent` unless the job says otherwise. -/
structure LogsKept (jobId : String) (attempt : Int) (cap : Nat) (sent : List (List Char))
    (t : Tables) : Prop where
  seq : (t.logsOf jobId attempt).map StrategyJobLog.seq = List.range' 1 (t.logsOf jobId attempt).length
  bytes : ((t.logsOf jobId attempt).map StrategyJobLog.byteLen).sum ≤ cap
  exact : ∀ row ∈ t.logsOf jobId attempt, row.byteLen = Utf8.size row.content
  content : ((t.logsOf jobId attempt).map StrategyJobLog.content).Sublist sent
  discarded : ∃ job, t.jobs.get? jobId = some job ∧
    (job.logsDiscarded = true ↔ (t.logsOf jobId attempt).length < sent.length)

theorem foldl_max_range' (n : Nat) : (range' 1 n).foldl max 0 = n := by
  induction n with
  | zero => rfl
  | succ n ih =>
    rw [range'_1_concat, foldl_append, ih, foldl_cons, foldl_nil]
    omega

section Calls

variable {storable : Char → Bool} {jobId : String} {attempt maxTotalBytes : Int}
  {chunks : List (List Char)} {sent : List (List Char)} {t t' : Tables}

variable {answer : Appended}

theorem appendJobLog_ok
    (h : appendJobLog storable jobId attempt chunks maxTotalBytes t = (.ok answer, t'))
    {job : StrategyJob} (hjob : t.jobs.get? jobId = some job) :
    t'.logsOf jobId attempt = t.logsOf jobId attempt ++ (t.logRows jobId attempt chunks maxTotalBytes).1 ∧
    ∃ job', t'.jobs.get? jobId = some job' ∧ job'.logsDiscarded =
      (job.logsDiscarded || (t.logRows jobId attempt chunks maxTotalBytes).2) := by
  unfold appendJobLog at h
  rw [hjob] at h
  dsimp only at h
  split at h
  · cases h
  · simp only [Prod.mk.injEq, Except.ok.injEq] at h
    obtain ⟨-, rfl⟩ := h
    have hrows : ((t.logRows jobId attempt chunks maxTotalBytes).1.filter fun row =>
        decide (row.jobId = jobId ∧ row.attempt = attempt)) =
          (t.logRows jobId attempt chunks maxTotalBytes).1 :=
      filter_eq_self.mpr fun row hrow =>
        decide_eq_true (of_mem_logRows _ _ _ _ _ _ hrow).1
    have hid := Keyed.key_of_get? hjob
    refine ⟨?_, ⟨_, (Keyed.get?_upsert _ _ _).trans (if_pos hid), rfl⟩⟩
    rw [Tables.logsOf, filter_append, hrows]
    rfl

theorem LogsKept.append (hkept : LogsKept jobId attempt (max 1 maxTotalBytes).toNat sent t)
    (h : appendJobLog storable jobId attempt chunks maxTotalBytes t = (.ok answer, t')) :
    LogsKept jobId attempt (max 1 maxTotalBytes).toNat (sent ++ nonEmpty chunks) t' := by
  obtain ⟨job, hjob, hdiscarded⟩ := hkept.discarded
  obtain ⟨hrows, job', hjob', hflag⟩ := appendJobLog_ok h hjob
  have hcontent := logRows_content jobId attempt (max 1 maxTotalBytes).toNat chunks
    ((t.logsOf jobId attempt).map StrategyJobLog.byteLen).sum
    (((t.logsOf jobId attempt).map StrategyJobLog.seq).foldl max 0)
  have hlength := hcontent.1.length_le
  have hbefore := hkept.content.length_le
  rw [length_map] at hlength hbefore
  refine ⟨?_, ?_, ?_, ?_, job', hjob', ?_⟩ <;> rw [hrows]
  · rw [map_append, hkept.seq, Tables.logRows, logRows_seq, hkept.seq, foldl_max_range',
      length_append, Nat.add_comm _ 1, range'_append_1]
  · rw [map_append, sum_append]
    exact logRows_bytes _ _ _ _ _ _ hkept.bytes
  · intro row hrow
    rcases mem_append.mp hrow with hold | hnew
    · exact hkept.exact row hold
    · exact (of_mem_logRows _ _ _ _ _ _ hnew).2.1
  · rw [map_append]
    exact hkept.content.append hcontent.1
  · rw [hflag, or_eq_true, hdiscarded, Tables.logRows, hcontent.2, length_append,
      length_append]
    omega

theorem logsKept_of_appendJobLogs {calls : List (List (List Char))}
    (hkept : LogsKept jobId attempt (max 1 maxTotalBytes).toNat sent t)
    (h : appendJobLogs storable jobId attempt maxTotalBytes calls t = some t') :
    LogsKept jobId attempt (max 1 maxTotalBytes).toNat (sent ++ nonEmpty calls.flatten) t' := by
  induction calls generalizing t sent with
  | nil =>
    rw [appendJobLogs, some.injEq] at h
    have hsent : sent ++ nonEmpty [] = sent := append_nil sent
    rw [flatten_nil, hsent, ← h]
    exact hkept
  | cons chunks calls ih =>
    rw [appendJobLogs] at h
    split at h
    · next answer mid hcall =>
      have hsent : sent ++ nonEmpty (chunks :: calls).flatten =
          sent ++ nonEmpty chunks ++ nonEmpty calls.flatten := by
        rw [flatten_cons, nonEmpty, filter_append, append_assoc]
        rfl
      rw [hsent]
      exact ih (hkept.append hcall) h
    · exact absurd h (by simp)

end Calls

/-! ## acceptance -/

section Acceptance

variable {raw : List UInt8} {chunks : List (List Char)}

theorem shipLogs_short (hraw : raw.length ≤ 256 * 1024) {text : List Char}
    (hdecode : decode raw = text) (hne : text ≠ []) (hlength : text.length ≤ 8 * 1024) :
    shipLogs raw = some [text] := by
  rw [shipLogs, take_of_length_le hraw, hdecode, slices_of_ne hne (by omega),
    take_of_length_le hlength, drop_eq_nil_of_le hlength, slices_nil]
  rfl

theorem shipLogs_invalid {n : Nat} (hpos : n ≠ 0) (hle : n ≤ 8 * 1024) :
    shipLogs (replicate n 0xFF) = some [replicate n '\uFFFD'] ∧
      size (replicate n '\uFFFD') = n * 3 := by
  constructor
  · refine shipLogs_short ?_ (decode_replicate_invalid n) ?_ ?_
    · rw [length_replicate]
      omega
    · rw [ne_eq, replicate_eq_nil_iff]
      exact hpos
    · rwa [length_replicate]
  · have hsize : ('\uFFFD').utf8Size = 3 := rfl
    rw [size, map_replicate, sum_replicate_nat, hsize]

theorem length_shipLogs (h : shipLogs raw = some chunks) : chunks ≠ [] ∧ chunks.length ≤ 32 := by
  unfold shipLogs at h
  dsimp only at h
  split at h
  · exact absurd h (by simp)
  · next hne =>
    obtain rfl := some.inj h
    have hdecoded := length_decode_le (raw.take (256 * 1024))
    have htaken := length_take_le (256 * 1024) raw
    have hslices := length_slices_lt (n := 8 * 1024) (by omega)
      (decode (raw.take (256 * 1024)))
    refine ⟨fun hnil => hne (by rw [hnil]; rfl), ?_⟩
    omega

variable {svc : Service} {redact : List Char → List Char} {now : Int} {request : ProcessLogsRequest}
  {t : Tables}

theorem reportJobLogs_tooLarge (hadmitted : request.admitted) {chunk : List Char}
    (hchunk : chunk ∈ request.chunks) (hsize : logChunkMaxBytes < size chunk) :
    (reportJobLogs svc redact now request).run t =
      (.error (.refused { statusCode := 413, rejectionReason := "HOSTED_LOG_CHUNK_TOO_LARGE" }), t) := by
  have hne : request.chunks.isEmpty = false := by
    rw [isEmpty_eq_false_iff]
    exact ne_nil_of_mem hchunk
  have hlarge : (request.chunks.any fun chunk => decide (logChunkMaxBytes < size chunk)) = true :=
    any_eq_true.mpr ⟨chunk, hchunk, decide_eq_true hsize⟩
  rw [reportJobLogs, hadmitted, hne, hlarge]
  rfl

theorem reportJobLogs_accepted (hadmitted : request.admitted = true) {job : StrategyJob}
    (hjob : t.jobs.get? request.jobId = some job)
    (hauthority : requireJobAuthority logTerms request.lease now (some job) = .ok job) :
    (∃ response, ((reportJobLogs svc redact now request).run t).1 = .ok response) ↔
      (∀ chunk ∈ request.chunks, size chunk ≤ logChunkMaxBytes) ∧
      ∀ row ∈ (t.logRows request.jobId request.lease.attempt (logPieces redact request.chunks)
        logTotalMaxBytes).1, row.content.all svc.storable = true := by
  by_cases hsizes : ∀ chunk ∈ request.chunks, size chunk ≤ logChunkMaxBytes
  · have hne : request.chunks.isEmpty = false := by
      rw [ProcessLogsRequest.admitted, Bool.and_eq_true, decide_eq_true_eq] at hadmitted
      cases hchunks : request.chunks with
      | nil => simp [hchunks] at hadmitted
      | cons chunk chunks => rfl
    have hsmall : (request.chunks.any fun chunk => decide (logChunkMaxBytes < size chunk)) =
        false := by
      rw [List.any_eq_false]
      intro chunk hchunk
      simpa using hsizes chunk hchunk
    rw [reportJobLogs, hadmitted, hne, hsmall]
    simp only [Bool.not_true, Bool.false_eq_true, if_false, Prog.bind_eq, Prog.run_bind,
      Prog.run_read, hjob, hauthority, Prog.run_call]
    have hcases := appendJobLog_cases svc.storable hjob request.lease.attempt
      (logPieces redact request.chunks) logTotalMaxBytes
    rcases hcases with ⟨htaken, answer, hok⟩ | ⟨hrefused, herror⟩
    · rw [hok]
      exact ⟨fun _ => ⟨hsizes, htaken⟩, fun _ => ⟨_, rfl⟩⟩
    · rw [herror]
      refine ⟨?_, fun h => absurd h.2 hrefused⟩
      rintro ⟨response, hok⟩
      simp [pure] at hok
  · refine ⟨?_, fun h => absurd h.1 hsizes⟩
    rintro ⟨response, hok⟩
    push Not at hsizes
    obtain ⟨chunk, hchunk, hsize⟩ := hsizes
    rw [reportJobLogs_tooLarge hadmitted hchunk hsize] at hok
    cases hok

theorem requireJobAuthority_logTerms {lease : Lease} {job : StrategyJob} (hsound : Sound job)
    (hnames : lease.names job) (now : Int) :
    requireJobAuthority logTerms lease now (some job) = .ok job := by
  rw [Lease.names, decide_eq_true_eq] at hnames
  obtain ⟨howner, hepoch, hattempt⟩ := hnames
  have hstatus : job.status ∈ logTerms.allowStatuses := by
    have hclaimed : job.status ≠ .queued := fun hqueued => by
      rw [hsound.unclaimed hqueued] at howner
      cases howner
    revert hclaimed
    cases job.status <;> simp [logTerms]
  simp [requireJobAuthority, howner, hepoch, hattempt, hstatus]
  simp [logTerms]

end Acceptance

/-! ## logs that are shipped and kept -/

/-- What a supervisor relies on that ships `raw` as the log of a job. -/
structure ShippedAndKept (svc : Service) (redact : List Char → List Char) (jobId : String)
    (lease : Lease) (raw : List UInt8) (t : Tables) : Prop where
  accepted : ∀ chunks, shipLogs raw = some chunks → ∀ now, ∃ response,
    ((reportJobLogs svc redact now ⟨jobId, lease, chunks⟩).run t).1 = .ok response
  pieces : ∀ chunks, shipLogs raw = some chunks →
    (logPieces redact chunks).flatten = redact chunks.flatten ∧
    ∀ piece ∈ logPieces redact chunks, Utf8.size piece ≤ logChunkMaxBytes
  kept : ∀ (maxTotalBytes : Int) (calls : List (List (List Char))) (u u' : Tables)
    (job : StrategyJob), u.jobs.get? jobId = some job → job.logsDiscarded = false →
    u.logsOf jobId lease.attempt = [] →
    appendJobLogs svc.storable jobId lease.attempt maxTotalBytes calls u = some u' →
    LogsKept jobId lease.attempt (max 1 maxTotalBytes).toNat (nonEmpty calls.flatten) u'

/-- No chunk takes more bytes than the API allows, and the database takes the characters of the
rows that fit under the cap. -/
def ShipFits (svc : Service) (redact : List Char → List Char) (jobId : String) (lease : Lease)
    (raw : List UInt8) (t : Tables) : Prop :=
  ∀ chunks, shipLogs raw = some chunks → (∀ chunk ∈ chunks, Utf8.size chunk ≤ logChunkMaxBytes) ∧
    ∀ row ∈ (t.logRows jobId lease.attempt (logPieces redact chunks) logTotalMaxBytes).1,
      row.content.all svc.storable = true

theorem logPieces_spec (redact : List Char → List Char) (chunks : List (List Char)) :
    (logPieces redact chunks).flatten = redact chunks.flatten ∧
      ∀ piece ∈ logPieces redact chunks, size piece ≤ logChunkMaxBytes := by
  refine ⟨flatten_cut _ _ _, fun piece hpiece => weight_le_of_mem_cut (fun c => ?_) hpiece⟩
  have hsize := c.utf8Size_le_four
  rw [logChunkMaxBytes]
  omega

theorem ShipFits.of_text {svc : Service} {redact : List Char → List Char} {jobId : String}
    {lease : Lease} {raw : List UInt8} {t : Tables}
    (h : ∀ chunks, shipLogs raw = some chunks → (∀ chunk ∈ chunks, size chunk ≤ logChunkMaxBytes) ∧
        (redact chunks.flatten).all svc.storable = true) :
    ShipFits svc redact jobId lease raw t := by
  intro chunks hship
  obtain ⟨hsizes, htext⟩ := h chunks hship
  rw [List.all_eq_true] at htext
  refine ⟨hsizes, fun row hrow => List.all_eq_true.mpr fun c hc => htext c ?_⟩
  have hpiece := (of_mem_logRows _ _ _ _ _ _ hrow).2.2
  rw [← (logPieces_spec redact chunks).1]
  exact List.mem_flatten_of_mem hpiece hc

theorem LogsKept.start {jobId : String} {attempt : Int} {cap : Nat} {t : Tables} {job : StrategyJob}
    (hjob : t.jobs.get? jobId = some job) (hflag : job.logsDiscarded = false)
    (hrows : t.logsOf jobId attempt = []) : LogsKept jobId attempt cap [] t := by
  refine ⟨?_, ?_, ?_, ?_, job, hjob, ?_⟩ <;> rw [hrows]
  · rfl
  · exact Nat.zero_le cap
  · exact fun row hrow => absurd hrow not_mem_nil
  · exact .slnil
  · simp [hflag]

/-- The log of a reachable job is accepted and kept if and only if its chunks fit. -/
theorem shippedAndKept_iff (svc : Service) (redact : List Char → List Char) {start : Tables}
    (hempty : start.jobs.rows = []) {events : List (Event Request)} {cfg : Repository}
    (hrun : (Config.idle start).run (program svc) events = some cfg) {jobId : String}
    {job : StrategyJob} (hjob : cfg.world.store.jobs.get? jobId = some job) {lease : Lease}
    (hnames : lease.names job = true) (hadmitted : lease.admitted = true) (raw : List UInt8) :
    ShippedAndKept svc redact jobId lease raw cfg.world.store ↔
      ShipFits svc redact jobId lease raw cfg.world.store := by
  have hsound := (ledger_of_run svc hempty hrun).2.sound jobId job hjob
  have haccepted : ∀ chunks, shipLogs raw = some chunks → ∀ now,
      (∃ response, ((reportJobLogs svc redact now ⟨jobId, lease, chunks⟩).run
        cfg.world.store).1 = .ok response) ↔
      (∀ chunk ∈ chunks, Utf8.size chunk ≤ logChunkMaxBytes) ∧
        ∀ row ∈ (cfg.world.store.logRows jobId lease.attempt (logPieces redact chunks)
          logTotalMaxBytes).1, row.content.all svc.storable = true := by
    intro chunks hship now
    obtain ⟨hne, hlength⟩ := length_shipLogs hship
    have hpos := List.length_pos_iff.mpr hne
    have hrequest : (ProcessLogsRequest.mk jobId lease chunks).admitted = true := by
      rw [ProcessLogsRequest.admitted, Bool.and_eq_true, decide_eq_true_eq]
      exact ⟨hadmitted, hpos, Nat.le_trans hlength (by omega)⟩
    exact reportJobLogs_accepted hrequest hjob (requireJobAuthority_logTerms hsound hnames now)
  constructor
  · intro h chunks hship
    exact (haccepted chunks hship 0).mp (h.accepted chunks hship 0)
  · intro h
    refine ⟨fun chunks hship now => (haccepted chunks hship now).mpr (h chunks hship),
      fun chunks _ => logPieces_spec redact chunks, ?_⟩
    intro maxTotalBytes calls u u' job' hjob' hflag hrows hcalls
    have hkept := logsKept_of_appendJobLogs (.start hjob' hflag hrows) hcalls
    rwa [List.nil_append] at hkept

def demoSup : Lease := ⟨"sup", 1, 1⟩

theorem demoRun_isSome :
    (((Config.idle demoTables).run (program demoService) (demoRace ++ demoClaimed)).bind fun cfg =>
      (cfg.world.store.jobs.get? "j1").filter demoSup.names).isSome = true := by
  decide +kernel

/-- A line of text is shipped and kept. -/
theorem shippedAndKept_iff_demo :
    ∃ cfg : Repository, (Config.idle demoTables).run (program demoService)
        (demoRace ++ demoClaimed) = some cfg ∧
      ShippedAndKept demoService id "j1" demoSup (Utf8.encode "ok".toList) cfg.world.store := by
  obtain ⟨job, hsome⟩ := Option.isSome_iff_exists.mp demoRun_isSome
  obtain ⟨cfg, hrun, hfilter⟩ := Option.bind_eq_some_iff.mp hsome
  obtain ⟨hjob, hnames⟩ := Option.filter_eq_some_iff.mp hfilter
  have hdecode : Utf8.decode (Utf8.encode "ok".toList) = "ok".toList := Utf8.decode_encode _
  have hship : shipLogs (Utf8.encode "ok".toList) = some ["ok".toList] :=
    shipLogs_short (by decide) hdecode (by decide) (by decide)
  have hfits : ShipFits demoService id "j1" demoSup (Utf8.encode "ok".toList) cfg.world.store := by
    refine .of_text fun chunks hchunks => ?_
    obtain rfl := Option.some.inj (hship.symm.trans hchunks)
    decide
  exact ⟨cfg, hrun, (shippedAndKept_iff demoService id rfl hrun hjob hnames (by decide)
    (Utf8.encode "ok".toList)).mpr hfits⟩

/-- Six thousand bytes that are no text become a chunk of eighteen thousand. -/
theorem invalid_output_refused :
    ∃ (cfg : Repository) (job : StrategyJob), (Config.idle demoTables).run (program demoService)
        (demoRace ++ demoClaimed) = some cfg ∧
      cfg.world.store.jobs.get? "j1" = some job ∧ demoSup.names job = true ∧ demoSup.admitted = true ∧
      ¬ ShippedAndKept demoService id "j1" demoSup (List.replicate 6000 0xFF) cfg.world.store := by
  obtain ⟨job, hsome⟩ := Option.isSome_iff_exists.mp demoRun_isSome
  obtain ⟨cfg, hrun, hfilter⟩ := Option.bind_eq_some_iff.mp hsome
  obtain ⟨hjob, hnames⟩ := Option.filter_eq_some_iff.mp hfilter
  refine ⟨cfg, job, hrun, hjob, hnames, by decide, fun h => ?_⟩
  obtain ⟨hship, hsize⟩ := shipLogs_invalid (n := 6000) (by omega) (by omega)
  have hlarge : logChunkMaxBytes < Utf8.size (List.replicate 6000 '\uFFFD') := by
    rw [hsize, logChunkMaxBytes]
    omega
  obtain ⟨response, hok⟩ := h.accepted _ hship 0
  rw [reportJobLogs_tooLarge rfl List.mem_cons_self hlarge] at hok
  cases hok

end KiteAlgo.Hosted
