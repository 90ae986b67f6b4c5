import KiteAlgo.Parser.WellFormed
import KiteAlgo.Screener.Transitions

/-!
# KiteAlgo.Screener.Presence

The presence automata of screener attachments against the code.

* `entry` and `exit` attachments: an instrument is inside from the run in which it
  passes until it has not passed for `exit_after` runs (`Absence`).  The code ends
  presence at the first run that evaluates the instrument and fails it, and counts
  absences of instruments that never passed; `Track.Strays` is exactly where this
  shows.
* `top_n` attachments: an instrument is inside from a rank within `entry_rank` for as
  long as its rank stays within `exit_rank` (`InBand`).  The silent baseline records
  everything that passed; `BaselineInBand` is exactly when that does not matter.
-/

namespace KiteAlgo

variable {F : Type}

/-- An instrument in one run: evaluated and passed, evaluated and not passed, or not in
the universe. -/
inductive Sight where
  | passed
  | failed
  | departed
  deriving DecidableEq, Repr

def AttachmentRun.sight (run : AttachmentRun F) (key : String) : Sight :=
  match run.sees key with
  | some m => if m.passed then .passed else .failed
  | none => .departed

/-- Inside or outside, and the runs without a pass while inside. -/
structure Absence where
  inside : Bool := false
  absent : Int := 0
  deriving DecidableEq, Repr

/-- Passing enters and ends an absence; the `k`-th run in a row without a pass leaves. -/
def Absence.next (k : Int) (s : Absence) (sight : Sight) : Absence :=
  if sight = .passed then ⟨true, 0⟩
  else if s.inside then
    if s.absent + 1 = k then ⟨false, 0⟩ else ⟨true, s.absent + 1⟩
  else s

def Absence.actions (k : Int) (s : Absence) (sight : Sight) : List AttachmentAction :=
  if sight = .passed then if s.inside then [] else [.entry]
  else if s.inside && decide (s.absent + 1 = k) then [.exit]
  else []

/-- The automaton of an instrument after some runs. -/
def absenceAfter (k : Int) (key : String) (past : List (AttachmentRun F)) : Absence :=
  past.foldl (fun s run => s.next k (run.sight key)) {}

/-- What matters of the past of an instrument: whether it ever passed, and for how many
runs it has not passed since, or since it was first evaluated. -/
structure Track where
  everPassed : Bool := false
  streak : Int := 0
  deriving DecidableEq, Repr

def Track.next (t : Track) : Sight → Track
  | .passed => ⟨true, 0⟩
  | .failed => ⟨t.everPassed, t.streak + 1⟩
  | .departed =>
    if t.everPassed || decide (0 < t.streak) then ⟨t.everPassed, t.streak + 1⟩ else t

def trackAfter (key : String) (past : List (AttachmentRun F)) : Track :=
  past.foldl (fun t run => t.next (run.sight key)) {}

/-- The runs in which the code strays: it passes again after fewer than `k` runs without
a pass; the `k`-th such run evaluates it; or it never passed and departs in the `k`-th run
since it was first evaluated. -/
def Track.strays (k : Int) (t : Track) : Sight → Bool
  | .passed => t.everPassed && decide (0 < t.streak) && decide (t.streak < k)
  | .failed => decide (1 < k) && t.everPassed && decide (t.streak + 1 = k)
  | .departed => !t.everPassed && decide (0 < t.streak) && decide (t.streak + 1 = k)

/-! ## entry and exit attachments -/

structure AbsenceTracks (k : Int) (s : Absence) (t : Track) : Prop where
  streak : 0 ≤ t.streak
  inside : s.inside = true ↔ t.everPassed = true ∧ t.streak < k
  absent : s.inside = true → s.absent = t.streak

/-- The row of an instrument in terms of the past. -/
structure RowTracks (row : Option AttachmentState) (t : Track) : Prop where
  streak : 0 ≤ t.streak
  seen : row = none ↔ t.everPassed = false ∧ t.streak = 0
  present : ∀ p, row = some p → (p.present = true ↔ t.everPassed = true ∧ t.streak = 0)
  count : ∀ p, row = some p → p.consecutiveAbsent = t.streak

theorem AbsenceTracks.start {k : Int} : AbsenceTracks k {} {} := by
  constructor <;> simp

theorem AbsenceTracks.next {k : Int} {s : Absence} {t : Track} (h : AbsenceTracks k s t)
    (hk : 1 ≤ k) (sight : Sight) : AbsenceTracks k (s.next k sight) (t.next sight) := by
  obtain ⟨hstreak, hinside, habsent⟩ := h
  cases sight with
  | passed => exact ⟨Int.le_refl 0, by simp [Absence.next, Track.next]; omega, fun _ => rfl⟩
  | failed =>
    constructor
    · show 0 ≤ t.streak + 1
      omega
    · grind [Absence.next, Track.next]
    · grind [Absence.next, Track.next]
  | departed =>
    constructor
    · grind [Track.next]
    · grind [Absence.next, Track.next]
    · grind [Absence.next, Track.next]

theorem RowTracks.start : RowTracks none {} := by
  constructor <;> simp

section Presence

variable {spec : AttachmentSpec} {key : String} {row : Option AttachmentState}

theorem keyTransition_presence (htrigger : spec.trigger = .entry ∨ spec.trigger = .exit)
    (member : Option (MemberResult F)) :
    keyTransition spec key row member = match member with
      | some m => presenceTransition spec row m
      | none =>
        match row with
        | some p =>
          ⟨some ⟨key, false, none, p.consecutiveAbsent + 1⟩,
            if p.consecutiveAbsent + 1 = spec.threshold then
              [{ action := .exit, rank := none, prevRank := p.lastRank }]
            else []⟩
        | none => ⟨none, []⟩ := by
  unfold keyTransition evaluatedTransition departedTransition
  cases htrigger with
  | inl h => cases member <;> cases row <;> simp only [h]
  | inr h => cases member <;> cases row <;> simp only [h]

variable {t : Track}

theorem RowTracks.count_getD (h : RowTracks row t) :
    (row.map AttachmentState.consecutiveAbsent).getD 0 = t.streak := by
  cases hrow : row with
  | some p => exact h.count p hrow
  | none => exact (h.seen.mp hrow).2.symm

theorem RowTracks.present_any (h : RowTracks row t) :
    row.any AttachmentState.present = true ↔ t.everPassed = true ∧ t.streak = 0 := by
  cases hrow : row with
  | some p => exact h.present p hrow
  | none => simp [h.seen.mp hrow]

theorem RowTracks.next (htrigger : spec.trigger = .entry ∨ spec.trigger = .exit) {t : Track}
    (h : RowTracks row t) (run : AttachmentRun F) :
    RowTracks (rowAfter run (keyTransition spec key row (run.sees key)) row)
      (t.next (run.sight key)) := by
  have hstreak := h.streak
  have hcount := h.count_getD
  rw [keyTransition_presence htrigger]
  unfold AttachmentRun.sight
  cases hsees : run.sees key with
  | some m =>
    cases hpassed : m.passed with
    | true =>
      simp only [if_true, rowAfter, presenceTransition, hpassed, Option.map_some, Option.some_or]
      constructor <;> simp [Track.next, AttachmentStateUpdate.row]
    | false =>
      simp only [Bool.false_eq_true, if_false, rowAfter, presenceTransition, hpassed,
        Option.map_some, Option.some_or, hcount]
      constructor
      · show 0 ≤ t.streak + 1
        omega
      · simp [Track.next]
        omega
      · simp [Track.next, AttachmentStateUpdate.row]
        omega
      · simp [Track.next, AttachmentStateUpdate.row]
  | none =>
    cases hrow : row with
    | none =>
      obtain ⟨hnever, hzero⟩ := h.seen.mp hrow
      have hsame : t.next .departed = t := by simp [Track.next, hnever, hzero]
      rw [hsame]
      rw [hrow] at h
      exact h
    | some p =>
      have hknown : t.everPassed = true ∨ 0 < t.streak := by
        have hseen := h.seen
        grind
      have hcount := h.count p hrow
      have hnext : t.next .departed = ⟨t.everPassed, t.streak + 1⟩ := by
        simp only [Track.next]
        rw [if_pos (by simpa using hknown)]
      rw [hnext]
      simp only [rowAfter, Option.map_some, Option.some_or]
      constructor
      · show 0 ≤ t.streak + 1
        omega
      · simp
        omega
      · simp [AttachmentStateUpdate.row]
        omega
      · simp [AttachmentStateUpdate.row, hcount]

theorem presence_actions_iff (htrigger : spec.trigger = .entry ∨ spec.trigger = .exit)
    (hk : 1 ≤ spec.threshold) {s : Absence} (hrow : RowTracks row t)
    (hs : AbsenceTracks spec.threshold s t) (run : AttachmentRun F) :
    (keyTransition spec key row (run.sees key)).events.map AttachmentPayload.action =
        s.actions spec.threshold (run.sight key) ↔
      t.strays spec.threshold (run.sight key) = false := by
  have hstreak := hrow.streak
  have hcount := hrow.count_getD
  have hpresent := hrow.present_any
  have hinside := hs.inside
  have habsent := hs.absent
  rw [keyTransition_presence htrigger]
  unfold AttachmentRun.sight
  cases hsees : run.sees key with
  | some m =>
    cases hpassed : m.passed with
    | true =>
      -- entry: not present against not inside
      simp only [if_true, presenceTransition, hpassed, Absence.actions, Track.strays]
      grind
    | false =>
      -- exit: present with a threshold of one against the end of an absence
      simp only [Bool.false_eq_true, if_false, presenceTransition, hpassed, hcount,
        Absence.actions, Track.strays]
      grind
  | none =>
    cases hrow' : row with
    | none =>
      obtain ⟨hnever, hzero⟩ := hrow.seen.mp hrow'
      simp only [Absence.actions, Track.strays]
      grind
    | some p =>
      have hcount := hrow.count p hrow'
      have hseen := hrow.seen
      simp only [Absence.actions, Track.strays, hcount]
      grind

end Presence

/-! ## runs of entry and exit attachments -/

section EntryExit

variable {spec : AttachmentSpec}

theorem silentRun_of_initialMatch (hinitial : spec.initialMatch = true) (rows : AttachmentRows) :
    silentRun spec rows = false := by
  simp [silentRun, hinitial]

theorem absenceTracks_after (k : Int) (hk : 1 ≤ k) (key : String) (past : List (AttachmentRun F)) :
    AbsenceTracks k (absenceAfter k key past) (trackAfter key past) := by
  induction past using List.reverseRecOn with
  | nil => exact .start
  | append_singleton past run ih =>
    have hnext := ih.next hk (run.sight key)
    simpa only [absenceAfter, trackAfter, List.foldl_append, List.foldl_cons, List.foldl_nil]
      using hnext

theorem rowTracks_after (htrigger : spec.trigger = .entry ∨ spec.trigger = .exit)
    (hinitial : spec.initialMatch = true) (key : String) (past : List (AttachmentRun F)) :
    RowTracks ((rowsAfter spec past .empty).get? key) (trackAfter key past) := by
  induction past using List.reverseRecOn with
  | nil => exact .start
  | append_singleton past run ih =>
    have htrack : trackAfter key (past ++ [run]) = (trackAfter key past).next (run.sight key) := by
      simp [trackAfter]
    rw [rowsAfter_concat, get?_next_of_not_silent (silentRun_of_initialMatch hinitial _), htrack]
    exact ih.next htrigger run

/-- The attachment follows the absence automaton of every instrument. -/
def FollowsAbsence (spec : AttachmentSpec) (runs : List (AttachmentRun F)) : Prop :=
  AtEach (fun past run => ∀ key, run.actions spec key (rowsAfter spec past .empty) =
    (absenceAfter spec.threshold key past).actions spec.threshold (run.sight key)) runs

def UncappedRuns (spec : AttachmentSpec) (runs : List (AttachmentRun F)) : Prop :=
  AtEach (fun past run => run.Uncapped spec (rowsAfter spec past .empty)) runs

/-- An `entry` or `exit` attachment with `initial_match` follows the absence automaton
over a sequence of runs exactly when no run strays. -/
theorem entry_exit_follows_absence_iff (htrigger : spec.trigger = .entry ∨ spec.trigger = .exit)
    (hinitial : spec.initialMatch = true) (hk : 1 ≤ spec.threshold) (runs : List (AttachmentRun F))
    (hcap : UncappedRuns spec runs) :
    FollowsAbsence spec runs ↔ AtEach (fun past run => ∀ key,
        (trackAfter key past).strays spec.threshold (run.sight key) = false) runs := by
  refine atEach_congr hcap fun past run hcap => forall_congr' fun key => ?_
  rw [actions_of_uncapped hcap (silentRun_of_initialMatch hinitial _)]
  exact presence_actions_iff htrigger hk (rowTracks_after htrigger hinitial key past)
    (absenceTracks_after spec.threshold hk key past) run

/-- An `exit` attachment that waits for two runs. -/
def exitAfterTwo : AttachmentSpec where
  id := "en"
  trigger := .exit
  channels := ["t"]
  exitAfter := some 2
  initialMatch := true

/-- An instrument that departs for two runs exits as the automaton says. -/
theorem departed_member_exits :
    FollowsAbsence exitAfterTwo
      [runOf 1 [("NSE:A", true, some 1)], runOf 2 [("NSE:B", false, none)], runOf 3 []] ↔
      AtEach (fun past run => ∀ key, (trackAfter key past).strays 2 (run.sight key) = false)
        [runOf 1 [("NSE:A", true, some 1)], runOf 2 [("NSE:B", false, none)], runOf 3 []] :=
  entry_exit_follows_absence_iff (.inr rfl) rfl (by decide) _ (by
    unfold UncappedRuns AttachmentRun.Uncapped
    decide +kernel)

/-- An instrument that is evaluated and fails for two runs never exits. -/
theorem failed_member_never_exits :
    exitAfterTwo.trigger = .exit ∧ exitAfterTwo.initialMatch = true ∧ exitAfterTwo.threshold = 2 ∧
      UncappedRuns exitAfterTwo
        [runOf 1 [("NSE:A", true, some 1)], runOf 2 [("NSE:A", false, none)],
          runOf 3 [("NSE:A", false, none)]] ∧
      ¬ FollowsAbsence exitAfterTwo
        [runOf 1 [("NSE:A", true, some 1)], runOf 2 [("NSE:A", false, none)],
          runOf 3 [("NSE:A", false, none)]] := by
  refine ⟨rfl, rfl, rfl, ?_, fun hfollows => ?_⟩
  · unfold UncappedRuns AttachmentRun.Uncapped
    decide +kernel
  · have hlast := hfollows [runOf 1 [("NSE:A", true, some 1)], runOf 2 [("NSE:A", false, none)]]
      (runOf 3 [("NSE:A", false, none)]) [] rfl "NSE:A"
    revert hlast
    decide +kernel

end EntryExit

/-! ## the rank bands -/

section Bands

variable (spec : AttachmentSpec) (key : String)

/-- The instrument passes with a rank within `entry_rank`. -/
def AttachmentRun.enters (run : AttachmentRun F) : Bool :=
  (run.sees key).any fun m => m.passed && rankWithin spec.entryRank m.rank

/-- The instrument passes with a rank within `exit_rank`. -/
def AttachmentRun.stays (run : AttachmentRun F) : Bool :=
  (run.sees key).any fun m => m.passed && rankWithin spec.exitRank m.rank

/-- It was ranked within `entry_rank`, and within `exit_rank` in every run since the
last such run. -/
def InBand (runs : List (AttachmentRun F)) : Prop :=
  ∃ before run after, runs = before ++ run :: after ∧ run.enters spec key = true ∧
    ∀ later ∈ after, later.enters spec key = false ∧ later.stays spec key = true

variable {spec key}

theorem not_inBand_nil : ¬ InBand spec key ([] : List (AttachmentRun F)) := by
  intro h
  obtain ⟨before, run, after, heq, -⟩ := h
  simp at heq

theorem inBand_concat {past : List (AttachmentRun F)} {run : AttachmentRun F} :
    InBand spec key (past ++ [run]) ↔
      run.enters spec key = true ∨ InBand spec key past ∧ run.stays spec key = true := by
  constructor
  · intro h
    obtain ⟨before, first, after, heq, henters, hafter⟩ := h
    cases after using List.reverseRecOn with
    | nil =>
      obtain ⟨-, hlast⟩ := List.append_inj' heq rfl
      obtain rfl := List.head_eq_of_cons_eq hlast
      exact .inl henters
    | append_singleton after last =>
      rw [← List.cons_append, ← List.append_assoc] at heq
      obtain ⟨rfl, hlast⟩ := List.append_inj' heq rfl
      obtain rfl := List.head_eq_of_cons_eq hlast
      refine .inr ⟨⟨before, first, after, rfl, henters, fun later hlater => ?_⟩, ?_⟩
      · exact hafter later (List.mem_append_left _ hlater)
      · exact (hafter run (List.mem_append_right _ (.head _))).2
  · intro h
    by_cases henters : run.enters spec key = true
    · exact ⟨past, run, [], rfl, henters, by simp⟩
    · have hband := h.resolve_left henters
      obtain ⟨⟨before, first, after, rfl, hfirst, hafter⟩, hstays⟩ := hband
      refine ⟨before, first, after ++ [run], by simp, hfirst, fun later hlater => ?_⟩
      rw [List.mem_append, List.mem_singleton] at hlater
      cases hlater with
      | inl hold => exact hafter later hold
      | inr hnew => exact hnew ▸ ⟨Bool.eq_false_iff.mpr henters, hstays⟩

def bandAfter (spec : AttachmentSpec) (key : String) (runs : List (AttachmentRun F)) : Bool :=
  runs.foldl (fun inside run => run.enters spec key || inside && run.stays spec key) false

theorem bandAfter_iff (runs : List (AttachmentRun F)) :
    bandAfter spec key runs = true ↔ InBand spec key runs := by
  induction runs using List.reverseRecOn with
  | nil => simp [bandAfter, not_inBand_nil]
  | append_singleton past run ih =>
    rw [inBand_concat, ← ih]
    simp [bandAfter]

instance decidableInBand (spec : AttachmentSpec) (key : String) (runs : List (AttachmentRun F)) :
    Decidable (InBand spec key runs) :=
  decidable_of_iff _ (bandAfter_iff runs)

end Bands

/-- The events of a presence that was and is. -/
def bandActions (was now : Bool) : List AttachmentAction :=
  if was = now then [] else if now then [.entry] else [.exit]

/-- The attachment records who is in the band after every run and reports who comes into
it and leaves it, with nothing of the first run unless `initial_match` is set. -/
def FollowsBand (spec : AttachmentSpec) (runs : List (AttachmentRun F)) : Prop :=
  AtEach (fun past run => ∀ key,
    (((rowsAfter spec (past ++ [run]) .empty).get? key).any AttachmentState.present = true ↔
      InBand spec key (past ++ [run])) ∧
    run.actions spec key (rowsAfter spec past .empty) = if past.isEmpty && !spec.initialMatch then []
      else bandActions (InBand spec key past) (InBand spec key (past ++ [run]))) runs

/-- Without `initial_match`, who passes in the first run that evaluates anything does so
within `entry_rank`, and no run came before it. -/
def BaselineInBand (spec : AttachmentSpec) (runs : List (AttachmentRun F)) : Prop :=
  AtEach (fun past run => spec.initialMatch = false → (∀ earlier ∈ past, earlier.results = []) →
    ∀ key m, run.sees key = some m → m.passed = true → past = [] ∧ run.enters spec key = true) runs

/-- No run that may report has more instruments come and go than its cap. -/
def BandWithinCap (spec : AttachmentSpec) (runs : List (AttachmentRun F)) : Prop :=
  AtEach (fun past run => (past.isEmpty && !spec.initialMatch) = false → ∀ keys : List String, keys.Nodup →
      (∀ key ∈ keys, ¬ (InBand spec key past ↔ InBand spec key (past ++ [run]))) →
        keys.length ≤ run.plan.maxEvents) runs

/-! ## top_n attachments -/

section TopN

variable {spec : AttachmentSpec} {key : String}

variable {run : AttachmentRun F}

theorem stays_of_enters (hwf : spec.WF) (htrigger : spec.trigger = .topN)
    (h : run.enters spec key = true) : run.stays spec key = true := by
  obtain ⟨-, hentry, hexit⟩ := hwf.topN_isSome htrigger
  obtain ⟨entry, hentry⟩ := Option.isSome_iff_exists.mp hentry
  obtain ⟨exit, hexit⟩ := Option.isSome_iff_exists.mp hexit
  have hlt := hwf.ranks entry exit hentry hexit
  unfold AttachmentRun.enters at h
  unfold AttachmentRun.stays
  rw [hentry] at h
  rw [hexit]
  simp only [Option.any_eq_true, Bool.and_eq_true, rankWithin, decide_eq_true_eq, Option.getD_some] at h ⊢
  obtain ⟨m, hm, hpassed, r, hr, hle⟩ := h
  exact ⟨m, hm, hpassed, r, hr, by omega⟩

theorem topN_step (hwf : spec.WF) (htrigger : spec.trigger = .topN) (run : AttachmentRun F)
    (row : Option AttachmentState) :
    ((rowAfter run (keyTransition spec key row (run.sees key)) row).any AttachmentState.present =
        (run.enters spec key || row.any AttachmentState.present && run.stays spec key)) ∧
      (keyTransition spec key row (run.sees key)).events.map AttachmentPayload.action =
        bandActions (row.any AttachmentState.present)
          (run.enters spec key || row.any AttachmentState.present && run.stays spec key) := by
  have hstays : run.enters spec key = true → run.stays spec key = true :=
    stays_of_enters hwf htrigger
  unfold AttachmentRun.enters AttachmentRun.stays at *
  unfold keyTransition rowAfter
  cases hsees : run.sees key with
  | some m =>
    rw [hsees] at hstays
    simp only [evaluatedTransition, htrigger, topNTransition, Option.any_some] at hstays ⊢
    generalize row.any AttachmentState.present = was at *
    generalize rankWithin spec.entryRank m.rank = entry at *
    generalize rankWithin spec.exitRank m.rank = exit at *
    generalize m.passed = passed at *
    cases was <;> cases passed <;> cases entry <;> cases exit <;>
      simp_all [AttachmentStateUpdate.row, bandActions]
  | none =>
    cases hrow : row with
    | none => simp [bandActions]
    | some p =>
      cases hpresent : p.present <;>
        simp [departedTransition, htrigger, hpresent, AttachmentStateUpdate.row, bandActions]

/-- The rows of the attachment record who is in the band. -/
def BandRows (spec : AttachmentSpec) (past : List (AttachmentRun F)) : Prop :=
  ∀ key, ((rowsAfter spec past .empty).get? key).any AttachmentState.present = decide (InBand spec key past)

theorem decide_inBand_concat (past : List (AttachmentRun F)) (run : AttachmentRun F) :
    decide (InBand spec key (past ++ [run])) =
      (run.enters spec key || decide (InBand spec key past) && run.stays spec key) := by
  rw [Bool.eq_iff_iff]
  simp [inBand_concat]

theorem silentRun_iff (past : List (AttachmentRun F)) :
    silentRun spec (rowsAfter spec past .empty) = true ↔
      spec.initialMatch = false ∧ ∀ earlier ∈ past, earlier.results = [] := by
  rw [silentRun, Bool.and_eq_true, isEmpty_rowsAfter, Bool.not_eq_true', and_comm]

variable {past : List (AttachmentRun F)}

theorem not_inBand_of_results_nil (h : ∀ earlier ∈ past, earlier.results = []) :
    ¬ InBand spec key past := by
  intro hband
  obtain ⟨before, run, after, rfl, henters, -⟩ := hband
  have hnone := sees_eq_none_iff.mpr (h run (by simp)) key
  simp [AttachmentRun.enters, hnone] at henters

theorem bandRows_concat_of_not_silent (hwf : spec.WF) (htrigger : spec.trigger = .topN)
    (hrows : BandRows spec past) (hsilent : silentRun spec (rowsAfter spec past .empty) = false)
    (run : AttachmentRun F) : BandRows spec (past ++ [run]) := by
  intro key
  rw [rowsAfter_concat, get?_next_of_not_silent hsilent, (topN_step hwf htrigger run _).1, hrows,
    decide_inBand_concat]

theorem bandRows_concat_of_silent (hsilent : silentRun spec (rowsAfter spec past .empty) = true) :
    BandRows spec (past ++ [run]) ↔
      ∀ key m, run.sees key = some m → m.passed = true → run.enters spec key = true := by
  have hempty := (silentRun_iff past).mp hsilent
  refine forall_congr' fun key => ?_
  have hband : decide (InBand spec key past) = false :=
    decide_eq_false (not_inBand_of_results_nil hempty.2)
  rw [rowsAfter_concat, get?_next_of_silent hsilent, decide_inBand_concat, hband]
  unfold AttachmentRun.enters
  cases run.sees key with
  | none => simp
  | some m =>
    simp only [Option.map_some, Option.any_some, Bool.false_and, Bool.or_false,
      Option.some.injEq, forall_eq']
    cases m.passed <;> simp

variable {rest : List (AttachmentRun F)}

theorem bandRows_of_baseline (hwf : spec.WF) (htrigger : spec.trigger = .topN)
    (hbase : BaselineInBand spec (past ++ rest)) : BandRows spec past := by
  induction past using List.reverseRecOn generalizing rest with
  | nil =>
    intro key
    simp [rowsAfter, not_inBand_nil]
  | append_singleton past run ih =>
    rw [List.append_assoc] at hbase
    cases hsilent : silentRun spec (rowsAfter spec past .empty) with
    | true =>
      obtain ⟨hinitial, hempty⟩ := (silentRun_iff past).mp hsilent
      refine (bandRows_concat_of_silent hsilent).mpr fun key m hsees hpassed => ?_
      exact (hbase past run rest rfl hinitial hempty key m hsees hpassed).2
    | false => exact bandRows_concat_of_not_silent hwf htrigger (ih hbase) hsilent run

theorem length_bandActions (was now : Bool) : (bandActions was now).length ≤ 1 := by
  cases was <;> cases now <;> decide

theorem bandActions_eq_nil {was now : Bool} : bandActions was now = [] ↔ was = now := by
  cases was <;> cases now <;> decide

theorem actions_of_bandRows (hwf : spec.WF) (htrigger : spec.trigger = .topN)
    (hrows : BandRows spec past) (hsilent : silentRun spec (rowsAfter spec past .empty) = false)
    (hcap : ∀ keys : List String, keys.Nodup →
      (∀ key ∈ keys, ¬ (InBand spec key past ↔ InBand spec key (past ++ [run]))) →
        keys.length ≤ run.plan.maxEvents) (key : String) :
    run.actions spec key (rowsAfter spec past .empty) =
      bandActions (InBand spec key past) (InBand spec key (past ++ [run])) := by
  have hstep : ∀ key, (keyTransition spec key ((rowsAfter spec past .empty).get? key)
      (run.sees key)).events.map AttachmentPayload.action =
        bandActions (InBand spec key past) (InBand spec key (past ++ [run])) := by
    intro key
    rw [(topN_step hwf htrigger run _).2, hrows, decide_inBand_concat]
  have huncapped : run.Uncapped spec (rowsAfter spec past .empty) := by
    refine uncapped_of_keys (fun key => ?_) fun keys hnodup hchange => ?_
    · rw [← List.length_map AttachmentPayload.action, hstep]
      exact length_bandActions _ _
    · refine hcap keys hnodup fun key hkey hsame => hchange key hkey ?_
      rw [← List.map_eq_nil_iff (f := AttachmentPayload.action), hstep, bandActions_eq_nil]
      exact decide_eq_decide.mpr hsame
  rw [actions_of_uncapped huncapped hsilent, hstep]

theorem reports_of_not_silent (hsilent : silentRun spec (rowsAfter spec past .empty) = false) :
    (past.isEmpty && !spec.initialMatch) = false := by
  by_contra hfirst
  simp only [Bool.not_eq_false, Bool.and_eq_true, List.isEmpty_iff, Bool.not_eq_true'] at hfirst
  have hempty : ∀ earlier ∈ past, earlier.results = [] := by simp [hfirst.1]
  rw [(silentRun_iff past).mpr ⟨hfirst.2, hempty⟩] at hsilent
  cases hsilent

theorem not_inBand_of_silent (hbase : BaselineInBand spec (past ++ run :: rest))
    (hsilent : silentRun spec (rowsAfter spec past .empty) = true) (hpast : past ≠ [])
    (key : String) : ¬ InBand spec key (past ++ [run]) := by
  obtain ⟨hinitial, hempty⟩ := (silentRun_iff past).mp hsilent
  intro hband
  cases inBand_concat.mp hband with
  | inl henters =>
    obtain ⟨m, hsees, hm⟩ := (Option.any_eq_true _ _).mp henters
    rw [Bool.and_eq_true] at hm
    exact hpast (hbase past run rest rfl hinitial hempty key m hsees hm.1).1
  | inr hin => exact not_inBand_of_results_nil hempty hin.1

section Parsed

variable [PyFloat F]

/-- A `top_n` attachment follows the rank bands over a sequence of runs exactly when its
baseline is in the band and no run has more changes than its cap. -/
theorem top_n_follows_band_iff {raw : PyVal F} {path : String}
    (hparse : Parse.attachmentSpec raw path = .ok spec) (htrigger : spec.trigger = .topN)
    (runs : List (AttachmentRun F)) :
    FollowsBand spec runs ↔ BaselineInBand spec runs ∧ BandWithinCap spec runs := by
  have hwf := Parse.wf_of_attachmentSpec hparse
  constructor
  · intro hfollows
    refine ⟨fun past run rest hruns hinitial hempty key m hsees hpassed => ?_,
      fun past run rest hruns hreports keys hnodup hchange => ?_⟩
    · have hsilent := (silentRun_iff past).mpr ⟨hinitial, hempty⟩
      have hrows : BandRows spec (past ++ [run]) := fun key => by
        rw [Bool.eq_iff_iff, decide_eq_true_eq]
        exact (hfollows past run rest hruns key).1
      have henters := (bandRows_concat_of_silent hsilent).mp hrows key m hsees hpassed
      refine ⟨?_, henters⟩
      -- after an empty run the silent baseline swallows the entry
      have hactions := (hfollows past run rest hruns key).2
      rw [actions_of_silent hsilent] at hactions
      cases past with
      | nil => rfl
      | cons first past =>
        have hnow : InBand spec key (first :: past ++ [run]) := inBand_concat.mpr (.inl henters)
        have hwas : ¬ InBand spec key (first :: past) := not_inBand_of_results_nil hempty
        rw [decide_eq_true hnow, decide_eq_false hwas] at hactions
        simp [bandActions] at hactions
    · have hreported : ∀ key ∈ keys, run.actions spec key (rowsAfter spec past .empty) ≠ [] := by
        intro key hkey hnil
        have hactions := (hfollows past run rest hruns key).2
        rw [hnil, hreports] at hactions
        have hsame := bandActions_eq_nil.mp hactions.symm
        exact hchange key hkey (decide_eq_decide.mp hsame)
      exact length_le_maxEvents hnodup hreported
  · intro hcond past run rest hruns key
    obtain ⟨hbase, hwithin⟩ := hcond
    have hcap := hwithin past run rest hruns
    subst hruns
    have hrows : BandRows spec past := bandRows_of_baseline hwf htrigger hbase
    have hnext : BandRows spec (past ++ [run]) := by
      rw [List.append_cons] at hbase
      exact bandRows_of_baseline hwf htrigger hbase
    refine ⟨by rw [hnext, decide_eq_true_eq], ?_⟩
    cases hsilent : silentRun spec (rowsAfter spec past .empty) with
    | true =>
      rw [actions_of_silent hsilent]
      by_cases hpast : past = []
      · simp [hpast, ((silentRun_iff past).mp hsilent).1]
      · have hwas : ¬ InBand spec key past :=
          not_inBand_of_results_nil ((silentRun_iff past).mp hsilent).2
        have hnow := not_inBand_of_silent hbase hsilent hpast key
        simp [hpast, hwas, hnow, bandActions]
    | false =>
      have hreports := reports_of_not_silent hsilent
      rw [actions_of_bandRows hwf htrigger hrows hsilent (hcap hreports), hreports]
      rfl

end Parsed

/-- A `top_n` attachment for the first rank, with the default bands. -/
def topOneRaw : PyVal ℚ :=
  .dict [(.str "id", .str "en"), (.str "trigger", .str "top_n"),
    (.str "channels", .list [.str "t"]), (.str "top_n", .int 1)]

def topOne : AttachmentSpec where
  id := "en"
  trigger := .topN
  channels := ["t"]
  topN := some 1
  entryRank := some 1
  exitRank := some 2

/-- A baseline led by the instrument that passes follows the bands. -/
theorem leading_member_follows_band :
    FollowsBand topOne
        [runOf 1 [("NSE:A", true, some 1)], runOf 2 [("NSE:A", true, some 2)],
          runOf 3 [("NSE:A", true, some 3)]] ↔
      BaselineInBand topOne
          [runOf 1 [("NSE:A", true, some 1)], runOf 2 [("NSE:A", true, some 2)],
            runOf 3 [("NSE:A", true, some 3)]] ∧
        BandWithinCap topOne
          [runOf 1 [("NSE:A", true, some 1)], runOf 2 [("NSE:A", true, some 2)],
            runOf 3 [("NSE:A", true, some 3)]] :=
  top_n_follows_band_iff (show Parse.attachmentSpec topOneRaw "a" = .ok topOne by decide +kernel) rfl _

/-- An instrument that was never ranked within `entry_rank` exits: the silent baseline
recorded it as present. -/
theorem unranked_member_exits :
    Parse.attachmentSpec topOneRaw "a" = .ok topOne ∧ topOne.trigger = .topN ∧ ¬ FollowsBand topOne
        [runOf 1 [("NSE:A", true, some 5)], runOf 2 [("NSE:A", true, some 6)]] := by
  refine ⟨by decide +kernel, rfl, fun hfollows => ?_⟩
  have hlast := (hfollows [runOf 1 [("NSE:A", true, some 5)]] (runOf 2 [("NSE:A", true, some 6)]) []
    rfl "NSE:A").2
  revert hlast
  decide +kernel

end TopN

end KiteAlgo
