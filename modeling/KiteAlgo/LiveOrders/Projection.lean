import KiteAlgo.LiveOrders
import Mathlib.Order.Bounds.Defs
import Mathlib.Data.List.Induction

/-!
# KiteAlgo.LiveOrders.Projection

What the projection of an order converges to.  Besides the canonical updates
(`OrderState.upsert`) the row has a second writer: a placement seeds it with the status
`PLACED` and the clock of the database, over whatever is there
(`seedLiveOrderStateProjection`).

The filled quantity and the terminal flag do not depend on the order of the writes.  The
status does: it is that of the write that no later one replaced (`Latest`), and
`project_latest` says which write that is.
-/

namespace KiteAlgo

open List Option
namespace OrderState

def seedLiveOrderStateProjection (status : String) (now : Int) (existing : Option OrderState) :
    OrderState :=
  match existing with
  | none =>
    { latestStatus := status
      latestEventTimestamp := now
      lastSeenFilledQuantity := 0
      dirtyForTradeSync := false
      needsReconcile := true
      terminal := false }
  | some row =>
    { row with latestStatus := status, latestEventTimestamp := now, needsReconcile := true }

/-- `UPPER(latest_status) IN ('COMPLETE', 'CANCELLED', 'REJECTED', 'LAPSED')`, the test of the
settlement checks. -/
def Settled (row : OrderState) : Prop := Text.upper row.latestStatus ∈ terminalOrderStatuses

instance (row : OrderState) : Decidable row.Settled :=
  inferInstanceAs (Decidable (_ ∈ _))

end OrderState

/-- A write to the projection of an order: a canonical update, or the seed of its placement
at `now`. -/
inductive ProjectionWrite where
  | event (event : OrderEvent)
  | placed (now : Int)
  deriving DecidableEq

namespace ProjectionWrite

def status : ProjectionWrite → String
  | .event e => e.status
  | .placed _ => "PLACED"

def timestamp : ProjectionWrite → Int
  | .event e => e.eventTimestamp
  | .placed now => now

def event? : ProjectionWrite → Option OrderEvent
  | .event e => some e
  | .placed _ => none

def isPlaced (write : ProjectionWrite) : Bool := write.event?.isNone

def apply (existing : Option OrderState) : ProjectionWrite → OrderState
  | .event e => OrderState.upsert existing e
  | .placed now => OrderState.seedLiveOrderStateProjection "PLACED" now existing

end ProjectionWrite

open ProjectionWrite

theorem OrderEvent.terminal_iff {e : OrderEvent} :
    e.terminal ↔ Text.upper e.status ∈ terminalOrderStatuses := decide_eq_true_iff

theorem placed_not_terminal : Text.upper "PLACED" ∉ terminalOrderStatuses := by decide +kernel

/-- The projection after a list of writes, none at first. -/
def project (writes : List ProjectionWrite) : Option OrderState :=
  writes.foldl (fun existing write => some (write.apply existing)) none

def eventsOf (writes : List ProjectionWrite) : List OrderEvent := writes.filterMap event?

variable {writes : List ProjectionWrite}

@[simp] theorem project_nil : project [] = none := rfl

@[simp] theorem project_snoc (writes : List ProjectionWrite) (write : ProjectionWrite) :
    project (writes ++ [write]) = some (write.apply (project writes)) := by
  rw [project, foldl_append]
  rfl

@[simp] theorem eventsOf_nil : eventsOf [] = [] := rfl

@[simp] theorem eventsOf_snoc (writes : List ProjectionWrite) (write : ProjectionWrite) :
    eventsOf (writes ++ [write]) = eventsOf writes ++ write.event?.toList := by
  rw [eventsOf, filterMap_append]
  cases write <;> rfl

theorem project_eq_none (h : project writes = none) : writes = [] := by
  induction writes using reverseRecOn with
  | nil => rfl
  | append_singleton writes write => simp at h

variable {row : OrderState}

theorem project_filled (hfilled : ∀ event ∈ eventsOf writes, 0 ≤ event.filled)
    (hrow : project writes = some row) :
    (eventsOf writes = [] → row.lastSeenFilledQuantity = 0) ∧ (eventsOf writes ≠ [] →
        IsGreatest {q | ∃ event ∈ eventsOf writes, event.filled = q} row.lastSeenFilledQuantity) := by
  induction writes using reverseRecOn generalizing row with
  | nil => simp at hrow
  | append_singleton writes write ih =>
    rw [project_snoc, some.injEq] at hrow
    subst hrow
    have hpast : ∀ event ∈ eventsOf writes, 0 ≤ event.filled := fun event hevent =>
      hfilled event (by rw [eventsOf_snoc]; exact mem_append_left _ hevent)
    cases hbefore : project writes with
    | none =>
      rw [project_eq_none hbefore]
      cases write with
      | event e =>
        refine ⟨fun h => by simp [eventsOf, event?] at h, fun _ => ?_⟩
        refine ⟨⟨e, by simp [eventsOf, event?], rfl⟩, ?_⟩
        rintro q ⟨other, hother, rfl⟩
        have hsame : other = e := by simpa [eventsOf, event?] using hother
        rw [hsame]
        exact le_refl _
      | placed now =>
        simp [eventsOf, event?, apply, OrderState.seedLiveOrderStateProjection]
    | some old =>
      obtain ⟨hnone, hsome⟩ := ih hpast hbefore
      cases write with
      | placed now =>
        simpa [event?, apply, OrderState.seedLiveOrderStateProjection] using ⟨hnone, hsome⟩
      | event event =>
        have hnew : 0 ≤ event.filled := hfilled event (by simp [event?])
        refine ⟨fun h => by simp [event?] at h, fun _ => ?_⟩
        simp only [eventsOf_snoc, event?, apply, OrderState.upsert, toList_some]
        by_cases hempty : eventsOf writes = []
        · rw [hempty, hnone hempty, nil_append, max_eq_right hnew]
          exact ⟨⟨event, mem_singleton_self event, rfl⟩, by rintro q ⟨e, he, rfl⟩; simp_all⟩
        · obtain ⟨⟨top, htop, htopq⟩, hbound⟩ := hsome hempty
          refine ⟨?_, ?_⟩
          · rcases le_total old.lastSeenFilledQuantity event.filled with hle | hle
            · exact ⟨event, by simp, (max_eq_right hle).symm⟩
            · exact ⟨top, mem_append_left _ htop, by rw [max_eq_left hle, htopq]⟩
          · rintro q ⟨e, he, rfl⟩
            rw [mem_append, mem_singleton] at he
            rcases he with he | rfl
            · exact le_trans (hbound ⟨e, he, rfl⟩) (le_max_left _ _)
            · exact le_max_right _ _

theorem project_terminal (hrow : project writes = some row) :
    row.terminal ↔ ∃ event ∈ eventsOf writes, event.terminal := by
  induction writes using reverseRecOn generalizing row with
  | nil => simp at hrow
  | append_singleton writes write ih =>
    rw [project_snoc, some.injEq] at hrow
    subst hrow
    cases hbefore : project writes with
    | none =>
      rw [project_eq_none hbefore]
      cases write with
      | event event =>
        simp [eventsOf, event?, apply, OrderState.upsert, OrderState.ofEvent]
      | placed now =>
        simp [eventsOf, event?, apply, OrderState.seedLiveOrderStateProjection]
    | some old =>
      have hold := ih hbefore
      cases write with
      | event event =>
        simp only [apply, OrderState.upsert, Bool.or_eq_true, hold, eventsOf_snoc, event?,
          toList_some, mem_append, mem_singleton, or_and_right, exists_or, exists_eq_left]
      | placed now =>
        simpa [event?, apply, OrderState.seedLiveOrderStateProjection] using hold

theorem project_settled (hrow : project writes = some row) (hsettled : row.Settled) :
    row.terminal := by
  induction writes using reverseRecOn generalizing row with
  | nil => simp at hrow
  | append_singleton writes write ih =>
    rw [project_snoc, some.injEq] at hrow
    subst hrow
    cases write with
    | placed now =>
      cases hbefore : project writes <;>
        exact absurd (by simpa [hbefore, apply, OrderState.seedLiveOrderStateProjection,
          OrderState.Settled] using hsettled) placed_not_terminal
    | event event =>
      cases hbefore : project writes with
      | none =>
        simpa [hbefore, apply, OrderState.upsert, OrderState.ofEvent, OrderState.Settled,
          OrderEvent.terminal_iff] using hsettled
      | some old =>
        rw [hbefore] at hsettled
        simp only [apply, OrderState.upsert, OrderState.Settled] at hsettled ⊢
        split at hsettled
        · rw [OrderEvent.terminal_iff.mpr hsettled, Bool.or_true]
        · rw [ih hbefore hsettled, Bool.true_or]

/-! ## status -/

/-- The writes from the last placement on; all of them when there is none. -/
def sincePlacement : List ProjectionWrite → List ProjectionWrite
  | [] => []
  | write :: writes => if writes.any isPlaced then sincePlacement writes else write :: writes

theorem sincePlacement_placed (writes : List ProjectionWrite) (now : Int) :
    sincePlacement (writes ++ [placed now]) = [placed now] := by
  induction writes with
  | nil => rfl
  | cons write writes ih => simp [sincePlacement, ih, isPlaced, event?]

theorem sincePlacement_event (writes : List ProjectionWrite) (e : OrderEvent) :
    sincePlacement (writes ++ [event e]) = sincePlacement writes ++ [event e] := by
  induction writes with
  | nil => rfl
  | cons write writes ih =>
    simp only [cons_append, sincePlacement, ih, any_append, any_cons, any_nil,
      isPlaced, event?, isNone_some, Bool.or_false]
    split <;> rfl

/-- `write` is the last of the writes with the greatest timestamp. -/
def Latest (writes : List ProjectionWrite) (write : ProjectionWrite) : Prop :=
  ∃ before after, writes = before ++ write :: after ∧
    (∀ other ∈ before, other.timestamp ≤ write.timestamp) ∧
    ∀ other ∈ after, other.timestamp < write.timestamp

theorem Latest.unique {write write' : ProjectionWrite} (h : Latest writes write)
    (h' : Latest writes write') : write = write' := by
  obtain ⟨before, after, rfl, hbefore, hafter⟩ := h
  obtain ⟨before', after', heq, hbefore', hafter'⟩ := h'
  rcases append_eq_append_iff.mp heq with ⟨mid, hmid, hrest⟩ | ⟨mid, hmid, hrest⟩
  · cases mid with
    | nil => exact (List.cons.inj hrest).1
    | cons first mid =>
      obtain ⟨rfl, rfl⟩ := List.cons.inj hrest
      have hle : write.timestamp ≤ write'.timestamp := hbefore' write (by simp [hmid])
      have hlt : write'.timestamp < write.timestamp := hafter write' (by simp)
      omega
  · cases mid with
    | nil => exact (List.cons.inj hrest).1.symm
    | cons first mid =>
      obtain ⟨rfl, rfl⟩ := List.cons.inj hrest
      have hle : write'.timestamp ≤ write.timestamp := hbefore write' (by simp [hmid])
      have hlt : write.timestamp < write'.timestamp := hafter' write (by simp)
      omega

theorem Latest.snoc {write : ProjectionWrite} (h : Latest writes write) (next : ProjectionWrite) :
    Latest (writes ++ [next]) (if write.timestamp ≤ next.timestamp then next else write) := by
  obtain ⟨before, after, rfl, hbefore, hafter⟩ := h
  split
  · next hle =>
    refine ⟨before ++ write :: after, [], rfl, fun other hother => ?_, by simp⟩
    rw [mem_append, mem_cons] at hother
    rcases hother with hother | rfl | hother
    · exact le_trans (hbefore other hother) hle
    · exact hle
    · exact le_trans (hafter other hother).le hle
  · next hlt =>
    refine ⟨before, after ++ [next], by simp, hbefore, fun other hother => ?_⟩
    rw [mem_append, mem_singleton] at hother
    rcases hother with hother | rfl
    · exact hafter other hother
    · omega

theorem project_latest (hrow : project writes = some row) :
    ∃ write, Latest (sincePlacement writes) write ∧ row.latestStatus = write.status ∧
      row.latestEventTimestamp = write.timestamp := by
  induction writes using reverseRecOn generalizing row with
  | nil => simp at hrow
  | append_singleton writes write ih =>
    rw [project_snoc, some.injEq] at hrow
    subst hrow
    cases write with
    | placed now =>
      refine ⟨placed now, ⟨[], [], sincePlacement_placed writes now, by simp, by simp⟩, ?_⟩
      cases project writes <;> exact ⟨rfl, rfl⟩
    | event e =>
      cases hbefore : project writes with
      | none =>
        rw [project_eq_none hbefore]
        exact ⟨event e, ⟨[], [], rfl, by simp, by simp⟩, rfl, rfl⟩
      | some old =>
        obtain ⟨latest, hlatest, hstatus, htime⟩ := ih hbefore
        have hnext := hlatest.snoc (event e)
        rw [← sincePlacement_event] at hnext
        refine ⟨_, hnext, ?_⟩
        have htest : (latest.timestamp ≤ (event e).timestamp) =
            (old.latestEventTimestamp ≤ e.eventTimestamp) := by rw [htime]; rfl
        simp only [apply, OrderState.upsert, decide_eq_true_eq, htest]
        split
        · exact ⟨rfl, rfl⟩
        · exact ⟨hstatus, htime⟩

/-! ## convergence -/

/-- What the projection of an order should be once all its updates are in. -/
structure Converged (writes : List ProjectionWrite) (row : OrderState) : Prop where
  filled : eventsOf writes ≠ [] →
    IsGreatest {q | ∃ event ∈ eventsOf writes, event.filled = q} row.lastSeenFilledQuantity
  terminal : row.terminal = true ↔ ∃ event ∈ eventsOf writes, event.terminal = true
  status : (∃ event ∈ eventsOf writes, event.terminal = true ∧
    ∀ other ∈ eventsOf writes, other.eventTimestamp ≤ event.eventTimestamp) → row.Settled

/-- A terminal update is the latest write since the placement. -/
def TerminalLast (writes : List ProjectionWrite) : Prop :=
  ∃ e : OrderEvent, e.terminal = true ∧ Latest (sincePlacement writes) (event e)

theorem settled_iff (hrow : project writes = some row) : row.Settled ↔ TerminalLast writes := by
  obtain ⟨write, hlatest, hstatus, -⟩ := project_latest hrow
  rw [OrderState.Settled, hstatus]
  constructor
  · intro hsettled
    cases write with
    | event e => exact ⟨e, OrderEvent.terminal_iff.mpr hsettled, hlatest⟩
    | placed now => exact absurd hsettled placed_not_terminal
  · rintro ⟨e, hterminal, hother⟩
    rw [hlatest.unique hother]
    exact OrderEvent.terminal_iff.mp hterminal

/-- The projection converges exactly where, whenever a terminal update has the greatest
timestamp, no later write has displaced the terminal status. -/
theorem projection_converges_iff {writes : List ProjectionWrite}
    (hfilled : ∀ event ∈ eventsOf writes, 0 ≤ event.filled) {row : OrderState}
    (hrow : project writes = some row) :
    Converged writes row ↔ ((∃ event ∈ eventsOf writes, event.terminal = true ∧
        ∀ other ∈ eventsOf writes, other.eventTimestamp ≤ event.eventTimestamp) → TerminalLast writes) := by
  constructor
  · intro h hterminal
    exact (settled_iff hrow).mp (h.status hterminal)
  · intro h
    exact ⟨(project_filled hfilled hrow).2, project_terminal hrow,
      fun hterminal => (settled_iff hrow).mpr (h hterminal)⟩

/-- An update of one order, stamped with a second. -/
def updateAt (status : String) (filled second : Int) : OrderEvent where
  accountId := "kite:AB1234"
  orderId := "240102000000001"
  status := status
  filledQuantity := some filled
  eventTimestamp := second * 1000000

theorem projection_converges_demo :
    Converged [placed 0, event (updateAt "OPEN" 0 1), event (updateAt "COMPLETE" 10 2)]
      ⟨"COMPLETE", 2000000, 10, true, true, true⟩ := by
  refine (projection_converges_iff (by decide +kernel) (by decide +kernel)).mpr fun _ => ?_
  exact ⟨updateAt "COMPLETE" 10 2, by decide +kernel,
    [placed 0, event (updateAt "OPEN" 0 1)], [], by decide +kernel, by decide +kernel, by simp⟩

/-- The two ways to lose the terminal status: an update stamped in the same second that is
processed after it, and a placement whose seed comes after it. -/
theorem projection_loses_terminal :
    (∃ row, project [event (updateAt "COMPLETE" 10 2), event (updateAt "OPEN" 10 2)] = some row ∧
      ¬ Converged [event (updateAt "COMPLETE" 10 2), event (updateAt "OPEN" 10 2)] row) ∧
    ∃ row, project [event (updateAt "COMPLETE" 10 2), placed 3000000] = some row ∧
      ¬ Converged [event (updateAt "COMPLETE" 10 2), placed 3000000] row := by
  refine ⟨⟨_, rfl, fun h => ?_⟩, _, rfl, fun h => ?_⟩
  · exact absurd (h.status ⟨updateAt "COMPLETE" 10 2, by decide +kernel⟩) (by decide +kernel)
  · exact absurd (h.status ⟨updateAt "COMPLETE" 10 2, by decide +kernel⟩) (by decide +kernel)

end KiteAlgo
