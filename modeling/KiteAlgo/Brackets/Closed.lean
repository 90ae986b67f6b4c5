import KiteAlgo.Brackets.Effects
import KiteAlgo.Lib.Run

/-!
# KiteAlgo.Brackets.Closed

Does a closed bracket stay closed?  The status is written without a look at the one before
it, so every write of an active status reopens a closed bracket.  `reopens` lists the five
that a closed bracket can meet; the sixth, the entry that fills, is the only one with a
guard.
-/

namespace KiteAlgo.Brackets

open List
/-- The step writes an active status over a closed one: an exit completes, the bracket is
cancelled, its projection is marked, the last placement is committed, or an action is
given up. -/
def reopens (st : Step) (s : State) : Bool :=
  match st with
  | .observe event => s.completes event
  | .requestCancel => true
  | .markInconsistent event => s.linked event
  | .commit i => s.armsOnCommit i
  | .recover i => s.givesUp i
  | _ => false

theorem not_armsExits_of_closed {s : State} {event : OrderEvent}
    (h : s.intent.status.active = false) : s.armsExits event = false := by
  have hguard : s.intent.status.guarded := by
    revert h
    cases s.intent.status <;> simp [BracketStatus.active, BracketStatus.guarded]
  simp [State.armsExits, hguard]

theorem active_step {s : State} (h : s.intent.status.active = false) (st : Step) :
    (step st s).intent.status.active = reopens st s := by
  cases st with
  | observe event =>
    simp only [step, reopens]
    cases hcompletes : s.completes event with
    | true =>
      rw [State.status_observe_of_completes hcompletes]
      rfl
    | false =>
      rcases State.status_observe hcompletes with hsame | hfailed | hpart | harm
      · rw [hsame, h]
      · rw [hfailed]
        rfl
      · rw [hpart]
        rfl
      · rw [not_armsExits_of_closed h] at harm
        exact absurd harm.2 (by simp)
  | requestCancel => rfl
  | markInconsistent event =>
    simp only [step, State.markProjectionInconsistent, reopens]
    cases hlink : s.linked event with
    | true => rfl
    | false => exact h
  | link intent => exact h
  | claim ids => exact h
  | place i placement =>
    simp only [step, State.execPlace, reopens]
    split <;> exact h
  | cancel i error =>
    simp only [step, State.execCancel, reopens]
    split
    · exact h
    · split <;> exact h
    · exact h
  | commit i =>
    simp only [step, reopens]
    rcases State.status_commit i s with ⟨hstatus, harm⟩ | ⟨harm, hsame | hdone⟩
    · rw [hstatus, harm]
      rfl
    · rw [hsame, harm, h]
    · rw [hdone, harm]
      rfl
  | rollback i error =>
    simp only [step, State.execRollback, reopens]
    split <;> exact h
  | recover i =>
    simp only [step, reopens]
    rcases State.status_recover i s with ⟨hstatus, hup⟩ | ⟨hup, hsame⟩
    · rw [hstatus, hup]
      rfl
    · rw [hsame, hup, h]

/-- In a run a closed bracket is never active again if and only if no step that a closed
bracket meets is one of those that reopen it. -/
theorem stays_closed_iff (s : State) (steps : List Step) :
    (∀ before after, before ++ after <+: steps → (run before s).intent.status.active = false →
        (run (before ++ after) s).intent.status.active = false) ↔
      ∀ before st, before ++ [st] <+: steps → (run before s).intent.status.active = false →
        reopens st (run before s) = false := by
  constructor
  · intro hclosed before st hsteps hnow
    have hnext := hclosed before [st] hsteps hnow
    rw [run_concat, active_step hnow] at hnext
    exact hnext
  · intro hsafe before after hsteps hnow
    induction after using List.reverseRecOn with
    | nil => rwa [List.append_nil]
    | append_singleton after st ih =>
      rw [← List.append_assoc] at hsteps ⊢
      have hbefore := ih ((List.prefix_append (before ++ after) [st]).trans hsteps)
      rw [run_concat, active_step hbefore]
      exact hsafe (before ++ after) st hsteps hbefore

/-! ## runs -/

/-- A bracket of ten whose entry is `E`, with both exits configured; the updates of `E`,
`S` and `T` are linked to it. -/
def demoBracket : State where
  intent :=
    { bracketIntentId := "k", strategyRunId := "r", accountId := "kite:a", status := .entryWorking
      config :=
        { entryQuantity := 10, entryOrderId := some "E"
          stoploss := { parameters := [("order_type", "SL")] }
          target := { parameters := [("order_type", "LIMIT")] } } }
  links := ["E", "S", "T"].map fun orderId =>
    { clientOrderRef := "KA" ++ orderId, accountId := "kite:a", strategyRunId := "r"
      brokerOrderId := some orderId, bracketIntentId := some "k" }

/-- An update of one of the bracket's orders. -/
def demoEvent (orderId status : String) (filled : Int) : Step :=
  .observe { accountId := "kite:a", orderId, status, filledQuantity := some filled }

def demoExecute (i : Nat) (call : Step) : List Step := [.claim [i], call, .commit i]

/-- The entry fills and both exits are placed. -/
def demoArmed : List Step :=
  [demoEvent "E" "COMPLETE" 10] ++ demoExecute 0 (.place 0 (.returned "S")) ++
    demoExecute 1 (.place 1 (.returned "T"))

/-- The stop-loss completes, the target is cancelled and the bracket is completed; the same
update arrives again and the bracket is cancelling. -/
theorem duplicate_exit_reopens :
    (run (demoArmed ++ [demoEvent "S" "COMPLETE" 10] ++ demoExecute 2 (.cancel 2 none))
        demoBracket).intent.status = .completed ∧
      (run (demoArmed ++ [demoEvent "S" "COMPLETE" 10] ++ demoExecute 2 (.cancel 2 none) ++
        [demoEvent "S" "COMPLETE" 10]) demoBracket).intent.status = .cancelling := by
  decide +kernel

end KiteAlgo.Brackets
