import KiteAlgo.Shards.Partition
import KiteAlgo.Shards.Registry
import Mathlib.Data.Rat.Defs

/-!
# KiteAlgo.Shards.Marketwatch

The messages of one marketwatch websocket (`marketwatch_ws.go`).  A message edits the connection's map
before the registry is asked, and only the registry takes back a set that is refused; `subscribe` takes
any mode.  The other owners stand still.
-/

namespace KiteAlgo.Shards.Marketwatch

open List Table
/-! ## messages -/

/-- An entry of the `tokens` of a message. -/
inductive Item where
  | number (value : ℚ)
  | text (value : String)
  | other

/-- A message; fields that are missing or of another type are empty. -/
inductive Message where
  | invalid
  | object (action : String) (tokens : Option (List Item)) (mode : String)

/-- `strconv.ParseUint(value, 10, 32)`. -/
def parseUint (value : String) : Option UInt32 :=
  let digits := value.toList
  let n := digits.foldl (fun n c => n * 10 + (c.toNat - '0'.toNat)) 0
  if digits ≠ [] ∧ (digits.all fun c => '0' ≤ c && c ≤ '9') = true ∧ n < 2 ^ 32 then some (.ofNat n)
  else none

section Parse

variable (uint32 : ℚ → UInt32)

/-- `toUint32`; `uint32` converts a number that is not negative. -/
def toUint32 : Item → Option UInt32
  | .number value => if value < 0 then none else some (uint32 value)
  | .text value => parseUint value
  | .other => none

def parseTokenList (raw : Option (List Item)) : Option (List UInt32) :=
  raw.bind fun items => items.mapM (toUint32 uint32)

end Parse

def isValidMode (mode : String) : Bool := mode == "ltp" || mode == "quote" || mode == "full"

/-- What a message is answered; `ack` has the action, the tokens and the mode. -/
inductive Reply where
  | error (message : String)
  | pong
  | ack (fields : String × List UInt32 × String)

/-- The subscriptions that a message asks for, with its acknowledgement; other messages are answered
at once. -/
def edit (uint32 : ℚ → UInt32) (subscriptions : Table UInt32 String) :
    Message → Except Reply (Table UInt32 String × String × List UInt32 × String)
  | .invalid => .error (.error "invalid json")
  | .object action raw mode =>
    if action = "ping" then .error .pong
    else
      let tokens := (parseTokenList uint32 raw).getD []
      let mode := if mode = "" then "quote" else mode
      let all := tokens.foldl (fun subscriptions t => subscriptions.upsert t mode) subscriptions
      if action = "subscribe" then
        if tokens = [] then .error (.error "Invalid tokens") else .ok (all, action, tokens, mode)
      else if action = "unsubscribe" then
        if tokens = [] then .error (.error "Invalid tokens")
        else .ok (tokens.foldl Table.erase subscriptions, action, tokens, "")
      else if action = "set_mode" then
        if tokens = [] ∨ isValidMode mode = false then .error (.error "Invalid action")
        else .ok (all, action, tokens, mode)
      else .error (.error "Invalid action")

/-! ## the connection -/

/-- The map of a connection, the registry entry of its owner, and the assignments of the allocator. -/
structure Session where
  subscriptions : Table UInt32 String := .empty
  entry : Table UInt32 String := .empty
  assignments : Table UInt32 Nat := .empty

section Handle

variable (uint32 : ℚ → UInt32) (limits : Limits) (others : OwnerSubscriptions)

/-- `Effective` with the entry, as far as the allocator reads it: which tokens there are. -/
def effectiveWith (entry : Table UInt32 String) : OwnerSubscriptions :=
  entry.rows.foldl (fun effective e => SubscriptionRegistry.mergeMode effective
    (e.1, (modes.find? fun mode => mode.text = e.2).getD .ltp)) others

/-- `reconcile`; `refusal` is the error of the shards. -/
def reconcileEntry (refusal : Option String) (s : Session) : Option String × Session :=
  match reconcile limits (effectiveWith others s.entry) s.assignments with
  | .error error => (some error, s)
  | .ok (_, assignments) => (refusal, { s with assignments })

/-- `SetOwnerSubscriptions`; the shards may refuse the set, and the one restored. -/
def setOwnerSubscriptions (refusals : Option String × Option String)
    (subscriptions : Table UInt32 String) (s : Session) : Option String × Session :=
  let r := reconcileEntry limits others refusals.1 { s with entry := subscriptions }
  match r.1 with
  | none => r
  | some error =>
    (some error, (reconcileEntry limits others refusals.2 { r.2 with entry := s.entry }).2)

/-- One message, with what the shards refuse. -/
def handle (s : Session) (m : Message × Option String × Option String) : Reply × Session :=
  match edit uint32 s.subscriptions m.1 with
  | .error reply => (reply, s)
  | .ok (edited, ack) =>
    let r := setOwnerSubscriptions limits others m.2 edited { s with subscriptions := edited }
    match r.1 with
    | none => (.ack ack, r.2)
    | some error => (.error error, r.2)

/-- The messages of a new connection to an allocator that has placed sets before. -/
def run (past : List OwnerSubscriptions) (messages : List (Message × Option String × Option String)) :
    Session :=
  messages.foldl (fun s m => (handle uint32 limits others s m).2) { assignments := (calls limits past).1 }

/-! ## the connection and the registry -/

/-- The map is the registry entry, and its modes are modes. -/
def Session.Follows (s : Session) : Prop :=
  s.subscriptions = s.entry ∧ ∀ t mode, s.subscriptions.get? t = some mode → isValidMode mode = true

/-- A message that asks for a set names a mode, and the set is not refused: not for its size, and not by
the shards. -/
def Accepted (s : Session) (m : Message × Option String × Option String) : Prop :=
  ∀ edited ack, edit uint32 s.subscriptions m.1 = .ok (edited, ack) →
    (∀ raw mode, m.1 = .object "subscribe" raw mode → mode = "" ∨ isValidMode mode = true) ∧
      (effectiveWith others edited).rows.length ≤ limits.softLimit * limits.maxShards ∧ m.2.1 = none

end Handle

variable {uint32 : ℚ → UInt32} {limits : Limits} {others : OwnerSubscriptions} {s : Session}
  {m : Message × Option String × Option String}

variable {mode : String} {subscriptions : Table UInt32 String} {t : UInt32} {tokens : List UInt32}

theorem get?_upserts {mode' : String}
    (h : (tokens.foldl (fun subscriptions t => subscriptions.upsert t mode) subscriptions).get? t =
      some mode') :
    mode' = mode ∨ subscriptions.get? t = some mode' := by
  induction tokens generalizing subscriptions with
  | nil => exact .inr h
  | cons token tokens ih =>
    have := ih h
    rw [get?_upsert] at this
    grind

theorem get?_erases (h : (tokens.foldl erase subscriptions).get? t = some mode) :
    subscriptions.get? t = some mode := by
  induction tokens generalizing subscriptions with
  | nil => exact h
  | cons token tokens ih =>
    have := ih h
    rw [get?_erase] at this
    grind

theorem edit_valid {edited : Table UInt32 String} {m : Message}
    {ack : String × List UInt32 × String} (h : edit uint32 subscriptions m = .ok (edited, ack))
    (hmode : ∀ raw mode, m = .object "subscribe" raw mode → mode = "" ∨ isValidMode mode)
    (hvalid : ∀ t mode, subscriptions.get? t = some mode → isValidMode mode)
    (ht : edited.get? t = some mode) : isValidMode mode := by
  cases m with
  | invalid => cases h
  | object action raw given =>
    have hgiven : ∀ valid : given = "" ∨ isValidMode given,
        isValidMode (if given = "" then "quote" else given) := by
      rintro (rfl | hgiven)
      · decide
      · split
        · decide
        · exact hgiven
    simp only [edit] at h
    generalize (if given = "" then "quote" else given) = named at h hgiven
    split at h
    · cases h
    split at h
    · next haction =>
      subst haction
      split at h
      · cases h
      · cases h
        obtain rfl | hold := get?_upserts ht
        · exact hgiven (hmode raw given rfl)
        · exact hvalid t mode hold
    split at h
    · split at h
      · cases h
      · cases h
        exact hvalid t mode (get?_erases ht)
    split at h
    · split at h
      · cases h
      · next hmodes =>
        cases h
        obtain rfl | hold := get?_upserts ht
        · simpa using (not_or.mp hmodes).2
        · exact hvalid t mode hold
    · cases h

theorem handle_accepted (h : s.Follows ∧ InRange limits s.assignments)
    (hm : Accepted uint32 limits others s m) :
    ((handle uint32 limits others s m).2.Follows ∧
        InRange limits (handle uint32 limits others s m).2.assignments) ∧
      ∀ message, (handle uint32 limits others s m).1 = .error message →
        (handle uint32 limits others s m).2 = s := by
  unfold handle
  cases hedit : edit uint32 s.subscriptions m.1 with
  | error reply => exact ⟨h, fun _ _ => rfl⟩
  | ok r =>
    obtain ⟨edited, ack⟩ := r
    obtain ⟨hmode, hsize, hrefusal⟩ := hm edited ack hedit
    obtain ⟨shards, assignments, hrec, hrange, -⟩ := reconcile_spec h.2 hsize
    simp only [setOwnerSubscriptions, reconcileEntry, hrec, hrefusal]
    exact ⟨⟨⟨rfl, fun t mode ht => edit_valid hedit hmode h.1.2 ht⟩, hrange⟩, by simp⟩

/-- In a run whose messages are all accepted the connection follows the registry after each message, and
one that is answered with an error changes neither. -/
theorem run_follows {past : List OwnerSubscriptions}
    {messages : List (Message × Option String × Option String)}
    (h : ∀ before m after, messages = before ++ m :: after →
      Accepted uint32 limits others (run uint32 limits others past before) m) :
    (run uint32 limits others past messages).Follows ∧ ∀ before m after, messages = before ++ m :: after →
      (run uint32 limits others past before).Follows ∧
      ∀ message, (handle uint32 limits others (run uint32 limits others past before) m).1 = .error message →
        run uint32 limits others past (before ++ [m]) = run uint32 limits others past before := by
  have hrun : ∀ before after, messages = before ++ after → (run uint32 limits others past before).Follows ∧
      InRange limits (run uint32 limits others past before).assignments := by
    intro before
    induction before using List.reverseRecOn with
    | nil => exact fun _ _ => ⟨⟨rfl, fun _ _ h => by cases h⟩, (partitioned_calls past).1.inRange⟩
    | append_singleton before m ih =>
      intro after heq
      rw [List.append_assoc] at heq
      rw [run, List.foldl_append]
      exact (handle_accepted (ih _ heq) (h before m after heq)).1
  refine ⟨(hrun messages [] (by simp)).1, fun before m after heq =>
    ⟨(hrun _ _ heq).1, fun message herror => ?_⟩⟩
  rw [run, List.foldl_append]
  exact (handle_accepted (hrun _ _ heq) (h before m after heq)).2 message herror

def subscribe (tokens : List String) (mode : String) : Message × Option String × Option String :=
  (.object "subscribe" (some (tokens.map .text)) mode, none, none)

theorem run_follows_full : (run (fun _ => 0) ⟨1, 1⟩ .empty [] [subscribe ["1"] "full"]).Follows := by
  refine (run_follows fun before m after heq => ?_).1
  obtain rfl : before = [] := by
    cases before with
    | nil => rfl
    | cons => simp at heq
  cases heq
  intro edited ack h
  have hedit : edit (fun _ => 0) .empty (subscribe ["1"] "full").1 =
      .ok (Table.empty.upsert 1 "full", "subscribe", [1], "full") := rfl
  cases hedit.symm.trans h
  exact ⟨fun raw mode h => by cases h; decide, by decide +kernel, rfl⟩

/-- A subscription to two tokens is refused where there is room for one, and then one to the first of them
too; a subscription with an unknown mode is taken. -/
theorem not_follows_refused :
    ¬(run (fun _ => 0) ⟨1, 1⟩ .empty [] [subscribe ["1", "2"] ""]).Follows ∧
      (∃ message, (handle (fun _ => 0) ⟨1, 1⟩ .empty
        (run (fun _ => 0) ⟨1, 1⟩ .empty [] [subscribe ["1", "2"] ""]) (subscribe ["1"] "")).1 =
          .error message) ∧
      ¬(run (fun _ => 0) ⟨1, 1⟩ .empty [] [subscribe ["1"] "best"]).Follows :=
  ⟨fun h => absurd (congrArg (Table.get? · 1) h.1) (by decide +kernel), ⟨_, rfl⟩,
    fun h => absurd (h.2 1 "best" (by decide +kernel)) (by decide)⟩

end KiteAlgo.Shards.Marketwatch
