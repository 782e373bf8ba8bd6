import JobPipeline.Service.Machine

/-!
# `JobService._run_with_timeout`

The parent forks a child, joins it for at most `timeout_seconds` and only then reads the queue. In
the child, `queue.put` hands the item to a feeder thread, which writes it into the pipe behind the
queue, and the process exits when its feeder has written everything. So nothing takes a byte out
of the pipe while the parent joins: an item that the pipe does not hold stops the feeder, with it
the child, and with it the parent, until the timeout.

Parent, child and feeder step in any order. A `State` is the program point of the parent, that of
the child with its feeder, and the bytes in the pipe.
-/

set_option autoImplicit false

namespace JobPipeline

namespace RunWithTimeout

open Transition

/-! ## What goes through the queue -/

/-- The tuple `_handler_process` puts. -/
inductive Item where
  | ok (value : JsonObject)
  | error (text : String)

/-- `_handler_process`, after a handler that returned or raised. -/
def handlerProcess : Except Exc JsonObject → Item
  | .ok value => .ok value
  | .error exc => .error (errorText exc)

/-- What `_run_with_timeout` makes of the item it got. -/
def Item.outcome : Item → Outcome
  | .ok value => .value value
  | .error text => .raised (.transient text)

/-- `struct.pack` of a number into `size` bytes, in network order. -/
def pack (size n : Nat) : List UInt8 :=
  (List.range size).reverse.map fun i => UInt8.ofNat (n / 256 ^ i)

/-- `Connection._send_bytes`: the bytes of a pickled item, behind their number (or behind a `-1`
    and their number, where four bytes do not hold it). -/
def sendBytes (pickle : List UInt8) : List UInt8 :=
  if 0x7fffffff < pickle.length then pack 4 0xffffffff ++ pack 8 pickle.length ++ pickle
  else pack 4 pickle.length ++ pickle

theorem sendBytes_ne_nil (pickle : List UInt8) : sendBytes pickle ≠ [] := by
  unfold sendBytes pack
  split <;> simp

theorem length_sendBytes (pickle : List UInt8) (h : pickle.length ≤ 0x7fffffff) :
    (sendBytes pickle).length = pickle.length + 4 := by
  rw [sendBytes, if_neg (Nat.not_lt.mpr h), List.length_append, Nat.add_comm]
  simp [pack]

/-! ## Parent, child and pipe -/

/-- Where the child stands. -/
inductive Child where
  | unborn
  /-- In `handler(payload)`. -/
  | handling
  /-- The handler returned or raised. -/
  | handled
  /-- The item was put; the feeder has still to write these bytes. -/
  | feeding (pending : List UInt8)
  | exited
  /-- Gone without the exit: in the handler, or by `process.terminate()`. -/
  | died

/-- `process.is_alive()`. -/
def Child.isAlive : Child → Bool
  | .exited | .died => false
  | _ => true

/-- The handler returned or raised, and the child was left to report it. -/
def Child.HandlerFinished : Child → Prop
  | .handled | .feeding _ | .exited => True
  | _ => False

/-- Where the parent stands. -/
inductive Parent where
  | starting
  | joining
  /-- Before `process.is_alive()`. -/
  | checking
  /-- Before `process.terminate()`. -/
  | terminating
  /-- Before `queue.empty()`. -/
  | emptying
  /-- In `queue.get()`. -/
  | getting
  | ended (outcome : Outcome)

structure State where
  parent : Parent
  child : Child
  /-- The bytes in the pipe. -/
  pipe : List UInt8
  /-- `join` came back because of its timeout. -/
  timedOut : Bool

inductive Action where
  | start
  /-- The handler returns or raises. -/
  | finish
  /-- The handler takes its process down. -/
  | die
  | put
  /-- The feeder writes `count` bytes. -/
  | write (count : Nat)
  | exit
  | join
  | timeout
  | isAlive
  | terminate
  | empty
  | get

def State.initial : State := ⟨.starting, .unborn, [], false⟩

section

variable (handled : Except Exc JsonObject) (pickle : List UInt8) (capacity : Nat)

/-- One step of an attempt whose handler comes to `handled`, which is pickled as `pickle`, over a
    pipe that holds `capacity` bytes; `none` when the action is not enabled. -/
def State.step (s : State) : Action → Option State
  | .start =>
    match s.parent, s.child with
    | .starting, .unborn => some { s with parent := .joining, child := .handling }
    | _, _ => none
  | .finish =>
    match s.child with
    | .handling => some { s with child := .handled }
    | _ => none
  | .die =>
    match s.child with
    | .handling => some { s with child := .died }
    | _ => none
  | .put =>
    match s.child with
    | .handled => some { s with child := .feeding (sendBytes pickle) }
    | _ => none
  | .write count =>
    match s.child with
    | .feeding pending =>
      -- `write` blocks until the pipe has room.
      if 0 < count ∧ count ≤ pending.length ∧ s.pipe.length + count ≤ capacity then
        some { s with
          child := .feeding (pending.drop count), pipe := s.pipe ++ pending.take count }
      else none
    | _ => none
  | .exit =>
    match s.child with
    | .feeding [] => some { s with child := .exited }
    | _ => none
  | .join =>
    match s.parent with
    | .joining => if s.child.isAlive then none else some { s with parent := .checking }
    | _ => none
  | .timeout =>
    match s.parent with
    | .joining => some { s with parent := .checking, timedOut := true }
    | _ => none
  | .isAlive =>
    match s.parent with
    | .checking => some { s with parent := if s.child.isAlive then .terminating else .emptying }
    | _ => none
  | .terminate =>
    match s.parent with
    | .terminating => some { s with
        parent := .ended (.raised (.transient "job attempt timed out"))
        child := if s.child.isAlive then .died else s.child }
    | _ => none
  | .empty =>
    match s.parent with
    | .emptying =>
      match s.pipe with
      | [] => some { s with
          parent := .ended (.raised (.transient "job attempt failed without a result")) }
      | _ => some { s with parent := .getting }
    | _ => none
  | .get =>
    match s.parent with
    | .getting =>
      -- `recv_bytes` waits for the whole item.
      if s.pipe = sendBytes pickle then
        some { s with parent := .ended (handlerProcess handled).outcome, pipe := [] }
      else none
    | _ => none

/-- The attempt under every schedule. -/
def attempt : System State Action :=
  .ofFunction (fun s => s = .initial) (State.step handled pickle capacity)

/-- Every step but the timeout. -/
def NotTimeout (_ : State) (a : Action) : Prop := a ≠ .timeout

/-- The handler has finished and the timeout has not fired. -/
def State.FinishedInTime (s : State) : Prop := s.child.HandlerFinished ∧ s.timedOut = false

/-- A handler that finishes in time is reported: the parent has its outcome or a step other than
    the timeout is enabled, and the steps other than the timeout lead, in whatever order, to the
    parent with the outcome. -/
structure ReportsInTime : Prop where
  progress : ∀ s, (attempt handled pickle capacity).Reachable Any s → s.FinishedInTime →
    s.parent = .ended (handlerProcess handled).outcome ∨
      ∃ a s', a ≠ .timeout ∧ s.step handled pickle capacity a = some s'
  halts : ∀ s, (attempt handled pickle capacity).Reachable Any s → s.FinishedInTime →
    (attempt handled pickle capacity).Halts NotTimeout s
  outcome : ∀ s s', (attempt handled pickle capacity).Reachable Any s → s.FinishedInTime →
    (attempt handled pickle capacity).Steps NotTimeout s s' →
    (attempt handled pickle capacity).Stuck NotTimeout s' →
    s'.parent = .ended (handlerProcess handled).outcome

end

variable {handled : Except Exc JsonObject} {pickle : List UInt8} {capacity : Nat} {s s' : State}
  {a : Action}

theorem step_write {pending : List UInt8} {count : Nat} (hchild : s.child = .feeding pending)
    (hpos : 0 < count) (hcount : count ≤ pending.length)
    (hroom : s.pipe.length + count ≤ capacity) :
    s.step handled pickle capacity (.write count) =
      some { s with
        child := .feeding (pending.drop count), pipe := s.pipe ++ pending.take count } := by
  simp only [State.step, hchild]
  rw [if_pos ⟨hpos, hcount, hroom⟩]

theorem step_empty (hparent : s.parent = .emptying) (hpipe : s.pipe ≠ []) :
    s.step handled pickle capacity .empty = some { s with parent := .getting } := by
  obtain ⟨b, rest, hcons⟩ := List.exists_cons_of_ne_nil hpipe
  simp only [State.step, hparent, hcons]

theorem step_get (hparent : s.parent = .getting) (hpipe : s.pipe = sendBytes pickle) :
    s.step handled pickle capacity .get =
      some { s with parent := .ended (handlerProcess handled).outcome, pipe := [] } := by
  simp only [State.step, hparent, hpipe, if_true]

/-! ## Every attempt ends -/

/-- What the parent has still to do. -/
def Parent.work : Parent → Nat
  | .starting => 5
  | .joining => 4
  | .checking => 3
  | .terminating | .emptying => 2
  | .getting => 1
  | .ended _ => 0

/-- What the child has still to do, when its item takes `size` bytes. -/
def Child.work (size : Nat) : Child → Nat
  | .unborn => size + 4
  | .handling => size + 3
  | .handled => size + 2
  | .feeding pending => pending.length + 1
  | .exited | .died => 0

/-- Steps left at most. -/
def State.work (size : Nat) (s : State) : Nat := s.parent.work + s.child.work size

/-- Every step, the timeout included, brings the attempt closer to its end. -/
theorem work_step (h : s.step handled pickle capacity a = some s') :
    s'.work (sendBytes pickle).length < s.work (sendBytes pickle).length := by
  obtain ⟨parent, child, pipe, timedOut⟩ := s
  cases a with
  | write count =>
    cases child with
    | feeding pending =>
      simp only [State.step] at h
      split at h
      · -- A write hands at least one byte to the pipe.
        rename_i hroom
        cases h
        simp only [State.work, Child.work, List.length_drop]
        omega
      · cases h
    | _ => cases h
  | start =>
    cases parent <;> cases child <;> cases h
    simp only [State.work, Parent.work, Child.work]
    omega
  | finish | die | put =>
    cases child <;> cases h
    simp [State.work, Child.work]
  | exit =>
    cases child with
    | feeding pending =>
      cases pending <;> cases h
      simp [State.work, Child.work]
    | _ => cases h
  | join =>
    cases parent <;> cases child <;> cases h <;> simp [State.work, Parent.work]
  | timeout =>
    cases parent <;> cases h
    simp [State.work, Parent.work]
  | isAlive =>
    cases parent <;> cases child <;> cases h <;> simp [State.work, Parent.work, Child.isAlive]
  | terminate =>
    cases parent <;> cases child <;> cases h <;>
      simp [State.work, Parent.work, Child.work, Child.isAlive]
  | empty =>
    cases parent <;> cases pipe <;> cases h <;> simp [State.work, Parent.work]
  | get =>
    cases parent with
    | getting =>
      simp only [State.step] at h
      split at h
      · cases h
        simp [State.work, Parent.work]
      · cases h
    | _ => cases h

theorem halts (s : State) : (attempt handled pickle capacity).Halts NotTimeout s :=
  System.halts_of_measure (State.work (sendBytes pickle).length) (fun _ _ _ _ hs => work_step hs) s

/-! ## What an attempt comes to -/

/-- The outcomes of `_run_with_timeout`. -/
def State.Reported (handled : Except Exc JsonObject) (s : State) : Prop :=
  ∀ outcome, s.parent = .ended outcome → outcome = (handlerProcess handled).outcome ∨
    outcome = .raised (.transient "job attempt timed out") ∨
    outcome = .raised (.transient "job attempt failed without a result")

theorem State.Reported.step (h : s.Reported handled)
    (hs : s.step handled pickle capacity a = some s') : s'.Reported handled := by
  intro outcome hended
  cases a with
  | finish | die | put | write | exit =>
    simp only [State.step] at hs
    repeat' split at hs
    all_goals cases hs
    all_goals exact h outcome hended
  | start | join | timeout =>
    simp only [State.step] at hs
    repeat' split at hs
    all_goals cases hs
    all_goals cases hended
  | isAlive =>
    simp only [State.step] at hs
    split at hs <;> cases hs
    dsimp only at hended
    split at hended <;> cases hended
  | terminate =>
    simp only [State.step] at hs
    split at hs <;> cases hs
    cases hended
    exact .inr (.inl rfl)
  -- The queue is empty: the child has left no result.
  | empty =>
    simp only [State.step] at hs
    repeat' split at hs
    all_goals cases hs
    all_goals cases hended
    exact .inr (.inr rfl)
  | get =>
    simp only [State.step] at hs
    repeat' split at hs
    all_goals cases hs
    cases hended
    exact .inl rfl

/-- **Whatever the schedule, an attempt ends with the handler's outcome or one of two errors.** -/
theorem outcome_of_ended (h : (attempt handled pickle capacity).Reachable Any s)
    {outcome : Outcome} (hended : s.parent = .ended outcome) :
    outcome = (handlerProcess handled).outcome ∨
      outcome = .raised (.transient "job attempt timed out") ∨
      outcome = .raised (.transient "job attempt failed without a result") := by
  have hreported : s.Reported handled := by
    refine h.invariant (I := State.Reported handled) ?_ fun _ _ _ hs _ => hs.step
    rintro s rfl outcome hended
    cases hended
  exact hreported outcome hended

/-! ## Runs without the timeout -/

/-- What holds of every state reached while the timeout has not fired: the bytes of the item are
    in the pipe or with the feeder, and the parent has not gone past `join` before the child. -/
inductive InTime (handled : Except Exc JsonObject) (pickle : List UInt8) : State → Prop where
  | starting : InTime handled pickle .initial
  | handling : InTime handled pickle ⟨.joining, .handling, [], false⟩
  | handled : InTime handled pickle ⟨.joining, .handled, [], false⟩
  | feeding (sent pending : List UInt8) (hitem : sent ++ pending = sendBytes pickle) :
    InTime handled pickle ⟨.joining, .feeding pending, sent, false⟩
  | exited (parent : Parent)
    (hparent : parent = .joining ∨ parent = .checking ∨ parent = .emptying ∨ parent = .getting) :
    InTime handled pickle ⟨parent, .exited, sendBytes pickle, false⟩
  | ended : InTime handled pickle ⟨.ended (handlerProcess handled).outcome, .exited, [], false⟩
  | died (parent : Parent) : InTime handled pickle ⟨parent, .died, [], false⟩

/-- **The step lemma.** -/
theorem InTime.step (h : InTime handled pickle s) (ha : a ≠ .timeout)
    (hs : s.step handled pickle capacity a = some s') : InTime handled pickle s' := by
  cases h with
  | starting =>
    cases a <;> cases hs
    exact .handling
  | handling =>
    cases a <;> first | contradiction | cases hs
    · exact .handled
    · exact .died _
  | handled =>
    cases a <;> first | contradiction | cases hs
    exact .feeding [] _ rfl
  | feeding sent pending hitem =>
    cases a with
    | write count =>
      simp only [State.step] at hs
      split at hs
      · cases hs
        refine .feeding _ _ ?_
        rw [List.append_assoc, List.take_append_drop, hitem]
      · cases hs
    | exit =>
      cases pending <;> cases hs
      have hsent : sent = sendBytes pickle := by rwa [List.append_nil] at hitem
      subst hsent
      exact .exited _ (.inl rfl)
    | _ => contradiction
  | exited parent hparent =>
    rcases hparent with rfl | rfl | rfl | rfl
    · -- `join` comes back.
      cases a <;> first | contradiction | cases hs
      exact .exited _ (.inr (.inl rfl))
    · cases a <;> first | contradiction | cases hs
      exact .exited _ (.inr (.inr (.inl rfl)))
    · cases a with
      | empty =>
        rw [step_empty rfl (sendBytes_ne_nil pickle)] at hs
        cases hs
        exact .exited _ (.inr (.inr (.inr rfl)))
      | _ => contradiction
    · cases a with
      | get =>
        rw [step_get rfl rfl] at hs
        cases hs
        exact .ended
      | _ => contradiction
  | ended => cases a <;> cases hs
  | died parent =>
    cases a with
    | get =>
      cases parent with
      | getting =>
        simp [State.step, (sendBytes_ne_nil pickle).symm] at hs
      | _ => cases hs
    | timeout => contradiction
    | _ =>
      cases parent <;> cases hs
      all_goals exact .died _

theorem timedOut_step (h : s.timedOut = true) (hs : s.step handled pickle capacity a = some s') :
    s'.timedOut = true := by
  cases a <;> simp only [State.step] at hs <;> repeat' split at hs
  all_goals cases hs <;> first | exact h | rfl

theorem timedOut_of_timeout (hs : s.step handled pickle capacity .timeout = some s') :
    s'.timedOut = true := by
  simp only [State.step] at hs
  split at hs <;> cases hs
  rfl

/-- Before the timeout the bytes are where they should be. -/
theorem inTime_of_reachable (h : (attempt handled pickle capacity).Reachable Any s)
    (htime : s.timedOut = false) : InTime handled pickle s := by
  have hor : s.timedOut = true ∨ InTime handled pickle s := by
    refine h.invariant (I := fun s => s.timedOut = true ∨ InTime handled pickle s) ?_ ?_
    · rintro s rfl
      exact .inr .starting
    · rintro s a s' (hout | hin) _ hs
      · exact .inl (timedOut_step hout hs)
      · by_cases ha : a = .timeout
        · subst ha
          exact .inl (timedOut_of_timeout hs)
        · exact .inr (hin.step ha hs)
  rw [htime] at hor
  simpa using hor

/-- A child that finished goes on to its exit unless the parent terminates it. -/
theorem finished_step (hfin : s.child.HandlerFinished) (hparent : s.parent ≠ .terminating)
    (hs : s.step handled pickle capacity a = some s') : s'.child.HandlerFinished := by
  obtain ⟨parent, child, pipe, timedOut⟩ := s
  cases a with
  | start =>
    cases parent <;> cases child <;> cases hs
    cases hfin
  | finish | die =>
    cases child <;> cases hs
    cases hfin
  | put =>
    cases child <;> cases hs
    trivial
  | write | exit =>
    cases child <;> simp only [State.step] at hs
    case feeding pending =>
      split at hs <;> cases hs
      trivial
    all_goals cases hs
  | terminate => cases parent <;> contradiction
  | join | timeout | isAlive | empty | get =>
    simp only [State.step] at hs
    repeat' split at hs
    all_goals cases hs
    all_goals exact hfin

theorem InTime.not_terminating (h : InTime handled pickle s) (hfin : s.child.HandlerFinished) :
    s.parent ≠ .terminating := by
  cases h with
  | starting | handling | died => cases hfin
  | exited parent hparent => rcases hparent with rfl | rfl | rfl | rfl <;> simp
  | handled | feeding | ended => simp

/-- **Nothing waits for the timeout when the pipe holds the item.** -/
theorem InTime.progress (h : InTime handled pickle s) (hfin : s.child.HandlerFinished)
    (hfits : (sendBytes pickle).length ≤ capacity) :
    s.parent = .ended (handlerProcess handled).outcome ∨
      ∃ a s', a ≠ .timeout ∧ s.step handled pickle capacity a = some s' := by
  cases h with
  | starting | handling | died => cases hfin
  | handled => exact .inr ⟨.put, _, by simp, rfl⟩
  | feeding sent pending hitem =>
    cases pending with
    | nil => exact .inr ⟨.exit, _, by simp, rfl⟩
    | cons b rest =>
      have hlength : sent.length + (rest.length + 1) = (sendBytes pickle).length := by
        rw [← hitem, List.length_append, List.length_cons]
      have hroom : sent.length + 1 ≤ capacity := by omega
      exact .inr ⟨.write 1, _, by simp, step_write rfl (by simp) (by simp) hroom⟩
  | exited parent hparent =>
    rcases hparent with rfl | rfl | rfl | rfl
    · exact .inr ⟨.join, _, by simp, rfl⟩
    · exact .inr ⟨.isAlive, _, by simp, rfl⟩
    · exact .inr ⟨.empty, _, by simp, step_empty rfl (sendBytes_ne_nil pickle)⟩
    · exact .inr ⟨.get, _, by simp, step_get rfl rfl⟩
  | ended => exact .inl rfl

/-- The run from a handler that finished to the parent with its outcome. -/
theorem reportsInTime_of_fits (hfits : (sendBytes pickle).length ≤ capacity) :
    ReportsInTime handled pickle capacity where
  progress s hreach hs := (inTime_of_reachable hreach hs.2).progress hs.1 hfits
  halts s _ _ := halts s
  outcome s s' hreach hs hsteps hstuck := by
    have hlater : InTime handled pickle s' ∧ s'.child.HandlerFinished := by
      refine hsteps.invariant (I := fun s => InTime handled pickle s ∧ s.child.HandlerFinished)
        ⟨inTime_of_reachable hreach hs.2, hs.1⟩ ?_
      rintro s a s' ⟨hin, hfin⟩ ha hstep
      exact ⟨hin.step ha hstep, finished_step hfin (hin.not_terminating hfin) hstep⟩
    rcases hlater.1.progress hlater.2 hfits with hended | ⟨a, s'', ha, hstep⟩
    · exact hended
    · exact absurd hstep (hstuck a s'' ha)

/-! ## An item that the pipe does not hold -/

/-- The pipe is full, the feeder has bytes left and the parent waits for the child. -/
def State.blocked (pickle : List UInt8) (capacity : Nat) : State :=
  ⟨.joining, .feeding ((sendBytes pickle).drop capacity), (sendBytes pickle).take capacity, false⟩

theorem reachable_blocked (hlarge : capacity < (sendBytes pickle).length) :
    (attempt handled pickle capacity).Reachable NotTimeout (.blocked pickle capacity) := by
  have hrun : System.replay (State.step handled pickle capacity) .initial [.start, .finish, .put] =
      some ⟨.joining, .feeding (sendBytes pickle), [], false⟩ := rfl
  have hput : (attempt handled pickle capacity).Reachable NotTimeout
      ⟨.joining, .feeding (sendBytes pickle), [], false⟩ :=
    ⟨.initial, rfl, System.Steps.of_replay hrun (by simp [NotTimeout])⟩
  rcases Nat.eq_zero_or_pos capacity with rfl | hpos
  · exact hput
  · exact hput.tail (a := .write capacity) (by simp [NotTimeout])
      (step_write rfl hpos hlarge.le (by simp))

/-- **Deadlock**: only the timeout leads on. -/
theorem stuck_blocked (hlarge : capacity < (sendBytes pickle).length) :
    (attempt handled pickle capacity).Stuck NotTimeout (.blocked pickle capacity) := by
  intro a s' ha hs
  cases a with
  | write count =>
    simp only [attempt, System.ofFunction, State.blocked, State.step] at hs
    split at hs
    · rename_i hroom
      rw [List.length_take] at hroom
      omega
    · cases hs
  | exit =>
    have hne : (sendBytes pickle).drop capacity ≠ [] := by simpa using hlarge
    obtain ⟨b, rest, hcons⟩ := List.exists_cons_of_ne_nil hne
    simp [attempt, System.ofFunction, State.blocked, State.step, hcons] at hs
  | timeout => exact ha rfl
  | _ => cases hs

/-- After it the parent reports a timeout. -/
theorem timesOut_blocked :
    (attempt handled pickle capacity).Steps Any (.blocked pickle capacity)
      ⟨.ended (.raised (.transient "job attempt timed out")), .died,
        (sendBytes pickle).take capacity, true⟩ := by
  have hrun : System.replay (State.step handled pickle capacity) (.blocked pickle capacity)
      [.timeout, .isAlive, .terminate] =
        some ⟨.ended (.raised (.transient "job attempt timed out")), .died,
          (sendBytes pickle).take capacity, true⟩ := rfl
  exact System.Steps.of_replay hrun fun _ _ _ => trivial

theorem not_reportsInTime_of_large (hlarge : capacity < (sendBytes pickle).length) :
    ¬ ReportsInTime handled pickle capacity := by
  intro h
  have hreach : (attempt handled pickle capacity).Reachable Any (.blocked pickle capacity) :=
    (reachable_blocked hlarge).any
  rcases h.progress _ hreach ⟨trivial, rfl⟩ with hended | ⟨a, s', ha, hs⟩
  · cases hended
  · exact stuck_blocked hlarge a s' ha hs

/-- **A handler that finishes in time is reported exactly if its item fits in the pipe.** -/
theorem reportsInTime_iff (handled : Except Exc JsonObject) (pickle : List UInt8) (capacity : Nat) :
    ReportsInTime handled pickle capacity ↔ (sendBytes pickle).length ≤ capacity := by
  constructor
  · intro h
    by_contra hlarge
    exact not_reportsInTime_of_large (Nat.lt_of_not_le hlarge) h
  · exact reportsInTime_of_fits

namespace Sample

/-- `{"text": "x" * count}`. -/
def payload (count : Nat) : JsonObject :=
  [("text", .str (String.ofList (List.replicate count 'x')))]

theorem dumpsLength_payload (count : Nat) :
    (Json.obj (payload count)).dumpsLength = count + 11 := by
  have htext : dumpsLengthStr (String.ofList (List.replicate count 'x')) = count + 2 := by
    have hx : escapedLength 'x' = 1 := rfl
    rw [dumpsLengthStr, String.toList_ofList, List.map_replicate, hx,
      List.sum_replicate_nat, Nat.mul_one]
  have hkey : dumpsLengthStr "text" = 6 := rfl
  simp only [payload, Json.dumpsLength, dumpsLengthFields, htext, hkey, List.length_singleton]
  omega

/-- `pickle.dumps(("ok", payload(65500)))`. -/
def pickled : List UInt8 :=
  [128, 4, 149, 244, 255, 0, 0, 0, 0, 0, 0, 140, 2, 111, 107, 148, 125, 148, 140, 4, 116, 101,
    120, 116, 148, 88, 220, 255, 0, 0] ++ List.replicate 65500 0x78 ++ [148, 115, 134, 148, 46]

theorem length_pickled : pickled.length = 65535 := by
  rw [pickled, List.length_append, List.length_append, List.length_replicate]
  rfl

/-- The attempt of an `echo` job with that payload, over a pipe of 64 KiB. -/
def echoed : System State Action := attempt (.ok (payload 65500)) pickled 65536

end Sample

/-- **An echoed payload that times out**: it is accepted, and the handler returns it at once, but
    with its length it is three bytes more than a pipe of 64 KiB holds. -/
theorem not_reportsInTime : validatePayloadSize {} (Sample.payload 65500) = .ok () ∧
    ¬ ReportsInTime (.ok (Sample.payload 65500)) Sample.pickled 65536 ∧
    ∃ s s', Sample.echoed.Reachable NotTimeout s ∧ s.FinishedInTime ∧
      Sample.echoed.Stuck NotTimeout s ∧ Sample.echoed.Steps Any s s' ∧
      s'.parent = .ended (.raised (.transient "job attempt timed out")) := by
  have hlarge : 65536 < (sendBytes Sample.pickled).length := by
    have hlength := Sample.length_pickled
    rw [length_sendBytes _ (by omega), hlength]
    decide
  refine ⟨?_, not_reportsInTime_of_large hlarge, _, _, reachable_blocked hlarge, ⟨trivial, rfl⟩,
    stuck_blocked hlarge, timesOut_blocked, rfl⟩
  rw [validatePayloadSize, Sample.dumpsLength_payload]
  rfl

end RunWithTimeout

end JobPipeline
