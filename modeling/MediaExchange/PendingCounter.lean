/-
  MediaExchange/PendingCounter.lean
  =================================
  **What the counter of pending writes counts** (`RCInitiator.cpp`,
  `RDMInitiator.cpp`, `ProtocolEgressRMA.cpp`).

  The protocol of an endpoint adds what it posts to a counter and takes one off
  for a completion.  Beside it a run keeps the truth: how many writes of the
  current connection are without a completion (`outstanding`), and how many of
  the connections before it (`late`), whose completions can still be in the queue
  when the endpoint, which keeps its token, is connected again.

  Completions of failed writes are logged and not counted, and a restart after an
  error event does not reset the counter.  The counter is accurate throughout a
  run exactly when neither comes to pass and no late completion is counted
  (`accurate_iff_counted`, for the endpoints of both kinds of initiators).
-/
import MediaExchange.Library.LabelledRun
import MediaExchange.RDMInitiator

namespace MediaExchange.PendingCounter

open MediaExchange.LabelledRun

/-! ### The endpoint of a connection -/

/-- An endpoint and the writes posted by it. -/
structure CountedEndpoint where
  endpoint : RCInitiatorEndpoint
  outstanding : Nat
  late : Nat
  /-- The counter was decremented at zero. -/
  underflowed : Bool
  /-- The endpoint has just become connected. -/
  entered : Bool

def CountedEndpoint.init : CountedEndpoint where
  endpoint := .init
  outstanding := 0
  late := 0
  underflowed := false
  entered := false

/-- What can happen to an endpoint.  A completion is one of the current
    connection or one of an earlier connection. -/
inductive EndpointAction where
  | activate (now : Nat)
  | transfer (writes : UInt64)
  | completion (entry : CompletionEntry) (current : Bool)
  | event (event : FabricEvent) (now : Nat)
  | shutdown
  | terminate

namespace CountedEndpoint

/-- The endpoint moves to another state; with the connection its writes become
    writes of an earlier one. -/
def moveTo (s : CountedEndpoint) (endpoint : RCInitiatorEndpoint) : CountedEndpoint :=
  if endpoint.isConnected then
    { s with endpoint := endpoint, entered := !s.endpoint.isConnected }
  else
    { s with endpoint := endpoint, outstanding := 0, late := s.late + s.outstanding,
             entered := false }

/-- A completion is handed to the endpoint. -/
def deliver (s : CountedEndpoint) (entry : CompletionEntry) : CountedEndpoint :=
  { s with
    endpoint := s.endpoint.consumeCompletion entry
    underflowed := s.underflowed ||
      (s.endpoint.isConnected && decide (entry = .data) && decide (s.endpoint.pending = 0))
    entered := false }

def step (s : CountedEndpoint) : EndpointAction → Option CountedEndpoint
  | .activate now => some (s.moveTo (s.endpoint.activate now))
  | .transfer writes =>
      some { s with
        endpoint := s.endpoint.transfer writes
        outstanding :=
          if s.endpoint.isConnected then s.outstanding + writes.toNat else s.outstanding
        entered := false }
  | .completion entry true =>
      if 0 < s.outstanding then
        some { s.deliver entry with outstanding := s.outstanding - 1 }
      else none
  | .completion entry false =>
      if 0 < s.late then some { s.deliver entry with late := s.late - 1 } else none
  | .event event now => some (s.moveTo (s.endpoint.consume event now))
  | .shutdown => some (s.moveTo s.endpoint.shutdown)
  | .terminate => some (s.moveTo s.endpoint.terminate)

/-- The counter is the number of writes of the connection without a completion,
    has not underflowed, and starts at zero on every connection. -/
structure Accurate (s : CountedEndpoint) : Prop where
  counts : s.endpoint.pending.toNat = s.outstanding
  noUnderflow : s.underflowed = false
  fresh : s.entered = true → s.endpoint.pending = 0

/-- Every write and every completion is counted: no write of the connection
    fails, no error event comes while writes are outstanding, no completion of an
    earlier connection is taken for one of this one, and the number of
    outstanding writes fits the counter. -/
def Counted (s : CountedEndpoint) : EndpointAction → Prop
  | .transfer writes => s.endpoint.isConnected = true → s.outstanding + writes.toNat < 2 ^ 64
  | .completion entry true => entry = .data
  | .completion entry false => entry = .data → s.endpoint.isConnected = false
  | .event .error _ => s.endpoint.isConnected = true → s.outstanding = 0
  | _ => True

/-- Only a connection has outstanding writes. -/
structure Invariant (s : CountedEndpoint) : Prop extends Accurate s where
  unconnected : s.endpoint.isConnected = false → s.outstanding = 0

variable {s t : CountedEndpoint}

theorem invariant_init : Invariant .init where
  counts := rfl
  noUnderflow := rfl
  fresh := fun h => Bool.noConfusion h
  unconnected := fun _ => rfl

/-- The endpoint keeps its counter and its connection, or is left without a
    connection and with an empty counter. -/
def KeepsCounter (endpoint next : RCInitiatorEndpoint) : Prop :=
  (next.pending = endpoint.pending ∧ (endpoint.isConnected = true → next.isConnected = true)) ∨
    (next.pending = 0 ∧ next.isConnected = false)

section Moves

variable {endpoint : RCInitiatorEndpoint}

theorem keepsCounter_activate (now : Nat) :
    KeepsCounter endpoint (endpoint.activate now) := by
  obtain ⟨state, pending⟩ := endpoint
  cases state with
  | idle idleSince =>
    refine Or.inl ⟨?_, fun h => Bool.noConfusion h⟩
    rw [RCInitiatorEndpoint.activate]
    dsimp only
    split <;> rfl
  | connecting | connected | flushing _ | done => exact Or.inl ⟨rfl, id⟩

theorem keepsCounter_shutdown : KeepsCounter endpoint endpoint.shutdown := by
  obtain ⟨state, pending⟩ := endpoint
  cases state with
  | idle _ | connecting => exact Or.inl ⟨rfl, fun h => Bool.noConfusion h⟩
  | connected => exact Or.inr ⟨rfl, rfl⟩
  | flushing _ | done => exact Or.inl ⟨rfl, id⟩

theorem keepsCounter_terminate : KeepsCounter endpoint endpoint.terminate := by
  obtain ⟨state, pending⟩ := endpoint
  cases state with
  | flushing _ => exact Or.inl ⟨rfl, fun h => Bool.noConfusion h⟩
  | idle _ | connecting | connected | done => exact Or.inl ⟨rfl, id⟩

/-- Only an error event on a connection with outstanding writes leaves a counter
    without a connection. -/
theorem keepsCounter_consume {event : FabricEvent} {now : Nat}
    (h : event = .error → endpoint.isConnected = true → endpoint.pending = 0) :
    KeepsCounter endpoint (endpoint.consume event now) := by
  obtain ⟨state, pending⟩ := endpoint
  cases state with
  | idle _ | done => exact Or.inl ⟨rfl, id⟩
  | connecting => cases event <;> exact Or.inl ⟨rfl, fun h => Bool.noConfusion h⟩
  | connected =>
    cases event with
    | error => exact Or.inr ⟨h rfl rfl, rfl⟩
    | shutdown => exact Or.inr ⟨rfl, rfl⟩
    | connected | other => exact Or.inl ⟨rfl, id⟩
  | flushing _ => cases event <;> exact Or.inl ⟨rfl, fun h => Bool.noConfusion h⟩

end Moves

theorem invariant_moveTo {next : RCInitiatorEndpoint} (hs : Invariant s)
    (h : KeepsCounter s.endpoint next) : Invariant (s.moveTo next) := by
  have hcounts := hs.counts
  cases hnext : next.isConnected with
  | false =>
    have hzero : next.pending = 0 := by
      rcases h with ⟨hkeep, hconnected⟩ | ⟨hzero, -⟩
      · have hsource : s.endpoint.isConnected = false := by
          rw [← Bool.not_eq_true]
          intro hsource
          rw [hconnected hsource] at hnext
          cases hnext
        rw [hs.unconnected hsource] at hcounts
        rw [hkeep]
        exact UInt64.toNat_inj.mp hcounts
      · exact hzero
    simp only [moveTo, hnext, Bool.false_eq_true, if_false]
    exact ⟨⟨by rw [hzero]; rfl, hs.noUnderflow, fun h => Bool.noConfusion h⟩, fun _ => rfl⟩
  | true =>
    have hkeep : next.pending = s.endpoint.pending := by
      rcases h with ⟨hkeep, -⟩ | ⟨-, hfalse⟩
      · exact hkeep
      · rw [hnext] at hfalse
        cases hfalse
    simp only [moveTo, hnext, if_true]
    refine ⟨⟨by rw [hkeep]; exact hcounts, hs.noUnderflow, ?_⟩, ?_⟩
    · intro hentered
      have hsource : s.endpoint.isConnected = false := by simpa using hentered
      rw [hs.unconnected hsource] at hcounts
      rw [hkeep]
      exact UInt64.toNat_inj.mp hcounts
    · intro hfalse
      rw [hnext] at hfalse
      cases hfalse

theorem isConnected_transfer (endpoint : RCInitiatorEndpoint) (writes : UInt64) :
    (endpoint.transfer writes).isConnected = endpoint.isConnected := by
  obtain ⟨state, pending⟩ := endpoint
  cases state <;> rfl

theorem isConnected_consumeCompletion (endpoint : RCInitiatorEndpoint) (entry : CompletionEntry) :
    (endpoint.consumeCompletion entry).isConnected = endpoint.isConnected := by
  obtain ⟨state, pending⟩ := endpoint
  cases entry with
  | data => cases state <;> rfl
  | error => rfl

theorem pending_transfer (endpoint : RCInitiatorEndpoint) (writes : UInt64) :
    (endpoint.transfer writes).pending =
      if endpoint.isConnected then endpoint.pending + writes else endpoint.pending := by
  obtain ⟨state, pending⟩ := endpoint
  cases state <;> rfl

theorem pending_consumeCompletion (endpoint : RCInitiatorEndpoint) (entry : CompletionEntry) :
    (endpoint.consumeCompletion entry).pending =
      if entry = .data ∧ endpoint.isConnected = true then endpoint.pending - 1
      else endpoint.pending := by
  obtain ⟨state, pending⟩ := endpoint
  cases entry with
  | data => cases state <;> rfl
  | error => rfl

theorem toNat_add_writes {pending writes : UInt64} {outstanding : Nat}
    (hcounts : pending.toNat = outstanding) :
    (pending + writes).toNat = outstanding + writes.toNat ↔ outstanding + writes.toNat < 2 ^ 64 := by
  rw [UInt64.toNat_add, hcounts]
  omega

theorem sub_one_ne (pending : UInt64) : pending - 1 ≠ pending := by
  intro h
  have hnat := congrArg UInt64.toNat h
  rw [UInt64.toNat_sub] at hnat
  have hlt := pending.toNat_lt
  change (2 ^ 64 - 1 + pending.toNat) % 2 ^ 64 = pending.toNat at hnat
  omega

/-! ### Steps and runs of the endpoint -/

theorem toNat_pending_transfer (hs : Invariant s) (writes : UInt64) :
    (s.endpoint.transfer writes).pending.toNat =
        (if s.endpoint.isConnected then s.outstanding + writes.toNat else s.outstanding) ↔
      s.Counted (.transfer writes) := by
  rw [pending_transfer]
  cases hconnected : s.endpoint.isConnected with
  | true =>
    simp only [if_true, Counted, hconnected, forall_const]
    exact toNat_add_writes hs.counts
  | false => simpa [Counted, hconnected] using hs.counts

theorem invariant_transfer {writes : UInt64} (hs : Invariant s)
    (hcounted : s.Counted (.transfer writes)) (h : s.step (.transfer writes) = some t) :
    Invariant t := by
  obtain rfl := Option.some.inj h
  have hcounts := (toNat_pending_transfer hs writes).mpr hcounted
  refine ⟨⟨hcounts, hs.noUnderflow, fun h => Bool.noConfusion h⟩, ?_⟩
  intro hfalse
  have hsource : s.endpoint.isConnected = false := by
    rw [← isConnected_transfer s.endpoint writes]
    exact hfalse
  simp only [hsource, Bool.false_eq_true, if_false]
  exact hs.unconnected hsource

theorem connected_of_outstanding (hs : Invariant s) (hpos : 0 < s.outstanding) :
    s.endpoint.isConnected = true := by
  by_contra hfalse
  rw [Bool.not_eq_true] at hfalse
  rw [hs.unconnected hfalse] at hpos
  exact absurd hpos (Nat.lt_irrefl 0)

/-- A write of the connection goes through: there was one to take off the counter. -/
theorem invariant_complete (hs : Invariant s) (hpos : 0 < s.outstanding) :
    Invariant { s.deliver .data with outstanding := s.outstanding - 1 } := by
  have hconnected := connected_of_outstanding hs hpos
  have hcounts := hs.counts
  have hpending : (s.endpoint.consumeCompletion .data).pending = s.endpoint.pending - 1 := by
    rw [pending_consumeCompletion, if_pos ⟨rfl, hconnected⟩]
  have hnonzero : s.endpoint.pending ≠ 0 := by
    intro hzero
    rw [hzero] at hcounts
    change 0 = s.outstanding at hcounts
    omega
  refine ⟨⟨?_, ?_, fun h => Bool.noConfusion h⟩, ?_⟩
  · change (s.endpoint.consumeCompletion .data).pending.toNat = s.outstanding - 1
    rw [hpending, toNat_sub_one (by omega), hcounts]
  · simp [deliver, hs.noUnderflow, hnonzero]
  · intro hfalse
    change (s.endpoint.consumeCompletion .data).isConnected = false at hfalse
    rw [isConnected_consumeCompletion, hconnected] at hfalse
    cases hfalse

/-- A completion of an earlier connection is not looked at. -/
theorem invariant_late {entry : CompletionEntry} (hs : Invariant s)
    (hcounted : s.Counted (.completion entry false)) :
    Invariant { s.deliver entry with late := s.late - 1 } := by
  have hignored : ¬(entry = .data ∧ s.endpoint.isConnected = true) := by
    rintro ⟨hdata, hconnected⟩
    rw [hcounted hdata] at hconnected
    cases hconnected
  refine ⟨⟨?_, ?_, fun h => Bool.noConfusion h⟩, ?_⟩
  · change (s.endpoint.consumeCompletion entry).pending.toNat = s.outstanding
    rw [pending_consumeCompletion, if_neg hignored]
    exact hs.counts
  · cases entry with
    | data => simp [deliver, hs.noUnderflow, hcounted rfl]
    | error => simp [deliver, hs.noUnderflow]
  · intro hfalse
    change (s.endpoint.consumeCompletion entry).isConnected = false at hfalse
    rw [isConnected_consumeCompletion] at hfalse
    exact hs.unconnected hfalse

theorem invariant_step {action : EndpointAction} (hs : Invariant s) (hcounted : s.Counted action)
    (h : s.step action = some t) : Invariant t := by
  cases action with
  | activate now =>
    obtain rfl := Option.some.inj h
    exact invariant_moveTo hs (keepsCounter_activate now)
  | transfer writes => exact invariant_transfer hs hcounted h
  | completion entry current =>
    cases current with
    | true =>
      rw [step, Option.ite_none_right_eq_some] at h
      obtain ⟨hpos, h⟩ := h
      obtain rfl := Option.some.inj h
      obtain rfl : entry = .data := hcounted
      exact invariant_complete hs hpos
    | false =>
      rw [step, Option.ite_none_right_eq_some] at h
      obtain rfl := Option.some.inj h.2
      exact invariant_late hs hcounted
  | event event now =>
    obtain rfl := Option.some.inj h
    refine invariant_moveTo hs (keepsCounter_consume ?_)
    rintro rfl hconnected
    have hcounts := hs.counts
    rw [hcounted hconnected] at hcounts
    exact UInt64.toNat_inj.mp hcounts
  | shutdown =>
    obtain rfl := Option.some.inj h
    exact invariant_moveTo hs keepsCounter_shutdown
  | terminate =>
    obtain rfl := Option.some.inj h
    exact invariant_moveTo hs keepsCounter_terminate

/-- What is not counted shows at once. -/
theorem not_accurate_step {action : EndpointAction} (hs : Invariant s)
    (hcounted : ¬ s.Counted action) (h : s.step action = some t) : ¬ Accurate t := by
  have hcounts := hs.counts
  intro ht
  have htcounts := ht.counts
  cases action with
  | activate now | shutdown | terminate => exact hcounted trivial
  | transfer writes =>
    obtain rfl := Option.some.inj h
    exact hcounted ((toNat_pending_transfer hs writes).mp htcounts)
  | completion entry current =>
    cases current with
    | true =>
      rw [step, Option.ite_none_right_eq_some] at h
      obtain ⟨hpos, h⟩ := h
      obtain rfl := Option.some.inj h
      cases entry with
      | data => exact hcounted rfl
      | error =>
        change s.endpoint.pending.toNat = s.outstanding - 1 at htcounts
        omega
    | false =>
      rw [step, Option.ite_none_right_eq_some] at h
      obtain rfl := Option.some.inj h.2
      rw [Counted, Classical.not_imp, Bool.not_eq_false] at hcounted
      change (s.endpoint.consumeCompletion entry).pending.toNat = s.outstanding at htcounts
      rw [pending_consumeCompletion, if_pos hcounted, ← hcounts] at htcounts
      exact sub_one_ne s.endpoint.pending (UInt64.toNat_inj.mp htcounts)
  | event event now =>
    obtain rfl := Option.some.inj h
    cases event with
    | connected | shutdown | other => exact hcounted trivial
    | error =>
      rw [Counted, Classical.not_imp] at hcounted
      obtain ⟨hconnected, houtstanding⟩ := hcounted
      obtain ⟨⟨state, pending⟩, outstanding, late, underflowed, entered⟩ := s
      cases state with
      | connected =>
        change pending.toNat = 0 at htcounts
        change pending.toNat = outstanding at hcounts
        exact houtstanding (hcounts.symm.trans htcounts)
      | idle _ | connecting | flushing _ | done => cases hconnected

end CountedEndpoint

/-! ### The target of a datagram initiator -/

/-- A target, while it is one of the initiator's, and the writes posted to it.  Its
    token is its own, so that only its own completions reach it. -/
structure CountedTarget where
  target : Option RDMInitiatorTarget
  outstanding : Nat
  underflowed : Bool
  entered : Bool

def CountedTarget.init : CountedTarget where
  target := some .init
  outstanding := 0
  underflowed := false
  entered := false

inductive TargetAction where
  | activate
  | transfer (writes : UInt64)
  | completion (entry : CompletionEntry)
  | remove

namespace CountedTarget

/-- `activate`, as `activateIdleEndpoints` calls it. -/
def activate (s : CountedTarget) (target : RDMInitiatorTarget) : CountedTarget :=
  match target.activate with
  | .ok next =>
      { s with target := some next,
               entered := decide (target.state ≠ .activated) && decide (next.state = .activated) }
  | .error _ => { s with entered := false }

/-- A completion is handed to the target. -/
def deliver (s : CountedTarget) (entry : CompletionEntry) (target : RDMInitiatorTarget) :
    CountedTarget :=
  { target := some (target.handleCompletion entry)
    outstanding := s.outstanding - 1
    underflowed := s.underflowed ||
      (decide (entry = .data) && decide (target.state = .activated) &&
        decide (target.pending = 0))
    entered := false }

def step (s : CountedTarget) : TargetAction → Option CountedTarget
  | .activate => s.target.map s.activate
  | .transfer writes =>
      s.target.map fun target =>
        { s with
          target := some (target.transfer writes)
          outstanding :=
            if target.state = .activated then s.outstanding + writes.toNat else s.outstanding
          entered := false }
  | .completion entry =>
      if 0 < s.outstanding then s.target.map (s.deliver entry) else none
  | .remove =>
      -- `removeTarget` shuts the target down and erases it.
      s.target.map fun _ => { s with target := none, outstanding := 0, entered := false }

structure Accurate (s : CountedTarget) : Prop where
  counts : ∀ target, s.target = some target → target.pending.toNat = s.outstanding
  noUnderflow : s.underflowed = false
  fresh : s.entered = true → ∀ target, s.target = some target → target.pending = 0

/-- No write fails, and the number of outstanding writes fits the counter. -/
def Counted (s : CountedTarget) : TargetAction → Prop
  | .transfer writes =>
      ∀ target, s.target = some target → target.state = .activated →
        s.outstanding + writes.toNat < 2 ^ 64
  | .completion entry => entry = .data
  | _ => True

/-- Only an activated target has outstanding writes. -/
structure Invariant (s : CountedTarget) : Prop extends Accurate s where
  inactive : ∀ target, s.target = some target → target.state ≠ .activated → s.outstanding = 0

variable {s t : CountedTarget} {target : RDMInitiatorTarget}

theorem invariant_init : Invariant .init where
  counts := by
    rintro target ⟨⟩
    rfl
  noUnderflow := rfl
  fresh := fun h => Bool.noConfusion h
  inactive := fun _ _ _ => rfl

/-- The invariant of a state that still has its target. -/
theorem invariant_of_target (htarget : s.target = some target)
    (hcounts : target.pending.toNat = s.outstanding) (hunderflow : s.underflowed = false)
    (hfresh : s.entered = true → target.pending = 0)
    (hinactive : target.state ≠ .activated → s.outstanding = 0) : Invariant s := by
  refine ⟨⟨?_, hunderflow, ?_⟩, ?_⟩
  · intro other h
    obtain rfl := Option.some.inj (htarget.symm.trans h)
    exact hcounts
  · intro hentered other h
    obtain rfl := Option.some.inj (htarget.symm.trans h)
    exact hfresh hentered
  · intro other h
    obtain rfl := Option.some.inj (htarget.symm.trans h)
    exact hinactive

theorem invariant_activate (hs : Invariant s) (htarget : s.target = some target) :
    Invariant (s.activate target) := by
  have hcounts := hs.counts target htarget
  have hinactive := hs.inactive target htarget
  obtain ⟨state, pending⟩ := target
  cases state with
  | idle =>
    have hzero : s.outstanding = 0 := hinactive RDMTargetState.noConfusion
    rw [hzero] at hcounts
    refine invariant_of_target rfl ?_ hs.noUnderflow ?_ ?_
    · change pending.toNat = s.outstanding
      rw [hzero]
      exact hcounts
    · intro _
      exact UInt64.toNat_inj.mp hcounts
    · intro _
      exact hzero
  | activated => exact invariant_of_target rfl hcounts hs.noUnderflow Bool.noConfusion hinactive
  | done => exact invariant_of_target htarget hcounts hs.noUnderflow Bool.noConfusion hinactive

theorem pending_transfer (target : RDMInitiatorTarget) (writes : UInt64) :
    (target.transfer writes).pending =
      if target.state = .activated then target.pending + writes else target.pending := by
  obtain ⟨state, pending⟩ := target
  cases state <;> rfl

theorem state_transfer (target : RDMInitiatorTarget) (writes : UInt64) :
    (target.transfer writes).state = target.state := by
  obtain ⟨state, pending⟩ := target
  cases state <;> rfl

theorem toNat_pending_transfer (hs : Invariant s) (htarget : s.target = some target)
    (writes : UInt64) :
    (target.transfer writes).pending.toNat =
        (if target.state = .activated then s.outstanding + writes.toNat else s.outstanding) ↔
      s.Counted (.transfer writes) := by
  have hcounts := hs.counts target htarget
  have hcounted : s.Counted (.transfer writes) ↔
      (target.state = .activated → s.outstanding + writes.toNat < 2 ^ 64) := by
    simp [Counted, htarget]
  rw [hcounted, pending_transfer]
  by_cases hactive : target.state = .activated
  · simp only [hactive, if_true, forall_const]
    exact CountedEndpoint.toNat_add_writes hcounts
  · simpa [hactive] using hcounts

/-- A write goes through: there was one to take off the counter. -/
theorem complete_activated (hs : Invariant s) (htarget : s.target = some target)
    (hpos : 0 < s.outstanding) :
    target.state = .activated ∧ 0 < target.pending.toNat := by
  have hcounts := hs.counts target htarget
  refine ⟨?_, by omega⟩
  by_contra hinactive
  rw [hs.inactive target htarget hinactive] at hpos
  exact absurd hpos (Nat.lt_irrefl 0)

theorem invariant_step {action : TargetAction} (hs : Invariant s) (hcounted : s.Counted action)
    (h : s.step action = some t) : Invariant t := by
  cases action with
  | activate =>
    rw [step, Option.map_eq_some_iff] at h
    obtain ⟨target, htarget, rfl⟩ := h
    exact invariant_activate hs htarget
  | transfer writes =>
    rw [step, Option.map_eq_some_iff] at h
    obtain ⟨target, htarget, rfl⟩ := h
    refine invariant_of_target rfl ((toNat_pending_transfer hs htarget writes).mpr hcounted)
      hs.noUnderflow Bool.noConfusion ?_
    rw [state_transfer]
    intro hinactive
    simp only [hinactive, if_false]
    exact hs.inactive target htarget hinactive
  | completion entry =>
    rw [step, Option.ite_none_right_eq_some] at h
    obtain ⟨hpos, h⟩ := h
    rw [Option.map_eq_some_iff] at h
    obtain ⟨target, htarget, rfl⟩ := h
    obtain rfl : entry = .data := hcounted
    have hcounts := hs.counts target htarget
    obtain ⟨hactive, hpending⟩ := complete_activated hs htarget hpos
    obtain ⟨state, pending⟩ := target
    obtain rfl : state = .activated := hactive
    have hnonzero : pending ≠ 0 := by
      rintro rfl
      exact absurd hpending (Nat.lt_irrefl 0)
    refine invariant_of_target rfl ?_ ?_ Bool.noConfusion (fun h => absurd rfl h)
    · change (pending - 1).toNat = s.outstanding - 1
      rw [toNat_sub_one hpending, hcounts]
    · simp [deliver, hs.noUnderflow, hnonzero]
  | remove =>
    rw [step, Option.map_eq_some_iff] at h
    obtain ⟨target, htarget, rfl⟩ := h
    refine ⟨⟨?_, hs.noUnderflow, fun h => Bool.noConfusion h⟩, fun _ _ _ => rfl⟩
    intro other h
    cases h

theorem not_accurate_step {action : TargetAction} (hs : Invariant s)
    (hcounted : ¬ s.Counted action) (h : s.step action = some t) : ¬ Accurate t := by
  intro ht
  cases action with
  | activate | remove => exact hcounted trivial
  | transfer writes =>
    rw [step, Option.map_eq_some_iff] at h
    obtain ⟨target, htarget, rfl⟩ := h
    exact hcounted ((toNat_pending_transfer hs htarget writes).mp (ht.counts _ rfl))
  | completion entry =>
    rw [step, Option.ite_none_right_eq_some] at h
    obtain ⟨hpos, h⟩ := h
    rw [Option.map_eq_some_iff] at h
    obtain ⟨target, htarget, rfl⟩ := h
    have hcounts := hs.counts target htarget
    cases entry with
    | data => exact hcounted rfl
    | error =>
      have htcounts : target.pending.toNat = s.outstanding - 1 := ht.counts target rfl
      omega

end CountedTarget

/-! ### Exact conditions -/

/-- The counter of either kind of endpoint is accurate throughout a run exactly
    when every write and every completion of the run is counted. -/
theorem accurate_iff_counted (actions : List EndpointAction) (targetActions : List TargetAction) :
    (Throughout CountedEndpoint.step CountedEndpoint.Accurate .init actions ↔
      Along CountedEndpoint.step CountedEndpoint.Counted .init actions) ∧
    (Throughout CountedTarget.step CountedTarget.Accurate .init targetActions ↔
      Along CountedTarget.step CountedTarget.Counted .init targetActions) := by
  constructor
  · apply throughout_iff_along (fun _ hs => hs.toAccurate) _ _ CountedEndpoint.invariant_init
    · intro s a t hs hcounted h
      exact CountedEndpoint.invariant_step hs hcounted h
    · intro s a t hs hcounted h
      exact CountedEndpoint.not_accurate_step hs hcounted h
  · apply throughout_iff_along (fun _ hs => hs.toAccurate) _ _ CountedTarget.invariant_init
    · intro s a t hs hcounted h
      exact CountedTarget.invariant_step hs hcounted h
    · intro s a t hs hcounted h
      exact CountedTarget.not_accurate_step hs hcounted h

/-- A write fails: its completion is logged, and the counter stays at one. -/
def failedWriteRun : List EndpointAction :=
  [.activate 5000000000, .event .connected 5000000000, .transfer 1, .completion .error true]

/-- An error event comes while a write is outstanding: the endpoint is connected
    again with a counter of one. -/
def reconnectRun : List EndpointAction :=
  [.activate 5000000000, .event .connected 5000000000, .transfer 1, .event .error 5000000000,
    .activate 10000000000, .event .connected 10000000000]

def failedDatagramRun : List TargetAction := [.activate, .transfer 1, .completion .error]

theorem counter_off :
    ¬ Throughout CountedEndpoint.step CountedEndpoint.Accurate .init failedWriteRun ∧
    ¬ Throughout CountedEndpoint.step CountedEndpoint.Accurate .init reconnectRun ∧
    ¬ Throughout CountedTarget.step CountedTarget.Accurate .init failedDatagramRun := by
  refine ⟨fun h => ?_, fun h => ?_, fun h => ?_⟩
  · have hcounts := (h.last rfl).counts
    revert hcounts
    decide
  · have hfresh := (h.last rfl).fresh rfl
    revert hfresh
    decide
  · have hcounts := (h.last rfl).counts _ rfl
    revert hcounts
    decide

end MediaExchange.PendingCounter
