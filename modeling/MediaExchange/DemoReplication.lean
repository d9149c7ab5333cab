/-
  MediaExchange/DemoReplication.lean
  ==================================
  **The demo, from a grain of the initiator's flow to a reader of the target's**
  (`tools/mxl-fabrics-demo/demo.cpp`).

  The initiator's loop waits for the next batch of slices of a grain and sends what has
  become valid since its last transfer; only the first range of a grain carries the
  header.  The target's loop takes a completion, opens the grain that is reported and
  commits the header it finds, while the fabric goes on placing writes.

  One target, whose connection stands; the rings are of one size.  What a slice of the
  target's ring belongs to is kept as a ghost.

  Main results: `demo_replicates` and `abandoned_slices_missing`.  The loop keeps the
  slice it has come to when it leaves a grain for another one; in runs in which it leaves
  none in the middle, transfers are committed in order, each once, and a reader of the
  target's flow is shown slices of the grain it asks for.
-/
import MediaExchange.GrainTransfer

namespace MediaExchange.DemoReplication

open MediaExchange.GrainTransfer (GrainWrite readCompletion)
open MediaExchange.LabelledRun

/-! ### The initiator's loop -/

/-- What the loops tell apart of the statuses of the fabrics calls. -/
inductive CallStatus where
  | ok
  | notReady
  | interrupted
  | timeout
  | other
deriving DecidableEq, Repr

/-- `maxSyncBatchSizeHint` and `getTotalPayloadSlices`. -/
structure Batches where
  slicesPerBatch : UInt16
  totalPayloadSlices : UInt16

/-- The variables of `AppInitator::runDiscrete`. -/
structure AppInitator where
  grainIndex : UInt64
  startSlice : UInt16
  endSlice : UInt16
deriving DecidableEq, Repr

/-- What the calls of one iteration return: the grain, the current index, the status of
    the transfer and that of the last `makeProgress`. -/
structure Iteration where
  slice : Except MxlStatus GrainInfo
  currentIndex : UInt64
  transfer : CallStatus
  progress : CallStatus

/-- `mxlFabricsInitiatorTransferGrain`: what is posted, and the status. -/
def transferGrain (grainInfo : GrainInfo) (startSlice endSlice : UInt16) (status : CallStatus) :
    Option GrainWrite × CallStatus :=
  match SliceRange.make startSlice endSlice with
  | .error _ => (none, .other)
  | .ok range => if status = .ok then (some ⟨grainInfo, range⟩, .ok) else (none, status)

namespace AppInitator

def start (batches : Batches) (currentIndex : UInt64) : AppInitator where
  grainIndex := currentIndex
  startSlice := 0
  endSlice := batches.slicesPerBatch

/-- What follows a transfer. -/
def afterTransfer (batches : Batches) (app : AppInitator) (grainInfo : GrainInfo)
    (progress : CallStatus) : Except CallStatus AppInitator :=
  match progress with
  | .interrupted => .error .ok
  | .timeout => .error .timeout
  | .other => .error .other
  | .ok | .notReady =>
      if grainInfo.validSlices ≠ grainInfo.totalSlices then
        .ok { app with startSlice := grainInfo.validSlices
                       endSlice := min (grainInfo.validSlices + batches.slicesPerBatch)
                         batches.totalPayloadSlices }
      else
        .ok { grainIndex := app.grainIndex + 1, startSlice := 0, endSlice := batches.slicesPerBatch }

/-- One iteration of the loop of `runDiscrete`: what is posted, and the variables, or what
    is returned. -/
def iterate (batches : Batches) (app : AppInitator) (iteration : Iteration) :
    Option GrainWrite × Except CallStatus AppInitator :=
  match iteration.slice with
  | .error .errOutOfRangeTooLate => (none, .ok { app with grainIndex := iteration.currentIndex })
  | .error _ => (none, .ok app)
  | .ok grainInfo =>
      if grainInfo.isInvalid then
        ((transferGrain grainInfo 0 0 iteration.transfer).1,
          .ok { app with grainIndex := app.grainIndex + 1 })
      else
        match transferGrain grainInfo app.startSlice grainInfo.validSlices iteration.transfer with
        | (posted, .notReady) => (posted, .ok app)
        | (posted, .ok) => (posted, app.afterTransfer batches grainInfo iteration.progress)
        | (posted, status) => (posted, .error status)

/-- The iteration leaves a grain of which some slices have been sent: for the current
    one, since it is too late, or for the next, since the rest is invalid. -/
def Abandons (app : AppInitator) (iteration : Iteration) : Prop :=
  app.startSlice ≠ 0 ∧ (iteration.slice = .error .errOutOfRangeTooLate ∨
    ∃ grainInfo, iteration.slice = .ok grainInfo ∧ grainInfo.isInvalid = true)

end AppInitator

/-! ### The demo -/

structure GrainCommit where
  write : GrainWrite
  info : GrainInfo

/-- Where the target's loop is, with the transfer whose completion it is about. -/
inductive TargetPhase where
  | reading
  | opening (write : GrainWrite) (grainIndex : UInt64)
  | committing (write : GrainWrite) (info : GrainInfo)
  | returned

def TargetPhase.handled : TargetPhase → List GrainWrite
  | .opening write _ | .committing write _ => [write]
  | .reading | .returned => []

structure Demo where
  app : Except CallStatus AppInitator
  /-- Posted and not yet placed, oldest first. -/
  inFlight : List GrainWrite
  /-- Placed, the completion not yet read, oldest first. -/
  completions : List GrainWrite
  flow : DiscreteFlowData
  writer : PosixDiscreteFlowWriter
  phase : TargetPhase
  /-- The grain whose slice was last placed at a slice of a slot. -/
  slices : Nat → Nat → Option UInt64
  transfers : List GrainWrite
  commits : List GrainCommit

namespace Demo

def grainCount (s : Demo) : Nat := s.flow.grainCount.toNat

/-- The transfers that are not committed. -/
def unread (s : Demo) : List GrainWrite := s.phase.handled ++ s.completions ++ s.inFlight

/-- The transfers that have been placed. -/
def placed (s : Demo) : List GrainWrite :=
  s.commits.map GrainCommit.write ++ s.phase.handled ++ s.completions

def init (batches : Batches) (currentIndex : UInt64) (geometry : DiscreteGeometry) (now : UInt64) :
    Demo where
  app := .ok (.start batches currentIndex)
  inFlight := []
  completions := []
  flow := .create geometry now
  writer := .init
  phase := .reading
  slices _ _ := none
  transfers := []
  commits := []

end Demo

/-- The slices of a write that are placed. -/
def placeSlices (n : Nat) (write : GrainWrite) (slices : Nat → Nat → Option UInt64) :
    Nat → Nat → Option UInt64 :=
  fun slot slice =>
    if slot = write.slot n ∧ write.range.start.toNat ≤ slice ∧ slice < write.range.stop.toNat then
      some write.info.index
    else slices slot slice

inductive Action where
  | iterate (iteration : Iteration)
  | place
  | readGrain
  | openGrain
  | commitGrain (now : UInt64)

def step (batches : Batches) (s : Demo) : Action → Option Demo
  | .iterate iteration =>
      match s.app with
      | .error _ => none
      | .ok app =>
          let (posted, next) := app.iterate batches iteration
          some { s with app := next, inFlight := s.inFlight ++ posted.toList
                        transfers := s.transfers ++ posted.toList }
  | .place =>
      match s.inFlight with
      | [] => none
      | write :: writes =>
          some { s with inFlight := writes, completions := s.completions ++ [write]
                        flow := { s.flow with grains := write.place s.grainCount s.flow.grains }
                        slices := placeSlices s.grainCount write s.slices }
  | .readGrain =>
      match s.phase, s.completions with
      | .reading, write :: writes =>
          match readCompletion s.grainCount s.flow.grains (write.immData s.grainCount) with
          | .error _ => some { s with phase := .returned, completions := writes }
          | .ok (grainIndex, grains) =>
              some { s with phase := .opening write grainIndex, completions := writes
                            flow := { s.flow with grains := grains } }
      | _, _ => none
  | .openGrain =>
      match s.phase with
      | .opening write grainIndex =>
          let (_, info, writer, flow) := s.writer.openGrain s.flow grainIndex
          some { s with phase := .committing write info, writer := writer, flow := flow }
      | _ => none
  | .commitGrain now =>
      match s.phase with
      | .committing write info =>
          match s.writer.commit s.flow info now with
          | (.statusOk, writer, flow) =>
              some { s with phase := .reading, writer := writer, flow := flow
                            commits := s.commits ++ [⟨write, info⟩] }
          | (_, writer, flow) => some { s with phase := .returned, writer := writer, flow := flow }
      | _ => none

/-! ### How it is used -/

/-- An iteration is given the grain it asks for, leaves none in the middle, and what it
    sends goes to a slot whose transfers of another grain are committed. -/
structure Proper (batches : Batches) (s : Demo) (app : AppInitator) (iteration : Iteration) : Prop where
  labelled : ∀ grainInfo, iteration.slice = .ok grainInfo → grainInfo.index = app.grainIndex
  stays : ¬app.Abandons iteration
  committed : ∀ write, (app.iterate batches iteration).1 = some write →
    ∀ earlier ∈ s.unread, earlier.slot s.grainCount = write.slot s.grainCount →
      earlier.info.index = write.info.index

def Usage (batches : Batches) (s : Demo) : Action → Prop
  | .iterate iteration => ∀ app, s.app = .ok app → Proper batches s app iteration
  | _ => True

/-- A range behind the first of its grain begins where the transfer before it ended. -/
def InSequence (transfers : List GrainWrite) : Prop :=
  ∀ before write after, transfers = before ++ write :: after → write.range.start = 0 ∨
    ∃ front last, before = front ++ [last] ∧ last.info.index = write.info.index ∧
      last.range.stop = write.range.start

/-- What is to hold of the demo: transfers are committed in order and each once, and what
    a reader of the target's flow takes for valid are slices of the grain. -/
structure Replicates (s : Demo) : Prop where
  order : s.placed ++ s.inFlight = s.transfers
  sequence : InSequence s.transfers
  committed : ∀ commit ∈ s.commits, commit.info.index = commit.write.info.index
  running : s.phase ≠ .returned
  shown : ∀ index minValidSlices info, s.flow.getGrainImpl index minValidSlices = .ok info →
    info.isInvalid = false → ∀ slice < info.validSlices.toNat,
      s.slices (s.flow.offset index) slice = some info.index

/-! ### What an iteration does -/

section Iterations

variable {batches : Batches} {app : AppInitator} {iteration : Iteration}

theorem transferGrain_cases (grainInfo : GrainInfo) (startSlice endSlice : UInt16)
    (status : CallStatus) :
    (∃ write, transferGrain grainInfo startSlice endSlice status = (some write, .ok) ∧
        write.info = grainInfo ∧ write.range.start = startSlice ∧ write.range.stop = endSlice) ∨
      ∃ failed, failed ≠ .ok ∧ transferGrain grainInfo startSlice endSlice status = (none, failed) := by
  unfold transferGrain SliceRange.make
  by_cases hrange : startSlice.toNat ≤ endSlice.toNat
  · simp only [dif_pos hrange]
    by_cases hok : status = .ok
    · rw [if_pos hok]
      exact Or.inl ⟨_, rfl, rfl, rfl, rfl⟩
    · rw [if_neg hok]
      exact Or.inr ⟨status, hok, rfl⟩
  · simp only [dif_neg hrange]
    exact Or.inr ⟨.other, by simp, rfl⟩

/-- What follows a transfer: the loop is left, or goes on behind what was sent. -/
theorem afterTransfer_cases (batches : Batches) (app : AppInitator) (grainInfo : GrainInfo)
    (progress : CallStatus) :
    (∃ status, app.afterTransfer batches grainInfo progress = .error status) ∨
      ∃ next, app.afterTransfer batches grainInfo progress = .ok next ∧
        (next.startSlice = 0 ∨
          next.grainIndex = app.grainIndex ∧ next.startSlice = grainInfo.validSlices) := by
  unfold AppInitator.afterTransfer
  cases progress with
  | interrupted | timeout | other => exact Or.inl ⟨_, rfl⟩
  | ok | notReady =>
    right
    by_cases hpartial : grainInfo.validSlices ≠ grainInfo.totalSlices
    · exact ⟨_, if_pos hpartial, Or.inr ⟨rfl, rfl⟩⟩
    · exact ⟨_, if_neg hpartial, Or.inl rfl⟩

/-- An iteration sends nothing and keeps its place or moves on to another grain; or it
    sends the header of an invalid grain, or what has become valid of a grain. -/
theorem iterate_cases (batches : Batches) (app : AppInitator) (iteration : Iteration) :
    ((app.iterate batches iteration).1 = none ∧
        ∀ next, (app.iterate batches iteration).2 = .ok next → next = app ∨
          (next.startSlice = app.startSlice ∧ (app.startSlice ≠ 0 → app.Abandons iteration))) ∨
      (∃ write next, app.iterate batches iteration = (some write, .ok next) ∧
        iteration.slice = .ok write.info ∧ write.info.isInvalid = true ∧
        write.range.start = 0 ∧ write.range.stop = 0 ∧ next.startSlice = app.startSlice ∧
        (app.startSlice ≠ 0 → app.Abandons iteration)) ∨
      ∃ write, (app.iterate batches iteration).1 = some write ∧
        iteration.slice = .ok write.info ∧ write.info.isInvalid = false ∧
        write.range.start = app.startSlice ∧ write.range.stop = write.info.validSlices ∧
        ∀ next, (app.iterate batches iteration).2 = .ok next → next.startSlice = 0 ∨
          next.grainIndex = app.grainIndex ∧ next.startSlice = write.range.stop := by
  unfold AppInitator.iterate
  cases hslice : iteration.slice with
  | error status =>
    left
    cases status with
    | errOutOfRangeTooLate =>
      refine ⟨rfl, fun next hnext => Or.inr ?_⟩
      obtain rfl := Except.ok.inj hnext
      exact ⟨rfl, fun hstart => ⟨hstart, Or.inl hslice⟩⟩
    | _ => exact ⟨rfl, fun next hnext => Or.inl (Except.ok.inj hnext).symm⟩
  | ok grainInfo =>
    dsimp only
    by_cases hinvalid : grainInfo.isInvalid = true
    · rw [if_pos hinvalid]
      have habandons (hstart : app.startSlice ≠ 0) : app.Abandons iteration :=
        ⟨hstart, Or.inr ⟨grainInfo, hslice, hinvalid⟩⟩
      rcases transferGrain_cases grainInfo 0 0 iteration.transfer with
        ⟨write, hcall, rfl, hstart, hstop⟩ | ⟨failed, -, hcall⟩
      · right; left
        rw [hcall]
        exact ⟨write, _, rfl, rfl, hinvalid, hstart, hstop, rfl, habandons⟩
      · left
        rw [hcall]
        refine ⟨rfl, fun next hnext => Or.inr ?_⟩
        obtain rfl := Except.ok.inj hnext
        exact ⟨rfl, habandons⟩
    · rw [if_neg hinvalid]
      rcases transferGrain_cases grainInfo app.startSlice grainInfo.validSlices iteration.transfer with
        ⟨write, hcall, rfl, hstart, hstop⟩ | ⟨failed, hfailed, hcall⟩
      · right; right
        rw [hcall]
        refine ⟨write, rfl, rfl, by simpa using hinvalid, hstart, hstop, ?_⟩
        intro next hnext
        rcases afterTransfer_cases batches app write.info iteration.progress with
          ⟨status, hafter⟩ | ⟨next', hafter, hplace⟩
        · rw [hafter] at hnext
          cases hnext
        · rw [hafter] at hnext
          obtain rfl := Except.ok.inj hnext
          rw [hstop]
          exact hplace
      · left
        rw [hcall]
        cases failed with
        | ok => exact absurd rfl hfailed
        | notReady => exact ⟨rfl, fun next hnext => Or.inl (Except.ok.inj hnext).symm⟩
        | interrupted | timeout | other => exact ⟨rfl, fun next hnext => by cases hnext⟩

end Iterations

/-! ### The invariant -/

/-- The slot of a write has the index of its grain, and its slices up to its last one. -/
structure Holds (s : Demo) (write : GrainWrite) : Prop where
  index : (s.flow.grains (write.slot s.grainCount)).index = write.info.index
  slices : ∀ slice < write.range.stop.toNat,
    s.slices (write.slot s.grainCount) slice = some write.info.index

/-- The valid slices of a header are those of its grain. -/
def Shows (s : Demo) (slot : Nat) (info : GrainInfo) : Prop :=
  info.isInvalid = false → ∀ slice < info.validSlices.toNat, s.slices slot slice = some info.index

/-- What the target's loop has in its hands. -/
def PhaseHolds (s : Demo) : TargetPhase → Prop
  | .reading => True
  | .opening write grainIndex => grainIndex = write.info.index
  | .committing write info =>
      info.index = write.info.index ∧ s.writer.currentIndex = write.info.index ∧
        Shows s (write.slot s.grainCount) info
  | .returned => False

/-- The header that is sent says what is sent. -/
def Honest (write : GrainWrite) : Prop :=
  write.info.isInvalid = false → write.info.validSlices = write.range.stop

structure Invariant (s : Demo) : Prop where
  order : s.placed ++ s.inFlight = s.transfers
  sequence : InSequence s.transfers
  honest : ∀ write ∈ s.transfers, Honest write
  /-- In the middle of a grain, its slices up to there were sent last. -/
  resumes : ∀ app, s.app = .ok app → app.startSlice ≠ 0 → ∃ front last,
    s.transfers = front ++ [last] ∧ last.info.index = app.grainIndex ∧
      last.range.stop = app.startSlice
  /-- A slot has uncommitted transfers of one grain only. -/
  oneGrain : ∀ v ∈ s.unread, ∀ w ∈ s.unread,
    v.slot s.grainCount = w.slot s.grainCount → v.info.index = w.info.index
  handled : ∀ write ∈ s.phase.handled ++ s.completions, Holds s write
  last : ∀ front last, s.placed = front ++ [last] → Holds s last
  shown : ∀ slot, Shows s slot (s.flow.grains slot)
  phase : PhaseHolds s s.phase
  committed : ∀ commit ∈ s.commits, commit.info.index = commit.write.info.index

theorem invariant_init (batches : Batches) (currentIndex : UInt64) (geometry : DiscreteGeometry)
    (now : UInt64) : Invariant (.init batches currentIndex geometry now) where
  order := rfl
  sequence := by
    intro before write after hsplit
    cases before <;> cases hsplit
  honest := by simp [Demo.init]
  resumes := by
    intro app happ hstart
    obtain rfl := Except.ok.inj happ
    exact absurd rfl hstart
  oneGrain := by simp [Demo.init, Demo.unread, TargetPhase.handled]
  handled := by simp [Demo.init, TargetPhase.handled]
  last := by
    intro front last hplaced
    cases front <;> cases hplaced
  shown := by
    intro slot _ slice hslice
    exact absurd hslice (Nat.not_lt_zero slice)
  phase := trivial
  committed := by simp [Demo.init]

/-! ### The loop sends -/

section Sending

variable {batches : Batches} {s t : Demo} {app : AppInitator} {iteration : Iteration}

theorem sequence_append {transfers : List GrainWrite} {write : GrainWrite}
    (h : InSequence transfers)
    (hwrite : write.range.start = 0 ∨ ∃ front last, transfers = front ++ [last] ∧
      last.info.index = write.info.index ∧ last.range.stop = write.range.start) :
    InSequence (transfers ++ [write]) := by
  intro before w after hsplit
  rcases List.eq_nil_or_concat after with rfl | ⟨front, last, rfl⟩
  · obtain ⟨rfl, hw⟩ := List.append_inj' hsplit rfl
    obtain rfl : write = w := by simpa using hw
    exact hwrite
  · rw [List.concat_eq_append, ← List.cons_append, ← List.append_assoc] at hsplit
    exact h before w front (List.append_inj' hsplit rfl).1

/-- Where the loop comes to is where its last transfer ended. -/
theorem resumes_iterate (hs : Invariant s) (happ : s.app = .ok app)
    (hproper : Proper batches s app iteration) {next : AppInitator}
    (hnext : (app.iterate batches iteration).2 = .ok next) (hstart : next.startSlice ≠ 0) :
    ∃ front last, s.transfers ++ (app.iterate batches iteration).1.toList = front ++ [last] ∧
      last.info.index = next.grainIndex ∧ last.range.stop = next.startSlice := by
  rcases iterate_cases batches app iteration with ⟨hnone, hmoves⟩ |
    ⟨write, next', hcall, hslice, hinvalid, -, hstop, hkeeps, habandons⟩ |
    ⟨write, hsome, hslice, hvalid, -, hstop, hmoves⟩
  · rw [hnone, Option.toList_none, List.append_nil]
    rcases hmoves next hnext with rfl | ⟨hkeeps, habandons⟩
    · exact hs.resumes _ happ hstart
    · rw [hkeeps] at hstart
      exact absurd (habandons hstart) hproper.stays
  · rw [hcall] at hnext
    obtain rfl := Except.ok.inj hnext
    rw [hkeeps] at hstart
    exact absurd (habandons hstart) hproper.stays
  · rw [hsome, Option.toList_some]
    rcases hmoves next hnext with hzero | ⟨hindex, hnextStart⟩
    · exact absurd hzero hstart
    · refine ⟨s.transfers, write, rfl, ?_, hnextStart.symm⟩
      rw [hindex]
      exact hproper.labelled write.info hslice

/-- A transfer begins where the one before it ended, or with the header; what the header
    says is what is sent. -/
theorem transfer_iterate (hs : Invariant s) (happ : s.app = .ok app)
    (hproper : Proper batches s app iteration) {write : GrainWrite}
    (hsome : (app.iterate batches iteration).1 = some write) :
    Honest write ∧ (write.range.start = 0 ∨ ∃ front last, s.transfers = front ++ [last] ∧
      last.info.index = write.info.index ∧ last.range.stop = write.range.start) := by
  rcases iterate_cases batches app iteration with ⟨hnone, -⟩ |
    ⟨write', next, hcall, -, hinvalid, hstart, -⟩ |
    ⟨write', hsome', hslice, hvalid, hstart, hstop, -⟩
  · rw [hnone] at hsome
    cases hsome
  · rw [hcall] at hsome
    obtain rfl := Option.some.inj hsome
    refine ⟨fun hvalid => ?_, Or.inl hstart⟩
    rw [hinvalid] at hvalid
    cases hvalid
  · obtain rfl := Option.some.inj (hsome'.symm.trans hsome)
    refine ⟨fun _ => hstop.symm, ?_⟩
    by_cases hzero : app.startSlice = 0
    · exact Or.inl (hstart.trans hzero)
    · obtain ⟨front, last, htransfers, hindex, hlast⟩ := hs.resumes app happ hzero
      refine Or.inr ⟨front, last, htransfers, ?_, hlast.trans hstart.symm⟩
      rw [hindex, hproper.labelled write'.info hslice]

theorem invariant_iterate (hs : Invariant s) (happ : s.app = .ok app)
    (hproper : Proper batches s app iteration) :
    Invariant { s with app := (app.iterate batches iteration).2
                       inFlight := s.inFlight ++ (app.iterate batches iteration).1.toList
                       transfers := s.transfers ++ (app.iterate batches iteration).1.toList } := by
  have hkept : ∀ write, Holds s write → Holds { s with
      app := (app.iterate batches iteration).2
      inFlight := s.inFlight ++ (app.iterate batches iteration).1.toList
      transfers := s.transfers ++ (app.iterate batches iteration).1.toList } write :=
    fun _ h => ⟨h.index, h.slices⟩
  have hresumes := fun next => @resumes_iterate batches s app iteration hs happ hproper next
  have htransfer := fun write => @transfer_iterate batches s app iteration hs happ hproper write
  have hcommitted := hproper.committed
  generalize app.iterate batches iteration = result at *
  obtain ⟨posted, outcome⟩ := result
  constructor
  · change s.placed ++ (s.inFlight ++ posted.toList) = s.transfers ++ posted.toList
    rw [← List.append_assoc, hs.order]
  · cases posted with
    | none =>
      change InSequence (s.transfers ++ [])
      rw [List.append_nil]
      exact hs.sequence
    | some write => exact sequence_append hs.sequence (htransfer write rfl).2
  · intro write hwrite
    rcases List.mem_append.mp hwrite with hwrite | hwrite
    · exact hs.honest write hwrite
    · exact (htransfer write (Option.mem_toList.mp hwrite)).1
  · exact hresumes
  · have hmem : ∀ v, v ∈ s.phase.handled ++ s.completions ++ (s.inFlight ++ posted.toList) →
        v ∈ s.unread ∨ posted = some v := by
      intro v hv
      rw [← List.append_assoc] at hv
      rcases List.mem_append.mp hv with hv | hv
      · exact Or.inl hv
      · exact Or.inr (Option.mem_toList.mp hv)
    intro v hv w hw hslot
    rcases hmem v hv with hv | hv <;> rcases hmem w hw with hw | hw
    · exact hs.oneGrain v hv w hw hslot
    · exact hcommitted w hw v hv hslot
    · exact (hcommitted v hv w hw hslot.symm).symm
    · rw [Option.some.inj (hv.symm.trans hw)]
  · intro write hwrite
    exact hkept write (hs.handled write hwrite)
  · intro front last hplaced
    exact hkept last (hs.last front last hplaced)
  · exact hs.shown
  · have hphase := hs.phase
    cases hs' : s.phase with
    | reading => trivial
    | opening write grainIndex =>
      rw [hs'] at hphase
      exact hphase
    | committing write info =>
      rw [hs'] at hphase
      exact hphase
    | returned =>
      rw [hs'] at hphase
      exact hphase
  · exact hs.committed

end Sending

/-! ### The fabric places -/

section Placing

variable {s : Demo} {write : GrainWrite} {writes : List GrainWrite}

/-- The demo after the oldest write is placed. -/
def afterPlace (s : Demo) (write : GrainWrite) (writes : List GrainWrite) : Demo :=
  { s with inFlight := writes, completions := s.completions ++ [write]
           flow := { s.flow with grains := write.place s.grainCount s.flow.grains }
           slices := placeSlices s.grainCount write s.slices }

@[simp] theorem grainCount_afterPlace : (afterPlace s write writes).grainCount = s.grainCount := rfl

@[simp] theorem grains_afterPlace :
    (afterPlace s write writes).flow.grains = write.place s.grainCount s.flow.grains := rfl

/-- What is tagged with the grain of the write stays so. -/
theorem slices_afterPlace {slot slice : Nat} {index : UInt64}
    (hslot : write.slot s.grainCount = slot → write.info.index = index)
    (h : s.slices slot slice = some index) :
    (afterPlace s write writes).slices slot slice = some index := by
  change placeSlices _ _ _ _ _ = _
  unfold placeSlices
  split
  · next hplaced => rw [hslot hplaced.1.symm]
  · exact h

theorem slices_afterPlace_self {slice : Nat} (hstart : write.range.start.toNat ≤ slice)
    (hstop : slice < write.range.stop.toNat) :
    (afterPlace s write writes).slices (write.slot s.grainCount) slice = some write.info.index := by
  change placeSlices _ _ _ _ _ = _
  unfold placeSlices
  rw [if_pos ⟨rfl, hstart, hstop⟩]

theorem toNat_ne_zero {a : UInt16} (h : a ≠ 0) : a.toNat ≠ 0 := fun hzero => h (UInt16.toNat.inj hzero)

/-- The write that is placed has its slices in front of it, and its header. -/
theorem holds_placed (hs : Invariant s) (hflight : s.inFlight = write :: writes) :
    Holds (afterPlace s write writes) write := by
  have hsplit : s.transfers = s.placed ++ write :: writes := by
    rw [← hs.order, hflight]
  constructor
  · rw [grainCount_afterPlace, grains_afterPlace]
    unfold GrainWrite.place
    split
    · rw [Function.update_self]
    · next hstart =>
      rcases hs.sequence _ _ _ hsplit with hzero | ⟨front, last, hplaced, hindex, -⟩
      · exact absurd hzero hstart
      · have hlast := (hs.last front last hplaced).index
        rw [← hindex, ← hlast, GrainWrite.slot, GrainWrite.slot, hindex]
  · intro slice hslice
    by_cases hstart : write.range.start.toNat ≤ slice
    · exact slices_afterPlace_self hstart hslice
    · rw [grainCount_afterPlace]
      apply slices_afterPlace fun _ => rfl
      rcases hs.sequence _ _ _ hsplit with hzero | ⟨front, last, hplaced, hindex, hstop⟩
      · rw [hzero] at hstart
        exact absurd (Nat.zero_le slice) hstart
      · have hlast := (hs.last front last hplaced).slices slice (by
          rw [hstop]
          exact Nat.lt_of_not_le hstart)
        rw [← hindex, ← hlast, GrainWrite.slot, GrainWrite.slot, hindex]

/-- Others with slices in its slot are of the same grain. -/
theorem holds_afterPlace (hs : Invariant s) (hflight : s.inFlight = write :: writes)
    {earlier : GrainWrite} (hearlier : earlier ∈ s.phase.handled ++ s.completions) :
    Holds (afterPlace s write writes) earlier := by
  have hgrain : write.slot s.grainCount = earlier.slot s.grainCount →
      write.info.index = earlier.info.index :=
    hs.oneGrain write (by simp [Demo.unread, hflight]) earlier (List.mem_append_left _ hearlier)
  obtain ⟨hindex, hslices⟩ := hs.handled earlier hearlier
  constructor
  · rw [grainCount_afterPlace, grains_afterPlace, GrainTransfer.index_place, hindex]
    intro hslot
    rw [hindex]
    exact hgrain hslot
  · intro slice hslice
    exact slices_afterPlace hgrain (hslices slice hslice)

theorem shows_afterPlace (hs : Invariant s) (hflight : s.inFlight = write :: writes) (slot : Nat) :
    Shows (afterPlace s write writes) slot ((afterPlace s write writes).flow.grains slot) := by
  have hself := holds_placed hs hflight
  rw [grains_afterPlace]
  by_cases hslot : write.slot s.grainCount = slot
  · subst hslot
    by_cases hstart : write.range.start = 0
    · have hheader : write.place s.grainCount s.flow.grains (write.slot s.grainCount) = write.info := by
        rw [GrainWrite.place, if_pos hstart, Function.update_self]
      intro hvalid slice hslice
      rw [hheader] at hvalid hslice ⊢
      have hhonest : Honest write := hs.honest write (by
        rw [← hs.order, hflight]
        exact List.mem_append_right _ List.mem_cons_self)
      rw [hhonest hvalid] at hslice
      exact hself.slices slice hslice
    · have hheader : write.place s.grainCount s.flow.grains = s.flow.grains := if_neg hstart
      have hindex := hself.index
      rw [grainCount_afterPlace, grains_afterPlace, hheader] at hindex
      intro hvalid slice hslice
      rw [hheader] at hvalid hslice ⊢
      exact slices_afterPlace (fun _ => hindex.symm) (hs.shown _ hvalid slice hslice)
  · have hheader : write.place s.grainCount s.flow.grains slot = s.flow.grains slot := by
      unfold GrainWrite.place
      split
      · rw [Function.update_of_ne (Ne.symm hslot)]
      · rfl
    intro hvalid slice hslice
    rw [hheader] at hvalid hslice ⊢
    exact slices_afterPlace (fun h => absurd h hslot) (hs.shown _ hvalid slice hslice)

theorem invariant_place (hs : Invariant s) (hflight : s.inFlight = write :: writes) :
    Invariant (afterPlace s write writes) := by
  have hself := holds_placed hs hflight
  have hunread : ∀ w, w ∈ (afterPlace s write writes).unread → w ∈ s.unread := by
    intro w hw
    rw [Demo.unread, hflight]
    simpa [Demo.unread, afterPlace] using hw
  constructor
  · have horder := hs.order
    rw [hflight] at horder
    change s.commits.map GrainCommit.write ++ s.phase.handled ++ (s.completions ++ [write]) ++ writes =
      s.transfers
    rw [← horder]
    simp [Demo.placed]
  · exact hs.sequence
  · exact hs.honest
  · exact hs.resumes
  · intro v hv w hw hslot
    exact hs.oneGrain v (hunread v hv) w (hunread w hw) hslot
  · intro w hw
    change w ∈ s.phase.handled ++ (s.completions ++ [write]) at hw
    rw [← List.append_assoc] at hw
    rcases List.mem_append.mp hw with hw | hw
    · exact holds_afterPlace hs hflight hw
    · obtain rfl := List.mem_singleton.mp hw
      exact hself
  · intro front last hplaced
    change s.commits.map GrainCommit.write ++ s.phase.handled ++ (s.completions ++ [write]) =
      front ++ [last] at hplaced
    rw [← List.append_assoc] at hplaced
    obtain rfl : write = last := by simpa using (List.append_inj' hplaced rfl).2
    exact hself
  · exact shows_afterPlace hs hflight
  · have hphase := hs.phase
    change PhaseHolds _ s.phase
    cases hs' : s.phase with
    | reading => trivial
    | opening earlier grainIndex =>
      rw [hs'] at hphase
      exact hphase
    | committing earlier info =>
      rw [hs'] at hphase
      obtain ⟨hindex, hcurrent, hshows⟩ := hphase
      refine ⟨hindex, hcurrent, fun hvalid slice hslice => ?_⟩
      apply slices_afterPlace _ (hshows hvalid slice hslice)
      intro hslot
      rw [hindex]
      exact hs.oneGrain write (by simp [Demo.unread, hflight]) earlier
        (by simp [Demo.unread, hs', TargetPhase.handled]) hslot
    | returned =>
      rw [hs'] at hphase
      exact hphase
  · exact hs.committed

end Placing

/-! ### The target's loop -/

section Target

variable {s : Demo} {write : GrainWrite} {writes : List GrainWrite} {info : GrainInfo}

/-- A step of the target's loop that keeps the index of every slot keeps what is held. -/
theorem holds_of_same_index {t : Demo} {w : GrainWrite} (h : Holds s w)
    (hcount : t.grainCount = s.grainCount) (hslices : t.slices = s.slices)
    (hindex : ∀ slot, (t.flow.grains slot).index = (s.flow.grains slot).index) : Holds t w := by
  constructor
  · rw [hcount, hindex]
    exact h.index
  · rw [hcount, hslices]
    exact h.slices

theorem invariant_read (hmax : s.grainCount ≤ 65536) (hs : Invariant s)
    (hphase : s.phase = .reading) (hcompletions : s.completions = write :: writes) :
    ∃ grainIndex grains,
      readCompletion s.grainCount s.flow.grains (write.immData s.grainCount) =
        .ok (grainIndex, grains) ∧
      Invariant { s with phase := .opening write grainIndex, completions := writes
                         flow := { s.flow with grains := grains } } := by
  have hhandled : s.phase.handled = [] := by
    rw [hphase]
    rfl
  have hself : Holds s write := hs.handled write (by simp [hcompletions])
  obtain ⟨grains, hgrains⟩ : ∃ grains, Function.update s.flow.grains (write.slot s.grainCount)
      { s.flow.grains (write.slot s.grainCount) with validSlices := write.range.stop } = grains :=
    ⟨_, rfl⟩
  refine ⟨(s.flow.grains (write.slot s.grainCount)).index, grains, ?_, ?_⟩
  · rw [← hgrains]
    exact GrainTransfer.readCompletion_eq s.flow.grainCount_pos hmax _ _
  have hindex : ∀ slot, (grains slot).index = (s.flow.grains slot).index := by
    intro slot
    rw [← hgrains]
    rcases eq_or_ne slot (write.slot s.grainCount) with rfl | hne
    · rw [Function.update_self]
    · rw [Function.update_of_ne hne]
  have hunread : ∀ w, w ∈ [write] ++ writes ++ s.inFlight → w ∈ s.unread := by
    intro w hw
    simpa [Demo.unread, hhandled, hcompletions] using hw
  have hplaced : s.commits.map GrainCommit.write ++ [write] ++ writes = s.placed := by
    simp [Demo.placed, hhandled, hcompletions]
  constructor
  · change s.commits.map GrainCommit.write ++ [write] ++ writes ++ s.inFlight = s.transfers
    rw [hplaced, hs.order]
  · exact hs.sequence
  · exact hs.honest
  · exact hs.resumes
  · intro v hv w hw hslot
    exact hs.oneGrain v (hunread v hv) w (hunread w hw) hslot
  · intro w hw
    have hmem : w ∈ s.phase.handled ++ s.completions := by
      rw [hhandled, hcompletions]
      exact hw
    exact holds_of_same_index (hs.handled w hmem) rfl rfl hindex
  · intro front last hlast
    exact holds_of_same_index (hs.last front last (hplaced.symm.trans hlast)) rfl rfl hindex
  · intro slot hvalid slice hslice
    change (grains slot).isInvalid = false at hvalid
    change slice < (grains slot).validSlices.toNat at hslice
    change s.slices slot slice = some (grains slot).index
    rw [hindex]
    by_cases hslot : slot = write.slot s.grainCount
    · subst hslot
      rw [← hgrains, Function.update_self] at hslice
      rw [hself.index]
      exact hself.slices slice hslice
    · rw [← hgrains, Function.update_of_ne hslot] at hvalid hslice
      exact hs.shown slot hvalid slice hslice
  · exact hself.index
  · exact hs.committed

/-- The header of the grain that is opened has its index already. -/
theorem invariant_open (hs : Invariant s) {grainIndex : UInt64}
    (hphase : s.phase = .opening write grainIndex) :
    Invariant { s with phase := .committing write (s.writer.openGrain s.flow grainIndex).2.1
                       writer := (s.writer.openGrain s.flow grainIndex).2.2.1
                       flow := (s.writer.openGrain s.flow grainIndex).2.2.2 } := by
  have hhandled : s.phase.handled = [write] := by
    rw [hphase]
    rfl
  have hindex : grainIndex = write.info.index := by
    have h := hs.phase
    rw [hphase] at h
    exact h
  subst hindex
  have hself : Holds s write := hs.handled write (by simp [hhandled])
  have hoffset : s.flow.offset write.info.index = write.slot s.grainCount :=
    s.flow.offset_eq write.info.index
  have hheader : (s.flow.storeGrainIndex write.info.index).grains = s.flow.grains := by
    have hsame : { s.flow.grainInfo write.info.index with index := write.info.index } =
        s.flow.grains (write.slot s.grainCount) := by
      rw [DiscreteFlowData.grainInfo, hoffset, ← hself.index]
    rw [DiscreteFlowData.storeGrainIndex, hsame, hoffset, Function.update_eq_self]
  have hgrainInfo : (s.flow.storeGrainIndex write.info.index).grainInfo write.info.index =
      s.flow.grains (write.slot s.grainCount) := by
    rw [DiscreteFlowData.grainInfo, hheader, DiscreteFlowData.offset_storeGrainIndex, hoffset]
  have hkept : ∀ w, Holds s w → ∀ phase writer, Holds { s with
      phase := phase, writer := writer, flow := s.flow.storeGrainIndex write.info.index } w := by
    intro w hw phase writer
    refine holds_of_same_index hw rfl rfl fun slot => ?_
    exact congrArg (fun grains => (grains slot).index) hheader
  have horder := hs.order
  have honeGrain := hs.oneGrain
  have hhandled' := hs.handled
  have hlast := hs.last
  simp only [Demo.placed, Demo.unread, hhandled] at horder honeGrain hhandled' hlast
  constructor
  · exact horder
  · exact hs.sequence
  · exact hs.honest
  · exact hs.resumes
  · exact honeGrain
  · intro w hw
    exact hkept w (hhandled' w hw) _ _
  · intro front last hplaced
    exact hkept last (hlast front last hplaced) _ _
  · intro slot
    change Shows s slot ((s.flow.storeGrainIndex write.info.index).grains slot)
    rw [hheader]
    exact hs.shown slot
  · refine ⟨?_, rfl, ?_⟩
    · change ((s.flow.storeGrainIndex write.info.index).grainInfo write.info.index).index = _
      rw [hgrainInfo]
      exact hself.index
    · change Shows s _ ((s.flow.storeGrainIndex write.info.index).grainInfo write.info.index)
      rw [hgrainInfo]
      exact hs.shown _
  · exact hs.committed

/-- The header that was found is committed, and the next completion can be read. -/
theorem invariant_commit (hs : Invariant s) (hphase : s.phase = .committing write info)
    (now : UInt64) :
    s.writer.commit s.flow info now =
        (.statusOk, s.writer.afterCommit info, s.flow.afterCommit info.index info now) ∧
      Invariant { s with phase := .reading, writer := s.writer.afterCommit info
                         flow := s.flow.afterCommit info.index info now
                         commits := s.commits ++ [⟨write, info⟩] } := by
  have hhandled : s.phase.handled = [write] := by
    rw [hphase]
    rfl
  obtain ⟨hindex, hcurrent, hshows⟩ : PhaseHolds s (.committing write info) := by
    have h := hs.phase
    rw [hphase] at h
    exact h
  have hself : Holds s write := hs.handled write (by simp [hhandled])
  have hoffset : s.flow.offset info.index = write.slot s.grainCount := by
    rw [hindex]
    exact s.flow.offset_eq write.info.index
  have hgrains : (s.flow.afterCommit info.index info now).grains =
      Function.update s.flow.grains (write.slot s.grainCount) info := by
    rw [← hoffset]
    rfl
  have hsame : ∀ slot, ((s.flow.afterCommit info.index info now).grains slot).index =
      (s.flow.grains slot).index := by
    intro slot
    rw [hgrains]
    rcases eq_or_ne slot (write.slot s.grainCount) with rfl | hne
    · rw [Function.update_self, hself.index, hindex]
    · rw [Function.update_of_ne hne]
  have hplaced : (s.commits ++ [GrainCommit.mk write info]).map GrainCommit.write ++ [] ++
      s.completions = s.placed := by
    simp [Demo.placed, hhandled]
  refine ⟨PosixDiscreteFlowWriter.commit_accepted (hindex.trans hcurrent.symm), ?_⟩
  constructor
  · exact (congrArg (· ++ s.inFlight) hplaced).trans hs.order
  · exact hs.sequence
  · exact hs.honest
  · exact hs.resumes
  · have hunread : ∀ w, w ∈ [] ++ s.completions ++ s.inFlight → w ∈ s.unread := by
      intro w hw
      rw [Demo.unread, hhandled]
      exact List.mem_cons_of_mem write hw
    intro v hv w hw hslot
    exact hs.oneGrain v (hunread v hv) w (hunread w hw) hslot
  · intro w hw
    have hmem : w ∈ s.phase.handled ++ s.completions := by
      rw [hhandled]
      exact List.mem_cons_of_mem write hw
    exact holds_of_same_index (hs.handled w hmem) rfl rfl hsame
  · intro front last hlast
    exact holds_of_same_index (hs.last front last (hplaced.symm.trans hlast)) rfl rfl hsame
  · intro slot
    change Shows s slot ((s.flow.afterCommit info.index info now).grains slot)
    rw [hgrains]
    rcases eq_or_ne slot (write.slot s.grainCount) with rfl | hne
    · rw [Function.update_self]
      exact hshows
    · rw [Function.update_of_ne hne]
      exact hs.shown slot
  · trivial
  · intro commit hcommit
    rcases List.mem_append.mp hcommit with hcommit | hcommit
    · exact hs.committed commit hcommit
    · obtain rfl := List.mem_singleton.mp hcommit
      exact hindex

end Target

/-! ### Runs -/

section Runs

variable {batches : Batches} {s t : Demo} {action : Action}

theorem grainCount_step (h : step batches s action = some t) : t.grainCount = s.grainCount := by
  cases action with
  | iterate iteration =>
    simp only [step] at h
    split at h
    · cases h
    · obtain rfl := Option.some.inj h
      rfl
  | place =>
    simp only [step] at h
    split at h
    · cases h
    · obtain rfl := Option.some.inj h
      rfl
  | readGrain =>
    simp only [step] at h
    split at h
    · split at h <;> obtain rfl := Option.some.inj h <;> rfl
    · cases h
  | openGrain =>
    simp only [step] at h
    split at h
    · obtain rfl := Option.some.inj h
      rfl
    · cases h
  | commitGrain now =>
    simp only [step, PosixDiscreteFlowWriter.commit] at h
    split at h
    · next write info hphase =>
      by_cases hopen : info.index ≠ s.writer.currentIndex
      · simp only [if_pos hopen] at h
        obtain rfl := Option.some.inj h
        rfl
      · simp only [if_neg hopen] at h
        obtain rfl := Option.some.inj h
        rfl
    · cases h

theorem invariant_step (hmax : s.grainCount ≤ 65536) (hs : Invariant s)
    (husage : Usage batches s action) (h : step batches s action = some t) : Invariant t := by
  cases action with
  | iterate iteration =>
    simp only [step] at h
    split at h
    · cases h
    · next app happ =>
      obtain rfl := Option.some.inj h
      exact invariant_iterate hs happ (husage app happ)
  | place =>
    simp only [step] at h
    split at h
    · cases h
    · next write writes hflight =>
      obtain rfl := Option.some.inj h
      exact invariant_place hs hflight
  | readGrain =>
    simp only [step] at h
    split at h
    · next write writes hphase hcompletions =>
      obtain ⟨grainIndex, grains, hread, ht⟩ := invariant_read hmax hs hphase hcompletions
      simp only [hread] at h
      obtain rfl := Option.some.inj h
      exact ht
    · cases h
  | openGrain =>
    simp only [step] at h
    split at h
    · next write grainIndex hphase =>
      obtain rfl := Option.some.inj h
      exact invariant_open hs hphase
    · cases h
  | commitGrain now =>
    simp only [step] at h
    split at h
    · next write info hphase =>
      obtain ⟨hcommit, ht⟩ := invariant_commit hs hphase now
      simp only [hcommit] at h
      obtain rfl := Option.some.inj h
      exact ht
    · cases h

theorem replicates_of_invariant (hs : Invariant s) : Replicates s where
  order := hs.order
  sequence := hs.sequence
  committed := hs.committed
  running := by
    intro hreturned
    have hphase := hs.phase
    rw [hreturned] at hphase
    exact hphase
  shown := by
    intro index minValidSlices info hget hvalid slice hslice
    obtain ⟨-, -, rfl⟩ := DiscreteFlowData.getGrainImpl_eq_ok.mp hget
    exact hs.shown _ hvalid slice hslice

end Runs

/-! ### A grain that is left in the middle -/

/-- What is posted by the iterations of the loop until it is left. -/
def AppInitator.posts (batches : Batches) : AppInitator → List Iteration → List GrainWrite
  | _, [] => []
  | app, iteration :: iterations =>
      match app.iterate batches iteration with
      | (posted, .ok next) => posted.toList ++ next.posts batches iterations
      | (posted, .error _) => posted.toList

/-- The write is of a valid grain. -/
def isValid (write : GrainWrite) : Bool := !write.info.isInvalid

section Abandoned

variable {batches : Batches} {app : AppInitator}

/-- The first valid grain that is sent is sent from the slice the loop has come to. -/
theorem start_of_first (iterations : List Iteration) {write : GrainWrite}
    (h : (app.posts batches iterations).find? isValid = some write) :
    write.range.start = app.startSlice := by
  induction iterations generalizing app with
  | nil => cases h
  | cons iteration iterations ih =>
    rw [AppInitator.posts] at h
    rcases iterate_cases batches app iteration with ⟨hnone, hmoves⟩ |
      ⟨posted, next, hcall, -, hinvalid, -, -, hkeeps, -⟩ |
      ⟨posted, hsome, -, hvalid, hstart, -, -⟩
    · generalize app.iterate batches iteration = result at h hnone hmoves
      obtain ⟨posted, outcome⟩ := result
      obtain rfl : posted = none := hnone
      cases outcome with
      | error status => cases h
      | ok next =>
        rw [ih h]
        rcases hmoves next rfl with rfl | ⟨hkeeps, -⟩
        · rfl
        · exact hkeeps
    · rw [hcall] at h
      have hskip : ¬isValid posted = true := by
        simp [isValid, hinvalid]
      change (posted :: next.posts batches iterations).find? _ = some write at h
      rw [List.find?_cons_of_neg hskip] at h
      rw [ih h, hkeeps]
    · generalize app.iterate batches iteration = result at h hsome
      obtain ⟨posted', outcome⟩ := result
      obtain rfl : posted' = some posted := hsome
      have htake : isValid posted = true := by
        simp [isValid, hvalid]
      have hfirst : posted = write := by
        cases outcome with
        | error status =>
          change [posted].find? _ = some write at h
          rw [List.find?_cons_of_pos htake] at h
          exact Option.some.inj h
        | ok next =>
          change (posted :: next.posts batches iterations).find? _ = some write at h
          rw [List.find?_cons_of_pos htake] at h
          exact Option.some.inj h
      rw [← hfirst, hstart]

/-- **What is missing.**  When the loop has left a grain in the middle, then whatever it
    meets, the first valid grain it sends lacks the header and the slices up to where
    the other grain had come to; and a target marks what it is sent as valid slices of
    the grain that is in the slot. -/
theorem abandoned_slices_missing {iteration : Iteration} {next : AppInitator}
    (habandons : app.Abandons iteration) (hnext : (app.iterate batches iteration).2 = .ok next)
    (iterations : List Iteration) {write : GrainWrite}
    (hfirst : (next.posts batches iterations).find? isValid = some write) :
    write.range.start ≠ 0 ∧ write.range.start = app.startSlice ∧
      ∀ n headers, 0 < n → n ≤ 65536 →
        readCompletion n (write.place n headers) (write.immData n) =
          .ok ((headers (write.slot n)).index, Function.update headers (write.slot n)
            { headers (write.slot n) with validSlices := write.range.stop }) := by
  have hkeeps : next.startSlice = app.startSlice := by
    obtain ⟨hstart, hslice⟩ := habandons
    rcases hslice with hlate | ⟨grainInfo, hinfo, hinvalid⟩
    · rw [AppInitator.iterate, hlate] at hnext
      obtain rfl := Except.ok.inj hnext
      rfl
    · rw [AppInitator.iterate, hinfo] at hnext
      dsimp only at hnext
      rw [if_pos hinvalid] at hnext
      obtain rfl := Except.ok.inj hnext
      rfl
  have hstart : write.range.start = app.startSlice := (start_of_first iterations hfirst).trans hkeeps
  have hne : write.range.start ≠ 0 := by
    rw [hstart]
    exact habandons.1
  refine ⟨hne, hstart, fun n headers hpos hmax => ?_⟩
  rw [GrainWrite.place, if_neg hne]
  exact GrainTransfer.readCompletion_eq hpos hmax headers write

end Abandoned

/-! ### A grain in two batches -/

section Example

instance (app : AppInitator) (iteration : Iteration) : Decidable (app.Abandons iteration) :=
  match h : iteration.slice with
  | .error status => decidable_of_iff (app.startSlice ≠ 0 ∧ status = .errOutOfRangeTooLate) (by
      simp [AppInitator.Abandons, h])
  | .ok grainInfo => decidable_of_iff (app.startSlice ≠ 0 ∧ grainInfo.isInvalid = true) (by
      simp [AppInitator.Abandons, h])

instance (batches : Batches) (s : Demo) (app : AppInitator) (iteration : Iteration) :
    Decidable (Proper batches s app iteration) :=
  decidable_of_iff
    ((∀ grainInfo ∈ iteration.slice.toOption, grainInfo.index = app.grainIndex) ∧
      ¬app.Abandons iteration ∧
      ∀ write ∈ (app.iterate batches iteration).1, ∀ earlier ∈ s.unread,
        earlier.slot s.grainCount = write.slot s.grainCount → earlier.info.index = write.info.index) (by
    constructor
    · rintro ⟨hlabelled, hstays, hcommitted⟩
      refine ⟨fun grainInfo hslice => hlabelled grainInfo ?_, hstays, hcommitted⟩
      rw [hslice]
      rfl
    · rintro ⟨hlabelled, hstays, hcommitted⟩
      refine ⟨fun grainInfo hslice => hlabelled grainInfo ?_, hstays, hcommitted⟩
      cases hresult : iteration.slice with
      | error status =>
        rw [hresult] at hslice
        cases hslice
      | ok info =>
        rw [hresult] at hslice
        rw [Option.some.inj hslice])

instance (batches : Batches) (s : Demo) : (action : Action) → Decidable (Usage batches s action)
  | .iterate iteration =>
      match h : s.app with
      | .error _ => isTrue fun app happ => by
          rw [h] at happ
          cases happ
      | .ok app => decidable_of_iff (Proper batches s app iteration) (by simp [Usage, h])
  | .place | .readGrain | .openGrain | .commitGrain _ => isTrue trivial

def twoSlices (validSlices : UInt16) : GrainInfo :=
  { version := 1, size := 4096, index := 3, flags := 0, grainSize := 256, totalSlices := 2
    validSlices }

def oneByOne : Batches := { slicesPerBatch := 1, totalPayloadSlices := 2 }

theorem two_pos : 0 < (2 : UInt32).toNat := Nat.zero_lt_succ 1

def twoGrains : DiscreteGeometry where
  grainCount := 2
  grainSize := 256
  totalSlices := 2
  grainCount_pos := two_pos

/-- The second batch is sent while the first is about to be committed. -/
def batchesRun : List Action :=
  [.iterate ⟨.ok (twoSlices 1), 0, .ok, .ok⟩, .place, .readGrain,
    .iterate ⟨.error .errTimeout, 0, .ok, .ok⟩, .iterate ⟨.ok (twoSlices 2), 0, .ok, .notReady⟩,
    .openGrain, .place, .commitGrain 0, .readGrain, .openGrain, .commitGrain 0]

/-- One slice of grain 3 has been sent, when it is too late for the other. -/
theorem abandoned_slices_missing_twoSlices :
    ∃ write : GrainWrite, write.info.index = 3 ∧ write.range.start ≠ 0 ∧ write.range.start = 1 ∧
      ∀ n headers, 0 < n → n ≤ 65536 →
        readCompletion n (write.place n headers) (write.immData n) =
          .ok ((headers (write.slot n)).index, Function.update headers (write.slot n)
            { headers (write.slot n) with validSlices := write.range.stop }) := by
  have habandons : AppInitator.Abandons ⟨2, 1, 2⟩ ⟨.error .errOutOfRangeTooLate, 3, .ok, .ok⟩ := by
    decide
  exact ⟨⟨twoSlices 2, 1, 2, by decide⟩, rfl,
    @abandoned_slices_missing oneByOne _ _ _ habandons rfl [⟨.ok (twoSlices 2), 3, .ok, .ok⟩] _ rfl⟩

end Example

end MediaExchange.DemoReplication
