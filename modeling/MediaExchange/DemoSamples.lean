/-
  MediaExchange/DemoSamples.lean
  ==============================
  **The demo, from a sample of the initiator's flow to a reader of the target's**
  (`tools/mxl-fabrics-demo/demo.cpp`).

  The initiator's loop waits for a batch of samples and sends it; if it is too late it
  goes on at the head of its flow.  The target's loop takes a completion, by which the
  samples are already in the rings of its flow, opens the range that is reported and
  commits it.

  One target, whose connection stands; both flows are of one geometry.  The distances
  that the initiator has skipped are kept as a ghost.

  Main result: `demo_streams`.  Nothing is sent twice or out of order, and a reader of
  the target's flow finds in every slot what was last sent there: the sample it asks
  for, unless that one was skipped.
-/
import MediaExchange.ContinuousRoundTrip
import MediaExchange.DemoReplication
import MediaExchange.SampleTransfer

namespace MediaExchange.DemoSamples

open MediaExchange.ByteMemory
open MediaExchange.DemoReplication (CallStatus)
open MediaExchange.LabelledRun
open MediaExchange.RingMemory
open MediaExchange.SampleTransfer (Transfer)

/-! ### The demo -/

/-- The head of the initiator's loop, and whether it is about to ask for another one. -/
structure AppInitator where
  headIndex : UInt64
  late : Bool
deriving DecidableEq, Repr

/-- Where the target's loop is, with the transfer whose completion it is about. -/
inductive TargetPhase where
  | reading
  | opening (transfer : Transfer) (header : AudioEntryHeader)
  | committing (transfer : Transfer)
  | returned

def TargetPhase.handled : TargetPhase → List Transfer
  | .opening transfer _ | .committing transfer => [transfer]
  | .reading | .returned => []

/-- The rings of the two flows are those that the fabric reads and writes. -/
structure Demo where
  app : Except CallStatus AppInitator
  sourceFlow : ContinuousFlowData
  fabric : SampleTransfer.System
  targetFlow : ContinuousFlowData
  writer : PosixContinuousFlowWriter
  phase : TargetPhase
  commits : List Transfer
  skipped : List Nat

namespace Demo

def source (s : Demo) : ContinuousFlowData :=
  { s.sourceFlow with channelData := s.fabric.samples.bytes }

def target (s : Demo) : ContinuousFlowData :=
  { s.targetFlow with channelData := s.fabric.outRegion.bytes }

def init (source target : ContinuousFlowData) (fabric : SampleTransfer.System) : Demo where
  app := .ok { headIndex := source.headIndex, late := false }
  sourceFlow := source
  fabric := fabric
  targetFlow := target
  writer := .init target
  phase := .reading
  commits := []
  skipped := []

end Demo

inductive Action where
  | produce (address : Nat) (value : UInt8)
  | publish (headIndex : UInt64)
  | getSamples (flowValid : Bool) (transfer progress : CallStatus)
  | getRuntimeInfo
  | gather
  | place
  | readSamples
  | openSamples
  | commitSamples

/-- What follows a transfer in `AppInitator::runContinuous`, by what `makeProgress` has last
    returned when the loop around it is left. -/
def afterTransfer (batchSize headIndex : UInt64) : CallStatus → Except CallStatus AppInitator
  | .interrupted => .error .ok
  | .timeout => .error .timeout
  | .other => .error .other
  | .ok | .notReady => .ok { headIndex := headIndex + batchSize, late := false }

/-- The range of the samples that are there is transferred. -/
def transferSamples (iovLimit batchSize : UInt64) (s : Demo) (headIndex : UInt64)
    (progress : CallStatus) : CallStatus → Option Demo
  | .notReady => some s
  | .ok =>
      match s.fabric.proto.transferSamples iovLimit headIndex batchSize,
        SampleTransfer.step iovLimit s.fabric (.transferSamples headIndex batchSize) with
      | (_, .ok (), _), some fabric =>
          some { s with fabric := fabric, app := afterTransfer batchSize headIndex progress }
      | (_, .error _, _), some fabric => some { s with fabric := fabric, app := .error .other }
      | _, none => none
  | status => some { s with app := .error status }

def step (iovLimit batchSize : UInt64) (s : Demo) : Action → Option Demo
  | .produce address value =>
      (SampleTransfer.step iovLimit s.fabric (.produce address value)).map fun fabric =>
        { s with fabric := fabric }
  | .publish headIndex => some { s with sourceFlow := { s.sourceFlow with headIndex := headIndex } }
  | .getSamples flowValid transfer progress =>
      match s.app with
      | .ok ⟨headIndex, false⟩ =>
          match s.source.getSamples flowValid headIndex batchSize with
          | .error .errOutOfRangeTooLate => some { s with app := .ok ⟨headIndex, true⟩ }
          | .error _ => some s
          | .ok _ => transferSamples iovLimit batchSize s headIndex progress transfer
      | _ => none
  | .getRuntimeInfo =>
      match s.app with
      | .ok ⟨headIndex, true⟩ =>
          some { s with app := .ok ⟨s.source.headIndex, false⟩
                        skipped := s.skipped ++ [s.source.headIndex.toNat - headIndex.toNat] }
      | _ => none
  | .gather =>
      (SampleTransfer.step iovLimit s.fabric .gather).map fun fabric => { s with fabric := fabric }
  | .place =>
      (SampleTransfer.step iovLimit s.fabric .place).map fun fabric => { s with fabric := fabric }
  | .readSamples =>
      match s.phase, SampleTransfer.step iovLimit s.fabric .read with
      | .reading, some fabric =>
          match fabric.reads.getLast? with
          | some ⟨transfer, some (header, _)⟩ =>
              some { s with fabric := fabric, phase := .opening transfer header }
          | _ => some { s with fabric := fabric, phase := .returned }
      | _, _ => none
  | .openSamples =>
      match s.phase with
      | .opening transfer header =>
          match s.writer.openSamples s.target header.headIndex header.count with
          | (.statusOk, _, writer) =>
              some { s with writer := writer, phase := .committing transfer }
          | (_, _, writer) => some { s with writer := writer, phase := .returned }
      | _ => none
  | .commitSamples =>
      match s.phase with
      | .committing transfer =>
          match s.writer.commit s.target with
          | (.statusOk, writer, flow) =>
              some { s with writer := writer, targetFlow := flow, phase := .reading
                            commits := s.commits ++ [transfer] }
          | (_, writer, flow) =>
              some { s with writer := writer, targetFlow := flow, phase := .returned }
      | _ => none

/-! ### How it is used -/

/-- The head of the initiator's flow does not go back and stays away from the end of the
    index space; the fabric is used as it has to be. -/
def Usage (iovLimit batchSize : UInt64) (s : Demo) : Action → Prop
  | .produce address _ => ¬ s.fabric.StillToRead address
  | .publish headIndex => s.sourceFlow.headIndex.toNat ≤ headIndex.toNat ∧
      headIndex.toNat + s.sourceFlow.bufferLength.toNat < 2 ^ 64
  | .getSamples _ .ok _ => s.fabric.SlotFree ∧ ∀ app ∈ s.app.toOption,
      (s.fabric.proto.transferGroup app.headIndex batchSize).length + iovLimit.toNat ≤ 2 ^ 64
  | .place => s.fabric.EntryRead
  | _ => True

instance (iovLimit batchSize : UInt64) (s : Demo) :
    (action : Action) → Decidable (Usage iovLimit batchSize s action)
  | .produce _ _ => inferInstanceAs (Decidable (¬ _))
  | .publish _ => inferInstanceAs (Decidable (_ ∧ _))
  | .getSamples _ .ok _ => inferInstanceAs (Decidable (_ ∧ ∀ app ∈ s.app.toOption, _))
  | .place => inferInstanceAs (Decidable s.fabric.EntryRead)
  | .getSamples _ .notReady _ | .getSamples _ .interrupted _ | .getSamples _ .timeout _
  | .getSamples _ .other _ | .getRuntimeInfo | .gather | .readSamples | .openSamples
  | .commitSamples => isTrue trivial

/-! ### What is to hold -/

/-- The rings of a flow, as the fabrics library sees them. -/
structure HasLayout (layout : ContinuousDataLayout) (flow : ContinuousFlowData) : Prop where
  sampleSize : flow.sampleWordSize = layout.sampleSize
  channelCount : flow.channelCount.toUInt64 = layout.channelCount
  bufferLength : flow.channelBufferLength = layout.bufferLength

/-- The samples of a transfer. -/
def Covers (transfer : Transfer) (sample : Int) : Prop :=
  (transfer.header.headIndex.toNat : Int) - transfer.header.count.toNat < sample ∧
    sample ≤ transfer.header.headIndex.toNat

instance (transfer : Transfer) (sample : Int) : Decidable (Covers transfer sample) :=
  inferInstanceAs (Decidable (_ ∧ _))

/-- What was sent of a byte of a sample, as the initiator's rings had it. -/
def sent (flow : ContinuousFlowData) (transfers : List Transfer) (channel byte : Nat)
    (sample : Int) : Option UInt8 :=
  (transfers.find? fun transfer => decide (Covers transfer sample)).map fun transfer =>
    transfer.samples (sampleCell flow channel byte sample)

/-- The ranges are batches, each behind those before it. -/
structure InOrder (batchSize : UInt64) (transfers : List Transfer) : Prop where
  batches : ∀ transfer ∈ transfers, transfer.header.count = batchSize ∧
    batchSize.toNat ≤ transfer.header.headIndex.toNat
  ascending : transfers.Pairwise fun a b =>
    a.header.headIndex.toNat + batchSize.toNat ≤ b.header.headIndex.toNat

/-- What is to hold of the demo that began at a head. -/
structure Streams (batchSize : UInt64) (first : UInt64) (s : Demo) : Prop where
  /-- Every transfer is committed once, in order, or still on its way. -/
  order : s.commits ++ s.phase.handled ++ s.fabric.completions.map Prod.snd ++
    SampleTransfer.inFlight (s.fabric.carried.map Prod.fst ++ s.fabric.posted) = s.fabric.transfers
  ranges : InOrder batchSize s.fabric.transfers
  /-- What the initiator has gone past it has sent or skipped. -/
  accounted : ∀ app, s.app = .ok app → app.headIndex.toNat =
    first.toNat + batchSize.toNat * s.fabric.transfers.length + s.skipped.sum
  running : s.phase ≠ .returned
  head : ∀ front transfer, s.commits = front ++ [transfer] →
    s.target.headIndex = transfer.header.headIndex
  /-- A reader finds a sample `laps` rounds back if nothing was sent in the rounds since. -/
  shown : ∀ (index count : UInt64) slices, s.target.getSamplesImpl index count = .ok slices →
    ∀ channel < s.target.channelCount.toNat, ∀ k < count.toNat,
    ∀ byte < s.target.sampleWordSize.toNat, ∀ (laps : Nat) value,
    sent s.target s.commits channel byte
        (index.toNat - count.toNat + 1 + k - laps * s.target.bufferLength.toNat) = some value →
    (∀ rounds < laps, sent s.target s.commits channel byte
        (index.toNat - count.toNat + 1 + k - rounds * s.target.bufferLength.toNat) = none) →
    (∀ transfer ∈ s.phase.handled, transfer.header.headIndex.toNat + count.toNat ≤
        index.toNat + k + s.target.bufferLength.toNat) →
    s.target.channelData (byteAddress slices channel (s.target.sampleWordSize.toNat * k + byte)) =
      value

/-! ### Ranges and their samples -/

section Ranges

variable {flow : ContinuousFlowData} {batchSize : UInt64} {transfers : List Transfer}
  {transfer : Transfer} {channel byte : Nat} {sample : Int} {value : UInt8}

theorem sent_eq_some : sent flow transfers channel byte sample = some value ↔
    ∃ transfer, transfers.find? (fun transfer => decide (Covers transfer sample)) = some transfer ∧
      transfer.samples (sampleCell flow channel byte sample) = value := by
  rw [sent, Option.map_eq_some_iff]

theorem covers_of_sent (h : sent flow transfers channel byte sample = some value) :
    ∃ transfer ∈ transfers, Covers transfer sample := by
  obtain ⟨transfer, hfind, -⟩ := sent_eq_some.mp h
  have hcovers := List.find?_some hfind
  exact ⟨transfer, List.mem_of_find?_eq_some hfind, by simpa using hcovers⟩

theorem sent_eq_none : sent flow transfers channel byte sample = none ↔
    ∀ transfer ∈ transfers, ¬ Covers transfer sample := by
  simp [sent]

theorem sent_append_of_not_covers (h : ¬ Covers transfer sample) :
    sent flow (transfers ++ [transfer]) channel byte sample =
      sent flow transfers channel byte sample := by
  have hfalse : decide (Covers transfer sample) = false := decide_eq_false h
  have hnone : [transfer].find? (fun transfer => decide (Covers transfer sample)) = none := by
    rw [List.find?_cons, hfalse]
    rfl
  rw [sent, sent, List.find?_append, hnone, Option.or_none]

theorem sent_append_of_covers (hnew : ∀ earlier ∈ transfers, ¬ Covers earlier sample)
    (h : Covers transfer sample) :
    sent flow (transfers ++ [transfer]) channel byte sample =
      some (transfer.samples (sampleCell flow channel byte sample)) := by
  have hnone : transfers.find? (fun transfer => decide (Covers transfer sample)) = none := by
    rw [List.find?_eq_none]
    intro earlier hmem hcovers
    exact hnew earlier hmem (of_decide_eq_true hcovers)
  have hsome : [transfer].find? (fun transfer => decide (Covers transfer sample)) =
      some transfer := by
    rw [List.find?_cons, decide_eq_true h]
  rw [sent, List.find?_append, hnone, hsome]
  rfl

theorem InOrder.append (h : InOrder batchSize transfers)
    (hcount : transfer.header.count = batchSize)
    (hroom : batchSize.toNat ≤ transfer.header.headIndex.toNat)
    (hbehind : ∀ earlier ∈ transfers,
      earlier.header.headIndex.toNat + batchSize.toNat ≤ transfer.header.headIndex.toNat) :
    InOrder batchSize (transfers ++ [transfer]) := by
  constructor
  · intro other hmem
    rcases List.mem_append.mp hmem with hold | hnew
    · exact h.batches other hold
    · rw [List.mem_singleton.mp hnew]
      exact ⟨hcount, hroom⟩
  · rw [List.pairwise_append]
    refine ⟨h.ascending, List.pairwise_singleton _ _, ?_⟩
    intro earlier hearlier other hother
    rw [List.mem_singleton.mp hother]
    exact hbehind earlier hearlier

/-- A range is behind what those before it cover. -/
theorem InOrder.behind {front rest : List Transfer}
    (h : InOrder batchSize (front ++ transfer :: rest)) (hcovers : Covers transfer sample)
    {earlier : Transfer} (hearlier : earlier ∈ front) :
    (earlier.header.headIndex.toNat : Int) < sample := by
  have hcount := (h.batches transfer (List.mem_append_right _ (List.mem_cons_self ..))).1
  have hascending := (List.pairwise_append.mp h.ascending).2.2 earlier hearlier transfer
    (List.mem_cons_self ..)
  have hlow := hcovers.1
  rw [hcount] at hlow
  omega

/-- The heads ascend. -/
theorem InOrder.le_last {front : List Transfer} (h : InOrder batchSize (front ++ [transfer]))
    {earlier : Transfer} (hearlier : earlier ∈ front ++ [transfer]) :
    earlier.header.headIndex.toNat ≤ transfer.header.headIndex.toNat := by
  rcases List.mem_append.mp hearlier with hold | hlast
  · have hascending := (List.pairwise_append.mp h.ascending).2.2 earlier hold transfer
      (List.mem_singleton_self _)
    omega
  · rw [List.mem_singleton.mp hlast]

end Ranges

/-! ### Cells of the rings -/

section Cells

variable {layout : ContinuousDataLayout} {flow : ContinuousFlowData}

theorem HasLayout.toNat_bufferLength (h : HasLayout layout flow) :
    layout.bufferLength.toNat = flow.bufferLength.toNat := by
  rw [← h.bufferLength, ContinuousFlowData.toNat_channelBufferLength]

theorem HasLayout.toNat_channelCount (h : HasLayout layout flow) :
    layout.channelCount.toNat = flow.channelCount.toNat := by
  rw [← h.channelCount, UInt32.toNat_toUInt64]

theorem HasLayout.sampleCell_eq (h : HasLayout layout flow) (channel byte : Nat) (sample : Int) :
    sampleCell flow channel byte sample =
      layout.sampleByte channel (sampleSlot flow sample) byte := by
  rw [sampleCell, ContinuousDataLayout.sampleByte, h.sampleSize, h.toNat_bufferLength]

/-- The cells of a range are those of the samples it covers. -/
theorem HasLayout.inRange_iff (h : HasLayout layout flow) {transfer : Transfer}
    (hcount : transfer.header.count.toNat ≤ transfer.header.headIndex.toNat) {channel byte : Nat}
    (hchannel : channel < flow.channelCount.toNat) (hbyte : byte < flow.sampleWordSize.toNat)
    {sample : Int} :
    layout.InRange transfer.header.headIndex transfer.header.count
        (sampleCell flow channel byte sample) ↔
      ∃ other, Covers transfer other ∧
        sampleCell flow channel byte other = sampleCell flow channel byte sample := by
  have hslot : ∀ k < transfer.header.count.toNat,
      (transfer.header.headIndex.toNat + layout.bufferLength.toNat - transfer.header.count.toNat +
        k) % layout.bufferLength.toNat =
      sampleSlot flow (transfer.header.headIndex.toNat - transfer.header.count.toNat + 1 + k) := by
    intro k _
    have hcast : (transfer.header.headIndex.toNat - transfer.header.count.toNat + 1 + k + -1 :
        Int) + flow.bufferLength.toNat =
          (transfer.header.headIndex.toNat + flow.bufferLength.toNat -
          transfer.header.count.toNat + k : Nat) := by omega
    rw [h.toNat_bufferLength, sampleSlot, ← Int.add_emod_right, hcast]
    rfl
  constructor
  · rintro ⟨channel', hchannel', k, hk, byte', hbyte', heq⟩
    refine ⟨transfer.header.headIndex.toNat - transfer.header.count.toNat + 1 + k, ?_, ?_⟩
    · constructor
      · omega
      · omega
    · rw [heq, hslot k hk]
      rw [hslot k hk, ← h.sampleCell_eq] at heq
      rw [← h.sampleSize] at hbyte'
      obtain ⟨rfl, rfl, -⟩ := sampleCell_inj flow hbyte hbyte' heq
      exact h.sampleCell_eq ..
  · rintro ⟨other, ⟨hlow, hhigh⟩, heq⟩
    refine ⟨channel, ?_, (other - (transfer.header.headIndex.toNat -
      transfer.header.count.toNat + 1)).toNat, by omega, byte, ?_, ?_⟩
    · rw [h.toNat_channelCount]
      exact hchannel
    · rw [← h.sampleSize]
      exact hbyte
    · have hother : other = transfer.header.headIndex.toNat - transfer.header.count.toNat + 1 +
          ((other - (transfer.header.headIndex.toNat -
            transfer.header.count.toNat + 1)).toNat : Int) := by omega
      rw [hslot _ (by omega), ← hother, ← h.sampleCell_eq, heq]

end Cells

/-! ### Steps of the fabric -/

section Fabric

variable {iovLimit : UInt64} {s t : SampleTransfer.System}

/-- What the initiator and the fabric leave alone. -/
structure SameAtTarget (s t : SampleTransfer.System) : Prop where
  layout : t.proto.layout = s.proto.layout
  reads : t.reads = s.reads
  outRegion : t.outRegion = s.outRegion

theorem sameAtTarget_gather (h : SampleTransfer.step iovLimit s .gather = some t) :
    SameAtTarget s t ∧ t.transfers = s.transfers := by
  rcases hposted : s.posted with _ | ⟨packet, posted⟩
  · simp [SampleTransfer.step, hposted] at h
  · simp only [SampleTransfer.step, hposted] at h
    split at h
    · cases h
    · obtain rfl := Option.some.inj h
      exact ⟨⟨rfl, rfl, rfl⟩, rfl⟩

theorem sameAtTarget_place (h : SampleTransfer.step iovLimit s .place = some t) :
    SameAtTarget s t ∧ t.transfers = s.transfers := by
  rcases hcarried : s.carried with _ | ⟨⟨packet, values⟩, carried⟩
  · simp [SampleTransfer.step, hcarried] at h
  · simp only [SampleTransfer.step, hcarried] at h
    split at h
    · cases h
    · obtain rfl := Option.some.inj h
      exact ⟨⟨rfl, rfl, rfl⟩, rfl⟩
    · obtain rfl := Option.some.inj h
      exact ⟨⟨rfl, rfl, rfl⟩, rfl⟩

theorem layout_transferSamples (proto : RMASampleEgressProtocol) (headIndex count : UInt64) :
    (proto.transferSamples iovLimit headIndex count).2.2.layout = proto.layout := by
  unfold RMASampleEgressProtocol.transferSamples
  split
  · rfl
  · split
    · rfl
    · dsimp only
      split
      · rfl
      · rfl

/-- A transfer is noted if the call succeeds. -/
theorem step_transferSamples (headIndex count : UInt64) :
    ∃ t, SampleTransfer.step iovLimit s (.transferSamples headIndex count) = some t ∧
      SameAtTarget s t ∧
      (((s.proto.transferSamples iovLimit headIndex count).2.1 = .ok () ∧
          t.transfers = s.transfers ++ [⟨⟨headIndex, count⟩, s.proto.bounceBufferEntryIndex,
            s.samples.bytes⟩]) ∨
        ((∃ exception, (s.proto.transferSamples iovLimit headIndex count).2.1 = .error exception) ∧
          t.transfers = s.transfers)) := by
  have hlayout := @layout_transferSamples iovLimit s.proto headIndex count
  rcases hcall : s.proto.transferSamples iovLimit headIndex count with ⟨writes, result, proto⟩
  rw [hcall] at hlayout
  simp only [SampleTransfer.step, hcall]
  cases result with
  | ok u => exact ⟨_, rfl, ⟨hlayout, rfl, rfl⟩, Or.inl ⟨rfl, rfl⟩⟩
  | error exception => exact ⟨_, rfl, ⟨hlayout, rfl, rfl⟩, Or.inr ⟨⟨exception, rfl⟩, rfl⟩⟩

/-- A read unpacks the range of the oldest completion into the rings. -/
theorem step_read (hs : SampleTransfer.Invariant s)
    (h : SampleTransfer.step iovLimit s .read = some t) :
    ∃ transfer bytes, t = { s with
        completions := s.completions.tail
        outRegion := { s.outRegion with bytes := bytes }
        reads := s.reads ++ [⟨transfer, some (transfer.header, bytes)⟩] } ∧
      s.completions.map Prod.snd = transfer :: s.completions.tail.map Prod.snd ∧
      Copied (s.proto.layout.InRange transfer.header.headIndex transfer.header.count)
        transfer.samples s.outRegion.bytes bytes := by
  rcases hcompletions : s.completions with _ | ⟨⟨immData, transfer⟩, completions⟩
  · simp [SampleTransfer.step, hcompletions] at h
  · obtain ⟨himm, hsendable, entry, hentry, hload⟩ :=
      hs.completions (immData, transfer) (by rw [hcompletions]; exact List.mem_cons_self ..)
    rw [hsendable.length_bytes] at hload
    have hload' : load entry.bytes 0 (16 + s.proto.layout.channelCount.toNat *
        (s.proto.layout.sampleSize.toNat * transfer.header.count.toNat)) =
          transfer.header.bytes ++ gather transfer.samples ((channelPieces (s.proto.layout.slices
            transfer.header.headIndex transfer.header.count s.outRegion.base)).map
              (BufferSlice.piece s.outRegion)) := by
      rw [hload, pieces_eq hsendable.le s.outRegion ⟨0, 0, fun _ => 0⟩]
      rfl
    have hfits : 16 + s.proto.layout.channelCount.toNat *
        (s.proto.layout.sampleSize.toNat * transfer.header.count.toNat) ≤
          s.buffer.entrySize.toNat := by
      rw [hs.connected.entrySize]
      exact hsendable.fits
    obtain ⟨bytes, hunpack, hcopied⟩ := AudioBounceBuffer.unpack_eq hs.connected.layout hentry
      s.outRegion hs.rings transfer.header hsendable.le hsendable.laysOutWindow hfits hload'
    obtain rfl : immData = transfer.entry := himm
    simp only [SampleTransfer.step, hcompletions, hunpack] at h
    obtain rfl := Option.some.inj h
    refine ⟨transfer, bytes, rfl, rfl, hcopied.congr ?_⟩
    exact (inWindow_iff_inRange hsendable.pos hsendable.le).mpr hsendable.wraps

end Fabric

/-! ### The invariant -/

/-- What the target's loop has in its hands. -/
def PhaseHolds (writer : PosixContinuousFlowWriter) : TargetPhase → Prop
  | .reading => True
  | .opening transfer header => header = transfer.header
  | .committing transfer => writer.currentIndex = transfer.header.headIndex
  | .returned => False

/-- The initiator's loop is behind what it has sent, by what it has skipped. -/
structure Ahead (batchSize first head : UInt64) (transfers : List Transfer) (skipped : List Nat)
    (app : AppInitator) : Prop where
  behind : ∀ transfer ∈ transfers,
    transfer.header.headIndex.toNat + batchSize.toNat ≤ app.headIndex.toNat
  late : app.late = true → app.headIndex.toNat ≤ head.toNat
  accounted : app.headIndex.toNat =
    first.toNat + batchSize.toNat * transfers.length + skipped.sum

structure Invariant (batchSize first : UInt64) (s : Demo) : Prop where
  fabric : SampleTransfer.Invariant s.fabric
  source : HasLayout s.fabric.proto.layout s.sourceFlow
  target : HasLayout s.fabric.proto.layout s.targetFlow
  room : s.sourceFlow.headIndex.toNat + s.sourceFlow.bufferLength.toNat < 2 ^ 64
  read : s.fabric.reads.map SampleTransfer.SampleRead.transfer = s.commits ++ s.phase.handled
  ranges : InOrder batchSize s.fabric.transfers
  fits : ∀ transfer ∈ s.fabric.transfers,
    transfer.header.headIndex.toNat ≤ s.sourceFlow.headIndex.toNat ∧
      transfer.header.count.toNat ≤ s.sourceFlow.bufferLength.toNat / 2
  app : ∀ app, s.app = .ok app →
    Ahead batchSize first s.sourceFlow.headIndex s.fabric.transfers s.skipped app
  phase : PhaseHolds s.writer s.phase
  head : ∀ front transfer, s.commits = front ++ [transfer] →
    s.targetFlow.headIndex = transfer.header.headIndex
  /-- In each slot of the rings is what was read into it last. -/
  latest : ∀ channel < s.targetFlow.channelCount.toNat,
    ∀ byte < s.targetFlow.sampleWordSize.toNat,
    HoldsLatest (sampleCell s.targetFlow channel byte) s.fabric.outRegion.bytes
      (sent s.targetFlow (s.commits ++ s.phase.handled) channel byte)

theorem invariant_init {source target : ContinuousFlowData} {fabric : SampleTransfer.System}
    {batchSize : UInt64} (hfabric : SampleTransfer.Invariant fabric)
    (hsource : HasLayout fabric.proto.layout source)
    (htarget : HasLayout fabric.proto.layout target)
    (hroom : source.headIndex.toNat + source.bufferLength.toNat < 2 ^ 64)
    (htransfers : fabric.transfers = []) (hreads : fabric.reads = []) :
    Invariant batchSize source.headIndex (.init source target fabric) where
  fabric := hfabric
  source := hsource
  target := htarget
  room := hroom
  read := by
    change fabric.reads.map _ = _
    rw [hreads]
    rfl
  ranges := by
    change InOrder batchSize fabric.transfers
    rw [htransfers]
    exact ⟨by simp, List.Pairwise.nil⟩
  fits := by
    change ∀ transfer ∈ fabric.transfers, _
    simp [htransfers]
  app := by
    intro app happ
    obtain rfl := Except.ok.inj happ
    change Ahead _ _ _ fabric.transfers [] _
    rw [htransfers]
    refine ⟨?_, ?_, rfl⟩
    · intro transfer hmem
      cases hmem
    · intro hlate
      cases hlate
  phase := trivial
  head := by
    intro front transfer hsplit
    simp [Demo.init] at hsplit
  latest := by
    intro channel _ byte _
    exact holdsLatest_empty

section Steps

variable {iovLimit batchSize first : UInt64} {s t : Demo}

/-- The initiator and the fabric may do what does not concern the target's rings. -/
theorem Invariant.of_fabric (hs : Invariant batchSize first s) {fabric : SampleTransfer.System}
    {app : Except CallStatus AppInitator} (hfabric : SampleTransfer.Invariant fabric)
    (hsame : SameAtTarget s.fabric fabric) (hranges : InOrder batchSize fabric.transfers)
    (hfits : ∀ transfer ∈ fabric.transfers,
      transfer.header.headIndex.toNat ≤ s.sourceFlow.headIndex.toNat ∧
        transfer.header.count.toNat ≤ s.sourceFlow.bufferLength.toNat / 2)
    (happ : ∀ next, app = .ok next →
      Ahead batchSize first s.sourceFlow.headIndex fabric.transfers s.skipped next) :
    Invariant batchSize first { s with fabric := fabric, app := app } where
  fabric := hfabric
  source := by
    rw [hsame.layout]
    exact hs.source
  target := by
    rw [hsame.layout]
    exact hs.target
  room := hs.room
  read := by
    rw [hsame.reads]
    exact hs.read
  ranges := hranges
  fits := hfits
  app := happ
  phase := hs.phase
  head := hs.head
  latest := by
    rw [hsame.outRegion]
    exact hs.latest

theorem Invariant.of_sameTransfers (hs : Invariant batchSize first s)
    {fabric : SampleTransfer.System} (hfabric : SampleTransfer.Invariant fabric)
    (hsame : SameAtTarget s.fabric fabric) (htransfers : fabric.transfers = s.fabric.transfers) :
    Invariant batchSize first { s with fabric := fabric } := by
  apply hs.of_fabric hfabric hsame
  · rw [htransfers]
    exact hs.ranges
  · rw [htransfers]
    exact hs.fits
  · rw [htransfers]
    exact hs.app

theorem invariant_publish (hs : Invariant batchSize first s) {headIndex : UInt64}
    (hle : s.sourceFlow.headIndex.toNat ≤ headIndex.toNat)
    (hroom : headIndex.toNat + s.sourceFlow.bufferLength.toNat < 2 ^ 64) :
    Invariant batchSize first
      { s with sourceFlow := { s.sourceFlow with headIndex := headIndex } } where
  fabric := hs.fabric
  source := ⟨hs.source.sampleSize, hs.source.channelCount, hs.source.bufferLength⟩
  target := hs.target
  room := hroom
  read := hs.read
  ranges := hs.ranges
  fits := fun transfer hmem => ⟨(hs.fits transfer hmem).1.trans hle, (hs.fits transfer hmem).2⟩
  app := by
    intro app happ
    obtain ⟨hbehind, hlate, haccounted⟩ := hs.app app happ
    exact ⟨hbehind, fun h => (hlate h).trans hle, haccounted⟩
  phase := hs.phase
  head := hs.head
  latest := hs.latest

/-- The initiator's loop may be anywhere that is ahead. -/
theorem Invariant.of_app (hs : Invariant batchSize first s) {app : Except CallStatus AppInitator}
    {skipped : List Nat} (happ : ∀ next, app = .ok next →
      Ahead batchSize first s.sourceFlow.headIndex s.fabric.transfers skipped next) :
    Invariant batchSize first { s with app := app, skipped := skipped } where
  fabric := hs.fabric
  source := hs.source
  target := hs.target
  room := hs.room
  read := hs.read
  ranges := hs.ranges
  fits := hs.fits
  app := happ
  phase := hs.phase
  head := hs.head
  latest := hs.latest

/-- The samples of a transfer are there: their range is in the half of the rings that
    is behind the head. -/
theorem invariant_transferSamples (hlimit : 0 < iovLimit.toNat) (hbatch : 0 < batchSize.toNat)
    (hs : Invariant batchSize first s) {headIndex : UInt64}
    (happ : s.app = .ok ⟨headIndex, false⟩) {flowValid : Bool} {slices : WrappedMultiBufferSlice}
    (hsamples : s.source.getSamples flowValid headIndex batchSize = .ok slices)
    {transfer progress : CallStatus}
    (husage : transfer = .ok → s.fabric.SlotFree ∧
      (s.fabric.proto.transferGroup headIndex batchSize).length + iovLimit.toNat ≤ 2 ^ 64)
    (h : transferSamples iovLimit batchSize s headIndex progress transfer = some t) :
    Invariant batchSize first t := by
  obtain ⟨hhead, hcount, hhalf, -⟩ := ContinuousFlowData.getSamplesImpl_eq_ok.mp
    (ContinuousFlowData.getSamples_eq_ok.mp hsamples)
  change headIndex.toNat ≤ s.sourceFlow.headIndex.toNat at hhead
  change s.sourceFlow.headIndex.toNat + batchSize.toNat ≤
    headIndex.toNat + s.sourceFlow.bufferLength.toNat / 2 at hhalf
  have hroom := hs.room
  have hlength := hs.source.toNat_bufferLength
  have hfit : batchSize.toNat ≤ s.sourceFlow.bufferLength.toNat / 2 := by omega
  obtain ⟨hbehind, -, haccounted⟩ := hs.app _ happ
  dsimp only at hbehind haccounted
  cases transfer with
  | notReady =>
    obtain rfl := Option.some.inj h
    exact hs
  | interrupted | timeout | other =>
    obtain rfl := Option.some.inj h
    exact hs.of_app fun next hnext => by cases hnext
  | ok =>
    obtain ⟨hfree, hgroup⟩ := husage rfl
    obtain ⟨fabric, hstep, hsame, hresult⟩ :=
      @step_transferSamples iovLimit s.fabric headIndex batchSize
    have hfabric : SampleTransfer.Invariant fabric := by
      apply SampleTransfer.invariant_transferSamples hlimit hs.fabric _ _ hstep
      · exact ⟨hbatch, by omega, hgroup⟩
      · exact ⟨hfree, wrapsUnnoticed_of_lt (by omega)⟩
    rcases hcall : s.fabric.proto.transferSamples iovLimit headIndex batchSize with
      ⟨writes, result, proto⟩
    rw [hcall] at hresult
    simp only [transferSamples, hcall, hstep] at h
    rcases hresult with ⟨hok, htransfers⟩ | ⟨⟨exception, herror⟩, htransfers⟩
    · obtain rfl : result = .ok () := hok
      obtain rfl := Option.some.inj h
      have hnew : ∀ transfer ∈ fabric.transfers, transfer ∈ s.fabric.transfers ∨
          transfer.header = ⟨headIndex, batchSize⟩ := by
        intro transfer hmem
        rw [htransfers] at hmem
        rcases List.mem_append.mp hmem with hold | hnew
        · exact Or.inl hold
        · rw [List.mem_singleton.mp hnew]
          exact Or.inr rfl
      apply hs.of_fabric hfabric hsame
      · rw [htransfers]
        exact hs.ranges.append rfl hcount hbehind
      · intro transfer hmem
        rcases hnew transfer hmem with hold | hheader
        · exact hs.fits transfer hold
        · rw [hheader]
          exact ⟨hhead, hfit⟩
      · intro next hnext
        have hadd : (headIndex + batchSize).toNat = headIndex.toNat + batchSize.toNat := by
          rw [UInt64.toNat_add, Nat.mod_eq_of_lt (by omega)]
        obtain rfl : next = ⟨headIndex + batchSize, false⟩ := by
          cases progress with
          | ok | notReady => exact (Except.ok.inj hnext).symm
          | interrupted | timeout | other => cases hnext
        refine ⟨?_, ?_, ?_⟩
        · intro transfer hmem
          rw [hadd]
          rcases hnew transfer hmem with hold | hheader
          · exact (hbehind transfer hold).trans (Nat.le_add_right _ _)
          · rw [hheader]
        · intro hlate
          cases hlate
        · rw [hadd, haccounted, htransfers, List.length_append, List.length_singleton, Nat.mul_succ]
          omega
    · obtain rfl : result = .error exception := herror
      obtain rfl := Option.some.inj h
      exact (hs.of_sameTransfers hfabric hsame htransfers).of_app fun next hnext => by cases hnext

theorem le_head_of_tooLate {flow : ContinuousFlowData} {flowValid : Bool} {index count : UInt64}
    (h : flow.getSamples flowValid index count = .error .errOutOfRangeTooLate) :
    index.toNat ≤ flow.headIndex.toNat := by
  by_cases hhead : index ≤ flow.headIndex
  · exact UInt64.le_iff_toNat_le.mp hhead
  · simp only [ContinuousFlowData.getSamples, ContinuousFlowData.getSamplesImpl, if_neg hhead] at h
    cases flowValid with
    | true => cases h
    | false => cases h

theorem invariant_getSamples (hlimit : 0 < iovLimit.toNat) (hbatch : 0 < batchSize.toNat)
    (hs : Invariant batchSize first s) {flowValid : Bool} {transfer progress : CallStatus}
    (husage : Usage iovLimit batchSize s (.getSamples flowValid transfer progress))
    (h : step iovLimit batchSize s (.getSamples flowValid transfer progress) = some t) :
    Invariant batchSize first t := by
  simp only [step] at h
  split at h
  · rename_i headIndex happ
    split at h
    · rename_i hlate
      obtain rfl := Option.some.inj h
      obtain ⟨hbehind, -, haccounted⟩ := hs.app _ happ
      apply hs.of_app
      intro next hnext
      obtain rfl := Except.ok.inj hnext
      exact ⟨hbehind, fun _ => le_head_of_tooLate hlate, haccounted⟩
    · obtain rfl := Option.some.inj h
      exact hs
    · rename_i slices hsamples
      apply invariant_transferSamples hlimit hbatch hs happ hsamples _ h
      intro hok
      subst hok
      obtain ⟨hfree, hgroup⟩ := husage
      have hroom := hgroup ⟨headIndex, false⟩ (by rw [happ]; rfl)
      exact ⟨hfree, hroom⟩
  · cases h

theorem invariant_getRuntimeInfo (hs : Invariant batchSize first s)
    (h : step iovLimit batchSize s .getRuntimeInfo = some t) : Invariant batchSize first t := by
  simp only [step] at h
  split at h
  · rename_i headIndex happ
    obtain rfl := Option.some.inj h
    obtain ⟨hbehind, hlate, haccounted⟩ := hs.app _ happ
    have hle : headIndex.toNat ≤ s.sourceFlow.headIndex.toNat := hlate rfl
    dsimp only at haccounted
    apply hs.of_app
    intro next hnext
    obtain rfl := Except.ok.inj hnext
    refine ⟨?_, ?_, ?_⟩
    · intro transfer hmem
      exact (hbehind transfer hmem).trans hle
    · intro hlate
      cases hlate
    · change s.sourceFlow.headIndex.toNat = _ + _ +
        (s.skipped ++ [s.sourceFlow.headIndex.toNat - headIndex.toNat]).sum
      rw [List.sum_append, List.sum_singleton]
      omega
  · cases h

/-- The transfers, in the order in which they are committed. -/
theorem Invariant.order (hs : Invariant batchSize first s) :
    s.commits ++ s.phase.handled ++ s.fabric.completions.map Prod.snd ++
      SampleTransfer.inFlight (s.fabric.carried.map Prod.fst ++ s.fabric.posted) =
        s.fabric.transfers := by
  rw [← hs.read]
  exact hs.fabric.faithful.order

theorem Invariant.mem_transfers (hs : Invariant batchSize first s) {transfer : Transfer}
    (hmem : transfer ∈ s.commits ++ s.phase.handled) : transfer ∈ s.fabric.transfers := by
  rw [← hs.order]
  exact List.mem_append_left _ (List.mem_append_left _ hmem)

/-- The oldest completion's range is in the rings before it is committed. -/
theorem invariant_readSamples (hs : Invariant batchSize first s)
    (h : step iovLimit batchSize s .readSamples = some t) : Invariant batchSize first t := by
  cases hphase : s.phase with
  | opening transfer header | committing transfer | returned =>
    simp [step, hphase] at h
  | reading =>
    cases hread : SampleTransfer.step iovLimit s.fabric .read with
    | none => simp [step, hphase, hread] at h
    | some fabric =>
      have hfabric := SampleTransfer.invariant_read hs.fabric hread
      obtain ⟨transfer, bytes, rfl, hcompletion, hcopied⟩ := step_read hs.fabric hread
      simp only [step, hphase, hread, List.getLast?_append, List.getLast?_singleton] at h
      obtain rfl := Option.some.inj h
      have horder : InOrder batchSize (s.commits ++ transfer ::
          (s.fabric.completions.tail.map Prod.snd ++
            SampleTransfer.inFlight (s.fabric.carried.map Prod.fst ++ s.fabric.posted))) := by
        have hall := hs.order
        rw [hphase, hcompletion] at hall
        simp only [TargetPhase.handled, List.append_nil, List.append_assoc, List.cons_append]
          at hall
        rw [hall]
        exact hs.ranges
      have hcount : transfer.header.count.toNat ≤ transfer.header.headIndex.toNat := by
        obtain ⟨hbatch, hle⟩ := horder.batches transfer (by simp)
        rw [hbatch]
        exact hle
      have hreads := hs.read
      rw [hphase] at hreads
      refine ⟨hfabric, hs.source, hs.target, hs.room, ?_, hs.ranges, hs.fits, hs.app, rfl, hs.head,
        ?_⟩
      · rw [List.map_append, hreads]
        simp [TargetPhase.handled]
      · intro channel hchannel byte hbyte
        have hlatest := hs.latest channel hchannel byte hbyte
        rw [hphase] at hlatest
        simp only [TargetPhase.handled, List.append_nil] at hlatest
        have hrange := fun sample =>
          @HasLayout.inRange_iff _ _ hs.target transfer hcount channel byte hchannel hbyte sample
        apply hlatest.append
        · intro q hq p v hp
          obtain ⟨earlier, hearlier, hcovers⟩ := covers_of_sent hp
          exact hcovers.2.trans_lt (horder.behind hq hearlier)
        · intro q hq
          change sent s.targetFlow (s.commits ++ [transfer]) channel byte q =
            some (bytes (sampleCell s.targetFlow channel byte q))
          rw [sent_append_of_covers _ hq, hcopied.inside _ ((hrange q).mpr ⟨q, hq, rfl⟩)]
          intro earlier hearlier hcovers
          exact absurd hcovers.2 (Int.not_le.mpr (horder.behind hq hearlier))
        · intro q hq
          exact sent_append_of_not_covers hq
        · intro p hp
          apply hcopied.outside
          intro hin
          obtain ⟨q, hq, hcell⟩ := (hrange p).mp hin
          exact hp q hq hcell

theorem invariant_openSamples (hs : Invariant batchSize first s)
    (h : step iovLimit batchSize s .openSamples = some t) : Invariant batchSize first t := by
  cases hphase : s.phase with
  | reading | committing transfer | returned => simp [step, hphase] at h
  | opening transfer header =>
    have hheld := hs.phase
    rw [hphase] at hheld
    obtain rfl : header = transfer.header := hheld
    have hmem : transfer ∈ s.fabric.transfers := by
      apply hs.mem_transfers
      simp [hphase, TargetPhase.handled]
    have hlength := hs.source.toNat_bufferLength.symm.trans hs.target.toNat_bufferLength
    have hfit := (hs.fits transfer hmem).2
    rw [hlength] at hfit
    have hopen := @PosixContinuousFlowWriter.openSamples_of_le s.writer s.target
      transfer.header.headIndex transfer.header.count hfit
    simp only [step, hphase, hopen] at h
    obtain rfl := Option.some.inj h
    have hread := hs.read
    have hlatest := hs.latest
    rw [hphase] at hread hlatest
    exact ⟨hs.fabric, hs.source, hs.target, hs.room, hread, hs.ranges, hs.fits, hs.app, rfl,
      hs.head, hlatest⟩

theorem invariant_commitSamples (hs : Invariant batchSize first s)
    (h : step iovLimit batchSize s .commitSamples = some t) : Invariant batchSize first t := by
  cases hphase : s.phase with
  | reading | opening transfer header | returned => simp [step, hphase] at h
  | committing transfer =>
    have hheld := hs.phase
    rw [hphase] at hheld
    obtain ⟨signal, writer, -, hcommit⟩ := s.writer.commit_spec s.target
    simp only [step, hphase, hcommit] at h
    obtain rfl := Option.some.inj h
    have hread := hs.read
    have hlatest := hs.latest
    rw [hphase] at hread hlatest
    refine ⟨hs.fabric, hs.source, ⟨hs.target.sampleSize, hs.target.channelCount,
      hs.target.bufferLength⟩, hs.room, ?_, hs.ranges, hs.fits, hs.app, trivial, ?_, ?_⟩
    · rw [hread]
      simp [TargetPhase.handled]
    · intro front last hsplit
      have hlast : [transfer] = [last] := (List.append_inj' hsplit rfl).2
      rw [← List.singleton_inj.mp hlast]
      exact hheld
    · simp only [TargetPhase.handled, List.append_nil]
      exact hlatest

theorem invariant_step (hlimit : 0 < iovLimit.toNat) (hbatch : 0 < batchSize.toNat)
    {action : Action} (hs : Invariant batchSize first s)
    (husage : Usage iovLimit batchSize s action)
    (h : step iovLimit batchSize s action = some t) : Invariant batchSize first t := by
  cases action with
  | produce address value =>
    obtain rfl := Option.some.inj h
    exact hs.of_sameTransfers (SampleTransfer.invariant_produce hs.fabric husage)
      ⟨rfl, rfl, rfl⟩ rfl
  | publish headIndex =>
    obtain rfl := Option.some.inj h
    exact invariant_publish hs husage.1 husage.2
  | getSamples flowValid transfer progress =>
    exact invariant_getSamples hlimit hbatch hs husage h
  | getRuntimeInfo => exact invariant_getRuntimeInfo hs h
  | gather =>
    obtain ⟨fabric, hstep, rfl⟩ := Option.map_eq_some_iff.mp h
    obtain ⟨hsame, htransfers⟩ := sameAtTarget_gather hstep
    exact hs.of_sameTransfers (SampleTransfer.invariant_gather hs.fabric hstep) hsame htransfers
  | place =>
    obtain ⟨fabric, hstep, rfl⟩ := Option.map_eq_some_iff.mp h
    obtain ⟨hsame, htransfers⟩ := sameAtTarget_place hstep
    have hfabric := SampleTransfer.invariant_place hs.fabric husage hstep
    exact hs.of_sameTransfers hfabric hsame htransfers
  | readSamples => exact invariant_readSamples hs h
  | openSamples => exact invariant_openSamples hs h
  | commitSamples => exact invariant_commitSamples hs h

end Steps

/-! ### What a reader is shown -/

section Shown

variable {flow : ContinuousFlowData} {batchSize first : UInt64} {transfers : List Transfer}
  {channel byte : Nat} {sample : Int} {value : UInt8} {s : Demo}

theorem InOrder.left {rest : List Transfer} (h : InOrder batchSize (transfers ++ rest)) :
    InOrder batchSize transfers :=
  ⟨fun transfer hmem => h.batches transfer (List.mem_append_left _ hmem),
    (List.pairwise_append.mp h.ascending).1⟩

theorem sent_append_left {rest : List Transfer}
    (h : sent flow transfers channel byte sample = some value) :
    sent flow (transfers ++ rest) channel byte sample = some value := by
  obtain ⟨transfer, hfind, hvalue⟩ := sent_eq_some.mp h
  apply sent_eq_some.mpr
  refine ⟨transfer, ?_, hvalue⟩
  rw [List.find?_append, hfind]
  rfl

/-- Samples are in one slot if they are whole rounds apart. -/
theorem sampleSlot_eq_iff {other : Int} : sampleSlot flow other = sampleSlot flow sample ↔
    (flow.bufferLength.toNat : Int) ∣ other - sample := by
  have hpos := flow.bufferLength_pos
  have hne : (flow.bufferLength.toNat : Int) ≠ 0 := by omega
  have hsample := Int.emod_nonneg (sample + -1) hne
  have hother := Int.emod_nonneg (other + -1) hne
  have hmod : sampleSlot flow other = sampleSlot flow sample ↔
      (sample + -1) % flow.bufferLength.toNat = (other + -1) % flow.bufferLength.toNat := by
    rw [sampleSlot, sampleSlot]
    omega
  rw [hmod, ← Int.add_sub_add_right other (-1) sample]
  exact Int.modEq_iff_dvd

theorem sampleCell_sub_laps (laps : Nat) :
    sampleCell flow channel byte (sample - laps * flow.bufferLength.toNat) =
      sampleCell flow channel byte sample := by
  have hslot : sampleSlot flow (sample - laps * flow.bufferLength.toNat) =
      sampleSlot flow sample := by
    rw [sampleSlot_eq_iff, sub_sub_cancel_left]
    exact Int.dvd_neg.mpr (Int.dvd_mul_left _ _)
  rw [sampleCell, sampleCell, hslot]

/-- What comes later in the slot of a sample that is `laps` rounds back is less than that
    many rounds back, or at least one round ahead. -/
theorem later_in_slot (hbyte : byte < flow.sampleWordSize.toNat) {laps : Nat} {other : Int}
    (hlater : sample - laps * flow.bufferLength.toNat < other)
    (hcell : sampleCell flow channel byte other =
      sampleCell flow channel byte (sample - laps * flow.bufferLength.toNat)) :
    (∃ rounds < laps, other = sample - rounds * flow.bufferLength.toNat) ∨
      sample + flow.bufferLength.toNat ≤ other := by
  rw [sampleCell_sub_laps] at hcell
  obtain ⟨-, -, hslot⟩ := sampleCell_inj flow hbyte hbyte hcell
  obtain ⟨rounds, hrounds⟩ := sampleSlot_eq_iff.mp hslot
  have hpos : (0 : Int) < flow.bufferLength.toNat := by
    exact_mod_cast flow.bufferLength_pos
  by_cases hahead : 0 < rounds
  · right
    have hle : flow.bufferLength.toNat ≤ flow.bufferLength.toNat * rounds :=
      le_mul_of_one_le_right hpos.le hahead
    omega
  · left
    have hback : -rounds < laps := by
      have hlt : flow.bufferLength.toNat * -rounds < (flow.bufferLength.toNat * laps : Int) := by
        rw [mul_neg, mul_comm _ (laps : Int)]
        omega
      exact lt_of_mul_lt_mul_left hlt hpos.le
    refine ⟨(-rounds).toNat, by omega, ?_⟩
    rw [Int.toNat_of_nonneg (by omega), neg_mul, mul_comm]
    omega

/-- The last of what was committed is at the head. -/
theorem Invariant.head_of_sent (hs : Invariant batchSize first s)
    (hsent : sent s.target s.commits channel byte sample = some value) :
    s.targetFlow.headIndex.toNat ≤ s.sourceFlow.headIndex.toNat ∧
      (∀ transfer ∈ s.commits,
        transfer.header.headIndex.toNat ≤ s.targetFlow.headIndex.toNat) ∧
      ∀ transfer ∈ s.phase.handled, ∀ other, Covers transfer other →
        (s.targetFlow.headIndex.toNat : Int) < other := by
  have horder : InOrder batchSize (s.commits ++ s.phase.handled) := by
    have hranges := hs.ranges
    rw [← hs.order, List.append_assoc] at hranges
    exact hranges.left
  obtain ⟨committed, hcommitted, -⟩ := covers_of_sent hsent
  rcases List.eq_nil_or_concat s.commits with hnil | ⟨front, last, hcommits⟩
  · rw [hnil] at hcommitted
    cases hcommitted
  · rw [List.concat_eq_append] at hcommits
    rw [hs.head front last hcommits]
    have hlast : last ∈ s.commits := by simp [hcommits]
    refine ⟨?_, ?_, ?_⟩
    · exact (hs.fits last (hs.mem_transfers (List.mem_append_left _ hlast))).1
    · intro transfer hmem
      have hfront := horder.left
      rw [hcommits] at hfront hmem
      exact hfront.le_last hmem
    · intro transfer hmem other hcovers
      obtain ⟨before, after, hsplit⟩ := List.append_of_mem hmem
      rw [hsplit, ← List.append_assoc] at horder
      exact horder.behind hcovers (List.mem_append_left _ hlast)

theorem shown_of_invariant (hs : Invariant batchSize first s) {index count : UInt64}
    {slices : WrappedMultiBufferSlice}
    (hread : s.target.getSamplesImpl index count = .ok slices)
    (hchannel : channel < s.target.channelCount.toNat) {k : Nat} (hk : k < count.toNat)
    (hbyte : byte < s.target.sampleWordSize.toNat) {laps : Nat}
    (hsent : sent s.target s.commits channel byte
      (index.toNat - count.toNat + 1 + k - laps * s.target.bufferLength.toNat) = some value)
    (hnone : ∀ rounds < laps, sent s.target s.commits channel byte
      (index.toNat - count.toNat + 1 + k - rounds * s.target.bufferLength.toNat) = none)
    (hhandled : ∀ transfer ∈ s.phase.handled, transfer.header.headIndex.toNat + count.toNat ≤
      index.toNat + k + s.target.bufferLength.toNat) :
    s.target.channelData (byteAddress slices channel (s.target.sampleWordSize.toNat * k + byte)) =
      value := by
  obtain ⟨hhead, hcount, hhalf, rfl⟩ := ContinuousFlowData.getSamplesImpl_eq_ok.mp hread
  obtain ⟨hroom, hcommits, hbehind⟩ := hs.head_of_sent hsent
  have hlength := hs.source.toNat_bufferLength.symm.trans hs.target.toNat_bufferLength
  have hsource := hs.room
  rw [hlength] at hsource
  change index.toNat ≤ s.targetFlow.headIndex.toNat at hhead
  change s.targetFlow.headIndex.toNat + count.toNat ≤
    index.toNat + s.targetFlow.bufferLength.toNat / 2 at hhalf
  have hbuffer : s.target.bufferLength = s.targetFlow.bufferLength := rfl
  have hunnoticed : WrapsUnnoticed s.target.bufferLength.toNat index.toNat count.toNat := by
    apply wrapsUnnoticed_of_lt
    rw [hbuffer]
    omega
  have hfit : count.toNat ≤ s.target.bufferLength.toNat / 2 := by
    rw [hbuffer]
    omega
  rw [byteAddress_eq (Nat.zero_lt_of_lt hk) hfit hunnoticed channel hk hbyte,
    ← sampleCell_sub_laps laps]
  apply hs.latest channel hchannel byte hbyte _ _ (sent_append_left hsent)
  intro other hlater hcell
  rw [sent_eq_none]
  rcases later_in_slot hbyte hlater hcell with ⟨rounds, hrounds, rfl⟩ | hahead
  · intro transfer hmem hcovers
    rcases List.mem_append.mp hmem with hcommitted | hheld
    · exact sent_eq_none.mp (hnone rounds hrounds) transfer hcommitted hcovers
    · have hlow := hbehind transfer hheld _ hcovers
      have hback : (0 : Int) ≤ rounds * s.target.bufferLength.toNat := by positivity
      omega
  · intro transfer hmem hcovers
    have hhigh := hcovers.2
    rcases List.mem_append.mp hmem with hcommitted | hheld
    · have hle := hcommits transfer hcommitted
      rw [hbuffer] at hahead
      omega
    · have hle := hhandled transfer hheld
      omega

theorem streams_of_invariant (hs : Invariant batchSize first s) : Streams batchSize first s where
  order := hs.order
  ranges := hs.ranges
  accounted := fun app happ => (hs.app app happ).accounted
  running := by
    intro hreturned
    have hphase := hs.phase
    rw [hreturned] at hphase
    exact hphase
  head := hs.head
  shown := fun index count slices hread channel hchannel k hk byte hbyte laps value hsent hnone
    hhandled => shown_of_invariant hs hread hchannel hk hbyte hsent hnone hhandled

end Shown

/-! ### Runs -/

theorem monoLayout_length_pos : 0 < (4 : UInt64).toNat := by decide

theorem monoLayout_mapped : (1 : UInt64).toNat * ((1 : UInt64).toNat * (4 : UInt64).toNat) < 2 ^ 63 := by
  decide

theorem monoFlow_length_pos : 0 < (4 : UInt32).toNat := by decide

theorem monoFlow_mapped : (1 : UInt32).toNat * ((1 : UInt64).toNat * (4 : UInt32).toNat) < 2 ^ 63 := by
  decide

def monoLayout : ContinuousDataLayout where
  sampleSize := 1
  channelCount := 1
  bufferLength := 4
  sampleSize_pos := Nat.one_pos
  channelCount_pos := Nat.one_pos
  bufferLength_pos := monoLayout_length_pos
  mapped := monoLayout_mapped

def monoFlow (headIndex : UInt64) : ContinuousFlowData where
  channelCount := 1
  bufferLength := 4
  sampleWordSize := 1
  maxCommitBatchSizeHint := 1
  maxSyncBatchSizeHint := 1
  headIndex := headIndex
  syncCounter := 0
  channelData := fun _ => 0
  channelCount_pos := Nat.one_pos
  bufferLength_pos := monoFlow_length_pos
  sampleWordSize_pos := Nat.one_pos
  mapped := monoFlow_mapped

def monoRings (base : UInt64) : MemoryBlock := { base := base, size := 4, bytes := fun _ => 0 }

theorem hasLayout_monoFlow (headIndex : UInt64) : HasLayout monoLayout (monoFlow headIndex) :=
  ⟨rfl, rfl, rfl⟩

/-- What carries one transfer to the target and has it committed. -/
def carryOver : List Action :=
  [.getSamples true .ok .ok, .gather, .place, .readSamples, .openSamples, .commitSamples]

/-- Sample 3 is sent; then the initiator is too late for sample 4 and goes on with sample 8. -/
def skippingRun : List Action :=
  .produce 2 7 :: carryOver ++ [.publish 8, .getSamples true .ok .ok, .getRuntimeInfo] ++ carryOver

end MediaExchange.DemoSamples
