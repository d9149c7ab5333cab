/-
  MediaExchange/ContinuousWriterRuns.lean
  =======================================
  **Runs of the writer of a continuous flow.**

  The writer opens ranges, its client stores bytes through the fragments it was
  handed, and ranges are committed or cancelled.  Besides the shared memory and
  the writer the state says which range is open, what the client has stored for
  which sample, and after which index the next contiguous range has to follow;
  these are read off the calls alone, not off the writer's `_currentIndex`.
-/
import MediaExchange.Library.LabelledRun
import MediaExchange.ContinuousLayout
import Mathlib.Logic.Function.Basic

namespace MediaExchange.ContinuousWriterRuns

open MediaExchange.LabelledRun

/-! ### The system -/

structure OpenRange where
  index : UInt64
  count : UInt64
  slices : WrappedMultiBufferSlice
deriving DecidableEq, Repr

inductive SampleCall where
  | openSamples (index count : UInt64)
  | fill (channel offset : Nat) (byte : UInt8)
  | commit
  | cancel
deriving DecidableEq, Repr

structure SampleSystem where
  flow : ContinuousFlowData
  writer : PosixContinuousFlowWriter
  opened : Option OpenRange
  /-- What was last stored for a channel, a sample and a byte of the sample. -/
  written : Nat → Int → Nat → Option UInt8
  /-- The index in front of the next contiguous range. -/
  last : Int

def SampleSystem.init (flow : ContinuousFlowData) (last : Int) : SampleSystem where
  flow := flow
  writer := .init flow
  opened := none
  written _ _ _ := none
  last := last

namespace SampleSystem

/-- The sample that byte `offset` of a range belongs to. -/
def sampleOf (s : SampleSystem) (range : OpenRange) (offset : Nat) : Int :=
  range.index.toNat - range.count.toNat + 1 + (offset / s.flow.sampleWordSize.toNat : Nat)

/-- The client stores one byte of the range it has open. -/
def fill (s : SampleSystem) (range : OpenRange) (channel offset : Nat) (byte : UInt8) :
    SampleSystem :=
  { s with
    flow := { s.flow with
      channelData :=
        Function.update s.flow.channelData (byteAddress range.slices channel offset) byte }
    written := fun c j b =>
      if c = channel ∧ j = s.sampleOf range offset ∧ b = offset % s.flow.sampleWordSize.toNat then
        some byte
      else s.written c j b }

theorem written_fill (s : SampleSystem) (range : OpenRange) (channel offset : Nat) (byte : UInt8)
    (c b : Nat) :
    (fun j => (s.fill range channel offset byte).written c j b) =
      if c = channel ∧ b = offset % s.flow.sampleWordSize.toNat then
        Function.update (fun j => s.written c j b) (s.sampleOf range offset) (some byte)
      else fun j => s.written c j b := by
  funext j
  by_cases hcell : c = channel ∧ b = offset % s.flow.sampleWordSize.toNat
  · simp [fill, hcell, Function.update_apply]
  · rw [if_neg hcell]
    simp only [fill]
    rw [if_neg]
    rintro ⟨hc, -, hb⟩
    exact hcell ⟨hc, hb⟩

/-- What is written after the byte was stored is of the byte's sample or was written
    before. -/
theorem written_of_fill {s : SampleSystem} {range : OpenRange} {channel offset c b : Nat}
    {byte v : UInt8} {j : Int} (h : (s.fill range channel offset byte).written c j b = some v) :
    j = s.sampleOf range offset ∨ s.written c j b = some v := by
  simp only [fill] at h
  split at h
  · next hcell => exact Or.inl hcell.2.1
  · exact Or.inr h

end SampleSystem

def step (s : SampleSystem) : SampleCall → Option SampleSystem
  | .openSamples index count =>
      match s.writer.openSamples s.flow index count with
      | (.statusOk, some slices, writer) =>
          some { s with writer := writer
                        opened := some { index := index, count := count, slices := slices } }
      | (_, _, writer) => some { s with writer := writer }
  | .fill channel offset byte =>
      match s.opened with
      | some range =>
          if channel < range.slices.count.toNat ∧
              offset < range.slices.fragment0.size.toNat + range.slices.fragment1.size.toNat then
            some (s.fill range channel offset byte)
          else none
      | none => none
  | .commit =>
      let (_, writer, flow) := s.writer.commit s.flow
      some { s with flow := flow, writer := writer, opened := none, last := flow.headIndex.toNat }
  | .cancel =>
      let (_, writer) := s.writer.cancel
      some { s with writer := writer, opened := none }

/-! ### What one call does -/

theorem step_openSamples {s t : SampleSystem} {index count : UInt64}
    (h : step s (.openSamples index count) = some t) :
    (count.toNat ≤ s.flow.bufferLength.toNat / 2 ∧
        t = { s with
          writer := { s.writer with currentIndex := index }
          opened := some { index := index, count := count,
                           slices := payloadBufferSlices s.flow index count } }) ∨
      t = s := by
  unfold step PosixContinuousFlowWriter.openSamples at h
  by_cases hcount : count ≤ s.flow.channelBufferLength / 2
  · left
    simp only [if_pos hcount, Option.some.injEq] at h
    rw [UInt64.le_iff_toNat_le, UInt64.toNat_div, ContinuousFlowData.toNat_channelBufferLength]
      at hcount
    exact ⟨hcount, h.symm⟩
  · right
    simp only [if_neg hcount, Option.some.injEq] at h
    exact h.symm

theorem step_fill {s t : SampleSystem} {channel offset : Nat} {byte : UInt8}
    (h : step s (.fill channel offset byte) = some t) :
    ∃ range, s.opened = some range ∧ channel < range.slices.count.toNat ∧
      offset < range.slices.fragment0.size.toNat + range.slices.fragment1.size.toNat ∧
      t = s.fill range channel offset byte := by
  unfold step at h
  cases hopened : s.opened with
  | none => simp [hopened] at h
  | some range =>
    simp only [hopened] at h
    split at h
    · next hin => exact ⟨range, rfl, hin.1, hin.2, (Option.some.inj h).symm⟩
    · cases h

/-- A commit always succeeds, whether or not a range is open, and moves the head to
    the writer's current index. -/
theorem step_commit {s t : SampleSystem} (h : step s .commit = some t) :
    t.opened = none ∧ t.written = s.written ∧ t.last = s.writer.currentIndex.toNat ∧
      t.writer.currentIndex = MXL_UNDEFINED_INDEX ∧
      ∃ syncCounter, t.flow =
        { s.flow with headIndex := s.writer.currentIndex, syncCounter := syncCounter } := by
  obtain ⟨signal, writer', hsignal, hcommit⟩ := s.writer.commit_spec s.flow
  simp only [step, hcommit, Option.some.injEq] at h
  subst h
  refine ⟨rfl, rfl, rfl, ?_, _, rfl⟩
  have hindex : writer' = (({ s.writer with currentIndex := MXL_UNDEFINED_INDEX } :
      PosixContinuousFlowWriter).signalCompletedBatch).2 := by rw [hsignal]
  rw [hindex]
  unfold PosixContinuousFlowWriter.signalCompletedBatch
  dsimp only
  split_ifs <;> rfl

theorem step_cancel {s t : SampleSystem} (h : step s .cancel = some t) :
    t = { s with writer := { s.writer with currentIndex := MXL_UNDEFINED_INDEX }
                 opened := none } := by
  simp only [step, PosixContinuousFlowWriter.cancel, Option.some.injEq] at h
  exact h.symm

end MediaExchange.ContinuousWriterRuns
