/-
  MediaExchange/ContinuousRoundTrip.lean
  ======================================
  **What a continuous reader reads is what the writer wrote.**

  Sample `j` of a channel lives in slot `(j - 1) % bufferLength` of the channel's
  ring, whichever range it is written or read through (`byteAddress_eq`).  For
  each channel and each byte of a sample word the shared memory is thus a ring
  that remembers what was stored for the samples up to half a buffer past the
  last committed one (`RingMemory.Remembers`), and a reader stays within the
  half buffer behind that sample.

  The runs are those of a writer whose ranges are contiguous.
-/
import MediaExchange.ContinuousWriterRuns

namespace MediaExchange.ContinuousRoundTrip

open MediaExchange.LabelledRun MediaExchange.ContinuousWriterRuns
open MediaExchange.RingMemory (Remembers)

/-! ### Contiguous runs -/

/-- Ranges follow each other without a gap, are not empty and stay clear of the end
    of the index space; only what is open is committed. -/
def Contiguous (s : SampleSystem) : SampleCall → Prop
  | .openSamples index count =>
      (index.toNat : Int) = s.last + count.toNat ∧ 1 ≤ count.toNat ∧
        index.toNat + s.flow.bufferLength.toNat < 2 ^ 64
  | .fill _ _ _ => True
  | .commit => s.opened.isSome
  | .cancel => True

instance (s : SampleSystem) (call : SampleCall) : Decidable (Contiguous s call) :=
  match call with
  | .openSamples index count => inferInstanceAs (Decidable
      ((index.toNat : Int) = s.last + count.toNat ∧ 1 ≤ count.toNat ∧
        index.toNat + s.flow.bufferLength.toNat < 2 ^ 64))
  | .commit => inferInstanceAs (Decidable (s.opened.isSome = true))
  | .fill _ _ _ | .cancel => isTrue trivial

def contiguousStep (s : SampleSystem) (call : SampleCall) : Option SampleSystem :=
  if Contiguous s call then step s call else none

theorem contiguousStep_eq_some {s t : SampleSystem} {call : SampleCall} :
    contiguousStep s call = some t ↔ Contiguous s call ∧ step s call = some t := by
  unfold contiguousStep
  split
  · next h => simp [h]
  · next h => simp [h]

/-- The bytes of the two fragments of a channel, one after the other. -/
def fragmentBytes (flow : ContinuousFlowData) (slices : WrappedMultiBufferSlice) (channel : Nat) :
    List UInt8 :=
  ((List.range slices.fragment0.size.toNat).map fun b => flow.channelData
      (slices.fragment0.pointer.toNat + slices.stride.toNat * channel + b)) ++
    (List.range slices.fragment1.size.toNat).map fun b => flow.channelData
      (slices.fragment1.pointer.toNat + slices.stride.toNat * channel + b)

theorem fragmentBytes_eq (flow : ContinuousFlowData) (slices : WrappedMultiBufferSlice)
    (channel : Nat) :
    fragmentBytes flow slices channel =
      (List.range (slices.fragment0.size.toNat + slices.fragment1.size.toNat)).map fun offset =>
        flow.channelData (byteAddress slices channel offset) := by
  rw [List.range_add, List.map_append, List.map_map]
  unfold fragmentBytes
  congr 1
  · apply List.map_congr_left
    intro b hb
    rw [byteAddress, if_pos (List.mem_range.mp hb)]
  · apply List.map_congr_left
    intro b _
    rw [Function.comp_apply, byteAddress, if_neg (by omega), Nat.add_sub_cancel_left]

/-! ### The ring remembers what was written -/

structure RoundTripInv (s : SampleSystem) : Prop where
  /-- The open range follows the last one and is the one the writer will commit. -/
  opened : ∀ range, s.opened = some range →
    range.slices = payloadBufferSlices s.flow range.index range.count ∧
      1 ≤ range.count.toNat ∧ range.count.toNat ≤ s.flow.bufferLength.toNat / 2 ∧
      (range.index.toNat : Int) = s.last + range.count.toNat ∧
      range.index.toNat + s.flow.bufferLength.toNat < 2 ^ 64 ∧
      s.writer.currentIndex = range.index
  /-- The memory remembers everything up to half a buffer past the last range. -/
  remembers : ∀ channel byte, byte < s.flow.sampleWordSize.toNat →
    Remembers s.flow.bufferLength.toNat (sampleCell s.flow channel byte) s.flow.channelData
      (fun sample => s.written channel sample byte)
      (s.last + (s.flow.bufferLength.toNat / 2 : Nat))
  /-- A reader sees the end of the last range as the head, unless nothing has been
      committed yet. -/
  head : (s.flow.headIndex.toNat : Int) = s.last ∨
    ∀ channel sample byte v, s.written channel sample byte = some v → s.last < sample
  /-- No written sample comes close to the end of the index space. -/
  bounded : ∀ channel sample byte v, s.written channel sample byte = some v →
    sample + s.flow.bufferLength.toNat < 2 ^ 64

theorem roundTripInv_init (flow : ContinuousFlowData) (last : Int) :
    RoundTripInv (.init flow last) := by
  constructor
  · intro range h
    cases h
  · intro channel byte _
    exact RingMemory.remembers_empty
  · right
    intro channel sample byte v h
    cases h
  · intro channel sample byte v h
    cases h

theorem roundTripInv_openSamples {s t : SampleSystem} {index count : UInt64}
    (hs : RoundTripInv s) (h : contiguousStep s (.openSamples index count) = some t) :
    RoundTripInv t := by
  obtain ⟨⟨hindex, hpos, hwrap⟩, hstep⟩ := contiguousStep_eq_some.mp h
  rcases step_openSamples hstep with ⟨hhalf, rfl⟩ | rfl
  · constructor
    · intro range hrange
      obtain rfl := Option.some.inj hrange
      exact ⟨rfl, hpos, hhalf, hindex, hwrap, rfl⟩
    · exact hs.remembers
    · exact hs.head
    · exact hs.bounded
  · exact hs

/-- Byte `offset` of the open range is in the cell of its sample, which is one of the
    samples behind the last range. -/
theorem byteAddress_opened {s : SampleSystem} {range : OpenRange} {offset : Nat}
    (hs : RoundTripInv s) (hopened : s.opened = some range)
    (hoffset : offset < range.slices.fragment0.size.toNat + range.slices.fragment1.size.toNat)
    (channel : Nat) :
    byteAddress range.slices channel offset =
        sampleCell s.flow channel (offset % s.flow.sampleWordSize.toNat)
          (s.sampleOf range offset) ∧
      s.last < s.sampleOf range offset ∧ s.sampleOf range offset ≤ s.last + range.count.toNat := by
  obtain ⟨hslices, hpos, hhalf, hindex, hwrap, -⟩ := hs.opened range hopened
  have hnowrap : WrapsUnnoticed s.flow.bufferLength.toNat range.index.toNat range.count.toNat :=
    wrapsUnnoticed_of_lt (by omega)
  rw [hslices, fragment_sizes_add hpos hhalf hnowrap] at hoffset
  have hword := s.flow.sampleWordSize_pos
  have hk : offset / s.flow.sampleWordSize.toNat < range.count.toNat := by
    rw [Nat.div_lt_iff_lt_mul hword, Nat.mul_comm]
    exact hoffset
  have haddr := byteAddress_eq hpos hhalf hnowrap channel hk (Nat.mod_lt offset hword)
  rw [Nat.div_add_mod] at haddr
  refine ⟨?_, ?_⟩
  · rw [hslices]
    exact haddr
  · unfold SampleSystem.sampleOf
    generalize offset / s.flow.sampleWordSize.toNat = k at hk
    omega

/-- Storing a byte through the fragments of the open range stores it in the cell of
    its sample, which is one the ring can do without. -/
theorem roundTripInv_fill {s t : SampleSystem} {channel offset : Nat} {byte : UInt8}
    (hs : RoundTripInv s) (h : contiguousStep s (.fill channel offset byte) = some t) :
    RoundTripInv t := by
  obtain ⟨range, hopened, -, hoffset, rfl⟩ := step_fill (contiguousStep_eq_some.mp h).2
  obtain ⟨-, -, hhalf, hindex, hwrap, -⟩ := hs.opened range hopened
  obtain ⟨haddr, hlow, hhigh⟩ := byteAddress_opened hs hopened hoffset channel
  have hbyte : offset % s.flow.sampleWordSize.toNat < s.flow.sampleWordSize.toNat :=
    Nat.mod_lt _ s.flow.sampleWordSize_pos
  constructor
  · exact hs.opened
  · intro c b hb
    have hold := hs.remembers c b hb
    rw [SampleSystem.written_fill]
    change Remembers _ (sampleCell s.flow c b)
      (Function.update s.flow.channelData (byteAddress range.slices channel offset) byte) _ _
    rw [haddr]
    by_cases hcell : c = channel ∧ b = offset % s.flow.sampleWordSize.toNat
    · rw [if_pos hcell]
      obtain ⟨rfl, rfl⟩ := hcell
      apply hold.store (separates_sampleCell s.flow c hb)
      · omega
      · omega
    · rw [if_neg hcell]
      apply hold.store_other
      intro j heq
      obtain ⟨hc, hb', -⟩ := sampleCell_inj s.flow hb hbyte heq
      exact hcell ⟨hc, hb'⟩
  · rcases hs.head with hhead | hnone
    · exact Or.inl hhead
    · right
      intro c j b v hv
      rcases SampleSystem.written_of_fill hv with rfl | hold
      · exact hlow
      · exact hnone c j b v hold
  · intro c j b v hv
    rcases SampleSystem.written_of_fill hv with rfl | hold
    · change s.sampleOf range offset + (s.flow.bufferLength.toNat : Int) < 2 ^ 64
      omega
    · exact hs.bounded c j b v hold

/-- A commit moves the head to the end of the range; the ring has more to keep
    behind it than a reader may ask for. -/
theorem roundTripInv_commit {s t : SampleSystem} (hs : RoundTripInv s)
    (h : contiguousStep s .commit = some t) : RoundTripInv t := by
  obtain ⟨hopen, hstep⟩ := contiguousStep_eq_some.mp h
  obtain ⟨range, hrange⟩ := Option.isSome_iff_exists.mp hopen
  obtain ⟨-, hpos, -, hindex, -, hcurrent⟩ := hs.opened range hrange
  obtain ⟨hopened, hwritten, hlast, -, syncCounter, hflow⟩ := step_commit hstep
  rw [hcurrent] at hlast hflow
  constructor
  · intro range hrange
    rw [hopened] at hrange
    cases hrange
  · rw [hwritten, hflow, hlast]
    intro channel byte hbyte
    apply (hs.remembers channel byte hbyte).raise
    change s.last + _ ≤ (range.index.toNat : Int) + (s.flow.bufferLength.toNat / 2 : Nat)
    omega
  · left
    rw [hflow, hlast]
  · rw [hwritten, hflow]
    exact hs.bounded

theorem roundTripInv_step {s t : SampleSystem} {call : SampleCall} (hs : RoundTripInv s)
    (h : contiguousStep s call = some t) : RoundTripInv t := by
  cases call with
  | openSamples index count => exact roundTripInv_openSamples hs h
  | fill channel offset byte => exact roundTripInv_fill hs h
  | commit => exact roundTripInv_commit hs h
  | cancel =>
    obtain rfl := step_cancel (contiguousStep_eq_some.mp h).2
    constructor
    · intro range hrange
      cases hrange
    · exact hs.remembers
    · exact hs.head
    · exact hs.bounded

/-! ### Reading back -/

/-- **Round trip.**  In every state of a contiguous run, whatever the sizes of its
    ranges, a reader that is handed a range of written samples finds in the two
    fragments of each channel the bytes that were stored for these samples, in
    order. -/
theorem fragmentBytes_eq_written (flow : ContinuousFlowData) (last : Int) (calls : List SampleCall)
    {s : SampleSystem} (hrun : run contiguousStep (.init flow last) calls = some s)
    {flowValid : Bool} {index count : UInt64} {slices : WrappedMultiBufferSlice}
    (hpos : 1 ≤ count.toNat) (hread : s.flow.getSamples flowValid index count = .ok slices)
    (channel : Nat) (sample : Int → Nat → UInt8)
    (hwritten : ∀ j : Int, index.toNat - count.toNat < j → j ≤ index.toNat →
      ∀ byte < s.flow.sampleWordSize.toNat, s.written channel j byte = some (sample j byte)) :
    fragmentBytes s.flow slices channel =
      (List.range count.toNat).flatMap fun k : Nat =>
        (List.range s.flow.sampleWordSize.toNat).map
          (sample (index.toNat - count.toNat + 1 + k)) := by
  have hs : RoundTripInv s := invariant_of_run (fun s call t hs h => roundTripInv_step hs h)
    (roundTripInv_init flow last) hrun
  obtain ⟨hhead, hle, hhalf, rfl⟩ := ContinuousFlowData.getSamplesImpl_eq_ok.mp
    (ContinuousFlowData.getSamples_eq_ok.mp hread)
  have hword := s.flow.sampleWordSize_pos
  have hnewest := hs.bounded channel index.toNat 0 _
    (hwritten index.toNat (by omega) (Int.le_refl _) 0 hword)
  have hnowrap : WrapsUnnoticed s.flow.bufferLength.toNat index.toNat count.toNat :=
    wrapsUnnoticed_of_lt (by omega)
  have hcount : count.toNat ≤ s.flow.bufferLength.toNat / 2 := by omega
  rw [fragmentBytes_eq, fragment_sizes_add hpos hcount hnowrap, RingMemory.map_range_mul]
  apply List.flatMap_congr
  intro k hk
  apply List.map_congr_left
  intro b hb
  rw [List.mem_range] at hk hb
  rw [byteAddress_eq hpos hcount hnowrap channel hk hb]
  have hsome := hwritten (index.toNat - count.toNat + 1 + k) (by omega) (by omega) b hb
  apply (hs.remembers channel b hb).holds _ _ hsome
  rcases hs.head with heq | hlast
  · omega
  · have hafter := hlast _ _ _ _ hsome
    have hlength := s.flow.bufferLength_pos
    omega

def stereoFlow : ContinuousFlowData where
  channelCount := 2
  bufferLength := 5
  sampleWordSize := 1
  maxCommitBatchSizeHint := 2
  maxSyncBatchSizeHint := 2
  headIndex := 0
  syncCounter := 0
  channelData _ := 0
  channelCount_pos := Nat.two_pos
  bufferLength_pos := by decide
  sampleWordSize_pos := Nat.one_pos
  mapped := by decide

/-- Samples 3 to 6 of the second channel, in two ranges; the second one goes around
    the end of the ring. -/
def wrappedRun : List SampleCall :=
  [.openSamples 4 2, .fill 1 0 10, .fill 1 1 11, .commit,
    .openSamples 6 2, .fill 1 1 13, .fill 1 0 12, .commit]

theorem fragmentBytes_wrapped :
    ∃ s slices, run contiguousStep (.init stereoFlow 2) wrappedRun = some s ∧
      s.flow.getSamples true 6 2 = .ok slices ∧ fragmentBytes s.flow slices 1 = [12, 13] := by
  obtain ⟨s, hrun⟩ : ∃ s, run contiguousStep (.init stereoFlow 2) wrappedRun = some s := ⟨_, rfl⟩
  have hword : s.flow.sampleWordSize = 1 := by
    obtain rfl := Option.some.inj hrun
    rfl
  have hread : s.flow.getSamples true 6 2 = .ok (payloadBufferSlices s.flow 6 2) := by
    obtain rfl := Option.some.inj hrun
    rfl
  have hwritten : s.written 1 5 0 = some 12 ∧ s.written 1 6 0 = some 13 := by
    obtain rfl := Option.some.inj hrun
    exact ⟨rfl, rfl⟩
  refine ⟨s, _, hrun, hread, ?_⟩
  have hbytes := fragmentBytes_eq_written stereoFlow 2 wrappedRun hrun (by decide) hread 1
    (fun j _ => if j = 5 then 12 else 13) (by
      rw [hword]
      intro j hlow hhigh byte hbyte
      obtain rfl : byte = 0 := Nat.lt_one_iff.mp hbyte
      obtain rfl | rfl : j = 5 ∨ j = 6 := by
        change (4 : Int) < j at hlow
        change j ≤ (6 : Int) at hhigh
        omega
      · exact hwritten.1
      · exact hwritten.2)
  rw [hbytes, hword]
  rfl

end MediaExchange.ContinuousRoundTrip
