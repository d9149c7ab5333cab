/-
  MediaExchange/GrainTransfer.lean
  ================================
  **Grains on their way from an initiator to a target** (`RCInitiator.cpp`,
  `ProtocolEgressRMA.cpp`, `ProtocolIngressRMA.cpp`, `Region.cpp`).

  One connection between two rings of `n` slots.  A call of `transferGrain` on a
  connected endpoint posts a write, on any other it does nothing.  The fabric
  places the writes in order, each before it reports its completion; with the
  connection the writes still in flight are lost.  The target reads the
  completions one by one: slot and slice come from the immediate data, the index
  from the header in the slot, which only the write from slice 0 carries.

  Main result: `reads_report_transferred`.  Every read reports the grain that was
  transferred in every run in which the target keeps up and no range behind the
  first is sent to a slot its grain's header has not reached.
-/
import MediaExchange.DiscreteFlow
import MediaExchange.GrainEgress
import MediaExchange.RCInitiator
import MediaExchange.Library.LabelledRun

namespace MediaExchange.GrainTransfer

open MediaExchange.LabelledRun

/-! ### Writes and the target's memory -/

/-- A write posted by `transferGrain`: the header as it lies in the initiator's
    slot, and the range of slices that is sent. -/
structure GrainWrite where
  info : GrainInfo
  range : SliceRange
deriving DecidableEq

namespace GrainWrite

def slot (n : Nat) (write : GrainWrite) : Nat := write.info.index.toNat % n

def immData (n : Nat) (write : GrainWrite) : UInt32 :=
  (ImmDataGrain.pack (UInt64.ofNat (write.slot n)) write.range.stop).data

/-- The bytes of the header go with slice 0. -/
def place (n : Nat) (write : GrainWrite) (headers : Nat → GrainInfo) : Nat → GrainInfo :=
  if write.range.start = 0 then Function.update headers (write.slot n) write.info else headers

end GrainWrite

def invalidSlot : FabricsException := .invalidArgument "Invalid ring buffer slot number"

def setValidSlicesForGrain (n : Nat) (headers : Nat → GrainInfo) (slot validSlices : UInt16) :
    Except FabricsException (Nat → GrainInfo) :=
  if slot.toNat ≥ n then .error invalidSlot
  else .ok (Function.update headers slot.toNat
    { headers slot.toNat with validSlices := validSlices })

def getGrainIndexInRingSlot (n : Nat) (headers : Nat → GrainInfo) (slot : UInt16) :
    Except FabricsException UInt64 :=
  if slot.toNat ≥ n then .error invalidSlot else .ok (headers slot.toNat).index

/-- `RMAGrainIngressProtocol::read` of a completion with immediate data: the index
    it reports and the headers afterwards. -/
def readCompletion (n : Nat) (headers : Nat → GrainInfo) (immData : UInt32) :
    Except FabricsException (UInt64 × (Nat → GrainInfo)) := do
  let unpacked := ImmDataGrain.unpack immData
  let headers ← setValidSlicesForGrain n headers unpacked.ringBufferSlot unpacked.sliceIndex
  let grainIndex ← getGrainIndexInRingSlot n headers unpacked.ringBufferSlot
  .ok (grainIndex, headers)

/-! ### The system -/

/-- What a read reported, and the header then in the slot of the transfer that
    produced the completion. -/
structure GrainRead where
  write : GrainWrite
  grainIndex : UInt64
  header : GrainInfo

structure System where
  endpoint : RCInitiatorEndpoint
  /-- The latest call of `transferGrain`, sent or dropped. -/
  lastCall : Option GrainWrite
  /-- Posted and not yet placed, oldest first. -/
  inFlight : List GrainWrite
  /-- Placed, the completion not yet read, oldest first. -/
  completions : List GrainWrite
  headers : Nat → GrainInfo
  reads : List GrainRead

def System.init (headers : Nat → GrainInfo) : System where
  endpoint := .init
  lastCall := none
  inFlight := []
  completions := []
  headers := headers
  reads := []

inductive Action where
  | transferGrain (write : GrainWrite)
  | activate (now : Nat)
  | consume (event : FabricEvent) (now : Nat)
  | shutdown
  | terminate
  | place
  | lose
  | read

def step (n : Nat) (s : System) : Action → Option System
  | .transferGrain write =>
      if s.endpoint.isConnected then
        some { s with lastCall := some write, endpoint := s.endpoint.posted,
                      inFlight := s.inFlight ++ [write] }
      else some { s with lastCall := some write }
  | .activate now => some { s with endpoint := s.endpoint.activate now }
  | .consume event now => some { s with endpoint := s.endpoint.consume event now }
  | .shutdown => some { s with endpoint := s.endpoint.shutdown }
  | .terminate => some { s with endpoint := s.endpoint.terminate }
  | .place =>
      match s.inFlight with
      | [] => none
      | write :: writes =>
          some { s with inFlight := writes, completions := s.completions ++ [write],
                        headers := write.place n s.headers }
  | .lose => if s.endpoint.isConnected then none else some { s with inFlight := [] }
  | .read =>
      match s.completions with
      | [] => none
      | write :: writes =>
          match readCompletion n s.headers (write.immData n) with
          | .error _ => none
          | .ok (grainIndex, headers) =>
              some { s with completions := writes, headers := headers,
                            reads := ⟨write, grainIndex, headers (write.slot n)⟩ :: s.reads }

/-- The calls of `transferGrain` are in order: a grain is sent from slice 0 on,
    each range begins where the one before it ended, and the next grain has a
    larger index. -/
def InOrder (s : System) (write : GrainWrite) : Prop :=
  match s.lastCall with
  | none => write.range.start = 0
  | some last =>
      (write.info.index = last.info.index ∧ write.range.start = last.range.stop) ∨
        (last.info.index < write.info.index ∧ write.range.start = 0)

/-- The slot of a transfer has no unread completion of another grain. -/
def SlotRead (n : Nat) (s : System) (write : GrainWrite) : Prop :=
  ∀ unread ∈ s.inFlight ++ s.completions,
    unread.slot n = write.slot n → unread.info.index = write.info.index

/-- How the calls are made: in order, and with a target that keeps up. -/
def Usage (n : Nat) (s : System) : Action → Prop
  | .transferGrain write => InOrder s write ∧ (s.endpoint.isConnected → SlotRead n s write)
  | _ => True

/-- A range behind the first is sent only if the header of its grain is in the
    target's slot or on its way there. -/
def HeaderSent (n : Nat) (s : System) : Action → Prop
  | .transferGrain write => s.endpoint.isConnected → write.range.start = 0 ∨
      (s.headers (write.slot n)).index = write.info.index ∨
      ∃ earlier ∈ s.inFlight, earlier.slot n = write.slot n ∧ earlier.range.start = 0
  | _ => True

instance (s : System) (write : GrainWrite) : Decidable (InOrder s write) :=
  match h : s.lastCall with
  | none => decidable_of_iff (write.range.start = 0) (by rw [InOrder, h])
  | some last => decidable_of_iff
      ((write.info.index = last.info.index ∧ write.range.start = last.range.stop) ∨
        (last.info.index < write.info.index ∧ write.range.start = 0)) (by rw [InOrder, h])

instance (n : Nat) (s : System) (write : GrainWrite) : Decidable (SlotRead n s write) :=
  inferInstanceAs (Decidable (∀ unread ∈ s.inFlight ++ s.completions, _))

instance (n : Nat) (s : System) : (action : Action) → Decidable (Usage n s action)
  | .transferGrain _ => inferInstanceAs (Decidable (_ ∧ _))
  | .activate _ | .consume _ _ | .shutdown | .terminate | .place | .lose | .read => isTrue trivial

instance (n : Nat) (s : System) : (action : Action) → Decidable (HeaderSent n s action)
  | .transferGrain _ => inferInstanceAs (Decidable (_ → _))
  | .activate _ | .consume _ _ | .shutdown | .terminate | .place | .lose | .read => isTrue trivial

/-- Every read reported the index of its transfer, and stored its end slice in the
    header of that grain. -/
def ReadsCorrect (s : System) : Prop :=
  ∀ read ∈ s.reads, read.grainIndex = read.write.info.index ∧
    read.header.index = read.write.info.index ∧
    read.header.validSlices = read.write.range.stop

/-! ### Reading one completion -/

variable {n : Nat} {s t : System} {write : GrainWrite}

theorem slot_lt (hpos : 0 < n) (write : GrainWrite) : write.slot n < n := Nat.mod_lt _ hpos

/-- With at most 65536 slots the immediate data names the slot of the write, and
    the read stores the end slice there and returns the index it finds. -/
theorem readCompletion_eq (hpos : 0 < n) (hmax : n ≤ 65536) (headers : Nat → GrainInfo)
    (write : GrainWrite) :
    readCompletion n headers (write.immData n) =
      .ok ((headers (write.slot n)).index, Function.update headers (write.slot n)
        { headers (write.slot n) with validSlices := write.range.stop }) := by
  have hslot := slot_lt hpos write
  have hunpack : ImmDataGrain.unpack (write.immData n) =
      ImmDataGrain.pack (UInt64.ofNat (write.slot n)) write.range.stop :=
    ImmDataGrain.unpack_data _
  have hwire : (ImmDataGrain.pack (UInt64.ofNat (write.slot n)) write.range.stop).ringBufferSlot.toNat =
      write.slot n := by
    simp only [ImmDataGrain.pack, UInt64.toNat_toUInt16, UInt64.toNat_ofNat']
    omega
  unfold readCompletion
  rw [hunpack]
  simp only [setValidSlicesForGrain, getGrainIndexInRingSlot, hwire, ge_iff_le,
    if_neg (Nat.not_le.mpr hslot)]
  change Except.ok _ = _
  rw [Function.update_self]
  rfl

/-- The writes of the system are those the egress protocol posts: the same
    immediate data, and the header among the bytes exactly if slice 0 is. -/
theorem transferGrain_posts {proto : RMAGrainEgressProtocol} {format : GrainFormat}
    (hproto : proto.OfFormat format) (hlen : proto.remoteRegions.length = n)
    (hpos : 0 < format.sliceSizes[0].toNat)
    (hlt : write.range.start.toNat < write.range.stop.toNat)
    (hfits : 8192 + write.range.stop.toNat * format.sliceSizes[0].toNat ≤
      8192 + format.grainSize.toNat)
    (hgrain : 8192 + format.grainSize.toNat < 2 ^ 32) :
    ∃ rma, proto.transferGrain write.info.index write.info.index MXL_GRAIN_PAYLOAD_OFFSET
          write.range = .ok rma ∧
      rma.immData = some (write.immData n) ∧
      ((rma.range (proto.remoteSlot write.info.index)).1 = 0 ↔ write.range.start = 0) := by
  obtain ⟨rma, hrma, hrange, -, -, himm⟩ := proto.transferGrain_spec
    write.info.index write.info.index hproto hpos hlt hfits hgrain
  refine ⟨rma, hrma, ?_, ?_⟩
  · rw [himm, hlen]
    rfl
  · rw [hrange, SliceRange.start_eq_zero_iff, firstByte]
    split
    · next hzero => simp [hzero]
    · next hne => exact ⟨fun h => by simp at h, fun h => absurd h hne⟩

/-! ### What an action does -/

/-- Only a call on a connected endpoint, the fabric and the target's reads touch
    the writes and the headers. -/
theorem step_cases {action : Action} (h : step n s action = some t) :
    (∃ write, action = .transferGrain write ∧ s.endpoint.isConnected ∧
        t.inFlight = s.inFlight ++ [write] ∧ t.completions = s.completions ∧
        t.headers = s.headers ∧ t.reads = s.reads) ∨
      (∃ write writes, action = .place ∧ s.inFlight = write :: writes ∧ t.inFlight = writes ∧
        t.completions = s.completions ++ [write] ∧ t.headers = write.place n s.headers ∧
        t.reads = s.reads) ∨
      (∃ write writes grainIndex, action = .read ∧ s.completions = write :: writes ∧
        t.inFlight = s.inFlight ∧ t.completions = writes ∧
        readCompletion n s.headers (write.immData n) = .ok (grainIndex, t.headers) ∧
        t.reads = ⟨write, grainIndex, t.headers (write.slot n)⟩ :: s.reads) ∨
      ((t.inFlight = s.inFlight ∨ t.inFlight = []) ∧ t.completions = s.completions ∧
        t.headers = s.headers ∧ t.reads = s.reads) := by
  cases action with
  | transferGrain write =>
    by_cases hconnected : s.endpoint.isConnected
    · simp only [step, if_pos hconnected, Option.some.injEq] at h
      subst h
      exact Or.inl ⟨write, rfl, hconnected, rfl, rfl, rfl, rfl⟩
    · simp only [step, if_neg hconnected, Option.some.injEq] at h
      subst h
      exact Or.inr (Or.inr (Or.inr ⟨Or.inl rfl, rfl, rfl, rfl⟩))
  | place =>
    cases hflight : s.inFlight with
    | nil => simp [step, hflight] at h
    | cons write writes =>
      simp only [step, hflight, Option.some.injEq] at h
      subst h
      exact Or.inr (Or.inl ⟨write, writes, rfl, rfl, rfl, rfl, rfl, rfl⟩)
  | read =>
    cases hcompletions : s.completions with
    | nil => simp [step, hcompletions] at h
    | cons write writes =>
      cases hread : readCompletion n s.headers (write.immData n) with
      | error e => simp [step, hcompletions, hread] at h
      | ok result =>
        simp only [step, hcompletions, hread, Option.some.injEq] at h
        subst h
        exact Or.inr (Or.inr (Or.inl ⟨write, writes, result.1, rfl, rfl, rfl, rfl, hread, rfl⟩))
  | lose =>
    by_cases hconnected : s.endpoint.isConnected
    · simp [step, if_pos hconnected] at h
    · simp only [step, if_neg hconnected, Option.some.injEq] at h
      subst h
      exact Or.inr (Or.inr (Or.inr ⟨Or.inr rfl, rfl, rfl, rfl⟩))
  | activate now | consume event now | shutdown | terminate =>
    simp only [step, Option.some.injEq] at h
    subst h
    exact Or.inr (Or.inr (Or.inr ⟨Or.inl rfl, rfl, rfl, rfl⟩))

/-! ### The invariant -/

/-- The header of `write`'s grain is in the slot, or comes with a write of `writes`. -/
def HeaderComes (n : Nat) (headers : Nat → GrainInfo) (writes : List GrainWrite)
    (write : GrainWrite) : Prop :=
  (headers (write.slot n)).index = write.info.index ∨
    ∃ earlier ∈ writes, earlier.slot n = write.slot n ∧ earlier.range.start = 0

structure Invariant (n : Nat) (s : System) : Prop where
  /-- A slot has unread completions of one grain only. -/
  oneGrain : ∀ v ∈ s.inFlight ++ s.completions, ∀ w ∈ s.inFlight ++ s.completions,
    v.slot n = w.slot n → v.info.index = w.info.index
  placed : ∀ w ∈ s.completions, (s.headers (w.slot n)).index = w.info.index
  coming : ∀ before w after, s.inFlight = before ++ w :: after →
    HeaderComes n s.headers (before ++ [w]) w
  correct : ReadsCorrect s

theorem invariant_init (headers : Nat → GrainInfo) : Invariant n (.init headers) where
  oneGrain := by simp [System.init]
  placed := by simp [System.init]
  coming := by simp [System.init]
  correct := by simp [System.init, ReadsCorrect]

theorem index_place {headers : Nat → GrainInfo} {slot : Nat}
    (hsame : write.slot n = slot → write.info.index = (headers slot).index) :
    (write.place n headers slot).index = (headers slot).index := by
  unfold GrainWrite.place
  split
  · rcases eq_or_ne slot (write.slot n) with rfl | hne
    · rw [Function.update_self]
      exact hsame rfl
    · rw [Function.update_of_ne hne]
  · rfl

/-- Once a write is placed that carries the header, or finds it there, its slot
    holds the index of its grain. -/
theorem index_place_self {headers : Nat → GrainInfo}
    (hcomes : HeaderComes n headers [write] write) :
    (write.place n headers (write.slot n)).index = write.info.index := by
  unfold GrainWrite.place
  split
  · rw [Function.update_self]
  · next hstart =>
    rcases hcomes with hindex | ⟨earlier, hmem, -, hzero⟩
    · exact hindex
    · obtain rfl := List.mem_singleton.mp hmem
      exact absurd hzero hstart

theorem invariant_post (hs : Invariant n s) (hslot : SlotRead n s write)
    (hsent : HeaderComes n s.headers s.inFlight write ∨ write.range.start = 0)
    (hflight : t.inFlight = s.inFlight ++ [write]) (hcompletions : t.completions = s.completions)
    (hheaders : t.headers = s.headers) (hreads : t.reads = s.reads) : Invariant n t where
  oneGrain := by
    have hmem : ∀ v, v ∈ t.inFlight ++ t.completions ↔
        v ∈ s.inFlight ++ s.completions ∨ v = write := by
      intro v
      rw [hflight, hcompletions]
      simp only [List.mem_append, List.mem_singleton]
      tauto
    intro v hv w hw hvw
    rcases (hmem v).mp hv with hv | rfl <;> rcases (hmem w).mp hw with hw | rfl
    · exact hs.oneGrain v hv w hw hvw
    · exact hslot v hv hvw
    · exact (hslot w hw hvw.symm).symm
    · rfl
  placed := by
    rw [hcompletions, hheaders]
    exact hs.placed
  coming := by
    intro before w after hsplit
    rw [hflight] at hsplit
    rw [hheaders]
    rcases List.eq_nil_or_concat after with rfl | ⟨front, last, rfl⟩
    · -- `w` is the new write
      obtain ⟨rfl, hw⟩ := List.append_inj' hsplit rfl
      obtain rfl : write = w := by simpa using hw
      rcases hsent with (hindex | ⟨earlier, hmem, hsame, hzero⟩) | hzero
      · exact Or.inl hindex
      · exact Or.inr ⟨earlier, List.mem_append_left _ hmem, hsame, hzero⟩
      · exact Or.inr ⟨write, List.mem_append_right _ (List.mem_singleton_self _), rfl, hzero⟩
    · apply hs.coming before w front
      rw [List.concat_eq_append, ← List.cons_append, ← List.append_assoc] at hsplit
      exact (List.append_inj' hsplit rfl).1
  correct := by
    unfold ReadsCorrect
    rw [hreads]
    exact hs.correct

theorem invariant_place {writes : List GrainWrite} (hs : Invariant n s)
    (hflight : s.inFlight = write :: writes) (hflight' : t.inFlight = writes)
    (hcompletions : t.completions = s.completions ++ [write])
    (hheaders : t.headers = write.place n s.headers) (hreads : t.reads = s.reads) :
    Invariant n t where
  oneGrain := by
    have hmem : ∀ v, v ∈ t.inFlight ++ t.completions → v ∈ s.inFlight ++ s.completions := by
      intro v
      rw [hflight', hcompletions, hflight]
      simp only [List.mem_append, List.mem_cons, List.not_mem_nil]
      tauto
    intro v hv w hw
    exact hs.oneGrain v (hmem v hv) w (hmem w hw)
  placed := by
    have hself : (write.place n s.headers (write.slot n)).index = write.info.index :=
      index_place_self (hs.coming [] write writes hflight)
    intro w hw
    rw [hheaders]
    rw [hcompletions] at hw
    rcases List.mem_append.mp hw with hw | hw
    · have hindex := hs.placed w hw
      rw [index_place, hindex]
      intro hsame
      rw [hindex]
      exact hs.oneGrain write (by simp [hflight]) w (List.mem_append_right _ hw) hsame
    · obtain rfl := List.mem_singleton.mp hw
      exact hself
  coming := by
    have hself : (write.place n s.headers (write.slot n)).index = write.info.index :=
      index_place_self (hs.coming [] write writes hflight)
    intro before w after hsplit
    rw [hflight'] at hsplit
    have hw : w ∈ s.inFlight ++ s.completions := by simp [hflight, hsplit]
    have hgrain : write.slot n = w.slot n → write.info.index = w.info.index :=
      hs.oneGrain write (by simp [hflight]) w hw
    rw [hheaders]
    rcases hs.coming (write :: before) w after (by rw [hflight, hsplit]; rfl) with
      hindex | ⟨earlier, hmem, hsame, hzero⟩
    · left
      rw [index_place, hindex]
      intro hsame
      rw [hindex]
      exact hgrain hsame
    · rcases List.mem_cons.mp hmem with rfl | hmem
      · left
        rw [← hsame, hself]
        exact hgrain hsame
      · exact Or.inr ⟨earlier, hmem, hsame, hzero⟩
  correct := by
    unfold ReadsCorrect
    rw [hreads]
    exact hs.correct

theorem invariant_read (hpos : 0 < n) (hmax : n ≤ 65536) {writes : List GrainWrite}
    {grainIndex : UInt64} (hs : Invariant n s) (hcompletions : s.completions = write :: writes)
    (hflight : t.inFlight = s.inFlight) (hcompletions' : t.completions = writes)
    (hread : readCompletion n s.headers (write.immData n) = .ok (grainIndex, t.headers))
    (hreads : t.reads = ⟨write, grainIndex, t.headers (write.slot n)⟩ :: s.reads) :
    Invariant n t := by
  rw [readCompletion_eq hpos hmax] at hread
  obtain ⟨hindex, hheaders⟩ := Prod.mk.inj (Except.ok.inj hread)
  have hwrite : (s.headers (write.slot n)).index = write.info.index :=
    hs.placed write (by simp [hcompletions])
  -- the read stores the slice count and leaves every index as it is
  have hkeep : ∀ slot, (t.headers slot).index = (s.headers slot).index := by
    intro slot
    rw [← hheaders]
    rcases eq_or_ne slot (write.slot n) with rfl | hne
    · rw [Function.update_self]
    · rw [Function.update_of_ne hne]
  have hmem : ∀ v, v ∈ t.inFlight ++ t.completions → v ∈ s.inFlight ++ s.completions := by
    intro v
    rw [hflight, hcompletions', hcompletions]
    simp only [List.mem_append, List.mem_cons]
    tauto
  constructor
  · intro v hv w hw
    exact hs.oneGrain v (hmem v hv) w (hmem w hw)
  · intro w hw
    rw [hkeep]
    exact hs.placed w (by rw [hcompletions]; rw [hcompletions'] at hw; exact List.mem_cons_of_mem _ hw)
  · intro before w after hsplit
    rw [hflight] at hsplit
    unfold HeaderComes
    rw [hkeep]
    exact hs.coming before w after hsplit
  · intro read hmem
    rw [hreads] at hmem
    rcases List.mem_cons.mp hmem with rfl | hmem
    · refine ⟨hindex.symm.trans hwrite, (hkeep _).trans hwrite, ?_⟩
      simp only [← hheaders, Function.update_self]
    · exact hs.correct read hmem

theorem invariant_idle (hs : Invariant n s) (hflight : t.inFlight = s.inFlight ∨ t.inFlight = [])
    (hcompletions : t.completions = s.completions) (hheaders : t.headers = s.headers)
    (hreads : t.reads = s.reads) : Invariant n t := by
  have hmem : ∀ v, v ∈ t.inFlight ++ t.completions → v ∈ s.inFlight ++ s.completions := by
    intro v hv
    rw [hcompletions] at hv
    rcases hflight with hflight | hflight
    · rwa [hflight] at hv
    · rw [hflight] at hv
      exact List.mem_append_right _ hv
  constructor
  · intro v hv w hw
    exact hs.oneGrain v (hmem v hv) w (hmem w hw)
  · rw [hcompletions, hheaders]
    exact hs.placed
  · intro before w after hsplit
    rw [hheaders]
    rcases hflight with hflight | hflight
    · exact hs.coming before w after (by rw [← hflight]; exact hsplit)
    · rw [hflight] at hsplit
      exact absurd hsplit (by simp)
  · unfold ReadsCorrect
    rw [hreads]
    exact hs.correct

theorem invariant_step (hpos : 0 < n) (hmax : n ≤ 65536) {action : Action} (hs : Invariant n s)
    (husage : Usage n s action) (hsent : HeaderSent n s action) (h : step n s action = some t) :
    Invariant n t := by
  rcases step_cases h with ⟨write, rfl, hconnected, hflight, hcompletions, hheaders, hreads⟩ |
    ⟨write, writes, rfl, hflight, hflight', hcompletions, hheaders, hreads⟩ |
    ⟨write, writes, grainIndex, rfl, hcompletions, hflight, hcompletions', hread, hreads⟩ |
    ⟨hflight, hcompletions, hheaders, hreads⟩
  · apply invariant_post hs (husage.2 hconnected) _ hflight hcompletions hheaders hreads
    rcases hsent hconnected with hzero | hcomes
    · exact Or.inr hzero
    · exact Or.inl hcomes
  · exact invariant_place hs hflight hflight' hcompletions hheaders hreads
  · exact invariant_read hpos hmax hs hcompletions hflight hcompletions' hread hreads
  · exact invariant_idle hs hflight hcompletions hheaders hreads

/-- **The target reports what was transferred.**  In every run of two rings of the
    same size, at most 65536 slots, whose calls are in order and whose target
    keeps up: as long as no range behind the first is sent to a slot that the
    header of its grain has not reached and is not on its way to, every read
    reports the index of its transfer and stores its end slice in that grain's
    header. -/
theorem reads_report_transferred (hpos : 0 < n) (hmax : n ≤ 65536) (headers : Nat → GrainInfo)
    {actions : List Action} (husage : Along (step n) (Usage n) (.init headers) actions)
    (hsent : Along (step n) (HeaderSent n) (.init headers) actions) :
    Throughout (step n) ReadsCorrect (.init headers) actions := by
  have hinvariant : Throughout (step n) (Invariant n) (.init headers) actions := by
    apply throughout_of_along _ (invariant_init headers) (husage.and hsent)
    intro s action t hs hboth h
    exact invariant_step hpos hmax hs hboth.1 hboth.2 h
  exact hinvariant.mono fun _ hs => hs.correct

/-! ### Two grains of two slices -/

def grainHeader (index : UInt64) : GrainInfo :=
  { version := 1, size := 4096, index := index, flags := 0, grainSize := 256, totalSlices := 2,
    validSlices := 2 }

def firstSlice (index : UInt64) : GrainWrite := ⟨grainHeader index, 0, 1, Nat.zero_le _⟩

def secondSlice (index : UInt64) : GrainWrite := ⟨grainHeader index, 1, 2, Nat.le_succ 1⟩

/-- The endpoint is connected, grain 3 is sent slice by slice, grain 5 at once in
    the same slot. -/
def connectedRun : List Action :=
  [.activate 6000000000, .consume .connected 6000000000,
   .transferGrain (firstSlice 3), .transferGrain (secondSlice 3), .place, .read, .place, .read,
   .transferGrain (firstSlice 5), .place, .read]

theorem reads_of_connectedRun :
    ∃ s, run (step 2) (.init fun _ => grainHeader 0) connectedRun = some s ∧
      s.reads.map GrainRead.grainIndex = [5, 3, 3] ∧ ReadsCorrect s := by
  obtain ⟨s, hrun⟩ : ∃ s, run (step 2) (.init fun _ => grainHeader 0) connectedRun = some s :=
    ⟨_, rfl⟩
  refine ⟨s, hrun, ?_, ?_⟩
  · obtain rfl := Option.some.inj hrun
    rfl
  · have husage : Along (step 2) (Usage 2) (.init fun _ => grainHeader 0) connectedRun := by decide
    apply (reads_report_transferred Nat.two_pos (by decide) _ husage (by decide)).last hrun

/-- The first slice of grain 3 is handed over while the endpoint is still
    connecting, the second one when it is connected. -/
def lateConnectRun : List Action :=
  [.activate 6000000000, .transferGrain (firstSlice 3), .consume .connected 6000000000,
   .transferGrain (secondSlice 3), .place, .read]

/-- The target reports grain 0, the header it finds in the slot, and stores the two
    valid slices there. -/
theorem reports_stale_header :
    Along (step 2) (Usage 2) (.init fun _ => grainHeader 0) lateConnectRun ∧
      ∃ s, run (step 2) (.init fun _ => grainHeader 0) lateConnectRun = some s ∧
        s.reads.map (fun read => (read.write.info.index, read.grainIndex)) = [(3, 0)] ∧
        ¬ ReadsCorrect s := by
  refine ⟨by decide, ?_⟩
  obtain ⟨s, hrun⟩ : ∃ s, run (step 2) (.init fun _ => grainHeader 0) lateConnectRun = some s :=
    ⟨_, rfl⟩
  have hreads : s.reads.map (fun read => (read.write.info.index, read.grainIndex)) = [(3, 0)] := by
    obtain rfl := Option.some.inj hrun
    rfl
  refine ⟨s, hrun, hreads, fun hcorrect => ?_⟩
  have hpair : ((3 : UInt64), (0 : UInt64)) ∈
      s.reads.map (fun read => (read.write.info.index, read.grainIndex)) := by
    rw [hreads]
    exact List.mem_singleton_self _
  obtain ⟨read, hmem, heq⟩ := List.mem_map.mp hpair
  obtain ⟨hthree, hzero⟩ := Prod.mk.inj heq
  have hindex := (hcorrect read hmem).1
  rw [hthree, hzero] at hindex
  exact absurd hindex (by decide)

end MediaExchange.GrainTransfer
