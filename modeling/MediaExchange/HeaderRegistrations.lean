/-
  MediaExchange/HeaderRegistrations.lean
  ======================================
  **The entry headers of the sample protocols, and the domain they are registered
  with** (`Domain.cpp`, `RegisteredRegion.cpp`, `ProtocolEgressRMA.cpp`,
  `RDMInitiator.cpp`).

  A sample protocol sends the header of a bounce-buffer entry out of a vector of its
  own.  The headers are registered with the domain that all targets share, behind
  everything registered before; the protocol takes its regions from the end of the
  domain's list.

  A domain only ever grows.  A target that is removed takes its headers with it and
  leaves their registrations behind, and so does one whose registration fails half
  way.  What holds is `registered_regions`: the protocols' regions are their own
  headers', and the domain has the flow's region and those of all the headers that
  were ever registered.
-/
import MediaExchange.LayoutMismatch
import MediaExchange.RDMInitiator
import MediaExchange.Library.LabelledRun

namespace MediaExchange.HeaderRegistrations

open MediaExchange.LabelledRun

/-! ### The domain -/

/-- Memory as it is given to `fi_mr_regattr`. -/
structure Region where
  base : UInt64
  size : UInt64
deriving DecidableEq, Repr

structure RegisteredRegion where
  region : Region
  /-- `fi_mr_desc` of the memory region. -/
  desc : UInt64
deriving DecidableEq, Repr

def RegisteredRegion.toLocal (registered : RegisteredRegion) : LocalRegion :=
  { addr := registered.region.base, len := registered.region.size, desc := registered.desc }

/-- What comes out of `addTarget`: an exception of the library, or `FabricException`
    for a region that was not registered. -/
inductive RegisterException where
  | fabrics (exception : FabricsException)
  | registration
deriving DecidableEq, Repr

structure Domain where
  registeredRegions : List RegisteredRegion

namespace Domain

def opened : Domain := { registeredRegions := [] }

def localRegions (domain : Domain) : List LocalRegion :=
  domain.registeredRegions.map RegisteredRegion.toLocal

def add (domain : Domain) (region : Region) (desc : UInt64) : Domain :=
  { registeredRegions := domain.registeredRegions ++ [{ region := region, desc := desc }] }

/-- `registerRegion`, where `mr` is the descriptor of the memory region, if there is
    one. -/
def registerRegion (domain : Domain) (region : Region) :
    Option UInt64 → Except RegisterException Unit × Domain
  | none => (.error .registration, domain)
  | some desc => (.ok (), domain.add region desc)

/-- `registerRegions`, where `mr k` comes of the `k`-th region.  What was registered
    before a failure stays in the list. -/
def registerRegions (domain : Domain) (mr : Nat → Option UInt64) :
    List Region → Except RegisterException Unit × Domain
  | [] => (.ok (), domain)
  | region :: regions =>
      match mr 0 with
      | none => (.error .registration, domain)
      | some desc => (domain.add region desc).registerRegions (fun k => mr (k + 1)) regions

end Domain

/-! ### The protocol -/

/-- The region of the `j`-th of the headers at an address, each of two words. -/
def headerRegion (headers : UInt64) (j : Nat) : Region :=
  { base := headers + 16 * UInt64.ofNat j, size := 16 }

def headerRegions (headers : UInt64) (count : Nat) : List Region :=
  (List.range count).map (headerRegion headers)

/-- What there is to an `RMASampleEgressProtocol` for the domain. -/
structure SampleProtocol where
  /-- The address of `_entryHeaders`. -/
  headers : UInt64
  bounceBufferEntryCount : UInt32
  entryHeaderRegions : List LocalRegion
deriving DecidableEq, Repr

/-- `registerMemory`. -/
def SampleProtocol.registerMemory (proto : SampleProtocol) (domain : Domain)
    (mr : Nat → Option UInt64) : Except RegisterException SampleProtocol × Domain :=
  if proto.bounceBufferEntryCount.toNat = 0 then
    (.error (.fabrics RMASampleEgressProtocol.headersNotInitialized), domain)
  else
    let offset := domain.localRegions.length
    match domain.registerRegions mr
        (headerRegions proto.headers proto.bounceBufferEntryCount.toNat) with
    | (.error exception, domain) => (.error exception, domain)
    | (.ok (), domain) =>
        (.ok { proto with entryHeaderRegions := domain.localRegions.drop offset }, domain)

/-- `createInstance` of the template that has registered `localRegion`; the headers
    are allocated at `headers`. -/
def createInstance (localRegion : Option LocalRegion) (headers : UInt64) (info : TargetInfo) :
    Except FabricsException SampleProtocol :=
  match localRegion, info.bounceBufferInfo with
  | none, _ => .error RMASampleEgressProtocolTemplate.notRegistered
  | some _, none => .error RMASampleEgressProtocolTemplate.noBounceBufferInfo
  | some _, some bounceBufferInfo =>
      .ok
        { headers := headers
          bounceBufferEntryCount := bounceBufferInfo.entryCount.toUInt32
          entryHeaderRegions := [] }

/-! ### The initiator -/

structure SampleTarget extends RemoteTarget where
  proto : SampleProtocol

/-- A datagram initiator of a sample flow. -/
structure SampleInitiator where
  targets : OrderedMap Token SampleTarget
  remoteEndpoints : OrderedMap TargetInfoId Token
  domain : Domain
  /-- `_localRegion` of the template. -/
  localRegion : Option LocalRegion

inductive Call where
  /-- The token that is drawn, the address of the new headers and what comes of their
      registrations are not the caller's. -/
  | addTarget (id : TargetInfoId) (info : TargetInfo) (token : Token) (headers : UInt64)
      (mr : Nat → Option UInt64)
  | removeTarget (id : TargetInfoId)

namespace SampleInitiator

def alreadyRegistered : FabricsException := .invalidState "Memory already registered."

def previouslyRegistered : FabricsException :=
  .invalidState "No memory should be previously registered."

/-- `registerMemory` of the template. -/
def registerMemory (localRegion : Option LocalRegion) (domain : Domain) (region : Region)
    (mr : Option UInt64) : Except RegisterException (Option LocalRegion) × Domain :=
  if localRegion.isSome then (.error (.fabrics alreadyRegistered), domain)
  else if domain.localRegions ≠ [] then (.error (.fabrics previouslyRegistered), domain)
  else
    match domain.registerRegion region mr with
    | (.error exception, domain) => (.error exception, domain)
    | (.ok (), domain) => (.ok domain.localRegions.head?, domain)

/-- `setup`, for the region of the flow. -/
def setup (region : Region) (mr : Option UInt64) : Except RegisterException SampleInitiator :=
  match registerMemory none .opened region mr with
  | (.error exception, _) => .error exception
  | (.ok localRegion, domain) =>
      .ok
        { targets := .empty
          remoteEndpoints := .empty
          domain := domain
          localRegion := localRegion }

def alreadyAdded (id : TargetInfoId) : FabricsException :=
  .alreadyExists ("A target with endpoint id " ++ toString id ++
    " has already been added to this initiator.")

/-- `addTarget`. -/
def addTarget (initiator : SampleInitiator) (id : TargetInfoId) (info : TargetInfo) (token : Token)
    (headers : UInt64) (mr : Nat → Option UInt64) :
    Except RegisterException Unit × SampleInitiator :=
  match initiator.remoteEndpoints.get? id with
  | some _ => (.error (.fabrics (alreadyAdded id)), initiator)
  | none =>
      match createInstance initiator.localRegion headers info with
      | .error exception => (.error (.fabrics exception), initiator)
      | .ok proto =>
          match proto.registerMemory initiator.domain mr with
          | (.error exception, domain) => (.error exception, { initiator with domain := domain })
          | (.ok proto, domain) =>
              (.ok (),
                { initiator with
                  targets :=
                    initiator.targets.emplace token
                      { info := id, target := .init, proto := proto }
                  remoteEndpoints := initiator.remoteEndpoints.emplace id token
                  domain := domain })

/-- The initiator of `RDMInitiator.lean`, without the memory. -/
def forget (initiator : SampleInitiator) : RDMInitiator :=
  { targets := initiator.targets.map fun _ target => target.toRemoteTarget
    remoteEndpoints := initiator.remoteEndpoints }

/-- `removeTarget`: the protocol goes with its target, and the domain is not told. -/
def removeTarget (initiator : SampleInitiator) (id : TargetInfoId) :
    Except RegisterException Unit × SampleInitiator :=
  match initiator.forget.findRemoteByEndpoint id with
  | .error exception => (.error (.fabrics exception), initiator)
  | .ok token =>
      (.ok (),
        { initiator with
          targets := initiator.targets.eraseIf fun key _ => decide (key = token)
          remoteEndpoints := initiator.remoteEndpoints.eraseIf fun key _ => decide (key = id) })

def call (initiator : SampleInitiator) : Call → Except RegisterException Unit × SampleInitiator
  | .addTarget id info token headers mr => initiator.addTarget id info token headers mr
  | .removeTarget id => initiator.removeTarget id

/-- A new initiator. -/
def init (region : Region) (desc : UInt64) : SampleInitiator where
  targets := .empty
  remoteEndpoints := .empty
  domain := Domain.opened.add region desc
  localRegion := some { addr := region.base, len := region.size, desc := desc }

/-! ### The initiator without the memory -/

/-- A target that is added is added to the initiator without the memory, and one that
    is refused or not registered is not. -/
theorem forget_addTarget (initiator : SampleInitiator) (id : TargetInfoId) (info : TargetInfo)
    (token : Token) (headers : UInt64) (mr : Nat → Option UInt64) :
    match initiator.addTarget id info token headers mr with
    | (.ok (), added) => initiator.forget.addTarget token id = .ok added.forget
    | (.error _, left) => left.forget = initiator.forget := by
  rw [addTarget]
  cases hid : initiator.remoteEndpoints.get? id with
  | some _ => rfl
  | none =>
    cases createInstance initiator.localRegion headers info with
    | error exception => rfl
    | ok proto =>
      dsimp only
      generalize proto.registerMemory initiator.domain mr = result
      obtain ⟨outcome, domain⟩ := result
      cases outcome with
      | error exception => rfl
      | ok proto => simp [RDMInitiator.addTarget, forget, hid, OrderedMap.map_emplace]

theorem forget_removeTarget (initiator : SampleInitiator) (id : TargetInfoId) :
    match initiator.removeTarget id with
    | (.ok (), left) => initiator.forget.removeTarget id = .ok left.forget
    | (.error exception, left) =>
        left = initiator ∧
          ∃ thrown, exception = .fabrics thrown ∧ initiator.forget.removeTarget id = .error thrown := by
  rw [removeTarget, RDMInitiator.removeTarget]
  cases initiator.forget.findRemoteByEndpoint id with
  | error exception => exact ⟨rfl, exception, rfl, rfl⟩
  | ok token => simp [forget, OrderedMap.map_eraseIf_key]

/-! ### What the calls should register -/

/-- The number of registrations that succeed before one fails. -/
def registrations (mr : Nat → Option UInt64) : Nat → Nat
  | 0 => 0
  | count + 1 =>
      match mr 0 with
      | none => 0
      | some _ => registrations (fun k => mr (k + 1)) count + 1

/-- The headers a call registers: those of a target with a bounce buffer that was not
    there, up to the first failure. -/
def newRegions (initiator : SampleInitiator) : Call → List Region
  | .addTarget id info _ headers mr =>
      match initiator.remoteEndpoints.get? id, info.bounceBufferInfo with
      | none, some bounceBufferInfo =>
          let count := bounceBufferInfo.entryCount.toUInt32.toNat
          (headerRegions headers count).take (registrations mr count)
      | _, _ => []
  | .removeTarget _ => []

/-- The header regions of the targets that are there. -/
def presentRegions (initiator : SampleInitiator) : List Region :=
  initiator.targets.entries.flatMap fun entry =>
    headerRegions entry.2.proto.headers entry.2.proto.bounceBufferEntryCount.toNat

end SampleInitiator

/-- An initiator, and the headers that its calls have registered. -/
structure Tracked where
  initiator : SampleInitiator
  registered : List Region

def Tracked.init (region : Region) (desc : UInt64) : Tracked :=
  { initiator := .init region desc, registered := [] }

/-- A call; one that throws leaves what it leaves. -/
def Tracked.step (s : Tracked) (c : Call) : Option Tracked :=
  some
    { initiator := (s.initiator.call c).2
      registered := s.registered ++ s.initiator.newRegions c }

/-- The `j`-th region of the protocol is a registration of its `j`-th header. -/
def DescribesHeaders (domain : Domain) (proto : SampleProtocol) : Prop :=
  proto.entryHeaderRegions.length = proto.bounceBufferEntryCount.toNat ∧
    ∀ j < proto.bounceBufferEntryCount.toNat, ∃ registered ∈ domain.registeredRegions,
      registered.region = headerRegion proto.headers j ∧
        proto.entryHeaderRegions[j]? = some registered.toLocal

/-- Every target's protocol describes its own headers. -/
def TargetsDescribed (initiator : SampleInitiator) : Prop :=
  ∀ token target, initiator.targets.get? token = some target →
    DescribesHeaders initiator.domain target.proto

/-- The domain has the flow's region and those that were registered since. -/
def Accounted (region : Region) (s : Tracked) : Prop :=
  TargetsDescribed s.initiator ∧
    s.initiator.domain.registeredRegions.map RegisteredRegion.region = region :: s.registered

/-- No registration outlives its header: the domain has the flow's region and those of
    the targets that are there. -/
def OnlyPresent (region : Region) (s : Tracked) : Prop :=
  TargetsDescribed s.initiator ∧
    List.Perm (s.initiator.domain.registeredRegions.map RegisteredRegion.region)
      (region :: s.initiator.presentRegions)

/-! ### Registration -/

/-- A registration appends regions, up to the first that fails. -/
theorem registerRegions_eq (domain : Domain) (mr : Nat → Option UInt64) (regions : List Region) :
    ∃ added, (domain.registerRegions mr regions).2.registeredRegions =
        domain.registeredRegions ++ added ∧
      added.map RegisteredRegion.region =
        regions.take (SampleInitiator.registrations mr regions.length) ∧
      ((domain.registerRegions mr regions).1 = .ok () →
        added.map RegisteredRegion.region = regions) := by
  induction regions generalizing domain mr with
  | nil => exact ⟨[], by simp [Domain.registerRegions]⟩
  | cons region regions ih =>
    rw [Domain.registerRegions, List.length_cons, SampleInitiator.registrations]
    cases mr 0 with
    | none => exact ⟨[], by simp⟩
    | some desc =>
      obtain ⟨added, hlist, htake, hok⟩ := ih (domain.add region desc) fun k => mr (k + 1)
      refine ⟨{ region := region, desc := desc } :: added, ?_, ?_, ?_⟩
      · simpa [Domain.add] using hlist
      · simpa using htake
      · intro h
        simpa using hok h

/-- What a protocol that registered its memory has for regions. -/
theorem describesHeaders_of_registered {domain : Domain} {proto : SampleProtocol}
    {before added : List RegisteredRegion} (hdomain : domain.registeredRegions = before ++ added)
    (hadded : added.map RegisteredRegion.region =
      headerRegions proto.headers proto.bounceBufferEntryCount.toNat)
    (hregions : proto.entryHeaderRegions = added.map RegisteredRegion.toLocal) :
    DescribesHeaders domain proto := by
  have hlength : added.length = proto.bounceBufferEntryCount.toNat := by
    simpa [headerRegions] using congrArg List.length hadded
  refine ⟨by simp [hregions, hlength], ?_⟩
  intro j hj
  have hlt : j < added.length := hlength ▸ hj
  refine ⟨added[j], ?_, ?_, ?_⟩
  · rw [hdomain]
    exact List.mem_append_right before (List.getElem_mem hlt)
  · have hget := congrArg (fun regions => regions[j]?) hadded
    simpa [headerRegions, hlt, hj] using hget
  · simp [hregions, hlt]

/-- A domain that grows takes nothing away. -/
theorem DescribesHeaders.mono {domain domain' : Domain} {proto : SampleProtocol}
    {added : List RegisteredRegion}
    (hdomain : domain'.registeredRegions = domain.registeredRegions ++ added)
    (h : DescribesHeaders domain proto) : DescribesHeaders domain' proto := by
  refine ⟨h.1, ?_⟩
  intro j hj
  obtain ⟨registered, hmem, hregion, hlocal⟩ := h.2 j hj
  refine ⟨registered, ?_, hregion, hlocal⟩
  rw [hdomain]
  exact List.mem_append_left added hmem

/-- `registerMemory` of a protocol: the domain grows, and the protocol that comes back
    describes its headers. -/
theorem registerMemory_eq (proto : SampleProtocol) (domain : Domain) (mr : Nat → Option UInt64) :
    ∃ added, (proto.registerMemory domain mr).2.registeredRegions =
        domain.registeredRegions ++ added ∧
      added.map RegisteredRegion.region =
        (headerRegions proto.headers proto.bounceBufferEntryCount.toNat).take
          (SampleInitiator.registrations mr proto.bounceBufferEntryCount.toNat) ∧
      ∀ proto', (proto.registerMemory domain mr).1 = .ok proto' →
        DescribesHeaders (proto.registerMemory domain mr).2 proto' := by
  rw [SampleProtocol.registerMemory]
  by_cases hcount : proto.bounceBufferEntryCount.toNat = 0
  · rw [if_pos hcount]
    exact ⟨[], by simp [hcount, headerRegions]⟩
  · rw [if_neg hcount]
    obtain ⟨added, hlist, htake, hok⟩ := registerRegions_eq domain mr
      (headerRegions proto.headers proto.bounceBufferEntryCount.toNat)
    have hlength : (headerRegions proto.headers proto.bounceBufferEntryCount.toNat).length =
        proto.bounceBufferEntryCount.toNat := by
      simp [headerRegions]
    rw [hlength] at htake
    generalize domain.registerRegions mr
      (headerRegions proto.headers proto.bounceBufferEntryCount.toNat) = result at hlist hok ⊢
    obtain ⟨outcome, domain'⟩ := result
    cases outcome with
    | error exception =>
      refine ⟨added, hlist, htake, ?_⟩
      intro proto' h
      cases h
    | ok _ =>
      refine ⟨added, hlist, htake, ?_⟩
      intro proto' h
      obtain rfl := Except.ok.inj h
      change DescribesHeaders domain' _
      refine describesHeaders_of_registered hlist ?_ ?_
      · exact hok rfl
      · simp only at hlist
        simp [Domain.localRegions, hlist]

/-! ### One call -/

namespace SampleInitiator

/-- A target that is refused changes nothing, one that is not registers its headers. -/
theorem addTarget_cases (initiator : SampleInitiator) (id : TargetInfoId) (info : TargetInfo)
    (token : Token) (headers : UInt64) (mr : Nat → Option UInt64)
    (hregistered : initiator.localRegion.isSome) :
    ((initiator.addTarget id info token headers mr).2 = initiator ∧
      initiator.newRegions (.addTarget id info token headers mr) = []) ∨
    ∃ added domain,
      domain.registeredRegions = initiator.domain.registeredRegions ++ added ∧
      added.map RegisteredRegion.region =
        initiator.newRegions (.addTarget id info token headers mr) ∧
      ((initiator.addTarget id info token headers mr).2 = { initiator with domain := domain } ∨
        ∃ proto, DescribesHeaders domain proto ∧
          (initiator.addTarget id info token headers mr).2 =
            { initiator with
              targets :=
                initiator.targets.emplace token { info := id, target := .init, proto := proto }
              remoteEndpoints := initiator.remoteEndpoints.emplace id token
              domain := domain }) := by
  obtain ⟨targets, remoteEndpoints, before, _ | localRegion⟩ := initiator
  · cases hregistered
  rw [addTarget, newRegions]
  dsimp only
  cases remoteEndpoints.get? id with
  | some _ => exact Or.inl ⟨rfl, rfl⟩
  | none =>
    cases hbounce : info.bounceBufferInfo with
    | none =>
      left
      simp only [createInstance, hbounce, and_self]
    | some bounceBufferInfo =>
      right
      simp only [createInstance, hbounce]
      obtain ⟨added, hlist, htake, hok⟩ := registerMemory_eq
        { headers := headers
          bounceBufferEntryCount := bounceBufferInfo.entryCount.toUInt32
          entryHeaderRegions := [] } before mr
      generalize SampleProtocol.registerMemory _ before mr = result at hlist hok ⊢
      obtain ⟨outcome, domain⟩ := result
      refine ⟨added, domain, hlist, htake, ?_⟩
      cases outcome with
      | error exception => exact Or.inl rfl
      | ok proto => exact Or.inr ⟨proto, hok proto rfl, rfl⟩

/-- A removal takes targets away, and leaves the domain as it is. -/
theorem removeTarget_cases (initiator : SampleInitiator) (id : TargetInfoId) :
    (initiator.removeTarget id).2.domain = initiator.domain ∧
      (initiator.removeTarget id).2.localRegion = initiator.localRegion ∧
      ∀ token target, (initiator.removeTarget id).2.targets.get? token = some target →
        initiator.targets.get? token = some target := by
  rw [removeTarget]
  cases initiator.forget.findRemoteByEndpoint id with
  | error exception => exact ⟨rfl, rfl, fun token target h => h⟩
  | ok removed =>
    refine ⟨rfl, rfl, ?_⟩
    intro token target h
    dsimp only at h
    rw [OrderedMap.get?_erase] at h
    split at h
    · cases h
    · exact h

end SampleInitiator

/-! ### Whole runs -/

/-- The invariant: besides, the template keeps its region. -/
def Invariant (region : Region) (s : Tracked) : Prop :=
  Accounted region s ∧ s.initiator.localRegion.isSome

/-- What a domain that has grown makes of the invariant. -/
theorem TargetsDescribed.mono {initiator : SampleInitiator} {domain : Domain}
    {added : List RegisteredRegion}
    (hdomain : domain.registeredRegions = initiator.domain.registeredRegions ++ added)
    (h : TargetsDescribed initiator) :
    TargetsDescribed { initiator with domain := domain } :=
  fun token target hget => (h token target hget).mono hdomain

theorem invariant_step (region : Region) (s : Tracked) (c : Call) (t : Tracked)
    (h : Invariant region s) (hstep : s.step c = some t) : Invariant region t := by
  obtain rfl := Option.some.inj hstep
  obtain ⟨⟨hdescribed, hdomain⟩, hregistered⟩ := h
  cases c with
  | addTarget id info token headers mr =>
    rcases s.initiator.addTarget_cases id info token headers mr hregistered with
      ⟨hsame, hnew⟩ | ⟨added, domain, hlist, hnew, houtcome⟩
    · rw [Invariant, Accounted, SampleInitiator.call, hsame, hnew, List.append_nil]
      exact ⟨⟨hdescribed, hdomain⟩, hregistered⟩
    · have hregions : domain.registeredRegions.map RegisteredRegion.region =
          region :: (s.registered ++
            s.initiator.newRegions (.addTarget id info token headers mr)) := by
        rw [hlist, List.map_append, hdomain, hnew, List.cons_append]
      rcases houtcome with hthrown | ⟨proto, hproto, hadded⟩
      · rw [Invariant, Accounted, SampleInitiator.call, hthrown]
        exact ⟨⟨hdescribed.mono hlist, hregions⟩, hregistered⟩
      · rw [Invariant, Accounted, SampleInitiator.call, hadded]
        refine ⟨⟨?_, hregions⟩, hregistered⟩
        intro key target hget
        rw [OrderedMap.get?_emplace] at hget
        split at hget
        · obtain rfl := Option.some.inj hget
          -- the token may be one that was drawn before, and its target stays
          cases hold : s.initiator.targets.get? token with
          | none => exact hproto
          | some old => exact (hdescribed token old hold).mono hlist
        · exact (hdescribed key target hget).mono hlist
  | removeTarget id =>
    obtain ⟨hsame, hlocal, htargets⟩ := s.initiator.removeTarget_cases id
    refine ⟨⟨?_, ?_⟩, ?_⟩
    · intro token target hget
      change DescribesHeaders (s.initiator.removeTarget id).2.domain target.proto
      rw [hsame]
      exact hdescribed token target (htargets token target hget)
    · change (s.initiator.removeTarget id).2.domain.registeredRegions.map _ =
        region :: (s.registered ++ [])
      rw [hsame, List.append_nil]
      exact hdomain
    · change (s.initiator.removeTarget id).2.localRegion.isSome
      rw [hlocal]
      exact hregistered

/-- **What is registered.**  However targets are added and removed, each target's
    protocol has the regions of its own headers, and the domain has the flow's region
    and those of all headers registered so far. -/
theorem registered_regions (region : Region) (desc : UInt64) (calls : List Call) :
    Throughout Tracked.step (Accounted region) (Tracked.init region desc) calls := by
  have hinit : Invariant region (Tracked.init region desc) := by
    refine ⟨⟨?_, rfl⟩, rfl⟩
    intro token target hget
    cases hget
  exact (throughout_of_step (invariant_step region) hinit calls).mono fun s h => h.1

/-! ### A target that was removed -/

def exampleRegion : Region := { base := 4096, size := 1024 }

/-- A target with a bounce buffer of two entries, added and removed. -/
def exampleCalls : List Call :=
  [.addTarget 7
      { remoteRegions := [{ addr := 0, len := 64, rkey := 1 }, { addr := 64, len := 64, rkey := 2 }]
        bounceBufferInfo := some { entryCount := 2, entrySize := 64 } }
      11 8192 (fun k => some (UInt64.ofNat (k + 1))),
    .removeTarget 7]

theorem removed_target_registered :
    ¬ Throughout Tracked.step (OnlyPresent exampleRegion) (Tracked.init exampleRegion 0)
      exampleCalls := by
  intro h
  obtain ⟨t, hrun, hlength, hpresent⟩ : ∃ t,
      run Tracked.step (Tracked.init exampleRegion 0) exampleCalls = some t ∧
      t.initiator.domain.registeredRegions.length = 3 ∧ t.initiator.presentRegions = [] :=
    ⟨_, rfl, rfl, rfl⟩
  have hperm := (h.last hrun).2.length_eq
  rw [List.length_map, hlength, hpresent] at hperm
  exact absurd hperm (by decide)

end MediaExchange.HeaderRegistrations
