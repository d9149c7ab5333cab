/-
  MediaExchange/FabricRegions.lean
  ================================
  **Regions of registered memory and the writes posted on them**
  (`LocalRegion.cpp`, `RemoteRegion.cpp`, `Exception.hpp`, `Endpoint.cpp`).

  A transfer over the fabric reads regions of the initiator's memory and writes
  one region of the target's.  Addresses and lengths are 64-bit, and the checks
  on them are computed in 64 bits, as in the source.
-/
import MediaExchange.Status

namespace MediaExchange

/-- The exceptions of the fabrics library, by the status they carry. -/
inductive FabricsException where
  | invalidArgument (message : String)
  | invalidState (message : String)
  | notFound (message : String)
  | alreadyExists (message : String)
  | interrupted (message : String)
deriving DecidableEq, Repr

structure LocalRegion where
  addr : UInt64
  len : UInt64
  desc : UInt64
deriving DecidableEq, Repr

structure RemoteRegion where
  addr : UInt64
  len : UInt64
  rkey : UInt64
deriving DecidableEq, Repr

def LocalRegion.sub (region : LocalRegion) (offset length : UInt64) :
    Except FabricsException LocalRegion :=
  if offset + length > region.len then
    .error (.invalidState "Tried to access out-of-bounds sub region of LocalRegion")
  else
    .ok { addr := region.addr + offset, len := length, desc := region.desc }

def RemoteRegion.sub (region : RemoteRegion) (offset length : UInt64) :
    Except FabricsException RemoteRegion :=
  if offset + length > region.len then
    .error (.invalidArgument "Invalid offset and length for remote region")
  else
    .ok { addr := region.addr + offset, len := length, rkey := region.rkey }

/-- One RMA write as it is handed to `fi_writemsg`: the local regions are gathered
    one after the other into the remote one; the immediate data, if there is
    any, is reported to the target once the bytes are in place. -/
structure RmaWrite where
  msgIov : List LocalRegion
  rmaIov : RemoteRegion
  immData : Option UInt32
deriving DecidableEq, Repr

/-- `Endpoint::write` of a single region. -/
def Endpoint.write (region : LocalRegion) (remote : RemoteRegion) (immData : Option UInt32) :
    RmaWrite :=
  { msgIov := [region], rmaIov := remote, immData := immData }

theorem LocalRegion.sub_eq_ok {region : LocalRegion} {offset length : UInt64}
    (h : offset.toNat + length.toNat ≤ region.len.toNat) :
    region.sub offset length =
      .ok { addr := region.addr + offset, len := length, desc := region.desc } := by
  have hlen := region.len.toNat_lt
  rw [LocalRegion.sub, if_neg]
  rw [gt_iff_lt, UInt64.not_lt, UInt64.le_iff_toNat_le, UInt64.toNat_add, Nat.mod_eq_of_lt]
  · exact h
  · omega

theorem RemoteRegion.sub_eq_ok {region : RemoteRegion} {offset length : UInt64}
    (h : offset.toNat + length.toNat ≤ region.len.toNat) :
    region.sub offset length =
      .ok { addr := region.addr + offset, len := length, rkey := region.rkey } := by
  have hlen := region.len.toNat_lt
  rw [RemoteRegion.sub, if_neg]
  rw [gt_iff_lt, UInt64.not_lt, UInt64.le_iff_toNat_le, UInt64.toNat_add, Nat.mod_eq_of_lt]
  · exact h
  · omega

end MediaExchange
