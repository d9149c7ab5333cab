/-
  MediaExchange/AncillaryData.lean
  ================================
  **Ancillary data grains.**

  `rust/gst-mxl-rs/src/format/data.rs`: a grain of format `video/smpte291` holds
  RFC 8331 packets behind a header with their total length and their number; a
  GStreamer buffer of `meta/x-st-2038` holds the same packets bare, in the bit
  layout of ST 2038.  Both layouts carry one `AncillaryMeta` for each packet.
  ST 2038 starts a packet with six zero bits and pads it to a byte with ones;
  RFC 8331 has `S` and `StreamNum` behind the offset, and pads to a multiple of
  four bytes with zeros.

  What is read of a buffer or a grain is an error or the rest of it; the two loops
  over the packets run as often as the source's, the first until the buffer is
  empty, the second `ANC_Count` times.
-/
import MediaExchange.Library.BitStream

namespace MediaExchange.AncillaryData

open MediaExchange.BitStream

def MXL_DATA_FORMAT_GRAIN_SIZE : Nat := 4096

inductive IoErrorKind
  | unexpectedEof
  | invalidInput
  deriving DecidableEq, Repr

inductive AncillaryMapError
  | invalid (message : String)
  | io (kind : IoErrorKind)
  deriving DecidableEq, Repr

/-- One ancillary data packet. -/
structure AncillaryMeta where
  cNotYChannel : Bool
  line : UInt16
  offset : UInt16
  did : UInt16
  sdidBlockNumber : UInt16
  /-- The low eight bits are the number of user data words. -/
  dataCount : UInt16
  data : List UInt16
  checksum : UInt16
  deriving DecidableEq, Repr

/-! ### Reading and writing words -/

/-- `r.read::<N, u16>()`. -/
def readU16 (n : Nat) (eof : AncillaryMapError) : Reader AncillaryMapError UInt16 := do
  let v ← read n eof
  pure (UInt16.ofNat v)

/-- `w.write::<N, u16>(v)`, with the error that becomes of the crate's. -/
def writeU16 (n : Nat) (v : UInt16) (excess : AncillaryMapError) (bits : List Bool) :
    Except AncillaryMapError (List Bool) := write n excess v.toNat bits

def eof : AncillaryMapError := .io .unexpectedEof

def excessive : AncillaryMapError := .io .invalidInput

/-! ### ST 2038 packets -/

def readSt2038Packet : Reader AncillaryMapError AncillaryMeta := do
  let zeroes ← read 6 (.invalid "read zero bits")
  ensure (zeroes = 0) (.invalid "ST 2038 leading zero bits must be zero")
  let cNotYChannel ← readBit (.invalid "read C flag")
  let line ← readU16 11 (.invalid "read line number")
  let offset ← readU16 12 (.invalid "read horizontal offset")
  let did ← readU16 10 (.invalid "read DID")
  let sdidBlockNumber ← readU16 10 (.invalid "read SDID")
  let dataCount ← readU16 10 (.invalid "read data count")
  let dataCount8 := (dataCount &&& 0xff).toNat
  let data ← readMany (readU16 10 (.invalid "read user data word")) dataCount8
  let checksum ← readU16 10 (.invalid "read checksum")
  -- the input is whole bytes: it does not end within this padding
  skipToByte true (.invalid "ST 2038 padding bits must be ones")
  pure { cNotYChannel, line, offset, did, sdidBlockNumber, dataCount, data, checksum }

/-- Read one packet from the front of `st2038`; also what is left of it. -/
def ancillaryMetaFromSt2038AncPacket (st2038 : List UInt8) :
    Except AncillaryMapError (AncillaryMeta × List UInt8) := onBytes readSt2038Packet st2038

def writeUserData (excess : AncillaryMapError) (data : List UInt16) (w : List Bool) :
    Except AncillaryMapError (List Bool) := writeMany 10 excess (data.map UInt16.toNat) w

/-- Append one packet to `st2038`. -/
def st2038AncPacketFromAncillaryMeta (st2038 : List UInt8) (ancMeta : AncillaryMeta) :
    Except AncillaryMapError (List UInt8) := do
  let w ← write 6 excessive 0 []
  let w := w ++ [ancMeta.cNotYChannel]
  let w ← writeU16 11 ancMeta.line excessive w
  let w ← writeU16 12 ancMeta.offset excessive w
  let w ← writeU16 10 ancMeta.did excessive w
  let w ← writeU16 10 ancMeta.sdidBlockNumber excessive w
  let w ← writeU16 10 ancMeta.dataCount excessive w
  let w ← writeUserData excessive ancMeta.data w
  let w ← writeU16 10 ancMeta.checksum excessive w
  pure (st2038 ++ ofBits (aligned true w))

/-! ### RFC 8331 packets -/

def readSmpte291Packet : Reader AncillaryMapError AncillaryMeta := do
  let cNotYChannel ← readBit eof
  let line ← readU16 11 eof
  let offset ← readU16 12 eof
  let _s ← read 1 eof
  let _streamNum ← read 7 eof
  let did ← readU16 10 eof
  let sdidBlockNumber ← readU16 10 eof
  let dataCount ← readU16 10 eof
  let dataCount8 := (dataCount &&& 0xff).toNat
  let data ← readMany (readU16 10 eof) dataCount8
  let checksum ← readU16 10 eof
  skipToByte false (.invalid "RFC 8331 padding bits must be zero")
  pure { cNotYChannel, line, offset, did, sdidBlockNumber, dataCount, data, checksum }

/-- Read zero bytes until the position is a multiple of four. -/
def skipToWord (position : Nat) : List UInt8 → Except AncillaryMapError (List UInt8)
  | [] => if position % 4 = 0 then .ok [] else .error eof
  | zero :: bytes =>
      if position % 4 = 0 then .ok (zero :: bytes)
      else if zero ≠ 0 then .error (.invalid "RFC 8331 padding bytes must be zero")
      else skipToWord (position + 1) bytes

/-- Read one packet from the front of `smpte291`; also what is left of it. -/
def ancillaryMetaFromSmpte291AncPacket (smpte291 : List UInt8) :
    Except AncillaryMapError (AncillaryMeta × List UInt8) := do
  let (ancMeta, left) ← onBytes readSmpte291Packet smpte291
  let left ← skipToWord (smpte291.length - left.length) left
  pure (ancMeta, left)

/-- Write zero bytes until there is a multiple of four. -/
def wordAlign (packet : List UInt8) : List UInt8 :=
  if packet.length % 4 = 0 then packet else wordAlign (packet ++ [0])
termination_by (4 - packet.length % 4) % 4
decreasing_by
  rw [List.length_append, List.length_singleton]
  omega

/-- Append one packet to `smpte291`. -/
def smpte291AncPacketFromAncillaryMeta (smpte291 : List UInt8) (ancMeta : AncillaryMeta) :
    Except AncillaryMapError (List UInt8) := do
  let w := [ancMeta.cNotYChannel]
  let w ← writeU16 11 ancMeta.line (.invalid "write line") w
  let w ← writeU16 12 ancMeta.offset (.invalid "write horizontal offset") w
  -- ST 2038 has neither `S` nor `StreamNum`
  let w := w ++ [false]
  let w ← write 7 (.invalid "write StreamNum") 0 w
  let w ← writeU16 10 ancMeta.did (.invalid "write DID") w
  let w ← writeU16 10 ancMeta.sdidBlockNumber (.invalid "write SDID") w
  let w ← writeU16 10 ancMeta.dataCount (.invalid "write data_count") w
  let w ← writeUserData (.invalid "write user data word") ancMeta.data w
  let w ← writeU16 10 ancMeta.checksum (.invalid "write checksum") w
  pure (smpte291 ++ wordAlign (ofBits (aligned false w)))

/-! ### Buffers and grains -/

def smpte291FromSt2038AncPacket (smpte291 st2038 : List UInt8) :
    Except AncillaryMapError (List UInt8 × List UInt8) := do
  let (ancMeta, st2038) ← ancillaryMetaFromSt2038AncPacket st2038
  let smpte291 ← smpte291AncPacketFromAncillaryMeta smpte291 ancMeta
  pure (smpte291, st2038)

def st2038FromSmpte291AncPacket (st2038 smpte291 : List UInt8) :
    Except AncillaryMapError (List UInt8 × List UInt8) := do
  let (ancMeta, smpte291) ← ancillaryMetaFromSmpte291AncPacket smpte291
  let st2038 ← st2038AncPacketFromAncillaryMeta st2038 ancMeta
  pure (st2038, smpte291)

/-- Below 255 packets the counter does not wrap. -/
theorem toNat_ancCount_succ {ancCount : UInt8} (h : ¬ancCount = 255) :
    (ancCount + 1).toNat = ancCount.toNat + 1 := by
  have hlt := ancCount.toNat_lt
  have hne : ancCount.toNat ≠ 255 := fun heq => h (UInt8.toNat_inj.mp heq)
  rw [UInt8.toNat_add]
  exact Nat.mod_eq_of_lt (by change ancCount.toNat + 1 < 256; omega)

/-- The loop of `mxlSmpte291GrainFromGstSt2038`: what is written, and the number of
    packets. -/
def convertToSmpte291 (smpte291 remaining : List UInt8) (ancCount : UInt8) :
    Except AncillaryMapError (List UInt8 × UInt8) :=
  if remaining = [] then .ok (smpte291, ancCount)
  else if ancCount = 255 then
    .error (.invalid "more than 255 ST 2038 ANC packets in one buffer")
  else
    match smpte291FromSt2038AncPacket smpte291 remaining with
    | .error e => .error e
    | .ok (smpte291, remaining) => convertToSmpte291 smpte291 remaining (ancCount + 1)
termination_by 255 - ancCount.toNat
decreasing_by
  have hlt := (ancCount + 1).toNat_lt
  have hsucc := toNat_ancCount_succ ‹¬ancCount = 255›
  omega

def padGrain (buf : List UInt8) : Except AncillaryMapError (List UInt8) :=
  if MXL_DATA_FORMAT_GRAIN_SIZE < buf.length then
    .error (.invalid "RFC 8331 payload exceeds MXL data grain size")
  else .ok (buf ++ List.replicate (MXL_DATA_FORMAT_GRAIN_SIZE - buf.length) 0)

/-- `Length`, `ANC_Count`, `F` and the reserved bits. -/
def grainHeader (length ancCount f reserved : Nat) : List UInt8 :=
  ofBits (bitsOfNat 16 length ++ bitsOfNat 8 ancCount ++ bitsOfNat 2 f ++ bitsOfNat 22 reserved)

def mxlSmpte291GrainFromGstSt2038 (st2038 : List UInt8) :
    Except AncillaryMapError (List UInt8) := do
  let header := grainHeader 0 0 0 0
  let (smpte291, ancCount) ← convertToSmpte291 header st2038 0
  let length := smpte291.length - header.length
  if 2 ^ 16 ≤ length then .error (.invalid "RFC 8331 Length overflow")
  else
    let smpte291 := smpte291.set 0 (UInt8.ofNat (length / 256))
    let smpte291 := smpte291.set 1 (UInt8.ofNat (length % 256))
    padGrain (smpte291.set 2 ancCount)

def readGrainHeader : Reader AncillaryMapError (Nat × Nat) := do
  let length ← read 16 eof
  let ancCount ← read 8 eof
  let _f ← read 2 eof
  let _reserved ← read 22 eof
  pure (length, ancCount)

/-- The loop of `gstSt2038FromMxlSmpte291Grain`. -/
def convertToSt2038 : Nat → List UInt8 → List UInt8 →
    Except AncillaryMapError (List UInt8 × List UInt8)
  | 0, st2038, remaining => .ok (st2038, remaining)
  | ancCount + 1, st2038, remaining => do
      let (st2038, remaining) ← st2038FromSmpte291AncPacket st2038 remaining
      convertToSt2038 ancCount st2038 remaining

def gstSt2038FromMxlSmpte291Grain (smpte291 : List UInt8) :
    Except AncillaryMapError (List UInt8) := do
  let ((length, ancCount), left) ← onBytes readGrainHeader smpte291
  let headerLen := smpte291.length - left.length
  if smpte291.length < headerLen + length then
    .error (.invalid "RFC 8331 Length exceeds MXL data grain size")
  else
    let (st2038, remaining) ← convertToSt2038 ancCount [] ((smpte291.drop headerLen).take length)
    if remaining ≠ [] then .error (.invalid "RFC 8331 Length does not match ANC_Count")
    else .ok st2038

end MediaExchange.AncillaryData
