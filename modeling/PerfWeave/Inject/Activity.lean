/-
This file models `perfweave-cupti-inject/src/activity.rs`: the parser of CUPTI activity records.
A record is read out of the bytes of a buffer at the offsets of its packed layout; of a layout
only the fields an event takes are read. What stands behind a kernel's name pointer is memory of
the traced process, so the text of a name is a parameter.
-/

import PerfWeave.Library.LittleEndian
import PerfWeave.Library.MachineInt
import PerfWeave.Proto

namespace PerfWeave

variable {Value : Type}

/-- `ActivityKind`: the kinds the parser knows. -/
inductive ActivityKind where
  | invalid
  | memcpy
  | memset
  | kernel
  | driver
  | runtime
  | concurrentKernel
  | memcpy2
  | overhead
  deriving DecidableEq

/-- `kind as u32`. -/
def ActivityKind.asU32 : ActivityKind → UInt32
  | .invalid => 0
  | .memcpy => 1
  | .memset => 2
  | .kernel => 3
  | .driver => 4
  | .runtime => 5
  | .concurrentKernel => 12
  | .memcpy2 => 22
  | .overhead => 27

/-! ### Record layouts -/

/-- The size of `ActivityHeader`. -/
def headerSize : Nat := 4

/-- `read_at::<u8>`. -/
def readU8 (buf : Nat → UInt8) (offset : Nat) : UInt8 := buf offset

/-- `read_at::<u32>`. -/
def readU32 (buf : Nat → UInt8) (offset : Nat) : UInt32 := UInt32.ofNat (readLE buf offset 4)

/-- `read_at::<u64>`. -/
def readU64 (buf : Nat → UInt8) (offset : Nat) : UInt64 := UInt64.ofNat (readLE buf offset 8)

/-- `ActivityKernel7`: a kernel launch. -/
structure ActivityKernel7 where
  registersPerThread : UInt32
  start : UInt64
  stop : UInt64
  deviceId : UInt32
  contextId : UInt32
  streamId : UInt32
  gridX : UInt32
  gridY : UInt32
  gridZ : UInt32
  blockX : UInt32
  blockY : UInt32
  blockZ : UInt32
  staticSharedMemory : UInt32
  dynamicSharedMemory : UInt32
  localMemoryPerThread : UInt32
  correlationId : UInt32
  namePtr : UInt64

/-- The size of `ActivityKernel7`. -/
def kernel7Size : Nat := 232

/-- The kernel record at the start of a buffer. -/
def ActivityKernel7.read (buf : Nat → UInt8) : ActivityKernel7 where
  registersPerThread := readU32 buf 8
  start := readU64 buf 20
  stop := readU64 buf 28
  deviceId := readU32 buf 40
  contextId := readU32 buf 44
  streamId := readU32 buf 48
  gridX := readU32 buf 52
  gridY := readU32 buf 56
  gridZ := readU32 buf 60
  blockX := readU32 buf 64
  blockY := readU32 buf 68
  blockZ := readU32 buf 72
  staticSharedMemory := readU32 buf 76
  dynamicSharedMemory := readU32 buf 80
  localMemoryPerThread := readU32 buf 84
  correlationId := readU32 buf 92
  namePtr := readU64 buf 104

/-- `ActivityMemcpy6`: a copy. -/
structure ActivityMemcpy6 where
  copyKind : UInt8
  bytes : UInt64
  start : UInt64
  stop : UInt64
  deviceId : UInt32
  contextId : UInt32
  streamId : UInt32
  correlationId : UInt32

/-- The size of `ActivityMemcpy6`. -/
def memcpy6Size : Nat := 88

/-- The copy record at the start of a buffer. -/
def ActivityMemcpy6.read (buf : Nat → UInt8) : ActivityMemcpy6 where
  copyKind := readU8 buf 4
  bytes := readU64 buf 8
  start := readU64 buf 16
  stop := readU64 buf 24
  deviceId := readU32 buf 32
  contextId := readU32 buf 36
  streamId := readU32 buf 40
  correlationId := readU32 buf 44

/-- `ActivityMemset4`: a fill. -/
structure ActivityMemset4 where
  bytes : UInt64
  start : UInt64
  stop : UInt64
  deviceId : UInt32
  contextId : UInt32
  streamId : UInt32
  correlationId : UInt32

/-- The size of `ActivityMemset4`. -/
def memset4Size : Nat := 76

/-- The fill record at the start of a buffer. -/
def ActivityMemset4.read (buf : Nat → UInt8) : ActivityMemset4 where
  bytes := readU64 buf 8
  start := readU64 buf 16
  stop := readU64 buf 24
  deviceId := readU32 buf 32
  contextId := readU32 buf 36
  streamId := readU32 buf 40
  correlationId := readU32 buf 44

/-- `ActivityApi`: a driver or runtime call. -/
structure ActivityApi where
  cbid : UInt32
  start : UInt64
  stop : UInt64
  processId : UInt32
  threadId : UInt32
  correlationId : UInt32
  returnValue : UInt32

/-- The size of `ActivityApi`. -/
def apiSize : Nat := 40

/-- The call record at the start of a buffer. -/
def ActivityApi.read (buf : Nat → UInt8) : ActivityApi where
  cbid := readU32 buf 4
  start := readU64 buf 8
  stop := readU64 buf 16
  processId := readU32 buf 24
  threadId := readU32 buf 28
  correlationId := readU32 buf 32
  returnValue := readU32 buf 36

/-! ### Events of records -/

variable (hash : String → UInt64)

/-- The event of a kernel record. `nameAt` gives the text behind a name pointer. -/
def ActivityKernel7.toEvent (nameAt : UInt64 → String) (k7 : ActivityKernel7) : Event Value where
  tsNs := k7.start
  durationNs := saturatingSub k7.stop k7.start
  nodeId := 0
  gpuId := k7.deviceId
  pid := 0
  tid := 0
  ctxId := k7.contextId
  streamId := k7.streamId
  category := Category.kernel.asI32
  nameId := hash (if k7.namePtr = 0 then "<unknown_kernel>" else nameAt k7.namePtr)
  correlationId := k7.correlationId.toUInt64
  parentId := 0
  payload := some (.kernel {
    gridX := k7.gridX
    gridY := k7.gridY
    gridZ := k7.gridZ
    blockX := k7.blockX
    blockY := k7.blockY
    blockZ := k7.blockZ
    staticSharedMemBytes := k7.staticSharedMemory
    dynamicSharedMemBytes := k7.dynamicSharedMemory
    registersPerThread := k7.registersPerThread
    localMemPerThread := k7.localMemoryPerThread
    launchCbid := 0 })

/-- The direction of a copy record. -/
def copyDirection (copyKind : UInt8) : MemcpyKind :=
  if copyKind = 1 then .h2d
  else if copyKind = 2 then .d2h
  else if copyKind = 3 then .h2h
  else if copyKind = 4 then .d2d
  else if copyKind = 10 then .p2p
  else .unknown

/-- The event of a copy record. -/
def ActivityMemcpy6.toEvent (m : ActivityMemcpy6) : Event Value where
  tsNs := m.start
  durationNs := saturatingSub m.stop m.start
  nodeId := 0
  gpuId := m.deviceId
  pid := 0
  tid := 0
  ctxId := m.contextId
  streamId := m.streamId
  category := Category.memcpy.asI32
  nameId := hash "cudaMemcpy"
  correlationId := m.correlationId.toUInt64
  parentId := 0
  payload := some (.memcpy {
    kind := (copyDirection m.copyKind).asI32
    bytes := m.bytes
    srcDevice := m.deviceId
    dstDevice := m.deviceId })

/-- The event of a fill record. -/
def ActivityMemset4.toEvent (m : ActivityMemset4) : Event Value where
  tsNs := m.start
  durationNs := saturatingSub m.stop m.start
  nodeId := 0
  gpuId := m.deviceId
  pid := 0
  tid := 0
  ctxId := m.contextId
  streamId := m.streamId
  category := Category.memset.asI32
  nameId := hash "cudaMemset"
  correlationId := m.correlationId.toUInt64
  parentId := 0
  payload := some (.memcpy {
    kind := 0
    bytes := m.bytes
    srcDevice := m.deviceId
    dstDevice := m.deviceId })

/-- The event of a call record. -/
def ActivityApi.toEvent (a : ActivityApi) : Event Value where
  tsNs := a.start
  durationNs := saturatingSub a.stop a.start
  nodeId := 0
  gpuId := 0
  pid := a.processId
  tid := a.threadId
  ctxId := 0
  streamId := 0
  category := Category.apiCall.asI32
  nameId := hash "cuApi"
  correlationId := a.correlationId.toUInt64
  parentId := 0
  payload := some (.api ⟨a.cbid, a.returnValue⟩)

/-! ### The parser -/

/-- A record of the given size: all that remains is skipped when it is cut off. -/
def recordOfSize (size remaining : Nat) (event : Event Value) : Nat × Option (Event Value) :=
  if remaining < size then (remaining, none) else (size, some event)

/-- `parse_record`: the bytes the record takes and its event, if it has one. -/
def parseRecord (nameAt : UInt64 → String) (buf : Nat → UInt8) (remaining : Nat) :
    Nat × Option (Event Value) :=
  if remaining < headerSize then
    (remaining, none)
  else
    let kind := readU32 buf 0
    if kind = ActivityKind.kernel.asU32 ∨ kind = ActivityKind.concurrentKernel.asU32 then
      recordOfSize kernel7Size remaining ((ActivityKernel7.read buf).toEvent hash nameAt)
    else if kind = ActivityKind.memcpy.asU32 ∨ kind = ActivityKind.memcpy2.asU32 then
      recordOfSize memcpy6Size remaining ((ActivityMemcpy6.read buf).toEvent hash)
    else if kind = ActivityKind.memset.asU32 then
      recordOfSize memset4Size remaining ((ActivityMemset4.read buf).toEvent hash)
    else if kind = ActivityKind.runtime.asU32 ∨ kind = ActivityKind.driver.asU32 then
      recordOfSize apiSize remaining ((ActivityApi.read buf).toEvent hash)
    else
      (headerSize, none)

/-! ### What a record becomes -/

/-- The classes of records that become events; a call is not tied to a GPU. -/
inductive ActivityClass where
  | kernel (gpuId : UInt32)
  | memcpy (gpuId : UInt32)
  | memset (gpuId : UInt32)
  | api
  deriving DecidableEq

namespace ActivityClass

/-- The category of the events of a class. -/
def category : ActivityClass → Category
  | .kernel _ => .kernel
  | .memcpy _ => .memcpy
  | .memset _ => .memset
  | .api => .apiCall

/-- The GPU of the events of a class. -/
def gpuId : ActivityClass → UInt32
  | .kernel gpuId => gpuId
  | .memcpy gpuId => gpuId
  | .memset gpuId => gpuId
  | .api => 0

end ActivityClass

/-- An event as the parser makes it for a class. -/
structure Event.OfClass (e : Event Value) (activity : ActivityClass) : Prop where
  category : e.category = activity.category.asI32
  gpuId : e.gpuId = activity.gpuId
  nodeId : e.nodeId = 0

theorem readU32_writeLE (bytes : Nat → UInt8) (offset : Nat) (word : UInt32) :
    readU32 (writeLE bytes offset 4 word.toNat) offset = word := by
  have small : word.toNat < 256 ^ 4 := word.toNat_lt
  rw [readU32, readLE_writeLE, Nat.mod_eq_of_lt small, UInt32.ofNat_toNat]

theorem readU64_writeLE (bytes : Nat → UInt8) (offset : Nat) (word : UInt64) :
    readU64 (writeLE bytes offset 8 word.toNat) offset = word := by
  have small : word.toNat < 256 ^ 8 := word.toNat_lt
  rw [readU64, readLE_writeLE, Nat.mod_eq_of_lt small, UInt64.ofNat_toNat]

/-- A kind, a start and a device can be written into one buffer. -/
theorem exists_buffer (kind : UInt32) (start : UInt64) (device : UInt32) {startAt deviceAt : Nat}
    (afterKind : 4 ≤ startAt) (afterStart : startAt + 8 ≤ deviceAt) :
    ∃ buf, readU32 buf 0 = kind ∧ readU64 buf startAt = start ∧ readU32 buf deviceAt = device := by
  refine ⟨writeLE (writeLE (writeLE (fun _ => 0) 0 4 kind.toNat) startAt 8 start.toNat) deviceAt 4
    device.toNat, ?_, ?_, readU32_writeLE _ _ _⟩
  · rw [readU32, readLE_writeLE_of_disjoint _ _ (by omega),
      readLE_writeLE_of_disjoint _ _ (by omega)]
    exact readU32_writeLE _ _ _
  · rw [readU64, readLE_writeLE_of_disjoint _ _ (by omega)]
    exact readU64_writeLE _ _ _

/-- There is a record of every class and every start. -/
theorem exists_record (hash : String → UInt64) (nameAt : UInt64 → String)
    (activity : ActivityClass) (start : UInt64) :
    ∃ (buf : Nat → UInt8) (remaining : Nat) (e : Event Value),
      (parseRecord hash nameAt buf remaining).2 = some e ∧ e.OfClass activity ∧
        e.tsNs = start := by
  unfold parseRecord
  cases activity with
  | kernel gpuId =>
    obtain ⟨buf, kind, starts, device⟩ := exists_buffer ActivityKind.kernel.asU32 start gpuId
      (by decide : 4 ≤ 20) (by decide : 20 + 8 ≤ 40)
    refine ⟨buf, kernel7Size, (ActivityKernel7.read buf).toEvent hash nameAt, ?_,
      ⟨rfl, device, rfl⟩, starts⟩
    simp only [kind]
    rfl
  | memcpy gpuId =>
    obtain ⟨buf, kind, starts, device⟩ := exists_buffer ActivityKind.memcpy.asU32 start gpuId
      (by decide : 4 ≤ 16) (by decide : 16 + 8 ≤ 32)
    refine ⟨buf, memcpy6Size, (ActivityMemcpy6.read buf).toEvent hash, ?_,
      ⟨rfl, device, rfl⟩, starts⟩
    simp only [kind]
    rfl
  | memset gpuId =>
    obtain ⟨buf, kind, starts, device⟩ := exists_buffer ActivityKind.memset.asU32 start gpuId
      (by decide : 4 ≤ 16) (by decide : 16 + 8 ≤ 32)
    refine ⟨buf, memset4Size, (ActivityMemset4.read buf).toEvent hash, ?_,
      ⟨rfl, device, rfl⟩, starts⟩
    simp only [kind]
    rfl
  | api =>
    obtain ⟨buf, kind, starts, _⟩ := exists_buffer ActivityKind.runtime.asU32 start 0
      (by decide : 4 ≤ 8) (by decide : 8 + 8 ≤ 36)
    refine ⟨buf, apiSize, (ActivityApi.read buf).toEvent hash, ?_, ⟨rfl, rfl, rfl⟩, starts⟩
    simp only [kind]
    rfl

end PerfWeave
