/-
  CheatEngine.Client.Memory

  Reading, writing and changing target memory: client.go (memory and region
  methods), region.go, mutation.go and aob.go.
-/
import CheatEngine.Client.Process

namespace CheatEngine.Client

open CheatEngine.Lib

/-! ## Values -/

def protectionString (protection : UInt32) : String :=
  if protection = 1 then "---"
  else if protection = 2 then "r--"
  else if protection = 4 then "rw-"
  else if protection = 8 then "rc-"
  else if protection = 16 then "--x"
  else if protection = 32 then "r-x"
  else if protection = 64 then "rwx"
  else "unknown"

def memoryTypeString (memoryType : UInt32) : String :=
  if memoryType = 131072 then "private"
  else if memoryType = 262144 then "mapped"
  else "unknown"

structure Region where
  baseAddress : UInt64
  size : UInt64
  protection : UInt32
  permissions : String
  type : UInt32
  typeName : String

/-- A region with the names of its protection and type. -/
def mkRegion (baseAddress size : UInt64) (protection type : UInt32) : Region :=
  ⟨baseAddress, size, protection, protectionString protection, type, memoryTypeString type⟩

structure RegionDetail where
  region : Region
  mapsLine : List UInt8

structure ProtectionChange where
  address : UInt64
  size : UInt32
  oldProtection : UInt32
  oldPermissions : String
  newProtection : UInt32
  newPermissions : String

def newRegionQueryFlags (pagedOnly dirtyOnly noShared : Bool) : UInt8 :=
  (if pagedOnly then 1 else 0) ||| (if dirtyOnly then 2 else 0) ||| (if noShared then 4 else 0)

def readMemoryWithHandle (handle : UInt32) (address : UInt64) (size : UInt32) :
    ClientM (List UInt8) := do
  writePacket (commandReadProcessMemory :: (u32 handle ++ u64 address ++ u32 size ++ u8 0))
  let bytesRead ← readI32 "read memory"
  if bytesRead.toInt < 0 ∨ size < bytesRead.toUInt32 then
    throw (.protocol "read memory" ⟨"invalid byte count %d", [.int bytesRead.toInt]⟩)
  else readFull "read memory bytes" bytesRead.toInt.toNat

def readMemory (pid : Int32) (address : UInt64) (size : UInt32) : ClientM (List UInt8) := do
  let handle ← openProcess pid
  deferClose handle (readMemoryWithHandle handle address size)

def writeMemory (pid : Int32) (address : UInt64) (data : List UInt8) : ClientM Int32 := do
  let handle ← openProcess pid
  deferClose handle do
    writePacket (commandWriteProcessMemory ::
      (i32 handle.toInt32 ++ i64 address.toInt64 ++ i32 (Int32.ofNat data.length) ++ data))
    readI32 "write memory"

def readRegion : ClientM Region := do
  let header ← readFull "list memory regions" 24
  return mkRegion (u64At header 0) (u64At header 8) (u32At header 16) (u32At header 20)

def regionsWithHandle (handle : UInt32) (flags : UInt8) : ClientM (List Region) := do
  writePacket (commandVirtualQueryExFull :: (u32 handle ++ u8 flags))
  let count ← readU32 "list memory regions"
  if maximumCollectionEntries < count.toNat then
    throw (.protocol "list memory regions" ⟨"invalid region count %d", [.int count.toNat]⟩)
  else readMany readRegion count.toNat

def regions (pid : Int32) (flags : UInt8) : ClientM (List Region) := do
  let handle ← openProcess pid
  deferClose handle (regionsWithHandle handle flags)

def regionInfo (pid : Int32) (address : UInt64) : ClientM RegionDetail := do
  let handle ← openProcess pid
  deferClose handle do
    writePacket (commandGetRegionInfo :: (u32 handle ++ u64 address))
    let header ← readFull "get region info" 25
    let mapLength ← readU8 "get region map line"
    let mapsLine ← readString "get region map line" mapLength.toNat
    if u8At header 0 = 0 then
      throw (.protocol "get region info" ⟨"address 0x%X was not mapped", [.int address.toNat]⟩)
    else
      return ⟨mkRegion (u64At header 9) (u64At header 17) (u32At header 1) (u32At header 5),
        mapsLine⟩

/-! ## Mutations (mutation.go) -/

def allocateMemory (pid : Int32) (preferredAddress : UInt64) (size protection : UInt32) :
    ClientM UInt64 := do
  let handle ← openProcess pid
  deferClose handle do
    writePacket (commandAllocateMemory ::
      (u32 handle ++ u64 preferredAddress ++ u32 size ++ u32 protection))
    let address ← readU64 "allocate memory"
    if address = 0 then
      throw (.protocol "allocate memory" (text "server could not allocate the requested region"))
    else return address

def freeMemory (pid : Int32) (address : UInt64) (size : UInt32) : ClientM Bool := do
  let handle ← openProcess pid
  deferClose handle do
    writePacket (commandFreeMemory :: (u32 handle ++ u64 address ++ u32 size))
    let result ← readU32 "free memory"
    return result != 0

def changeMemoryProtection (pid : Int32) (address : UInt64) (size protection : UInt32) :
    ClientM ProtectionChange := do
  let handle ← openProcess pid
  deferClose handle do
    writePacket (commandChangeMemoryProtection ::
      (u32 handle ++ u64 address ++ u32 size ++ u32 protection))
    let result ← readU32 "change memory protection"
    let oldProtection ← readU32 "change memory protection"
    if result ≠ 0 then
      throw (.protocol "change memory protection"
        ⟨"server returned failure code %d", [.int result.toNat]⟩)
    else
      return ⟨address, size, oldProtection, protectionString oldProtection, protection,
        protectionString protection⟩

/-- A `float32` given by its bits is neither NaN, infinite nor at most 0. -/
def isFinitePositive (bits : UInt32) : Bool := 0 < bits ∧ bits < 0x7F800000

section

variable (pid : Int32)

/-- `SetSpeed`; the speed is given by the bits of the `float32`. -/
def setSpeed (speed : UInt32) : ClientM Bool := do
  if isFinitePositive speed then
    let handle ← openProcess pid
    deferClose handle do
      writePacket (commandSetSpeed :: (u32 handle ++ u32 speed))
      let result ← readU32 "set process speed"
      return result != 0
  else throw (.plain (text "speed must be a finite positive number"))

def loadModule (remotePath : List UInt8) : ClientM UInt64 := do
  let handle ← openProcess pid
  deferClose handle do
    if maximumProtocolStringLength < remotePath.length then
      throw (.plain (text "module path exceeds protocol limit"))
    else
      writePacket (commandLoadModule ::
        (u32 handle ++ u32 (UInt32.ofNat remotePath.length) ++ remotePath))
      let address ← readU64 "load module"
      if address = 0 then
        throw (.protocol "load module" (text "server could not load the requested module"))
      else return address

def loadModuleEx (dlopenAddress : UInt64) (remotePath : List UInt8) : ClientM UInt64 := do
  let handle ← openProcess pid
  deferClose handle do
    if remotePath.length = 0 ∨ maximumProtocolStringLength < remotePath.length then
      throw (.plain ⟨"module path must be between 1 and %d bytes",
        [.int maximumProtocolStringLength]⟩)
    else
      writePacket (commandLoadModuleEx ::
        (u32 handle ++ u64 dlopenAddress ++ u32 (UInt32.ofNat remotePath.length) ++ remotePath))
      let address ← readU64 "load module with explicit dlopen"
      if address = 0 then
        throw (.protocol "load module with explicit dlopen"
          (text "server could not load the requested module"))
      else return address

def loadExtension : ClientM Bool := do
  let handle ← openProcess pid
  deferClose handle do
    writePacket (commandLoadExtension :: u32 handle)
    let result ← readI32 "load ceserver extension"
    return result != 0

def createRemoteThread (startAddress parameter : UInt64) : ClientM UInt32 := do
  let handle ← openProcess pid
  deferClose handle do
    writePacket (commandCreateRemoteThread :: (u32 handle ++ u64 startAddress ++ u64 parameter))
    let threadHandle ← readU32 "create remote thread"
    if threadHandle = 0 then
      throw (.protocol "create remote thread" (text "server could not create the requested thread"))
    else return threadHandle

def serverAOBScan (pattern mask : List UInt8) (start stop : UInt64)
    (alignment : Int64) (protection : UInt32) : ClientM (List UInt64) := do
  if pattern.length = 0 ∨ pattern.length ≠ mask.length then
    throw (.plain (text "pattern and mask must be non-empty and have equal lengths"))
  else if maximumServerAOBPatternSize < pattern.length then
    throw (.plain ⟨"pattern exceeds %d bytes", [.int maximumServerAOBPatternSize]⟩)
  else if alignment.toInt < 1 ∨ 2 ^ 31 - 1 < alignment.toInt then
    throw (.plain (text "alignment must fit a positive 32-bit integer"))
  else if stop ≤ start then
    throw (.plain (text "scan end must be greater than scan start"))
  else if mask.any fun value => value != 'x'.toUInt8 && value != '?'.toUInt8 then
    throw (.plain (text "mask may contain only 'x' and '?' bytes"))
  else
    let handle ← openProcess pid
    deferClose handle do
      writePacket (commandAOBScan ::
        (u32 handle ++ u64 start ++ u64 stop ++ i32 alignment.toInt32 ++ u32 protection ++
          i32 (Int32.ofNat pattern.length) ++ (pattern ++ mask)))
      let count ← readI32 "server AOB scan"
      if count.toInt < 0 ∨ maximumCollectionEntries < count.toInt then
        throw (.protocol "server AOB scan" ⟨"invalid match count %d", [.int count.toInt]⟩)
      else readMany (readU64 "server AOB scan matches") count.toInt.toNat

end

end CheatEngine.Client
