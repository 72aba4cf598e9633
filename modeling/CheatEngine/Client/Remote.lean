/-
  CheatEngine.Client.Remote

  Server settings, remote files, named pipes and symbol lists: server.go,
  remote.go, pipe.go and symbol.go of internal/ceserver.
-/
import CheatEngine.Client.Process

namespace CheatEngine.Client

open CheatEngine.Lib

/-! ## Server (server.go) -/

def setConnectionName (name : List UInt8) : ClientM Unit := do
  if name = [] then throw (.plain (text "connection name cannot be empty"))
  else if maximumProtocolStringLength < name.length then
    throw (.plain ⟨"connection name exceeds %d bytes", [.int maximumProtocolStringLength]⟩)
  else if (0 : UInt8) ∈ name then
    throw (.plain (text "connection name contains a NUL byte"))
  else
    writePacket (commandSetConnectionName :: (u32 (UInt32.ofNat name.length) ++ name))

def terminateServer : ClientM Unit := do
  writePacket [commandTerminateServer]
  closeConnection

def serverPath : ClientM (List UInt8) := do
  writePacket [commandGetServerPath]
  readString16 "get server path"

def isAndroid : ClientM Bool := do
  writePacket [commandIsAndroid]
  let response ← readU8 "detect Android server"
  return response != 0

def currentPath : ClientM (List UInt8) := do
  writePacket [commandGetCurrentPath]
  readString16 "get current path"

structure ServerPathInfo where
  executablePath : List UInt8
  currentPath : List UInt8
  android : Bool

def pathInfo : ClientM ServerPathInfo := do
  let executablePath ← serverPath
  let current ← currentPath
  let android ← isAndroid
  return ⟨executablePath, current, android⟩

/-- A packet of one command and one string, or the error of
    `writeString16`. -/
def stringPacket (command : UInt8) (value : List UInt8) : ClientM (List UInt8) := do
  let field ← ExceptT.mk (return writeString16 value)
  return command :: field

def setCurrentPath (path : List UInt8) : ClientM Bool := do
  let packet ← stringPacket commandSetCurrentPath path
  writePacket packet
  let response ← readU8 "set current path"
  return response != 0

structure ServerOption where
  name : List UInt8
  parent : List UInt8
  description : List UInt8
  acceptableValues : List UInt8
  currentValue : List UInt8
  typeCode : Int32
  type : String

def optionTypeName (typeCode : Int32) : String :=
  if typeCode = 0 then "parent"
  else if typeCode = 1 then "boolean"
  else if typeCode = 2 then "integer"
  else if typeCode = 3 then "float"
  else if typeCode = 4 then "double"
  else if typeCode = 5 then "text"
  else "unknown"

def readOption : ClientM ServerOption := do
  let name ← readString16 "get server options"
  let parent ← readString16 "get server options"
  let description ← readString16 "get server options"
  let acceptableValues ← readString16 "get server options"
  let currentValue ← readString16 "get server options"
  let typeCode ← readI32 "get server option type"
  return ⟨name, parent, description, acceptableValues, currentValue, typeCode,
    optionTypeName typeCode⟩

def options : ClientM (List ServerOption) := do
  writePacket [commandGetOptions]
  let count ← readU16 "get server options"
  if 4096 < count.toNat then
    throw (.protocol "get server options" ⟨"invalid option count %d", [.int count.toNat]⟩)
  else readMany readOption count.toNat

def optionValue (name : List UInt8) : ClientM (List UInt8) := do
  let packet ← stringPacket commandGetOptionValue name
  writePacket packet
  readString16 "get server option"

def setOption (name value : List UInt8) : ClientM Unit := do
  let packet ← stringPacket commandSetOptionValue name
  let field ← ExceptT.mk (return writeString16 value)
  writePacket (packet ++ field)

/-! ## Remote files (remote.go) -/

structure RemoteFile where
  name : List UInt8
  typeCode : UInt8
  type : String

def remoteFileTypeName (typeCode : UInt8) : String :=
  if typeCode = 4 then "directory"
  else if typeCode = 8 then "file"
  else if typeCode = 10 then "symlink"
  else "unknown"

def listRemoteFilesLoop : Nat → List RemoteFile → ClientM (List RemoteFile)
  | 0, files => return files
  | fuel + 1, files => do
    let name ← readString16 "list remote files"
    if name = [] then return files
    else
      let typeCode ← readU8 "read remote file type"
      listRemoteFilesLoop fuel (files ++ [⟨name, typeCode, remoteFileTypeName typeCode⟩])

def listRemoteFiles (path : List UInt8) : ClientM (List RemoteFile) := do
  let packet ← stringPacket commandEnumerateFiles path
  writePacket packet
  listRemoteFilesLoop maximumCollectionEntries []

def remoteFilePermissions (path : List UInt8) : ClientM UInt32 := do
  let packet ← stringPacket commandGetFilePermissions path
  writePacket packet
  let response ← readU8 "get remote file permissions"
  if response = 0 then
    throw (.protocol "get remote file permissions"
      ⟨"path %q was not found or could not be inspected", [.str path]⟩)
  else readU32 "get remote file permissions"

def remoteBooleanOperation (operation : String) (packet : List UInt8) : ClientM Bool := do
  writePacket packet
  let response ← readU8 operation
  return response != 0

def setRemoteFilePermissions (path : List UInt8) (permissions : UInt32) : ClientM Bool := do
  let packet ← stringPacket commandSetFilePermissions path
  remoteBooleanOperation "set remote file permissions" (packet ++ u32 permissions)

def getRemoteFile (path : List UInt8) : ClientM (List UInt8) := do
  let packet ← stringPacket commandGetFile path
  writePacket packet
  let size ← readU32 "get remote file"
  if size = 0xFFFFFFFF then
    throw (.protocol "get remote file"
      ⟨"path %q was not found or could not be read", [.str path]⟩)
  else if maximumRemoteFileSize < size.toNat then
    throw (.protocol "get remote file" ⟨"remote file size %d exceeds client limit %d",
      [.int size.toNat, .int maximumRemoteFileSize]⟩)
  else readFull "get remote file content" size.toNat

def putRemoteFile (path content : List UInt8) : ClientM Bool := do
  if maximumRemoteFileSize < content.length then
    throw (.plain ⟨"local file size %d exceeds client limit %d",
      [.int content.length, .int maximumRemoteFileSize]⟩)
  else
    let packet ← stringPacket commandPutFile path
    remoteBooleanOperation "put remote file"
      (packet ++ u32 (UInt32.ofNat content.length) ++ content)

def createRemoteDirectory (path : List UInt8) : ClientM Bool := do
  let packet ← stringPacket commandCreateDirectory path
  remoteBooleanOperation "create remote directory" packet

def deleteRemotePath (path : List UInt8) : ClientM Bool := do
  let packet ← stringPacket commandDeleteFile path
  remoteBooleanOperation "delete remote path" packet

def openPipe (name : List UInt8) (timeoutMilliseconds : UInt32) : ClientM UInt32 := do
  let packet ← stringPacket commandOpenNamedPipe name
  writePacket (packet ++ u32 timeoutMilliseconds)
  let handle ← readU32 "open named pipe"
  if handle = 0 then
    throw (.protocol "open named pipe" ⟨"pipe %q was unavailable", [.str name]⟩)
  else return handle

def readPipe (handle size timeoutMilliseconds : UInt32) : ClientM (List UInt8) := do
  writePacket (commandPipeRead :: (u32 handle ++ u32 size ++ u32 timeoutMilliseconds))
  let bytesRead ← readI32 "read named pipe"
  if bytesRead.toInt < 0 ∨ size < bytesRead.toUInt32 then
    throw (.protocol "read named pipe" ⟨"invalid byte count %d", [.int bytesRead.toInt]⟩)
  else readFull "read named pipe data" bytesRead.toInt.toNat

def writePipe (handle : UInt32) (data : List UInt8) (timeoutMilliseconds : UInt32) :
    ClientM Int32 := do
  writePacket (commandPipeWrite ::
    (u32 handle ++ u32 (UInt32.ofNat data.length) ++ u32 timeoutMilliseconds ++ data))
  readI32 "write named pipe"

/-! ## Symbols (symbol.go) -/

structure Symbol where
  address : UInt64
  size : Int32
  type : Int32
  name : List UInt8
  deriving DecidableEq, Repr

structure SymbolList where
  path : List UInt8
  fileOffset : UInt32
  executable : Bool
  symbols : List Symbol

/-- `parseSymbols` from `position` on; every round takes at least the 17 bytes
    of a header, so `fuel` is the length of the data. -/
def parseSymbolsLoop : Nat → Nat → List UInt8 → List Symbol → Except ClientError (List Symbol)
  | 0, _, _, symbols => .ok symbols
  | fuel + 1, position, data, symbols =>
    if data = [] then .ok symbols
    else if data.length < 17 then
      .error (.protocol "parse symbols"
        ⟨"truncated symbol header at byte %d", [.int position]⟩)
    else
      let nameLength := (u8At data 16).toNat
      let rest := data.drop 17
      if rest.length < nameLength then
        .error (.protocol "parse symbols"
          ⟨"truncated symbol name at byte %d", [.int (position + 17)]⟩)
      else
        let name := rest.take nameLength
        let symbols :=
          if name ≠ [] then symbols ++ [⟨u64At data 0, i32At data 8, i32At data 12, name⟩]
          else symbols
        if maximumCollectionEntries < symbols.length then
          .error (.protocol "parse symbols" (text "symbol count exceeds client limit"))
        else
          parseSymbolsLoop fuel (position + 17 + nameLength) (rest.drop nameLength) symbols

def parseSymbols (data : List UInt8) : Except ClientError (List Symbol) :=
  parseSymbolsLoop data.length 0 data []

/-- `compress/zlib`: inflate a stream, reading at most the given number of
    bytes of the result; an error names the operation that failed. -/
abbrev Inflate : Type := List UInt8 → Nat → Except (String × String) (List UInt8)

def symbols (inflate : Inflate) (path : List UInt8) (fileOffset : UInt32) :
    ClientM SymbolList := do
  if path.length = 0 ∨ maximumProtocolStringLength < path.length then
    throw (.plain ⟨"symbol path must be between 1 and %d bytes",
      [.int maximumProtocolStringLength]⟩)
  else
    writePacket (commandGetSymbols ::
      (u32 fileOffset ++ u32 (UInt32.ofNat path.length) ++ path))
    let executable ← readU32 "get symbols"
    let totalSize ← readU32 "get symbols"
    if totalSize = 0 then
      throw (.protocol "get symbols" ⟨"no symbols were returned for %q", [.str path]⟩)
    else if totalSize.toNat < 12 ∨ maximumRemoteFileSize < totalSize.toNat then
      throw (.protocol "get symbols"
        ⟨"invalid compressed response size %d", [.int totalSize.toNat]⟩)
    else
      let decompressedSize ← readU32 "get symbols"
      if maximumRemoteFileSize < decompressedSize.toNat then
        throw (.protocol "get symbols"
          ⟨"symbol response exceeds %d bytes", [.int maximumRemoteFileSize]⟩)
      else
        let compressed ← readFull "get compressed symbols" (totalSize.toNat - 12)
        match inflate compressed (decompressedSize.toNat + 1) with
        | .error (operation, err) => throw (.protocol operation (text err))
        | .ok decompressed =>
          if decompressed.length ≠ decompressedSize.toNat then
            throw (.protocol "get symbols" ⟨"decompressed %d bytes, expected %d",
              [.int decompressed.length, .int decompressedSize.toNat]⟩)
          else
            let parsed ← ExceptT.mk (return parseSymbols decompressed)
            return ⟨path, fileOffset, executable != 0, parsed⟩

end CheatEngine.Client
