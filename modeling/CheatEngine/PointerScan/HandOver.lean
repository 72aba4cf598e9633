/-
  CheatEngine.PointerScan.HandOver

  Paths that are handed over to another controller (pointerscancontroller.pas).
  `BuildPathListForTransmission` takes paths out of the two queues of the sender,
  while its workers go on; then they are written to the connection, which may fail
  at any byte.

  `sendPathsToParent` has no handler for an exception, so that the paths are gone
  when the connection fails; the other two senders put them back, but after
  `GIVEMEYOURPATHS` nothing tells the sender whether they arrived.
-/
import CheatEngine.PointerScan.PathStream

namespace CheatEngine.PointerScan

open CheatEngine.Lib

/-- The queues.  `held` tokens are with workers that have not taken an entry yet;
    `taken` are the entries that workers took, and `added` those that they put in. -/
structure Node where
  pathqueue : List PathQueueElement
  overflowqueue : List PathQueueElement
  semaphore : Nat
  held : Nat
  taken : List PathQueueElement
  added : List PathQueueElement

/-- What other threads do with the queues. -/
inductive Act
  | acquire
  | giveBack
  | take
  | push (e : PathQueueElement)
  | overflow (e : PathQueueElement)
  | eat

namespace Node

/-- `ReleaseSemaphore`, which fails above the maximum. -/
def released (semaphore count : Nat) : Nat :=
  if semaphore + count ≤ maxQueueSize then semaphore + count else semaphore

def eatFromOverflowQueueIfNeeded (n : Node) : Node :=
  if n.overflowqueue ≠ [] ∧ n.pathqueue.length < maxQueueSize - 1 then
    let count := min n.overflowqueue.length (maxQueueSize - n.pathqueue.length)
    { n with
      pathqueue := n.pathqueue ++ n.overflowqueue.reverse.take count
      overflowqueue := n.overflowqueue.take (n.overflowqueue.length - count)
      semaphore := released n.semaphore count }
  else n

def appendDynamicPathQueueToOverflowQueue (n : Node) (paths : List PathQueueElement) : Node :=
  { n with overflowqueue := n.overflowqueue ++ paths }.eatFromOverflowQueueIfNeeded

/-- An act of another thread.  While `pathqueueCS` is held only the tokens and the
    overflow queue can be reached. -/
def act (locked : Bool) (n : Node) : Act → Node
  | .acquire =>
    if 0 < n.semaphore then { n with semaphore := n.semaphore - 1, held := n.held + 1 } else n
  | .giveBack =>
    if 0 < n.held then { n with held := n.held - 1, semaphore := released n.semaphore 1 } else n
  | .take =>
    if !locked && 0 < n.held then
      match n.pathqueue.getLast? with
      | some e =>
        { n with
          held := n.held - 1, pathqueue := n.pathqueue.dropLast, taken := n.taken ++ [e] }
      | none => { n with held := n.held - 1 }
    else n
  | .push e =>
    if !locked && n.pathqueue.length < maxQueueSize - 1 then
      { n with
        pathqueue := n.pathqueue ++ [e], semaphore := released n.semaphore 1,
        added := n.added ++ [e] }
    else n
  | .overflow e => { n with overflowqueue := n.overflowqueue ++ [e], added := n.added ++ [e] }
  | .eat => if locked then n else n.eatFromOverflowQueueIfNeeded

def run (locked : Bool) (n : Node) (acts : List Act) : Node := exec (act locked) n acts

end Node

/-- The best path.  Without room in `paths` the assignment raises, after the token
    was taken. -/
def takeGoodPath (count : Nat) (n : Node) : Node × Option (List PathQueueElement) :=
  match n.pathqueue with
  | [] => (n, some [])
  | e :: queue =>
    if 0 < n.semaphore then
      if count = 0 then ({ n with semaphore := n.semaphore - 1 }, none)
      else ({ n with semaphore := n.semaphore - 1, pathqueue := queue }, some [e])
    else (n, some [])

def takeOverflow (count : Nat) (paths : List PathQueueElement) (n : Node) :
    Node × List PathQueueElement :=
  let c := min (count - paths.length) n.overflowqueue.length
  ({ n with overflowqueue := n.overflowqueue.take (n.overflowqueue.length - c) },
    paths ++ n.overflowqueue.reverse.take c)

/-- One turn of the last loop: entry `i` is taken if there is a token, and the queue
    gets shorter by its last entry. -/
def tryTake (queue : List PathQueueElement) (i : Nat) (n : Node) (paths : List PathQueueElement) :
    Node × List PathQueueElement :=
  match queue[i]? with
  | none => (n, paths)
  | some e =>
    if 0 < n.semaphore then
      ({ n with semaphore := n.semaphore - 1, pathqueue := n.pathqueue.dropLast }, paths ++ [e])
    else (n, paths)

/-- The last loop, from entry `i - 1` down; `tries` is what others do before each
    try. -/
def takeBack (count : Nat) (tries : Nat → List Act) (queue : List PathQueueElement) :
    Nat → Node → List PathQueueElement → Node × List PathQueueElement
  | 0, n, paths => (n, paths)
  | i + 1, n, paths =>
    let (n, paths) := tryTake queue i (n.run true (tries i)) paths
    if count ≤ paths.length then (n, paths) else takeBack count tries queue i n paths

def pathCount (count : Int) : Nat := min count.toNat 65535

/-- The first two parts. -/
def buildStart (count : Int) (includeVeryGoodPath : Bool) (between : Nat → List Act) (n : Node) :
    Node × Option (List PathQueueElement) :=
  let n := n.run false (between 0)
  match if includeVeryGoodPath then takeGoodPath (pathCount count) n else (n, some []) with
  | (n, none) => (n, none)
  | (n, some paths) =>
    if pathCount count ≤ paths.length then (n, some paths)
    else
      let (n, paths) := takeOverflow (pathCount count) paths (n.run false (between 1))
      (n, some paths)

/-- `BuildPathListForTransmission`; `none` when it raises. -/
def buildPathListForTransmission (count : Int) (includeVeryGoodPath : Bool)
    (between tries : Nat → List Act) (n : Node) : Node × Option (List PathQueueElement) :=
  match buildStart count includeVeryGoodPath between n with
  | (n, none) => (n, none)
  | (n, some paths) =>
    if pathCount count ≤ paths.length then (n, some paths)
    else
      let n := n.run false (between 2)
      let (n, paths) := takeBack (pathCount count) tries n.pathqueue n.pathqueue.length n paths
      (n, some paths)

/-! ## The exchanges -/

/-- What the connection does: how many bytes of the sender arrive, whether the
    sender's write raises, and whether an answer arrives. -/
structure Link where
  delivered : Nat
  noticed : Bool
  answered : Bool

/-- The exchanges that hand over paths. -/
inductive Exchange
  /-- `SENDPATHS`: whether there still is a socket, and whether the parent takes
      paths from this child. -/
  | sendPaths (connected accepts : Bool)
  /-- `GIVEMEYOURPATHS`, and whether the request arrives. -/
  | giveMeYourPaths (maxcount : Int) (asked : Bool)
  /-- `HEREARESOMEPATHS`. -/
  | hereAreSomePaths (count : Int) (includeVeryGoodPath : Bool)

namespace Exchange

def starts : Exchange → Bool
  | .giveMeYourPaths _ asked => asked
  | _ => true

def count : Exchange → Int
  | .sendPaths _ _ => 1000
  | .giveMeYourPaths maxcount _ => maxcount
  | .hereAreSomePaths count _ => count

def includeVeryGoodPath : Exchange → Bool
  | .sendPaths _ _ => false
  | .giveMeYourPaths _ _ => true
  | .hereAreSomePaths _ includeVeryGoodPath => includeVeryGoodPath

/-- `PSCMD_SENDPATHS` and `PSUPDATEREPLYCMD_HEREARESOMEPATHS`, in front of the paths. -/
def command : Exchange → List UInt8
  | .sendPaths _ _ => u8 4
  | .giveMeYourPaths _ _ => []
  | .hereAreSomePaths _ _ => u8 2

/-- The bytes of the sender. -/
def message (s : Settings) (x : Exchange) (paths : List PathQueueElement) : List UInt8 :=
  x.command ++ writePaths s paths

/-- What the receiver reads of the bytes that arrive. -/
def load (s : Settings) (x : Exchange) (bs : List UInt8) : Option (List PathData) :=
  ((Reader.bytes x.command.length >>= fun _ => readPaths s) bs).map Prod.fst

/-- The receiver puts the paths into its overflow queue. -/
def receive (receiver : Node) : Option (List PathData) → Node
  | none | some [] => receiver
  | some paths => receiver.appendDynamicPathQueueToOverflowQueue (paths.map PathData.element)

/-- `sendPathsToParent` and `HandleSendPathsMessage`.  A parent that refuses has only
    read the number of paths. -/
def sendPathsToParent (s : Settings) (connected accepts : Bool) (link : Link)
    (sender receiver : Node) (paths : List PathQueueElement) : Node × Node :=
  let x := sendPaths connected accepts
  if paths.length = 0 then (sender, receiver)
  else if connected then
    let arrived := (x.message s paths).take link.delivered
    let loaded := if accepts then x.load s arrived else none
    let refused := !accepts && 5 ≤ arrived.length
    -- without an answer the read raises, and nothing is put back
    if !link.noticed && link.answered && refused then
      (sender.appendDynamicPathQueueToOverflowQueue paths, receive receiver loaded)
    else (sender, receive receiver loaded)
  else (sender.appendDynamicPathQueueToOverflowQueue paths, receiver)

/-- `HandleUpdateStatusReply_GiveMeYourPaths` and
    `HandleUpdateStatusMessage_RequestPathsFromChild`. -/
def giveMyPaths (s : Settings) (maxcount : Int) (link : Link) (sender receiver : Node)
    (paths : List PathQueueElement) : Node × Node :=
  let x := giveMeYourPaths maxcount true
  let loaded := x.load s ((x.message s paths).take link.delivered)
  if link.noticed then
    (sender.appendDynamicPathQueueToOverflowQueue paths, receive receiver loaded)
  else (sender, receive receiver loaded)

/-- `HandleUpdateStatusMessage_SendPathsToChild` and
    `HandleUpdateStatusReply_HereAreSomePaths`. -/
def sendPathsToChild (s : Settings) (count : Int) (includeVeryGoodPath : Bool) (link : Link)
    (sender receiver : Node) (paths : List PathQueueElement) : Node × Node :=
  let x := hereAreSomePaths count includeVeryGoodPath
  let loaded := x.load s ((x.message s paths).take link.delivered)
  -- the acknowledgement is written after the paths were received
  if !link.noticed && link.answered && loaded.isSome then (sender, receive receiver loaded)
  else (sender.appendDynamicPathQueueToOverflowQueue paths, receive receiver loaded)

def transmit (s : Settings) (x : Exchange) (link : Link) (sender receiver : Node)
    (paths : List PathQueueElement) : Node × Node :=
  match x with
  | .sendPaths connected accepts =>
    sendPathsToParent s connected accepts link sender receiver paths
  | .giveMeYourPaths maxcount _ => giveMyPaths s maxcount link sender receiver paths
  | .hereAreSomePaths count includeVeryGoodPath =>
    sendPathsToChild s count includeVeryGoodPath link sender receiver paths

end Exchange

/-- An exchange, with what other threads of the sender do in the meantime. -/
def handOver (s : Settings) (x : Exchange) (link : Link) (between tries : Nat → List Act)
    (sender receiver : Node) : Node × Node :=
  if x.starts then
    match buildPathListForTransmission x.count x.includeVeryGoodPath between tries sender with
    | (sender, none) => (sender.run false (between 3), receiver)
    | (sender, some paths) =>
      let (sender, receiver) := x.transmit s link sender receiver paths
      (sender.run false (between 3), receiver)
  else (sender.run false (between 3), receiver)

end CheatEngine.PointerScan
