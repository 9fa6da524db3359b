import Flocksy.Foundation.Exec
import Flocksy.Foundation.KeyedTable
import Flocksy.FlockFsm
import Flocksy.FileRecord

/-!
# Boxoffice::processEvent

One call of `processEvent` is a frame (the boxoffice with the stream, status and
event the C++ code keeps in local variables) sent through five stages in the
order of the source: a received heartbeat, the message to the dispatcher, a local
file event, received file data, and the transition of the state machine. A stage
goes on, returns a code from `processEvent`, or runs into a fault: the front of
an empty deque, a box that is not configured, or a C++ exception.

The clock, the random number and the disk of a call are its `Env`. Messages to
the dispatcher and the heartbeater and operations on files are listed in the order
in which they happen. A message is kept as its status and payload; `fsmMessage`
gives its text. `FilePtr` is a `File*`: the deques hold pointers, and `std::find`
compares addresses.
-/

namespace Flocksy

open ByteStream Fsm

def minimumSendOffset : UInt32 := 3000
def maximumSendOffset : UInt32 := 6000
def minimumStopOffset : UInt32 := 1000
def maximumStopOffset : UInt32 := 2000
def inDeleteMask : ℕ := 0x200

/-- The fields of `node_t` that the boxoffice uses. -/
structure Node where
  lastTimestamp : Int64
  offset : Int16
  replied : Bool
  deriving Inhabited

def Node.clearReplied (n : Node) : Node := { n with replied := false }

abbrev NodeMap := KeyedTable Hash Node

structure FilePtr where
  addr : ℕ
  file : File
  deriving DecidableEq

/-- `currentNodeHash` is a null pointer before the first heartbeat and is read only
after one. The addresses from `nextAddr` on are free. -/
structure Boxoffice where
  state : State
  fileListMetadata : List FilePtr
  fileListData : List FilePtr
  currentTimingOffset : UInt64
  notifiedDispatch : Bool
  currentBox : Hash
  currentFile : Stream
  fileMetadataWritten : Bool
  stopSyncTimeoutReceived : Bool
  currentNodeHash : Hash
  subscribers : NodeMap
  boxes : List (Hash × Bytes)
  nextAddr : ℕ
  allocated : ∀ p ∈ fileListMetadata ++ fileListData, p.addr < nextAddr

namespace Boxoffice

def baseDir (bo : Boxoffice) (hash : Hash) : Option Bytes := bo.boxes.lookup hash

def popMetadata (bo : Boxoffice) : Boxoffice :=
  { bo with
    fileListMetadata := bo.fileListMetadata.tail
    allocated := fun p hp => bo.allocated p <| List.mem_append.2 <|
      (List.mem_append.1 hp).imp_left List.mem_of_mem_tail }

def popData (bo : Boxoffice) : Boxoffice :=
  { bo with
    fileListData := bo.fileListData.tail
    allocated := fun p hp => bo.allocated p <| List.mem_append.2 <|
      (List.mem_append.1 hp).imp_right List.mem_of_mem_tail }

/-- `new File(...)` is at this address. -/
def filePtr (bo : Boxoffice) (f : File) : FilePtr := ⟨bo.nextAddr, f⟩

def allocate (bo : Boxoffice) : Boxoffice :=
  { bo with
    nextAddr := bo.nextAddr + 1
    allocated := fun p hp => Nat.lt_succ_of_lt (bo.allocated p hp) }

end Boxoffice

/-- `Boxoffice()` with the nodes and boxes of the configuration. -/
def Boxoffice.initial (nodes : NodeMap) (boxes : List (Hash × Bytes)) : Boxoffice where
  state := .ready
  fileListMetadata := []
  fileListData := []
  currentTimingOffset := -1
  notifiedDispatch := false
  currentBox := default
  currentFile := Stream.ofBytes []
  fileMetadataWritten := false
  stopSyncTimeoutReceived := false
  currentNodeHash := default
  subscribers := nodes
  boxes := boxes
  nextAddr := 0
  allocated := by simp

structure Env where
  received : UInt64
  now : UInt64
  random : UInt32
  fs : FileSystem

/-- `randombytes_uniform(upper)`. -/
def Env.randomUniform (env : Env) (upper : UInt32) : UInt32 := env.random % upper

inductive Effect where
  | dispatcher (status : Status) (payload : Bytes)
  | heartbeat (status : Status) (payload : Bytes)
  | disk (op : FileOp)
  deriving DecidableEq

def space : UInt8 := 32
def sigtypeFsm : ℕ := 4

def fsmMessage (status : Status) (payload : Bytes) : Bytes :=
  decimal sigtypeFsm ++ space :: decimal status.toNat ++ space :: payload

inductive Fault where
  | frontOfEmptyDeque
  | nullBox
  | exception
  deriving DecidableEq

structure Frame where
  bo : Boxoffice
  sstream : Stream
  status : Status
  event : Event
  env : Env
  fs : FileSystem
  out : List Effect

namespace Frame

def send (fr : Frame) (effects : List Effect) : Frame := { fr with out := fr.out ++ effects }

def become (fr : Frame) (status : Status) : Frame :=
  { fr with status := status, event := getEventByStatusCode status }

end Frame

abbrev BoExec := Exec Frame ℕ Fault

/-- `if ( !check_event(state_, event, status) ) return 1;` -/
def checked (fr : Frame) : BoExec :=
  .require (checkEvent fr.bo.state fr.event fr.status) 1 fr

def timingBytes (offset : UInt64) : Bytes := toBigEndian 8 offset.toNat

@[simp] theorem timingBytes_length (offset : UInt64) : (timingBytes offset).length = 8 :=
  toBigEndian_length 8 _

/-- The bytes `cf.str().substr(32)` of a file. -/
def storedRecord (f : File) : Stream := Stream.ofBytes (f.write.drop 32)

def prepareHeartbeatMessage (fr : Frame) (newState : State) : Except Fault (Bytes × Frame) :=
  let bo := fr.bo
  if newState = .sendingNewFileMetadata ∨ newState = .sendingNewFileMetadataWithMore then
    match bo.fileListData with
    | [] => .error .frontOfEmptyDeque
    | p :: _ =>
      .ok (p.file.write ++ timingBytes bo.currentTimingOffset,
        { fr with bo := { bo.popData with currentFile := storedRecord p.file } })
  else if newState = .sendingFileMetadataChange ∨
      newState = .sendingFileMetadataChangeWithMore then
    match bo.fileListMetadata with
    | [] => .error .frontOfEmptyDeque
    | p :: _ =>
      .ok (p.file.write,
        { fr with bo := { bo.popMetadata with currentFile := storedRecord p.file } })
  else if newState = .syncingStop ∧ !bo.stopSyncTimeoutReceived then
    let random := fr.env.randomUniform (maximumStopOffset - minimumStopOffset) + minimumStopOffset
    let timing := fr.env.now + random.toUInt64
    .ok (timingBytes timing,
      { fr with
        bo := { bo with currentTimingOffset := timing, stopSyncTimeoutReceived := true }
        out := fr.out ++ [.dispatcher .s155 (timingBytes timing)] })
  else .ok ([], fr)

def updateHeartbeat (fr : Frame) (newStatus : Status) (newState : State) : Except Fault Frame :=
  (prepareHeartbeatMessage fr newState).map fun (payload, fr) =>
    fr.send [.heartbeat newStatus payload]

def performAction (fr : Frame) (action : Action) (newState : State) : Except Fault Frame :=
  match action with
  | .sendHeartbeat =>
    updateHeartbeat fr (getHeartbeatStatus fr.bo.state fr.event fr.status) newState
  | _ => .ok fr

def updateTimestamp (fr : Frame) : Frame :=
  let (nodeHash, s) := fr.sstream.read genericHashLen
  let hash := Hash.ofBytes nodeHash
  let (timestamp, s) := (s.seekCur 1).read 8
  let last := UInt64.ofNat (ofBigEndian (padTo 8 timestamp))
  let offset := (fr.env.received - last).toUInt16.toInt16
  { fr with
    sstream := s
    bo := { fr.bo with
      currentNodeHash := hash
      subscribers := fr.bo.subscribers.modify hash fun n =>
        { n with lastTimestamp := last.toInt64, offset := offset } } }

def Boxoffice.markReplied (bo : Boxoffice) : Boxoffice :=
  { bo with subscribers :=
      bo.subscribers.modify bo.currentNodeHash fun n => { n with replied := true } }

def Boxoffice.clearReplied (bo : Boxoffice) : Boxoffice :=
  { bo with subscribers := bo.subscribers.mapValues Node.clearReplied }

/-- The branches of 121, 161, 165, 140 and 141: mark the sender; when every subscriber
has replied, clear the flags and go on with the status that `complete` selects. -/
def replyRound (complete : Boxoffice → Boxoffice × Status) (fr : Frame) : BoExec :=
  let bo := fr.bo.markReplied
  if bo.subscribers.all Node.replied then
    let (bo, status) := complete bo.clearReplied
    checked ({ fr with bo := bo }.become status)
  else .next { fr with bo := bo }

def metadataRoundStatus (bo : Boxoffice) : Status :=
  if bo.fileListMetadata.length > 0 then .s174
  else if bo.fileListData.length > 1 then .s178
  else if bo.fileListData.length > 0 then .s177
  else .s172

/-- The file a 130, 170 or 174 heartbeat carries, read into a `new File`. -/
def announcedFile (fr : Frame) : Except Fault (File × Frame) :=
  let (boxHash, s) := (fr.sstream.seekCur 1).read genericHashLen
  let hash := Hash.ofBytes boxHash
  match fr.bo.baseDir hash with
  | none => .error .nullBox
  | some dir =>
    match (File.blank dir hash).read s fr.fs with
    | none => .error .exception
    | some x =>
      .ok (x.file, { fr with sstream := x.sstream, fs := x.fs, out := fr.out ++ x.ops.map .disk })

def Boxoffice.keepFile (bo : Boxoffice) (f : File) : Boxoffice :=
  { bo with currentBox := f.boxHash, currentFile := storedRecord f }

/-- `storeMetadata` and `resize`, unless `file_metadata_written_` is set; the first throws where
`operator>>` has left no file. -/
def writeMetadata (newFile : File) (fr : Frame) : Except Fault Frame :=
  if !fr.bo.fileMetadataWritten then
    if newFile.exist fr.fs ∧ newFile.resizes fr.fs then
      .ok ({ fr with bo := { fr.bo with fileMetadataWritten := true } }.send
        [.disk (.storeMetadata newFile), .disk (.resize newFile)])
    else .error .exception
  else .ok fr

def receivedNewFileMetadata (fr : Frame) : BoExec :=
  if fr.bo.state = .promotingNewFileMetadata ∧ !fr.bo.notifiedDispatch then
    match announcedFile fr with
    | .error f => .fault f
    | .ok (newFile, fr) =>
      match writeMetadata newFile fr with
      | .error f => .fault f
      | .ok fr =>
        let (timing, s) := fr.sstream.read 8
        .next ({ fr with
          sstream := s
          bo := { fr.bo.keepFile newFile with notifiedDispatch := true } }.send
            [.dispatcher .s130 (padTo 8 timing)])
  else .next fr

/-- The metadata of a file that stays is applied unless `file_metadata_written_` is set. -/
def applyMetadata (newFile : File) (fr : Frame) : Except Fault Frame :=
  if !newFile.deletedFile ∧ !fr.bo.fileMetadataWritten then
    let written := { fr with bo := { fr.bo with fileMetadataWritten := true } }
    if newFile.exist fr.fs then
      if newFile.resizes fr.fs then
        .ok (written.send [.disk (.resize newFile), .disk (.storeMetadata newFile)])
      else .error .exception
    else
      match newFile.create with
      | none => .error .exception
      | some op => .ok (written.send [.disk op, .disk (.storeMetadata newFile)])
  else .ok fr

def receivedMetadataChange (fr : Frame) : BoExec :=
  if fr.bo.state = .receivingFileMetadataChange then
    match announcedFile fr with
    | .error f => .fault f
    | .ok (newFile, fr) =>
      match applyMetadata newFile fr with
      | .error f => .fault f
      | .ok fr =>
        checked ({ fr with bo := { fr.bo with fileMetadataWritten := false } }.become .s173)
  else .next fr

def receivedMetadataChangeWithMore (fr : Frame) : BoExec :=
  if fr.bo.state = .receivingFileMetadataChangeWithMore then
    match announcedFile fr with
    | .error f => .fault f
    | .ok (newFile, fr) =>
      match applyMetadata newFile fr with
      | .error f => .fault f
      | .ok fr =>
        checked
          ({ fr with bo := { fr.bo.keepFile newFile with notifiedDispatch := false } }.become .s173)
  else .next fr

def receivedSyncEnd (fr : Frame) : BoExec :=
  if fr.bo.state = .ready then
    (checked (fr.become .s100)).andThen fun fr =>
      .ofExcept (performAction fr (getAction fr.bo.state fr.event fr.status) fr.bo.state)
  else .next fr

def receivedStopTime (fr : Frame) : BoExec :=
  if !fr.bo.stopSyncTimeoutReceived then
    let (timing, s) := (fr.sstream.seekCur 1).read 8
    .next ({ fr with
      sstream := s
      bo := { fr.bo with stopSyncTimeoutReceived := true } }.send
        [.dispatcher .s155 (padTo 8 timing)])
  else .next fr

def heartbeatBranch (fr : Frame) : BoExec :=
  match fr.status with
  | .s100 => .next { fr with bo := { fr.bo with stopSyncTimeoutReceived := false } }
  | .s121 => replyRound (fun bo => ({ bo with fileMetadataWritten := false }, .s122)) fr
  | .s161 => replyRound (fun bo => (bo, .s162)) fr
  | .s165 => replyRound (fun bo => (bo, .s166)) fr
  | .s140 => replyRound (fun bo => (bo, .s142)) fr
  | .s141 => replyRound (fun bo => (bo, metadataRoundStatus bo)) fr
  | .s120 | .s124 => .next { fr with bo := { fr.bo with notifiedDispatch := false } }
  | .s132 => .next { fr with bo := fr.bo.clearReplied }
  | .s130 => receivedNewFileMetadata fr
  | .s160 => .next { fr with bo := { fr.bo with fileMetadataWritten := false } }
  | .s170 => receivedMetadataChange fr
  | .s174 => receivedMetadataChangeWithMore fr
  | .s150 => receivedSyncEnd fr
  | .s155 => receivedStopTime fr
  | _ => .next fr

def receivedHeartbeat (fr : Frame) : BoExec :=
  if fr.event = .receivedHeartbeat then heartbeatBranch (updateTimestamp fr) else .next fr

/-- The time at which the file goes out, by the clock of the node that replied last. -/
def sendTiming (fr : Frame) (hash : Hash) : UInt64 :=
  let random := fr.env.randomUniform (maximumSendOffset - minimumSendOffset) + minimumSendOffset
  fr.env.now + random.toUInt64 -
    ((fr.bo.subscribers.touch hash).val hash).offset.toInt64.toUInt64

def notifyDispatcher (fr : Frame) : BoExec :=
  if (fr.event = .allNodesReplied ∧ fr.status = .s122) ∨
      (fr.event = .allNodesHaveAllMetadataChangesWithMore ∧ fr.status = .s177) then
    let (nodeHash, s) := (fr.sstream.seekTo 5).read genericHashLen
    let hash := Hash.ofBytes nodeHash
    let timing := sendTiming fr hash
    match fr.bo.baseDir fr.bo.currentBox, fr.bo.fileListData with
    | none, _ => .fault .nullBox
    | some _, [] => .fault .frontOfEmptyDeque
    | some dir, p :: _ =>
      .next ({ fr with
        sstream := s
        bo := { fr.bo with
          subscribers := fr.bo.subscribers.touch hash, currentTimingOffset := timing } }.send
          [.dispatcher fr.status
            (timingBytes timing ++ fr.bo.currentBox.bytes ++ dir ++ space :: p.file.write.drop 32)])
  else .next fr

def isLocalEvent (event : Event) : Bool :=
  event = .newLocalFile ∨ event = .newLocalFileWithMore ∨
    event = .localFileMetadataChange ∨ event = .localFileMetadataChangeWithMore

def isDataEvent (event : Event) : Bool :=
  event = .newLocalFile ∨ event = .newLocalFileWithMore

/-- `(inotify_mask & IN_DELETE) == IN_DELETE` on a 32-bit `int`. -/
def masksDelete (mask : ℤ) : Bool := (mask % 2 ^ 32).toNat &&& inDeleteMask = inDeleteMask

def newLocalFile (fs : FileSystem) (dir : Bytes) (hash : Hash) (path : Bytes) (mask : ℤ) :
    Option File :=
  if masksDelete mask then some (File.ofDeleted dir hash path true)
  else File.ofPath fs dir hash path

/-- The deque a local event goes to. -/
def Boxoffice.fileList (bo : Boxoffice) (event : Event) : List FilePtr :=
  if isDataEvent event then bo.fileListData else bo.fileListMetadata

def Boxoffice.pushFile (bo : Boxoffice) (event : Event) (p : FilePtr) (hp : p.addr < bo.nextAddr) :
    Boxoffice :=
  { bo with
    fileListMetadata := bo.fileListMetadata ++ if isDataEvent event then [] else [p]
    fileListData := bo.fileListData ++ if isDataEvent event then [p] else []
    allocated := fun q hq => by
      have hq' : q ∈ bo.fileListMetadata ++ bo.fileListData ∨ q = p := by
        split_ifs at hq <;> simp at hq <;> simp <;> tauto
      rcases hq' with h | rfl
      · exact bo.allocated q h
      · exact hp }

/-- In `announcing_new_file_state` the file is pushed if its address is found among those
already queued; otherwise the event becomes a file reported twice. -/
def queueFile (fr : Frame) (newFile : File) : Frame :=
  let p := fr.bo.filePtr newFile
  let bo := fr.bo.allocate
  let pushed := { fr with bo := bo.pushFile fr.event p fr.bo.nextAddr.lt_succ_self }
  if fr.bo.state = .announcingNewFile then
    if (fr.bo.fileList fr.event).any (·.addr = p.addr) then pushed
    else { fr with bo := bo }.become .s301
  else pushed

def localFileEvent (fr : Frame) : BoExec :=
  if isLocalEvent fr.event then
    let (mask, s) := fr.sstream.extractInt 0
    let (boxHash, s) := s.read genericHashLen
    let hash := Hash.ofBytes boxHash
    let (path, s) := s.extractWord
    let fr := { fr with sstream := s, bo := { fr.bo with currentBox := hash } }
    if path.length > maximumPathLength then .ret 1 fr
    else
      match fr.bo.baseDir hash with
      | none => .fault .nullBox
      | some dir =>
        match newLocalFile fr.fs dir hash path mask with
        | none => .fault .exception
        | some newFile =>
          let fr := queueFile fr newFile
          .next { fr with bo := fr.bo.clearReplied }
  else .next fr

structure FilePackage where
  offset : ℕ
  dataSize : ℕ
  more : Bool
  contents : Bytes
  deriving DecidableEq

def readFilePackage (s : Stream) : FilePackage × Stream :=
  let (offset, s) := (s.seekCur genericHashLen).read 8
  let (dataSize, s) := s.read 8
  let (more, s) := s.read 1
  let size := ofBigEndian (padTo 8 dataSize)
  let (contents, s) := s.read size
  (⟨ofBigEndian (padTo 8 offset), size, ofBigEndian (padTo 1 more) ≠ 0, contents⟩, s)

def receivedFileData (fr : Frame) : BoExec :=
  if fr.event = .receivedFileData then
    match fr.bo.baseDir fr.bo.currentBox with
    | none => .fault .nullBox
    | some dir =>
      match (File.blank dir fr.bo.currentBox).read fr.bo.currentFile fr.fs with
      | none => .fault .exception
      | some x =>
        let (package, s) := readFilePackage fr.sstream
        let fr := { fr with
          sstream := s
          fs := x.fs
          bo := { fr.bo with currentFile := x.sstream } }.send
            (x.ops.map Effect.disk ++
              [Effect.disk (.storeFileData x.file package.contents package.dataSize package.offset)])
        if !package.more then checked (fr.become .s113) else .next fr
  else .next fr

def fsmContinue (fr : Frame) : BoExec :=
  let newState := getNewState fr.bo.state fr.event fr.status
  if fr.bo.state ≠ newState then
    match performAction fr (getAction fr.bo.state fr.event fr.status) newState with
    | .error f => .fault f
    | .ok fr => .next { fr with bo := { fr.bo with state := newState } }
  else .next fr

def Frame.start (bo : Boxoffice) (status : Status) (sstream : Stream) (env : Env) : Frame :=
  ⟨bo, sstream, status, getEventByStatusCode status, env, env.fs, []⟩

def stages (fr : Frame) : BoExec :=
  (((receivedHeartbeat fr).andThen notifyDispatcher).andThen localFileEvent).andThen
    receivedFileData

inductive Outcome where
  | returned (code : ℕ) (bo : Boxoffice) (out : List Effect)
  | fault (f : Fault)

def outcome : BoExec → Outcome
  | .next fr => .returned 0 fr.bo fr.out
  | .ret code fr => .returned code fr.bo fr.out
  | .fault f => .fault f

def processEvent (bo : Boxoffice) (status : Status) (sstream : Stream) (env : Env) : Outcome :=
  let fr := Frame.start bo status sstream env
  if checkEvent bo.state fr.event status then outcome ((stages fr).andThen fsmContinue)
  else .returned 0 bo []

end Flocksy
