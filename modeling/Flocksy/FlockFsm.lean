import Mathlib

/-!
# The flock state machine

The header `flock_fsm.h` is generated: for each state one chain of tests on the
pair (event, status), and the same chain in `check_event`, `get_action`,
`get_heartbeat_status` and `get_new_state`. The table `transitions` lists, state
by state and in the order of the chains, the pair with the three answers of that
link; the four functions look the pair up and answer with the header's default
when no link matches. Two links never share a pair, so the order does not matter.
-/

namespace Flocksy.Fsm

inductive State where
  | null | ready | announcingNewFile | announcingNewFileWithMore | announcingFileMetadataChange
  | announcingFileMetadataChangeWithMore | sendingNewFileMetadata
  | sendingNewFileMetadataWithMore | sendingFileMetadataChange
  | sendingFileMetadataChangeWithMore | sendingNewFile | sendingNewFileWithMoreAlpha
  | sendingNewFileWithMoreBeta | acknowledgingNewFile | acknowledgingNewFileWithMore
  | acknowledgingFileMetadataChange | acknowledgingFileMetadataChangeWithMore
  | promotingNewFileMetadata | promotingNewFileMetadataWithMore | receivingFileMetadataChange
  | receivingFileMetadataChangeWithMore | sendingFakeFile | sendingFakeFileWithMoreAlpha
  | sendingFakeFileWithMoreBeta | broadcastingAllReceived | broadcastingAllReceivedWithMoreAlpha
  | broadcastingAllReceivedWithMoreBeta | broadcastingAllMetadataReceived | syncingStop | exit
  deriving DecidableEq, Inhabited, Repr

inductive Status where
  | null | s100 | s110 | s111 | s112 | s113 | s114 | s115 | s116 | s117 | s120 | s121 | s122
  | s124 | s125 | s126 | s130 | s131 | s132 | s134 | s135 | s136 | s140 | s141 | s142 | s145
  | s146 | s147 | s150 | s155 | s156 | s160 | s161 | s162 | s164 | s165 | s166 | s170 | s171
  | s172 | s173 | s174 | s175 | s177 | s178 | s200 | s210 | s300 | s301 | s304 | s320 | s324
  | s410 | s500
  deriving DecidableEq, Inhabited, Repr

inductive Event where
  | null | newLocalFile | newLocalFileWithMore | localFileMetadataChange
  | localFileMetadataChangeWithMore | receivedHeartbeat | allNodesReplied
  | newLocalFileReportedTwice | timingOffsetElapsed | allNodesHaveFile | allNodesHaveAllFiles
  | allNodesHaveAllMetadataChangesWithMore | fileSendTick | receivedFakeFileData
  | nodeOnlySendsHeartbeats | allNodesHaveFileWithMore | allMetadataReceived | receivedFileData
  | allDataReceived | interrupt
  deriving DecidableEq, Inhabited, Repr

inductive Action where
  | null | sendHeartbeat | addNewFileToQueue | sendFileData | ignore | storeFileData
  | sendFakeFileData | exit
  deriving DecidableEq, Inhabited, Repr

def State.all : List State := [
  .null, .ready, .announcingNewFile, .announcingNewFileWithMore, .announcingFileMetadataChange,
  .announcingFileMetadataChangeWithMore, .sendingNewFileMetadata,
  .sendingNewFileMetadataWithMore, .sendingFileMetadataChange,
  .sendingFileMetadataChangeWithMore, .sendingNewFile, .sendingNewFileWithMoreAlpha,
  .sendingNewFileWithMoreBeta, .acknowledgingNewFile, .acknowledgingNewFileWithMore,
  .acknowledgingFileMetadataChange, .acknowledgingFileMetadataChangeWithMore,
  .promotingNewFileMetadata, .promotingNewFileMetadataWithMore, .receivingFileMetadataChange,
  .receivingFileMetadataChangeWithMore, .sendingFakeFile, .sendingFakeFileWithMoreAlpha,
  .sendingFakeFileWithMoreBeta, .broadcastingAllReceived, .broadcastingAllReceivedWithMoreAlpha,
  .broadcastingAllReceivedWithMoreBeta, .broadcastingAllMetadataReceived, .syncingStop, .exit]

instance : Fintype State :=
  ⟨⟨State.all, by decide⟩, fun s => by cases s <;> decide⟩

def Status.all : List Status := [
  .null, .s100, .s110, .s111, .s112, .s113, .s114, .s115, .s116, .s117, .s120, .s121, .s122,
  .s124, .s125, .s126, .s130, .s131, .s132, .s134, .s135, .s136, .s140, .s141, .s142, .s145,
  .s146, .s147, .s150, .s155, .s156, .s160, .s161, .s162, .s164, .s165, .s166, .s170, .s171,
  .s172, .s173, .s174, .s175, .s177, .s178, .s200, .s210, .s300, .s301, .s304, .s320, .s324,
  .s410, .s500]

instance : Fintype Status :=
  ⟨⟨Status.all, by decide⟩, fun s => by cases s <;> decide⟩

def Status.toNat : Status → Nat
  | .null => 0 | .s100 => 100 | .s110 => 110 | .s111 => 111 | .s112 => 112 | .s113 => 113
  | .s114 => 114 | .s115 => 115 | .s116 => 116 | .s117 => 117 | .s120 => 120 | .s121 => 121
  | .s122 => 122 | .s124 => 124 | .s125 => 125 | .s126 => 126 | .s130 => 130 | .s131 => 131
  | .s132 => 132 | .s134 => 134 | .s135 => 135 | .s136 => 136 | .s140 => 140 | .s141 => 141
  | .s142 => 142 | .s145 => 145 | .s146 => 146 | .s147 => 147 | .s150 => 150 | .s155 => 155
  | .s156 => 156 | .s160 => 160 | .s161 => 161 | .s162 => 162 | .s164 => 164 | .s165 => 165
  | .s166 => 166 | .s170 => 170 | .s171 => 171 | .s172 => 172 | .s173 => 173 | .s174 => 174
  | .s175 => 175 | .s177 => 177 | .s178 => 178 | .s200 => 200 | .s210 => 210 | .s300 => 300
  | .s301 => 301 | .s304 => 304 | .s320 => 320 | .s324 => 324 | .s410 => 410 | .s500 => 500

def getEventByStatusCode : Status → Event
  | .s100 | .s110 | .s111 | .s114 | .s115 | .s116 | .s117 | .s120 | .s121 | .s124 | .s125
  | .s130 | .s131 | .s134 | .s135 | .s140 | .s141 | .s145 | .s147 | .s150 | .s155 | .s160
  | .s161 | .s164 | .s165 | .s170 | .s171 | .s174 | .s175 | .s410 => .receivedHeartbeat
  | .s112 => .fileSendTick
  | .s113 => .allDataReceived
  | .s122 | .s126 | .s162 | .s166 => .allNodesReplied
  | .s132 | .s136 | .s156 => .timingOffsetElapsed
  | .s142 | .s172 => .allNodesHaveFile
  | .s146 => .allNodesHaveFileWithMore
  | .s173 => .allMetadataReceived
  | .s177 | .s178 => .allNodesHaveAllMetadataChangesWithMore
  | .s200 => .receivedFileData
  | .s210 => .receivedFakeFileData
  | .s300 => .newLocalFile
  | .s301 => .newLocalFileReportedTwice
  | .s304 => .newLocalFileWithMore
  | .s320 => .localFileMetadataChange
  | .s324 => .localFileMetadataChangeWithMore
  | .s500 => .interrupt
  | _ => .null

structure Transition where
  event : Event
  status : Status
  action : Action
  heartbeat : Status
  newState : State
  deriving DecidableEq

def transitions : State → List Transition
  | .ready => [
      ⟨.newLocalFile, .s300, .sendHeartbeat, .s120, .announcingNewFile⟩,
      ⟨.newLocalFileWithMore, .s304, .sendHeartbeat, .s124, .announcingNewFileWithMore⟩,
      ⟨.localFileMetadataChange, .s320, .sendHeartbeat, .s160, .announcingFileMetadataChange⟩,
      ⟨.localFileMetadataChangeWithMore, .s324, .sendHeartbeat, .s164, .announcingFileMetadataChangeWithMore⟩,
      ⟨.receivedHeartbeat, .s100, .sendHeartbeat, .s100, .ready⟩,
      ⟨.receivedHeartbeat, .s120, .sendHeartbeat, .s121, .acknowledgingNewFile⟩,
      ⟨.receivedHeartbeat, .s124, .sendHeartbeat, .s125, .acknowledgingNewFileWithMore⟩,
      ⟨.receivedHeartbeat, .s160, .sendHeartbeat, .s161, .acknowledgingFileMetadataChange⟩,
      ⟨.receivedHeartbeat, .s164, .sendHeartbeat, .s165, .acknowledgingFileMetadataChangeWithMore⟩,
      ⟨.receivedHeartbeat, .s150, .sendHeartbeat, .s100, .ready⟩,
      ⟨.interrupt, .s500, .exit, .s500, .exit⟩]
  | .announcingNewFile => [
      ⟨.receivedHeartbeat, .s121, .sendHeartbeat, .s120, .announcingNewFile⟩,
      ⟨.allNodesReplied, .s122, .sendHeartbeat, .s130, .sendingNewFileMetadata⟩,
      ⟨.newLocalFile, .s300, .sendHeartbeat, .s124, .announcingNewFileWithMore⟩,
      ⟨.newLocalFileReportedTwice, .s301, .sendHeartbeat, .s120, .announcingNewFile⟩,
      ⟨.newLocalFileWithMore, .s304, .sendHeartbeat, .s124, .announcingNewFileWithMore⟩,
      ⟨.localFileMetadataChange, .s320, .sendHeartbeat, .s164, .announcingFileMetadataChangeWithMore⟩,
      ⟨.localFileMetadataChangeWithMore, .s324, .sendHeartbeat, .s164, .announcingFileMetadataChangeWithMore⟩,
      ⟨.interrupt, .s500, .exit, .s500, .exit⟩]
  | .announcingNewFileWithMore => [
      ⟨.receivedHeartbeat, .s125, .sendHeartbeat, .s124, .announcingNewFileWithMore⟩,
      ⟨.allNodesReplied, .s126, .sendHeartbeat, .s134, .sendingNewFileMetadataWithMore⟩,
      ⟨.newLocalFile, .s300, .sendHeartbeat, .s124, .announcingNewFileWithMore⟩,
      ⟨.newLocalFileWithMore, .s304, .sendHeartbeat, .s124, .announcingNewFileWithMore⟩,
      ⟨.localFileMetadataChange, .s320, .sendHeartbeat, .s164, .announcingFileMetadataChangeWithMore⟩,
      ⟨.localFileMetadataChangeWithMore, .s324, .sendHeartbeat, .s164, .announcingFileMetadataChangeWithMore⟩,
      ⟨.interrupt, .s500, .exit, .s500, .exit⟩]
  | .announcingFileMetadataChange => [
      ⟨.receivedHeartbeat, .s161, .sendHeartbeat, .s160, .announcingFileMetadataChange⟩,
      ⟨.allNodesReplied, .s162, .sendHeartbeat, .s170, .sendingFileMetadataChange⟩,
      ⟨.newLocalFile, .s300, .sendHeartbeat, .s164, .announcingFileMetadataChangeWithMore⟩,
      ⟨.newLocalFileWithMore, .s304, .sendHeartbeat, .s164, .announcingFileMetadataChangeWithMore⟩,
      ⟨.localFileMetadataChange, .s320, .sendHeartbeat, .s164, .announcingFileMetadataChangeWithMore⟩,
      ⟨.localFileMetadataChangeWithMore, .s324, .sendHeartbeat, .s164, .announcingFileMetadataChangeWithMore⟩,
      ⟨.interrupt, .s500, .exit, .s500, .exit⟩]
  | .announcingFileMetadataChangeWithMore => [
      ⟨.receivedHeartbeat, .s165, .sendHeartbeat, .s164, .announcingFileMetadataChangeWithMore⟩,
      ⟨.allNodesReplied, .s166, .sendHeartbeat, .s174, .sendingFileMetadataChangeWithMore⟩,
      ⟨.newLocalFile, .s300, .sendHeartbeat, .s164, .announcingFileMetadataChangeWithMore⟩,
      ⟨.newLocalFileWithMore, .s304, .sendHeartbeat, .s164, .announcingFileMetadataChangeWithMore⟩,
      ⟨.localFileMetadataChange, .s320, .sendHeartbeat, .s164, .announcingFileMetadataChangeWithMore⟩,
      ⟨.localFileMetadataChangeWithMore, .s324, .sendHeartbeat, .s164, .announcingFileMetadataChangeWithMore⟩,
      ⟨.interrupt, .s500, .exit, .s500, .exit⟩]
  | .sendingNewFileMetadata => [
      ⟨.receivedHeartbeat, .s131, .sendHeartbeat, .s130, .sendingNewFileMetadata⟩,
      ⟨.timingOffsetElapsed, .s132, .sendHeartbeat, .s110, .sendingNewFile⟩,
      ⟨.newLocalFile, .s300, .addNewFileToQueue, .s130, .sendingNewFileMetadata⟩,
      ⟨.newLocalFileWithMore, .s304, .addNewFileToQueue, .s130, .sendingNewFileMetadata⟩,
      ⟨.localFileMetadataChange, .s320, .addNewFileToQueue, .s130, .sendingNewFileMetadata⟩,
      ⟨.localFileMetadataChangeWithMore, .s324, .addNewFileToQueue, .s130, .sendingNewFileMetadata⟩,
      ⟨.interrupt, .s500, .exit, .s500, .exit⟩]
  | .sendingNewFileMetadataWithMore => [
      ⟨.receivedHeartbeat, .s135, .sendHeartbeat, .s134, .sendingNewFileMetadataWithMore⟩,
      ⟨.timingOffsetElapsed, .s132, .sendHeartbeat, .s114, .sendingNewFileWithMoreAlpha⟩,
      ⟨.newLocalFile, .s300, .sendHeartbeat, .s134, .sendingNewFileMetadataWithMore⟩,
      ⟨.newLocalFileWithMore, .s304, .sendHeartbeat, .s134, .sendingNewFileMetadataWithMore⟩,
      ⟨.localFileMetadataChange, .s320, .addNewFileToQueue, .s134, .sendingNewFileMetadataWithMore⟩,
      ⟨.localFileMetadataChangeWithMore, .s324, .addNewFileToQueue, .s134, .sendingNewFileMetadataWithMore⟩,
      ⟨.interrupt, .s500, .exit, .s500, .exit⟩]
  | .sendingFileMetadataChange => [
      ⟨.receivedHeartbeat, .s171, .sendHeartbeat, .s170, .sendingFileMetadataChange⟩,
      ⟨.receivedHeartbeat, .s141, .sendHeartbeat, .s170, .sendingFileMetadataChange⟩,
      ⟨.allNodesHaveFile, .s172, .sendHeartbeat, .s150, .ready⟩,
      ⟨.newLocalFile, .s300, .addNewFileToQueue, .s170, .sendingFileMetadataChange⟩,
      ⟨.newLocalFileWithMore, .s304, .addNewFileToQueue, .s170, .sendingFileMetadataChange⟩,
      ⟨.localFileMetadataChange, .s320, .addNewFileToQueue, .s170, .sendingFileMetadataChange⟩,
      ⟨.localFileMetadataChangeWithMore, .s324, .addNewFileToQueue, .s170, .sendingFileMetadataChange⟩,
      ⟨.interrupt, .s500, .exit, .s500, .exit⟩]
  | .sendingFileMetadataChangeWithMore => [
      ⟨.receivedHeartbeat, .s175, .sendHeartbeat, .s174, .sendingFileMetadataChangeWithMore⟩,
      ⟨.receivedHeartbeat, .s141, .sendHeartbeat, .s174, .sendingFileMetadataChangeWithMore⟩,
      ⟨.allNodesHaveAllFiles, .s172, .sendHeartbeat, .s150, .ready⟩,
      ⟨.allNodesHaveAllMetadataChangesWithMore, .s177, .sendHeartbeat, .s130, .sendingNewFileMetadata⟩,
      ⟨.allNodesHaveAllMetadataChangesWithMore, .s178, .sendHeartbeat, .s134, .sendingNewFileMetadataWithMore⟩,
      ⟨.newLocalFile, .s300, .sendHeartbeat, .s174, .sendingFileMetadataChangeWithMore⟩,
      ⟨.newLocalFileWithMore, .s304, .sendHeartbeat, .s174, .sendingFileMetadataChangeWithMore⟩,
      ⟨.localFileMetadataChange, .s320, .sendHeartbeat, .s174, .sendingFileMetadataChangeWithMore⟩,
      ⟨.localFileMetadataChangeWithMore, .s324, .sendHeartbeat, .s174, .sendingFileMetadataChangeWithMore⟩,
      ⟨.interrupt, .s500, .exit, .s500, .exit⟩]
  | .sendingNewFile => [
      ⟨.fileSendTick, .s112, .sendFileData, .s200, .sendingNewFile⟩,
      ⟨.receivedHeartbeat, .s111, .sendHeartbeat, .s110, .sendingNewFile⟩,
      ⟨.receivedHeartbeat, .s140, .sendHeartbeat, .s110, .sendingNewFile⟩,
      ⟨.receivedFakeFileData, .s210, .ignore, .s110, .sendingNewFile⟩,
      ⟨.allNodesHaveFile, .s142, .sendHeartbeat, .s155, .syncingStop⟩,
      ⟨.newLocalFile, .s300, .addNewFileToQueue, .s110, .sendingNewFile⟩,
      ⟨.newLocalFileWithMore, .s304, .addNewFileToQueue, .s110, .sendingNewFile⟩,
      ⟨.localFileMetadataChange, .s320, .addNewFileToQueue, .s110, .sendingNewFile⟩,
      ⟨.localFileMetadataChangeWithMore, .s324, .addNewFileToQueue, .s110, .sendingNewFile⟩,
      ⟨.receivedHeartbeat, .s410, .sendHeartbeat, .s410, .ready⟩,
      ⟨.nodeOnlySendsHeartbeats, .s100, .sendHeartbeat, .s410, .ready⟩,
      ⟨.interrupt, .s500, .exit, .s500, .exit⟩]
  | .sendingNewFileWithMoreAlpha => [
      ⟨.fileSendTick, .s112, .sendFileData, .s200, .sendingNewFileWithMoreAlpha⟩,
      ⟨.receivedHeartbeat, .s115, .sendHeartbeat, .s114, .sendingNewFileWithMoreAlpha⟩,
      ⟨.receivedHeartbeat, .s140, .sendHeartbeat, .s114, .sendingNewFileWithMoreAlpha⟩,
      ⟨.receivedFakeFileData, .s210, .ignore, .s114, .sendingNewFileWithMoreAlpha⟩,
      ⟨.allNodesHaveFile, .s142, .sendHeartbeat, .s110, .sendingNewFile⟩,
      ⟨.allNodesHaveFileWithMore, .s146, .sendHeartbeat, .s116, .sendingNewFileWithMoreBeta⟩,
      ⟨.newLocalFile, .s300, .addNewFileToQueue, .s114, .sendingNewFileWithMoreAlpha⟩,
      ⟨.newLocalFileWithMore, .s304, .addNewFileToQueue, .s114, .sendingNewFileWithMoreAlpha⟩,
      ⟨.localFileMetadataChange, .s320, .addNewFileToQueue, .s114, .sendingNewFileWithMoreAlpha⟩,
      ⟨.localFileMetadataChangeWithMore, .s324, .addNewFileToQueue, .s114, .sendingNewFileWithMoreAlpha⟩,
      ⟨.receivedHeartbeat, .s410, .sendHeartbeat, .s410, .ready⟩,
      ⟨.nodeOnlySendsHeartbeats, .s100, .sendHeartbeat, .s410, .ready⟩,
      ⟨.interrupt, .s500, .exit, .s500, .exit⟩]
  | .sendingNewFileWithMoreBeta => [
      ⟨.fileSendTick, .s112, .sendFileData, .s200, .sendingNewFileWithMoreBeta⟩,
      ⟨.receivedHeartbeat, .s115, .sendHeartbeat, .s116, .sendingNewFileWithMoreBeta⟩,
      ⟨.receivedHeartbeat, .s140, .sendHeartbeat, .s116, .sendingNewFileWithMoreBeta⟩,
      ⟨.receivedFakeFileData, .s210, .ignore, .s116, .sendingNewFileWithMoreBeta⟩,
      ⟨.allNodesHaveFile, .s142, .sendHeartbeat, .s110, .sendingNewFile⟩,
      ⟨.allNodesHaveFileWithMore, .s146, .sendHeartbeat, .s114, .sendingNewFileWithMoreAlpha⟩,
      ⟨.newLocalFile, .s300, .addNewFileToQueue, .s116, .sendingNewFileWithMoreBeta⟩,
      ⟨.newLocalFileWithMore, .s304, .addNewFileToQueue, .s116, .sendingNewFileWithMoreBeta⟩,
      ⟨.localFileMetadataChange, .s320, .addNewFileToQueue, .s116, .sendingNewFileWithMoreBeta⟩,
      ⟨.localFileMetadataChangeWithMore, .s324, .addNewFileToQueue, .s116, .sendingNewFileWithMoreBeta⟩,
      ⟨.receivedHeartbeat, .s410, .sendHeartbeat, .s410, .ready⟩,
      ⟨.nodeOnlySendsHeartbeats, .s100, .sendHeartbeat, .s410, .ready⟩,
      ⟨.interrupt, .s500, .exit, .s500, .exit⟩]
  | .acknowledgingNewFile => [
      ⟨.receivedHeartbeat, .s130, .sendHeartbeat, .s131, .promotingNewFileMetadata⟩,
      ⟨.receivedHeartbeat, .s120, .sendHeartbeat, .s121, .acknowledgingNewFile⟩,
      ⟨.receivedHeartbeat, .s121, .sendHeartbeat, .s121, .acknowledgingNewFile⟩,
      ⟨.receivedHeartbeat, .s124, .sendHeartbeat, .s125, .acknowledgingNewFileWithMore⟩,
      ⟨.newLocalFile, .s300, .addNewFileToQueue, .s121, .acknowledgingNewFile⟩,
      ⟨.newLocalFileWithMore, .s304, .addNewFileToQueue, .s121, .acknowledgingNewFile⟩,
      ⟨.localFileMetadataChange, .s320, .addNewFileToQueue, .s121, .acknowledgingNewFile⟩,
      ⟨.localFileMetadataChangeWithMore, .s324, .addNewFileToQueue, .s121, .acknowledgingNewFile⟩,
      ⟨.interrupt, .s500, .exit, .s500, .exit⟩]
  | .acknowledgingNewFileWithMore => [
      ⟨.receivedHeartbeat, .s134, .sendHeartbeat, .s131, .promotingNewFileMetadataWithMore⟩,
      ⟨.receivedHeartbeat, .s124, .sendHeartbeat, .s125, .acknowledgingNewFileWithMore⟩,
      ⟨.receivedHeartbeat, .s125, .sendHeartbeat, .s125, .acknowledgingNewFileWithMore⟩,
      ⟨.newLocalFile, .s300, .addNewFileToQueue, .s125, .acknowledgingNewFileWithMore⟩,
      ⟨.newLocalFileWithMore, .s304, .addNewFileToQueue, .s125, .acknowledgingNewFileWithMore⟩,
      ⟨.localFileMetadataChange, .s320, .addNewFileToQueue, .s125, .acknowledgingNewFileWithMore⟩,
      ⟨.localFileMetadataChangeWithMore, .s324, .addNewFileToQueue, .s125, .acknowledgingNewFileWithMore⟩,
      ⟨.interrupt, .s500, .exit, .s500, .exit⟩]
  | .acknowledgingFileMetadataChange => [
      ⟨.receivedHeartbeat, .s170, .sendHeartbeat, .s171, .receivingFileMetadataChange⟩,
      ⟨.receivedHeartbeat, .s160, .sendHeartbeat, .s161, .acknowledgingFileMetadataChange⟩,
      ⟨.receivedHeartbeat, .s161, .sendHeartbeat, .s161, .acknowledgingFileMetadataChange⟩,
      ⟨.receivedHeartbeat, .s164, .sendHeartbeat, .s165, .acknowledgingFileMetadataChangeWithMore⟩,
      ⟨.newLocalFile, .s300, .addNewFileToQueue, .s161, .acknowledgingFileMetadataChange⟩,
      ⟨.newLocalFileWithMore, .s304, .addNewFileToQueue, .s161, .acknowledgingFileMetadataChange⟩,
      ⟨.newLocalFile, .s320, .addNewFileToQueue, .s161, .acknowledgingFileMetadataChange⟩,
      ⟨.newLocalFileWithMore, .s324, .addNewFileToQueue, .s161, .acknowledgingFileMetadataChange⟩,
      ⟨.interrupt, .s500, .exit, .s500, .exit⟩]
  | .acknowledgingFileMetadataChangeWithMore => [
      ⟨.receivedHeartbeat, .s174, .sendHeartbeat, .s175, .receivingFileMetadataChangeWithMore⟩,
      ⟨.receivedHeartbeat, .s164, .sendHeartbeat, .s165, .acknowledgingFileMetadataChangeWithMore⟩,
      ⟨.receivedHeartbeat, .s165, .sendHeartbeat, .s165, .acknowledgingFileMetadataChangeWithMore⟩,
      ⟨.newLocalFile, .s300, .addNewFileToQueue, .s165, .acknowledgingFileMetadataChangeWithMore⟩,
      ⟨.newLocalFileWithMore, .s304, .addNewFileToQueue, .s165, .acknowledgingFileMetadataChangeWithMore⟩,
      ⟨.newLocalFile, .s320, .addNewFileToQueue, .s165, .acknowledgingFileMetadataChangeWithMore⟩,
      ⟨.newLocalFileWithMore, .s324, .addNewFileToQueue, .s165, .acknowledgingFileMetadataChangeWithMore⟩,
      ⟨.interrupt, .s500, .exit, .s500, .exit⟩]
  | .promotingNewFileMetadata => [
      ⟨.receivedHeartbeat, .s130, .sendHeartbeat, .s131, .promotingNewFileMetadata⟩,
      ⟨.receivedHeartbeat, .s131, .sendHeartbeat, .s131, .promotingNewFileMetadata⟩,
      ⟨.receivedHeartbeat, .s134, .sendHeartbeat, .s135, .promotingNewFileMetadataWithMore⟩,
      ⟨.timingOffsetElapsed, .s132, .sendHeartbeat, .s111, .sendingFakeFile⟩,
      ⟨.newLocalFile, .s300, .addNewFileToQueue, .s131, .promotingNewFileMetadata⟩,
      ⟨.newLocalFileWithMore, .s304, .addNewFileToQueue, .s131, .promotingNewFileMetadata⟩,
      ⟨.newLocalFile, .s320, .addNewFileToQueue, .s131, .promotingNewFileMetadata⟩,
      ⟨.newLocalFileWithMore, .s324, .addNewFileToQueue, .s131, .promotingNewFileMetadata⟩,
      ⟨.interrupt, .s500, .exit, .s500, .exit⟩]
  | .promotingNewFileMetadataWithMore => [
      ⟨.receivedHeartbeat, .s134, .sendHeartbeat, .s135, .promotingNewFileMetadataWithMore⟩,
      ⟨.receivedHeartbeat, .s135, .sendHeartbeat, .s135, .promotingNewFileMetadataWithMore⟩,
      ⟨.timingOffsetElapsed, .s136, .sendHeartbeat, .s115, .sendingFakeFileWithMoreAlpha⟩,
      ⟨.newLocalFile, .s300, .addNewFileToQueue, .s135, .promotingNewFileMetadataWithMore⟩,
      ⟨.newLocalFileWithMore, .s304, .addNewFileToQueue, .s135, .promotingNewFileMetadataWithMore⟩,
      ⟨.newLocalFile, .s320, .addNewFileToQueue, .s135, .promotingNewFileMetadataWithMore⟩,
      ⟨.newLocalFileWithMore, .s324, .addNewFileToQueue, .s135, .promotingNewFileMetadataWithMore⟩,
      ⟨.interrupt, .s500, .exit, .s500, .exit⟩]
  | .receivingFileMetadataChange => [
      ⟨.receivedHeartbeat, .s170, .sendHeartbeat, .s171, .receivingFileMetadataChange⟩,
      ⟨.receivedHeartbeat, .s171, .sendHeartbeat, .s171, .receivingFileMetadataChange⟩,
      ⟨.receivedHeartbeat, .s175, .sendHeartbeat, .s171, .receivingFileMetadataChangeWithMore⟩,
      ⟨.receivedHeartbeat, .s141, .sendHeartbeat, .s171, .receivingFileMetadataChange⟩,
      ⟨.allMetadataReceived, .s173, .sendHeartbeat, .s141, .broadcastingAllMetadataReceived⟩,
      ⟨.newLocalFile, .s300, .addNewFileToQueue, .s171, .receivingFileMetadataChange⟩,
      ⟨.newLocalFileWithMore, .s304, .addNewFileToQueue, .s171, .receivingFileMetadataChange⟩,
      ⟨.newLocalFile, .s320, .addNewFileToQueue, .s171, .receivingFileMetadataChange⟩,
      ⟨.newLocalFileWithMore, .s324, .addNewFileToQueue, .s171, .receivingFileMetadataChange⟩,
      ⟨.interrupt, .s500, .exit, .s500, .exit⟩]
  | .receivingFileMetadataChangeWithMore => [
      ⟨.receivedHeartbeat, .s174, .sendHeartbeat, .s175, .receivingFileMetadataChangeWithMore⟩,
      ⟨.receivedHeartbeat, .s175, .sendHeartbeat, .s175, .receivingFileMetadataChangeWithMore⟩,
      ⟨.receivedHeartbeat, .s141, .sendHeartbeat, .s175, .receivingFileMetadataChangeWithMore⟩,
      ⟨.allMetadataReceived, .s173, .sendHeartbeat, .s141, .broadcastingAllMetadataReceived⟩,
      ⟨.newLocalFile, .s300, .addNewFileToQueue, .s175, .receivingFileMetadataChangeWithMore⟩,
      ⟨.newLocalFileWithMore, .s304, .addNewFileToQueue, .s175, .receivingFileMetadataChangeWithMore⟩,
      ⟨.newLocalFile, .s320, .addNewFileToQueue, .s175, .receivingFileMetadataChangeWithMore⟩,
      ⟨.newLocalFileWithMore, .s324, .addNewFileToQueue, .s175, .receivingFileMetadataChangeWithMore⟩,
      ⟨.interrupt, .s500, .exit, .s500, .exit⟩]
  | .sendingFakeFile => [
      ⟨.fileSendTick, .s112, .sendFileData, .s210, .sendingFakeFile⟩,
      ⟨.receivedHeartbeat, .s110, .sendHeartbeat, .s111, .sendingFakeFile⟩,
      ⟨.receivedHeartbeat, .s111, .sendHeartbeat, .s111, .sendingFakeFile⟩,
      ⟨.receivedHeartbeat, .s140, .sendHeartbeat, .s111, .sendingFakeFile⟩,
      ⟨.receivedFileData, .s200, .storeFileData, .s111, .sendingFakeFile⟩,
      ⟨.allDataReceived, .s113, .sendHeartbeat, .s140, .broadcastingAllReceived⟩,
      ⟨.newLocalFile, .s300, .addNewFileToQueue, .s111, .sendingFakeFile⟩,
      ⟨.newLocalFileWithMore, .s304, .addNewFileToQueue, .s111, .sendingFakeFile⟩,
      ⟨.newLocalFile, .s320, .addNewFileToQueue, .s111, .sendingFakeFile⟩,
      ⟨.newLocalFileWithMore, .s324, .addNewFileToQueue, .s111, .sendingFakeFile⟩,
      ⟨.receivedHeartbeat, .s410, .sendHeartbeat, .s410, .ready⟩,
      ⟨.nodeOnlySendsHeartbeats, .s100, .sendHeartbeat, .s410, .ready⟩,
      ⟨.interrupt, .s500, .exit, .s500, .exit⟩]
  | .sendingFakeFileWithMoreAlpha => [
      ⟨.fileSendTick, .s112, .sendFileData, .s210, .sendingFakeFileWithMoreAlpha⟩,
      ⟨.receivedHeartbeat, .s114, .sendHeartbeat, .s115, .sendingFakeFileWithMoreAlpha⟩,
      ⟨.receivedHeartbeat, .s115, .sendHeartbeat, .s115, .sendingFakeFileWithMoreAlpha⟩,
      ⟨.receivedHeartbeat, .s145, .sendHeartbeat, .s115, .sendingFakeFileWithMoreAlpha⟩,
      ⟨.receivedFileData, .s200, .storeFileData, .s115, .sendingFakeFileWithMoreAlpha⟩,
      ⟨.allDataReceived, .s113, .sendHeartbeat, .s145, .broadcastingAllReceivedWithMoreAlpha⟩,
      ⟨.newLocalFile, .s300, .addNewFileToQueue, .s115, .sendingFakeFileWithMoreAlpha⟩,
      ⟨.newLocalFileWithMore, .s304, .addNewFileToQueue, .s115, .sendingFakeFileWithMoreAlpha⟩,
      ⟨.newLocalFile, .s320, .addNewFileToQueue, .s115, .sendingFakeFileWithMoreAlpha⟩,
      ⟨.newLocalFileWithMore, .s324, .addNewFileToQueue, .s115, .sendingFakeFileWithMoreAlpha⟩,
      ⟨.receivedHeartbeat, .s410, .sendHeartbeat, .s410, .ready⟩,
      ⟨.nodeOnlySendsHeartbeats, .s100, .sendHeartbeat, .s410, .ready⟩,
      ⟨.interrupt, .s500, .exit, .s500, .exit⟩]
  | .sendingFakeFileWithMoreBeta => [
      ⟨.fileSendTick, .s112, .sendFileData, .s210, .sendingFakeFileWithMoreBeta⟩,
      ⟨.receivedHeartbeat, .s114, .sendHeartbeat, .s117, .sendingFakeFileWithMoreBeta⟩,
      ⟨.receivedHeartbeat, .s117, .sendHeartbeat, .s117, .sendingFakeFileWithMoreBeta⟩,
      ⟨.receivedHeartbeat, .s145, .sendHeartbeat, .s117, .sendingFakeFileWithMoreBeta⟩,
      ⟨.receivedFileData, .s200, .storeFileData, .s117, .sendingFakeFileWithMoreBeta⟩,
      ⟨.allDataReceived, .s113, .sendHeartbeat, .s147, .broadcastingAllReceivedWithMoreBeta⟩,
      ⟨.newLocalFile, .s300, .addNewFileToQueue, .s117, .sendingFakeFileWithMoreBeta⟩,
      ⟨.newLocalFileWithMore, .s304, .addNewFileToQueue, .s117, .sendingFakeFileWithMoreBeta⟩,
      ⟨.newLocalFile, .s320, .addNewFileToQueue, .s117, .sendingFakeFileWithMoreBeta⟩,
      ⟨.newLocalFileWithMore, .s324, .addNewFileToQueue, .s117, .sendingFakeFileWithMoreBeta⟩,
      ⟨.receivedHeartbeat, .s410, .sendHeartbeat, .s410, .ready⟩,
      ⟨.nodeOnlySendsHeartbeats, .s100, .sendHeartbeat, .s410, .ready⟩,
      ⟨.interrupt, .s500, .exit, .s500, .exit⟩]
  | .broadcastingAllReceived => [
      ⟨.fileSendTick, .s112, .sendFakeFileData, .s210, .broadcastingAllReceived⟩,
      ⟨.receivedHeartbeat, .s110, .sendHeartbeat, .s140, .broadcastingAllReceived⟩,
      ⟨.receivedHeartbeat, .s111, .sendHeartbeat, .s140, .broadcastingAllReceived⟩,
      ⟨.receivedHeartbeat, .s140, .sendHeartbeat, .s140, .broadcastingAllReceived⟩,
      ⟨.receivedHeartbeat, .s155, .sendHeartbeat, .s155, .syncingStop⟩,
      ⟨.newLocalFile, .s300, .addNewFileToQueue, .s140, .broadcastingAllReceived⟩,
      ⟨.newLocalFileWithMore, .s304, .addNewFileToQueue, .s140, .broadcastingAllReceived⟩,
      ⟨.newLocalFile, .s320, .addNewFileToQueue, .s140, .broadcastingAllReceived⟩,
      ⟨.newLocalFileWithMore, .s324, .addNewFileToQueue, .s140, .broadcastingAllReceived⟩,
      ⟨.nodeOnlySendsHeartbeats, .s100, .sendHeartbeat, .s410, .ready⟩,
      ⟨.interrupt, .s500, .exit, .s500, .exit⟩]
  | .broadcastingAllReceivedWithMoreAlpha => [
      ⟨.fileSendTick, .s112, .sendFakeFileData, .s210, .broadcastingAllReceivedWithMoreAlpha⟩,
      ⟨.receivedHeartbeat, .s114, .sendHeartbeat, .s145, .broadcastingAllReceivedWithMoreAlpha⟩,
      ⟨.receivedHeartbeat, .s115, .sendHeartbeat, .s145, .broadcastingAllReceivedWithMoreAlpha⟩,
      ⟨.receivedHeartbeat, .s145, .sendHeartbeat, .s145, .broadcastingAllReceivedWithMoreAlpha⟩,
      ⟨.receivedHeartbeat, .s150, .sendHeartbeat, .s111, .sendingFakeFile⟩,
      ⟨.receivedHeartbeat, .s116, .sendHeartbeat, .s117, .sendingFakeFileWithMoreBeta⟩,
      ⟨.newLocalFile, .s300, .addNewFileToQueue, .s145, .broadcastingAllReceivedWithMoreAlpha⟩,
      ⟨.newLocalFileWithMore, .s304, .addNewFileToQueue, .s145, .broadcastingAllReceivedWithMoreAlpha⟩,
      ⟨.newLocalFile, .s320, .addNewFileToQueue, .s145, .broadcastingAllReceivedWithMoreAlpha⟩,
      ⟨.newLocalFileWithMore, .s324, .addNewFileToQueue, .s145, .broadcastingAllReceivedWithMoreAlpha⟩,
      ⟨.nodeOnlySendsHeartbeats, .s100, .sendHeartbeat, .s410, .ready⟩,
      ⟨.interrupt, .s500, .exit, .s500, .exit⟩]
  | .broadcastingAllReceivedWithMoreBeta => [
      ⟨.fileSendTick, .s112, .sendFakeFileData, .s210, .broadcastingAllReceivedWithMoreBeta⟩,
      ⟨.receivedHeartbeat, .s116, .sendHeartbeat, .s147, .broadcastingAllReceivedWithMoreBeta⟩,
      ⟨.receivedHeartbeat, .s117, .sendHeartbeat, .s147, .broadcastingAllReceivedWithMoreBeta⟩,
      ⟨.receivedHeartbeat, .s147, .sendHeartbeat, .s147, .broadcastingAllReceivedWithMoreBeta⟩,
      ⟨.receivedHeartbeat, .s150, .sendHeartbeat, .s111, .sendingFakeFile⟩,
      ⟨.receivedHeartbeat, .s114, .sendHeartbeat, .s115, .sendingFakeFileWithMoreAlpha⟩,
      ⟨.newLocalFile, .s300, .addNewFileToQueue, .s147, .broadcastingAllReceivedWithMoreBeta⟩,
      ⟨.newLocalFileWithMore, .s304, .addNewFileToQueue, .s147, .broadcastingAllReceivedWithMoreBeta⟩,
      ⟨.newLocalFile, .s320, .addNewFileToQueue, .s147, .broadcastingAllReceivedWithMoreBeta⟩,
      ⟨.newLocalFileWithMore, .s324, .addNewFileToQueue, .s147, .broadcastingAllReceivedWithMoreBeta⟩,
      ⟨.nodeOnlySendsHeartbeats, .s100, .sendHeartbeat, .s410, .ready⟩,
      ⟨.interrupt, .s500, .exit, .s500, .exit⟩]
  | .broadcastingAllMetadataReceived => [
      ⟨.receivedHeartbeat, .s170, .sendHeartbeat, .s141, .broadcastingAllMetadataReceived⟩,
      ⟨.receivedHeartbeat, .s171, .sendHeartbeat, .s141, .broadcastingAllMetadataReceived⟩,
      ⟨.receivedHeartbeat, .s141, .sendHeartbeat, .s141, .broadcastingAllMetadataReceived⟩,
      ⟨.receivedHeartbeat, .s130, .sendHeartbeat, .s131, .promotingNewFileMetadata⟩,
      ⟨.receivedHeartbeat, .s134, .sendHeartbeat, .s135, .promotingNewFileMetadataWithMore⟩,
      ⟨.receivedHeartbeat, .s150, .sendHeartbeat, .s150, .ready⟩,
      ⟨.newLocalFile, .s300, .addNewFileToQueue, .s141, .broadcastingAllMetadataReceived⟩,
      ⟨.newLocalFileWithMore, .s304, .addNewFileToQueue, .s141, .broadcastingAllMetadataReceived⟩,
      ⟨.newLocalFile, .s320, .addNewFileToQueue, .s141, .broadcastingAllMetadataReceived⟩,
      ⟨.newLocalFileWithMore, .s324, .addNewFileToQueue, .s141, .broadcastingAllMetadataReceived⟩,
      ⟨.nodeOnlySendsHeartbeats, .s100, .sendHeartbeat, .s410, .ready⟩,
      ⟨.interrupt, .s500, .exit, .s500, .exit⟩]
  | .syncingStop => [
      ⟨.fileSendTick, .s112, .sendFakeFileData, .s210, .syncingStop⟩,
      ⟨.receivedHeartbeat, .s150, .sendHeartbeat, .s155, .syncingStop⟩,
      ⟨.receivedHeartbeat, .s155, .sendHeartbeat, .s155, .syncingStop⟩,
      ⟨.timingOffsetElapsed, .s156, .sendHeartbeat, .s100, .ready⟩,
      ⟨.interrupt, .s500, .exit, .s500, .exit⟩]
  | .exit => [
      ⟨.interrupt, .s500, .exit, .s500, .exit⟩]
  | .null => []

def transition (state : State) (event : Event) (status : Status) : Option Transition :=
  (transitions state).find? fun t => t.event = event ∧ t.status = status

def checkEvent (state : State) (event : Event) (status : Status) : Bool :=
  (transition state event status).isSome

def getAction (state : State) (event : Event) (status : Status) : Action :=
  ((transition state event status).map Transition.action).getD .null

def getHeartbeatStatus (state : State) (event : Event) (status : Status) : Status :=
  ((transition state event status).map Transition.heartbeat).getD .null

def getNewState (state : State) (event : Event) (status : Status) : State :=
  ((transition state event status).map Transition.newState).getD .null

theorem mem_of_transition {state : State} {event : Event} {status : Status} {t : Transition}
    (h : transition state event status = some t) :
    t ∈ transitions state ∧ t.event = event ∧ t.status = status := by
  refine ⟨List.mem_of_find?_eq_some h, ?_⟩
  simpa using List.find?_some h

theorem transition_of_mem :
    ∀ state, ∀ t ∈ transitions state, transition state t.event t.status = some t := by
  decide +kernel

theorem checkEvent_iff {state : State} {event : Event} {status : Status} :
    checkEvent state event status = true ↔ ∃ t, transition state event status = some t :=
  Option.isSome_iff_exists

theorem sendHeartbeat_of_leaves :
    ∀ state, ∀ t ∈ transitions state, t.newState ≠ state →
      t.action = .sendHeartbeat ∧ t.newState ≠ .exit ∨ t.action = .exit ∧ t.newState = .exit := by
  decide +kernel

/-- The statuses that `get_heartbeat_status` answers with. -/
def heartbeatStatuses : List Status := [
  .null, .s100, .s110, .s111, .s114, .s115, .s116, .s117, .s120, .s121, .s124, .s125, .s130,
  .s131, .s134, .s135, .s140, .s141, .s145, .s147, .s150, .s155, .s160, .s161, .s164, .s165,
  .s170, .s171, .s174, .s175, .s200, .s210, .s410, .s500]

theorem getHeartbeatStatus_mem (state : State) (event : Event) (status : Status) :
    getHeartbeatStatus state event status ∈ heartbeatStatuses := by
  have hrow : ∀ state, ∀ t ∈ transitions state, t.heartbeat ∈ heartbeatStatuses := by
    decide +kernel
  unfold getHeartbeatStatus
  cases h : transition state event status with
  | none => decide
  | some t => exact hrow state t (mem_of_transition h).1

theorem exists_heartbeatStatus {s : Status} (hs : s ∈ heartbeatStatuses) :
    ∃ state event status, getHeartbeatStatus state event status = s := by
  have hrow : ∀ s ∈ heartbeatStatuses,
      s = .null ∨ ∃ state, ∃ t ∈ transitions state, t.heartbeat = s := by
    decide +kernel
  obtain rfl | ⟨state, t, ht, rfl⟩ := hrow s hs
  · exact ⟨.null, .null, .null, rfl⟩
  · exact ⟨state, t.event, t.status, by simp [getHeartbeatStatus, transition_of_mem state t ht]⟩

end Flocksy.Fsm
