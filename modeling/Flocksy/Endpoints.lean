import Flocksy.Foundation.Repetitions
import Flocksy.BoxTable

/-!
# Endpoints

Nodes and hostnames are given as strings, with the protocol in front or not. Strings that are
repeated in a row are dropped before the protocol is added, so an endpoint stands once in the
configuration if and only if it is given in one spelling and without another one in between.
-/

namespace Flocksy

open ByteStream Repetitions

def colon : UInt8 := 58
def tcpProtocol : Bytes := ascii ['t', 'c', 'p', ':', '/', '/']
def ipcProtocol : Bytes := ascii ['i', 'p', 'c', ':', '/', '/']

/-- What `.` stands for in a pattern. -/
def anyByte (b : UInt8) : Bool := b != 10 && b != 13

/-- `(.*)(:)([0-9]*)`. -/
def matchesAddress (s : Bytes) : Bool :=
  let front := s.rdropWhile isDigit
  front.getLast? = some colon && front.dropLast.all anyByte

/-- `(tcp://)?(.*)(:)([0-9]*)`, with the length of its first group. -/
def matchTcp (s : Bytes) : Option ℕ :=
  if tcpProtocol.isPrefixOf s && matchesAddress (s.drop tcpProtocol.length) then
    some tcpProtocol.length
  else if matchesAddress s then some 0
  else none

/-- `(ipc://)(.*)`. -/
def matchesIpc (s : Bytes) : Bool :=
  ipcProtocol.isPrefixOf s && (s.drop ipcProtocol.length).all anyByte

/-- `F_MSG_DEBUG`. -/
def msgDebug : Bool := true

def endpointOf (s : Bytes) : Option Bytes :=
  match matchTcp s with
  | some length => some (if length = 0 then tcpProtocol ++ s else s)
  | none => if msgDebug && matchesIpc s then some s else none

/-- `F_SUBTYPE_TCP_BIDIR`. -/
def subtypeTcpBidir : ℕ := 0

def newNode (endpoint : Bytes) : NodeT := ⟨endpoint, subtypeTcpBidir, 0, 0, [], none⟩

def newHost (endpoint : Bytes) : HostT := ⟨endpoint, ⟨[], []⟩, []⟩

/-- `std::unique`, and the resize behind it. -/
def unique (strings : List Bytes) : List Bytes := strings.destutter (· ≠ ·)

def checkEndpoints {α : Type} (add : Bytes → α) : List Bytes → List α → Bool × List α
  | [], vec => (true, vec)
  | s :: rest, vec =>
    match endpointOf s with
    | some endpoint => checkEndpoints add rest (vec ++ [add endpoint])
    | none => (false, vec)

def checkStrings {α : Type} (add : Bytes → α) (strings : List Bytes) (vec : List α) : ℤ × List α :=
  if 1 ≤ strings.length then
    let (accepted, vec) := checkEndpoints add (unique strings) vec
    (if accepted then 0 else 1, vec)
  else (1, vec)

def checkNodes (nodes : List Bytes) (c : Config) : ℤ × Config :=
  let (result, nodesVec) := checkStrings newNode nodes c.nodesVec
  (result, { c with nodesVec := nodesVec })

def checkPublishers (hostnames : List Bytes) (c : Config) : ℤ × Config :=
  let (result, hosts) := checkStrings newHost hostnames c.hosts
  (result, { c with hosts := hosts })

/-- `Config::doSanityCheck`; `none` would be a loop that does not end. -/
def doSanityCheck (H : Bytes → Hash) (isDirectory : Bytes → Bool) (help : Bool)
    (nodes hostnames boxStrings : List Bytes) (c : Config) : Option (ℤ × Config) :=
  if help then some (1, c)
  else
    let (result, c) := checkNodes nodes c
    if result ≠ 0 then some (1, c)
    else
      let (result, c) := checkPublishers hostnames c
      if result ≠ 0 then some (1, c)
      else if 1 ≤ boxStrings.length then
        (checkBoxes H isDirectory boxStrings c.boxes).map fun boxes => (0, { c with boxes := boxes })
      else some (1, c)

theorem checkEndpoints_accepted {α : Type} {add : Bytes → α} {strings : List Bytes} {vec : List α}
    (h : (checkEndpoints add strings vec).1 = true) :
    ∃ endpoints : List Bytes, strings.map endpointOf = endpoints.map some ∧
      (checkEndpoints add strings vec).2 = vec ++ endpoints.map add := by
  induction strings generalizing vec with
  | nil => exact ⟨[], rfl, (List.append_nil vec).symm⟩
  | cons s rest ih =>
    cases hs : endpointOf s with
    | none => simp [checkEndpoints, hs] at h
    | some endpoint =>
      simp only [checkEndpoints, hs] at h ⊢
      obtain ⟨endpoints, hmap, hvec⟩ := ih h
      exact ⟨endpoint :: endpoints, by rw [List.map_cons, hs, hmap]; rfl, by rw [hvec]; simp⟩

theorem checkStrings_endpoints {α : Type} {add : Bytes → α} {endpoint : α → Bytes}
    (hadd : ∀ s, endpoint (add s) = s) {strings : List Bytes}
    (h : (checkStrings add strings []).1 = 0) :
    ((checkStrings add strings []).2.map fun a => some (endpoint a)) =
      (strings.map endpointOf).eraseDups ↔ Together endpointOf strings := by
  rw [checkStrings] at h ⊢
  split_ifs at h ⊢ with hsome
  · have haccepted : (checkEndpoints add (unique strings) []).1 = true := by
      by_contra hrefused
      simp [hrefused] at h
    obtain ⟨endpoints, hmap, hvec⟩ := checkEndpoints_accepted haccepted
    have hall : ((checkEndpoints add (unique strings) []).2.map fun a => some (endpoint a)) =
        (unique strings).map endpointOf := by
      rw [hvec, hmap, List.nil_append, List.map_map]
      exact List.map_congr_left fun s _ => congrArg some (hadd s)
    change ((checkEndpoints add (unique strings) []).2.map fun a => some (endpoint a)) = _ ↔ _
    rw [hall, unique]
    exact map_destutter_iff
  · cases h

theorem doSanityCheck_accepted {H : Bytes → Hash} {isDirectory : Bytes → Bool} {help : Bool}
    {nodes hostnames boxStrings : List Bytes} {c c' : Config}
    (h : doSanityCheck H isDirectory help nodes hostnames boxStrings c = some (0, c')) :
    ((checkStrings newNode nodes c.nodesVec).1 = 0 ∧
        c'.nodesVec = (checkStrings newNode nodes c.nodesVec).2) ∧
      (checkStrings newHost hostnames c.hosts).1 = 0 ∧
        c'.hosts = (checkStrings newHost hostnames c.hosts).2 := by
  rw [doSanityCheck] at h
  rcases hnodes : checkNodes nodes c with ⟨result, c₁⟩
  rcases hhosts : checkPublishers hostnames c₁ with ⟨result', c₂⟩
  simp only [hnodes, hhosts] at h
  obtain ⟨rfl, rfl⟩ := Prod.mk.inj hnodes
  obtain ⟨rfl, rfl⟩ := Prod.mk.inj hhosts
  split_ifs at h with hhelp hnodesOk hhostsOk hboxes
  · simp at h
  · simp at h
  · simp at h
  · obtain ⟨boxes, -, heq⟩ := Option.map_eq_some_iff.1 h
    obtain rfl := (Prod.mk.inj heq).2
    exact ⟨⟨not_not.1 hnodesOk, rfl⟩, not_not.1 hhostsOk, rfl⟩
  · simp at h

/-- The vectors hold each endpoint once, where it is first given, if and only if each is given in
one spelling, without another string between its repetitions. -/
theorem endpoints_unique_iff {H : Bytes → Hash} {isDirectory : Bytes → Bool} {help : Bool}
    (nodes hostnames boxStrings : List Bytes) {c c' : Config} (hnodes : c.nodesVec = [])
    (hhosts : c.hosts = [])
    (h : doSanityCheck H isDirectory help nodes hostnames boxStrings c = some (0, c')) :
    (c'.nodesVec.map fun node => some node.endpoint) = (nodes.map endpointOf).eraseDups ∧
        (c'.hosts.map fun host => some host.endpoint) = (hostnames.map endpointOf).eraseDups ↔
      Together endpointOf nodes ∧ Together endpointOf hostnames := by
  obtain ⟨⟨hnodesVec, hnodesEq⟩, hhostsVec, hhostsEq⟩ := doSanityCheck_accepted h
  rw [hnodes] at hnodesVec hnodesEq
  rw [hhosts] at hhostsVec hhostsEq
  rw [hnodesEq, hhostsEq]
  exact and_congr (checkStrings_endpoints (fun _ => rfl) hnodesVec)
    (checkStrings_endpoints (fun _ => rfl) hhostsVec)

namespace Sample

def emptyConfig : Config := ⟨[], [], [], OrderedTable.empty⟩

def nodeH : Bytes := ascii ['h', ':', '1']
def tcpNodeH : Bytes := ascii ['t', 'c', 'p', ':', '/', '/', 'h', ':', '1']

def boxArguments : List Bytes := [ascii ['b', '@', '/', 'x']]

end Sample

theorem endpoints_unique_repeated : ∃ c', doSanityCheck Sample.namehash (fun _ => true) false
    [Sample.nodeH, Sample.nodeH] [Sample.nodeH] Sample.boxArguments Sample.emptyConfig =
      some (0, c') ∧
    (c'.nodesVec.map fun node => some node.endpoint) = [some Sample.tcpNodeH] := by
  obtain ⟨c', h⟩ : ∃ c', doSanityCheck Sample.namehash (fun _ => true) false
      [Sample.nodeH, Sample.nodeH] [Sample.nodeH] Sample.boxArguments Sample.emptyConfig =
        some (0, c') := ⟨_, rfl⟩
  have hnodes : Together endpointOf [Sample.nodeH, Sample.nodeH] := by
    rw [together_cons_cons]
    simp [Together, List.singleton_eq_append_iff]
  have hhosts : Together endpointOf [Sample.nodeH] := by
    simp [Together, List.singleton_eq_append_iff]
  refine ⟨c', h, ?_⟩
  rw [((endpoints_unique_iff _ _ _ rfl rfl h).2 ⟨hnodes, hhosts⟩).1]
  decide

theorem endpoints_unique_fails :
    ¬ ∀ (H : Bytes → Hash) (isDirectory : Bytes → Bool) (nodes hostnames boxStrings : List Bytes)
      (c' : Config), doSanityCheck H isDirectory false nodes hostnames boxStrings
        ⟨[], [], [], OrderedTable.empty⟩ = some (0, c') →
      (c'.nodesVec.map fun node => some node.endpoint) = (nodes.map endpointOf).eraseDups ∧
        (c'.hosts.map fun host => some host.endpoint) = (hostnames.map endpointOf).eraseDups := by
  intro h
  have hnodes := (h Sample.namehash (fun _ => true) [Sample.nodeH, Sample.tcpNodeH]
    [Sample.nodeH] Sample.boxArguments _ rfl).1
  exact absurd hnodes (by decide)

end Flocksy
