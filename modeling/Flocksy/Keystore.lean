import Flocksy.Endpoints

/-!
# The keystore

The public keys of the nodes come from the keystore, which is read after the private keys of this
node. The map of the nodes is made in the order of the vector, under the hashes of the keys. A node
that is missing in the keystore has the empty key, and of several such nodes only the first is kept.
-/

namespace Flocksy

open ByteStream

inductive JsonFile (α : Type) where
  | missing
  | malformed
  | parsed (value : α)

abbrev PrivateKeys := Bytes → Option Keypair

abbrev KeyTable := Bytes → Option Bytes

/-- `createPrivateKey` is the option of the command line, `generateKeypair` makes a new keypair with
each call. -/
structure KeyFiles where
  createPrivateKey : Bool
  privateKeys : JsonFile PrivateKeys
  keystore : JsonFile KeyTable
  generateKeypair : ℕ → Keypair

def KeyFiles.Ready (files : KeyFiles) : Prop :=
  files.createPrivateKey = false ∧ ∃ pks, files.privateKeys = .parsed pks

section Synchronize

variable (H : Bytes → Hash)

def HostT.withKeypair (host : HostT) (keypair : Keypair) : HostT :=
  { host with keypair := keypair, uid := (H keypair.publicKey).getString }

def createKeys (generateKeypair : ℕ → Keypair) :
    ℕ → List HostT → PrivateKeys → List HostT × PrivateKeys
  | _, [], pks => ([], pks)
  | calls, host :: rest, pks =>
    match pks host.endpoint with
    | some keypair =>
      let (hosts, pks) := createKeys generateKeypair calls rest pks
      (host.withKeypair H keypair :: hosts, pks)
    | none =>
      let keypair := generateKeypair calls
      let (hosts, pks) := createKeys generateKeypair (calls + 1) rest
        (Function.update pks host.endpoint (some keypair))
      (host.withKeypair H keypair :: hosts, pks)

def readKeys (pks : PrivateKeys) (host : HostT) : HostT :=
  host.withKeypair H ((pks host.endpoint).getD ⟨[], []⟩)

def NodeT.withKey (ks : KeyTable) (node : NodeT) : NodeT :=
  let publicKey := (ks node.endpoint).getD []
  { node with publicKey := publicKey, uid := some (H publicKey) }

/-- `nodes_.insert` does not replace an entry. -/
def insertNode (nodes : List (Hash × NodeT)) (node : NodeT) : List (Hash × NodeT) :=
  if nodes.any (·.1 = H node.publicKey) then nodes else nodes ++ [(H node.publicKey, node)]

/-- `Config::synchronizeKeystore`, with the private keys that it writes. -/
def synchronizeKeystore (files : KeyFiles) (c : Config) : ℤ × Config × Option PrivateKeys :=
  if files.createPrivateKey then
    let pks := match files.privateKeys with
      | .parsed pks => pks
      | _ => fun _ => none
    let (hosts, pks) := createKeys H files.generateKeypair 0 c.hosts pks
    (1, { c with hosts := hosts }, some pks)
  else
    match files.privateKeys with
    | .parsed pks =>
      let c := { c with hosts := c.hosts.map (readKeys H pks) }
      match files.keystore with
      | .parsed ks =>
        let nodesVec := c.nodesVec.map (NodeT.withKey H ks)
        (0, { c with nodesVec := nodesVec, nodes := nodesVec.foldl (insertNode H) c.nodes }, none)
      | _ => (1, c, none)
    | _ => (1, c, none)

/-- One entry for each configured node, with its endpoint and its key in the keystore. -/
def NodesKept (ks : KeyTable) (configured : List NodeT) (nodes : List (Hash × NodeT)) : Prop :=
  (nodes.map fun e => (e.2.endpoint, some e.2.publicKey)).Perm
    (configured.map fun node => (node.endpoint, ks node.endpoint))

variable {H} {files : KeyFiles} {c : Config} {ks : KeyTable}

theorem synchronizeKeystore_ready (h : files.Ready) (hks : files.keystore = .parsed ks) :
    (synchronizeKeystore H files c).1 = 0 ∧ (synchronizeKeystore H files c).2.1.nodes =
      (c.nodesVec.map (NodeT.withKey H ks)).foldl (insertNode H) c.nodes := by
  obtain ⟨hcreate, pks, hpks⟩ := h
  simp [synchronizeKeystore, hcreate, hpks, hks]

theorem synchronizeKeystore_notReady (h : ¬ files.Ready) :
    (synchronizeKeystore H files c).1 = 1 := by
  rw [synchronizeKeystore]
  by_cases hcreate : files.createPrivateKey = true
  · rw [if_pos hcreate]
  · rw [if_neg hcreate]
    rw [Bool.not_eq_true] at hcreate
    cases hpks : files.privateKeys with
    | parsed pks => exact absurd ⟨hcreate, pks, hpks⟩ h
    | missing => rfl
    | malformed => rfl

theorem foldl_insertNode (ns : List NodeT) (nodes : List (Hash × NodeT))
    (hnodup : (nodes.map Prod.fst ++ ns.map fun n => H n.publicKey).Nodup) :
    ns.foldl (insertNode H) nodes = nodes ++ ns.map fun n => (H n.publicKey, n) := by
  induction ns generalizing nodes with
  | nil => simp
  | cons n ns ih =>
    have hnew : ¬ nodes.any (·.1 = H n.publicKey) = true := by
      intro htaken
      obtain ⟨e, he, hkey⟩ := List.any_eq_true.1 htaken
      have hdisjoint := List.disjoint_of_nodup_append hnodup
      rw [decide_eq_true_eq] at hkey
      exact hdisjoint (List.mem_map_of_mem he) (by simp [hkey])
    rw [List.foldl_cons, insertNode, if_neg hnew, ih _ (by simpa using hnodup)]
    simp

theorem nodesKept_of_present (hdistinct : (c.nodesVec.map (·.endpoint)).Nodup)
    (hkeys : ∀ e e' key, ks e = some key → ks e' = some key → e = e')
    (hH : Set.InjOn H {key | ∃ e, ks e = some key})
    (hpresent : ∀ node ∈ c.nodesVec, (ks node.endpoint).isSome = true) :
    NodesKept ks c.nodesVec ((c.nodesVec.map (NodeT.withKey H ks)).foldl (insertNode H) []) := by
  have hkey {node : NodeT} (hnode : node ∈ c.nodesVec) :
      ks node.endpoint = some (node.withKey H ks).publicKey := by
    obtain ⟨key, hkey⟩ := Option.isSome_iff_exists.1 (hpresent node hnode)
    rw [NodeT.withKey, hkey]
    rfl
  have hnodup : ((c.nodesVec.map (NodeT.withKey H ks)).map fun n => H n.publicKey).Nodup := by
    rw [List.map_map, List.Nodup, List.pairwise_map]
    rw [List.Nodup, List.pairwise_map] at hdistinct
    refine hdistinct.imp_of_mem fun {n m} hn hm hne heq => hne ?_
    have hsame := hH ⟨_, hkey hn⟩ ⟨_, hkey hm⟩ heq
    exact hkeys _ _ _ (hkey hn) (hsame ▸ hkey hm)
  rw [NodesKept, foldl_insertNode _ _ (by simpa using hnodup), List.nil_append, List.map_map,
    List.map_map]
  refine .of_eq (List.map_congr_left fun node hnode => ?_)
  exact Prod.ext rfl (hkey hnode).symm

/-- No configured node is lost if and only if an error is reported or all of them are in the
keystore. -/
theorem nodesKept_iff (files : KeyFiles) (c : Config) (ks : KeyTable) (hempty : c.nodes = [])
    (hks : files.keystore = .parsed ks) (hdistinct : (c.nodesVec.map (·.endpoint)).Nodup)
    (hkeys : ∀ e e' key, ks e = some key → ks e' = some key → e = e')
    (hH : Set.InjOn H {key | ∃ e, ks e = some key}) :
    ((synchronizeKeystore H files c).1 ≠ 0 ∨
        NodesKept ks c.nodesVec (synchronizeKeystore H files c).2.1.nodes) ↔
      ¬ files.Ready ∨ ∀ node ∈ c.nodesVec, (ks node.endpoint).isSome = true := by
  by_cases hready : files.Ready
  · obtain ⟨hresult, hnodes⟩ := synchronizeKeystore_ready (H := H) (c := c) hready hks
    rw [hempty] at hnodes
    rw [hresult, hnodes, or_iff_right (not_not.2 rfl), or_iff_right (not_not.2 hready)]
    refine ⟨fun hkept node hnode => ?_, nodesKept_of_present hdistinct hkeys hH⟩
    have hmem : (node.endpoint, ks node.endpoint) ∈
        c.nodesVec.map fun n => (n.endpoint, ks n.endpoint) := List.mem_map_of_mem hnode
    obtain ⟨e, -, heq⟩ := List.mem_map.1 (hkept.mem_iff.2 hmem)
    rw [← (Prod.mk.inj heq).2]
    rfl
  · rw [synchronizeKeystore_notReady hready]
    exact iff_of_true (.inl one_ne_zero) (.inl hready)

end Synchronize

namespace Sample

def tcpNodeTwo : Bytes := ascii ['t', 'c', 'p', ':', '/', '/', 'h', ':', '2']

def twoNodes : List NodeT := [newNode tcpNodeH, newNode tcpNodeTwo]

def keyH : Bytes := List.replicate 40 65
def keyTwo : Bytes := List.replicate 40 66

def twoKeys : KeyTable := fun endpoint =>
  if endpoint = tcpNodeH then some keyH else if endpoint = tcpNodeTwo then some keyTwo else none

def keyhash (key : Bytes) : Hash :=
  if key = keyH then digest
    0xbbda156137a4f4c52b247f6cbece81a52155795de907324a6457cccadf53f5ca
    0xa09f6252ae0c63da977d0c9743467ff84877ced926390a5379067607bd6ca9b5
  else if key = keyTwo then digest
    0x7ede9c2b777cdf8a1e2f2e23856a26299b736e4056ad0b696e97dff6c237c151
    0x6f073d96caf7667d53564095a996ab7ad6cffbe3223b4d99a1f25b3dea0f80b4
  else if key = [] then digest
    0x786a02f742015903c6c6fd852552d272912f4740e15847618a86e217f71f5419
    0xd25e1031afee585313896444934eb04b903a685b1448b755d56f701afe9be2ce
  else default

theorem keys_distinct : keyH ≠ keyTwo := by decide

theorem keyhash_distinct : keyhash keyH ≠ keyhash keyTwo := by decide

def keyFiles (ks : KeyTable) : KeyFiles where
  createPrivateKey := false
  privateKeys := .parsed fun _ => none
  keystore := .parsed ks
  generateKeypair := fun _ => ⟨[], []⟩

theorem twoKeys_eq_some {endpoint key : Bytes} (h : twoKeys endpoint = some key) :
    endpoint = tcpNodeH ∧ key = keyH ∨ endpoint = tcpNodeTwo ∧ key = keyTwo := by
  rw [twoKeys] at h
  split_ifs at h with h₁ h₂
  · exact .inl ⟨h₁, (Option.some.inj h).symm⟩
  · exact .inr ⟨h₂, (Option.some.inj h).symm⟩

end Sample

theorem nodesKept_present :
    NodesKept Sample.twoKeys Sample.twoNodes
      (synchronizeKeystore Sample.keyhash (Sample.keyFiles Sample.twoKeys)
        { Sample.emptyConfig with nodesVec := Sample.twoNodes }).2.1.nodes := by
  have hkeys (e e' key : Bytes) (he : Sample.twoKeys e = some key)
      (he' : Sample.twoKeys e' = some key) : e = e' := by
    rcases Sample.twoKeys_eq_some he with ⟨rfl, rfl⟩ | ⟨rfl, rfl⟩
    · rcases Sample.twoKeys_eq_some he' with ⟨rfl, -⟩ | ⟨-, hne⟩
      · rfl
      · exact absurd hne Sample.keys_distinct
    · rcases Sample.twoKeys_eq_some he' with ⟨-, hne⟩ | ⟨rfl, -⟩
      · exact absurd hne.symm Sample.keys_distinct
      · rfl
  have hH : Set.InjOn Sample.keyhash {key | ∃ e, Sample.twoKeys e = some key} := by
    rintro key ⟨e, he⟩ key' ⟨e', he'⟩ hhash
    rcases Sample.twoKeys_eq_some he with ⟨-, rfl⟩ | ⟨-, rfl⟩ <;>
      rcases Sample.twoKeys_eq_some he' with ⟨-, rfl⟩ | ⟨-, rfl⟩
    · rfl
    · exact absurd hhash Sample.keyhash_distinct
    · exact absurd hhash.symm Sample.keyhash_distinct
    · rfl
  have hpresent : ∀ node ∈ Sample.twoNodes, (Sample.twoKeys node.endpoint).isSome = true := by
    decide
  exact ((nodesKept_iff (Sample.keyFiles Sample.twoKeys) _ Sample.twoKeys rfl rfl (by decide)
    hkeys hH).2 (.inr hpresent)).resolve_left (not_not.2 rfl)

theorem nodesKept_fails :
    ¬ ∀ (H : Bytes → Hash) (files : KeyFiles) (c : Config) (ks : KeyTable), c.nodes = [] →
      files.keystore = .parsed ks → (c.nodesVec.map (·.endpoint)).Nodup →
      (∀ e e' key, ks e = some key → ks e' = some key → e = e') →
      Set.InjOn H {key | ∃ e, ks e = some key} →
      (synchronizeKeystore H files c).1 ≠ 0 ∨
        NodesKept ks c.nodesVec (synchronizeKeystore H files c).2.1.nodes := by
  intro h
  have hkept := h Sample.keyhash (Sample.keyFiles fun _ => none)
    { Sample.emptyConfig with nodesVec := Sample.twoNodes } (fun _ => none) rfl rfl (by decide)
    (fun e e' key he => absurd he (Option.some_ne_none key).symm)
    (fun key hkey => hkey.elim fun e he => absurd he (Option.some_ne_none key).symm)
  exact absurd (hkept.resolve_left (not_not.2 rfl)).length_eq (by decide)

end Flocksy
