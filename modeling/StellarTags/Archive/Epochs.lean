import StellarTags.Archive.Leaves
import StellarTags.Library.Runs

/-! Committed epochs: in which orders of its rows a leaf verifies against the root. -/

namespace StellarTags.Archive

open Library.BigEndian Library.HashTrees Library.Runs Platform

structure LeafRow where
  recordType : RecordType
  primaryKey : String
  secondaryKey : Option String
  leafHash : String
  valueJson : Value
  deriving DecidableEq, Repr

structure ArchiveEpoch where
  epoch : ℕ
  merkleRoot : String
  recordCount : ℕ
  description : String
  leaves : List LeafRow
  deriving DecidableEq, Repr

/-- The roots that the contract was given, which it numbers from one, and the database. -/
structure World where
  chain : List Bytes := []
  epochs : List ArchiveEpoch := []
  deriving DecidableEq, Repr

def World.archiveRoot (w : World) (epoch : ℕ) : Option Bytes :=
  if epoch = 0 then none else w.chain[epoch - 1]?

def Entry.row (entry : Entry) (leafHash : String) : LeafRow :=
  ⟨entry.recordType, entry.primaryKey, entry.secondaryKey, leafHash, entry.value⟩

section Service

variable (sha256 : Bytes → Digest)

/-- `accepted` and `created` are what the contract and the database answer. -/
def commitArchiveEpoch (entries : List Entry) (description : String)
    (accepted created : Except String Unit) (w : World) : Except String (ℕ × String) × World :=
  if entries = [] then (.error "entries must be a non-empty array", w)
  else
    match entries.mapM Entry.leaf with
    | .error e => (.error e, w)
    | .ok leafBuffers =>
      let (root, leafHashes) := buildMerkleTree sha256 leafBuffers
      let merkleRootHex := toHex root
      match w.epochs.find? (·.merkleRoot = merkleRootHex) with
      | some existing => (.ok (existing.epoch, merkleRootHex), w)
      | none =>
        match accepted with
        | .error e => (.error e, w)
        | .ok () =>
          let epochNumber := w.chain.length + 1
          let chain := w.chain ++ [root]
          match created with
          | .error e => (.error e, { w with chain })
          | .ok () =>
            let leaves := List.zipWith Entry.row entries leafHashes
            let dbEpoch := ⟨epochNumber, merkleRootHex, entries.length, description, leaves⟩
            (.ok (epochNumber, merkleRootHex), ⟨chain, w.epochs ++ [dbEpoch]⟩)

structure Verdict where
  valid : Bool
  onChainRoot : Option String
  dbRoot : Option String
  deriving DecidableEq, Repr

/-- `rows` are the epoch's leaves as the database returns them. -/
def verifyArchivedLeaf (epochNumber : ℕ) (leafHash : String) (rows : List LeafRow)
    (reachable : Bool) (w : World) : Verdict :=
  match w.epochs.find? (·.epoch = epochNumber) with
  | none => ⟨false, none, none⟩
  | some dbEpoch =>
    match rows.findIdx? (·.leafHash = leafHash) with
    | none => ⟨false, none, some dbEpoch.merkleRoot⟩
    | some leafIndex =>
      let hashedLayer := rows.map fun l => ofHex l.leafHash
      let proof := buildProofFromHashedLayer sha256 hashedLayer leafIndex
      let dbValid := verifyMerkleProof sha256 leafHash proof dbEpoch.merkleRoot
      let onChainRoot := if reachable then (w.archiveRoot epochNumber).map toHex else none
      let valid := dbValid && (onChainRoot = none || onChainRoot = some dbEpoch.merkleRoot)
      ⟨valid, onChainRoot, some dbEpoch.merkleRoot⟩

inductive Move
  | commitArchiveEpoch (entries : List Entry) (description : String)
    (accepted created : Except String Unit)
  /-- Another treasury manager commits a root. -/
  | commitRoot (root : Bytes)

def step : Move → World → World
  | .commitArchiveEpoch entries description accepted created, w =>
    (commitArchiveEpoch sha256 entries description accepted created w).2
  | .commitRoot root, w => { w with chain := w.chain ++ [root] }

end Service

def leafHashes (rows : List LeafRow) : List Bytes := rows.map fun l => ofHex l.leafHash

variable {sha256 : Bytes → Digest} {w : World} {e : ArchiveEpoch} {rows : List LeafRow}
  {row : LeafRow} {entries : List Entry} {reachable : Bool}

section Commits

/-- An epoch as it is committed: its root is that of its leaves in their order, and on chain. -/
structure ArchiveEpoch.Sound (sha256 : Bytes → Digest) (chain : List Bytes) (e : ArchiveEpoch) :
    Prop where
  nonempty : e.leaves ≠ []
  hex : ∀ row ∈ e.leaves, ∃ digest : Digest, row.leafHash = toHex digest.bytes
  root : e.merkleRoot = toHex (foldLayers sha256 (leafHashes e.leaves))
  numbered : 0 < e.epoch
  onChain : chain[e.epoch - 1]? = some (foldLayers sha256 (leafHashes e.leaves))

structure Sound (sha256 : Bytes → Digest) (w : World) : Prop where
  epochs : ∀ e ∈ w.epochs, e.Sound sha256 w.chain
  increasing : (w.epochs.map ArchiveEpoch.epoch).Pairwise (· < ·)

lemma ArchiveEpoch.Sound.append {chain : List Bytes} (h : e.Sound sha256 chain) (root : Bytes) :
    e.Sound sha256 (chain ++ [root]) where
  nonempty := h.nonempty
  hex := h.hex
  root := h.root
  numbered := h.numbered
  onChain := by
    rw [List.getElem?_append_left (List.getElem?_eq_some_iff.mp h.onChain).1]
    exact h.onChain

lemma Sound.append (h : Sound sha256 w) (root : Bytes) :
    Sound sha256 { w with chain := w.chain ++ [root] } :=
  ⟨fun e he => (h.epochs e he).append root, h.increasing⟩

lemma leafHashes_zipWith {leafBuffers : List Bytes} (hlength : leafBuffers.length = entries.length) :
    leafHashes (List.zipWith Entry.row entries (buildMerkleTree sha256 leafBuffers).2) =
      leafBuffers.map fun l => (sha256 l).bytes := by
  rw [leafHashes, buildMerkleTree]
  induction leafBuffers generalizing entries with
  | nil => simp
  | cons b leafBuffers ih =>
    cases entries with
    | nil => simp at hlength
    | cons entry entries =>
      have hrest := ih (Nat.succ.inj hlength)
      simp only [List.map_cons, List.zipWith_cons_cons, Entry.row, ofHex_toHex] at hrest ⊢
      rw [hrest]

lemma mem_zipWith_row {leafBuffers : List Bytes}
    (h : row ∈ List.zipWith Entry.row entries (buildMerkleTree sha256 leafBuffers).2) :
    ∃ digest : Digest, row.leafHash = toHex digest.bytes := by
  obtain ⟨i, hi, rfl⟩ := List.mem_iff_getElem.mp h
  rw [List.getElem_zipWith, Entry.row]
  have hi' : i < leafBuffers.length := by
    rw [List.length_zipWith, buildMerkleTree, List.length_map, List.length_map] at hi
    exact (Nat.lt_min.mp hi).2
  exact ⟨sha256 leafBuffers[i], by simp [buildMerkleTree]⟩

lemma length_of_mapM {f : Entry → Except String Bytes} {leafBuffers : List Bytes}
    (h : entries.mapM f = .ok leafBuffers) : leafBuffers.length = entries.length := by
  induction entries generalizing leafBuffers with
  | nil =>
    obtain rfl : [] = leafBuffers := Except.ok.inj h
    rfl
  | cons entry entries ih =>
    rw [List.mapM_cons] at h
    cases hentry : f entry with
    | error e =>
      rw [hentry] at h
      cases h
    | ok leaf =>
      rw [hentry] at h
      cases hrest : entries.mapM f with
      | error e =>
        rw [hrest] at h
        cases h
      | ok rest =>
        rw [hrest] at h
        obtain rfl : leaf :: rest = leafBuffers := Except.ok.inj h
        rw [List.length_cons, List.length_cons, ih hrest]

lemma commitArchiveEpoch_cases (sha256 : Bytes → Digest) (entries : List Entry)
    (description : String) (accepted created : Except String Unit) (w : World) :
    (commitArchiveEpoch sha256 entries description accepted created w).2 = w ∨
      ∃ leafBuffers, leafBuffers.length = entries.length ∧ entries ≠ [] ∧
        let root := (buildMerkleTree sha256 leafBuffers).1
        (commitArchiveEpoch sha256 entries description accepted created w).2 =
            { w with chain := w.chain ++ [root] } ∨
          (commitArchiveEpoch sha256 entries description accepted created w).2 =
            ⟨w.chain ++ [root], w.epochs ++ [⟨w.chain.length + 1, toHex root, entries.length,
              description,
              List.zipWith Entry.row entries (buildMerkleTree sha256 leafBuffers).2⟩]⟩ := by
  rw [commitArchiveEpoch]
  split_ifs with hempty
  · exact .inl rfl
  cases hleaves : entries.mapM Entry.leaf with
  | error e => exact .inl rfl
  | ok leafBuffers =>
    simp only
    cases w.epochs.find? (·.merkleRoot = toHex (buildMerkleTree sha256 leafBuffers).1) with
    | some existing => exact .inl rfl
    | none =>
      cases accepted with
      | error e => exact .inl rfl
      | ok u =>
        refine .inr ⟨leafBuffers, ?_, hempty, ?_⟩
        · exact length_of_mapM hleaves
        · cases created with
          | error e => exact .inl rfl
          | ok u => exact .inr rfl

lemma Sound.commit {leafBuffers : List Bytes} (h : Sound sha256 w)
    (hlength : leafBuffers.length = entries.length) (hne : entries ≠ []) (description : String) :
    let root := (buildMerkleTree sha256 leafBuffers).1
    Sound sha256 ⟨w.chain ++ [root], w.epochs ++ [⟨w.chain.length + 1, toHex root, entries.length,
      description, List.zipWith Entry.row entries (buildMerkleTree sha256 leafBuffers).2⟩]⟩ := by
  intro root
  have hroot : root = foldLayers sha256 (leafHashes
      (List.zipWith Entry.row entries (buildMerkleTree sha256 leafBuffers).2)) := by
    rw [leafHashes_zipWith hlength]
    rfl
  constructor
  · intro e he
    obtain he | he := List.mem_append.mp he
    · exact (h.epochs e he).append root
    · obtain rfl := List.mem_singleton.mp he
      refine ⟨?_, fun row hrow => mem_zipWith_row hrow, congrArg toHex hroot, Nat.succ_pos _, ?_⟩
      · apply List.ne_nil_of_length_pos
        rw [List.length_zipWith, buildMerkleTree, List.length_map, List.length_map, hlength,
          Nat.min_self]
        exact List.length_pos_of_ne_nil hne
      · rw [← hroot]
        simp
  · rw [List.map_append, List.map_singleton, List.pairwise_append]
    refine ⟨h.increasing, List.pairwise_singleton _ _, ?_⟩
    intro n hn m hm
    obtain ⟨e, he, rfl⟩ := List.mem_map.mp hn
    rw [List.mem_singleton.mp hm]
    have hlt := (List.getElem?_eq_some_iff.mp (h.epochs e he).onChain).1
    have hpos := (h.epochs e he).numbered
    change e.epoch < w.chain.length + 1
    omega

lemma Sound.step (h : Sound sha256 w) (move : Move) : Sound sha256 (step sha256 move w) := by
  cases move with
  | commitRoot root => exact h.append root
  | commitArchiveEpoch entries description accepted created =>
    obtain hw | ⟨leafBuffers, hlength, hne, hw | hw⟩ :=
      commitArchiveEpoch_cases sha256 entries description accepted created w
    · rw [Archive.step, hw]
      exact h
    · rw [Archive.step, hw]
      exact h.append _
    · rw [Archive.step, hw]
      exact h.commit hlength hne description

lemma sound_run (sha256 : Bytes → Digest) (moves : List Move) : Sound sha256 (run (step sha256) {} moves) :=
  run_invariant (P := fun _ _ => True) (fun _ move h _ => h.step move)
    ⟨fun _ he => (List.not_mem_nil he).elim, .nil⟩ (along_of_forall _ (fun _ _ => trivial) _ _)

end Commits

section Verification

lemma Sound.find (h : Sound sha256 w) (he : e ∈ w.epochs) :
    w.epochs.find? (·.epoch = e.epoch) = some e := by
  obtain ⟨found, hfound⟩ : ∃ found, w.epochs.find? (·.epoch = e.epoch) = some found := by
    apply Option.isSome_iff_exists.mp
    rw [List.find?_isSome]
    exact ⟨e, he, by simp⟩
  rw [hfound]
  have hepoch : found.epoch = e.epoch := by simpa using List.find?_some hfound
  have hnodup : (w.epochs.map ArchiveEpoch.epoch).Nodup := h.increasing.imp fun hlt => ne_of_lt hlt
  rw [List.inj_on_of_nodup_map hnodup (List.mem_of_find?_eq_some hfound) he hepoch]

lemma valid_iff (h : Sound sha256 w) (he : e ∈ w.epochs) (hrow : row ∈ e.leaves)
    (hrows : rows.Perm e.leaves) :
    (verifyArchivedLeaf sha256 e.epoch row.leafHash rows reachable w).valid = true ↔
      foldLayers sha256 (leafHashes rows) = foldLayers sha256 (leafHashes e.leaves) := by
  have hsound := h.epochs e he
  obtain ⟨i, hi⟩ : ∃ i, rows.findIdx? (·.leafHash = row.leafHash) = some i := by
    apply Option.isSome_iff_exists.mp
    rw [List.findIdx?_isSome, List.any_eq_true]
    exact ⟨row, hrows.mem_iff.mpr hrow, by simp⟩
  obtain ⟨hlt, hmatch, -⟩ := List.findIdx?_eq_some_iff_getElem.mp hi
  obtain ⟨digest, hdigest⟩ := hsound.hex row hrow
  have hhash : rows[i].leafHash = toHex digest.bytes := by
    rw [← hdigest]
    simpa using hmatch
  have hlayer : (leafHashes rows)[i]? = some digest.bytes := by
    rw [leafHashes, List.getElem?_map, List.getElem?_eq_getElem hlt, Option.map_some, hhash,
      ofHex_toHex]
  have hchain : w.archiveRoot e.epoch = some (foldLayers sha256 (leafHashes e.leaves)) := by
    rw [World.archiveRoot, if_neg hsound.numbered.ne', hsound.onChain]
  have hverify := verifyMerkleProof_iff sha256 hlayer e.merkleRoot
  rw [hdigest] at hi
  rw [verifyArchivedLeaf, h.find he]
  simp only [hi, hdigest, hchain, Option.map_some, ← hsound.root]
  have hcross : (decide ((if reachable = true then some e.merkleRoot else none) = none) ||
      decide ((if reachable = true then some e.merkleRoot else none) = some e.merkleRoot)) = true := by
    cases reachable <;> simp
  rw [hcross, Bool.and_true]
  refine hverify.trans ?_
  rw [hsound.root]
  exact toHex_injective.eq_iff

end Verification

section Orders

lemma leafHashes_perm (hrows : rows.Perm e.leaves) :
    (leafHashes rows).Perm (leafHashes e.leaves) := hrows.map _

lemma ArchiveEpoch.Sound.length_leafHash {chain : List Bytes} (h : e.Sound sha256 chain)
    {a : Bytes} (ha : a ∈ leafHashes e.leaves) : a.length = 32 := by
  obtain ⟨row, hrow, rfl⟩ := List.mem_map.mp ha
  obtain ⟨digest, hdigest⟩ := h.hex row hrow
  rw [hdigest, ofHex_toHex, digest.length_bytes]

lemma valid_iff_rearranged (reachable : Bool) (h : Sound sha256 w) (he : e ∈ w.epochs) (hrow : row ∈ e.leaves)
    (hrows : rows.Perm e.leaves) (hfree : CollisionFree sha256
      (foldInputs sha256 (leafHashes e.leaves) ++ foldInputs sha256 (leafHashes rows))) :
    (verifyArchivedLeaf sha256 e.epoch row.leafHash rows reachable w).valid = true ↔
      Rearranged (leafHashes e.leaves) (leafHashes rows) := by
  have hsound := h.epochs e he
  rw [valid_iff h he hrow hrows]
  refine foldLayers_eq_iff (leafHashes_perm hrows).length_eq.symm ?_
    (fun a ha => hsound.length_leafHash ha)
    (fun a ha => hsound.length_leafHash ((leafHashes_perm hrows).mem_iff.mp ha)) hfree
  simpa [leafHashes] using hsound.nonempty

lemma rearranged_of_short {l l' : List Bytes} (hne : l ≠ []) (hshort : l.length ≤ 2)
    (hperm : l'.Perm l) : Rearranged l l' := by
  match l with
  | [] => exact absurd rfl hne
  | [a] =>
    rw [List.perm_singleton.mp hperm]
    exact ⟨_, _, rfl, rfl, .leaf a⟩
  | [a, b] =>
    obtain rfl | rfl := List.perm_pair.mp hperm
    · exact ⟨_, _, rfl, rfl, .straight (.leaf _) (.leaf _)⟩
    · exact ⟨_, _, rfl, rfl, .crossed (.leaf _) (.leaf _)⟩
  | a :: b :: c :: rest => simp at hshort

end Orders

/-- A committed record verifies exactly if its epoch's rows come back in an order that gives the
committed tree up to the order of the halves of its nodes. Where no two records are alike, all orders
do exactly if there are at most two. -/
theorem verifyArchivedLeaf_iff (sha256 : Bytes → Digest) (moves : List Move) (e : ArchiveEpoch)
    (he : e ∈ (run (step sha256) {} moves).epochs)
    (hfree : ∀ rows, rows.Perm e.leaves → CollisionFree sha256
      (foldInputs sha256 (leafHashes e.leaves) ++ foldInputs sha256 (leafHashes rows))) :
    (∀ rows row reachable, rows.Perm e.leaves → row ∈ e.leaves →
      ((verifyArchivedLeaf sha256 e.epoch row.leafHash rows reachable
        (run (step sha256) {} moves)).valid = true ↔
          Rearranged (leafHashes e.leaves) (leafHashes rows))) ∧
      ((leafHashes e.leaves).Nodup →
        ((∀ rows row reachable, rows.Perm e.leaves → row ∈ e.leaves →
          (verifyArchivedLeaf sha256 e.epoch row.leafHash rows reachable
            (run (step sha256) {} moves)).valid = true) ↔ e.leaves.length ≤ 2)) := by
  have hsound := sound_run sha256 moves
  have hiff (rows : List LeafRow) (row : LeafRow) (reachable : Bool)
      (hrows : rows.Perm e.leaves) (hrow : row ∈ e.leaves) :=
    valid_iff_rearranged reachable hsound he hrow hrows (hfree rows hrows)
  refine ⟨hiff, fun hnodup => ⟨fun hall => ?_, fun hshort rows row reachable hrows hrow => ?_⟩⟩
  · by_contra hlong
    match hleaves : e.leaves with
    | [] | [_] | [_, _] => simp [hleaves] at hlong
    | a :: b :: c :: rest =>
      have hrows : (a :: c :: b :: rest).Perm e.leaves := by
        rw [hleaves]
        exact (List.Perm.swap b c rest).cons a
      have hrow : a ∈ e.leaves := by simp [hleaves]
      obtain ⟨s, t, hs, ht, hsame⟩ :=
        (hiff _ a false hrows hrow).mp (hall _ a false hrows hrow)
      rw [hleaves] at hs hnodup
      exact not_same_of_swap hnodup hs ht hsame
  · apply (hiff rows row reachable hrows hrow).mpr
    apply rearranged_of_short _ _ (leafHashes_perm hrows)
    · simpa [leafHashes] using (hsound.epochs e he).nonempty
    · simpa [leafHashes] using hshort

section Examples

def volume (letter : Char) (n : ℤ) : Entry where
  recordType := .userVolume
  primaryKey := .ofList (List.replicate 56 letter)
  value := { volume := some n }

def volumeDigest (letter : Char) (n : ℕ) : Bytes :=
  (sampleSha256 (1 :: (List.replicate 56 (Fin.ofNat 256 letter.toNat) ++ toBytes 16 n))).bytes

def volumeRow (letter : Char) (n : ℕ) : LeafRow :=
  (volume letter n).row (toHex (volumeDigest letter n))

@[simp] lemma leafHashes_nil : leafHashes [] = [] := rfl

@[simp] lemma leafHashes_volumeRow (letter : Char) (n : ℕ) (rows : List LeafRow) :
    leafHashes (volumeRow letter n :: rows) = volumeDigest letter n :: leafHashes rows := by
  simp [leafHashes, volumeRow, Entry.row]

def commitVolumes (entries : List Entry) : List Move :=
  [.commitArchiveEpoch entries "volumes" (.ok ()) (.ok ())]

def archived (entries : List Entry) : World := run (step sampleSha256) {} (commitVolumes entries)

def archivedEpoch (rows : List LeafRow) (leaves : List Bytes) : ArchiveEpoch where
  epoch := 1
  merkleRoot := toHex (foldLayers sampleSha256 leaves)
  recordCount := rows.length
  description := "volumes"
  leaves := rows

lemma archived_two : (archived [volume 'A' 10, volume 'B' 20]).epochs =
    [archivedEpoch [volumeRow 'A' 10, volumeRow 'B' 20]
      [volumeDigest 'A' 10, volumeDigest 'B' 20]] := by
  decide +kernel

lemma archived_three : (archived [volume 'A' 10, volume 'B' 20, volume 'C' 30]).epochs =
    [archivedEpoch [volumeRow 'A' 10, volumeRow 'B' 20, volumeRow 'C' 30]
      [volumeDigest 'A' 10, volumeDigest 'B' 20, volumeDigest 'C' 30]] := by
  decide +kernel

/-- Two records verify in either order. -/
theorem verifyArchivedLeaf_iff_pair :
    (∀ rows row reachable, rows.Perm [volumeRow 'A' 10, volumeRow 'B' 20] →
      row ∈ [volumeRow 'A' 10, volumeRow 'B' 20] →
      (verifyArchivedLeaf sampleSha256 1 row.leafHash rows reachable
        (archived [volume 'A' 10, volume 'B' 20])).valid = true) ↔ 2 ≤ 2 := by
  refine (verifyArchivedLeaf_iff sampleSha256 (commitVolumes [volume 'A' 10, volume 'B' 20])
    (archivedEpoch [volumeRow 'A' 10, volumeRow 'B' 20]
      [volumeDigest 'A' 10, volumeDigest 'B' 20]) ?_ ?_).2 ?_
  · change _ ∈ (archived [volume 'A' 10, volume 'B' 20]).epochs
    rw [archived_two]
    exact List.mem_singleton_self _
  · intro rows hrows
    obtain rfl | rfl := List.perm_pair.mp hrows
    · simp only [archivedEpoch, leafHashes_volumeRow, leafHashes_nil]
      decide +kernel
    · simp only [archivedEpoch, leafHashes_volumeRow, leafHashes_nil]
      decide +kernel
  · simp only [archivedEpoch, leafHashes_volumeRow, leafHashes_nil]
    decide +kernel

/-- Three records come back with the last two swapped. -/
theorem archived_leaf_rejected :
    let committed := [volumeRow 'A' 10, volumeRow 'B' 20, volumeRow 'C' 30]
    let rows := [volumeRow 'A' 10, volumeRow 'C' 30, volumeRow 'B' 20]
    let w := archived [volume 'A' 10, volume 'B' 20, volume 'C' 30]
    (∃ e ∈ w.epochs, e.epoch = 1 ∧ e.leaves = committed) ∧ rows.Perm committed ∧
      CollisionFree sampleSha256 (foldInputs sampleSha256 (leafHashes committed) ++
        foldInputs sampleSha256 (leafHashes rows)) ∧
      (verifyArchivedLeaf sampleSha256 1 (volumeRow 'A' 10).leafHash rows true w).valid = false := by
  intro committed rows w
  have hrows : rows.Perm committed := (List.Perm.swap _ _ _).cons _
  have he : archivedEpoch committed [volumeDigest 'A' 10, volumeDigest 'B' 20, volumeDigest 'C' 30] ∈
      w.epochs := by simp [w, archived_three, committed]
  refine ⟨⟨_, he, rfl, rfl⟩, hrows, ?_, ?_⟩
  · simp only [committed, rows, leafHashes_volumeRow, leafHashes_nil]
    decide +kernel
  · apply Bool.eq_false_iff.mpr
    intro hvalid
    have hsame := (valid_iff (sound_run sampleSha256 _) he (by simp [archivedEpoch, committed])
      hrows).mp hvalid
    simp only [archivedEpoch, committed, rows, leafHashes_volumeRow, leafHashes_nil] at hsame
    revert hsame
    decide +kernel

end Examples

end StellarTags.Archive
