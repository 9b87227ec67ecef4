import StellarTags.Library.HashTrees
import StellarTags.Platform.Encoding

/-! The Merkle trees of settled batches: what a root says of the leaves, and what a proof does. -/

namespace StellarTags.Settlement

open Library.HashTrees Platform

/-- The data of a leaf. -/
inductive Leaf
  | buffer (bytes : Bytes)
  | value (data : Json)

def Leaf.serialized : Leaf → Bytes
  | .buffer bytes => bytes
  | .value (.string s) => utf8 s
  | .value data => utf8 (canonicalJson data)

def leafInput (serialized : Bytes) : Bytes := 0 :: serialized

def internalInput (left right : Digest) : Bytes := 1 :: (left.bytes ++ right.bytes)

section Building

variable (sha256 : Bytes → Digest)

def hashLeaf (data : Leaf) : Digest := sha256 (leafInput data.serialized)

def hashInternal (left right : Digest) : Digest := sha256 (internalInput left right)

/-- A leaf that is already hashed is taken as it is, if it can be a digest. -/
def hashedLeaf (isLeafHashed : Bool) (leaf : Leaf) : Digest :=
  match leaf with
  | .buffer bytes =>
    if h : isLeafHashed ∧ bytes.length = 32 then ⟨bytes, h.2⟩ else hashLeaf sha256 leaf
  | .value _ => hashLeaf sha256 leaf

structure MerkleTree where
  leafHashes : List Digest
  layers : List (List Digest)

def buildTree (leafHashes : List Digest) : List (List Digest) :=
  if leafHashes = [] then [[zeroDigest]] else layers (hashInternal sha256) leafHashes

def merkleTree (leaves : List Leaf) (areLeavesHashed : Bool := false) : MerkleTree where
  leafHashes := leaves.map (hashedLeaf sha256 areLeavesHashed)
  layers := buildTree sha256 (leaves.map (hashedLeaf sha256 areLeavesHashed))

end Building

namespace MerkleTree

def getRoot (merkle : MerkleTree) : Digest :=
  match merkle.layers.getLast? with
  | none => zeroDigest
  | some topLayer => topLayer.head?.getD zeroDigest

def getRootHex (merkle : MerkleTree) : String := toHex merkle.getRoot.bytes

end MerkleTree

/-- A step as it comes with a proof; a hash that is no string is `none`. -/
structure ProofStep where
  position : String
  hash : Option String
  deriving DecidableEq, Repr

def proofFrom : List (List Digest) → ℕ → List ProofStep
  | layer :: upper :: layers, currentIndex =>
    let isRightNode := currentIndex % 2 = 1
    let pairIndex := if isRightNode then currentIndex - 1 else currentIndex + 1
    let step : ProofStep := match layer[pairIndex]? with
      | some pair => ⟨if isRightNode then "left" else "right", some (toHex pair.bytes)⟩
      | none => ⟨"right", some (toHex (layer.getD currentIndex zeroDigest).bytes)⟩
    step :: proofFrom (upper :: layers) (currentIndex / 2)
  | _, _ => []

def MerkleTree.getProof (merkle : MerkleTree) (leafIndex : ℕ) : Except String (List ProofStep) :=
  if merkle.leafHashes.length ≤ leafIndex then
    .error (s!"Leaf index {leafIndex} out of bounds " ++
      s!"(0..{(merkle.leafHashes.length : ℤ) - 1})")
  else .ok (proofFrom merkle.layers leafIndex)

inductive Root
  | buffer (bytes : Bytes)
  | hex (s : String)
  deriving DecidableEq

def Root.bytes : Root → Bytes
  | .buffer bytes => bytes
  | .hex s => ofHex s

section Verification

variable (sha256 : Bytes → Digest)

/-- The hash that a proof leads to, unless one of its steps is malformed. -/
def followProof : Digest → List ProofStep → Option Digest
  | currentHash, [] => some currentHash
  | currentHash, step :: proof =>
    match step.hash with
    | none => none
    | some hash =>
      if h : (ofHex hash).length = 32 then
        let siblingHash : Digest := ⟨ofHex hash, h⟩
        if step.position = "left" then
          followProof (hashInternal sha256 siblingHash currentHash) proof
        else if step.position = "right" then
          followProof (hashInternal sha256 currentHash siblingHash) proof
        else none
      else none

def verifyProof (leafData : Leaf) (proof : List ProofStep) (root : Root)
    (isLeafHashed : Bool := false) : Bool :=
  if root = .hex "" then false
  else
    match followProof sha256 (hashedLeaf sha256 isLeafHashed leafData) proof with
    | none => false
    | some currentHash => currentHash.bytes = root.bytes

end Verification

section Inputs

variable (sha256 : Bytes → Digest)

def bytesHash (b : Bytes) : Digest := sha256 (leafInput b)

def inputs (t : HashTree Bytes) : List Bytes :=
  t.leaves.map leafInput ++
    (t.joins (bytesHash sha256) (hashInternal sha256)).map fun p => internalInput p.1 p.2

def treeInputs (leaves : List Leaf) : List Bytes :=
  (tree (leaves.map Leaf.serialized)).elim [] (inputs sha256)

def proofInputs : Digest → List ProofStep → List Bytes
  | _, [] => []
  | currentHash, step :: proof =>
    match step.hash with
    | none => []
    | some hash =>
      if h : (ofHex hash).length = 32 then
        let siblingHash : Digest := ⟨ofHex hash, h⟩
        if step.position = "left" then
          internalInput siblingHash currentHash ::
            proofInputs (hashInternal sha256 siblingHash currentHash) proof
        else if step.position = "right" then
          internalInput currentHash siblingHash ::
            proofInputs (hashInternal sha256 currentHash siblingHash) proof
        else []
      else []

def verifyInputs (leafData : Leaf) (proof : List ProofStep) : List Bytes :=
  leafInput leafData.serialized :: proofInputs sha256 (hashLeaf sha256 leafData) proof

end Inputs

variable {sha256 : Bytes → Digest} {leaves leaves' : List Leaf} {leaf : Leaf}
  {proof : List ProofStep} {layer : List Digest} {a b : Digest} {i : ℕ}

section Roots

lemma leafInput_injective : Function.Injective leafInput := fun _ _ h => (List.cons.inj h).2

lemma internalInput_injective {l r l' r' : Digest} (h : internalInput l r = internalInput l' r') :
    l = l' ∧ r = r' := by
  obtain ⟨hl, hr⟩ := List.append_inj (List.cons.inj h).2
    (l.length_bytes.trans l'.length_bytes.symm)
  exact ⟨Digest.ext hl, Digest.ext hr⟩

lemma leafInput_ne_internalInput (b : Bytes) (l r : Digest) : leafInput b ≠ internalInput l r :=
  fun h => absurd (List.cons.inj h).1 (by decide)

@[simp] lemma hashedLeaf_false : hashedLeaf sha256 false = hashLeaf sha256 := by
  funext leaf
  cases leaf <;> simp [hashedLeaf]

lemma getRoot_eq_top (h : leaves ≠ []) :
    top (hashInternal sha256) (leaves.map (hashLeaf sha256)) =
      some (merkleTree sha256 leaves).getRoot := by
  have hne : leaves.map (hashLeaf sha256) ≠ [] := by simpa using h
  obtain ⟨root, hroot⟩ := exists_top (hashInternal sha256) hne
  have hlayers : (merkleTree sha256 leaves).layers =
      layers (hashInternal sha256) (leaves.map (hashLeaf sha256)) := by
    simp [merkleTree, buildTree, h]
  rw [hroot, MerkleTree.getRoot, hlayers]
  unfold top at hroot
  cases hlast : (layers (hashInternal sha256) (leaves.map (hashLeaf sha256))).getLast? with
  | none => simp [hlast] at hroot
  | some topLayer =>
    rw [hlast, Option.bind_some] at hroot
    simp [hroot]

lemma leaf_mem_inputs {t : HashTree Bytes} {b : Bytes} (h : b ∈ t.leaves) :
    leafInput b ∈ inputs sha256 t :=
  List.mem_append_left _ (List.mem_map_of_mem h)

lemma join_mem_inputs {t : HashTree Bytes} {p : Digest × Digest}
    (h : p ∈ t.joins (bytesHash sha256) (hashInternal sha256)) :
    internalInput p.1 p.2 ∈ inputs sha256 t :=
  List.mem_append_right _ (List.mem_map.mpr ⟨p, h, rfl⟩)

lemma getRoot_eq_eval (sha256 : Bytes → Digest) (h : leaves ≠ []) :
    ∃ t, tree (leaves.map Leaf.serialized) = some t ∧
      treeInputs sha256 leaves = inputs sha256 t ∧ (merkleTree sha256 leaves).getRoot =
        t.eval (bytesHash sha256) (hashInternal sha256) := by
  have hne : leaves.map Leaf.serialized ≠ [] := by simpa using h
  obtain ⟨t, ht⟩ := exists_tree hne
  have htop := top_eq_eval (bytesHash sha256) (hashInternal sha256) (leaves.map Leaf.serialized)
  rw [ht, List.map_map] at htop
  refine ⟨t, ht, ?_, Option.some.inj ((getRoot_eq_top h).symm.trans htop)⟩
  rw [treeInputs, ht]
  rfl

end Roots

section Binding

/-- Leaves and joins can be told from their hashes where no two inputs collide. -/
lemma eval_injective {s t : HashTree Bytes}
    (hfree : CollisionFree sha256 (inputs sha256 s ++ inputs sha256 t))
    (h : s.eval (bytesHash sha256) (hashInternal sha256) =
      t.eval (bytesHash sha256) (hashInternal sha256)) : s = t := by
  have hfree' {x y : Bytes} (hx : x ∈ inputs sha256 s) (hy : y ∈ inputs sha256 t)
      (hxy : sha256 x = sha256 y) : x = y :=
    hfree x (List.mem_append_left _ hx) y (List.mem_append_right _ hy) hxy
  apply HashTree.eval_injective _ _ _ _ h
  · intro a ha b hb hab
    exact leafInput_injective (hfree' (leaf_mem_inputs ha) (leaf_mem_inputs hb) hab)
  · intro p hp q hq hpq
    obtain ⟨hl, hr⟩ :=
      internalInput_injective (hfree' (join_mem_inputs hp) (join_mem_inputs hq) hpq)
    exact Prod.ext hl hr
  · intro a ha q hq haq
    exact leafInput_ne_internalInput _ _ _
      (hfree' (leaf_mem_inputs ha) (join_mem_inputs hq) haq)
  · intro p hp b hb hpb
    exact leafInput_ne_internalInput _ _ _
      (hfree' (join_mem_inputs hp) (leaf_mem_inputs hb) hpb).symm

lemma serialized_buffers (l : List Bytes) : (l.map Leaf.buffer).map Leaf.serialized = l := by
  rw [List.map_map]
  exact List.map_id l

end Binding

section Proofs

def ProofStep.ofPath (step : Side × Digest) : ProofStep :=
  ⟨match step.1 with | .left => "left" | .right => "right", some (toHex step.2.bytes)⟩

lemma followProof_ofPath (a : Digest) (path : List (Side × Digest)) :
    followProof sha256 a (path.map ProofStep.ofPath) = some (climb (hashInternal sha256) a path) := by
  induction path generalizing a with
  | nil => rfl
  | cons step path ih =>
    obtain ⟨side, sibling⟩ := step
    rw [List.map_cons, climb_cons, ← ih]
    cases side with
    | left => simp [followProof, ProofStep.ofPath, sibling.length_bytes, Side.join]
    | right => simp [followProof, ProofStep.ofPath, sibling.length_bytes, Side.join]

lemma proofFrom_eq (ha : layer[i]? = some a) :
    proofFrom (layers (hashInternal sha256) layer) i =
      (pathOf (layers (hashInternal sha256) layer) i).map ProofStep.ofPath := by
  induction layer using layer_induction (hashInternal sha256) generalizing i a with
  | nil => simp at ha
  | one b => rfl
  | more layer hlong ih =>
    obtain ⟨b, hb, hnext⟩ := getElem?_nextLayer (hashInternal sha256) ha
    have hupper := ih hnext
    obtain ⟨upper, rest, hl⟩ := List.exists_cons_of_ne_nil
      (layers_ne_nil (hashInternal sha256) (nextLayer (hashInternal sha256) layer))
    rw [layers_of_long hlong]
    rw [hl] at hupper ⊢
    rw [proofFrom, pathOf, hb, Option.toList_some, List.map_singleton, List.singleton_append,
      List.map_cons, hupper]
    congr 1
    unfold siblingOf at hb
    by_cases hodd : i % 2 = 1
    · rw [if_pos hodd] at hb
      simp [hodd, hb, ProofStep.ofPath, sideOf]
    · rw [if_neg hodd] at hb
      cases hpair : layer[i + 1]? with
      | none =>
        rw [hpair, Option.none_or, ha] at hb
        obtain rfl := Option.some.inj hb
        simp [hodd, hpair, ha, ProofStep.ofPath, sideOf]
      | some pair =>
        rw [hpair, Option.some_or] at hb
        obtain rfl := Option.some.inj hb
        simp [hodd, hpair, ProofStep.ofPath, sideOf]

/-- What a proof leads to is reached by a path, and no join of the path went unhashed. -/
lemma climb_of_followProof (h : followProof sha256 a proof = some b) :
    ∃ path, b = climb (hashInternal sha256) a path ∧
      ∀ p ∈ joinsOf (hashInternal sha256) a path,
        internalInput p.1 p.2 ∈ proofInputs sha256 a proof := by
  induction proof generalizing a with
  | nil =>
    refine ⟨[], (Option.some.inj h).symm, fun p hp => ?_⟩
    cases hp
  | cons step proof ih =>
    rw [followProof] at h
    rw [proofInputs]
    cases hhash : step.hash with
    | none => simp [hhash] at h
    | some hash =>
      simp only [hhash] at h ⊢
      split_ifs at h ⊢ with hlength hleft hright
      · obtain ⟨path, hb, hjoins⟩ := ih h
        refine ⟨(.left, ⟨ofHex hash, hlength⟩) :: path, hb, fun p hp => ?_⟩
        obtain rfl | hp := List.mem_cons.mp hp
        · exact List.mem_cons_self ..
        · exact List.mem_cons_of_mem _ (hjoins p hp)
      · obtain ⟨path, hb, hjoins⟩ := ih h
        refine ⟨(.right, ⟨ofHex hash, hlength⟩) :: path, hb, fun p hp => ?_⟩
        obtain rfl | hp := List.mem_cons.mp hp
        · exact List.mem_cons_self ..
        · exact List.mem_cons_of_mem _ (hjoins p hp)

lemma verifyProof_getProof (hi : leaves[i]? = some leaf) :
    ∃ proof, (merkleTree sha256 leaves).getProof i = .ok proof ∧
      verifyProof sha256 leaf proof (.buffer (merkleTree sha256 leaves).getRoot.bytes) = true ∧
      verifyProof sha256 leaf proof (.hex (merkleTree sha256 leaves).getRootHex) = true := by
  have hlt : i < leaves.length := (List.getElem?_eq_some_iff.mp hi).1
  have hne : leaves ≠ [] := List.ne_nil_of_length_pos (by omega)
  have ha : (leaves.map (hashLeaf sha256))[i]? = some (hashLeaf sha256 leaf) := by simp [hi]
  have hroot : followProof sha256 (hashLeaf sha256 leaf)
      (proofFrom (merkleTree sha256 leaves).layers i) =
        some (merkleTree sha256 leaves).getRoot := by
    have hlayers : (merkleTree sha256 leaves).layers =
        layers (hashInternal sha256) (leaves.map (hashLeaf sha256)) := by
      simp [merkleTree, buildTree, hne]
    rw [hlayers, proofFrom_eq ha, followProof_ofPath, ← top_eq_climb ha, getRoot_eq_top hne]
  have hhex : (merkleTree sha256 leaves).getRootHex ≠ "" := by
    intro h
    have hbytes := congrArg ofHex h
    rw [MerkleTree.getRootHex, ofHex_toHex] at hbytes
    have hlength := congrArg List.length hbytes
    rw [Digest.length_bytes] at hlength
    exact absurd hlength (by decide)
  refine ⟨proofFrom (merkleTree sha256 leaves).layers i, ?_, ?_, ?_⟩
  · have hleaf : ¬ (merkleTree sha256 leaves).leafHashes.length ≤ i := by
      simpa [merkleTree] using hlt
    rw [MerkleTree.getProof, if_neg hleaf]
  · simp [verifyProof, hroot, Root.bytes]
  · simp [verifyProof, hroot, Root.bytes, MerkleTree.getRootHex] at hhex ⊢
    exact hhex

end Proofs

/-- Every leaf's proof verifies; and whatever proof verifies a leaf, the tree was built over the
leaf's bytes. -/
theorem verifyProof_complete_and_sound (sha256 : Bytes → Digest) (leaves : List Leaf) :
    (∀ i leaf, leaves[i]? = some leaf → ∃ proof,
      (merkleTree sha256 leaves).getProof i = .ok proof ∧
        verifyProof sha256 leaf proof (.buffer (merkleTree sha256 leaves).getRoot.bytes) = true ∧
        verifyProof sha256 leaf proof (.hex (merkleTree sha256 leaves).getRootHex) = true) ∧
      ∀ leaf proof root, leaves ≠ [] →
        root = .buffer (merkleTree sha256 leaves).getRoot.bytes ∨
          root = .hex (merkleTree sha256 leaves).getRootHex →
        CollisionFree sha256 (treeInputs sha256 leaves ++ verifyInputs sha256 leaf proof) →
        verifyProof sha256 leaf proof root = true →
        ∃ l ∈ leaves, l.serialized = leaf.serialized := by
  refine ⟨fun i leaf hi => verifyProof_getProof hi, ?_⟩
  intro leaf proof root hne hroot hfree hverify
  have hbytes : root.bytes = (merkleTree sha256 leaves).getRoot.bytes := by
    obtain rfl | rfl := hroot
    · rfl
    · exact ofHex_toHex _
  obtain ⟨t, ht, hinputs, heval⟩ := getRoot_eq_eval sha256 hne
  rw [verifyProof] at hverify
  split_ifs at hverify with hempty
  rw [hashedLeaf_false] at hverify
  cases hfollow : followProof sha256 (hashLeaf sha256 leaf) proof with
  | none => simp [hfollow] at hverify
  | some last =>
    simp only [hfollow, decide_eq_true_eq, hbytes] at hverify
    obtain ⟨path, hlast, hjoins⟩ := climb_of_followProof hfollow
    have hclimb : climb (hashInternal sha256) (hashLeaf sha256 leaf) path =
        t.eval (bytesHash sha256) (hashInternal sha256) := by
      rw [← hlast, ← heval]
      exact Digest.ext hverify
    have hfree' {x y : Bytes} (hx : x ∈ verifyInputs sha256 leaf proof)
        (hy : y ∈ inputs sha256 t) (hxy : sha256 x = sha256 y) : x = y :=
      hfree x (List.mem_append_right _ hx) y (List.mem_append_left _ (hinputs ▸ hy)) hxy
    have hleaf : leafInput leaf.serialized ∈ verifyInputs sha256 leaf proof :=
      List.mem_cons_self ..
    have hpath {p : Digest × Digest}
        (hp : p ∈ joinsOf (hashInternal sha256) (hashLeaf sha256 leaf) path) :
        internalInput p.1 p.2 ∈ verifyInputs sha256 leaf proof :=
      List.mem_cons_of_mem _ (hjoins p hp)
    obtain ⟨b, hb, heq⟩ := mem_leaves_of_climb
      (fun p hp q hq hpq => by
        obtain ⟨hl, hr⟩ := internalInput_injective (hfree' (hpath hp) (join_mem_inputs hq) hpq)
        exact .inl (Prod.ext hl hr))
      (fun q hq hlq => leafInput_ne_internalInput _ _ _ (hfree' hleaf (join_mem_inputs hq) hlq))
      (fun p hp b hb hpb =>
        leafInput_ne_internalInput _ _ _ (hfree' (hpath hp) (leaf_mem_inputs hb) hpb).symm) hclimb
    have hsame := leafInput_injective (hfree' hleaf (leaf_mem_inputs hb) heq)
    rw [← complete_of_tree ht] at hb
    obtain ⟨l, hl, rfl⟩ := List.mem_map.mp (mem_of_mem_complete hb)
    exact ⟨l, hl, hsame.symm⟩

/-- The proof of the second of three leaves. -/
theorem second_leaf_verified :
    ∃ proof, (merkleTree sampleSha256 ([[1], [2], [3]].map .buffer)).getProof 1 = .ok proof ∧
      ∃ l ∈ ([[1], [2], [3]].map Leaf.buffer), l.serialized = [2] := by
  obtain ⟨hcomplete, hsound⟩ :=
    verifyProof_complete_and_sound sampleSha256 ([[1], [2], [3]].map .buffer)
  obtain ⟨proof, hproof, hverify, -⟩ := hcomplete 1 (.buffer [2]) rfl
  refine ⟨proof, hproof, hsound (.buffer [2]) proof _ (by decide) (.inl rfl) ?_ hverify⟩
  obtain rfl := Except.ok.inj hproof
  decide +kernel

end StellarTags.Settlement
